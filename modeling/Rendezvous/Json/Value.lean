/-
Data values.

Header values, variables and bodies are data values.  Whole numbers are kept apart from real
ones, because they are compared and written differently.  The members of an object are meant to
be in increasing order of their names, as in a `Dict`; `Json.Tidy` says so at every level.
-/
import Rendezvous.Dict

namespace Rendezvous

/-- A data value. -/
inductive Json where
  | null
  | bool (b : Bool)
  | int (n : Int)
  | real (x : Float)
  | str (s : String)
  | arr (items : List Json)
  | obj (members : List (String × Json))
deriving Inhabited

namespace Json

def ofDict (d : Dict Json) : Json := .obj d.entries

def str? : Json → Option String
  | .str s => some s
  | _ => none

def isNull : Json → Bool
  | .null => true
  | _ => false

/-- The largest whole number that is kept exactly. -/
def maxInt : Int := 18446744073709551615

/-- The smallest whole number that is kept exactly. -/
def minInt : Int := -9223372036854775808

mutual
/-- No real number occurs, whole numbers are in range, and the members of every object are in
increasing order of their names. -/
inductive Tidy : Json → Prop where
  | null : Tidy .null
  | bool (b : Bool) : Tidy (.bool b)
  | int (n : Int) (low : minInt ≤ n) (high : n ≤ maxInt) : Tidy (.int n)
  | str (s : String) : Tidy (.str s)
  | arr {items : List Json} (all : TidyItems items) : Tidy (.arr items)
  | obj {members : List (String × Json)} (ordered : Entries.Ordered members)
      (all : TidyMembers members) : Tidy (.obj members)

inductive TidyItems : List Json → Prop where
  | nil : TidyItems []
  | cons {v : Json} {vs : List Json} (head : Tidy v) (tail : TidyItems vs) : TidyItems (v :: vs)

inductive TidyMembers : List (String × Json) → Prop where
  | nil : TidyMembers []
  | cons {k : String} {v : Json} {ms : List (String × Json)} (head : Tidy v)
      (tail : TidyMembers ms) : TidyMembers ((k, v) :: ms)
end

mutual
/-- The number of arrays and objects around the innermost value. -/
def depth : Json → Nat
  | .arr items => depthItems items + 1
  | .obj members => depthMembers members + 1
  | _ => 0

def depthItems : List Json → Nat
  | [] => 0
  | v :: vs => max (depth v) (depthItems vs)

def depthMembers : List (String × Json) → Nat
  | [] => 0
  | (_, v) :: ms => max (depth v) (depthMembers ms)
end

end Json
end Rendezvous
