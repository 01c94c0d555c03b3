/-
Looking into data values.

A part that is not there, or is of another kind, is absent: for those who do not care why, it is
null, or empty.
-/
import Rendezvous.Json.Value

namespace Rendezvous
namespace Json

def int? : Json → Option Int
  | .int n => some n
  | _ => none

/-- The natural number of a value; a negative one counts as zero. -/
def nat? (v : Json) : Option Nat := v.int?.map Int.toNat

def bool? : Json → Option Bool
  | .bool b => some b
  | _ => none

def items : Json → List Json
  | .arr vs => vs
  | _ => []

def dict : Json → Dict Json
  | .obj members => Dict.ofList members
  | _ => Dict.empty

def get (v : Json) (name : String) : Json :=
  match v with
  | .obj members => (members.lookup name).getD .null
  | _ => .null

def textAt? (v : Json) (name : String) : Option String := (v.get name).str?

/-- The text of a member, or the empty one. -/
def textAt (v : Json) (name : String) : String := (v.textAt? name).getD ""

def intAt? (v : Json) (name : String) : Option Int := (v.get name).int?

def natAt? (v : Json) (name : String) : Option Nat := (v.get name).nat?

def natAt (v : Json) (name : String) : Nat := (v.natAt? name).getD 0

def boolAt? (v : Json) (name : String) : Option Bool := (v.get name).bool?

def itemsAt (v : Json) (name : String) : List Json := (v.get name).items

def dictAt (v : Json) (name : String) : Dict Json := (v.get name).dict

def ofNat (n : Nat) : Json := .int n

def list {α : Type} (write : α → Json) (xs : List α) : Json := .arr (xs.map write)

def option {α : Type} (write : α → Json) : Option α → Json
  | some a => write a
  | none => .null

end Json
end Rendezvous
