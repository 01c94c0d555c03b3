/-
Reading data values.

Arrays and objects may be nested as deep as the reader's allowance; every opening bracket takes
one from it.  The recursion is on a count of steps that the length of the input bounds, and
`read` supplies the count.
-/
import Rendezvous.Json.Lexeme

namespace Rendezvous
namespace Json

/-- The allowance for nested arrays and objects: the bracket that would bring it to zero is
refused. -/
def allowance : Nat := 128

/-- Enough steps for any reading of these octets. -/
def stepsFor (b : Bytes) : Nat := 3 * b.length + 4

/-! ## Between the items of an array and the members of an object -/

/-- Looks for the next item of an array: the octets it starts with, or none at the bracket. -/
def nextItem (first : Bool) (b : Bytes) : Except Problem (Option Bytes) :=
  match skipSpace b with
  | [] => .error .endsInList
  | 0x5d :: _ => .ok none
  | 0x2c :: rest =>
    if first then .ok (some (0x2c :: rest))
    else
      match skipSpace rest with
      | [] => .error .endsInValue
      | 0x5d :: _ => .error .trailingComma
      | o :: rest' => .ok (some (o :: rest'))
  | o :: rest => if first then .ok (some (o :: rest)) else .error .expectedCommaOrBracket

/-- The octets behind the bracket that closes an array. -/
def closeList (b : Bytes) : Except Problem Bytes :=
  match skipSpace b with
  | [] => .error .endsInList
  | 0x5d :: rest => .ok rest
  | 0x2c :: rest =>
    match skipSpace rest with
    | 0x5d :: _ => .error .trailingComma
    | _ => .error .trailingCharacters
  | _ => .error .trailingCharacters

def keyStart (atEnd : Problem) : Bytes → Except Problem (Option Bytes)
  | [] => .error atEnd
  | 0x22 :: rest => .ok (some rest)
  | 0x7d :: _ => .error .trailingComma
  | _ => .error .keyNotString

/-- Looks for the next key of an object: the octets behind its opening quotation mark, or none
at the brace. -/
def nextKey (first : Bool) (b : Bytes) : Except Problem (Option Bytes) :=
  match skipSpace b with
  | [] => .error .endsInObject
  | 0x7d :: _ => .ok none
  | 0x2c :: rest =>
    if first then .error .keyNotString else keyStart .endsInValue (skipSpace rest)
  | o :: rest =>
    if first then keyStart .endsInValue (o :: rest) else .error .expectedCommaOrBrace

/-- The octets behind the brace that closes an object. -/
def closeMap (b : Bytes) : Except Problem Bytes :=
  match skipSpace b with
  | [] => .error .endsInObject
  | 0x7d :: rest => .ok rest
  | 0x2c :: _ => .error .trailingComma
  | _ => .error .trailingCharacters

def expectColon (b : Bytes) : Except Problem Bytes :=
  match skipSpace b with
  | [] => .error .endsInObject
  | 0x3a :: rest => .ok rest
  | _ => .error .expectedColon

/-! ## Values -/

/-- Puts a member in front of later ones; of two with one name the later counts. -/
def addMember (name : String) (value : Json) (later : List (String × Json)) :
    List (String × Json) :=
  match Entries.find? name later with
  | some _ => later
  | none => Entries.insert name value later

mutual
/-- A value, with the given allowance for nesting. -/
def readValue : Nat → Nat → Bytes → Except Problem (Json × Bytes)
  | 0, _, _ => .error .endsInValue
  | steps + 1, depth, b =>
    match skipSpace b with
    | [] => .error .endsInValue
    | 0x6e :: rest => do
      let rest ← expectWord ['u', 'l', 'l'] rest
      return (.null, rest)
    | 0x74 :: rest => do
      let rest ← expectWord ['r', 'u', 'e'] rest
      return (.bool true, rest)
    | 0x66 :: rest => do
      let rest ← expectWord ['a', 'l', 's', 'e'] rest
      return (.bool false, rest)
    | 0x2d :: rest => readNumber true rest
    | 0x22 :: rest => do
      let (s, rest) ← readText rest
      return (.str s, rest)
    | 0x5b :: rest =>
      if depth ≤ 1 then .error .tooDeep
      else do
        let (items, rest) ← readItems steps (depth - 1) true rest
        return (.arr items, rest)
    | 0x7b :: rest =>
      if depth ≤ 1 then .error .tooDeep
      else do
        let (members, rest) ← readMembers steps (depth - 1) true rest
        return (.obj members, rest)
    | o :: rest => if isDigit o then readNumber false (o :: rest) else .error .expectedValue

/-- The items of an array up to its closing bracket. -/
def readItems : Nat → Nat → Bool → Bytes → Except Problem (List Json × Bytes)
  | 0, _, _, _ => .error .endsInList
  | steps + 1, depth, first, b => do
    match ← nextItem first b with
    | none =>
      let rest ← closeList b
      return ([], rest)
    | some start =>
      let (v, rest) ← readValue steps depth start
      let (vs, rest) ← readItems steps depth false rest
      return (v :: vs, rest)

/-- The members of an object up to its closing brace. -/
def readMembers : Nat → Nat → Bool → Bytes → Except Problem (List (String × Json) × Bytes)
  | 0, _, _, _ => .error .endsInObject
  | steps + 1, depth, first, b => do
    match ← nextKey first b with
    | none =>
      let rest ← closeMap b
      return ([], rest)
    | some start =>
      let (k, rest) ← readText start
      let rest ← expectColon rest
      let (v, rest) ← readValue steps depth rest
      let (ms, rest) ← readMembers steps depth false rest
      return (addMember k v ms, rest)
end

/-! ## Whole texts -/

/-- Nothing but blanks may follow a value. -/
def finish {α : Type} (r : Except Problem (α × Bytes)) : Except Problem α :=
  match r with
  | .error p => .error p
  | .ok (a, rest) =>
    match skipSpace rest with
    | [] => .ok a
    | _ => .error .trailingCharacters

def read (b : Bytes) : Except Problem Json :=
  finish (readValue (stepsFor b) allowance b)

end Json
end Rendezvous
