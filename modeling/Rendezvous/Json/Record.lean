/-
Reading records.

A record is an object with known fields, or the array of their values in order.  A `Field`
says what its name is, whether it must be there, and how its value changes the record read so
far; `readRecord` does the rest.
-/
import Rendezvous.Json.Skip

namespace Rendezvous
namespace Json

/-- A field of records of type `ρ`; `read` takes the allowance for nesting. -/
structure Field (ρ : Type) where
  name : String
  required : Bool
  read : Nat → Bytes → Except Problem ((ρ → ρ) × Bytes)

/-! ## Values of a wanted type -/

/-- The problem of a value of another type: its own if its lexeme is broken. -/
def mismatch (wanted : String) (b : Bytes) : Problem :=
  let number (r : Except Problem (Json × Bytes)) : Problem :=
    match r with
    | .error p => p
    | .ok (.int n, _) => .wrongType (.int n) wanted
    | .ok (.real x, _) => .wrongType (.real x) wanted
    | .ok _ => .expectedValue
  let word (cs : List Char) (found : Found) (rest : Bytes) : Problem :=
    match expectWord cs rest with
    | .error p => p
    | .ok _ => .wrongType found wanted
  match b with
  | [] => .endsInValue
  | 0x6e :: rest => word ['u', 'l', 'l'] .null rest
  | 0x74 :: rest => word ['r', 'u', 'e'] (.bool true) rest
  | 0x66 :: rest => word ['a', 'l', 's', 'e'] (.bool false) rest
  | 0x2d :: rest => number (readNumber true rest)
  | 0x22 :: rest =>
    match readText rest with
    | .error p => p
    | .ok (s, _) => .wrongType (.str s) wanted
  | 0x5b :: _ => .wrongType .sequence wanted
  | 0x7b :: _ => .wrongType .map wanted
  | o :: rest => if isDigit o then number (readNumber false (o :: rest)) else .expectedValue

/-- A text; `wanted` names what stands there. -/
def readTextAs (wanted : String) (b : Bytes) : Except Problem (String × Bytes) :=
  match skipSpace b with
  | [] => .error .endsInValue
  | 0x22 :: rest => readText rest
  | o :: rest => .error (mismatch wanted (o :: rest))

def readOptionalText (b : Bytes) : Except Problem (Option String × Bytes) :=
  match skipSpace b with
  | 0x6e :: rest => do
    let rest ← expectWord ['u', 'l', 'l'] rest
    return (none, rest)
  | _ => do
    let (s, rest) ← readTextAs "a string" b
    return (some s, rest)

def readDict (depth : Nat) (b : Bytes) : Except Problem (Dict Json × Bytes) :=
  match skipSpace b with
  | [] => .error .endsInValue
  | 0x7b :: rest =>
    if depth ≤ 1 then .error .tooDeep
    else do
      let (members, rest) ← readMembers (stepsFor rest) (depth - 1) true rest
      return (Dict.ofList members, rest)
  | o :: rest => .error (mismatch "a map" (o :: rest))

/-! ## Fields -/

variable {ρ : Type}

def Field.text (name : String) (required : Bool) (put : String → ρ → ρ) : Field ρ :=
  ⟨name, required, fun _ b => (readTextAs "a string" b).map fun r => (put r.1, r.2)⟩

def Field.optionalText (name : String) (put : Option String → ρ → ρ) : Field ρ :=
  ⟨name, false, fun _ b => (readOptionalText b).map fun r => (put r.1, r.2)⟩

def Field.dict (name : String) (put : Dict Json → ρ → ρ) : Field ρ :=
  ⟨name, false, fun depth b => (readDict depth b).map fun r => (put r.1, r.2)⟩

/-- Reads an array of field values in order; fields that may be missing keep what `acc` has. -/
def readRow (record : String) (size depth : Nat) :
    List (Field ρ) → Nat → ρ → Bytes → Except Problem (ρ × Bytes)
  | [], _, acc, b => do
    let rest ← closeList b
    return (acc, rest)
  | field :: fields, index, acc, b => do
    match ← nextItem (index == 0) b with
    | none =>
      if field.required then .error (.tooShort index record size)
      else readRow record size depth fields (index + 1) acc b
    | some start =>
      let (update, rest) ← field.read depth start
      readRow record size depth fields (index + 1) (update acc) rest

/-- Reads the members of an object into a record; `seen` are the fields read so far. -/
def readNamed (fields : List (Field ρ)) (depth : Nat) :
    Nat → Bool → List String → ρ → Bytes → Except Problem (ρ × Bytes)
  | 0, _, _, _, _ => .error .endsInObject
  | steps + 1, first, seen, acc, b => do
    match ← nextKey first b with
    | none =>
      match fields.find? fun f => f.required && !seen.contains f.name with
      | some f => .error (.missingField f.name)
      | none =>
        let rest ← closeMap b
        return (acc, rest)
    | some start =>
      let (name, rest) ← readText start
      match fields.find? fun f => f.name == name with
      | some field =>
        if seen.contains name then .error (.duplicateField name)
        else
          let rest ← expectColon rest
          let (update, rest) ← field.read depth rest
          readNamed fields depth steps false (name :: seen) (update acc) rest
      | none =>
        let rest ← expectColon rest
        let rest ← skipValue rest
        readNamed fields depth steps false seen acc rest

/-- A record of the given name, started from its defaults. -/
def readRecord (record : String) (fields : List (Field ρ)) (start : ρ) (depth : Nat)
    (b : Bytes) : Except Problem (ρ × Bytes) :=
  match skipSpace b with
  | [] => .error .endsInValue
  | 0x5b :: rest =>
    if depth ≤ 1 then .error .tooDeep
    else readRow record fields.length (depth - 1) fields 0 start rest
  | 0x7b :: rest =>
    if depth ≤ 1 then .error .tooDeep
    else readNamed fields (depth - 1) (stepsFor rest) true [] start rest
  | o :: rest => .error (mismatch ("struct " ++ record) (o :: rest))

/-! ## Variants -/

def readUnit (b : Bytes) : Except Problem Bytes :=
  match skipSpace b with
  | 0x6e :: rest => expectWord ['u', 'l', 'l'] rest
  | rest => .error (mismatch "unit" rest)

def readVariantName (known : List String) (b : Bytes) : Except Problem (String × Bytes) := do
  let (name, rest) ← readTextAs "variant identifier" b
  if known.contains name then return (name, rest) else .error (.unknownVariant name known)

/-- Where the name of a variant starts in an object, after its brace. -/
def variantKey (b : Bytes) : Except Problem Bytes :=
  match skipSpace b with
  | [] => .error .endsInObject
  | 0x22 :: rest => .ok (0x22 :: rest)
  | 0x7d :: _ => .error .expectedValue
  | _ => .error .keyNotString

/-- A variant without contents: its name, or an object with its name and the null value. -/
def readVariant (known : List String) (depth : Nat) (b : Bytes) :
    Except Problem (String × Bytes) :=
  match skipSpace b with
  | [] => .error .endsInValue
  | 0x22 :: rest => readVariantName known (0x22 :: rest)
  | 0x7b :: rest =>
    if depth ≤ 1 then .error .tooDeep
    else do
      let start ← variantKey rest
      let (name, rest) ← readVariantName known start
      let rest ← expectColon rest
      let rest ← readUnit rest
      match skipSpace rest with
      | [] => .error .endsInObject
      | 0x7d :: rest => return (name, rest)
      | _ => .error .expectedValue
  | _ => .error .expectedValue

end Json
end Rendezvous
