/-
Octet strings and the text they spell.

Message bodies, record headers and digest inputs are octet strings.  Text becomes octets by
UTF-8, and `Text.ofBytes?` reads octets back exactly when they are valid UTF-8.  Hexadecimal
spelling is used for octets that are no text and for identifiers.
-/
namespace Rendezvous

/-- A string of octets. -/
abbrev Bytes := List UInt8

namespace Text

def octets (cs : List Char) : Bytes :=
  cs.flatMap String.utf8EncodeChar

def toBytes (s : String) : Bytes :=
  octets s.toList

/-- The text spelled by octets, if they are valid UTF-8. -/
def ofBytes? (b : Bytes) : Option String :=
  String.fromUTF8? b.toByteArray

theorem octets_nil : octets [] = [] := rfl

theorem octets_cons (c : Char) (cs : List Char) :
    octets (c :: cs) = String.utf8EncodeChar c ++ octets cs := by
  simp [octets]

theorem octets_append (cs ds : List Char) : octets (cs ++ ds) = octets cs ++ octets ds := by
  simp [octets]

end Text

/-! ## Hexadecimal spelling -/

namespace Hex

def digit (n : Nat) : Char :=
  if n < 10 then Char.ofNat (48 + n) else Char.ofNat (87 + n)

/-- The value of a hexadecimal digit of either case. -/
def value? (c : Char) : Option Nat :=
  if '0' ≤ c ∧ c ≤ '9' then some (c.toNat - 48)
  else if 'a' ≤ c ∧ c ≤ 'f' then some (c.toNat - 87)
  else if 'A' ≤ c ∧ c ≤ 'F' then some (c.toNat - 55)
  else none

/-- The `width` lowest digits of `n`, most significant first. -/
def digits : Nat → Nat → List Char
  | 0, _ => []
  | width + 1, n => digits width (n / 16) ++ [digit (n % 16)]

def number? (acc : Nat) : List Char → Option Nat
  | [] => some acc
  | c :: cs => (value? c).bind fun v => number? (16 * acc + v) cs

def ofBytes (b : Bytes) : String :=
  String.ofList (b.flatMap fun o => digits 2 o.toNat)

/-- Octets read from hexadecimal text. -/
def toBytes? : List Char → Option Bytes
  | [] => some []
  | [_] => none
  | a :: b :: cs => do
    let high ← value? a
    let low ← value? b
    let rest ← toBytes? cs
    return UInt8.ofNat (16 * high + low) :: rest

theorem length_digits (width n : Nat) : (digits width n).length = width := by
  induction width generalizing n with
  | zero => rfl
  | succ width ih => simp [digits, ih]

end Hex
end Rendezvous
