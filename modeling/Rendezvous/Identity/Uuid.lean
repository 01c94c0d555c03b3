/-
Identities of 128 bits.

An identity is printed in lower-case hexadecimal with hyphens.  Four spellings are read: the
digits alone, with hyphens, with hyphens in braces, and with hyphens behind `urn:uuid:`.
A name-based identity is a digest of a namespace and a name with the version and variant bits
set, so equal names in one namespace have equal identities.
-/
import Rendezvous.Identity.Digest

namespace Rendezvous

/-- An identity of 128 bits. -/
structure Uuid where
  value : Nat
  bounded : value < 0x100000000000000000000000000000000
deriving DecidableEq

namespace Uuid

def ofNat (n : Nat) : Uuid :=
  ⟨n % 0x100000000000000000000000000000000, Nat.mod_lt _ (by decide)⟩

/-- The identity of zeros. -/
def nil : Uuid := ofNat 0

instance : Inhabited Uuid := ⟨nil⟩

/-! ## Spelling -/

/-- The sizes of the groups of digits between hyphens. -/
def groups : List Nat := [8, 4, 4, 4, 12]

/-- Digits cut into groups with hyphens between them. -/
def hyphenate : List Nat → List Char → List Char
  | [], ds => ds
  | [_], ds => ds
  | n :: ns, ds => ds.take n ++ '-' :: hyphenate ns (ds.drop n)

def chars (u : Uuid) : List Char := hyphenate groups (Hex.digits 32 u.value)

def text (u : Uuid) : String := String.ofList u.chars

/-- The digits of a spelling with hyphens, if they are where they belong. -/
def unhyphenate : List Nat → List Char → Option (List Char)
  | [], cs => some cs
  | [n], cs => if cs.length = n then some cs else none
  | n :: ns, cs =>
    match cs.drop n with
    | '-' :: rest => (unhyphenate ns rest).map (cs.take n ++ ·)
    | _ => none

def ofDigits? (cs : List Char) : Option Uuid :=
  if cs.length = 32 then (Hex.number? 0 cs).map ofNat else none

def ofHyphenated? (cs : List Char) : Option Uuid :=
  (unhyphenate groups cs).bind ofDigits?

/-- What an identity may begin with as a resource name, in any letter case. -/
def urnMark : List Char := ['u', 'r', 'n', ':', 'u', 'u', 'i', 'd', ':']

def parse? (s : String) : Option Uuid :=
  let cs := s.toList
  if cs.length = 32 then ofDigits? cs
  else if cs.length = 36 then ofHyphenated? cs
  else if cs.length = 38 then
    if cs.head? = some '\x7b' ∧ cs.getLast? = some '\x7d' then ofHyphenated? (cs.drop 1).dropLast
    else none
  else if cs.length = 45 then
    if (cs.take 9).map Char.toLower = urnMark then ofHyphenated? (cs.drop 9) else none
  else none

/-! ## Name-based identities -/

/-- The namespace of object identifiers. -/
def oidSpace : Uuid := ofNat 0x6ba7b8129dad11d180b400c04fd430c8

/-- The namespace of locators. -/
def urlSpace : Uuid := ofNat 0x6ba7b8119dad11d180b400c04fd430c8

def bytes (u : Uuid) : Bytes := Digest.bigEndian 16 u.value

/-- What the upper half of an identity counts in. -/
def half : Nat := 0x10000000000000000

/-- Sets the version to five and the variant to the common one. -/
def stamped (n : Nat) : Uuid :=
  let high := n / half
  let version := high / 0x10000 * 0x10000 + 0x5000 + high % 0x1000
  let variant := 0x8000000000000000 + n % 0x4000000000000000
  ofNat (version * half + variant)

def ofName (space : Uuid) (name : Bytes) : Uuid :=
  stamped (Digest.sha1 (space.bytes ++ name) / 0x100000000)

/-- The exclusive or of the two halves, as a signed number of 64 bits. -/
def fold (u : Uuid) : Int64 :=
  (UInt64.ofNat (u.value / half) ^^^ UInt64.ofNat (u.value % half)).toInt64

end Uuid
end Rendezvous
