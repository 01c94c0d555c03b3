/-
Settings a broker client takes.

Settings are texts.  A number is read from the front of its text, in base sixteen, eight or ten
as its first digits say, and whatever follows it is passed over.  It is kept in a word of 32
bits, so that larger numbers lose their upper half.  Names are read in letters of either case.
-/
import Rendezvous.Text.Bytes

namespace Rendezvous
namespace ClientSetting

/-- The characters that may stand in front of a value. -/
def isGap (c : Char) : Bool := c = ' ' || ('\t' ≤ c && c ≤ '\r')

/-- A text without the gap in front of it. -/
def unpadded (cs : List Char) : List Char := cs.dropWhile isGap

/-- The values of the digits at the front of a text, to a base of at most sixteen. -/
def leadingDigits (base : Nat) : List Char → List Nat
  | [] => []
  | c :: cs =>
    match Hex.value? c with
    | some d => if d < base then d :: leadingDigits base cs else []
    | none => []

/-- The base of a number without its sign, and the text of its digits. -/
def based (cs : List Char) : Nat × List Char :=
  match cs with
  | '0' :: x :: d :: rest =>
    if (x = 'x' || x = 'X') && (Hex.value? d).isSome then (16, d :: rest) else (8, cs)
  | '0' :: _ => (8, cs)
  | _ => (10, cs)

/-- The number at the front of a text without a sign. -/
def leadingNat? (cs : List Char) : Option Nat :=
  let (base, cs) := based cs
  match leadingDigits base cs with
  | [] => none
  | ds => some (ds.foldl (fun n d => base * n + d) 0)

/-- The number at the front of a text, after a gap and a sign. -/
def leadingInt? (cs : List Char) : Option Int :=
  match unpadded cs with
  | '-' :: cs => (leadingNat? cs).map fun n => -(n : Int)
  | '+' :: cs => (leadingNat? cs).map Int.ofNat
  | cs => (leadingNat? cs).map Int.ofNat

/-- What a word keeps of a number: the lower half of the nearest number of 64 bits, with the
sign that its first bit stands for. -/
def kept (n : Int) : Int :=
  Int.bmod (max (-0x8000000000000000) (min n 0x7fffffffffffffff)) 0x100000000

/-- Whether a number is taken, which has to lie in a range; a text without a number may be a
name instead. -/
def takesNumber (least most : Int) (names : List String) (text : String) : Bool :=
  match leadingInt? text.toList with
  | some n => least ≤ kept n && kept n ≤ most
  | none => names.contains (String.ofList (text.toList.map Char.toLower))

/-- Whether one of several names is taken.  A text of nothing but a gap leaves the setting as it
is. -/
def takesName (names : List String) (text : String) : Bool :=
  match unpadded text.toList with
  | [] => !text.isEmpty
  | cs => names.contains (String.ofList (cs.map Char.toLower))

/-- Whether a text can be handed to the client at all. -/
def isHanded (text : String) : Bool := !text.toList.contains '\x00'

end ClientSetting
end Rendezvous
