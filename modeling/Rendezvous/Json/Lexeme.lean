/-
The lexemes of a data text.

Each function takes the octets that are left and answers with what it read and what is left
behind it, or with the first problem.  A text is read to its closing quotation mark before its
octets are checked to be valid UTF-8, so a problem of the escapes comes first.
-/
import Rendezvous.Json.Problem

namespace Rendezvous
namespace Json

/-- What was read and the octets behind it, or the first problem. -/
abbrev Read (α : Type) := Except Problem (α × Bytes)

def isSpace (o : UInt8) : Bool := o == 0x20 || o == 0x0a || o == 0x09 || o == 0x0d

def skipSpace (b : Bytes) : Bytes := b.dropWhile isSpace

def ascii (c : Char) : UInt8 := UInt8.ofNat c.toNat

def isDigit (o : UInt8) : Bool := 0x30 ≤ o && o ≤ 0x39

def digitValue (o : UInt8) : Nat := o.toNat - 0x30

/-- The octets behind a given word. -/
def expectWord : List Char → Bytes → Except Problem Bytes
  | [], b => .ok b
  | _ :: _, [] => .error .endsInValue
  | c :: cs, o :: b => if o = ascii c then expectWord cs b else .error .expectedIdent

/-! ## Texts -/

def hexUnit? (a b c d : UInt8) : Option Nat :=
  Hex.number? 0 [Char.ofNat a.toNat, Char.ofNat b.toNat, Char.ofNat c.toNat, Char.ofNat d.toNat]

def escapedOctet? (o : UInt8) : Option UInt8 :=
  if o = ascii '"' then some 0x22
  else if o = ascii '\\' then some 0x5c
  else if o = ascii '/' then some 0x2f
  else if o = ascii 'b' then some 0x08
  else if o = ascii 'f' then some 0x0c
  else if o = ascii 'n' then some 0x0a
  else if o = ascii 'r' then some 0x0d
  else if o = ascii 't' then some 0x09
  else none

/-- A unit of the lower half of a surrogate pair. -/
def isLowSurrogate (n : Nat) : Bool := 0xdc00 ≤ n && n ≤ 0xdfff

/-- A unit of the upper half of a surrogate pair. -/
def isHighSurrogate (n : Nat) : Bool := 0xd800 ≤ n && n ≤ 0xdbff

def codePointOctets (n : Nat) : Bytes := String.utf8EncodeChar (Char.ofNat n)

def pairValue (high low : Nat) : Nat := 0x10000 + (high - 0xd800) * 0x400 + (low - 0xdc00)

/-- Puts octets in front of what was read. -/
def before (octets : Bytes) : Read Bytes → Read Bytes
  | .ok (more, rest) => .ok (octets ++ more, rest)
  | .error p => .error p

/-- The octets of a text up to its closing quotation mark, escapes resolved. -/
def textOctets : Bytes → Read Bytes
  | [] => .error .endsInString
  | 0x22 :: rest => .ok ([], rest)
  | 0x5c :: [] => .error .endsInString
  | 0x5c :: 0x75 :: a :: b :: c :: d :: rest =>
    match hexUnit? a b c d with
    | none => .error .invalidEscape
    | some unit =>
      if isLowSurrogate unit then .error .loneSurrogate
      else if isHighSurrogate unit then
        match rest with
        | [] => .error .endsInString
        | 0x5c :: [] => .error .endsInString
        | 0x5c :: 0x75 :: e :: f :: g :: h :: rest' =>
          match hexUnit? e f g h with
          | none => .error .invalidEscape
          | some low =>
            if isLowSurrogate low then
              before (codePointOctets (pairValue unit low)) (textOctets rest')
            else .error .loneSurrogate
        | 0x5c :: 0x75 :: _ => .error .endsInString
        | _ => .error .unfinishedSurrogatePair
      else before (codePointOctets unit) (textOctets rest)
  | 0x5c :: 0x75 :: _ => .error .endsInString
  | 0x5c :: o :: rest =>
    match escapedOctet? o with
    | none => .error .invalidEscape
    | some octet => before [octet] (textOctets rest)
  | o :: rest =>
    if o < 0x20 then .error .controlCharacter
    else before [o] (textOctets rest)

/-- A text whose opening quotation mark has been read. -/
def readText (b : Bytes) : Read String :=
  match textOctets b with
  | .error p => .error p
  | .ok (octets, rest) =>
    match Text.ofBytes? octets with
    | some s => .ok (s, rest)
    | none => .error .invalidCodePoint

/-! ## Numbers -/

/-- The largest whole number that fits 64 bits. -/
def maxWord : Nat := 18446744073709551615

/-- Takes digits into a significand while it fits 64 bits; answers with the digits taken. -/
def takeDigits (significand taken : Nat) : Bytes → Nat × Nat × Bytes
  | [] => (significand, taken, [])
  | o :: rest =>
    if isDigit o && significand * 10 + digitValue o ≤ maxWord then
      takeDigits (significand * 10 + digitValue o) (taken + 1) rest
    else (significand, taken, o :: rest)

def dropDigits (b : Bytes) : Nat × Bytes :=
  ((b.takeWhile isDigit).length, b.dropWhile isDigit)

/-- Moves an exponent below `-308` up in strides of 308, while something is left to divide. -/
def lowerTail (f : Float) (exponent : Int) : Nat → Float
  | 0 => f / Decimal.powerOfTen exponent.natAbs
  | strides + 1 =>
    if exponent.natAbs ≤ 308 then f / Decimal.powerOfTen exponent.natAbs
    else if f == 0.0 then f
    else lowerTail (f / 1e308) (exponent + 308) strides

/-- The double `significand * 10 ^ exponent`, rounded once for the significand and once for
the power; none when it is beyond the largest double. -/
def scaledReal? (significand : Nat) (exponent : Int) : Option Float :=
  let f := (UInt64.ofNat significand).toFloat
  if exponent < 0 then some (lowerTail f exponent (exponent.natAbs / 308))
  else if exponent ≤ 308 then
    let x := f * Decimal.powerOfTen exponent.toNat
    if Decimal.isFinite x then some x else none
  else if f == 0.0 then some f
  else none

def signedReal (negative : Bool) (significand : Nat) (exponent : Int) (rest : Bytes) :
    Read Json :=
  match scaledReal? significand exponent with
  | some x => .ok (.real (if negative then -x else x), rest)
  | none => .error .numberOutOfRange

/-- The largest exponent that is read as a number. -/
def maxExponent : Nat := 2147483647

/-- The exponent of a number, whose mark has been read; `point` is the exponent so far. -/
def readExponent (negative : Bool) (significand : Nat) (point : Int) (b : Bytes) : Read Json :=
  let (downward, b) : Bool × Bytes :=
    match b with
    | 0x2b :: rest => (false, rest)
    | 0x2d :: rest => (true, rest)
    | _ => (false, b)
  match b with
  | [] => .error .endsInValue
  | o :: _ =>
    if isDigit o then
      let digits := b.takeWhile isDigit
      let rest := b.dropWhile isDigit
      let e := digits.foldl (fun n d => n * 10 + digitValue d) 0
      if maxExponent < e then
        if significand ≠ 0 ∧ downward = false then .error .numberOutOfRange
        else .ok (.real (if negative then -0.0 else 0.0), rest)
      else signedReal negative significand (if downward then point - e else point + e) rest
    else .error .invalidNumber

/-- The rest of a real number behind its digits. -/
def readMagnitude (negative : Bool) (significand : Nat) (point : Int) (b : Bytes) : Read Json :=
  match b with
  | 0x65 :: rest => readExponent negative significand point rest
  | 0x45 :: rest => readExponent negative significand point rest
  | _ => signedReal negative significand point b

/-- The part of a number behind its decimal point. -/
def readFraction (negative : Bool) (significand : Nat) (point : Int) (b : Bytes) : Read Json :=
  let (significand', taken, rest) := takeDigits significand 0 b
  let (dropped, rest') := dropDigits rest
  if taken + dropped = 0 then
    match rest' with
    | [] => .error .endsInValue
    | _ => .error .invalidNumber
  else readMagnitude negative significand' (point - taken) rest'

/-- A whole number of either sign; zero with a sign and numbers out of range are real. -/
def signedInt (negative : Bool) (n : Nat) : Json :=
  if negative then
    if n = 0 ∨ 9223372036854775808 < n then .real (-(UInt64.ofNat n).toFloat) else .int (-(n : Int))
  else .int n

/-- The rest of a number behind its whole part. -/
def readTail (negative : Bool) (n : Nat) (b : Bytes) : Read Json :=
  match b with
  | 0x2e :: rest => readFraction negative n 0 rest
  | 0x65 :: rest => readExponent negative n 0 rest
  | 0x45 :: rest => readExponent negative n 0 rest
  | _ => .ok (signedInt negative n, b)

def readNumber (negative : Bool) (b : Bytes) : Read Json :=
  match b with
  | [] => .error .endsInValue
  | 0x30 :: rest =>
    match rest with
    | o :: _ => if isDigit o then .error .invalidNumber else readTail negative 0 rest
    | [] => readTail negative 0 rest
  | o :: _ =>
    if isDigit o then
      let (significand, _, rest) := takeDigits 0 0 b
      let (dropped, rest') := dropDigits rest
      if dropped = 0 then readTail negative significand rest'
      else
        match rest' with
        | 0x2e :: rest'' => readFraction negative significand dropped rest''
        | _ => readMagnitude negative significand dropped rest'
    else .error .invalidNumber

end Json
end Rendezvous
