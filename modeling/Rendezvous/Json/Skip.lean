/-
Stepping over values that are not wanted.

The value of an unknown key is checked for its lexemes and brackets only: any nesting, any
magnitude of a number and any octets inside quotation marks pass.  The open brackets are kept
in a list, so the nesting costs no recursion.
-/
import Rendezvous.Json.Reader

namespace Rendezvous
namespace Json

inductive Bracket where
  | list
  | object
deriving DecidableEq, Repr

/-- What may come next: a value, the first thing behind an opening bracket, or what follows a
value. -/
inductive Expecting where
  | value
  | first
  | more
deriving DecidableEq, Repr

/-- The problem of a text that ends inside a bracket. -/
def Bracket.ending : Bracket → Problem
  | .list => .endsInList
  | .object => .endsInObject

/-- The problem of a value followed by something else. -/
def Bracket.unexpected : Bracket → Problem
  | .list => .expectedCommaOrBracket
  | .object => .expectedCommaOrBrace

def Bracket.closing : Bracket → UInt8
  | .list => 0x5d
  | .object => 0x7d

/-- The octets behind a text whose opening quotation mark has been read. -/
def skipText : Bytes → Except Problem Bytes
  | [] => .error .endsInString
  | 0x22 :: rest => .ok rest
  | 0x5c :: [] => .error .endsInString
  | 0x5c :: 0x75 :: a :: b :: c :: d :: rest =>
    match hexUnit? a b c d with
    | none => .error .invalidEscape
    | some _ => skipText rest
  | 0x5c :: 0x75 :: _ => .error .endsInString
  | 0x5c :: o :: rest =>
    match escapedOctet? o with
    | none => .error .invalidEscape
    | some _ => skipText rest
  | o :: rest => if o < 0x20 then .error .controlCharacter else skipText rest

/-- The octets behind an exponent whose mark has been read. -/
def skipExponent (b : Bytes) : Except Problem Bytes :=
  let b : Bytes :=
    match b with
    | 0x2b :: rest => rest
    | 0x2d :: rest => rest
    | _ => b
  match b with
  | o :: rest => if isDigit o then .ok (rest.dropWhile isDigit) else .error .invalidNumber
  | [] => .error .invalidNumber

/-- The octets behind the fraction and exponent of a number. -/
def skipTail : Bytes → Except Problem Bytes
  | 0x65 :: rest => skipExponent rest
  | 0x45 :: rest => skipExponent rest
  | 0x2e :: rest =>
    match dropDigits rest with
    | (0, _) => .error .invalidNumber
    | (_, 0x65 :: rest') => skipExponent rest'
    | (_, 0x45 :: rest') => skipExponent rest'
    | (_, rest') => .ok rest'
  | b => .ok b

/-- The octets behind a number whose sign has been read. -/
def skipNumber : Bytes → Except Problem Bytes
  | [] => .error .invalidNumber
  | 0x30 :: rest =>
    match rest with
    | o :: _ => if isDigit o then .error .invalidNumber else skipTail rest
    | [] => .ok []
  | o :: rest => if isDigit o then skipTail (rest.dropWhile isDigit) else .error .invalidNumber

/-- The octets behind the key and colon of a member. -/
def skipKey (b : Bytes) : Except Problem Bytes :=
  match skipSpace b with
  | [] => .error .endsInObject
  | 0x22 :: rest =>
    match skipText rest with
    | .error p => .error p
    | .ok rest' => expectColon rest'
  | _ => .error .keyNotString

/-- The octets behind one lexeme where a value is wanted, and the bracket it opens. -/
def skipLexeme (b : Bytes) : Except Problem (Option Bracket × Bytes) :=
  match skipSpace b with
  | [] => .error .endsInValue
  | 0x6e :: rest => (expectWord ['u', 'l', 'l'] rest).map (none, ·)
  | 0x74 :: rest => (expectWord ['r', 'u', 'e'] rest).map (none, ·)
  | 0x66 :: rest => (expectWord ['a', 'l', 's', 'e'] rest).map (none, ·)
  | 0x2d :: rest => (skipNumber rest).map (none, ·)
  | 0x22 :: rest => (skipText rest).map (none, ·)
  | 0x5b :: rest => .ok (some .list, rest)
  | 0x7b :: rest => .ok (some .object, rest)
  | o :: rest =>
    if isDigit o then (skipNumber (o :: rest)).map (none, ·) else .error .expectedValue

/-- Steps over a value and whatever the open brackets still want. -/
def skipRun : Nat → Expecting → List Bracket → Bytes → Except Problem Bytes
  | 0, _, _, _ => .error .endsInValue
  | steps + 1, .value, opened, b =>
    match skipLexeme b with
    | .error p => .error p
    | .ok (some bracket, rest) => skipRun steps .first (bracket :: opened) rest
    | .ok (none, rest) => skipRun steps .more opened rest
  | _ + 1, _, [], b => .ok b
  | steps + 1, state, bracket :: opened, b =>
    match skipSpace b with
    | [] => .error bracket.ending
    | o :: rest =>
      if o = bracket.closing then skipRun steps .more opened rest
      else if state = .more ∧ o ≠ 0x2c then .error bracket.unexpected
      else
        let inside : Bytes := if state = .more then rest else o :: rest
        match bracket with
        | .list => skipRun steps .value (.list :: opened) inside
        | .object =>
          match skipKey inside with
          | .error p => .error p
          | .ok rest' => skipRun steps .value (.object :: opened) rest'

/-- The octets behind a value that is not wanted. -/
def skipValue (b : Bytes) : Except Problem Bytes :=
  skipRun (stepsFor b) .value [] b

end Json
end Rendezvous
