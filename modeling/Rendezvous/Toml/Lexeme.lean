/-
The lexemes of a settings file: blanks, comments, texts, numbers and dates.

A reader takes the characters that are left and answers with what it read and the characters
behind it, or with nothing if the file is malformed there.
-/
import Rendezvous.Text.Bytes
import Rendezvous.Decimal.Layout
import Rendezvous.Toml.Value

namespace Rendezvous
namespace Toml

/-! ## Blanks, comments and line ends -/

def isSpace (c : Char) : Bool := c == ' ' || c == '\t'

def isPlain (c : Char) : Bool := c == '\t' || (0x20 ≤ c.toNat && c.toNat != 0x7f)

def skipSpace (cs : List Char) : List Char := cs.dropWhile isSpace

/-- The characters behind the end of a line. -/
def newline? : List Char → Option (List Char)
  | '\n' :: rest => some rest
  | '\r' :: '\n' :: rest => some rest
  | _ => none

/-- The characters behind a comment, if there is one. -/
def skipComment : List Char → List Char
  | '#' :: rest => rest.dropWhile isPlain
  | cs => cs

/-- The characters behind the end of a line, or none at the end of the file, with blanks and a
comment in front. -/
def endOfLine? (cs : List Char) : Option (List Char) :=
  match skipComment (skipSpace cs) with
  | [] => some []
  | rest => newline? rest

/-- The characters behind blanks, comments and line ends. -/
def skipLines : Nat → List Char → List Char
  | 0, cs => cs
  | fuel + 1, cs =>
    match skipSpace cs with
    | '#' :: rest =>
      match newline? (rest.dropWhile isPlain) with
      | some rest => skipLines fuel rest
      | none => '#' :: rest
    | rest =>
      match newline? rest with
      | some rest => skipLines fuel rest
      | none => rest

/-- The characters behind blanks and line ends. -/
def skipBlankLines : Nat → List Char → List Char
  | 0, cs => cs
  | fuel + 1, cs =>
    let rest := skipSpace cs
    match newline? rest with
    | some rest => skipBlankLines fuel rest
    | none => rest

/-! ## Texts -/

/-- The character of a code point, if it is one. -/
def charOf? (n : Nat) : Option Char :=
  if n < 0xd800 ∨ (0xdfff < n ∧ n < 0x110000) then some (Char.ofNat n) else none

/-- The character that exactly `width` hexadecimal digits stand for. -/
def readCodePoint (width : Nat) (cs : List Char) : Option (Char × List Char) := do
  let ds := cs.take width
  if ds.length = width then
    let n ← Hex.number? 0 ds
    let c ← charOf? n
    return (c, cs.drop width)
  else none

/-- The character behind a backslash. -/
def readEscape : List Char → Option (Char × List Char)
  | 'b' :: rest => some ('\x08', rest)
  | 'f' :: rest => some ('\x0c', rest)
  | 'n' :: rest => some ('\n', rest)
  | 'r' :: rest => some ('\r', rest)
  | 't' :: rest => some ('\t', rest)
  | '"' :: rest => some ('"', rest)
  | '\\' :: rest => some ('\\', rest)
  | 'u' :: rest => readCodePoint 4 rest
  | 'U' :: rest => readCodePoint 8 rest
  | _ => none

/-- The rest of a text in quotation marks. -/
def readBasic : Nat → List Char → Option (List Char × List Char)
  | 0, _ => none
  | fuel + 1, cs =>
    match cs with
    | [] => none
    | '"' :: rest => some ([], rest)
    | '\\' :: rest => do
      let (c, rest) ← readEscape rest
      let (s, rest) ← readBasic fuel rest
      return (c :: s, rest)
    | c :: rest =>
      if isPlain c then do
        let (s, rest) ← readBasic fuel rest
        return (c :: s, rest)
      else none

/-- The rest of a text in apostrophes. -/
def readLiteral : List Char → Option (List Char × List Char)
  | [] => none
  | '\'' :: rest => some ([], rest)
  | c :: rest =>
    if isPlain c then do
      let (s, rest) ← readLiteral rest
      return (c :: s, rest)
    else none

/-- The number of marks at the front, five at most. -/
def countMarks (mark : Char) (cs : List Char) : Nat := ((cs.take 5).takeWhile (· == mark)).length

/-- A run of marks in a text of many lines: fewer than three belong to the text, of more the
last three end it.  Answers with those that belong, and whether the text ends. -/
def splitMarks (n : Nat) : Nat × Bool := if n < 3 then (n, false) else (n - 3, true)

/-- The rest of a text of many lines between three marks; `escapes` says whether a backslash
escapes. -/
def readMany (mark : Char) (escapes : Bool) : Nat → List Char → Option (List Char × List Char)
  | 0, _ => none
  | fuel + 1, cs =>
    match cs with
    | [] => none
    | c :: rest =>
      if c = mark then
        let n := countMarks mark (c :: rest)
        let (kept, ends) := splitMarks n
        let rest := (c :: rest).drop n
        if ends then some (List.replicate kept mark, rest)
        else do
          let (s, rest) ← readMany mark escapes fuel rest
          return (List.replicate kept mark ++ s, rest)
      else if escapes && c = '\\' then
        match newline? (skipSpace rest) with
        | some rest => readMany mark escapes fuel (skipBlankLines rest.length rest)
        | none => do
          let (c, rest) ← readEscape rest
          let (s, rest) ← readMany mark escapes fuel rest
          return (c :: s, rest)
      else
        match newline? (c :: rest) with
        | some rest => do
          let (s, rest) ← readMany mark escapes fuel rest
          return ('\n' :: s, rest)
        | none =>
          if isPlain c then do
            let (s, rest) ← readMany mark escapes fuel rest
            return (c :: s, rest)
          else none

/-- The text of many lines behind its three marks; a line end right there does not count. -/
def readManyLines (mark : Char) (escapes : Bool) (cs : List Char) : Option (List Char × List Char) :=
  match newline? cs with
  | some rest => readMany mark escapes (rest.length + 1) rest
  | none => readMany mark escapes (cs.length + 1) cs

/-- A text, from its first mark. -/
def readText : List Char → Option (String × List Char)
  | '"' :: '"' :: '"' :: rest => (readManyLines '"' true rest).map fun r => (String.ofList r.1, r.2)
  | '"' :: rest => (readBasic (rest.length + 1) rest).map fun r => (String.ofList r.1, r.2)
  | '\'' :: '\'' :: '\'' :: rest =>
    (readManyLines '\'' false rest).map fun r => (String.ofList r.1, r.2)
  | '\'' :: rest => (readLiteral rest).map fun r => (String.ofList r.1, r.2)
  | _ => none

/-! ## Numbers -/

/-- Digits behind a first one, with single underscores between them. -/
def readDigits (isDigit : Char → Bool) : List Char → Option (List Char × List Char)
  | '_' :: c :: rest =>
    if isDigit c then do
      let (ds, rest) ← readDigits isDigit rest
      return (c :: ds, rest)
    else none
  | c :: rest =>
    if isDigit c then do
      let (ds, rest) ← readDigits isDigit rest
      return (c :: ds, rest)
    else if c = '_' then none
    else some ([], c :: rest)
  | [] => some ([], [])

def readDigits1 (isDigit : Char → Bool) : List Char → Option (List Char × List Char)
  | c :: rest =>
    if isDigit c then do
      let (ds, rest) ← readDigits isDigit rest
      return (c :: ds, rest)
    else none
  | [] => none

/-- The digits of a whole number: a leading zero stands alone. -/
def readWhole : List Char → Option (List Char × List Char)
  | '0' :: rest => some (['0'], rest)
  | cs => readDigits1 Char.isDigit cs

/-- The number that digits of a base stand for. -/
def numberOf (base : Nat) (ds : List Char) : Nat :=
  ds.foldl (fun acc c => base * acc + (Hex.value? c).getD 0) 0

/-- The largest whole number. -/
def maxInt : Nat := 9223372036854775807

def intOf? (negative : Bool) (n : Nat) : Option Toml :=
  if negative then if n ≤ maxInt + 1 then some (.int (-(n : Int))) else none
  else if n ≤ maxInt then some (.int n) else none

/-- A whole number of another base, behind its two marks. -/
def readBased (base : Nat) (isDigit : Char → Bool) (cs : List Char) : Option (Toml × List Char) := do
  let (ds, rest) ← readDigits1 isDigit cs
  let v ← intOf? false (numberOf base ds)
  return (v, rest)

/-- The exponent of a real number, behind its mark. -/
def readExponent (cs : List Char) : Option (Int × List Char) :=
  match cs with
  | '+' :: rest => (readDigits1 Char.isDigit rest).map fun r => ((numberOf 10 r.1 : Int), r.2)
  | '-' :: rest => (readDigits1 Char.isDigit rest).map fun r => (-(numberOf 10 r.1 : Int), r.2)
  | cs => (readDigits1 Char.isDigit cs).map fun r => ((numberOf 10 r.1 : Int), r.2)

/-- The double nearest to a decimal; beyond the range of exponents it is zero or infinite. -/
def nearest (significand : Nat) (exponent : Int) : Float :=
  if significand = 0 then 0.0
  else
    let lead : Int := exponent + (Nat.toDigits 10 significand).length
    if lead < -400 then 0.0
    else if 400 < lead then 1.0 / 0.0
    else Decimal.nearest significand exponent

/-- A real number; one that is too large is refused, but not one that is too small. -/
def realOf? (negative : Bool) (whole fraction : List Char) (exponent : Int) : Option Toml :=
  let x := nearest (numberOf 10 (whole ++ fraction)) (exponent - fraction.length)
  if negative then some (.real (-x))
  else if Decimal.isFinite x then some (.real x) else none

def readNumber (negative : Bool) (cs : List Char) : Option (Toml × List Char) :=
  match cs with
  | 'i' :: 'n' :: 'f' :: rest =>
    some (.real (if negative then -(1.0 / 0.0) else 1.0 / 0.0), rest)
  | 'n' :: 'a' :: 'n' :: rest => some (.real (0.0 / 0.0), rest)
  | cs => do
    let (whole, rest) ← readWhole cs
    let withExponent (fraction : List Char) (rest : List Char) (e : Int) : Option (Toml × List Char) := do
      let v ← realOf? negative whole fraction e
      return (v, rest)
    match rest with
    | '.' :: rest =>
      let (fraction, rest) ← readDigits1 Char.isDigit rest
      match rest with
      | 'e' :: rest | 'E' :: rest =>
        let (e, rest) ← readExponent rest
        withExponent fraction rest e
      | rest => withExponent fraction rest 0
    | 'e' :: rest | 'E' :: rest =>
      let (e, rest) ← readExponent rest
      withExponent [] rest e
    | rest =>
      let v ← intOf? negative (numberOf 10 whole)
      return (v, rest)

/-! ## Dates -/

def readFixed (width : Nat) (cs : List Char) : Option (Nat × List Char) :=
  let ds := cs.take width
  if ds.length = width && ds.all Char.isDigit then some (numberOf 10 ds, cs.drop width) else none

def expect (c : Char) : List Char → Option (List Char)
  | c' :: rest => if c' = c then some rest else none
  | [] => none

def daysIn (year month : Nat) : Nat :=
  if month = 2 then
    if year % 4 = 0 ∧ (year % 100 ≠ 0 ∨ year % 400 = 0) then 29 else 28
  else if month = 4 ∨ month = 6 ∨ month = 9 ∨ month = 11 then 30
  else 31

def skipFraction : List Char → Option (List Char)
  | '.' :: rest =>
    match rest.dropWhile Char.isDigit with
    | after => if after.length < rest.length then some after else none
  | cs => some cs

def readTime (cs : List Char) : Option (List Char) := do
  let (hour, rest) ← readFixed 2 cs
  let rest ← expect ':' rest
  let (minute, rest) ← readFixed 2 rest
  let rest ← expect ':' rest
  let (second, rest) ← readFixed 2 rest
  if hour ≤ 23 ∧ minute ≤ 59 ∧ second ≤ 60 then skipFraction rest else none

/-- The distance from universal time, if there is one. -/
def readOffset : List Char → Option (List Char)
  | 'Z' :: rest | 'z' :: rest => some rest
  | '+' :: rest | '-' :: rest => do
    let (hour, rest) ← readFixed 2 rest
    let rest ← expect ':' rest
    let (minute, rest) ← readFixed 2 rest
    if hour ≤ 23 ∧ minute ≤ 59 then some rest else none
  | cs => some cs

/-- A date, with a time of the day if there is one. -/
def readDate (cs : List Char) : Option (List Char) := do
  let (year, rest) ← readFixed 4 cs
  let rest ← expect '-' rest
  let (month, rest) ← readFixed 2 rest
  let rest ← expect '-' rest
  let (day, rest) ← readFixed 2 rest
  if 1 ≤ month ∧ month ≤ 12 ∧ 1 ≤ day ∧ day ≤ daysIn year month then
    match rest with
    | 'T' :: after | 't' :: after =>
      let after ← readTime after
      readOffset after
    | ' ' :: c :: after =>
      if c.isDigit then do
        let after ← readTime (c :: after)
        readOffset after
      else some (' ' :: c :: after)
    | rest => some rest
  else none

def startsDate (cs : List Char) : Bool :=
  match readFixed 4 cs with
  | some (_, '-' :: _) => true
  | _ => false

def startsTime (cs : List Char) : Bool :=
  match readFixed 2 cs with
  | some (_, ':' :: _) => true
  | _ => false

def isOctal (c : Char) : Bool := '0' ≤ c && c ≤ '7'

def isBinary (c : Char) : Bool := c == '0' || c == '1'

def isHex (c : Char) : Bool := (Hex.value? c).isSome

def readNumberOrDate (cs : List Char) : Option (Toml × List Char) :=
  if startsDate cs then (readDate cs).map fun rest => (.date, rest)
  else if startsTime cs then (readTime cs).map fun rest => (.date, rest)
  else
    match cs with
    | '+' :: rest => readNumber false rest
    | '-' :: rest => readNumber true rest
    | '0' :: 'x' :: rest => readBased 16 isHex rest
    | '0' :: 'o' :: rest => readBased 8 isOctal rest
    | '0' :: 'b' :: rest => readBased 2 isBinary rest
    | cs => readNumber false cs

end Toml
end Rendezvous
