/-
The compact text of data values.

Nothing is written between tokens, and members are written in the order they are kept in.
Inside quotation marks only the quotation mark, the backslash and the controls are escaped.
-/
import Rendezvous.Json.Value
import Rendezvous.Text.Bytes
import Rendezvous.Decimal.Layout

namespace Rendezvous
namespace Json

/-- Real numbers have a plain point from `1e-5` up to `1e15` with at least one digit behind it,
and else an exponent with its sign. -/
def realLayout : Decimal.Layout := ⟨fun lead => -5 ≤ lead && lead ≤ 15, ".0", "+"⟩

/-- A real number; one that is not finite has no text of its own. -/
def realText (x : Float) : String :=
  if Decimal.isFinite x then realLayout.write x else "null"

def escapeChar (c : Char) : List Char :=
  match c with
  | '"' => ['\\', '"']
  | '\\' => ['\\', '\\']
  | '\x08' => ['\\', 'b']
  | '\x0c' => ['\\', 'f']
  | '\n' => ['\\', 'n']
  | '\r' => ['\\', 'r']
  | '\t' => ['\\', 't']
  | c => if c.toNat < 0x20 then ['\\', 'u'] ++ Hex.digits 4 c.toNat else [c]

def escape (cs : List Char) : List Char := cs.flatMap escapeChar

def quote (s : String) : List Char := '"' :: escape s.toList ++ ['"']

/-- A whole number. -/
def intChars : Int → List Char
  | .ofNat n => Nat.toDigits 10 n
  | .negSucc n => '-' :: Nat.toDigits 10 (n + 1)

mutual
def chars : Json → List Char
  | .null => ['n', 'u', 'l', 'l']
  | .bool true => ['t', 'r', 'u', 'e']
  | .bool false => ['f', 'a', 'l', 's', 'e']
  | .int n => intChars n
  | .real x => (realText x).toList
  | .str s => quote s
  | .arr [] => ['[', ']']
  | .arr (v :: vs) => '[' :: chars v ++ itemChars vs
  | .obj [] => ['\x7b', '\x7d']
  | .obj ((k, v) :: ms) => '\x7b' :: quote k ++ ':' :: chars v ++ memberChars ms

/-- The items after the first, and the bracket that closes the array. -/
def itemChars : List Json → List Char
  | [] => [']']
  | v :: vs => ',' :: chars v ++ itemChars vs

/-- The members after the first, and the brace that closes the object. -/
def memberChars : List (String × Json) → List Char
  | [] => ['\x7d']
  | (k, v) :: ms => ',' :: quote k ++ ':' :: chars v ++ memberChars ms
end

def text (v : Json) : String := String.ofList (chars v)

/-- The octets of the compact text of a value. -/
def bytes (v : Json) : Bytes := Text.octets (chars v)

end Json
end Rendezvous
