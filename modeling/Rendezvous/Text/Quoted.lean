/-
Texts in quotation marks.

Error texts quote the names they mention.  A quotation mark, a backslash and the usual
controls are written with a backslash, every other unprintable character as its code point in
braces, and all else stands for itself.
-/
import Rendezvous.Text.Bytes
import Rendezvous.Text.Printable

namespace Rendezvous
namespace Text

/-- The hexadecimal digits of a number without leading zeros. -/
def codePoint (n : Nat) : List Char :=
  match (Hex.digits 6 n).dropWhile (· == '0') with
  | [] => ['0']
  | ds => ds

def quoteChar (c : Char) : List Char :=
  match c with
  | '"' => ['\\', '"']
  | '\\' => ['\\', '\\']
  | '\n' => ['\\', 'n']
  | '\r' => ['\\', 'r']
  | '\t' => ['\\', 't']
  | '\x00' => ['\\', '0']
  | c =>
    if isPrintable c then [c]
    else ['\\', 'u', '\x7b'] ++ codePoint c.toNat ++ ['\x7d']

def quoted (s : String) : String :=
  String.ofList ('"' :: s.toList.flatMap quoteChar ++ ['"'])

def quotedList (ss : List String) : String :=
  "[" ++ String.intercalate ", " (ss.map quoted) ++ "]"

end Text
end Rendezvous
