/-
What can be wrong with the octets of a value.

A reader works from left to right and stops at the first problem.  Problems of the grammar,
problems of the data, and a text that ends too early are three different classes.
-/
import Rendezvous.Json.Printer
import Rendezvous.Text.Quoted

namespace Rendezvous
namespace Json

/-- What was found where something else was wanted. -/
inductive Found where
  | null
  | bool (b : Bool)
  | int (n : Int)
  | real (x : Float)
  | str (s : String)
  | sequence
  | map

/-- The first problem of a text. -/
inductive Problem where
  | endsInValue
  | endsInList
  | endsInObject
  | endsInString
  | expectedValue
  | expectedIdent
  | expectedColon
  | expectedCommaOrBracket
  | expectedCommaOrBrace
  | keyNotString
  | trailingComma
  | trailingCharacters
  | invalidNumber
  | numberOutOfRange
  | invalidEscape
  | loneSurrogate
  | unfinishedSurrogatePair
  | controlCharacter
  | invalidCodePoint
  | tooDeep
  | wrongType (found : Found) (wanted : String)
  | tooShort (length : Nat) (record : String) (size : Nat)
  | duplicateField (name : String)
  | missingField (name : String)
  | unknownVariant (name : String) (known : List String)

inductive Problem.Class where
  | grammar
  | data
  | ending
deriving DecidableEq, Repr

def Problem.kind : Problem → Problem.Class
  | .endsInValue | .endsInList | .endsInObject | .endsInString => .ending
  | .wrongType .. | .tooShort .. | .duplicateField _ | .missingField _ | .unknownVariant .. => .data
  | _ => .grammar

def Found.text : Found → String
  | .null => "null"
  | .bool b => "boolean " ++ "`" ++ (if b then "true" else "false") ++ "`"
  | .int n => "integer " ++ "`" ++ String.ofList (intChars n) ++ "`"
  | .real x => "floating point " ++ "`" ++ realText x ++ "`"
  | .str s => "string " ++ Text.quoted s
  | .sequence => "sequence"
  | .map => "map"

/-- The names a variant may have. -/
def variantChoices : List String → String
  | [] => "there are no variants"
  | [a] => "expected " ++ "`" ++ a ++ "`"
  | [a, b] => "expected " ++ "`" ++ a ++ "` or `" ++ b ++ "`"
  | names => "expected one of " ++ String.intercalate ", " (names.map fun n => "`" ++ n ++ "`")

def Problem.message : Problem → String
  | .endsInValue => "EOF while parsing a value"
  | .endsInList => "EOF while parsing a list"
  | .endsInObject => "EOF while parsing an object"
  | .endsInString => "EOF while parsing a string"
  | .expectedValue => "expected value"
  | .expectedIdent => "expected ident"
  | .expectedColon => "expected `:`"
  | .expectedCommaOrBracket => "expected `,` or `]`"
  | .expectedCommaOrBrace => "expected `,` or `\x7d`"
  | .keyNotString => "key must be a string"
  | .trailingComma => "trailing comma"
  | .trailingCharacters => "trailing characters"
  | .invalidNumber => "invalid number"
  | .numberOutOfRange => "number out of range"
  | .invalidEscape => "invalid escape"
  | .loneSurrogate => "lone leading surrogate in hex escape"
  | .unfinishedSurrogatePair => "unexpected end of hex escape"
  | .controlCharacter => "control character (\\u0000-\\u001F) found while parsing a string"
  | .invalidCodePoint => "invalid unicode code point"
  | .tooDeep => "recursion limit exceeded"
  | .wrongType found wanted => "invalid type: " ++ found.text ++ ", expected " ++ wanted
  | .tooShort length record size =>
    "invalid length " ++ toString length ++ ", expected struct " ++ record ++ " with "
      ++ toString size ++ (if size = 1 then " element" else " elements")
  | .duplicateField name => "duplicate field `" ++ name ++ "`"
  | .missingField name => "missing field `" ++ name ++ "`"
  | .unknownVariant name known => "unknown variant `" ++ name ++ "`, " ++ variantChoices known

end Json
end Rendezvous
