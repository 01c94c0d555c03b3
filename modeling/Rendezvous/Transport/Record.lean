/-
Records of a broker.

A record has a key, headers, which are a list of names with octets or nothing, and a payload.
Headers that are texts travel as they are, other values as their compact text, and null values
not at all.  A record read back is a message: it keeps a valid identity among its headers, else
its identity is made from the position of the record.
-/
import Rendezvous.Json.Printer
import Rendezvous.Message.Basic

namespace Rendezvous

abbrev RecordHeaders := List (String × Option Bytes)

namespace RecordHeaders

def valueText? : Json → Option String
  | .null => none
  | .str s => some s
  | v => some v.text

/-- The headers of a message, in increasing order of their names. -/
def ofHeaders (h : Headers) : RecordHeaders :=
  h.entries.filterMap fun e => (valueText? e.2).map fun s => (e.1, some (Text.toBytes s))

/-- The headers that are texts; of two with one name the later counts. -/
def toHeaders (h : RecordHeaders) : Headers :=
  Dict.ofList (h.filterMap fun e =>
    (e.2.bind Text.ofBytes?).map fun s => (e.1, Json.str s))

end RecordHeaders

/-- Where a record stands. -/
structure Position where
  topic : String
  partition : Int
  offset : Int
deriving DecidableEq, Repr

namespace Position

/-- The name that the identity of a record is made from. -/
def name (p : Position) : List Char :=
  "kafka://".toList ++ p.topic.toList ++ '/' :: Json.intChars p.partition
    ++ '/' :: Json.intChars p.offset

def identity (p : Position) : Uuid := Uuid.ofName Uuid.urlSpace (Text.octets p.name)

def message (p : Position) (headers : Headers) (payload : Option Bytes) : RawMessage :=
  let id := ((headers.text? Headers.idName).bind Uuid.parse?).getD p.identity
  Message.assemble id headers (payload.getD [])

end Position
end Rendezvous
