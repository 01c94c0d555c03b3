/-
Correlation: which conversation a message belongs to.

A correlation key is derived from the headers alone.  It names the group of the conversation
and, as a lock key, the lock that serialises work on the group.  A lock key is the printed form
of an identity: the key's own if it spells one, else the name-based one of its octets.
-/
import Rendezvous.Message.Names

namespace Rendezvous

abbrev CorrelationKey := String

/-- Why no key can be derived. -/
inductive CorrelationError where
  | missingHeader (name : String)
deriving DecidableEq, Repr

def CorrelationError.message : CorrelationError → String
  | .missingHeader name => "Missing correlation header '" ++ name ++ "'"

/-- A rule that derives the key from the headers. -/
abbrev Correlation := Headers → Except CorrelationError CorrelationKey

namespace Correlation

/-- The key of a message name and an optional correlation key. -/
def keyOf (name : String) : Option String → CorrelationKey
  | some key => name ++ ":" ++ key
  | none => name

/-- Derives the key from the name and the correlation key of the message. -/
def ofEvent (names : HeaderNames) : Correlation := fun headers =>
  match headers.text? names.messageName with
  | none => .error (.missingHeader names.messageName)
  | some name => .ok (keyOf name (headers.text? names.correlationKey))

def ofHeader (names : HeaderNames) : Correlation := fun headers =>
  match headers.text? names.correlationId with
  | none => .error (.missingHeader names.correlationId)
  | some key => .ok key

end Correlation

namespace CorrelationKey

def identity (key : CorrelationKey) : Uuid :=
  (Uuid.parse? key).getD (Uuid.ofName Uuid.oidSpace (Text.toBytes key))

def lockKey (key : CorrelationKey) : String := (identity key).text

/-- The number of the lock in a shared database. -/
def advisoryId (key : CorrelationKey) : Int64 := (identity key).fold

end CorrelationKey
end Rendezvous
