/-
Payloads: the decoded event, and the two commands made from events.

A payload travels as an object whose members are the fields in a fixed order, with null for
what is absent.  It is read back from an object, or from the array of its fields; every field
but the name may be missing.
-/
import Rendezvous.Json.Record

namespace Rendezvous

abbrev Variables := Dict Json

structure EventPayload where
  id : Option String := none
  name : String
  correlationKey : Option String := none
  businessKey : Option String := none
  vars : Variables := Dict.empty
  executionId : Option String := none

/-- The command that delivers a sent message to a waiting execution. -/
structure ReceiveCommand where
  name : String
  correlationKey : Option String := none
  businessKey : Option String := none
  vars : Variables := Dict.empty
  executionId : Option String := none

/-- The command that starts a process from a sent message. -/
structure StartCommand where
  name : String
  correlationKey : Option String := none
  businessKey : Option String := none
  vars : Variables := Dict.empty

def Json.ofText? : Option String → Json
  | some s => .str s
  | none => .null

/-- The first problem, or the value and nothing but blanks behind it. -/
def Json.readWhole {α : Type} (read : Nat → Bytes → Except Json.Problem (α × Bytes)) (b : Bytes) :
    Except Json.Problem α :=
  Json.finish (read Json.allowance b)

namespace EventPayload

def toJson (p : EventPayload) : Json :=
  .obj [("id", .ofText? p.id), ("name", .str p.name),
    ("correlationKey", .ofText? p.correlationKey), ("businessKey", .ofText? p.businessKey),
    ("variables", .ofDict p.vars), ("executionId", .ofText? p.executionId)]

def encode (p : EventPayload) : Bytes := p.toJson.bytes

/-- The fields in their order. -/
def fields : List (Json.Field EventPayload) :=
  [.optionalText "id" fun s p => { p with id := s },
   .text "name" true fun s p => { p with name := s },
   .optionalText "correlationKey" fun s p => { p with correlationKey := s },
   .optionalText "businessKey" fun s p => { p with businessKey := s },
   .dict "variables" fun d p => { p with vars := d },
   .optionalText "executionId" fun s p => { p with executionId := s }]

def decode (b : Bytes) : Except Json.Problem EventPayload :=
  Json.readWhole (Json.readRecord "MessageEventPayload" fields { name := "" }) b

end EventPayload

namespace ReceiveCommand

def toJson (c : ReceiveCommand) : Json :=
  .obj [("name", .str c.name), ("correlationKey", .ofText? c.correlationKey),
    ("businessKey", .ofText? c.businessKey), ("variables", .ofDict c.vars),
    ("executionId", .ofText? c.executionId)]

def encode (c : ReceiveCommand) : Bytes := c.toJson.bytes

/-- The fields in their order. -/
def fields : List (Json.Field ReceiveCommand) :=
  [.text "name" true fun s c => { c with name := s },
   .optionalText "correlationKey" fun s c => { c with correlationKey := s },
   .optionalText "businessKey" fun s c => { c with businessKey := s },
   .dict "variables" fun d c => { c with vars := d },
   .optionalText "executionId" fun s c => { c with executionId := s }]

def decode (b : Bytes) : Except Json.Problem ReceiveCommand :=
  Json.readWhole (Json.readRecord "ReceiveMessagePayload" fields { name := "" }) b

end ReceiveCommand

namespace StartCommand

def toJson (c : StartCommand) : Json :=
  .obj [("name", .str c.name), ("correlationKey", .ofText? c.correlationKey),
    ("businessKey", .ofText? c.businessKey), ("variables", .ofDict c.vars)]

def encode (c : StartCommand) : Bytes := c.toJson.bytes

/-- The fields in their order. -/
def fields : List (Json.Field StartCommand) :=
  [.text "name" true fun s c => { c with name := s },
   .optionalText "correlationKey" fun s c => { c with correlationKey := s },
   .optionalText "businessKey" fun s c => { c with businessKey := s },
   .dict "variables" fun d c => { c with vars := d }]

def decode (b : Bytes) : Except Json.Problem StartCommand :=
  Json.readWhole (Json.readRecord "StartMessagePayload" fields { name := "" }) b

end StartCommand

/-! ## The kinds of commands -/

/-- Which command an output carries. -/
inductive CommandKind where
  | receive
  | start
deriving DecidableEq, Repr

namespace CommandKind

def text : CommandKind → String
  | receive => "ReceiveMessagePayload"
  | start => "StartMessagePayload"

def ofText? (s : String) : Option CommandKind :=
  if s = "ReceiveMessagePayload" then some receive
  else if s = "StartMessagePayload" then some start
  else none

/-- Reads a kind, written as a variant without contents. -/
def decode (b : Bytes) : Except Json.Problem CommandKind :=
  match Json.readWhole (Json.readVariant ["ReceiveMessagePayload", "StartMessagePayload"]) b with
  | .error p => .error p
  | .ok name => .ok (if name = "StartMessagePayload" then start else receive)

end CommandKind

end Rendezvous
