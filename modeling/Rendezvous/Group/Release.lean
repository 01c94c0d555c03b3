/-
Releases: when a group yields an output, and which.

A sent message meets a subscriber: an execution that waits for the message, or a definition
that starts on it.  A waiting execution takes precedence, and the oldest message of each type
goes first.  Delivering to an execution consumes both messages; a start consumes the sent one
and leaves the registration in place.  The identity of an output is made from the identities it
consumes, so that an output released again is recognised.
-/
import Rendezvous.Group.Basic
import Rendezvous.Failure

namespace Rendezvous

/-- An output and the identities of the messages it consumes. -/
structure Release where
  message : RawMessage
  consumed : List Uuid

/-- Whether a group is complete enough to release an output. -/
abbrev ReleaseRule := Group → Bool

abbrev GroupProcessor := Group → Except HandlerError (Option Release)

namespace Release

/-- A sent message meets a subscriber. -/
def ready (names : HeaderNames) : ReleaseRule := fun g =>
  (g.first? names.eventType .sent).isSome
    && ((g.first? names.eventType .waiting).isSome
      || (g.first? names.eventType .startDeployed).isSome)

/-- What the identity of an output is made from. -/
def seed (consumed : List Uuid) : List Char := consumed.flatMap Uuid.chars

/-- The identity of the output that consumes these messages. -/
def identity (consumed : List Uuid) : Uuid :=
  Uuid.ofName Uuid.oidSpace (Text.octets (seed consumed))

def output (names : HeaderNames) (key : CorrelationKey) (kind : CommandKind) (body : Bytes)
    (subscriber : EventMessage) (consumed : List Uuid) : Release :=
  let headers : Headers :=
    (((Headers.none.putText names.correlationId key).putText names.payloadType kind.text).putText
      names.messageName subscriber.payload.name).putText? names.destination
      (subscriber.headers.text? names.serviceFullName)
  ⟨Message.assemble (identity consumed) headers body, consumed⟩

/-- The command that delivers a sent message to a waiting execution. -/
def receiveCommand (sent waiting : EventPayload) : ReceiveCommand :=
  ⟨sent.name, sent.correlationKey, sent.businessKey, sent.vars, waiting.executionId⟩

/-- The command that starts a process from a sent message. -/
def startCommand (sent : EventPayload) : StartCommand :=
  ⟨sent.name, sent.correlationKey, sent.businessKey, sent.vars⟩

def ofGroup? (names : HeaderNames) (g : Group) : Option Release :=
  match g.first? names.eventType .sent with
  | none => none
  | some sent =>
    match g.first? names.eventType .waiting with
    | some waiting =>
      some (output names g.key .receive (receiveCommand sent.payload waiting.payload).encode
        waiting [sent.id, waiting.id])
    | none =>
      match g.first? names.eventType .startDeployed with
      | some deployed =>
        some (output names g.key .start (startCommand sent.payload).encode deployed [sent.id])
      | none => none

def processor (names : HeaderNames) : GroupProcessor := fun g => .ok (ofGroup? names g)

end Release
end Rendezvous
