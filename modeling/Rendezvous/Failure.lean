/-
What can go wrong, part by part, and the words for it.

Each part of the connector has its own causes of failure.  A handler fails with the cause of
the part that failed under it, and the flow with the stage that failed.  The name of the kind
and the wording of every cause stand here and nowhere else.
-/
import Rendezvous.Correlation
import Rendezvous.Text.Quoted
import Rendezvous.Time.Span

namespace Rendezvous

inductive ChannelError where
  | connectionFailed (reason : String)
  | sendFailed (destination reason : String)
  | rejected (reason : String)
  | serialization (reason : String)
  | subscriptionFailed (sources : List String) (reason : String)
  | transport (reason : String)
deriving DecidableEq, Repr

/-- Failures of a group store or a metadata store. -/
inductive StoreError where
  | unavailable (reason : String)
  | corrupted (key reason : String)
  | other (reason : String)
deriving DecidableEq, Repr

/-- Failures to get a lock. -/
inductive LockError where
  | interrupted (key : String)
  | unavailable (key : String) (timeout : Span)
  | registry (key reason : String)
deriving DecidableEq, Repr

/-- Failures of a process engine. -/
inductive EngineError where
  | executionNotFound (execution : String)
  | noStartSubscription (message : String)
  | other (reason : String)
deriving DecidableEq, Repr

/-- Failures of the handling of a decoded message. -/
inductive HandlerError where
  | lock (cause : LockError)
  | store (cause : StoreError)
  | correlation (cause : CorrelationError)
  | dispatch (cause : ChannelError)
  | encode (reason : String)
deriving DecidableEq, Repr

inductive FlowError where
  | decode (message : Uuid) (reason : String)
  | correlation (cause : CorrelationError)
  | handler (cause : HandlerError)
  | errorChannel (cause : ChannelError)

def ChannelError.kind : ChannelError → String
  | .connectionFailed _ => "ConnectionFailed"
  | .sendFailed .. => "SendFailed"
  | .rejected _ => "Rejected"
  | .serialization _ => "Serialization"
  | .subscriptionFailed .. => "SubscriptionFailed"
  | .transport _ => "TransportError"

def StoreError.kind : StoreError → String
  | .unavailable _ => "Unavailable"
  | .corrupted .. => "Corrupted"
  | .other _ => "Other"

/-- The name of the kind of a failure to get a lock. -/
def LockError.kind : LockError → String
  | .interrupted _ => "Interrupted"
  | .unavailable .. => "Unavailable"
  | .registry .. => "Registry"

def CorrelationError.kind : CorrelationError → String
  | .missingHeader _ => "MissingHeader"

/-- The name of the kind of a failure of a handler, that of the part that failed included. -/
def HandlerError.kind : HandlerError → String
  | .lock cause => "Lock." ++ cause.kind
  | .store cause => "Store." ++ cause.kind
  | .correlation cause => "Correlation." ++ cause.kind
  | .dispatch cause => "Dispatch." ++ cause.kind
  | .encode _ => "Encode"

/-- The name of the kind of a failure of the flow, that of the stage that failed included. -/
def FlowError.kind : FlowError → String
  | .decode .. => "Decode"
  | .correlation cause => "Correlation." ++ cause.kind
  | .handler cause => "Handler." ++ cause.kind
  | .errorChannel cause => "ErrorChannel." ++ cause.kind

def ChannelError.message : ChannelError → String
  | .connectionFailed reason => "Connection failed: " ++ reason
  | .sendFailed destination reason =>
    "Send failed for destination '" ++ destination ++ "': " ++ reason
  | .rejected reason => "Message rejected: " ++ reason
  | .serialization reason => "Serialization failed: " ++ reason
  | .subscriptionFailed sources reason =>
    "Subscription failed for " ++ Text.quotedList sources ++ ": " ++ reason
  | .transport reason => "Transport error: " ++ reason

/-- Whether another attempt may succeed: refusals and encoding failures are final. -/
def ChannelError.isTransient : ChannelError → Bool
  | .rejected _ | .serialization _ => false
  | _ => true

def StoreError.message : StoreError → String
  | .unavailable reason => "Store unavailable: " ++ reason
  | .corrupted key reason => "Corrupted group '" ++ key ++ "': " ++ reason
  | .other reason => "Store error: " ++ reason

/-- The words for a failure to get a lock. -/
def LockError.message : LockError → String
  | .interrupted key => "Interrupted while waiting for lock '" ++ key ++ "'"
  | .unavailable key timeout => "Lock '" ++ key ++ "' unavailable after " ++ timeout.text
  | .registry key reason => "Lock registry error for '" ++ key ++ "': " ++ reason

/-- The words for a failure of a process engine. -/
def EngineError.message : EngineError → String
  | .executionNotFound execution => "Execution not found: " ++ execution
  | .noStartSubscription message =>
    "No process definition starts on message '" ++ message ++ "'"
  | .other reason => "Engine error: " ++ reason

def HandlerError.message : HandlerError → String
  | .lock cause => cause.message
  | .store cause => cause.message
  | .correlation cause => cause.message
  | .dispatch cause => "Dispatch failed: " ++ cause.message
  | .encode reason => "Failed to encode output: " ++ reason

def FlowError.message : FlowError → String
  | .decode id reason => "Failed to decode message " ++ id.text ++ ": " ++ reason
  | .correlation cause => cause.message
  | .handler cause => cause.message
  | .errorChannel cause => "Error channel failed: " ++ cause.message

/-! ## Databases -/

/-- A failure of a database that groups and locks are kept in: what it says, and whether the
database was reached at all. -/
structure DatabaseError where
  reason : String
  reached : Bool
deriving DecidableEq, Repr

/-- The pool of connections was closed. -/
def DatabaseError.closedPool : DatabaseError :=
  ⟨"attempted to acquire a connection on a closed pool", false⟩

def StoreError.ofDatabase (e : DatabaseError) : StoreError :=
  if e.reached then .other e.reason else .unavailable e.reason

/-- A lock that cannot be asked for in the database fails with the words of the store. -/
def LockError.ofDatabase (key : String) (e : DatabaseError) : LockError :=
  .registry key (StoreError.ofDatabase e).message

end Rendezvous
