/-
The flow: from a raw message to the handlers.

A message without an event type is discarded.  One that cannot be correlated or decoded is
rejected.  Either way it is offered to the error channel, a rejected one with the reason in its
error header.  Every other message is decoded, carries its correlation id from then on, and is
handed to the chain of handlers.
-/
import Rendezvous.Flow.Chain

namespace Rendezvous

/-- The names of the headers, and the handlers. -/
structure Flow where
  names : HeaderNames
  chain : Chain

/-- What became of a message. -/
inductive FlowOutcome where
  | discarded
  | handled
deriving DecidableEq, Repr

/-- Where a message goes. -/
inductive Route where
  /-- it has no event type -/
  | discard
  /-- it has no correlation key -/
  | uncorrelated (cause : CorrelationError)
  /-- its body is no event; `message` carries the correlation id -/
  | undecodable (message : RawMessage) (cause : FlowError)
  /-- the handlers take it -/
  | accept (message : EventMessage)

namespace Flow

variable {κ : Type}

def filter (f : Flow) (m : RawMessage) : Bool := m.headers.present f.names.eventType

def derive (f : Flow) (m : RawMessage) : Except CorrelationError CorrelationKey :=
  Correlation.ofEvent f.names m.headers

def decode (m : RawMessage) : Except FlowError EventMessage :=
  match EventPayload.decode m.payload with
  | .error p => .error (.decode m.id p.message)
  | .ok payload => .ok (Message.assemble m.id m.headers payload)

def route (f : Flow) (m : RawMessage) : Route :=
  if f.filter m then
    match f.derive m with
    | .error e => .uncorrelated e
    | .ok key =>
      let m := m.withText f.names.correlationId key
      match decode m with
      | .error e => .undecodable m e
      | .ok decoded => .accept decoded
  else .discard

/-- How far a message got. -/
inductive Stage where
  /-- it arrived -/
  | arrived (message : RawMessage)
  /-- it is offered to the error channel -/
  | rejecting (message : RawMessage) (verdict : Except FlowError FlowOutcome)
  /-- the handlers work on it since some time -/
  | handling (since : Nat) (call : Chain.Call)

def withReason (f : Flow) (m : RawMessage) (reason : String) : RawMessage :=
  m.withText f.names.error reason

def verdict : Except HandlerError Unit → Except FlowError FlowOutcome
  | .ok () => .ok .handled
  | .error e => .error (.handler e)

def step (carrier : Carrier κ) (f : Flow) (w : World κ) :
    Stage → Progress (World κ) Stage (Except FlowError FlowOutcome)
  | .arrived m =>
    let w := w.count .received
    match f.route m with
    | .discard => .goes (w.count .discarded) (.rejecting m (.ok .discarded))
    | .uncorrelated e =>
      .goes (w.count .correlationErrors)
        (.rejecting (f.withReason m e.message) (.error (.correlation e)))
    | .undecodable m e =>
      .goes (w.count .decodeErrors) (.rejecting (f.withReason m e.message) (.error e))
    | .accept m => .goes w (.handling w.now (f.chain.begin m))
  | .rejecting m verdict =>
    match w.offer m with
    | (w, .error e) => .ends w (.error (.errorChannel e))
    | (w, .ok ()) => .ends w verdict
  | .handling since call =>
    (Chain.step carrier f.chain.core w call).andThen (.handling since) fun w outcome =>
      .ends (w.time .handled (w.now - since)) (verdict outcome)

/-- A message that is dropped gives up its lock; nothing else is undone. -/
def abandon (w : World κ) : Stage → World κ
  | .handling _ call => Chain.abandon w call
  | _ => w

end Flow
end Rendezvous
