/-
Settling records.

A record is handed out as a delivery: it is put into the stream once there is room, the consumer
takes it out, and settles it or drops it.  A delivery that was not acknowledged is handed out again
after a delay, as often as the policy allows; then the message is offered to the error channel, if
there is one, and whatever comes of that the record counts as settled.  The offset of a settled
record is committed.  When nobody listens to the stream anymore, the record is left as it is.
-/
import Rendezvous.Failure
import Rendezvous.Message.Names
import Rendezvous.Retry

namespace Rendezvous

/-- How a delivery was settled. -/
inductive Settlement where
  | ack
  | redeliver
deriving DecidableEq, Repr

/-- What a consumer does with a delivery. -/
inductive Reaction where
  | ack
  | redeliver
  | drop
deriving DecidableEq, Repr

def Reaction.settlement : Reaction → Settlement
  | .ack => .ack
  | _ => .redeliver

namespace Settling

/-- How far the settling of a record got; attempts count from zero. -/
inductive Stage where
  /-- a delivery waits for room in the stream -/
  | offering (attempt : Nat)
  /-- a delivery stands in the stream -/
  | queued (attempt : Nat)
  /-- the consumer has a delivery; it may have stopped listening to the stream since -/
  | held (attempt : Nat) (listening : Bool)
  /-- the next delivery follows after a delay -/
  | backoff (attempt : Nat) (listening : Bool)
  /-- the message was offered to the error channel -/
  | parking (listening : Bool)
  /-- the record is settled, or left as it is -/
  | done (settlement : Option Settlement)
deriving DecidableEq, Repr

/-- What happens to the stream, its deliveries and the error channel, and the passing of a
delay. -/
inductive Input where
  /-- there is room in the stream -/
  | room
  /-- the consumer takes the delivery out of the stream -/
  | taken
  /-- the consumer settles the delivery that it took, or drops it -/
  | reaction (reaction : Reaction)
  /-- the delay is over -/
  | elapsed
  /-- the error channel is done with the message -/
  | answered (outcome : Except ChannelError Unit)
  /-- the receiving end of the stream is dropped -/
  | closed

/-- What settling does to its surroundings. -/
inductive Effect where
  | handOut (message : RawMessage)
  | sleep (millis : Nat)
  | park (message : RawMessage)
  | commit

/-- How records are settled: the policy, whether there is an error channel, and the name of its
error header. -/
structure Rules where
  policy : RetryPolicy
  parks : Bool
  errorHeader : String

def defaultPolicy : RetryPolicy := ⟨10, 1000, 30000, 2.0⟩

/-- What the error header of a parked message says. -/
def exhausted : String := "redeliveries exhausted"

/-- The message offered to the error channel. -/
def parked (r : Rules) (m : RawMessage) : RawMessage := m.withText r.errorHeader exhausted

/-- What follows the reaction to a delivery. -/
def react (r : Rules) (m : RawMessage) (attempt : Nat) (listening : Bool) (x : Reaction) :
    Stage × List Effect :=
  match x.settlement with
  | .ack => (.done (some .ack), [.commit])
  | .redeliver =>
    if attempt < r.policy.maxRetries then
      (.backoff attempt listening, [.sleep (r.policy.delay attempt)])
    else if r.parks then (.parking listening, [.park (parked r m)])
    else (.done (some .redeliver), [.commit])

/-- The next stage and what is done on the way, if the input can come at this stage.  That nobody
listens anymore is noticed when the next delivery is offered; a delivery that stands in the stream
is dropped with it. -/
def step? (r : Rules) (m : RawMessage) : Stage → Input → Option (Stage × List Effect)
  | .offering attempt, .room => some (.queued attempt, [.handOut m])
  | .offering _, .closed => some (.done none, [])
  | .queued attempt, .taken => some (.held attempt true, [])
  | .queued attempt, .closed => some (react r m attempt false .drop)
  | .held attempt listening, .reaction x => some (react r m attempt listening x)
  | .held attempt true, .closed => some (.held attempt false, [])
  | .backoff attempt true, .elapsed => some (.offering (attempt + 1), [])
  | .backoff _ false, .elapsed => some (.done none, [])
  | .backoff attempt true, .closed => some (.backoff attempt false, [])
  | .parking _, .answered _ => some (.done (some .redeliver), [.commit])
  | .parking true, .closed => some (.parking false, [])
  | _, _ => none

/-- A record begins with the offer of its first delivery. -/
def start : Stage := .offering 0

/-- The stage after some inputs and all that was done, unless one of the inputs could not come. -/
def run? (r : Rules) (m : RawMessage) (s : Stage) : List Input → Option (Stage × List Effect)
  | [] => some (s, [])
  | i :: inputs =>
    (step? r m s i).bind fun (s, effects) =>
      (run? r m s inputs).map fun (s, later) => (s, effects ++ later)

/-! ## What is seen of it -/

def Effect.handedOut? : Effect → Option RawMessage
  | .handOut m => some m
  | _ => none

def Effect.parked? : Effect → Option RawMessage
  | .park m => some m
  | _ => none

end Settling

/-- What a consumer saw of a topic: the messages that were handed out to it, and those that were
offered to the error channel. -/
structure Consumption where
  deliveries : List RawMessage
  parked : List RawMessage

namespace Consumption

/-- What is seen of records that were settled with these effects. -/
def ofEffects (effects : List Settling.Effect) : Consumption :=
  ⟨effects.filterMap Settling.Effect.handedOut?, effects.filterMap Settling.Effect.parked?⟩

/-- A broker that does not answer has no records to settle. -/
def unanswered : Consumption := .ofEffects []

end Consumption

/-! ## A single delivery -/

/-- What a consumer does with a single delivery: it may also split it and drop the half that
acknowledges. -/
inductive Handling where
  | ack
  | redeliver
  | drop
  | dropAck
deriving DecidableEq, Repr

/-- The settlement that arrives, if one does. -/
def Handling.settlement? : Handling → Option Settlement
  | .ack => some .ack
  | .redeliver => some .redeliver
  | _ => none

end Rendezvous
