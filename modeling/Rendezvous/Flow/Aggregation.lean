/-
Aggregation: a message joins its group, and the group is released as often as it can be.

A message that is in its group already is a redelivery: it is not appended again, but a release
that failed before gets another chance.  While the group is ready, its output is dispatched,
with retries, and only an accepted output takes the messages it consumes out of the group.  An
output that consumes nothing ends the releases.
-/
import Rendezvous.Flow.World
import Rendezvous.Schedule
import Rendezvous.Retry

namespace Rendezvous

/-- How messages are joined. -/
structure Aggregator where
  names : HeaderNames
  correlation : Correlation
  rule : ReleaseRule
  processor : GroupProcessor
  retry : RetryPolicy
  lockTimeout : Option Nat

namespace Aggregator

def default (names : HeaderNames) (retry : RetryPolicy) (lockTimeout : Option Nat) : Aggregator :=
  ⟨names, Correlation.ofHeader names, Release.ready names, Release.processor names, retry,
    lockTimeout⟩

/-- The text of the event type of a message, empty if there is none. -/
def eventTypeText (a : Aggregator) (m : EventMessage) : String :=
  (m.headers.text? a.names.eventType).getD ""

def participates (a : Aggregator) (m : EventMessage) : Bool :=
  (EventType.ofText (a.eventTypeText m)).isAggregated

end Aggregator

namespace Aggregation

/-- How far the work on a group got. -/
inductive Stage where
  /-- the group is to be read -/
  | read
  /-- the message is to be appended -/
  | append
  /-- the group may be released -/
  | decide (group : Group)
  /-- an output is to be offered to its channel; `attempt` counts from zero -/
  | attempt (release : Release) (attempt : Nat)
  /-- an output is on its way to its channel until some time -/
  | transit (release : Release) (attempt arrival : Nat)
  /-- an output reaches its channel -/
  | arrive (release : Release) (attempt : Nat)
  /-- the next attempt is made at some time -/
  | pause (release : Release) (attempt wake : Nat)
  /-- the consumed messages are to be taken out -/
  | remove (release : Release)
  /-- the group is to be read again -/
  | reread

variable {κ : Type}

def kind? (a : Aggregator) (r : Release) : Option CommandKind :=
  (r.message.headers.text? a.names.payloadType).bind CommandKind.ofText?

def countReleased (a : Aggregator) (w : World κ) (r : Release) : World κ :=
  match kind? a r with
  | some kind => { w with metrics := w.metrics.countReleased kind.text }
  | none => w

/-- What follows an attempt that failed. -/
def failed (a : Aggregator) (w : World κ) (r : Release) (attempt : Nat) (e : ChannelError) :
    Progress (World κ) Stage (Except HandlerError Unit) :=
  if a.retry.retries e.isTransient attempt then
    .goes (w.count .retries) (.pause r attempt (w.now + a.retry.sleep attempt))
  else
    let w := if e.isTransient then w.count .retriesExhausted else w
    .ends (w.count .dispatchFailures) (.error (.dispatch e))

/-- The next step for a message of the group of `key`. -/
def step (carrier : Carrier κ) (a : Aggregator) (key : CorrelationKey) (m : EventMessage)
    (w : World κ) : Stage → Progress (World κ) Stage (Except HandlerError Unit)
  | .read =>
    match w.readGroup key with
    | (w, .error e) => .ends w (.error (.store e))
    | (w, .ok none) => .goes w .append
    | (w, .ok (some g)) => if g.contains m.id then .goes w (.decide g) else .goes w .append
  | .append =>
    match w.appendMessage key m with
    | (w, .error e) => .ends w (.error (.store e))
    | (w, .ok g) =>
      .goes { w with metrics := w.metrics.countAggregated (a.eventTypeText m) } (.decide g)
  | .decide g =>
    if a.rule g then
      match a.processor g with
      | .error e => .ends w (.error e)
      | .ok none => .ends w (.ok ())
      | .ok (some r) => if r.consumed.isEmpty then .ends w (.ok ()) else .goes w (.attempt r 0)
    else .ends w (.ok ())
  | .attempt r attempt =>
    let (channel, delay) := carrier.delay w.channel
    .goes ({ w with channel := channel }.record (.attempted w.now r.message))
      (match delay with
      | some millis => .transit r attempt (w.now + millis)
      | none => .arrive r attempt)
  | .transit r attempt arrival =>
    if w.now < arrival then .waits (some arrival) else .resumes w (.arrive r attempt)
  | .arrive r attempt =>
    match carrier.send w.channel r.message with
    | (channel, .ok ()) =>
      .goes ({ w with channel := channel }.record (.accepted key r)) (.remove r)
    | (channel, .error e) => failed a { w with channel := channel } r attempt e
  | .pause r attempt wake =>
    if w.now < wake then .waits (some wake) else .resumes w (.attempt r (attempt + 1))
  | .remove r =>
    match w.removeMessages key r.consumed .released with
    | (w, .error e) => .ends w (.error (.store e))
    | (w, .ok ()) => .goes (countReleased a w r) .reread
  | .reread =>
    match w.readGroup key with
    | (w, .error e) => .ends w (.error (.store e))
    | (w, .ok none) => .ends w (.ok ())
    | (w, .ok (some g)) => .goes w (.decide g)

end Aggregation
end Rendezvous
