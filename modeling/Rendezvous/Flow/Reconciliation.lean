/-
Reconciliation: when a subscription is cancelled, its registrations leave the group.

The messages of the group that a predicate does not keep are removed, under the lock of the
conversation, so that a message appended meanwhile is neither lost nor removed by mistake.
-/
import Rendezvous.Flow.World
import Rendezvous.Schedule

namespace Rendezvous

/-- How groups are reconciled. -/
structure Reconciler where
  names : HeaderNames
  correlation : Correlation
  keeps : EventMessage → Bool
  lockTimeout : Option Nat

namespace Reconciler

def notStartDeployed (names : HeaderNames) (m : EventMessage) : Bool :=
  m.headers.text? names.eventType ≠ some EventType.startDeployed.text

def default (names : HeaderNames) (lockTimeout : Option Nat) : Reconciler :=
  ⟨names, Correlation.ofHeader names, notStartDeployed names, lockTimeout⟩

/-- Whether a message says that a subscription was cancelled. -/
def concerns (r : Reconciler) (m : EventMessage) : Bool :=
  m.headers.text? r.names.eventType = some EventType.cancelled.text

/-- The identities of the messages that are not kept. -/
def stale (r : Reconciler) (g : Group) : List Uuid :=
  (g.messages.filter fun m => !r.keeps m).map Message.id

end Reconciler

namespace Reconciliation

/-- How far the work on a group got. -/
inductive Stage where
  /-- the group is to be read -/
  | read
  /-- the messages of these identities are to be taken out -/
  | purge (ids : List Uuid)

variable {κ : Type}

/-- The next step for the group of `key`; the outcome is the number of messages removed. -/
def step (r : Reconciler) (key : CorrelationKey) (w : World κ) :
    Stage → Progress (World κ) Stage (Except HandlerError Nat)
  | .read =>
    match w.readGroup key with
    | (w, .error e) => .ends w (.error (.store e))
    | (w, .ok none) => .ends w (.ok 0)
    | (w, .ok (some g)) =>
      if (r.stale g).isEmpty then .ends w (.ok 0) else .goes w (.purge (r.stale g))
  | .purge ids =>
    match w.removeMessages key ids .cancelled with
    | (w, .error e) => .ends w (.error (.store e))
    | (w, .ok ()) =>
      .ends { w with metrics := w.metrics.add .cancelledRemoved ids.length } (.ok ids.length)

end Reconciliation
end Rendezvous
