/-
The chain of handlers behind a flow.

Advices stand around a core, outermost first, and each may stop a message, change it, or let it
pass.  The idempotent receiver lets the identity of a message pass once, and withdraws its claim
if the handlers behind it fail.  The cancellation advice reconciles the group of a cancelled
subscription before it lets the message pass.  A call of the chain is a stage, with a frame for
every advice that still wants to know the outcome.
-/
import Rendezvous.Flow.Aggregation
import Rendezvous.Flow.Guarded
import Rendezvous.Flow.Reconciliation
import Rendezvous.Message.View

namespace Rendezvous

/-- The clock that claims are stamped by. -/
inductive Stamping where
  | fixed (stamp : Stamp)
  | ticking

/-- An advice of a user: it notes a message, and fails, stops it, or lets it pass. -/
structure Interceptor where
  name : String
  decide : EventMessage → Except HandlerError (Option EventMessage)

inductive Advice where
  | once (stamping : Stamping)
  | reconcile (reconciler : Reconciler)
  | intercept (interceptor : Interceptor)

/-- The innermost handler. -/
inductive Core where
  | aggregate (aggregator : Aggregator)
  | record

/-- The advices, outermost first, and the core. -/
structure Chain where
  advices : List Advice
  core : Core

/-- The failure of work that did not get its lock. -/
def Entry.settle {ρ : Type} (key : String) (timeout : Option Nat) :
    Entry (Except HandlerError ρ) → Except HandlerError ρ
  | .ran outcome => outcome
  | .skipped => .error (.lock (.unavailable key (Span.ofMillis (timeout.getD 0))))
  | .refused cause => .error (.lock cause)

namespace Chain

variable {κ : Type}

/-- What an advice still has to do when the handlers behind it are done. -/
inductive Frame where
  | claimed (id : Uuid)
  | intercepted (name : String)

/-- How far a call got. -/
inductive Stage where
  /-- a message meets the advices that are left -/
  | enter (message : EventMessage) (advices : List Advice)
  /-- the group of a cancelled subscription is reconciled -/
  | reconciling (reconciler : Reconciler) (key : CorrelationKey) (message : EventMessage)
      (advices : List Advice) (work : Guarded Reconciliation.Stage (Except HandlerError Nat))
  /-- a message is joined with its group -/
  | aggregating (aggregator : Aggregator) (key : CorrelationKey) (message : EventMessage)
      (work : Guarded Aggregation.Stage (Except HandlerError Unit))
  /-- the outcome is handed outwards -/
  | leave (outcome : Except HandlerError Unit)

structure Call where
  stage : Stage
  frames : List Frame

def begin (c : Chain) (m : EventMessage) : Call := ⟨.enter m c.advices, []⟩

def reconcileStep (r : Reconciler) (key : CorrelationKey) (w : World κ)
    (g : Guarded Reconciliation.Stage (Except HandlerError Nat)) :
    Progress (World κ) (Guarded Reconciliation.Stage (Except HandlerError Nat))
      (Except HandlerError Nat) :=
  (g.step key.lockKey (Patience.ofTimeout r.lockTimeout) .read (Reconciliation.step r key) w).map
    id (Entry.settle key.lockKey r.lockTimeout)

def aggregateStep (carrier : Carrier κ) (a : Aggregator) (key : CorrelationKey) (m : EventMessage)
    (w : World κ) (g : Guarded Aggregation.Stage (Except HandlerError Unit)) :
    Progress (World κ) (Guarded Aggregation.Stage (Except HandlerError Unit))
      (Except HandlerError Unit) :=
  (g.step key.lockKey (Patience.ofTimeout a.lockTimeout) .read
    (Aggregation.step carrier a key m) w).map id (Entry.settle key.lockKey a.lockTimeout)

def stampOf (w : World κ) : Stamping → Stamp × World κ
  | .fixed stamp => (stamp, w)
  | .ticking => w.stamp

def claimStep (w : World κ) (stamping : Stamping) (m : EventMessage) (rest : List Advice)
    (frames : List Frame) : World κ × Call :=
  let (stamp, w) := stampOf w stamping
  match w.putClaimIfAbsent m.id.text stamp.text with
  | (w, .error e) => (w, ⟨.leave (.error (.store e)), frames⟩)
  | (w, .ok (some _)) => (w.count .duplicates, ⟨.leave (.ok ()), frames⟩)
  | (w, .ok none) => (w, ⟨.enter m rest, .claimed m.id :: frames⟩)

def cancelStep (r : Reconciler) (m : EventMessage) (rest : List Advice) (frames : List Frame) :
    Call :=
  if r.concerns m then
    match r.correlation m.headers with
    | .error e => ⟨.leave (.error (.correlation e)), frames⟩
    | .ok key => ⟨.reconciling r key m rest .asking, frames⟩
  else ⟨.enter m rest, frames⟩

def interceptStep (w : World κ) (i : Interceptor) (m : EventMessage) (rest : List Advice)
    (frames : List Frame) : World κ × Call :=
  let w := w.record (.noted ("before:" ++ i.name))
  match i.decide m with
  | .error e => (w, ⟨.leave (.error e), frames⟩)
  | .ok none => (w, ⟨.leave (.ok ()), frames⟩)
  | .ok (some m) => (w, ⟨.enter m rest, .intercepted i.name :: frames⟩)

def coreStep (core : Core) (w : World κ) (m : EventMessage) (frames : List Frame) :
    World κ × Call :=
  match core with
  | .aggregate a =>
    match a.correlation m.headers with
    | .error e => (w, ⟨.leave (.error (.correlation e)), frames⟩)
    | .ok key =>
      if a.participates m then (w, ⟨.aggregating a key m .asking, frames⟩)
      else (w, ⟨.leave (.ok ()), frames⟩)
  | .record =>
    let w := w.record (.noted ("handler:" ++ (Json.ofEvent m).text))
    let (fault, rest) := w.handlerFaults.next ()
    let w := { w with handlerFaults := rest }
    match fault with
    | some e => (w, ⟨.leave (.error e), frames⟩)
    | none => (w, ⟨.leave (.ok ()), frames⟩)

def succeeded (outcome : Except HandlerError Unit) : Bool :=
  match outcome with
  | .ok () => true
  | .error _ => false

/-- An advice learns the outcome.  A claim that cannot be withdrawn stays. -/
def leaveFrame (w : World κ) (outcome : Except HandlerError Unit) : Frame → World κ
  | .claimed id =>
    let w := w.record (.settled id (succeeded outcome))
    if succeeded outcome then w else (w.removeClaim id.text).1
  | .intercepted name =>
    w.record (.noted ("after:" ++ name ++ (if succeeded outcome then ":ok" else ":err")))

def step (carrier : Carrier κ) (core : Core) (w : World κ) (c : Call) :
    Progress (World κ) Call (Except HandlerError Unit) :=
  match c.stage with
  | .enter m [] =>
    let (w, c) := coreStep core w m c.frames
    .goes w c
  | .enter m (.once stamping :: rest) =>
    let (w, c) := claimStep w stamping m rest c.frames
    .goes w c
  | .enter m (.reconcile r :: rest) => .goes w (cancelStep r m rest c.frames)
  | .enter m (.intercept i :: rest) =>
    let (w, c) := interceptStep w i m rest c.frames
    .goes w c
  | .reconciling r key m rest g =>
    (reconcileStep r key w g).andThen (fun g => ⟨.reconciling r key m rest g, c.frames⟩)
      fun w outcome =>
        match outcome with
        | .ok _ => .goes w ⟨.enter m rest, c.frames⟩
        | .error e => .goes w ⟨.leave (.error e), c.frames⟩
  | .aggregating a key m g =>
    (aggregateStep carrier a key m w g).andThen (fun g => ⟨.aggregating a key m g, c.frames⟩)
      fun w outcome => .goes w ⟨.leave outcome, c.frames⟩
  | .leave outcome =>
    match c.frames with
    | [] => .ends w outcome
    | frame :: frames => .goes (leaveFrame w outcome frame) ⟨.leave outcome, frames⟩

/-- A call that is dropped gives up its lock; nothing else is undone. -/
def abandon (w : World κ) (c : Call) : World κ :=
  match c.stage with
  | .reconciling _ key _ _ g => g.abandon key.lockKey w
  | .aggregating _ key _ g => g.abandon key.lockKey w
  | _ => w

end Chain
end Rendezvous
