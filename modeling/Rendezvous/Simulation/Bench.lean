/-
A bench: a flow in surroundings that can be looked at and disturbed.

Messages are sent one at a time or together, under virtual time.  A call that takes longer than
an hour is dropped.  Between calls the stores, the locks and the failures to come can be changed
and looked at.  A flow may also keep some of its parts to itself; then the bench shows parts
that the flow does not use.
-/
import Rendezvous.Flow.Settings
import Rendezvous.Simulation.Outlet

namespace Rendezvous

/-! ## Calls and what happens beside them -/

/-- A call of a flow, or something that happens beside the calls. -/
inductive Task where
  | send (stage : Flow.Stage)
  | handle (call : Chain.Call)
  | reconcile (key : CorrelationKey)
      (work : Guarded Reconciliation.Stage (Except HandlerError Nat))
  /-- nothing is done until some time -/
  | rest (wake : Nat)
  /-- the interrupt is raised at some time -/
  | interruptAt (wake : Nat)
  /-- a lock is given up at some time -/
  | releaseAt (wake : Nat) (key : String) (ticket : Ticket)
  /-- nothing is left to do -/
  | over

/-- What came of a task. -/
inductive Reply where
  | sent (outcome : Except FlowError FlowOutcome)
  | handled (outcome : Except HandlerError Unit)
  | reconciled (outcome : Except HandlerError Nat)
  | nothing

/-- Which parts a flow keeps to itself: the groups, locks and dead letters; the claims. -/
structure Apart where
  stores : Bool
  claims : Bool
deriving DecidableEq, Repr

/-- The surroundings, the parts a flow keeps to itself, the flow, and a reconciler. -/
structure Scene where
  world : World Outlet
  own : World Outlet
  apart : Apart
  flow : Flow
  reconciler : Reconciler

namespace Apart

/-- A world with the parts that are kept apart taken from another. -/
def mix (a : Apart) (w other : World Outlet) : World Outlet :=
  let w :=
    if a.stores then
      { w with
        desk := other.desk, clock := other.clock, groups := other.groups,
        storeFaults := other.storeFaults, letters := other.letters,
        letterFaults := other.letterFaults }
    else w
  if a.claims then { w with claims := other.claims, claimFaults := other.claimFaults } else w

/-- Whether an event can be seen from outside. -/
def shows (a : Apart) : Event → Bool
  | .asked _ | .offered .. => !a.stores
  | _ => true

end Apart

namespace Scene

/-- The world as the flow sees it. -/
def inner (s : Scene) : World Outlet := s.apart.mix s.world s.own

def after (s : Scene) (w : World Outlet) : Scene :=
  let fresh := (w.journal.take (w.journal.length - s.world.journal.length)).filter s.apart.shows
  { s with
    world := { s.apart.mix w s.world with journal := fresh ++ s.world.journal }
    own := s.apart.mix s.own w }

def setTime (s : Scene) (now : Nat) : Scene :=
  { s with world := s.world.setTime now, own := s.own.setTime now }

def withWorld (s : Scene) (w : World Outlet) : Scene := { s with world := w }

def withDesk (s : Scene) (d : Desk) : Scene := s.withWorld { s.world with desk := d }

/-- What happens at some time, and is all that a task does. -/
def whenDue (s : Scene) (wake : Nat) (happened : Scene) : Progress Scene Task Reply :=
  if s.world.now < wake then .waits (some wake) else .resumes happened .over

def step (s : Scene) : Task → Progress Scene Task Reply
  | .send stage =>
    (Flow.step Outlet.carrier s.flow s.inner stage).inside s.after .send fun w outcome =>
      .ends (s.after w) (.sent outcome)
  | .handle call =>
    (Chain.step Outlet.carrier s.flow.chain.core s.inner call).inside s.after .handle
      fun w outcome => .ends (s.after w) (.handled outcome)
  | .reconcile key work =>
    (Chain.reconcileStep s.reconciler key s.world work).inside s.withWorld (.reconcile key)
      fun w outcome => .ends (s.withWorld w) (.reconciled outcome)
  | .rest wake => s.whenDue wake s
  | .interruptAt wake => s.whenDue wake (s.withDesk s.world.desk.interrupt)
  | .releaseAt wake key ticket => s.whenDue wake (s.withDesk (s.world.desk.leave key ticket))
  | .over => .ends s .nothing

def abandon : Task → List (Scene → Scene)
  | .send stage => [fun s => s.after (Flow.abandon s.inner stage)]
  | .handle call => [fun s => s.after (Chain.abandon s.inner call)]
  | .reconcile key work => [fun s => s.withWorld (work.abandon key.lockKey s.world)]
  | _ => []

end Scene

/-! ## The bench -/

def Scene.rules : Rules Scene Task Reply :=
  ⟨Scene.step, fun s => s.world.now, Scene.setTime, Scene.abandon⟩

/-- The scene with the tasks in it, and the locks that are held by correlation key. -/
structure Bench where
  schedule : Schedule Scene Task Reply
  held : List (CorrelationKey × Ticket)

/-- What can be seen of a step. -/
structure Report where
  took : Nat
  attempts : List Nat
  offers : List Nat
  accepted : List RawMessage
  notes : List String
  storeCalls : List StoreCall

namespace Bench

/-- The longest time a call may take, in milliseconds. -/
def limit : Nat := 3600000

def scene (b : Bench) : Scene := b.schedule.world

def world (b : Bench) : World Outlet := b.scene.world

def mapWorld (b : Bench) (f : World Outlet → World Outlet) : Bench :=
  { b with schedule := b.schedule.mapWorld fun s => { s with world := f s.world } }

def spawn (b : Bench) (task : Task) : Bench := { b with schedule := b.schedule.spawn task }

def withWorld {α : Type} (b : Bench) (f : World Outlet → World Outlet × α) : Bench × α :=
  let (w, a) := f b.scene.world
  (b.mapWorld fun _ => w, a)

def turnPage (b : Bench) : Bench := b.mapWorld fun w => { w with journal := [] }

/-- What can be seen of the step between two benches, the journal having begun with it. -/
def report (before after : Bench) : Report :=
  let start := before.world.now
  let events := after.world.journal.reverse
  { took := after.world.now - start
    attempts := events.filterMap fun e => match e with
      | .attempted time _ => some (time - start)
      | _ => none
    offers := events.filterMap fun e => match e with
      | .offered time _ => some (time - start)
      | _ => none
    accepted := after.world.channel.accepted.drop before.world.channel.accepted.length
    notes := events.filterMap fun e => match e with
      | .noted text => some text
      | _ => none
    storeCalls := events.filterMap fun e => match e with
      | .asked call => some call
      | _ => none }

/-- Runs tasks to their ends.  Those that take too long are dropped and have no reply. -/
def perform (b : Bench) (tasks : List Task) : Bench × List (Option Reply) :=
  let (schedule, replies) := b.schedule.call Scene.rules limit tasks
  ({ b with schedule := schedule }, replies)

def performOne (b : Bench) (task : Task) : Bench × Option Reply :=
  let (b, replies) := b.perform [task]
  (b, replies.head?.join)

def sendAll (b : Bench) (ms : List RawMessage) :
    Bench × List (Option (Except FlowError FlowOutcome)) :=
  let (b, replies) := b.perform (ms.map fun m => .send (.arrived m))
  (b, replies.map fun r => match r with
    | some (.sent outcome) => some outcome
    | _ => none)

def send (b : Bench) (m : RawMessage) : Bench × Option (Except FlowError FlowOutcome) :=
  let (b, outcomes) := b.sendAll [m]
  (b, outcomes.head?.join)

def handle (b : Bench) (m : EventMessage) : Bench × Option (Except HandlerError Unit) :=
  match b.performOne (.handle (b.scene.flow.chain.begin m)) with
  | (b, some (.handled outcome)) => (b, some outcome)
  | (b, _) => (b, none)

def reconcile (b : Bench) (m : EventMessage) : Bench × Option (Except HandlerError Nat) :=
  match b.scene.reconciler.correlation m.headers with
  | .error e => (b, some (.error (.correlation e)))
  | .ok key =>
    match b.performOne (.reconcile key .asking) with
    | (b, some (.reconciled outcome)) => (b, some outcome)
    | (b, _) => (b, none)

def wait (b : Bench) (millis : Nat) : Bench × Bool :=
  let (b, reply) := b.performOne (.rest (b.world.now + millis))
  (b, reply.isSome)

def interruptAfter (b : Bench) (millis : Nat) : Bench :=
  b.spawn (.interruptAt (b.world.now + millis))

/-- Takes the lock of a conversation, for some time or until it is released; answers with the
key of the lock, if it is free. -/
def hold (b : Bench) (key : CorrelationKey) (millis : Option Nat) : Bench × Option String :=
  let (desk, admission) := b.world.desk.request key.lockKey .never
  let b := b.mapWorld fun w => { w with desk := desk }
  match admission with
  | .granted t =>
    match millis with
    | some millis =>
      (b.spawn (.releaseAt (b.world.now + millis) key.lockKey t), some key.lockKey)
    | none => ({ b with held := (key, t) :: b.held }, some key.lockKey)
  | _ => (b, none)

/-- Releases the lock of a conversation, if it is held. -/
def release (b : Bench) (key : CorrelationKey) : Bench × Bool :=
  match b.held.lookup key with
  | none => (b, false)
  | some t =>
    let b := b.mapWorld fun w => { w with desk := w.desk.leave key.lockKey t }
    ({ b with held := b.held.filter fun h => h.1 ≠ key }, true)

/-- How many claims and how many dead letters are kept. -/
structure Sizes where
  claims : Nat := ClaimStore.defaultCapacity
  letters : Nat := DeadLetterQueue.defaultSize

/-- What a bench is made from: the flow, a reconciler, the channel for outputs, the clock, the
sizes of the surroundings and of the parts that the flow keeps to itself, and which those are. -/
structure Options where
  flow : Flow
  reconciler : Reconciler
  outlet : Outlet
  clock : Clock
  shown : Sizes
  own : Sizes
  apart : Apart

def ofOptions (o : Options) : Bench :=
  let world (sizes : Sizes) : World Outlet :=
    World.start o.outlet o.clock (ClaimStore.ofCapacity sizes.claims)
      (DeadLetterQueue.ofSize sizes.letters o.flow.names.error)
  ⟨Schedule.start ⟨world o.shown, world o.own, o.apart, o.flow, o.reconciler⟩, []⟩

end Bench
end Rendezvous
