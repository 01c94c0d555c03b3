/-
Sections under locks, one inside the other, run by tasks that can be interrupted and aborted.

On its way in, a section takes its lock and enters; then it runs the section inside it, if there
is one, stays for a while, leaves, and fails if it is meant to.  A section that does not get its
lock is skipped or fails, and what it came to is the outcome of the section around it.
-/
import Rendezvous.Failure
import Rendezvous.Lock.Desk
import Rendezvous.Schedule

namespace Rendezvous

/-- A section: its name, its key, how long it waits for its lock, how long it stays, and the
failure it ends with. -/
structure Section where
  name : String
  key : String
  patience : Patience
  stay : Option Nat
  failure : Option String

namespace Sections

/-- What came of a section. -/
inductive Outcome where
  | ran
  | skipped
  | refused (cause : LockError)
  | failed (reason : String)
deriving DecidableEq, Repr

/-- Something that happened to a task. -/
inductive Happening where
  | enter
  | leave
  | result (outcome : Outcome)
deriving DecidableEq, Repr

def Happening.isInterrupted : Happening → Bool
  | result (.refused (.interrupted _)) => true
  | _ => false

/-- The time, the locks, and what happened when to which task, newest first. -/
structure Site where
  now : Nat
  desk : Desk
  log : List (Nat × String × Happening)

/-- How far a nest of sections got. -/
inductive Stage where
  /-- the first of the sections asks for its lock; the others are inside of it -/
  | asking (first : Section) (inside : List Section)
  /-- the lock it asked for is taken -/
  | lining (first : Section) (inside : List Section)
  /-- it waits for its lock -/
  | queued (first : Section) (inside : List Section) (ticket : Ticket) (since : Nat)
  /-- the innermost section stays until some time -/
  | staying (wake : Nat) (outcome : Outcome)
  /-- the innermost section leaves -/
  | leaving (outcome : Outcome)
  /-- the section inside the innermost one is over -/
  | returned (outcome : Outcome)

/-- A task: the name under which its result is logged if it is, whether it can be aborted by
that name, the sections it is in with their tickets, innermost first, and its stage. -/
structure Nest where
  name : Option String
  reachable : Bool
  within : List (Section × Ticket)
  stage : Stage

def Nest.begin (name : Option String) (first : Section) (inside : List Section) : Nest :=
  ⟨name, true, [], .asking first inside⟩

namespace Site

def note (s : Site) (name : String) (h : Happening) : Site :=
  { s with log := (s.now, name, h) :: s.log }

def setTime (s : Site) (now : Nat) : Site := { s with now := now }

def withDesk (s : Site) (d : Desk) : Site := { s with desk := d }

end Site

/-- A section is entered: the one inside of it asks, or it stays. -/
def Nest.enter (n : Nest) (first : Section) (inside : List Section) (t : Ticket) : Nest :=
  let stage :=
    match inside with
    | next :: rest => .asking next rest
    | [] => .returned .ran
  { n with within := (first, t) :: n.within, stage := stage }

/-- A section comes to its outcome without being entered. -/
def Nest.refuse (n : Nest) (outcome : Outcome) : Nest := { n with stage := .returned outcome }

def step (s : Site) (n : Nest) : Progress Site Nest Outcome :=
  match n.stage with
  | .asking first inside =>
    match s.desk.request first.key first.patience with
    | (d, .granted t) => .goes ((s.withDesk d).note first.name .enter) (n.enter first inside t)
    | (d, .busy) =>
      if first.patience = .never then .goes (s.withDesk d) (n.refuse .skipped)
      else .goes (s.withDesk d) { n with stage := .lining first inside }
    | (d, .interrupted) => .goes (s.withDesk d) (n.refuse (.refused (.interrupted first.key)))
  | .lining first inside =>
    let (d, t) := s.desk.lineUp first.key
    .pauses (s.withDesk d) { n with stage := .queued first inside t s.now }
  | .queued first inside t since =>
    match s.desk.check first.key t (first.patience.deadline since) s.now with
    | (d, .granted) => .resumes ((s.withDesk d).note first.name .enter) (n.enter first inside t)
    | (d, .late) => .resumes (s.withDesk d) (n.refuse .skipped)
    | (d, .interrupted) => .resumes (s.withDesk d) (n.refuse (.refused (.interrupted first.key)))
    | (_, .waiting) => .waits (first.patience.deadline since)
  | .returned outcome =>
    match n.within with
    | [] =>
      let s :=
        match n.name with
        | some name => s.note name (.result outcome)
        | none => s
      .ends s outcome
    | (innermost, _) :: _ =>
      match innermost.stay with
      | some millis => .goes s { n with stage := .staying (s.now + millis) outcome }
      | none => .goes s { n with stage := .leaving outcome }
  | .staying wake outcome =>
    if s.now < wake then .waits (some wake) else .resumes s { n with stage := .leaving outcome }
  | .leaving outcome =>
    match n.within with
    | [] => .goes s { n with stage := .returned outcome }
    | (innermost, t) :: rest =>
      let outcome :=
        match innermost.failure with
        | some reason => .failed reason
        | none => outcome
      .goes { s.note innermost.name .leave with desk := s.desk.leave innermost.key t }
        { n with within := rest, stage := .returned outcome }

/-- A task that is aborted gives up its place in a queue, and then its locks from the inside
out. -/
def abort (n : Nest) : List (Site → Site) :=
  let place :=
    match n.stage with
    | .queued first _ t _ => [(first, t)]
    | _ => []
  (place ++ n.within).map fun e s => s.withDesk (s.desk.leave e.1.key e.2)

def rules : Rules Site Nest Outcome := ⟨step, Site.now, Site.setTime, abort⟩

/-! ## Running tasks -/

/-- The site with the tasks at it, and the locks that are held by name. -/
structure Bench where
  schedule : Schedule Site Nest Outcome
  held : List (String × String × Ticket)

def Bench.empty : Bench := ⟨Schedule.start ⟨0, Desk.empty, []⟩, []⟩

namespace Bench

def site (b : Bench) : Site := b.schedule.world

def mapDesk (b : Bench) (f : Desk → Desk) : Bench :=
  { b with schedule := b.schedule.mapWorld fun s => { s with desk := f s.desk } }

/-- Lets every task go as far as it can. -/
def settle (b : Bench) : Bench := { b with schedule := b.schedule.settle rules }

/-- The longest time a nest or a rest may take, in milliseconds. -/
def limit : Nat := 3600000

/-- Lets time pass, up to the limit; answers whether all of it passed. -/
def sleep (b : Bench) (millis : Nat) : Bench × Bool :=
  let time := b.site.now + min millis limit
  ({ b with schedule := b.schedule.elapse rules time Schedule.fuel }, millis ≤ limit)

/-- Runs a nest to its end; one that takes too long is dropped and has no outcome. -/
def run (b : Bench) (n : Nest) : Bench × Option Outcome :=
  let (schedule, outcomes) := b.schedule.call rules limit [n]
  ({ b with schedule := schedule }, outcomes.head?.join)

/-- Starts a nest beside the others; an older one of its name can no longer be aborted. -/
def spawn (b : Bench) (n : Nest) : Bench :=
  let older (t : Nest) : Nest := if t.name = n.name then { t with reachable := false } else t
  { b with schedule := (b.schedule.mapTasks older).spawn n }

/-- Aborts the nest that was started last under a name. -/
def abortNamed (b : Bench) (name : String) : Bench :=
  let named (j : Job Nest Outcome) : Bool :=
    j.slot.state?.any fun n => n.reachable && n.name = some name
  { b with schedule := b.schedule.dismiss rules named }

def drop (b : Bench) (name : String) : Bench × Bool :=
  match b.held.lookup name with
  | none => (b, false)
  | some (key, t) =>
    let b := b.mapDesk fun d => d.leave key t
    ({ b with held := b.held.filter fun h => h.1 ≠ name }, true)

/-- Takes a free lock under a name; a lock that was held under the name before is given up. -/
def hold (b : Bench) (name key : String) : Bench × Bool :=
  let (desk, admission) := b.site.desk.request key .never
  let b := b.mapDesk fun _ => desk
  match admission with
  | .granted t =>
    let b := (b.drop name).1
    ({ b with held := (name, key, t) :: b.held }, true)
  | _ => (b, false)

def turnPage (b : Bench) : Bench :=
  { b with schedule := b.schedule.mapWorld fun s => { s with log := [] } }

/-- What happened, oldest first; of waits interrupted at one instant, those of the lesser names
come first. -/
def events (b : Bench) : List (Nat × String × Happening) :=
  let together (x y : Nat × String × Happening) : Bool :=
    x.1 = y.1 && x.2.2.isInterrupted && y.2.2.isInterrupted
  (b.site.log.reverse.splitBy together).flatMap fun es =>
    es.mergeSort fun x y => !(y.2.1 < x.2.1)

end Bench
end Sections
end Rendezvous
