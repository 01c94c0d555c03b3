/-
Tasks under virtual time.

A task goes on step by step until it ends or has to wait: that is its turn.  Tasks take their
turns one at a time, and time stands still while any of them can go on.  Only when all of them
wait does time jump to the next moment one of them waits for.

Tasks that can go on stand in a line.  A task joins the line as soon as another one has made
room for it, and those that wait for the same moment join it in the order in which they began
to wait.  A wait that is over at once does not end a turn, but a turn allows only so many of
them: a task that has used them up steps aside, so that it does not keep the others from going
on, and joins the line again after them.

A task is either called, so that somebody waits for its outcome, or runs beside the calls.
Turns are taken in rounds.  The calls in the line begin a round, with one turn for all of them
together, and a limited number of other tasks go on with it.
-/
namespace Rendezvous

/-- What a task does next. -/
inductive Progress (ω σ ρ : Type) where
  /-- it waits, at most to the given time -/
  | waits (wake : Option Nat)
  /-- it takes a step -/
  | goes (world : ω) (state : σ)
  /-- it begins to wait -/
  | pauses (world : ω) (state : σ)
  /-- a wait of it is over -/
  | resumes (world : ω) (state : σ)
  /-- it takes its last step -/
  | ends (world : ω) (result : ρ)

/-- A task that was started. -/
inductive Slot (σ ρ : Type) where
  | running (state : σ)
  | finished (result : ρ)

namespace Progress

variable {ω υ σ τ ρ ξ : Type}

/-- The progress of a part of a larger task in a larger world, which goes on when the part
ends. -/
def inside (put : ω → υ) (f : σ → τ) (next : ω → ρ → Progress υ τ ξ) :
    Progress ω σ ρ → Progress υ τ ξ
  | waits wake => .waits wake
  | goes w s => .goes (put w) (f s)
  | pauses w s => .pauses (put w) (f s)
  | resumes w s => .resumes (put w) (f s)
  | ends w r => next w r

/-- The progress of a part of a larger task, which goes on when the part ends. -/
def andThen (f : σ → τ) (next : ω → ρ → Progress ω τ ξ) (p : Progress ω σ ρ) :
    Progress ω τ ξ :=
  p.inside id f next

/-- The same progress, seen as that of a larger task. -/
def map (f : σ → τ) (g : ρ → ξ) (p : Progress ω σ ρ) : Progress ω τ ξ :=
  p.andThen f fun w r => .ends w (g r)

end Progress

/-- What tasks are made of: their steps, the time of the world they share, and what a task still
does when it is dropped, one thing after the other. -/
structure Rules (ω σ ρ : Type) where
  step : ω → σ → Progress ω σ ρ
  now : ω → Nat
  setTime : ω → Nat → ω
  abandon : σ → List (ω → ω)

/-- A task with its number, and whether somebody waits for its outcome. -/
structure Job (σ ρ : Type) where
  number : Nat
  called : Bool
  slot : Slot σ ρ

/-- How the turn of a task ended: it waits, it stepped aside, or it is at its end. -/
inductive Turn (σ ρ : Type) where
  | waiting (state : σ) (wake : Option Nat)
  | exhausted (state : σ)
  | finished (result : ρ)

/-- A world and the tasks in it: the line of those that can go on, those that stepped aside, the
moments at which tasks want to be woken, in the order they asked for it, how many tasks were
numbered, and how many waits may still be over within the turn of the calls. -/
structure Schedule (ω σ ρ : Type) where
  world : ω
  jobs : List (Job σ ρ)
  line : List Nat
  aside : List Nat
  alarms : List (Nat × Nat)
  issued : Nat
  left : Nat

namespace Slot

variable {σ ρ : Type}

def map (f : σ → σ) : Slot σ ρ → Slot σ ρ
  | running s => running (f s)
  | finished r => finished r

def isFinished : Slot σ ρ → Bool
  | finished _ => true
  | running _ => false

def result? : Slot σ ρ → Option ρ
  | finished r => some r
  | running _ => none

/-- The state of a task that has not ended. -/
def state? : Slot σ ρ → Option σ
  | running s => some s
  | finished _ => none

end Slot

namespace Schedule

variable {ω σ ρ : Type}

/-- How many waits may be over within a turn. -/
def stretch : Nat := 128

/-- How many tasks beside the calls take their turns in a round. -/
def round : Nat := 61

def start (w : ω) : Schedule ω σ ρ := ⟨w, [], [], [], [], 0, stretch⟩

def mapWorld (s : Schedule ω σ ρ) (f : ω → ω) : Schedule ω σ ρ := { s with world := f s.world }

def mapTasks (s : Schedule ω σ ρ) (f : σ → σ) : Schedule ω σ ρ :=
  { s with jobs := s.jobs.map fun j => { j with slot := j.slot.map f } }

def slot? (s : Schedule ω σ ρ) (i : Nat) : Option (Slot σ ρ) :=
  (s.jobs.find? fun j => j.number = i).map Job.slot

def put (s : Schedule ω σ ρ) (i : Nat) (slot : Slot σ ρ) : Schedule ω σ ρ :=
  { s with jobs := s.jobs.map fun j => if j.number = i then { j with slot := slot } else j }

def calls (s : Schedule ω σ ρ) : List (Job σ ρ) := s.jobs.filter Job.called

def isCalled (s : Schedule ω σ ρ) (i : Nat) : Bool := s.calls.any fun j => j.number = i

/-- Starts a task, which stands in the line at once. -/
def begin (s : Schedule ω σ ρ) (called : Bool) (task : σ) : Schedule ω σ ρ :=
  { s with
    jobs := s.jobs ++ [⟨s.issued, called, .running task⟩]
    line := s.line ++ [s.issued]
    issued := s.issued + 1 }

/-- Starts a task beside the calls. -/
def spawn (s : Schedule ω σ ρ) (task : σ) : Schedule ω σ ρ := s.begin false task

def silence (s : Schedule ω σ ρ) (i : Nat) : Schedule ω σ ρ :=
  { s with alarms := s.alarms.filter fun a => a.2 ≠ i }

/-- Sets the alarm of a task that waits, unless it is set already. -/
def setAlarm (s : Schedule ω σ ρ) (i : Nat) (wake : Option Nat) : Schedule ω σ ρ :=
  match wake with
  | none => s.silence i
  | some t =>
    if s.alarms.contains (t, i) then s
    else
      let s := s.silence i
      { s with alarms := s.alarms ++ [(t, i)] }

def stepAside (s : Schedule ω σ ρ) (i : Nat) : Schedule ω σ ρ := { s with aside := i :: s.aside }

/-- Whether a task can take a step. -/
def canMove (c : Rules ω σ ρ) (w : ω) : Slot σ ρ → Bool
  | .finished _ => false
  | .running t =>
    match c.step w t with
    | .waits _ => false
    | _ => true

/-- Which of the tasks stand in the line or stepped aside, by their numbers. -/
def standing (s : Schedule ω σ ρ) : Array Bool :=
  (s.line ++ s.aside).foldl (fun marks i => marks.setIfInBounds i true)
    (Array.replicate s.issued false)

/-- The tasks that can go on join the line, but for the one that runs and those that stepped
aside. -/
def rouse (c : Rules ω σ ρ) (running : Option Nat) (s : Schedule ω σ ρ) : Schedule ω σ ρ :=
  let marks := s.standing
  let joining := s.jobs.filter fun j =>
    running ≠ some j.number && !marks.getD j.number false && canMove c s.world j.slot
  { s with line := s.line ++ joining.map Job.number }

/-- The limit on steps and rounds of a run. -/
def fuel : Nat := 1000000

/-- Lets a task go on until its turn is over, for a number of steps at most; `left` is how many
waits may be over within the turn.  When there are none left, the task can neither begin a wait
nor resume after one. -/
def drive (c : Rules ω σ ρ) (i : Nat) :
    Nat → Nat → Schedule ω σ ρ → σ → Schedule ω σ ρ × Turn σ ρ × Nat
  | 0, left, s, t => (s, .waiting t none, left)
  | fuel + 1, left, s, t =>
    let after (w : ω) : Schedule ω σ ρ := rouse c (some i) { s with world := w }
    match c.step s.world t, left with
    | .goes w t, left => drive c i fuel left (after w) t
    | .ends w r, left => (after w, .finished r, left)
    | _, 0 => (s, .exhausted t, 0)
    | .waits wake, left => (s, .waiting t wake, left)
    | .pauses w t, left => drive c i fuel left (after w) t
    | .resumes w t, left + 1 => drive c i fuel left (after w) t

/-- A task leaves the line and takes its turn; the answer tells how many waits are left in it.
One that was woken in vain keeps its alarm. -/
def visit (c : Rules ω σ ρ) (left : Nat) (s : Schedule ω σ ρ) (i : Nat) : Schedule ω σ ρ × Nat :=
  let s := { s with line := s.line.erase i }
  match (s.slot? i).bind Slot.state? with
  | none => (s, left)
  | some t =>
    match c.step s.world t with
    | .waits wake => (if left = 0 then s.stepAside i else s.setAlarm i wake, left)
    | _ =>
      let (s, turn, left) := drive c i fuel left s t
      let s := s.silence i
      match turn with
      | .waiting t wake => ((s.put i (.running t)).setAlarm i wake, left)
      | .exhausted t => ((s.put i (.running t)).stepAside i, left)
      | .finished r => (s.put i (.finished r), left)

/-- Lets tasks of a kind take their turns, a number of them at most. -/
def serve (c : Rules ω σ ρ) (p : Nat → Bool) : Nat → Schedule ω σ ρ → Schedule ω σ ρ
  | 0, s => s
  | turns + 1, s =>
    match s.line.find? p with
    | none => s
    | some i => serve c p turns (visit c stretch s i).1

/-- Those that stepped aside join the line, the last one first. -/
def rejoin (s : Schedule ω σ ρ) : Schedule ω σ ρ :=
  { s with line := s.line ++ s.aside.filter (fun i => !s.line.contains i), aside := [] }

/-- Lets tasks beside the calls take their turns of a round. -/
def pass (c : Rules ω σ ρ) (s : Schedule ω σ ρ) : Schedule ω σ ρ :=
  rejoin (serve c (fun i => !s.isCalled i) round s)

/-- Lets the tasks beside the calls go on, for a number of rounds at most. -/
def passAll (c : Rules ω σ ρ) : Nat → Schedule ω σ ρ → Schedule ω σ ρ
  | 0, s => s
  | rounds + 1, s =>
    let s := pass c s
    if s.line.any fun i => !s.isCalled i then passAll c rounds s else s

/-- Lets the tasks beside the calls go on until all of them wait. -/
def settle (c : Rules ω σ ρ) (s : Schedule ω σ ρ) : Schedule ω σ ρ :=
  passAll c fuel (rouse c none { s with left := stretch })

/-- As many calls are visited in the order they were started. -/
def few : Nat := 30

/-- A call goes on within the turn of the calls. -/
def attendTo (c : Rules ω σ ρ) (s : Schedule ω σ ρ) (i : Nat) : Schedule ω σ ρ :=
  let (s, left) := visit c s.left s i
  { s with left := left }

/-- How many calls have not ended. -/
def pending (s : Schedule ω σ ρ) : Nat := (s.calls.filter fun j => !j.slot.isFinished).length

/-- Lets the calls go on in the order of the line.  A pass over them is over when as many as were
pending were visited and none of them ended; `visits` counts down to that. -/
def attendInLine (c : Rules ω σ ρ) : Nat → Nat → Schedule ω σ ρ → Schedule ω σ ρ
  | 0, _, s => s
  | fuel + 1, visits, s =>
    match s.line.find? s.isCalled with
    | none => s
    | some i =>
      let s := attendTo c s i
      if (s.slot? i).any Slot.isFinished then attendInLine c fuel s.pending s
      else if visits ≤ 1 then s
      else attendInLine c fuel (visits - 1) s

/-- Lets the calls in the line take their turn: a few of them each once, in the order they were
started; more of them in the order of the line. -/
def attend (c : Rules ω σ ρ) (s : Schedule ω σ ρ) : Schedule ω σ ρ :=
  let numbers := s.calls.map Job.number
  if numbers.length ≤ few then
    numbers.foldl (fun s i => if s.line.contains i then attendTo c s i else s) s
  else attendInLine c fuel s.pending s

/-- Lets time jump to the next alarm, or to the limit if that comes first; those that wanted to
be woken by then join the line. -/
def advance (c : Rules ω σ ρ) (limit : Nat) (s : Schedule ω σ ρ) : Schedule ω σ ρ :=
  let t := s.alarms.foldl (fun t a => min t a.1) limit
  let due := (s.alarms.filter fun a => a.1 ≤ t).map Prod.snd
  { s with
    world := c.setTime s.world t
    line := s.line ++ due.filter fun i => !s.line.contains i
    alarms := s.alarms.filter fun a => t < a.1 }

/-- Runs until every call has ended or it is the time `limit`.  That the limit was reached counts
as a wait that is over. -/
def run (c : Rules ω σ ρ) (limit : Nat) : Nat → Schedule ω σ ρ → Schedule ω σ ρ
  | 0, s => s
  | rounds + 1, s =>
    let s := attend c s
    if s.pending = 0 then s
    else if limit ≤ c.now s.world then { s with left := s.left - 1 }
    else
      let s := pass c { s with left := stretch }
      run c limit rounds (if s.line.isEmpty then advance c limit s else s)

/-- Lets time pass until the time `limit`, for the tasks beside the calls. -/
def elapse (c : Rules ω σ ρ) (limit : Nat) : Nat → Schedule ω σ ρ → Schedule ω σ ρ
  | 0, s => s
  | rounds + 1, s =>
    let s := settle c s
    if limit ≤ c.now s.world then s else elapse c limit rounds (advance c limit s)

/-- Takes the tasks that `p` picks out of the schedule; those that have not ended are dropped
one after the other. -/
def dismiss (c : Rules ω σ ρ) (p : Job σ ρ → Bool) (s : Schedule ω σ ρ) : Schedule ω σ ρ :=
  let (gone, kept) := s.jobs.partition p
  let stays (i : Nat) : Bool := kept.any fun j => j.number = i
  let s : Schedule ω σ ρ :=
    { s with
      jobs := kept
      line := s.line.filter stays
      aside := s.aside.filter stays
      alarms := s.alarms.filter fun a => stays a.2 }
  ((gone.filterMap fun j => j.slot.state?).flatMap c.abandon).foldl
    (fun s f => rouse c none (s.mapWorld f)) s

/-- Calls tasks and waits for their results, for some time at most.  A call that takes longer is
dropped and has no result. -/
def call (c : Rules ω σ ρ) (patience : Nat) (tasks : List σ) (s : Schedule ω σ ρ) :
    Schedule ω σ ρ × List (Option ρ) :=
  let s := tasks.foldl (fun s t => s.begin true t) s
  let s := run c (c.now s.world + patience) fuel (rouse c none s)
  (s.dismiss c (fun j => j.called || j.slot.isFinished), s.calls.map fun j => j.slot.result?)

end Schedule
end Rendezvous
