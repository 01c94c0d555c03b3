/-
Work under a lock.

The work asks for its lock, lines up for it if it is taken, waits as long as it is ready to,
does what it has to do while it holds the lock, and leaves the lock as its last step.  Work that
never got the lock was not begun.
-/
import Rendezvous.Flow.World
import Rendezvous.Schedule

namespace Rendezvous

/-- How far work of stages `σ` and outcome `ρ` got. -/
inductive Guarded (σ ρ : Type) where
  | asking
  /-- the lock is taken -/
  | lining
  | queued (ticket : Ticket) (since : Nat)
  /-- the wait was in vain -/
  | givingUp (interrupted : Bool)
  | inside (ticket : Ticket) (stage : σ)
  | leaving (ticket : Ticket) (outcome : ρ)

/-- What came of work under a lock. -/
inductive Entry (ρ : Type) where
  | ran (outcome : ρ)
  | skipped
  | refused (cause : LockError)

namespace Guarded

variable {κ σ ρ : Type}

/-- The ticket that holds the lock or waits for it. -/
def ticket? : Guarded σ ρ → Option Ticket
  | asking => none
  | lining => none
  | givingUp _ => none
  | queued t _ => some t
  | inside t _ => some t
  | leaving t _ => some t

def withDesk (w : World κ) (d : Desk) : World κ := { w with desk := d }

/-- The lock is given up, or the place in its queue. -/
def release (w : World κ) (key : String) (t : Ticket) : World κ :=
  withDesk w (w.desk.leave key t)

def enter (w : World κ) (key : String) (t : Ticket) (waited : Nat) : World κ :=
  (w.time .lockWait waited).record (.entered key t)

/-- The work does not get its lock. -/
def refuse (w : World κ) (key : String) (interrupted : Bool) :
    Progress (World κ) (Guarded σ ρ) (Entry ρ) :=
  if interrupted then .ends (w.count .lockInterrupted) (.refused (.interrupted key))
  else .ends (w.count .lockUnavailable) .skipped

/-- The next step of work that starts at `start` and goes on by `work`. -/
def step (key : String) (p : Patience) (start : σ)
    (work : World κ → σ → Progress (World κ) σ ρ) (w : World κ) :
    Guarded σ ρ → Progress (World κ) (Guarded σ ρ) (Entry ρ)
  | asking =>
    match w.desk.request key p with
    | (d, .granted t) => .goes (enter (withDesk w d) key t 0) (.inside t start)
    | (d, .busy) =>
      if p = .never then refuse (withDesk w d) key false else .goes (withDesk w d) .lining
    | (d, .interrupted) => refuse (withDesk w d) key true
  | lining =>
    let (d, t) := w.desk.lineUp key
    .pauses (withDesk w d) (.queued t w.now)
  | queued t since =>
    match w.desk.check key t (p.deadline since) w.now with
    | (d, .granted) => .resumes (enter (withDesk w d) key t (w.now - since)) (.inside t start)
    | (d, .late) => .resumes (withDesk w d) (.givingUp false)
    | (d, .interrupted) => .resumes (withDesk w d) (.givingUp true)
    | (_, .waiting) => .waits (p.deadline since)
  | givingUp interrupted => refuse w key interrupted
  | inside t s => (work w s).andThen (.inside t) fun w r => .goes w (.leaving t r)
  | leaving t r => .ends ((release w key t).record (.left key t)) (.ran r)

/-- Work that is dropped gives up its lock, or its place in the queue. -/
def abandon (key : String) (w : World κ) (g : Guarded σ ρ) : World κ :=
  match g.ticket? with
  | some t => release w key t
  | none => w

end Guarded
end Rendezvous
