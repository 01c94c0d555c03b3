/-
Asking for locks, waiting for them and giving them up.

A request says how long it is ready to wait, and lines up if the lock is taken and it is ready
to wait at all.  A wait ends in one of three ways, looked at in this order: the interrupt is
raised, the lock was passed to the request, its deadline is over.  A request that never waits
takes no notice of the interrupt.  The interrupt is a level: it stays raised until it is cleared,
and a request sees only what it is when it looks.
-/
import Rendezvous.Lock.Table

namespace Rendezvous

/-- How long a request waits; times are in milliseconds. -/
inductive Patience where
  | never
  | atMost (timeout : Nat)
  | unbounded
deriving DecidableEq, Repr

namespace Patience

def ofTimeout : Option Nat → Patience
  | some timeout => atMost timeout
  | none => unbounded

/-- When a request made at some time stops waiting. -/
def deadline (p : Patience) (since : Nat) : Option Nat :=
  match p with
  | never => some since
  | atMost timeout => some (since + timeout)
  | unbounded => none

/-- Whether a request looks at the interrupt. -/
def heeds : Patience → Bool
  | never => false
  | _ => true

end Patience

/-- The locks, the interrupt, and the number of tickets given out. -/
structure Desk where
  table : LockTable
  raised : Bool
  issued : Nat

/-- The answer to a request. -/
inductive Admission where
  | granted (ticket : Ticket)
  | busy
  | interrupted
deriving DecidableEq, Repr

/-- How a waiting request stands. -/
inductive Standing where
  | granted
  | interrupted
  | late
  | waiting
deriving DecidableEq, Repr

namespace Desk

def empty : Desk := ⟨LockTable.empty, false, 0⟩

instance : Inhabited Desk := ⟨empty⟩

def grant (d : Desk) (key : String) : Desk × Ticket :=
  ({ d with table := d.table.take key d.issued, issued := d.issued + 1 }, d.issued)

def request (d : Desk) (key : String) (p : Patience) : Desk × Admission :=
  let d := { d with table := d.table.obtain key }
  if p.heeds && d.raised then (d, .interrupted)
  else if d.table.isFree key then (d.grant key).map id .granted
  else (d, .busy)

/-- Lines up for the lock of a key; one that is free by then is taken. -/
def lineUp (d : Desk) (key : String) : Desk × Ticket :=
  if d.table.isFree key then d.grant key
  else ({ d with table := d.table.enqueue key d.issued, issued := d.issued + 1 }, d.issued)

/-- Gives up the lock, or the place in its queue. -/
def leave (d : Desk) (key : String) (t : Ticket) : Desk :=
  { d with table := d.table.forget key t }

/-- Looks how a waiting request stands; one that is over leaves the queue. -/
def check (d : Desk) (key : String) (t : Ticket) (deadline : Option Nat) (now : Nat) :
    Desk × Standing :=
  if d.raised then (d.leave key t, .interrupted)
  else if d.table.holds key t then (d, .granted)
  else
    match deadline with
    | some limit => if limit ≤ now then (d.leave key t, .late) else (d, .waiting)
    | none => (d, .waiting)

def interrupt (d : Desk) : Desk := { d with raised := true }

def clear (d : Desk) : Desk := { d with raised := false }

end Desk
end Rendezvous
