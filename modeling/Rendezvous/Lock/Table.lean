/-
Locks by key.

Each request for a lock carries a ticket.  A lock is free or held by one ticket, and the
tickets that wait for it stand in a queue.  A lock that is given up passes at once to the
first ticket in the queue, whether or not its owner has noticed yet.  Locks are made when they
are first asked for and stay for good.
-/
import Rendezvous.Dict

namespace Rendezvous

/-- A request for a lock. -/
abbrev Ticket := Nat

/-- One lock: who holds it and who waits for it, first come first. -/
structure KeyLock where
  holder : Option Ticket
  queue : List Ticket

/-- The locks by their keys. -/
structure LockTable where
  locks : Dict KeyLock

namespace KeyLock

def free : KeyLock := ⟨none, []⟩

/-- Passes the lock on to the first in the queue. -/
def pass (l : KeyLock) : KeyLock :=
  match l.queue with
  | [] => free
  | next :: rest => ⟨some next, rest⟩

/-- Forgets a ticket: one that holds the lock passes it on, one that waits leaves the queue. -/
def forget (l : KeyLock) (t : Ticket) : KeyLock :=
  if l.holder = some t then l.pass else ⟨l.holder, l.queue.filter (· ≠ t)⟩

end KeyLock

namespace LockTable

def empty : LockTable := ⟨Dict.empty⟩

instance : Inhabited LockTable := ⟨empty⟩

def lock (s : LockTable) (key : String) : KeyLock := (s.locks.find? key).getD KeyLock.free

/-- Changes the lock of a key, which exists from then on. -/
def update (s : LockTable) (key : String) (f : KeyLock → KeyLock) : LockTable :=
  ⟨s.locks.insert key (f (s.lock key))⟩

/-- Makes sure that the lock of a key exists. -/
def obtain (s : LockTable) (key : String) : LockTable := s.update key id

def isFree (s : LockTable) (key : String) : Bool := (s.lock key).holder.isNone

def holds (s : LockTable) (key : String) (t : Ticket) : Bool := (s.lock key).holder = some t

def take (s : LockTable) (key : String) (t : Ticket) : LockTable :=
  s.update key fun l => ⟨some t, l.queue⟩

/-- Puts a ticket at the end of the queue. -/
def enqueue (s : LockTable) (key : String) (t : Ticket) : LockTable :=
  s.update key fun l => ⟨l.holder, l.queue ++ [t]⟩

/-- Takes a ticket out of the lock of a key, passing the lock on if the ticket holds it. -/
def forget (s : LockTable) (key : String) (t : Ticket) : LockTable :=
  s.update key fun l => l.forget t

def size (s : LockTable) : Nat := s.locks.size

theorem lock_update (s : LockTable) (key other : String) (f : KeyLock → KeyLock) :
    (s.update key f).lock other = if other = key then f (s.lock key) else s.lock other := by
  simp only [lock, update, Dict.find?_insert]
  split <;> rfl

end LockTable
end Rendezvous
