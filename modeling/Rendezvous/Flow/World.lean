/-
The surroundings of a flow.

A world holds everything that calls of a flow share: the locks, the groups, the claims, the
dead letters, the channel for outputs, the clock, and the time of the day in milliseconds.
Calls on the stores and channels first meet the failures that were scripted for them.  The
journal keeps what happened, newest first, and nothing reads it but those who look from
outside.
-/
import Rendezvous.Claims
import Rendezvous.DeadLetter
import Rendezvous.Faults
import Rendezvous.Group.Release
import Rendezvous.Group.Store
import Rendezvous.Lock.Desk
import Rendezvous.Metrics.Basic
import Rendezvous.Time.Clock

namespace Rendezvous

/-- A channel that takes outputs: how long the next attempt takes, and what becomes of it. -/
structure Carrier (κ : Type) where
  delay : κ → κ × Option Nat
  send : κ → RawMessage → κ × Except ChannelError Unit

inductive StoreCall where
  | group
  | add
  | remove
  | removeGroup
deriving DecidableEq, Repr

inductive ClaimCall where
  | putIfAbsent
  | put
  | get
  | remove
deriving DecidableEq, Repr

/-- Why messages left their group. -/
inductive Removal where
  | released
  | cancelled
deriving DecidableEq, Repr

/-- Something that happened. -/
inductive Event where
  /-- a call reached the group store -/
  | asked (call : StoreCall)
  /-- a message joined its group -/
  | appended (key : CorrelationKey) (message : EventMessage)
  /-- messages were taken out of their group -/
  | removed (key : CorrelationKey) (ids : List Uuid) (why : Removal)
  /-- an output was offered to its channel -/
  | attempted (time : Nat) (message : RawMessage)
  /-- an output was accepted by its channel -/
  | accepted (key : CorrelationKey) (release : Release)
  /-- a message was offered to the error channel -/
  | offered (time : Nat) (message : RawMessage)
  /-- the handlers behind the idempotent receiver were done with a message -/
  | settled (id : Uuid) (success : Bool)
  /-- a lock was entered -/
  | entered (key : String) (ticket : Ticket)
  /-- a lock was left -/
  | left (key : String) (ticket : Ticket)
  /-- a handler made a note -/
  | noted (text : String)

/-- The state that calls share. -/
structure World (κ : Type) where
  now : Nat
  desk : Desk
  clock : Clock
  groups : GroupStore
  storeFaults : Faults StoreCall StoreError
  claims : ClaimStore
  claimFaults : Faults ClaimCall StoreError
  letters : DeadLetterQueue
  letterFaults : Faults Unit ChannelError
  handlerFaults : Faults Unit HandlerError
  channel : κ
  metrics : Metrics
  journal : List Event

namespace World

variable {κ : Type}

def start (channel : κ) (clock : Clock) (claims : ClaimStore) (letters : DeadLetterQueue) :
    World κ :=
  ⟨0, Desk.empty, clock, GroupStore.empty, [], claims, [], letters, [], [], channel, Metrics.none,
    []⟩

def setTime (w : World κ) (now : Nat) : World κ := { w with now := now }

def record (w : World κ) (e : Event) : World κ := { w with journal := e :: w.journal }

def count (w : World κ) (t : Total) : World κ := { w with metrics := w.metrics.count t }

def time (w : World κ) (t : Timing) (millis : Nat) : World κ :=
  { w with metrics := w.metrics.time t millis }

def stamp (w : World κ) : Stamp × World κ :=
  let (now, clock) := w.clock.tick
  (now, { w with clock := clock })

/-! ## Groups -/

/-- A call reaches the group store; it may fail there. -/
def askStore (w : World κ) (call : StoreCall) : World κ × Option StoreError :=
  let (fault, rest) := w.storeFaults.next call
  ({ w.record (.asked call) with storeFaults := rest }, fault)

def gaugeGroups (w : World κ) : World κ :=
  { w with metrics := w.metrics.set .groups w.groups.count }

def readGroup (w : World κ) (key : CorrelationKey) : World κ × Except StoreError (Option Group) :=
  match w.askStore .group with
  | (w, some e) => (w, .error e)
  | (w, none) => (w, .ok (w.groups.group? key))

/-- Appends a message to a group; answers with the group. -/
def appendMessage (w : World κ) (key : CorrelationKey) (m : EventMessage) :
    World κ × Except StoreError Group :=
  match w.askStore .add with
  | (w, some e) => (w, .error e)
  | (w, none) =>
    let (now, w) := w.stamp
    let (groups, group) := w.groups.add key m now
    (({ w with groups := groups }.gaugeGroups).record (.appended key m), .ok group)

def removeMessages (w : World κ) (key : CorrelationKey) (ids : List Uuid) (why : Removal) :
    World κ × Except StoreError Unit :=
  match w.askStore .remove with
  | (w, some e) => (w, .error e)
  | (w, none) =>
    let (now, w) := w.stamp
    match w.groups.group? key with
    | none => (w, .ok ())
    | some _ =>
      (({ w with groups := w.groups.remove key ids now }.gaugeGroups).record
        (.removed key ids why), .ok ())

def dropGroup (w : World κ) (key : CorrelationKey) : World κ × Except StoreError Unit :=
  match w.askStore .removeGroup with
  | (w, some e) => (w, .error e)
  | (w, none) => ({ w with groups := w.groups.drop key }.gaugeGroups, .ok ())

/-! ## Claims -/

/-- A call reaches the claim store; it may fail there. -/
def askClaims (w : World κ) (call : ClaimCall) : World κ × Option StoreError :=
  let (fault, rest) := w.claimFaults.next call
  ({ w with claimFaults := rest }, fault)

/-- Stores a claim unless there is one; answers with the one that was there. -/
def putClaimIfAbsent (w : World κ) (key value : String) :
    World κ × Except StoreError (Option String) :=
  match w.askClaims .putIfAbsent with
  | (w, some e) => (w, .error e)
  | (w, none) =>
    let (claims, found) := w.claims.putIfAbsent key value
    ({ w with claims := claims }, .ok found)

def putClaim (w : World κ) (key value : String) : World κ × Except StoreError Unit :=
  match w.askClaims .put with
  | (w, some e) => (w, .error e)
  | (w, none) => ({ w with claims := w.claims.put key value }, .ok ())

def getClaim (w : World κ) (key : String) : World κ × Except StoreError (Option String) :=
  match w.askClaims .get with
  | (w, some e) => (w, .error e)
  | (w, none) => (w, .ok (w.claims.get? key))

def removeClaim (w : World κ) (key : String) : World κ × Except StoreError (Option String) :=
  match w.askClaims .remove with
  | (w, some e) => (w, .error e)
  | (w, none) =>
    let (claims, found) := w.claims.remove key
    ({ w with claims := claims }, .ok found)

/-! ## Dead letters -/

def bury (w : World κ) (m : RawMessage) : World κ :=
  let (now, w) := w.stamp
  let w := if w.letters.isFull then w.count .deadLettersDropped else w
  let letters := w.letters.push m now
  { w with letters := letters, metrics := w.metrics.set .deadLetters letters.size }

def offer (w : World κ) (m : RawMessage) : World κ × Except ChannelError Unit :=
  let (fault, rest) := w.letterFaults.next ()
  let w := { w.record (.offered w.now m) with letterFaults := rest }
  match fault with
  | some e => (w, .error e)
  | none => (w.bury m, .ok ())

def drainLetters (w : World κ) : World κ × List DeadLetter :=
  let (entries, letters) := w.letters.drain
  ({ w with letters := letters, metrics := w.metrics.set .deadLetters 0 }, entries)

end World
end Rendezvous
