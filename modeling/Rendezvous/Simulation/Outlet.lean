/-
A channel for outputs that records them or hands them to a process engine.

How long the next attempts take, and how they fail, may be scripted.
-/
import Rendezvous.Engine.Command
import Rendezvous.Flow.World

namespace Rendezvous

/-- Where outputs go. -/
inductive Sink where
  | recorder (accepted : List RawMessage)
  | engine (names : HeaderNames) (engine : Engine)

/-- A channel: the lengths of the next attempts, their failures, and where outputs go. -/
structure Outlet where
  latencies : List Nat
  faults : Faults Unit ChannelError
  sink : Sink

namespace Outlet

def recorder : Outlet := ⟨[], [], .recorder []⟩

instance : Inhabited Outlet := ⟨recorder⟩

def engine (names : HeaderNames) : Outlet := ⟨[], [], .engine names Engine.empty⟩

def accepted (o : Outlet) : List RawMessage :=
  match o.sink with
  | .recorder accepted => accepted
  | .engine .. => []

def engine? (o : Outlet) : Option Engine :=
  match o.sink with
  | .recorder _ => none
  | .engine _ e => some e

def mapEngine (o : Outlet) (f : Engine → Engine) : Outlet :=
  match o.sink with
  | .recorder _ => o
  | .engine names e => { o with sink := .engine names (f e) }

def clear (o : Outlet) : Outlet := { o with faults := [], sink := .recorder [] }

/-- Takes the length of the next attempt, if it is scripted. -/
def delay (o : Outlet) : Outlet × Option Nat :=
  match o.latencies with
  | [] => (o, none)
  | millis :: rest => ({ o with latencies := rest }, some millis)

def send (o : Outlet) (m : RawMessage) : Outlet × Except ChannelError Unit :=
  let (fault, rest) := o.faults.next ()
  let o := { o with faults := rest }
  match fault with
  | some e => (o, .error e)
  | none =>
    match o.sink with
    | .recorder accepted => ({ o with sink := .recorder (accepted ++ [m]) }, .ok ())
    | .engine names e =>
      let (e, outcome) := e.send names m
      ({ o with sink := .engine names e }, outcome)

def carrier : Carrier Outlet := ⟨delay, send⟩

end Outlet
end Rendezvous
