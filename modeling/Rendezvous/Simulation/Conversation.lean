/-
A service in conversation with a flow.

Everything the service sent is kept, so that it can be sent again, and the conversations it took
part in are remembered.
-/
import Rendezvous.Simulation.Bench
import Rendezvous.Simulation.Disturbance
import Rendezvous.Simulation.Service

namespace Rendezvous

/-- A bench, the messages sent so far, and the keys of their conversations, oldest first. -/
structure Conversation where
  bench : Bench
  sent : List RawMessage
  keys : List CorrelationKey

namespace Conversation

def policy : RetryPolicy := ⟨2, 1, 5, 2.0⟩

def start (idempotent : Bool) : Conversation :=
  let names : HeaderNames := {}
  let settings : FlowSettings := { names := names, retry := policy, idempotent := idempotent }
  ⟨Bench.ofOptions
    ⟨settings.flow, Reconciler.default names none, Outlet.recorder, ⟨Stamp.start2025, 1⟩, {}, {},
      ⟨false, false⟩⟩, [], []⟩

def say (c : Conversation) (m : RawMessage) :
    Conversation × Option (Except FlowError FlowOutcome) :=
  let (b, outcome) := c.bench.send m
  let keys :=
    match c.bench.scene.flow.derive m with
    | .ok key => if c.keys.contains key then c.keys else c.keys ++ [key]
    | .error _ => c.keys
  (⟨b, c.sent ++ [m], keys⟩, outcome)

def mapWorld (c : Conversation) (f : World Outlet → World Outlet) : Conversation :=
  { c with bench := c.bench.mapWorld f }

/-- The next outputs fail as if the broker were down. -/
def failNext (c : Conversation) (n : Nat) : Conversation :=
  c.mapWorld fun w => w.mapOutlet fun o =>
    o.failNext (List.replicate n (some (.transport "broker unavailable")))

def rejectNext (c : Conversation) (n : Nat) : Conversation :=
  c.mapWorld fun w => w.mapOutlet fun o =>
    o.failNext (List.replicate n (some (.rejected "destination refused")))

def clear (c : Conversation) : Conversation :=
  { c with bench := (c.bench.mapWorld fun w => w.mapOutlet Outlet.clear).turnPage }

def outputs (c : Conversation) : List RawMessage := c.bench.world.channel.accepted

/-- How many outputs were offered since they were last forgotten. -/
def attempts (c : Conversation) : Nat := (Bench.report c.bench c.bench).attempts.length

def groups (c : Conversation) : List (CorrelationKey × Option Group) :=
  c.keys.map fun key => (key, c.bench.world.groups.group? key)

end Conversation
end Rendezvous
