/-
Traffic: calls of a flow, all at once, in every order of their steps.

A traffic is a world with the calls that were made in it.  A move makes a call, lets one of the
calls take its next step, drops a call where it waits, lets time pass, or raises or clears the
interrupt.  A run is a list of moves, so a statement about all runs is one about all
interleavings, and `inv_of_run` is the induction that every such statement uses.
-/
import Rendezvous.Flow.Settings
import Rendezvous.Proofs.Progress
import Rendezvous.Simulation.Outlet

namespace Rendezvous

/-- What became of a call of a flow so far. -/
inductive Sending where
  | running (stage : Flow.Stage)
  | returned (outcome : Except FlowError FlowOutcome)
  | dropped

/-- Something that happens to a traffic. -/
inductive Move where
  /-- a message is sent -/
  | send (message : RawMessage)
  /-- a call takes its next step -/
  | step (call : Nat)
  /-- a call is dropped where it waits -/
  | drop (call : Nat)
  /-- it becomes later -/
  | pass (now : Nat)
  | interrupt
  | clear

/-- A world and the calls in it, in the order they were made. -/
structure Traffic (κ : Type) where
  world : World κ
  calls : List Sending

/-! ## Where a call may be dropped -/

/-- Whether the work on a group waits here for something. -/
def Aggregation.Stage.suspends : Aggregation.Stage → Bool
  | .transit .. => true
  | .pause .. => true
  | _ => false

/-- Whether work under a lock waits here, given whether the work inside does. -/
def Guarded.suspends {σ ρ : Type} (inner : σ → Bool) : Guarded σ ρ → Bool
  | .lining => true
  | .queued .. => true
  | .inside _ stage => inner stage
  | _ => false

def Chain.Stage.suspends : Chain.Stage → Bool
  | .reconciling _ _ _ _ g => g.suspends fun _ => false
  | .aggregating _ _ _ g => g.suspends Aggregation.Stage.suspends
  | _ => false

/-- Whether a call of a flow waits here; one that has not begun does. -/
def Flow.Stage.suspends : Flow.Stage → Bool
  | .arrived _ => true
  | .handling _ call => call.stage.suspends
  | .rejecting .. => false

variable {κ : Type}

/-- What a step makes of a world and the call that takes it. -/
def Sending.after? :
    Progress (World κ) Flow.Stage (Except FlowError FlowOutcome) → Option (World κ × Sending)
  | .waits _ => none
  | .goes w st => some (w, .running st)
  | .pauses w st => some (w, .running st)
  | .resumes w st => some (w, .running st)
  | .ends w r => some (w, .returned r)

theorem Sending.of_after? {R : World κ → Sending → Prop} {w : World κ} {c : Sending}
    {p : Progress (World κ) Flow.Stage (Except FlowError FlowOutcome)}
    (h : p.Ensures (fun w st => R w (.running st)) fun w r => R w (.returned r))
    (hp : Sending.after? p = some (w, c)) : R w c := by
  cases p with
  | waits => simp [after?] at hp
  | goes w st => obtain ⟨rfl, rfl⟩ : _ ∧ _ := by simpa [after?] using hp
                 exact h
  | pauses w st => obtain ⟨rfl, rfl⟩ : _ ∧ _ := by simpa [after?] using hp
                   exact h
  | resumes w st => obtain ⟨rfl, rfl⟩ : _ ∧ _ := by simpa [after?] using hp
                    exact h
  | ends w r => obtain ⟨rfl, rfl⟩ : _ ∧ _ := by simpa [after?] using hp
                exact h

namespace Traffic

def start (w : World κ) : Traffic κ := ⟨w, []⟩

def stage? (s : Traffic κ) (i : Nat) : Option Flow.Stage :=
  match s.calls[i]? with
  | some (.running st) => some st
  | _ => none

def put (s : Traffic κ) (i : Nat) (w : World κ) (c : Sending) : Traffic κ := ⟨w, s.calls.set i c⟩

/-- Makes a move, if it can be made. -/
def move (carrier : Carrier κ) (f : Flow) (s : Traffic κ) : Move → Option (Traffic κ)
  | .send m => some ⟨s.world, s.calls ++ [.running (.arrived m)]⟩
  | .step i =>
    (s.stage? i).bind fun st =>
      (Sending.after? (f.step carrier s.world st)).map fun after => s.put i after.1 after.2
  | .drop i =>
    (s.stage? i).bind fun st =>
      if st.suspends then some (s.put i (Flow.abandon s.world st) .dropped) else none
  | .pass now => if s.world.now ≤ now then some ⟨s.world.setTime now, s.calls⟩ else none
  | .interrupt => some ⟨{ s.world with desk := s.world.desk.interrupt }, s.calls⟩
  | .clear => some ⟨{ s.world with desk := s.world.desk.clear }, s.calls⟩

def run (carrier : Carrier κ) (f : Flow) : List Move → Traffic κ → Option (Traffic κ)
  | [], s => some s
  | mv :: rest, s => (s.move carrier f mv).bind (run carrier f rest)

variable {carrier : Carrier κ} {f : Flow} {s s' : Traffic κ}

theorem call_of_stage? {i : Nat} {st : Flow.Stage} (h : s.stage? i = some st) :
    s.calls[i]? = some (.running st) := by
  unfold stage? at h
  split at h
  · next hc => rw [hc, Option.some.inj h]
  · cases h

theorem getElem?_put {i j : Nat} {w : World κ} {c d : Sending} (hi : s.calls[i]? = some d) :
    (s.put i w c).calls[j]? = if j = i then some c else s.calls[j]? := by
  have hlt : i < s.calls.length := (List.getElem?_eq_some_iff.mp hi).1
  show (s.calls.set i c)[j]? = _
  rw [List.getElem?_set]
  by_cases hij : i = j
  · subst hij
    simp [hlt]
  · rw [if_neg hij, if_neg (Ne.symm hij)]

theorem step_of_move {i : Nat} (h : s.move carrier f (.step i) = some s') :
    ∃ st w c, s.calls[i]? = some (.running st) ∧
      Sending.after? (f.step carrier s.world st) = some (w, c) ∧ s' = s.put i w c := by
  obtain ⟨st, hst, h⟩ := Option.bind_eq_some_iff.mp h
  obtain ⟨⟨w, c⟩, hw, h⟩ := Option.map_eq_some_iff.mp h
  exact ⟨st, w, c, call_of_stage? hst, hw, h.symm⟩

theorem drop_of_move {i : Nat} (h : s.move carrier f (.drop i) = some s') :
    ∃ st, s.calls[i]? = some (.running st) ∧ st.suspends = true ∧
      s' = s.put i (Flow.abandon s.world st) .dropped := by
  obtain ⟨st, hst, h⟩ := Option.bind_eq_some_iff.mp h
  by_cases hs : st.suspends = true
  · rw [if_pos hs] at h
    exact ⟨st, call_of_stage? hst, hs, (Option.some.inj h).symm⟩
  · rw [if_neg hs] at h
    cases h

theorem getElem?_send (s : Traffic κ) (c : Sending) (j : Nat) :
    (s.calls ++ [c])[j]? = if j = s.calls.length then some c else s.calls[j]? := by
  rw [List.getElem?_append]
  by_cases hj : j < s.calls.length
  · rw [if_pos hj, if_neg (Nat.ne_of_lt hj)]
  · rw [if_neg hj]
    by_cases he : j = s.calls.length
    · rw [if_pos he, he, Nat.sub_self]
      rfl
    · have hle : [c].length ≤ j - s.calls.length := by
        show 1 ≤ j - s.calls.length
        omega
      rw [if_neg he, List.getElem?_eq_none hle, List.getElem?_eq_none (Nat.le_of_not_lt hj)]

theorem pass_of_move {now : Nat} (h : s.move carrier f (.pass now) = some s') :
    s.world.now ≤ now ∧ s' = ⟨s.world.setTime now, s.calls⟩ := by
  show s.world.now ≤ now ∧ _
  by_cases hle : s.world.now ≤ now
  · rw [show s.move carrier f (.pass now) = _ from if_pos hle] at h
    exact ⟨hle, (Option.some.inj h).symm⟩
  · rw [show s.move carrier f (.pass now) = _ from if_neg hle] at h
    cases h

/-- What every move keeps holds after every run. -/
theorem inv_of_run {I : Traffic κ → Prop} {moves : List Move}
    (hmove : ∀ s mv s', mv ∈ moves → I s → s.move carrier f mv = some s' → I s')
    (h : run carrier f moves s = some s') (hs : I s) : I s' := by
  induction moves generalizing s with
  | nil => exact Option.some.inj h ▸ hs
  | cons mv rest ih =>
    obtain ⟨t, ht, h⟩ := Option.bind_eq_some_iff.mp h
    exact ih (fun s mv s' hmv => hmove s mv s' (List.mem_cons_of_mem _ hmv)) h
      (hmove s mv t List.mem_cons_self hs ht)

end Traffic

/-! ## A conversation to try things on -/

/-- A message about the payment of order 42. -/
def orderPaid (id : Nat) (type : EventType) (body : String) : RawMessage :=
  Message.assemble (Uuid.ofNat id)
    (((Headers.none.putText "eventType" type.text).putText "messageEventName" "order-paid").putText
      "messageEventCorrelationKey" "42") (Text.toBytes body)

def orderAwaited (id : Nat) : RawMessage :=
  orderPaid id .waiting "\x7b\"name\":\"order-paid\",\"executionId\":\"e\"\x7d"

def orderSent (id : Nat) : RawMessage := orderPaid id .sent "\x7b\"name\":\"order-paid\"\x7d"

def orderDeployed (id : Nat) : RawMessage :=
  orderPaid id .startDeployed "\x7b\"name\":\"order-paid\"\x7d"

/-- An empty world whose channel records, and fails as it is told. -/
def World.recording (faults : List (Option ChannelError)) : World Outlet :=
  .start ⟨[], faults.map fun e => ((), e), .recorder []⟩ ⟨Stamp.start2025, 1⟩ (.ofCapacity 10)
    (.ofSize 10 "errors")

/-- A channel that takes every output, after five milliseconds. -/
def Carrier.taker : Carrier (List RawMessage) :=
  ⟨fun taken => (taken, some 5), fun taken m => (taken ++ [m], .ok ())⟩

end Rendezvous
