/-
What a list of pending messages yields.

The default rule and processor look at the key and the messages of a group only, and they agree:
a group is ready exactly if it has an output.  So the list of messages decides what is released
(`Release.of?`), what stays after a release, and what a cancellation takes out (`stale`).
-/
import Rendezvous.Flow.Aggregation
import Rendezvous.Flow.Reconciliation
import Rendezvous.Proofs.Group.Store

namespace Rendezvous

/-! ## Types of messages -/

def Message.isAggregated (names : HeaderNames) (m : EventMessage) : Bool :=
  (EventType.ofText ((m.headers.text? names.eventType).getD "")).isAggregated

def Message.isOf (names : HeaderNames) (type : EventType) (m : EventMessage) : Bool :=
  m.eventType? names.eventType = some type.text

/-- A type is aggregated exactly if it is a registration, a waiting or a sent one. -/
theorem EventType.isAggregated_ofText {s : String} :
    (EventType.ofText s).isAggregated = true ↔ s = EventType.startDeployed.text ∨
      s = EventType.waiting.text ∨ s = EventType.sent.text := by
  constructor
  · intro h
    rw [← text_ofText s]
    cases ht : ofText s with
    | startDeployed => exact Or.inl rfl
    | waiting => exact Or.inr (Or.inl rfl)
    | sent => exact Or.inr (Or.inr rfl)
    | received | cancelled | other => rw [ht] at h; cases h
  · rintro (rfl | rfl | rfl) <;> decide

/-- An aggregated message is a registration, a waiting or a sent one. -/
theorem Message.isAggregated_iff {names : HeaderNames} {m : EventMessage} :
    m.isAggregated names = true ↔ m.isOf names .startDeployed = true ∨
      m.isOf names .waiting = true ∨ m.isOf names .sent = true := by
  unfold Message.isAggregated Message.isOf Message.eventType?
  rw [EventType.isAggregated_ofText]
  cases h : m.headers.text? names.eventType with
  | none => simp [EventType.text]
  | some s => simp

theorem Message.isOf_unique {names : HeaderNames} {m : EventMessage} {t u : EventType}
    (ht : m.isOf names t = true) (hu : m.isOf names u = true) : t.text = u.text := by
  have ht' : m.eventType? names.eventType = some t.text := by simpa [isOf] using ht
  have hu' : m.eventType? names.eventType = some u.text := by simpa [isOf] using hu
  exact Option.some.inj (ht'.symm.trans hu')

namespace Release

variable {names : HeaderNames} {key : CorrelationKey} {ms : List EventMessage} {r : Release}

/-! ## Releases -/

def of? (names : HeaderNames) (key : CorrelationKey) (ms : List EventMessage) : Option Release :=
  ofGroup? names ⟨key, ms, Stamp.start2025, Stamp.start2025⟩

theorem first?_eq (names : HeaderNames) (g : Group) (type : EventType) :
    g.first? names.eventType type = g.messages.find? (Message.isOf names type) := rfl

/-- The output of a group is that of its messages: the stamps play no part. -/
theorem ofGroup?_eq (names : HeaderNames) (g : Group) :
    ofGroup? names g = of? names g.key g.messages := rfl

/-- The parts of an output: the oldest sent message, and the oldest waiting one or, if none
waits, the oldest registration. -/
theorem of?_eq_some_iff : of? names key ms = some r ↔
    ∃ sent, ms.find? (Message.isOf names .sent) = some sent ∧
      ((∃ waiting, ms.find? (Message.isOf names .waiting) = some waiting ∧
          r = output names key .receive
            (receiveCommand sent.payload waiting.payload).encode waiting [sent.id, waiting.id]) ∨
        (ms.find? (Message.isOf names .waiting) = none ∧
          ∃ deployed, ms.find? (Message.isOf names .startDeployed) = some deployed ∧
            r = output names key .start (startCommand sent.payload).encode deployed
              [sent.id])) := by
  simp only [of?, ofGroup?, first?_eq]
  cases ms.find? (Message.isOf names .sent) with
  | none => simp
  | some sent =>
    cases ms.find? (Message.isOf names .waiting) with
    | some waiting => simp [eq_comm]
    | none =>
      cases ms.find? (Message.isOf names .startDeployed) with
      | some deployed => simp [eq_comm]
      | none => simp

/-- The rule and the processor agree. -/
theorem ready_eq_isSome (names : HeaderNames) (g : Group) :
    ready names g = (of? names g.key g.messages).isSome := by
  simp only [ready, of?, ofGroup?, first?_eq]
  cases g.messages.find? (Message.isOf names .sent) with
  | none => rfl
  | some sent =>
    cases g.messages.find? (Message.isOf names .waiting) with
    | some waiting => rfl
    | none => cases g.messages.find? (Message.isOf names .startDeployed) <;> rfl

theorem exists_of_mem_consumed (h : of? names key ms = some r) {id : Uuid}
    (hid : id ∈ r.consumed) : ∃ m ∈ ms, m.id = id ∧
      (m.isOf names .sent = true ∨ m.isOf names .waiting = true) := by
  obtain ⟨sent, hsent, ⟨waiting, hwaiting, rfl⟩ | ⟨-, deployed, -, rfl⟩⟩ := of?_eq_some_iff.mp h
  · rcases List.mem_cons.mp hid with rfl | hid
    · exact ⟨sent, List.mem_of_find?_eq_some hsent, rfl, Or.inl (List.find?_some hsent)⟩
    · rw [List.mem_singleton] at hid
      exact ⟨waiting, List.mem_of_find?_eq_some hwaiting, hid.symm,
        Or.inr (List.find?_some hwaiting)⟩
  · rw [output, List.mem_singleton] at hid
    exact ⟨sent, List.mem_of_find?_eq_some hsent, hid.symm, Or.inl (List.find?_some hsent)⟩

theorem sent_mem_consumed (h : of? names key ms = some r) :
    ∃ sent, ms.find? (Message.isOf names .sent) = some sent ∧ sent.id ∈ r.consumed := by
  obtain ⟨sent, hsent, ⟨waiting, -, rfl⟩ | ⟨-, deployed, -, rfl⟩⟩ := of?_eq_some_iff.mp h
  · exact ⟨sent, hsent, List.mem_cons_self⟩
  · exact ⟨sent, hsent, List.mem_cons_self⟩

theorem consumed_ne_nil (h : of? names key ms = some r) : r.consumed ≠ [] := by
  obtain ⟨sent, -, hmem⟩ := sent_mem_consumed h
  exact List.ne_nil_of_mem hmem

theorem length_without_consumed_lt (h : of? names key ms = some r) :
    (without r.consumed ms).length < ms.length := by
  obtain ⟨sent, hsent, hmem⟩ := sent_mem_consumed h
  exact length_without_lt (List.mem_of_find?_eq_some hsent) hmem

end Release

/-! ## Cancellations -/

/-- The identities of the registrations among messages. -/
def stale (names : HeaderNames) (ms : List EventMessage) : List Uuid :=
  (ms.filter fun m => !Reconciler.notStartDeployed names m).map Message.id

theorem notStartDeployed_eq (names : HeaderNames) (m : EventMessage) :
    Reconciler.notStartDeployed names m = !m.isOf names .startDeployed := by
  by_cases h : m.headers.text? names.eventType = some EventType.startDeployed.text <;>
    simp [Reconciler.notStartDeployed, Message.isOf, Message.eventType?, h]

theorem mem_stale {names : HeaderNames} {ms : List EventMessage} {id : Uuid} :
    id ∈ stale names ms ↔ ∃ m ∈ ms, m.isOf names .startDeployed = true ∧ m.id = id := by
  simp [stale, notStartDeployed_eq, and_assoc]

end Rendezvous
