/-
What a group yields as messages arrive.

A message that failed to be dispatched stays in its group, so the group yields an output again, and
more messages may have arrived by then.  The oldest message of a type stays the oldest, whatever is
appended.  Hence an output that delivers a message to an execution is made again as it was, its
identity included.  An output that starts a process is made again as it was until an execution
waits; then the message is delivered to that execution instead (`stable_under_arrivals`).
-/
import Rendezvous.Proofs.Draining

namespace Rendezvous
namespace Release

variable {names : HeaderNames} {key : CorrelationKey} {ms l : List EventMessage} {r : Release}
  {sent waiting deployed : EventMessage}

theorem find?_append_of_some {p : EventMessage → Bool} {m : EventMessage} (h : ms.find? p = some m)
    (l : List EventMessage) : (ms ++ l).find? p = some m := by
  rw [List.find?_append, h]
  rfl

theorem find?_append_of_none {p : EventMessage → Bool} (h : ms.find? p = none)
    (l : List EventMessage) : (ms ++ l).find? p = l.find? p := by
  rw [List.find?_append, h]
  rfl

/-- The two kinds of outputs are told apart by what they consume. -/
theorem delivery_ne_launch {other : EventMessage} :
    delivery names key sent waiting ≠ launch names key deployed other := by
  intro h
  have hconsumed : [sent.id, waiting.id] = [other.id] := congrArg consumed h
  exact Nat.succ_ne_self 1 (congrArg List.length hconsumed)

/-- A message that is delivered to an execution is delivered to it whatever else arrives. -/
theorem of?_append_of_delivery (h : of? names key ms = some r)
    (hr : r = delivery names key sent waiting) (l : List EventMessage) :
    of? names key (ms ++ l) = some r := by
  obtain ⟨oldest, hsent, hcase⟩ := of?_eq_some_iff_made.mp h
  rcases hcase with ⟨first, hfirst, hmade⟩ | ⟨-, deployed, -, hmade⟩
  · exact of?_eq_some_iff_made.mpr ⟨oldest, find?_append_of_some hsent l,
      Or.inl ⟨first, find?_append_of_some hfirst l, hmade⟩⟩
  · exact absurd (hr.symm.trans hmade) delivery_ne_launch

/-- A message that starts a process does so again, unless an execution waits for it by then. -/
theorem of?_append_of_launch (h : of? names key ms = some r)
    (hsent : ms.find? (Message.isOf names .sent) = some sent)
    (hr : r = launch names key deployed sent) (l : List EventMessage) :
    of? names key (ms ++ l) =
      match l.find? (Message.isOf names .waiting) with
      | none => some r
      | some waiting => some (delivery names key sent waiting) := by
  obtain ⟨oldest, holdest, hcase⟩ := of?_eq_some_iff_made.mp h
  obtain rfl : oldest = sent := Option.some.inj (holdest.symm.trans hsent)
  rcases hcase with ⟨first, -, hmade⟩ | ⟨hnone, first, hfirst, hmade⟩
  · exact absurd (hmade.symm.trans hr) delivery_ne_launch
  · have hwaiting := find?_append_of_none hnone l
    cases hl : l.find? (Message.isOf names .waiting) with
    | none =>
      exact of?_eq_some_iff_made.mpr ⟨oldest, find?_append_of_some hsent l,
        Or.inr ⟨hwaiting.trans hl, first, find?_append_of_some hfirst l, hmade⟩⟩
    | some waiting =>
      exact of?_eq_some_iff_made.mpr ⟨oldest, find?_append_of_some hsent l,
        Or.inl ⟨waiting, hwaiting.trans hl, rfl⟩⟩

theorem processor_eq_some_iff {g : Group} :
    processor names g = .ok (some r) ↔ of? names g.key g.messages = some r := by
  rw [processor, ofGroup?_eq]
  exact ⟨fun h => Except.ok.inj h, congrArg Except.ok⟩

/-- A group that is ready has an output, which consumes messages of the group.  However many messages
arrive, an output that delivers a message stays the same.  One that starts a process stays the same
until an execution waits; then the message is delivered to the first of those that arrived. -/
theorem stable_under_arrivals (names : HeaderNames) (g grown : Group) (arrivals : List EventMessage)
    (hkey : grown.key = g.key) (hmessages : grown.messages = g.messages ++ arrivals) :
    (∀ r sent waiting, processor names g = .ok (some r) →
      r = delivery names g.key sent waiting → processor names grown = .ok (some r)) ∧
    (∀ r sent deployed, processor names g = .ok (some r) →
      g.first? names.eventType .sent = some sent → r = launch names g.key deployed sent →
        ((∀ m ∈ arrivals, m.isOf names .waiting = false) →
          processor names grown = .ok (some r)) ∧
        ∀ waiting, arrivals.find? (Message.isOf names .waiting) = some waiting →
          processor names grown = .ok (some (delivery names g.key sent waiting))) ∧
    (ready names g = true ↔ ∃ r, processor names g = .ok (some r)) ∧
    ∀ r, processor names g = .ok (some r) →
      (∃ sent other, r = delivery names g.key sent other ∨ r = launch names g.key other sent) ∧
        r.consumed ≠ [] ∧ ∀ id ∈ r.consumed, g.contains id = true := by
  have hgrown {r : Release} : processor names grown = .ok (some r) ↔
      of? names g.key (g.messages ++ arrivals) = some r := by
    rw [processor_eq_some_iff, hkey, hmessages]
  refine ⟨fun r sent waiting hg hr => ?_, fun r sent deployed hg hsent hr => ⟨fun hnone => ?_,
    fun waiting hwaiting => ?_⟩, ?_, fun r hg => ⟨?_, ?_, fun id hid => ?_⟩⟩
  · exact hgrown.mpr (of?_append_of_delivery (processor_eq_some_iff.mp hg) hr arrivals)
  · rw [hgrown, of?_append_of_launch (processor_eq_some_iff.mp hg) hsent hr,
      find?_isOf_eq_none hnone]
  · rw [hgrown, of?_append_of_launch (processor_eq_some_iff.mp hg) hsent hr, hwaiting]
  · rw [ready_eq_isSome, Option.isSome_iff_exists]
    exact exists_congr fun r => processor_eq_some_iff.symm
  · obtain ⟨sent, -, ⟨waiting, -, hmade⟩ | ⟨-, deployed, -, hmade⟩⟩ :=
      of?_eq_some_iff_made.mp (processor_eq_some_iff.mp hg)
    · exact ⟨sent, waiting, Or.inl hmade⟩
    · exact ⟨sent, deployed, Or.inr hmade⟩
  · exact consumed_ne_nil (processor_eq_some_iff.mp hg)
  · obtain ⟨m, hm, hmid, -⟩ := exists_of_mem_consumed (processor_eq_some_iff.mp hg) hid
    exact List.any_eq_true.mpr ⟨m, hm, decide_eq_true hmid⟩

/-- A payment would start a process; then a second payment is made, and an execution waits. -/
theorem stable_under_arrivals_of_payment :
    let registration := paidOrder 5 .startDeployed
    let group := fun ms => Group.mk "order-paid:42" ms Stamp.start2025 Stamp.start2025
    processor {} (group [registration, paidOrder 1 .sent]) =
        .ok (some (launch {} "order-paid:42" registration (paidOrder 1 .sent))) ∧
      processor {} (group [registration, paidOrder 1 .sent, paidOrder 2 .sent]) =
        .ok (some (launch {} "order-paid:42" registration (paidOrder 1 .sent))) ∧
      processor {} (group [registration, paidOrder 1 .sent, paidOrder 2 .sent,
          paidOrder 4 .waiting]) =
        .ok (some (delivery {} "order-paid:42" (paidOrder 1 .sent) (paidOrder 4 .waiting))) := by
  intro registration group
  have hgroup : processor {} (group [registration, paidOrder 1 .sent]) =
      .ok (some (launch {} "order-paid:42" registration (paidOrder 1 .sent))) :=
    processor_eq_some_iff.mpr (of?_eq_some_iff_made.mpr
      ⟨paidOrder 1 .sent, rfl, .inr ⟨rfl, registration, rfl, rfl⟩⟩)
  have hstays := stable_under_arrivals {} (group [registration, paidOrder 1 .sent])
    (group [registration, paidOrder 1 .sent, paidOrder 2 .sent]) [paidOrder 2 .sent] rfl rfl
  have hturns := stable_under_arrivals {} (group [registration, paidOrder 1 .sent])
    (group [registration, paidOrder 1 .sent, paidOrder 2 .sent, paidOrder 4 .waiting])
    [paidOrder 2 .sent, paidOrder 4 .waiting] rfl rfl
  refine ⟨hgroup, (hstays.2.1 _ _ _ hgroup rfl rfl).1 ?_, (hturns.2.1 _ _ _ hgroup rfl rfl).2 _ ?_⟩
  · decide +kernel
  · rfl

end Release
end Rendezvous
