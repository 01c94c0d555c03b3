/-
Groups that have nothing to release but for one message.

Messages are settled if they yield no output: nothing was sent, or nobody takes it.  A message
primes a group that would be settled without it.  Whatever type the message has, as long as the
group that it joined has outputs to release, the message is still there, because an output that
consumed it would have left the group settled (`Primed.after`).  So a loop of releases that breaks
off leaves a group that the message primes, and joining it again changes nothing
(`Primed.join_eq`).
-/
import Rendezvous.Proofs.Account

namespace Rendezvous

variable {names : HeaderNames} {key : CorrelationKey} {e : EventMessage}
  {ms ms' : List EventMessage} {r : Release}

/-- Nothing was sent, or nobody takes it. -/
def Settled (names : HeaderNames) (ms : List EventMessage) : Prop :=
  (∀ m ∈ ms, m.isOf names .sent = false) ∨
    ∀ m ∈ ms, m.isOf names .waiting = false ∧ m.isOf names .startDeployed = false

/-- The message is pending, and without it the others are settled. -/
structure Primed (names : HeaderNames) (e : EventMessage) (ms : List EventMessage) : Prop where
  pending : e.id ∈ ms.map Message.id
  settled : Settled names (without [e.id] ms)

theorem Settled.mono (h : Settled names ms) (hsub : ms' ⊆ ms) : Settled names ms' := by
  rcases h with h | h
  · exact Or.inl fun m hm => h m (hsub hm)
  · exact Or.inr fun m hm => h m (hsub hm)

theorem Release.of?_eq_none_iff : of? names key ms = none ↔ Settled names ms := by
  have hnone (t : EventType) : ms.find? (Message.isOf names t) = none ↔
      ∀ m ∈ ms, m.isOf names t = false := by
    simp only [List.find?_eq_none, Bool.not_eq_true]
  constructor
  · intro h
    by_cases hsent : ∀ m ∈ ms, m.isOf names .sent = false
    · exact Or.inl hsent
    refine Or.inr fun m hm => ?_
    obtain ⟨sent, hsome⟩ : ∃ sent, ms.find? (Message.isOf names .sent) = some sent :=
      Option.ne_none_iff_exists'.mp fun hn => hsent ((hnone _).mp hn)
    have hyield {r : Release} : of? names key ms ≠ some r := by rw [h]; exact fun h => by cases h
    have hwaiting : ms.find? (Message.isOf names .waiting) = none := by
      by_contra hw
      obtain ⟨waiting, hw⟩ := Option.ne_none_iff_exists'.mp hw
      exact hyield (of?_eq_some_iff.mpr ⟨sent, hsome, Or.inl ⟨waiting, hw, rfl⟩⟩)
    have hdeployed : ms.find? (Message.isOf names .startDeployed) = none := by
      by_contra hd
      obtain ⟨deployed, hd⟩ := Option.ne_none_iff_exists'.mp hd
      exact hyield (of?_eq_some_iff.mpr ⟨sent, hsome, Or.inr ⟨hwaiting, deployed, hd, rfl⟩⟩)
    exact ⟨(hnone _).mp hwaiting m hm, (hnone _).mp hdeployed m hm⟩
  · intro h
    by_contra hr
    obtain ⟨r, hr⟩ := Option.ne_none_iff_exists'.mp hr
    obtain ⟨sent, hsent, htaken⟩ := of?_eq_some_iff.mp hr
    rcases h with h | h
    · rw [(hnone _).mpr h] at hsent
      cases hsent
    · rcases htaken with ⟨waiting, hw, -⟩ | ⟨-, deployed, hd, -⟩
      · rw [(hnone _).mpr fun m hm => (h m hm).1] at hw
        cases hw
      · rw [(hnone _).mpr fun m hm => (h m hm).2] at hd
        cases hd

/-- A group that yields an output and would be settled without a message is primed by it. -/
theorem Primed.of_some (h : Settled names ms ∨ Primed names e ms)
    (hr : Release.of? names key ms = some r) : Primed names e ms := by
  refine h.resolve_left fun hs => ?_
  rw [Release.of?_eq_none_iff.mpr hs] at hr
  cases hr

/-- A message that joins a settled group primes it, unless it changes nothing. -/
theorem Settled.join {a : Account} (h : Settled names a.messages) :
    Settled names (a.join e).messages ∨ Primed names e (a.join e).messages := by
  rw [Account.join]
  split
  · exact Or.inl h
  · refine Or.inr ⟨?_, ?_⟩
    · exact List.mem_map_of_mem (List.mem_append_right _ (List.mem_singleton_self e))
    · refine h.mono fun m hm => ?_
      obtain ⟨hm, hid⟩ := mem_without.mp hm
      rcases List.mem_append.mp hm with hm | hm
      · exact hm
      · exact absurd (List.mem_singleton.mp hm ▸ List.mem_singleton_self _) hid

theorem Primed.join_eq {a : Account} (h : Primed names e a.messages) : a.join e = a := by
  obtain ⟨m, hm, hid⟩ := List.mem_map.mp h.pending
  rw [Account.join, if_pos]
  exact List.any_eq_true.mpr ⟨m, hm, decide_eq_true hid⟩

/-- The output that consumes the message is the last one. -/
theorem Primed.after (h : Primed names e ms) (r : Release) :
    Settled names (without r.consumed ms) ∨ Primed names e (without r.consumed ms) := by
  by_cases hid : e.id ∈ r.consumed
  · refine Or.inl (h.settled.mono fun m hm => ?_)
    obtain ⟨hm, hkept⟩ := mem_without.mp hm
    refine mem_without.mpr ⟨hm, fun hme => hkept ?_⟩
    rw [List.mem_singleton.mp hme]
    exact hid
  · obtain ⟨m, hm, hme⟩ := List.mem_map.mp h.pending
    refine Or.inr ⟨List.mem_map.mpr ⟨m, mem_without.mpr ⟨hm, hme ▸ hid⟩, hme⟩, ?_⟩
    refine h.settled.mono fun o ho => ?_
    obtain ⟨ho, hoe⟩ := mem_without.mp ho
    exact mem_without.mpr ⟨(mem_without.mp ho).1, hoe⟩

end Rendezvous
