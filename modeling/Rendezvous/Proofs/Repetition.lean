/-
How often a message is consumed.

With the idempotent receiver in front, a message that is sent again is let in only after a
delivery of it failed.  That is not enough for it to be consumed once: the message stays in its
group when its delivery fails, so the output of another message may consume it, and the delivery
that is let in afterwards appends it once more.  `Relapse` describes this one way: the message was
appended, consumed by an accepted output, a delivery of it failed, and it was appended again and
consumed again.  `consumed_once_iff` says that there is no other: in every run, whatever the
channel does and however the calls interleave, a message is consumed by at most one accepted
output exactly if it did not relapse.
-/
import Rendezvous.Proofs.Conservation
import Rendezvous.Proofs.Receiving

namespace Rendezvous

/-- Whether an output that consumes a message was accepted. -/
def Deed.names (id : Uuid) : Deed → Bool
  | accept _ r => r.consumed.contains id
  | _ => false

/-- A message that was consumed came back because a delivery of it had failed, and was consumed
again. -/
def Relapse (id : Uuid) (h : List Deed) : Prop :=
  ∃ key m newer mid older, m.id = id ∧
    h = newer ++ .append key m :: (mid ++ .append key m :: older) ∧
    (∃ d ∈ newer, d.names id = true) ∧ (∃ d ∈ mid, d.names id = true) ∧
    Deed.settle id false ∈ mid

variable {names : HeaderNames} {id : Uuid} {key : CorrelationKey} {h newer older : List Deed}

theorem exists_two_of_two_le_countP {α : Type} {p : α → Bool} {xs : List α}
    (h : 2 ≤ xs.countP p) : ∃ as x bs y cs, xs = as ++ x :: (bs ++ y :: cs) ∧
      p x = true ∧ p y = true := by
  induction xs with
  | nil => simp at h
  | cons x xs ih =>
    by_cases hx : p x = true
    · rw [List.countP_cons_of_pos hx] at h
      have hpos : 0 < xs.countP p := by omega
      obtain ⟨y, hy, hpy⟩ := List.countP_pos_iff.mp hpos
      obtain ⟨bs, cs, rfl⟩ := List.append_of_mem hy
      exact ⟨[], x, bs, y, cs, rfl, hx, hpy⟩
    · rw [List.countP_cons_of_neg hx] at h
      obtain ⟨as, z, bs, y, cs, rfl, hz, hy⟩ := ih h
      exact ⟨x :: as, z, bs, y, cs, rfl, hz, hy⟩

/-- After an output that consumes a message was accepted, the output is due or the message is
gone, as long as it is not appended again. -/
theorem gone_of_accept {r : Release} (hl : Lawful names (newer ++ .accept key r :: older))
    (hid : id ∈ r.consumed) (hno : ∀ m, Deed.append key m ∈ newer → m.id ≠ id) :
    (page key (newer ++ .accept key r :: older)).due = some r ∨
      ∀ m ∈ (page key (newer ++ .accept key r :: older)).messages, m.id ≠ id := by
  induction newer with
  | nil =>
    rw [List.nil_append, page_accept]
    exact Or.inl rfl
  | cons d newer ih =>
    obtain ⟨hd, hl⟩ := hl
    have ih := ih hl fun m hm => hno m (List.mem_cons_of_mem _ hm)
    rw [List.cons_append]
    by_cases hk : d.key? = some key
    · cases d with
      | append k m =>
        obtain rfl : k = key := Option.some.inj hk
        rw [page_append]
        rcases ih with hdue | hgone
        · cases hd.1.symm.trans hdue
        · refine Or.inr fun o ho => ?_
          rcases List.mem_append.mp ho with ho | ho
          · exact hgone o ho
          · exact List.mem_singleton.mp ho ▸ hno m List.mem_cons_self
      | accept k r' =>
        obtain rfl : k = key := Option.some.inj hk
        rw [page_accept]
        rcases ih with hdue | hgone
        · cases hd.1.symm.trans hdue
        · exact Or.inr hgone
      | remove k ids why =>
        obtain rfl : k = key := Option.some.inj hk
        rw [page_remove]
        refine Or.inr fun o ho => ?_
        obtain ⟨ho, hids⟩ := mem_without.mp ho
        rcases ih with hdue | hgone
        · cases why with
          | released =>
            obtain ⟨r', hr', rfl⟩ := hd
            obtain rfl : r' = r := Option.some.inj (hr'.symm.trans hdue)
            rintro rfl
            exact hids hid
          | cancelled => cases hd.1.symm.trans hdue
        · exact hgone o ho
      | settle => cases hk
    · rw [page_cons_of_ne hk]
      exact ih

/-- What an accepted output consumes was pending, so it was appended. -/
theorem exists_append_of_accept {r : Release} (hl : Lawful names (.accept key r :: older))
    (hid : id ∈ r.consumed) :
    ∃ m ∈ (page key older).messages, m.id = id ∧ Deed.append key m ∈ older := by
  obtain ⟨m, hm, hmid, -⟩ := Release.exists_of_mem_consumed hl.1.2 hid
  exact ⟨m, hm, hmid, append_mem_of_pending hm⟩

/-- A lawful history in which messages are told apart by their identities and come back only after
a failure consumes a message twice only if it relapsed. -/
theorem relapse_of_two_le (hl : Lawful names h) (ha : Spaced h)
    (hsame : ∀ {k k' m m'}, Deed.append k m ∈ h → Deed.append k' m' ∈ h → m.id = m'.id → m = m')
    (htwo : 2 ≤ h.countP (Deed.names id)) : Relapse id h := by
  obtain ⟨as, x, bs, y, cs, rfl, hx, hy⟩ := exists_two_of_two_le_countP htwo
  cases x with
  | append | remove | settle => cases hx
  | accept k' r' =>
    cases y with
    | append | remove | settle => cases hy
    | accept k r =>
      have hid : id ∈ r.consumed := List.contains_iff_mem.mp hy
      have hid' : id ∈ r'.consumed := List.contains_iff_mem.mp hx
      have hlx : Lawful names (.accept k' r' :: (bs ++ .accept k r :: cs)) := hl.of_append
      have hly : Lawful names (.accept k r :: cs) := hlx.2.of_append
      obtain ⟨m, hm, hmid, happ⟩ := exists_append_of_accept hly hid
      obtain ⟨m', hm', hmid', happ'⟩ := exists_append_of_accept hlx hid'
      have hmem : Deed.append k m ∈ as ++ .accept k' r' :: (bs ++ .accept k r :: cs) := by
        simp [happ]
      have hmem' : Deed.append k' m' ∈ as ++ .accept k' r' :: (bs ++ .accept k r :: cs) :=
        List.mem_append_right _ (List.mem_cons_of_mem _ happ')
      obtain rfl : m = m' := hsame hmem hmem' (hmid.trans hmid'.symm)
      obtain rfl : k = k' := Option.some.inj
        ((hl.pertains hmem).1.symm.trans (hl.pertains hmem').1)
      -- between the two outputs the message was appended again
      have hagain : ∃ o, Deed.append k o ∈ bs ∧ o.id = id := by
        by_contra hnone
        have hno : ∀ o, Deed.append k o ∈ bs → o.id ≠ id := fun o ho hoid => hnone ⟨o, ho, hoid⟩
        rcases gone_of_accept hlx.2 hid hno with hdue | hgone
        · cases hlx.1.1.symm.trans hdue
        · exact hgone m hm' hmid
      obtain ⟨o, ho, hoid⟩ := hagain
      obtain rfl : m = o := by
        refine hsame hmem (List.mem_append_right _ (List.mem_cons_of_mem _
          (List.mem_append_left _ ho))) (hmid.trans hoid.symm)
      obtain ⟨bs, mid, rfl⟩ := List.append_of_mem ho
      obtain ⟨mid', older, rfl⟩ := List.append_of_mem happ
      refine ⟨k, m, as ++ .accept k r' :: bs, mid ++ .accept k r :: mid', older, hmid,
        ?_, ?_, ?_, ?_⟩
      · simp
      · exact ⟨_, List.mem_append_right _ List.mem_cons_self, hx⟩
      · exact ⟨_, List.mem_append_right _ List.mem_cons_self, hy⟩
      · have ha' : Spaced (as ++ .accept k r' :: bs ++
            .append k m :: (mid ++ .accept k r :: mid' ++ .append k m :: older)) := by
          simpa using ha
        exact hmid ▸ ha'.of_append.1.settle_mem rfl

theorem two_le_of_relapse (hr : Relapse id h) : 2 ≤ h.countP (Deed.names id) := by
  obtain ⟨key, m, newer, mid, older, -, rfl, hnewer, hmid, -⟩ := hr
  have hn : 0 < newer.countP (Deed.names id) := List.countP_pos_iff.mpr hnewer
  have hm : 0 < mid.countP (Deed.names id) := List.countP_pos_iff.mpr hmid
  simp only [List.countP_append, List.countP_cons]
  omega

/-! ## Runs -/

/-- In every run of a flow with the idempotent receiver on, the memory of claims having room for
all identities and messages of one identity being the same message, a message is consumed by at
most one accepted output exactly if it did not relapse. -/
theorem consumed_once_iff {κ : Type} {settings : FlowSettings} (honce : settings.idempotent = true)
    (hadvices : settings.advices = []) {carrier : Carrier κ} {channel : κ} {clock : Clock}
    {letters : DeadLetterQueue} {capacity : Nat} {moves : List Move}
    (hsame : ∀ m ∈ sentBy moves, ∀ m' ∈ sentBy moves, m.id = m'.id → m = m')
    (hroom : ((sentBy moves).map Message.id).dedup.length ≤ capacity) {s : Traffic κ}
    (h : Traffic.run carrier settings.flow moves
      (.start (.start channel clock (.ofCapacity capacity) letters)) = some s) (id : Uuid) :
    s.world.history.countP (Deed.names id) ≤ 1 ↔ ¬Relapse id s.world.history := by
  have hstandard : settings.flow.Standard settings.names :=
    FlowSettings.flow_standard_of_nil hadvices
  have hreceiving := FlowSettings.flow_receiving honce hadvices
  obtain ⟨hsound, hholding⟩ := Holding.run hreceiving hstandard
    (Quiet.start settings.names channel clock (.ofCapacity capacity) letters).sound
    (Holding.start hroom channel clock letters)
    (fun i hi => List.mem_dedup.mpr hi) h
  constructor
  · intro honce hrelapse
    have htwo := two_le_of_relapse hrelapse
    omega
  · intro hrelapse
    by_contra htwo
    refine hrelapse (relapse_of_two_le hsound.faithful.lawful hholding.spaced ?_ (by omega))
    intro k k' m m' hm hm' hid
    exact (hholding.decoded hm).eq_of_id hsame (hholding.decoded hm') hid

/-- Messages sent one after another, each handled in a number of steps. -/
def oneByOne (first : Nat) : List (RawMessage × Nat) → List Move
  | [] => []
  | (m, steps) :: rest => .send m :: .replicate steps (.step first) ++ oneByOne (first + 1) rest

set_option maxRecDepth 100000 in
/-- A payment that is sent twice and handled the first time. -/
theorem consumed_once_of_duplicate : ∃ s : Traffic Outlet,
    Traffic.run Outlet.carrier (FlowSettings.flow {})
      (oneByOne 0 [(orderAwaited 1, 11), (orderSent 2, 15), (orderSent 2, 3)])
      (.start (.recording [])) = some s ∧
    (s.world.history.countP (Deed.names (.ofNat 2)) ≤ 1 ↔
      ¬Relapse (.ofNat 2) s.world.history) := by
  have hrun : (Traffic.run Outlet.carrier (FlowSettings.flow {})
      (oneByOne 0 [(orderAwaited 1, 11), (orderSent 2, 15), (orderSent 2, 3)])
      (.start (.recording []))).isSome = true := by decide +kernel
  have hsent : sentBy (oneByOne 0 [(orderAwaited 1, 11), (orderSent 2, 15), (orderSent 2, 3)]) =
      [orderAwaited 1, orderSent 2, orderSent 2] := rfl
  obtain ⟨s, hs⟩ := Option.isSome_iff_exists.mp hrun
  refine ⟨s, hs, consumed_once_iff rfl rfl ?_ (by decide) hs (.ofNat 2)⟩
  rw [hsent]
  intro m hm m' hm'
  simp only [List.mem_cons, List.not_mem_nil, or_false] at hm hm'
  rcases hm with rfl | rfl | rfl <;> rcases hm' with rfl | rfl | rfl <;>
    first
    | exact fun _ => rfl
    | exact fun h => absurd h (by decide)

set_option maxRecDepth 100000 in
/-- A payment whose delivery fails is consumed by the output of another message, and sent again it
is consumed a second time: the receiver does not see to it that a message is consumed once. -/
theorem not_always_consumed_once : ¬∀ (faults : List (Option ChannelError)) (moves : List Move)
    (s : Traffic Outlet),
    (∀ m ∈ sentBy moves, ∀ m' ∈ sentBy moves, m.id = m'.id → m = m') →
    ((sentBy moves).map Message.id).dedup.length < 10 →
    Traffic.run Outlet.carrier (FlowSettings.flow {}) moves (.start (.recording faults)) = some s →
    ∀ id, s.world.history.countP (Deed.names id) ≤ 1 := by
  intro hclaim
  have hrun : (Traffic.run Outlet.carrier (FlowSettings.flow {})
      (oneByOne 0 [(orderAwaited 1, 11), (orderSent 2, 13), (orderAwaited 3, 16),
        (orderSent 2, 15)]) (.start (.recording [some (.rejected "refused")]))).any
        (fun s => decide (2 ≤ s.world.history.countP (Deed.names (.ofNat 2)))) = true := by
    decide +kernel
  have hsent : sentBy (oneByOne 0 [(orderAwaited 1, 11), (orderSent 2, 13), (orderAwaited 3, 16),
      (orderSent 2, 15)]) = [orderAwaited 1, orderSent 2, orderAwaited 3, orderSent 2] := rfl
  obtain ⟨s, hs, htwo⟩ := (Option.any_eq_true _ _).mp hrun
  have honce := hclaim _ _ s (by
    rw [hsent]
    intro m hm m' hm'
    simp only [List.mem_cons, List.not_mem_nil, or_false] at hm hm'
    rcases hm with rfl | rfl | rfl | rfl <;> rcases hm' with rfl | rfl | rfl | rfl <;>
      first
      | exact fun _ => rfl
      | exact fun h => absurd h (by decide)) (by decide) hs (.ofNat 2)
  have htwo := of_decide_eq_true htwo
  omega

end Rendezvous
