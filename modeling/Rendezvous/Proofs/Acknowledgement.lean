/-
What an acknowledgement is worth.

A delivery that the flow acknowledges was let in by the idempotent receiver and handled, or the
identity of its message was claimed when it met the receiver.  A claim is taken before the handlers
are at work and withdrawn when they fail, so behind a claim there is a delivery that was handled,
or one that is still at work, or one that was dropped.  Hence what is acknowledged was handled,
unless it overtook the delivery it is a duplicate of, and that one came to nothing
(`handled_of_acknowledged`).
-/
import Rendezvous.Proofs.Reception

namespace Rendezvous

variable {κ : Type} {names : HeaderNames} {f : Flow} {carrier : Carrier κ}

/-! ## What becomes of a delivery -/

/-- Whether a call has returned or was dropped. -/
def Sending.over : Sending → Bool
  | running _ => false
  | _ => true

/-- What may become of a delivery that was let in: its handlers succeeded, or it is still at work,
or it was dropped, or its handlers failed. -/
def Traffic.Fate (id : Uuid) (j : Nat) (s : Traffic κ) : Prop :=
  Deed.settle id true ∈ s.world.history ∨ s.place? j = some (.behind id) ∨
    s.place? j = some .dropped ∨ ∃ e, s.place? j = some (.past (.error e))

section
variable {s s' : Traffic κ} {mv : Move} {moves : List Move} {id : Uuid} {j : Nat}

theorem Traffic.Relocated.fate (h : s.Relocated s' mv)
    (hsuffix : s.world.history <:+ s'.world.history) (hs : s.Fate id j) : s'.Fate id j := by
  rcases hs with hsettled | hp | hp | ⟨e, hp⟩
  · exact Or.inl (hsuffix.subset hsettled)
  · rcases h.place hp with hp | hp | ⟨p', hp, receipt⟩
    · exact Or.inr (Or.inl hp)
    · exact Or.inr (Or.inr (Or.inl hp))
    · cases receipt with
      | stays => exact Or.inr (Or.inl hp)
      | handled settled => exact Or.inl settled
      | failed => exact Or.inr (Or.inr (Or.inr ⟨_, hp⟩))
  · rcases h.place hp with hp | hp | ⟨p', hp, receipt⟩
    · exact Or.inr (Or.inr (Or.inl hp))
    · exact Or.inr (Or.inr (Or.inl hp))
    · cases receipt with
      | stays => exact Or.inr (Or.inr (Or.inl hp))
  · rcases h.place hp with hp | hp | ⟨p', hp, receipt⟩
    · exact Or.inr (Or.inr (Or.inr ⟨e, hp⟩))
    · exact Or.inr (Or.inr (Or.inl hp))
    · cases receipt with
      | stays | unreported => exact Or.inr (Or.inr (Or.inr ⟨_, hp⟩))

/-- An identity that is claimed after a move was claimed before it, or the move let a message in by
it. -/
theorem Traffic.Relocated.claimed (h : s.Relocated s' mv)
    (hclaimed : s'.world.claims.claimed id = true) :
    s.world.claims.claimed id = true ∨ ∃ j, s'.place? j = some (.behind id) := by
  cases h with
  | @steps i p p' call receipt places =>
    cases receipt with
    | stays claims | unreported claims => exact Or.inl (claims ▸ hclaimed)
    | turnedAway _ claims | acknowledged _ claims | handled _ claims =>
      exact Or.inl (claims ▸ hclaimed)
    | letIn claims =>
      rw [claims] at hclaimed
      rcases ClaimStore.claimed_of_put hclaimed with rfl | hclaimed
      · exact Or.inr ⟨i, by rw [places, if_pos rfl]⟩
      · exact Or.inl hclaimed
    | failed claims =>
      rw [claims, ClaimStore.claimed_remove] at hclaimed
      exact Or.inl (Bool.and_eq_true_iff.mp hclaimed).2
  | drops _ _ claims | sends _ _ claims | quiet _ claims => exact Or.inl (claims ▸ hclaimed)

/-- As long as an identity is claimed, a delivery that was let in by it stays at work or dropped,
unless it is handled. -/
theorem Traffic.Relocated.guarded (h : s.Relocated s' mv)
    (hclaimed : s'.world.claims.claimed id = true)
    (hj : s.place? j = some (.behind id) ∨ s.place? j = some .dropped) :
    Deed.settle id true ∈ s'.world.history ∨
      s'.place? j = some (.behind id) ∨ s'.place? j = some .dropped := by
  rcases hj with hp | hp
  · rcases h.place hp with hp | hp | ⟨p', hp, receipt⟩
    · exact Or.inr (Or.inl hp)
    · exact Or.inr (Or.inr hp)
    · cases receipt with
      | stays => exact Or.inr (Or.inl hp)
      | handled settled => exact Or.inl settled
      | failed claims => simp [claims, ClaimStore.claimed_remove] at hclaimed
  · rcases h.place hp with hp | hp | ⟨p', hp, receipt⟩
    · exact Or.inr (Or.inr hp)
    · exact Or.inr (Or.inr hp)
    · cases receipt with
      | stays => exact Or.inr (Or.inr hp)

theorem Traffic.Fate.run (hf : f.Standard names) (hfront : f.Fronted) (hs : Sound names s)
    (ha : s.Attended f) (hfate : s.Fate id j) (h : Traffic.run carrier f moves s = some s') :
    s'.Fate id j := by
  refine (Traffic.inv_of_run (I := fun t => Sound names t ∧ t.Attended f ∧ t.Fate id j) ?_ h
    ⟨hs, ha, hfate⟩).2.2
  rintro t mv t' - ⟨ht, hat, hfate⟩ hmv
  obtain ⟨hat', hrelocated⟩ := ht.relocated hfront hat hmv
  exact ⟨ht.move hf hmv, hat', hrelocated.fate (ht.suffix_of_move hf hmv) hfate⟩

/-- When all calls are over, a delivery that was let in was handled or came to nothing. -/
theorem Traffic.Fate.ends (h : s.Fate id j) (hover : ∀ c ∈ s.calls, c.over = true) :
    Deed.settle id true ∈ s.world.history ∨
      s.calls[j]? = some .dropped ∨ ∃ e, s.calls[j]? = some (.returned (.error e)) := by
  have hcall {p : Place} (hp : s.place? j = some p) :
      ∃ c, s.calls[j]? = some c ∧ c.over = true ∧ c.place = p := by
    obtain ⟨c, hc, hp⟩ := Option.map_eq_some_iff.mp hp
    exact ⟨c, hc, hover c (List.mem_of_getElem? hc), hp⟩
  rcases h with hsettled | hplace | hplace | ⟨e, hplace⟩
  · exact Or.inl hsettled
  all_goals obtain ⟨c, hc, hend, hp⟩ := hcall hplace
  · cases c with
    | running => cases hend
    | returned | dropped => cases hp
  · cases c with
    | running => cases hend
    | returned => cases hp
    | dropped => exact Or.inr (Or.inl hc)
  · cases c with
    | running => cases hend
    | returned result =>
      obtain rfl : result = .error e := by simpa [Sending.place] using hp
      exact Or.inr (Or.inr ⟨e, hc⟩)
    | dropped => cases hp

end

/-! ## What an acknowledgement rests on -/

namespace Traffic

/-- On the way of a run, a delivery was let in by an identity. -/
def LetIn (carrier : Carrier κ) (f : Flow) (start : Traffic κ) (moves : List Move) (j : Nat)
    (id : Uuid) : Prop :=
  ∃ before t, before <+: moves ∧ run carrier f before start = some t ∧
    t.place? j = some (.behind id)

/-- On the way of a run, the delivery `i` was acknowledged as a duplicate: the identity of its
message was claimed, and the delivery `j` that had been let in by it was still at work, or had been
dropped. -/
def Duplicates (carrier : Carrier κ) (f : Flow) (start : Traffic κ) (moves : List Move)
    (i j : Nat) (id : Uuid) : Prop :=
  ∃ before t t', before ++ [.step i] <+: moves ∧ run carrier f before start = some t ∧
    t.move carrier f (.step i) = some t' ∧ t.place? i = some (.ahead id) ∧
    t'.place? i = some (.past (.ok .handled)) ∧ t.world.claims.claimed id = true ∧
    LetIn carrier f start before j id ∧
    (t.place? j = some (.behind id) ∨ t.place? j = some .dropped)

variable {start : Traffic κ} {moves more : List Move} {i j : Nat} {id : Uuid}

theorem LetIn.mono (h : LetIn carrier f start moves j id) (hmore : moves <+: more) :
    LetIn carrier f start more j id := by
  obtain ⟨before, t, hbefore, hrun, hplace⟩ := h
  exact ⟨before, t, hbefore.trans hmore, hrun, hplace⟩

theorem Duplicates.mono (h : Duplicates carrier f start moves i j id) (hmore : moves <+: more) :
    Duplicates carrier f start more i j id := by
  obtain ⟨before, t, t', hbefore, h⟩ := h
  exact ⟨before, t, t', hbefore.trans hmore, h⟩

/-- What is true after the moves of a run: a call that is concerned with an identity is the
delivery of a message of this identity, behind a claim there is a delivery that was handled, or is
at work, or was dropped, and what was acknowledged was handled or is a duplicate. -/
structure Answering (carrier : Carrier κ) (f : Flow) (start : Traffic κ) (moves : List Move)
    (s : Traffic κ) : Prop where
  bears : ∀ i p id, s.place? i = some p → p.id? = some id →
    ∃ raw, (sentBy moves)[i]? = some raw ∧ raw.id = id
  held : ∀ id, s.world.claims.claimed id = true → Deed.settle id true ∈ s.world.history ∨
    ∃ j, LetIn carrier f start moves j id ∧
      (s.place? j = some (.behind id) ∨ s.place? j = some .dropped)
  answered : ∀ i, s.place? i = some (.past (.ok .handled)) → ∃ raw,
    (sentBy moves)[i]? = some raw ∧ (Deed.settle raw.id true ∈ s.world.history ∨
      ∃ j, Duplicates carrier f start moves i j raw.id)

namespace Answering

variable {t t' : Traffic κ} {mv : Move}

theorem bears_concat (hs : Answering carrier f start moves t) (h : t.Relocated t' mv)
    (hlen : t.calls.length = (sentBy moves).length) (i : Nat) (p : Place) (id : Uuid)
    (hp : t'.place? i = some p) (hid : p.id? = some id) :
    ∃ raw, (sentBy (moves ++ [mv]))[i]? = some raw ∧ raw.id = id := by
  have hold (hp : ∃ p, t.place? i = some p ∧ p.id? = some id) :
      ∃ raw, (sentBy (moves ++ [mv]))[i]? = some raw ∧ raw.id = id := by
    obtain ⟨p, hp, hid⟩ := hp
    obtain ⟨raw, hraw, hid⟩ := hs.bears i p id hp hid
    exact ⟨raw, getElem?_sentBy_of_prefix (List.prefix_append moves [mv]) hraw, hid⟩
  rcases h.origin hp with hp | rfl | ⟨m, rfl, rfl, rfl⟩ | ⟨-, q, hq, receipt⟩
  · exact hold ⟨p, hp, hid⟩
  · cases hid
  · refine ⟨m, ?_, Option.some.inj hid⟩
    rw [hlen, sentBy_append]
    exact List.getElem?_concat_length
  · refine hold ⟨q, hq, ?_⟩
    cases receipt with
    | stays | letIn => exact hid
    | turnedAway | unreported | acknowledged | handled | failed => cases hid

theorem held_concat (hs : Answering carrier f start moves t) (h : t.Relocated t' mv)
    (hrun : run carrier f (moves ++ [mv]) start = some t')
    (hsuffix : t.world.history <:+ t'.world.history) (id : Uuid)
    (hclaimed : t'.world.claims.claimed id = true) : Deed.settle id true ∈ t'.world.history ∨
      ∃ j, LetIn carrier f start (moves ++ [mv]) j id ∧
        (t'.place? j = some (.behind id) ∨ t'.place? j = some .dropped) := by
  rcases h.claimed hclaimed with hbefore | ⟨j, hj⟩
  · rcases hs.held id hbefore with hsettled | ⟨j, hin, hj⟩
    · exact Or.inl (hsuffix.subset hsettled)
    · refine (h.guarded hclaimed hj).imp_right fun hj => ⟨j, ?_, hj⟩
      exact hin.mono (List.prefix_append moves [mv])
  · exact Or.inr ⟨j, ⟨_, t', List.prefix_refl _, hrun, hj⟩, Or.inl hj⟩

theorem answered_concat (hs : Answering carrier f start moves t) (h : t.Relocated t' mv)
    (hrun : run carrier f moves start = some t) (hmv : t.move carrier f mv = some t')
    (hsuffix : t.world.history <:+ t'.world.history) (i : Nat)
    (hi : t'.place? i = some (.past (.ok .handled))) :
    ∃ raw, (sentBy (moves ++ [mv]))[i]? = some raw ∧
      (Deed.settle raw.id true ∈ t'.world.history ∨
        ∃ j, Duplicates carrier f start (moves ++ [mv]) i j raw.id) := by
  have hprefix : moves <+: moves ++ [mv] := List.prefix_append moves [mv]
  have hold (hi : t.place? i = some (.past (.ok .handled))) :
      ∃ raw, (sentBy (moves ++ [mv]))[i]? = some raw ∧
        (Deed.settle raw.id true ∈ t'.world.history ∨
          ∃ j, Duplicates carrier f start (moves ++ [mv]) i j raw.id) := by
    obtain ⟨raw, hraw, h⟩ := hs.answered i hi
    refine ⟨raw, getElem?_sentBy_of_prefix hprefix hraw, ?_⟩
    exact h.imp (fun h => hsuffix.subset h) fun ⟨j, hj⟩ => ⟨j, hj.mono hprefix⟩
  rcases h.origin hi with hi | hdropped | ⟨m, -, -, harrived⟩ | ⟨rfl, p, call, receipt⟩
  · exact hold hi
  · cases hdropped
  · cases harrived
  -- the delivery moves itself, and its receipt tells why it is acknowledged
  · cases receipt with
    | stays => exact hold call
    | turnedAway result => exact absurd rfl result
    | @acknowledged id claimed =>
      obtain ⟨raw, hraw, rfl⟩ := hs.bears i _ id call rfl
      refine ⟨raw, getElem?_sentBy_of_prefix hprefix hraw, ?_⟩
      refine (hs.held raw.id claimed).imp (fun h => hsuffix.subset h) ?_
      rintro ⟨j, hin, hj⟩
      exact ⟨j, moves, t, t', List.prefix_refl _, hrun, hmv, call, hi, claimed, hin, hj⟩
    | @handled id settled =>
      obtain ⟨raw, hraw, rfl⟩ := hs.bears i _ id call rfl
      exact ⟨raw, getElem?_sentBy_of_prefix hprefix hraw, Or.inl settled⟩

theorem run {w : World κ} (hf : f.Standard names) (hfront : f.Fronted)
    (hs : Sound names (Traffic.start w)) (hfaults : w.claimFaults = [])
    (hempty : ∀ id, w.claims.claimed id = false)
    (h : Traffic.run carrier f moves (.start w) = some t) :
    Answering carrier f (.start w) moves t := by
  have hattended : (Traffic.start w).Attended f := ⟨hfaults, fun _ _ h => by cases h⟩
  refine (prefix_induction (I := fun before t => Sound names t ∧ t.Attended f ∧
    Answering carrier f (.start w) before t) ⟨hs, hattended, ?_⟩ ?_ h).2.2
  · refine ⟨fun _ _ _ h => (by cases h), fun id h => ?_, fun _ h => (by cases h)⟩
    rw [show (Traffic.start w).world.claims.claimed id = false from hempty id] at h
    cases h
  · rintro before mv t t' - hbefore ⟨ht, hat, hanswering⟩ hmv
    obtain ⟨hat', hrelocated⟩ := ht.relocated hfront hat hmv
    have hsuffix := ht.suffix_of_move hf hmv
    have hlen : t.calls.length = (sentBy before).length :=
      (length_of_run hbefore).trans (Nat.zero_add _)
    exact ⟨ht.move hf hmv, hat', hanswering.bears_concat hrelocated hlen,
      hanswering.held_concat hrelocated (run_concat hbefore hmv) hsuffix,
      hanswering.answered_concat hrelocated hbefore hmv hsuffix⟩

end Answering

theorem LetIn.bears {w : World κ} (hf : f.Standard names) (hfront : f.Fronted)
    (hs : Sound names (Traffic.start w)) (hfaults : w.claimFaults = [])
    (hempty : ∀ id, w.claims.claimed id = false) (h : LetIn carrier f (.start w) moves j id) :
    ∃ raw, (sentBy moves)[j]? = some raw ∧ raw.id = id := by
  obtain ⟨before, t, hbefore, hrun, hplace⟩ := h
  obtain ⟨raw, hraw, hid⟩ :=
    (Answering.run hf hfront hs hfaults hempty hrun).bears j _ id hplace rfl
  exact ⟨raw, getElem?_sentBy_of_prefix hbefore hraw, hid⟩

theorem Duplicates.letIn (h : Duplicates carrier f start moves i j id) :
    LetIn carrier f start moves j id := by
  obtain ⟨before, -, -, hbefore, -, -, -, -, -, hin, -⟩ := h
  exact hin.mono ((List.prefix_append before _).trans hbefore)

/-- What becomes of a delivery after a duplicate of it was acknowledged. -/
theorem Duplicates.fate {s : Traffic κ} (hf : f.Standard names) (hfront : f.Fronted)
    (hs : Sound names start) (ha : start.Attended f)
    (h : Duplicates carrier f start moves i j id)
    (hrun : Traffic.run carrier f moves start = some s) : s.Fate id j := by
  obtain ⟨before, t, -, ⟨after, rfl⟩, hbefore, -, -, -, -, -, hj⟩ := h
  rw [List.append_assoc, run_append, hbefore] at hrun
  have hfate : t.Fate id j := Or.inr (hj.imp_right Or.inl)
  exact hfate.run hf hfront (hs.run hf hbefore) (ha.run hf hfront hs hbefore) hrun

end Traffic

/-- When all calls are over, a message that the flow acknowledged was handled by some delivery of
it, or it was acknowledged as a duplicate of a delivery that had claimed its identity before and
was still at work then, or had been dropped, and that delivery was dropped or failed in the end. -/
theorem handled_of_acknowledged {settings : FlowSettings} (honce : settings.idempotent = true)
    (hadvices : ∀ a ∈ settings.advices, a.Standard settings.names)
    (hothers : ∀ a ∈ settings.advices, ∀ stamping, a ≠ .once stamping) {carrier : Carrier κ}
    {channel : κ} {clock : Clock} {capacity : Nat} {letters : DeadLetterQueue}
    {moves : List Move} {s : Traffic κ}
    (h : Traffic.run carrier settings.flow moves
      (.start (.start channel clock (.ofCapacity capacity) letters)) = some s)
    (hover : ∀ c ∈ s.calls, c.over = true) {i : Nat} {raw : RawMessage}
    (hsent : (sentBy moves)[i]? = some raw)
    (hi : s.calls[i]? = some (.returned (.ok .handled))) :
    Deed.settle raw.id true ∈ s.world.history ∨
      ∃ j other, (sentBy moves)[j]? = some other ∧ other.id = raw.id ∧
        Traffic.Duplicates carrier settings.flow
          (.start (.start channel clock (.ofCapacity capacity) letters)) moves i j raw.id ∧
        (s.calls[j]? = some .dropped ∨ ∃ e, s.calls[j]? = some (.returned (.error e))) := by
  have hf : settings.flow.Standard settings.names := FlowSettings.flow_standard hadvices
  have hfront : settings.flow.Fronted := FlowSettings.flow_fronted honce hothers
  have hsound : Sound settings.names
      (.start (.start channel clock (.ofCapacity capacity) letters)) :=
    (Quiet.start _ _ _ _ _).sound
  have hattended : (Traffic.start (.start channel clock (.ofCapacity capacity) letters)).Attended
      settings.flow := ⟨rfl, fun _ _ h => by cases h⟩
  have hanswering := Traffic.Answering.run hf hfront hsound rfl (fun _ => rfl) h
  obtain ⟨raw', hraw', hrests⟩ := hanswering.answered i (Traffic.place?_of_call hi)
  obtain rfl : raw = raw' := Option.some.inj (hsent.symm.trans hraw')
  rcases hrests with hsettled | ⟨j, hduplicates⟩
  · exact Or.inl hsettled
  · obtain ⟨other, hother, hid⟩ := hduplicates.letIn.bears hf hfront hsound rfl fun _ => rfl
    have hfate : s.Fate raw.id j := hduplicates.fate hf hfront hsound hattended h
    exact (hfate.ends hover).imp_right fun hend => ⟨j, other, hother, hid, hduplicates, hend⟩

/-! ## A duplicate that overtakes -/

/-- A channel that is ten milliseconds on the way to refuse the next output. -/
def Outlet.refusing : Outlet := ⟨[10], [((), some (.rejected "refused"))], .recorder []⟩

/-- An execution waits for a payment; while the output for the payment is on its way, the payment
is sent again, and handled at once; then the output is refused. -/
def overtakingMoves : List Move :=
  .send (orderAwaited 1) :: .replicate 11 (.step 0) ++
    [.send (orderSent 2), .send (orderSent 2)] ++ .replicate 9 (.step 1) ++
    .replicate 3 (.step 2) ++ [.pass 10] ++ .replicate 5 (.step 1)

/-- Whether a deed says that the handlers of a delivery succeeded. -/
def Deed.handles (id : Uuid) : Deed → Bool
  | settle other true => other = id
  | _ => false

set_option maxRecDepth 100000 in
theorem overtaking_run : ∃ s : Traffic Outlet,
    Traffic.run Outlet.carrier (FlowSettings.flow {}) overtakingMoves
      (.start (.start .refusing ⟨Stamp.start2025, 1⟩ (.ofCapacity 10) (.ofSize 10 "errors"))) =
        some s ∧
    (∀ c ∈ s.calls, c.over = true) ∧ s.calls[2]? = some (.returned (.ok .handled)) ∧
    Deed.settle (.ofNat 2) true ∉ s.world.history := by
  have hrun : (Traffic.run Outlet.carrier (FlowSettings.flow {}) overtakingMoves
      (.start (.start .refusing ⟨Stamp.start2025, 1⟩ (.ofCapacity 10) (.ofSize 10 "errors")))).any
      (fun s => s.calls.all Sending.over && s.calls[2]?.any Sending.acknowledged &&
        s.world.history.all fun d => !d.handles (.ofNat 2)) = true := by
    decide +kernel
  obtain ⟨s, hs, hstate⟩ := (Option.any_eq_true _ _).mp hrun
  simp only [Bool.and_eq_true, List.all_eq_true] at hstate
  obtain ⟨⟨hover, hacknowledged⟩, hnever⟩ := hstate
  obtain ⟨c, hc, hacknowledged⟩ := (Option.any_eq_true _ _).mp hacknowledged
  rw [Sending.eq_of_acknowledged hacknowledged] at hc
  exact ⟨s, hs, hover, hc, fun hsettled => by simpa [Deed.handles] using hnever _ hsettled⟩

theorem handled_of_acknowledged_overtaken : ∃ s : Traffic Outlet,
    Traffic.run Outlet.carrier (FlowSettings.flow {}) overtakingMoves
      (.start (.start .refusing ⟨Stamp.start2025, 1⟩ (.ofCapacity 10) (.ofSize 10 "errors"))) =
        some s ∧
    ∃ j other, (sentBy overtakingMoves)[j]? = some other ∧ other.id = .ofNat 2 ∧
      Traffic.Duplicates Outlet.carrier (FlowSettings.flow {})
        (.start (.start .refusing ⟨Stamp.start2025, 1⟩ (.ofCapacity 10) (.ofSize 10 "errors")))
        overtakingMoves 2 j (.ofNat 2) ∧
      (s.calls[j]? = some .dropped ∨ ∃ e, s.calls[j]? = some (.returned (.error e))) := by
  obtain ⟨s, hs, hover, hhandled, hnever⟩ := overtaking_run
  have hnone : ∀ a ∈ ({} : FlowSettings).advices, a.Standard {} := fun _ h => by cases h
  have hothers : ∀ a ∈ ({} : FlowSettings).advices, ∀ stamping, a ≠ .once stamping :=
    fun _ h => by cases h
  have hsent : (sentBy overtakingMoves)[2]? = some (orderSent 2) := rfl
  exact ⟨s, hs, (handled_of_acknowledged rfl hnone hothers hs hover hsent hhandled).resolve_left
    hnever⟩

/-- What is acknowledged was not always handled: a duplicate may overtake a delivery that fails. -/
theorem not_always_handled_of_acknowledged : ¬∀ (channel : Outlet) (moves : List Move)
    (s : Traffic Outlet) (i : Nat) (raw : RawMessage),
    Traffic.run Outlet.carrier (FlowSettings.flow {}) moves
      (.start (.start channel ⟨Stamp.start2025, 1⟩ (.ofCapacity 10) (.ofSize 10 "errors"))) =
        some s →
    (∀ c ∈ s.calls, c.over = true) → (sentBy moves)[i]? = some raw →
    (EventType.ofText ((raw.headers.text? "eventType").getD "")).isAggregated = true →
    s.calls[i]? = some (.returned (.ok .handled)) →
    Deed.settle raw.id true ∈ s.world.history := by
  intro hclaim
  obtain ⟨s, hs, hover, hhandled, hnever⟩ := overtaking_run
  exact hnever (hclaim _ _ s 2 (orderSent 2) hs hover rfl (by decide) hhandled)

end Rendezvous
