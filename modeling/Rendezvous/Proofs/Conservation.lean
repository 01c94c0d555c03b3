/-
No message is lost.

A message that joined a group leaves it in one of two ways: an output that consumes it was
accepted before it was taken out, or it is a registration and its subscription was cancelled.
Both are read off lawful histories by induction on what happened since the message was appended
(`accounted_of_lawful`).  One step of any call changes the messages of a key in one of three ways,
by the deed it does, and taking messages out keeps the order of those that stay.
-/
import Rendezvous.Proofs.Sound

namespace Rendezvous

variable {names : HeaderNames} {key : CorrelationKey} {newer older : List Deed}

/-- An output that consumes a message was accepted, and then its messages were taken out. -/
def ConsumedIn (key : CorrelationKey) (id : Uuid) (h : List Deed) : Prop :=
  ∃ r after between before, id ∈ r.consumed ∧
    h = after ++ .remove key r.consumed .released :: between ++ .accept key r :: before

/-- A message was taken out by the cancellation of a subscription. -/
def WithdrawnIn (key : CorrelationKey) (id : Uuid) (h : List Deed) : Prop :=
  ∃ ids, id ∈ ids ∧ Deed.remove key ids .cancelled ∈ h

theorem ConsumedIn.cons {id : Uuid} (d : Deed) (h : ConsumedIn key id newer) :
    ConsumedIn key id (d :: newer) := by
  obtain ⟨r, after, between, before, hid, rfl⟩ := h
  exact ⟨r, d :: after, between, before, hid, rfl⟩

theorem WithdrawnIn.cons {id : Uuid} (d : Deed) (h : WithdrawnIn key id newer) :
    WithdrawnIn key id (d :: newer) := by
  obtain ⟨ids, hid, hmem⟩ := h
  exact ⟨ids, hid, List.mem_cons_of_mem _ hmem⟩

/-- A release that became due was accepted, and nothing was done for its key since. -/
theorem exists_accept_of_due (hl : Lawful names (newer ++ older))
    (hold : (page key older).due = none) {r : Release}
    (hdue : (page key (newer ++ older)).due = some r) :
    ∃ after before, newer = after ++ .accept key r :: before ∧
      ∀ d ∈ after, d.key? ≠ some key := by
  induction newer with
  | nil =>
    rw [List.nil_append, hold] at hdue
    cases hdue
  | cons d newer ih =>
    obtain ⟨hd, hl⟩ := hl
    rw [List.cons_append] at hdue
    by_cases hk : d.key? = some key
    · cases d with
      | append k m =>
        obtain rfl : k = key := Option.some.inj hk
        rw [page_append] at hdue
        cases hd.1.symm.trans hdue
      | accept k r' =>
        obtain rfl : k = key := Option.some.inj hk
        rw [page_accept] at hdue
        obtain rfl : r' = r := Option.some.inj hdue
        exact ⟨[], newer, rfl, fun _ h => by cases h⟩
      | remove k ids why =>
        obtain rfl : k = key := Option.some.inj hk
        rw [page_remove] at hdue
        cases hdue
      | settle => cases hk
    · rw [page_cons_of_ne hk] at hdue
      obtain ⟨after, before, rfl, hafter⟩ := ih hl hdue
      refine ⟨d :: after, before, rfl, fun e he => ?_⟩
      rcases List.mem_cons.mp he with rfl | he
      · exact hk
      · exact hafter e he

/-- A message that was appended is pending, was consumed, or is a registration whose subscription
was cancelled. -/
theorem accounted_of_lawful {m : EventMessage}
    (hl : Lawful names (newer ++ .append key m :: older)) :
    m ∈ (page key (newer ++ .append key m :: older)).messages ∨ ConsumedIn key m.id newer ∨
      m.isOf names .startDeployed = true ∧ WithdrawnIn key m.id newer := by
  have hdue : (page key (.append key m :: older)).due = none := by
    rw [page_append]
    exact hl.of_append.1.1
  induction newer with
  | nil =>
    rw [List.nil_append, page_append]
    exact Or.inl (List.mem_append_right _ List.mem_cons_self)
  | cons d newer ih =>
    obtain ⟨hd, hl⟩ := hl
    rcases ih hl with hm | hc | ⟨hstart, hw⟩
    · -- the message is pending: only a removal can take it out
      rw [List.cons_append]
      by_cases hk : d.key? = some key
      · cases d with
        | append k o =>
          obtain rfl : k = key := Option.some.inj hk
          rw [page_append]
          exact Or.inl (List.mem_append_left _ hm)
        | accept k r =>
          obtain rfl : k = key := Option.some.inj hk
          rw [page_accept]
          exact Or.inl hm
        | remove k ids why =>
          obtain rfl : k = key := Option.some.inj hk
          rw [page_remove]
          by_cases hid : m.id ∈ ids
          · cases why with
            | released =>
              obtain ⟨r, hr, rfl⟩ := hd
              obtain ⟨between, before, rfl, -⟩ := exists_accept_of_due hl hdue hr
              exact Or.inr (Or.inl ⟨r, [], between, before, hid, rfl⟩)
            | cancelled =>
              obtain ⟨-, rfl⟩ := hd
              obtain ⟨o, ho, hstart, hom⟩ := mem_stale.mp hid
              rw [hl.eq_of_id ho hm hom] at hstart
              exact Or.inr (Or.inr ⟨hstart, _, hid, List.mem_cons_self⟩)
          · exact Or.inl (mem_without.mpr ⟨hm, hid⟩)
        | settle => cases hk
      · rw [page_cons_of_ne hk]
        exact Or.inl hm
    · exact Or.inr (Or.inl (hc.cons d))
    · exact Or.inr (Or.inr ⟨hstart, hw.cons d⟩)

/-! ## What a move does to a group -/

variable {κ : Type}

/-- The call reconciles the group of a key because a message cancels its subscriptions. -/
def Sending.Reconciles (names : HeaderNames) (key : CorrelationKey) (c : Sending) : Prop :=
  ∃ since r m rest g frames, Cancels names key m ∧
    c = .running (.handling since ⟨.reconciling r key m rest g, frames⟩)

/-- Only a call that reconciles a group takes messages out as cancelled. -/
theorem Sending.reconciles_of_may {c : Sending} {ids : List Uuid} (hfits : c.Fits names)
    (hmay : (c.station names).may (.remove key ids .cancelled)) : c.Reconciles names key := by
  cases c with
  | returned | dropped => cases hmay
  | running st =>
    cases st with
    | arrived | rejecting => cases hmay
    | handling since call =>
      obtain ⟨stage, frames⟩ := call
      cases stage with
      | enter => cases hmay
      | leave outcome =>
        cases frames with
        | nil => cases hmay
        | cons frame frames => cases frame <;> cases hmay
      | aggregating a k m g =>
        cases g with
        | inside t s =>
          cases s with
          | remove r =>
            obtain ⟨-, -, hwhy⟩ := hmay
            cases hwhy
          | read | append | decide | attempt | transit | arrive | pause | reread => cases hmay
        | asking | lining | queued | givingUp | leaving => cases hmay
      | reconciling r k m rest g =>
        cases g with
        | inside t s =>
          cases s with
          | read => cases hmay
          | purge ids =>
            obtain ⟨rfl, -⟩ := hmay
            exact ⟨since, r, m, rest, _, frames, hfits.2.1, rfl⟩
        | asking | lining | queued | givingUp | leaving => cases hmay

/-- What happens to the group of a key between two worlds, the call `c` being the one that does
it: nothing, a message joins it, the messages leave that an output consumes which was accepted
before, or the registrations leave because a message cancels them. -/
inductive GroupChange (names : HeaderNames) (key : CorrelationKey) (c : Sending) (w w' : World κ) :
    Prop
  | stays (same : w'.groups.messages key = w.groups.messages key)
  | joins (m : EventMessage) (deed : w'.history = .append key m :: w.history)
      (joined : w'.groups.messages key = w.groups.messages key ++ [m])
  | consumed (r : Release) (after before : List Deed)
      (accepted : w.history = after ++ .accept key r :: before)
      (since : ∀ d ∈ after, d.key? ≠ some key)
      (deed : w'.history = .remove key r.consumed .released :: w.history)
      (rest : w'.groups.messages key =
        (w.groups.messages key).filter fun m => !r.consumed.contains m.id)
  | withdrawn (ids : List Uuid) (cancels : c.Reconciles names key)
      (deed : w'.history = .remove key ids .cancelled :: w.history)
      (rest : w'.groups.messages key =
        (w.groups.messages key).filter fun m => !m.isOf names .startDeployed)

/-- What one stride of a call does to the group of a key. -/
theorem Stride.groupChange {w w' : World κ} {c : Sending} {a' : Station} (hw : Faithful names w)
    (hfits : c.Fits names) (ht : Stride names w (c.station names) w' a') (key : CorrelationKey) :
    GroupChange names key c w w' := by
  have hpages := hw.pages key
  have hpages' := ht.faithful.pages key
  obtain hh | ⟨d, hh, hmay, hd⟩ := ht.grows
  · exact .stays (by rw [hpages, hpages', hh])
  · rw [hh] at hpages'
    by_cases hk : d.key? = some key
    · cases d with
      | append k m =>
        obtain rfl : k = key := Option.some.inj hk
        rw [page_append, ← hpages] at hpages'
        exact .joins m hh hpages'
      | accept k r =>
        obtain rfl : k = key := Option.some.inj hk
        rw [page_accept, ← hpages] at hpages'
        exact .stays hpages'
      | remove k ids why =>
        obtain rfl : k = key := Option.some.inj hk
        rw [page_remove] at hpages'
        cases why with
        | released =>
          obtain ⟨r, hr, rfl⟩ := hd
          have hl : Lawful names (w.history ++ []) := (List.append_nil w.history).symm ▸ hw.lawful
          obtain ⟨after, before, hacc, hafter⟩ :=
            exists_accept_of_due hl rfl ((List.append_nil w.history).symm ▸ hr)
          refine .consumed r after before hacc hafter hh ?_
          rw [hpages', hpages]
          rfl
        | cancelled =>
          obtain ⟨-, rfl⟩ := hd
          refine .withdrawn _ (Sending.reconciles_of_may hfits hmay) hh ?_
          rw [hpages', hpages]
          exact hw.lawful.without_stale k
      | settle => cases hk
    · rw [page_cons_of_ne hk, ← hpages] at hpages'
      exact .stays hpages'

/-- What one move does to the group of a key: only a step of a call changes it. -/
theorem Sound.groupChange {carrier : Carrier κ} {f : Flow} {s s' : Traffic κ} {mv : Move}
    (hf : f.Standard names) (hs : Sound names s) (h : s.move carrier f mv = some s')
    (key : CorrelationKey) :
    s'.world.groups.messages key = s.world.groups.messages key ∨
      ∃ i c, mv = .step i ∧ s.calls[i]? = some c ∧ GroupChange names key c s.world s'.world := by
  cases mv with
  | step i =>
    obtain ⟨st, w, c, hi, hc, rfl⟩ := Traffic.step_of_move h
    have hfits := hs.fits i _ hi
    refine Or.inr ⟨i, _, rfl, hi, ?_⟩
    have hstep : (f.step carrier s.world st).Ensures
        (fun w' _ => GroupChange names key (.running st) s.world w')
        (fun w' _ => GroupChange names key (.running st) s.world w') :=
      (Flow.step_ensures hf hs.faithful hfits (hs.grounded_of_call hi)).mono
        (fun _ _ h => Stride.groupChange hs.faithful hfits h.1 key)
        fun _ _ h => Stride.groupChange hs.faithful hfits h key
    exact Sending.of_after? (R := fun w' _ => GroupChange names key (.running st) s.world w')
      hstep hc
  | drop i =>
    obtain ⟨st, hi, -, rfl⟩ := Traffic.drop_of_move h
    obtain ⟨d, hd⟩ := Flow.abandon_eq s.world st
    rw [hd]
    exact Or.inl rfl
  | pass now =>
    obtain ⟨-, rfl⟩ := Traffic.pass_of_move h
    exact Or.inl rfl
  | send m =>
    obtain rfl : _ = s' := Option.some.inj h
    exact Or.inl rfl
  | interrupt =>
    obtain rfl : _ = s' := Option.some.inj h
    exact Or.inl rfl
  | clear =>
    obtain rfl : _ = s' := Option.some.inj h
    exact Or.inl rfl

/-- No message is lost, whatever the calls do and however their steps interleave.  Every message
that was appended to the group of a key is in it, or was consumed by an output accepted before
the message was removed, or is a registration that a cancellation took out; and every move leaves
the group as it is or is a step of a call that changes it in one of the ways of `GroupChange`. -/
theorem no_message_lost {settings : FlowSettings}
    (hadvices : ∀ a ∈ settings.advices, a.Standard settings.names) {carrier : Carrier κ}
    {channel : κ} {clock : Clock} {claims : ClaimStore} {letters : DeadLetterQueue}
    {moves : List Move} {s : Traffic κ}
    (h : Traffic.run carrier settings.flow moves
      (.start (.start channel clock claims letters)) = some s) (key : CorrelationKey) :
    (∀ newer m older, s.world.history = newer ++ .append key m :: older →
      m ∈ s.world.groups.messages key ∨ ConsumedIn key m.id newer ∨
        m.isOf settings.names .startDeployed = true ∧ WithdrawnIn key m.id newer) ∧
    ∀ mv s', s.move carrier settings.flow mv = some s' →
      s'.world.groups.messages key = s.world.groups.messages key ∨
        ∃ i c, mv = .step i ∧ s.calls[i]? = some c ∧
          GroupChange settings.names key c s.world s'.world := by
  have hf := FlowSettings.flow_standard hadvices
  have hs : Sound settings.names s := (Quiet.start _ _ _ _ _).sound.run hf h
  refine ⟨fun newer m older hh => ?_, fun mv s' hm => hs.groupChange hf hm key⟩
  rw [hs.faithful.pages, hh]
  exact accounted_of_lawful (hh ▸ hs.faithful.lawful)

set_option maxRecDepth 100000 in
/-- A payment is sent while the group of its key is worked on, and waits for its turn. -/
theorem no_message_lost_interleaved : ∃ s : Traffic Outlet,
    Traffic.run Outlet.carrier (FlowSettings.flow {})
      ([.send (orderAwaited 1), .send (orderSent 2)] ++ .replicate 6 (.step 0) ++
        .replicate 6 (.step 1) ++ .replicate 5 (.step 0) ++ .replicate 11 (.step 1))
      (.start (.recording [])) = some s ∧
    ∀ newer m older, s.world.history = newer ++ .append "order-paid:42" m :: older →
      m ∈ s.world.groups.messages "order-paid:42" ∨ ConsumedIn "order-paid:42" m.id newer ∨
        m.isOf {} .startDeployed = true ∧ WithdrawnIn "order-paid:42" m.id newer := by
  have hrun : (Traffic.run Outlet.carrier (FlowSettings.flow {})
      ([.send (orderAwaited 1), .send (orderSent 2)] ++ .replicate 6 (.step 0) ++
        .replicate 6 (.step 1) ++ .replicate 5 (.step 0) ++ .replicate 11 (.step 1))
      (.start (.recording []))).isSome = true := by decide +kernel
  obtain ⟨s, hs⟩ := Option.isSome_iff_exists.mp hrun
  have hadvices : ∀ a ∈ ({} : FlowSettings).advices, a.Standard {} := fun _ h => by cases h
  exact ⟨s, hs, (no_message_lost hadvices hs "order-paid:42").1⟩

end Rendezvous
