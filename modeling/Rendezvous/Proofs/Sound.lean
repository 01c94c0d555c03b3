/-
Soundness of all traffic of a standard flow.

A flow is standard if its core aggregates by the default rule and processor and its
reconciliations use the default predicate; the standard flow of any settings is, and users' own
advices may stand in it.  `Sound` is the invariant of its traffic: every lock that is held belongs
to one call, the groups are what a lawful history says, every call finds what its work relies on,
and an accepted release is due only while a call works on its group.  Every move keeps it
(`Sound.move`), so it holds in every state that any interleaving of calls reaches, with calls
dropped anywhere, locks timing out, interrupts, and an output channel that does what it likes
(`Sound.run`).
-/
import Rendezvous.Flow.Settings
import Rendezvous.Proofs.Station

namespace Rendezvous

variable {κ : Type} {names : HeaderNames}

/-- A key that was read from the correlation-id header is its text. -/
theorem Correlation.text?_of_ofHeader {headers : Headers} {key : CorrelationKey}
    (h : ofHeader names headers = .ok key) : headers.text? names.correlationId = some key := by
  unfold ofHeader at h
  split at h
  · cases h
  · next hk => rw [hk, Except.ok.inj h]

/-! ## Calls that leave groups alone -/

namespace World

variable (w : World κ)

theorem askClaims_aside (call : ClaimCall) : w.Aside (w.askClaims call).1 := ⟨rfl, rfl, rfl, rfl⟩

theorem putClaimIfAbsent_aside (key value : String) :
    w.Aside (w.putClaimIfAbsent key value).1 := by
  have h := w.askClaims_aside .putIfAbsent
  unfold putClaimIfAbsent
  split
  all_goals
    next heq =>
    rw [heq] at h
    exact h.trans ⟨rfl, rfl, rfl, rfl⟩

theorem removeClaim_aside (key : String) : w.Aside (w.removeClaim key).1 := by
  have h := w.askClaims_aside .remove
  unfold removeClaim
  split
  all_goals
    next heq =>
    rw [heq] at h
    exact h.trans ⟨rfl, rfl, rfl, rfl⟩

theorem bury_aside (m : RawMessage) : w.Aside (w.bury m) := by
  unfold bury
  dsimp only
  split <;> exact ⟨rfl, rfl, rfl, rfl⟩

theorem offer_aside (m : RawMessage) : w.Aside (w.offer m).1 := by
  have hv : w.Aside { w.record (.offered w.now m) with
      letterFaults := (w.letterFaults.next ()).2 } := ⟨rfl, rfl, rfl, rfl⟩
  unfold offer
  dsimp only
  split
  · exact hv
  · exact hv.trans (bury_aside _ m)

end World

/-! ## Standard flows -/

/-- Whether a message cancels the subscriptions of a key. -/
def Cancels (names : HeaderNames) (key : CorrelationKey) (m : EventMessage) : Prop :=
  m.headers.text? names.correlationId = some key ∧ m.isOf names .cancelled = true

/-- Whether an advice reconciles by the default predicate, if it reconciles at all. -/
def Advice.Standard (names : HeaderNames) : Advice → Prop
  | .reconcile r => ∃ timeout, r = .default names timeout
  | _ => True

/-- Whether a core aggregates by the default rule and processor, if it aggregates at all. -/
def Core.Standard (names : HeaderNames) : Core → Prop
  | .aggregate a => ∃ retry timeout, a = .default names retry timeout
  | .record => True

structure Flow.Standard (names : HeaderNames) (f : Flow) : Prop where
  advices : ∀ a ∈ f.chain.advices, a.Standard names
  core : f.chain.core.Standard names

/-- The flow of settings is standard, whatever interceptors it has. -/
theorem FlowSettings.flow_standard {s : FlowSettings} (h : ∀ a ∈ s.advices, a.Standard s.names) :
    s.flow.Standard s.names := by
  refine ⟨fun a ha => ?_, s.retry, s.lockTimeout, rfl⟩
  rcases List.mem_append.mp ha with ha | ha
  · split at ha
    · exact List.mem_singleton.mp ha ▸ trivial
    · cases ha
  · rcases List.mem_cons.mp ha with rfl | ha
    · exact ⟨s.lockTimeout, rfl⟩
    · exact h a ha

theorem FlowSettings.flow_standard_of_nil {s : FlowSettings} (h : s.advices = []) :
    s.flow.Standard s.names := by
  refine flow_standard fun a ha => ?_
  rw [h] at ha
  cases ha

namespace Chain

def Stage.Fits (names : HeaderNames) : Stage → Prop
  | .enter _ advices => ∀ a ∈ advices, a.Standard names
  | .reconciling r key m rest _ => (∃ timeout, r = .default names timeout) ∧
      Cancels names key m ∧ ∀ a ∈ rest, a.Standard names
  | .aggregating a key m _ => (∃ retry timeout, a = .default names retry timeout) ∧
      Pertains names key m
  | .leave _ => True

/-- The deeds of an advice that learns the outcome. -/
def mayLeave (outcome : Except HandlerError Unit) : List Frame → Deed → Prop
  | .claimed id :: _, d => d = .settle id (succeeded outcome)
  | _, _ => False

def reconcilingStation (names : HeaderNames) (key : CorrelationKey)
    (g : Guarded Reconciliation.Stage (Except HandlerError Nat)) : Station :=
  g.station key.lockKey key (Reconciliation.Stage.Grounded names) (Reconciliation.May key)

def aggregatingStation (names : HeaderNames) (key : CorrelationKey) (m : EventMessage)
    (g : Guarded Aggregation.Stage (Except HandlerError Unit)) : Station :=
  g.station key.lockKey key (Aggregation.Stage.Grounded names key m) (Aggregation.May key m)

def Call.station (names : HeaderNames) (c : Call) : Station :=
  match c.stage with
  | .enter .. => .idle
  | .reconciling _ key _ _ g => reconcilingStation names key g
  | .aggregating _ key m g => aggregatingStation names key m g
  | .leave outcome => ⟨.away, none, mayLeave outcome c.frames⟩

theorem key_of_may {key k : CorrelationKey} {m : EventMessage} {st : Aggregation.Stage} {d : Deed}
    (hd : Aggregation.May key m st d) (hk : d.key? = some k) : k = key := by
  unfold Aggregation.May at hd
  split at hd
  · exact (Option.some.inj hk).symm.trans hd.1
  · exact (Option.some.inj hk).symm.trans hd.1
  · exact (Option.some.inj hk).symm.trans hd.1
  · cases hd

theorem key_of_may_cancel {key k : CorrelationKey} {st : Reconciliation.Stage} {d : Deed}
    (hd : Reconciliation.May key st d) (hk : d.key? = some k) : k = key := by
  unfold Reconciliation.May at hd
  split at hd
  · exact (Option.some.inj hk).symm.trans hd.1
  · cases hd

theorem Call.station_proper (names : HeaderNames) (c : Call) : (c.station names).Proper := by
  obtain ⟨stage, frames⟩ := c
  cases stage with
  | enter m advices => exact Station.idle_proper
  | reconciling r key m rest g =>
    exact Guarded.station_proper (fun s d k hd hk => key_of_may_cancel hd hk) g
  | aggregating a key m g => exact Guarded.station_proper (fun s d k hd hk => key_of_may hd hk) g
  | leave outcome =>
    refine ⟨?_, ?_⟩
    · intro key ground h
      cases h
    · intro key d hd hk
      cases frames with
      | nil => cases hd
      | cons frame frames =>
        cases frame with
        | intercepted name => cases hd
        | claimed id =>
          rw [show d = .settle id (succeeded outcome) from hd] at hk
          cases hk

/-! ## Steps of a chain -/

variable {carrier : Carrier κ} {core : Core} {w : World κ}

/-- A message meets the core: nothing is done yet. -/
theorem coreStep_spec (hcore : core.Standard names) (hw : Faithful names w) (m : EventMessage)
    (frames : List Frame) :
    Stride names w .idle (coreStep core w m frames).1
        ((coreStep core w m frames).2.station names) ∧
      (coreStep core w m frames).2.stage.Fits names := by
  cases core with
  | record =>
    simp only [coreStep]
    split <;> exact ⟨.aside hw ⟨rfl, rfl, rfl, rfl⟩ rfl rfl rfl, trivial⟩
  | aggregate a =>
    obtain ⟨retry, timeout, rfl⟩ := hcore
    simp only [coreStep]
    cases hk : (Aggregator.default names retry timeout).correlation m.headers with
    | error e => exact ⟨.aside hw ⟨rfl, rfl, rfl, rfl⟩ rfl rfl rfl, trivial⟩
    | ok key =>
      dsimp only
      split
      · next hp =>
        exact ⟨.aside hw ⟨rfl, rfl, rfl, rfl⟩ rfl rfl rfl, ⟨retry, timeout, rfl⟩,
          Correlation.text?_of_ofHeader hk, hp⟩
      · exact ⟨.aside hw ⟨rfl, rfl, rfl, rfl⟩ rfl rfl rfl, trivial⟩

/-- What a message meets before the core leaves locks and groups alone, and lets it pass to the
advices that are left, or not at all. -/
theorem enter_spec {w' : World κ} {c : Call} {rest : List Advice} (hw : Faithful names w)
    (h : w.Aside w') (hrest : ∀ a ∈ rest, a.Standard names)
    (hc : (∃ m, c.stage = .enter m rest) ∨ ∃ o, c.stage = .leave o) :
    Stride names w .idle w' (c.station names) ∧ c.stage.Fits names := by
  obtain ⟨stage, frames⟩ := c
  rcases hc with ⟨m, hc⟩ | ⟨o, hc⟩ <;> obtain rfl : stage = _ := hc
  · exact ⟨.aside hw h rfl rfl rfl, hrest⟩
  · exact ⟨.aside hw h rfl rfl rfl, trivial⟩

theorem claimStep_spec (w : World κ) (stamping : Stamping) (m : EventMessage)
    (rest : List Advice) (frames : List Frame) :
    w.Aside (claimStep w stamping m rest frames).1 ∧
      ((∃ m', (claimStep w stamping m rest frames).2.stage = .enter m' rest) ∨
        ∃ o, (claimStep w stamping m rest frames).2.stage = .leave o) := by
  have hstamp : w.Aside (stampOf w stamping).2 := by
    cases stamping <;> exact ⟨rfl, rfl, rfl, rfl⟩
  have hclaim := hstamp.trans
    (World.putClaimIfAbsent_aside (stampOf w stamping).2 m.id.text (stampOf w stamping).1.text)
  unfold claimStep
  dsimp only
  split
  · next heq => exact ⟨by rw [heq] at hclaim; exact hclaim, Or.inr ⟨_, rfl⟩⟩
  · next heq =>
    rw [heq] at hclaim
    exact ⟨hclaim.trans ⟨rfl, rfl, rfl, rfl⟩, Or.inr ⟨_, rfl⟩⟩
  · next heq => exact ⟨by rw [heq] at hclaim; exact hclaim, Or.inl ⟨_, rfl⟩⟩

theorem interceptStep_spec (w : World κ) (i : Interceptor) (m : EventMessage)
    (rest : List Advice) (frames : List Frame) :
    w.Aside (interceptStep w i m rest frames).1 ∧
      ((∃ m', (interceptStep w i m rest frames).2.stage = .enter m' rest) ∨
        ∃ o, (interceptStep w i m rest frames).2.stage = .leave o) := by
  unfold interceptStep
  dsimp only
  split
  · exact ⟨⟨rfl, rfl, rfl, rfl⟩, Or.inr ⟨_, rfl⟩⟩
  · exact ⟨⟨rfl, rfl, rfl, rfl⟩, Or.inr ⟨_, rfl⟩⟩
  · exact ⟨⟨rfl, rfl, rfl, rfl⟩, Or.inl ⟨_, rfl⟩⟩

/-- An advice that learns the outcome settles a claim or does nothing. -/
theorem leaveFrame_stride (hw : Faithful names w) (outcome : Except HandlerError Unit)
    (frame : Frame) (frames : List Frame) :
    Stride names w (Call.station names ⟨.leave outcome, frame :: frames⟩)
      (leaveFrame w outcome frame) (Call.station names ⟨.leave outcome, frames⟩) := by
  cases frame with
  | intercepted name => exact .aside hw ⟨rfl, rfl, rfl, rfl⟩ rfl rfl rfl
  | claimed id =>
    have hv : Faithful names (w.record (.settled id (succeeded outcome))) := by
      refine hw.deed (d := .settle id (succeeded outcome)) rfl rfl trivial fun key => ?_
      exact hw.pages key
    have hremove : (w.record (.settled id (succeeded outcome))).Aside
        (leaveFrame w outcome (.claimed id)) := by
      simp only [leaveFrame]
      split
      · exact ⟨rfl, rfl, rfl, rfl⟩
      · exact World.removeClaim_aside _ _
    refine ⟨hv.congr hremove.storeFaults hremove.groups hremove.history, ?_, ?_, fun _ => ?_, ?_⟩
    · refine .rest "" ?_
      rw [hremove.desk]
      exact Desk.change_rfl w.desk ""
    · exact Or.inr ⟨_, hremove.history, rfl, trivial⟩
    · exact fun _ _ h => by cases h
    · exact fun _ _ h => by cases h

theorem reconcileStep_stride {timeout : Option Nat} {key : CorrelationKey}
    {g : Guarded Reconciliation.Stage (Except HandlerError Nat)} (hw : Faithful names w)
    (hg : (reconcilingStation names key g).Grounded w.history) :
    (reconcileStep (.default names timeout) key w g).Ensures
      (fun w' g' => Stride names w (reconcilingStation names key g) w'
        (reconcilingStation names key g'))
      (fun w' _ => Stride names w (reconcilingStation names key g) w' .idle) := by
  have hstart (p : Page) (hp : p.due = none) :
      Reconciliation.Stage.Grounded names p .read := hp
  rw [reconcileStep, Progress.ensures_map]
  exact Guarded.step_ensures hw hg hstart fun s hs => Reconciliation.step_ensures hw hs

theorem aggregateStep_stride {retry : RetryPolicy} {timeout : Option Nat} {key : CorrelationKey}
    {m : EventMessage} {g : Guarded Aggregation.Stage (Except HandlerError Unit)}
    (hw : Faithful names w) (hm : Pertains names key m)
    (hg : (aggregatingStation names key m g).Grounded w.history) :
    (aggregateStep carrier (.default names retry timeout) key m w g).Ensures
      (fun w' g' => Stride names w (aggregatingStation names key m g) w'
        (aggregatingStation names key m g'))
      (fun w' _ => Stride names w (aggregatingStation names key m g) w' .idle) := by
  have hstart (p : Page) (hp : p.due = none) :
      Aggregation.Stage.Grounded names key m p .read := hp
  rw [aggregateStep, Progress.ensures_map]
  exact Guarded.step_ensures hw hg hstart fun s hs => Aggregation.step_ensures hw hm hs

/-- Every step of a call of standard handlers is a stride, and keeps the call where it fits. -/
theorem step_ensures {c : Call} (hcore : core.Standard names) (hw : Faithful names w)
    (hfits : c.stage.Fits names) (hg : (c.station names).Grounded w.history) :
    (Chain.step carrier core w c).Ensures
      (fun w' c' => Stride names w (c.station names) w' (c'.station names) ∧ c'.stage.Fits names)
      (fun w' _ => Stride names w (c.station names) w' .idle) := by
  obtain ⟨stage, frames⟩ := c
  cases stage with
  | enter m advices =>
    cases advices with
    | nil => exact coreStep_spec hcore hw m frames
    | cons a rest =>
      have hrest : ∀ b ∈ rest, b.Standard names := fun b hb => hfits b (List.mem_cons_of_mem _ hb)
      cases a with
      | once stamping =>
        obtain ⟨haside, hc⟩ := claimStep_spec w stamping m rest frames
        exact enter_spec hw haside hrest hc
      | intercept i =>
        obtain ⟨haside, hc⟩ := interceptStep_spec w i m rest frames
        exact enter_spec hw haside hrest hc
      | reconcile r =>
        obtain ⟨timeout, rfl⟩ : ∃ timeout, r = .default names timeout :=
          hfits _ List.mem_cons_self
        simp only [step, cancelStep]
        split
        · next hconcerns =>
          have hcancel : m.isOf names .cancelled = true := hconcerns
          split
          · exact ⟨.aside hw ⟨rfl, rfl, rfl, rfl⟩ rfl rfl rfl, trivial⟩
          · next key hk =>
            refine
              ⟨.aside hw ⟨rfl, rfl, rfl, rfl⟩ rfl rfl rfl, ⟨timeout, rfl⟩, ⟨?_, hcancel⟩, hrest⟩
            exact Correlation.text?_of_ofHeader hk
        · exact ⟨.aside hw ⟨rfl, rfl, rfl, rfl⟩ rfl rfl rfl, hrest⟩
  | reconciling r key m rest g =>
    obtain ⟨⟨timeout, rfl⟩, hm, hrest⟩ := hfits
    rw [step, Progress.ensures_andThen]
    refine (reconcileStep_stride hw hg).mono ?_ ?_
    · exact fun w' g' h => ⟨h, ⟨timeout, rfl⟩, hm, hrest⟩
    · intro w' entry h
      split
      · exact ⟨h, hrest⟩
      · exact ⟨h.congr rfl rfl, trivial⟩
  | aggregating a key m g =>
    obtain ⟨⟨retry, timeout, rfl⟩, hm⟩ := hfits
    rw [step, Progress.ensures_andThen]
    refine (aggregateStep_stride hw hm hg).mono ?_ ?_
    · exact fun w' g' h => ⟨h, ⟨retry, timeout, rfl⟩, hm⟩
    · exact fun w' entry h => ⟨h.congr rfl rfl, trivial⟩
  | leave outcome =>
    cases frames with
    | nil => exact .aside hw ⟨rfl, rfl, rfl, rfl⟩ rfl rfl rfl
    | cons frame frames => exact ⟨leaveFrame_stride hw outcome frame frames, trivial⟩

/-- A call that is dropped where it waits leaves nothing behind. -/
theorem abandon_stride {c : Call} (hw : Faithful names w)
    (hg : (c.station names).Grounded w.history) (hs : c.stage.suspends = true) :
    Stride names w (c.station names) (Chain.abandon w c) .idle := by
  obtain ⟨stage, frames⟩ := c
  cases stage with
  | enter m advices => cases hs
  | leave outcome => cases hs
  | reconciling r key m rest g =>
    refine Guarded.abandon_stride hw hg ?_ hs
    intro s h
    cases h
  | aggregating a key m g =>
    refine Guarded.abandon_stride hw hg (fun s h p hp => ?_) hs
    cases s with
    | transit r n arrival => exact hp.1
    | pause r n wake => exact hp.1
    | read | append | decide | attempt | arrive | remove | reread => cases h

end Chain

/-! ## Steps of a flow -/

def Flow.Stage.Fits (names : HeaderNames) : Flow.Stage → Prop
  | .handling _ call => call.stage.Fits names
  | _ => True

def Flow.Stage.station (names : HeaderNames) : Flow.Stage → Station
  | .handling _ call => call.station names
  | _ => .idle

namespace Sending

def Fits (names : HeaderNames) : Sending → Prop
  | running st => st.Fits names
  | _ => True

def station (names : HeaderNames) : Sending → Station
  | running st => st.station names
  | _ => .idle

theorem station_proper (names : HeaderNames) (c : Sending) : (c.station names).Proper := by
  cases c with
  | returned | dropped => exact Station.idle_proper
  | running st =>
    cases st with
    | handling since call => exact call.station_proper names
    | arrived | rejecting => exact Station.idle_proper

end Sending

/-- Every step of a call of a standard flow is a stride, and keeps the call where it fits. -/
theorem Flow.step_ensures {carrier : Carrier κ} {f : Flow} {w : World κ} {st : Flow.Stage}
    (hf : f.Standard names) (hw : Faithful names w) (hfits : st.Fits names)
    (hg : (st.station names).Grounded w.history) :
    (f.step carrier w st).Ensures
      (fun w' st' => Stride names w (st.station names) w' (st'.station names) ∧ st'.Fits names)
      (fun w' _ => Stride names w (st.station names) w' .idle) := by
  cases st with
  | arrived m =>
    simp only [step]
    split
    · exact ⟨.aside hw ⟨rfl, rfl, rfl, rfl⟩ rfl rfl rfl, trivial⟩
    · exact ⟨.aside hw ⟨rfl, rfl, rfl, rfl⟩ rfl rfl rfl, trivial⟩
    · exact ⟨.aside hw ⟨rfl, rfl, rfl, rfl⟩ rfl rfl rfl, trivial⟩
    · exact ⟨.aside hw ⟨rfl, rfl, rfl, rfl⟩ rfl rfl rfl, hf.advices⟩
  | rejecting m verdict =>
    have h := World.offer_aside w m
    simp only [step]
    split
    all_goals
      next heq =>
      rw [heq] at h
      exact .aside hw h rfl rfl rfl
  | handling since call =>
    simp only [step]
    rw [Progress.ensures_andThen]
    refine (Chain.step_ensures hf.core hw hfits hg).mono (fun w' call' h => h) ?_
    intro w' outcome h
    exact ⟨h.faithful.congr rfl rfl rfl, h.dealing, h.grows, h.begins, h.goesOn⟩

theorem Flow.abandon_stride {w : World κ} {st : Flow.Stage} (hw : Faithful names w)
    (hg : (st.station names).Grounded w.history) (hs : st.suspends = true) :
    Stride names w (st.station names) (Flow.abandon w st) .idle := by
  cases st with
  | arrived m => exact .aside hw ⟨rfl, rfl, rfl, rfl⟩ rfl rfl rfl
  | rejecting m verdict => cases hs
  | handling since call => exact Chain.abandon_stride hw hg hs

/-- Dropping a call is felt at the locks only. -/
theorem Flow.abandon_eq (w : World κ) (st : Flow.Stage) :
    ∃ d, Flow.abandon w st = Guarded.withDesk w d := by
  have hguarded {σ ρ : Type} (lk : String) (g : Guarded σ ρ) :
      ∃ d, g.abandon lk w = Guarded.withDesk w d := by
    unfold Guarded.abandon
    split
    · exact ⟨_, rfl⟩
    · exact ⟨w.desk, rfl⟩
  cases st with
  | arrived | rejecting => exact ⟨w.desk, rfl⟩
  | handling since call =>
    obtain ⟨stage, frames⟩ := call
    cases stage with
    | enter | leave => exact ⟨w.desk, rfl⟩
    | reconciling r k m rest g => exact hguarded _ g
    | aggregating a k m g => exact hguarded _ g

/-! ## Traffic -/

namespace Traffic

def station (names : HeaderNames) (s : Traffic κ) (i : Nat) : Station :=
  match s.calls[i]? with
  | some c => c.station names
  | none => .idle

variable {s s' : Traffic κ}

theorem station_of_call {i : Nat} {c : Sending} (h : s.calls[i]? = some c) :
    s.station names i = c.station names := by
  rw [station, h]

theorem station_proper (names : HeaderNames) (s : Traffic κ) (i : Nat) :
    (s.station names i).Proper := by
  unfold station
  split
  · exact Sending.station_proper names _
  · exact Station.idle_proper

theorem station_put {i : Nat} {w : World κ} {c d : Sending} (hi : s.calls[i]? = some d)
    (j : Nat) : (s.put i w c).station names j =
      if j = i then c.station names else s.station names j := by
  unfold station
  rw [getElem?_put hi]
  by_cases hj : j = i
  · rw [if_pos hj, if_pos hj]
  · rw [if_neg hj, if_neg hj]

end Traffic

/-- The invariant of the traffic of a standard flow. -/
structure Sound (names : HeaderNames) (s : Traffic κ) : Prop where
  custody : Custody s.world.desk fun i => (s.station names i).post
  faithful : Faithful names s.world
  fits : ∀ (i : Nat) c, s.calls[i]? = some c → c.Fits names
  grounded : ∀ i, (s.station names i).Grounded s.world.history
  clear : ∀ key, (∀ i ground, (s.station names i).work ≠ some (key, ground)) →
    (page key s.world.history).due = none

namespace Sound

variable {s s' : Traffic κ} {i j : Nat} {key : CorrelationKey}

/-- No two calls work on the group of one key. -/
theorem eq_of_work {post : Nat → Post} {d : Desk} (hc : Custody d post) {a b : Station}
    (ha : a.Proper) (hb : b.Proper) (hi : post i = a.post) (hj : post j = b.post)
    {ground ground' : Page → Prop} (hwa : a.work = some (key, ground))
    (hwb : b.work = some (key, ground')) : i = j := by
  obtain ⟨t, ht⟩ := ha.inside hwa
  obtain ⟨u, hu⟩ := hb.inside hwb
  exact hc.exclusive (hi.trans ht) (hj.trans hu)

/-- A stride of one call keeps the invariant: what the others rely on is about other keys. -/
theorem stride (hs : Sound names s) {c c' : Sending} {w' : World κ} (hi : s.calls[i]? = some c)
    (ht : Stride names s.world (c.station names) w' (c'.station names)) (hfits : c'.Fits names) :
    Sound names (s.put i w' c') := by
  have hstation (j : Nat) : (s.put i w' c').station names j =
      if j = i then c'.station names else s.station names j := Traffic.station_put hi j
  have hself : s.station names i = c.station names := Traffic.station_of_call hi
  have hcustody : Custody w'.desk fun j => ((s.put i w' c').station names j).post := by
    refine hs.custody.deal (i := i) (p := (c'.station names).post) ?_ fun j => ?_
    · rw [hself]
      exact ht.dealing
    · rw [hstation]
      split <;> rfl
  -- the page of a key changes only if the call works on its group
  have hpage {k : CorrelationKey} (hk : ∀ ground, (c.station names).work ≠ some (k, ground)) :
      page k w'.history = page k s.world.history := by
    refine ht.grows.page_eq fun d hd hdk => ?_
    obtain ⟨ground, hg⟩ := (c.station_proper names).own hd hdk
    exact hk ground hg
  refine ⟨hcustody, ht.faithful, ?_, ?_, ?_⟩
  · intro j d hd
    rw [Traffic.getElem?_put hi] at hd
    split at hd
    · exact Option.some.inj hd ▸ hfits
    · exact hs.fits j d hd
  · intro j k ground hg
    rw [hstation] at hg
    show ground (page k w'.history)
    by_cases hj : j = i
    · rw [if_pos hj] at hg
      cases hwork : (c.station names).work with
      | none =>
        refine ht.begins hwork k ground hg _ ?_
        rw [hpage fun g h => by rw [hwork] at h; cases h]
        refine hs.clear k fun l g hl => ?_
        by_cases hli : l = i
        · rw [hli, hself, hwork] at hl
          cases hl
        · refine hli (eq_of_work hcustody (s.station_proper names l) (c'.station_proper names)
            ?_ ?_ hl hg)
          · rw [hstation, if_neg hli]
          · rw [hstation, if_pos rfl]
      | some work =>
        obtain ⟨k₀, g₀⟩ := work
        rcases ht.goesOn k₀ g₀ hwork with ⟨g', hg', hground⟩ | ⟨hnone, -⟩
        · rw [hg] at hg'
          obtain ⟨rfl, rfl⟩ : k = k₀ ∧ ground = g' := by simpa using hg'
          exact hground
        · rw [hg] at hnone
          cases hnone
    · rw [if_neg hj] at hg
      rw [hpage]
      · exact hs.grounded j k ground hg
      · intro g hwork
        exact hj (eq_of_work hs.custody (s.station_proper names j) (c.station_proper names) rfl
          (congrArg Station.post hself) hg hwork)
  · intro k hnone
    show (page k w'.history).due = none
    by_cases hk : ∃ ground, (c.station names).work = some (k, ground)
    · obtain ⟨ground, hk⟩ := hk
      rcases ht.goesOn k ground hk with ⟨g', hg', -⟩ | ⟨-, hdue⟩
      · refine absurd hg' ?_
        have := hnone i g'
        rwa [hstation, if_pos rfl] at this
      · exact hdue
    · rw [hpage fun g h => hk ⟨g, h⟩]
      refine hs.clear k fun l g hl => ?_
      by_cases hli : l = i
      · rw [hli, hself] at hl
        exact hk ⟨g, hl⟩
      · have := hnone l g
        rw [hstation, if_neg hli] at this
        exact this hl

theorem grounded_of_call (hs : Sound names s) {st : Flow.Stage}
    (hi : s.calls[i]? = some (.running st)) : (st.station names).Grounded s.world.history := by
  have h := hs.grounded i
  rw [Traffic.station_of_call hi] at h
  exact h

theorem outside (hs : Sound names s) {w' : World κ} {calls' : List Sending}
    (hf : w'.storeFaults = s.world.storeFaults) (hg : w'.groups = s.world.groups)
    (hh : w'.history = s.world.history) (ht : w'.desk.table = s.world.desk.table)
    (hi : w'.desk.issued = s.world.desk.issued)
    (hstation : ∀ i, Traffic.station names ⟨w', calls'⟩ i = s.station names i)
    (hfits : ∀ c ∈ calls', c ∈ s.calls ∨ c.Fits names) : Sound names ⟨w', calls'⟩ := by
  refine ⟨?_, hs.faithful.congr hf hg hh, ?_, ?_, ?_⟩
  · simp only [hstation]
    exact hs.custody.congr ht hi
  · intro j c hc
    rcases hfits c (List.mem_of_getElem? hc) with hold | hnew
    · obtain ⟨l, hl⟩ := List.mem_iff_getElem?.mp hold
      exact hs.fits l c hl
    · exact hnew
  · intro j
    rw [hstation]
    exact hh ▸ hs.grounded j
  · intro k hnone
    simp only [hstation] at hnone
    exact hh ▸ hs.clear k hnone

theorem move {carrier : Carrier κ} {f : Flow} (hf : f.Standard names) (hs : Sound names s)
    {mv : Move} (h : s.move carrier f mv = some s') : Sound names s' := by
  cases mv with
  | send m =>
    obtain rfl : _ = s' := Option.some.inj h
    refine hs.outside rfl rfl rfl rfl rfl (fun j => ?_) fun c hc => ?_
    · unfold Traffic.station
      rw [Traffic.getElem?_send]
      by_cases hj : j = s.calls.length
      · rw [if_pos hj, List.getElem?_eq_none (Nat.le_of_eq hj.symm)]
        rfl
      · rw [if_neg hj]
    · rcases List.mem_append.mp hc with hc | hc
      · exact Or.inl hc
      · exact Or.inr (List.mem_singleton.mp hc ▸ trivial)
  | step i =>
    obtain ⟨st, w, c, hi, hc, rfl⟩ := Traffic.step_of_move h
    have hstep : (f.step carrier s.world st).Ensures
        (fun w' st' => Stride names s.world (st.station names) w' (st'.station names) ∧
          st'.Fits names)
        (fun w' _ => Stride names s.world (st.station names) w' .idle) :=
      Flow.step_ensures hf hs.faithful (hs.fits i _ hi) (hs.grounded_of_call hi)
    have hafter : Stride names s.world (st.station names) w (c.station names) ∧ c.Fits names :=
      Sending.of_after?
        (R := fun w' c' => Stride names s.world (st.station names) w' (c'.station names) ∧
          c'.Fits names)
        (hstep.mono (fun _ _ h => h) fun _ _ h => ⟨h, trivial⟩) hc
    exact hs.stride hi hafter.1 hafter.2
  | drop i =>
    obtain ⟨st, hi, hsusp, rfl⟩ := Traffic.drop_of_move h
    exact hs.stride hi (Flow.abandon_stride hs.faithful (hs.grounded_of_call hi) hsusp) trivial
  | pass now =>
    obtain ⟨-, rfl⟩ := Traffic.pass_of_move h
    exact hs.outside rfl rfl rfl rfl rfl (fun _ => rfl) fun c hc => Or.inl hc
  | interrupt =>
    obtain rfl : _ = s' := Option.some.inj h
    exact hs.outside rfl rfl rfl rfl rfl (fun _ => rfl) fun c hc => Or.inl hc
  | clear =>
    obtain rfl : _ = s' := Option.some.inj h
    exact hs.outside rfl rfl rfl rfl rfl (fun _ => rfl) fun c hc => Or.inl hc

theorem run {carrier : Carrier κ} {f : Flow} (hf : f.Standard names) (hs : Sound names s)
    {moves : List Move} (h : Traffic.run carrier f moves s = some s') : Sound names s' :=
  Traffic.inv_of_run (fun _ _ _ _ hs h => hs.move hf h) h hs

end Sound

/-! ## Quiet worlds -/

/-- A world that no call is at work in: no lock is held, and every accepted output has taken its
messages along. -/
structure Quiet (names : HeaderNames) (w : World κ) : Prop where
  custody : Custody w.desk fun _ => .away
  faithful : Faithful names w
  settled : ∀ key, (page key w.history).due = none

theorem Quiet.start (names : HeaderNames) (channel : κ) (clock : Clock) (claims : ClaimStore)
    (letters : DeadLetterQueue) : Quiet names (World.start channel clock claims letters) :=
  ⟨Custody.start, .start names channel clock claims letters, fun _ => rfl⟩

theorem Quiet.sound {w : World κ} (hw : Quiet names w) : Sound names (Traffic.start w) :=
  ⟨hw.custody, hw.faithful, fun i _ h => (by cases h), fun i _ _ h => (by cases h),
    fun key _ => hw.settled key⟩

/-- When all calls are over, the world is quiet again. -/
theorem Sound.quiet {s : Traffic κ} (hs : Sound names s)
    (hover : ∀ c ∈ s.calls, ∀ st, c ≠ .running st) : Quiet names s.world := by
  have hidle (i : Nat) : s.station names i = .idle := by
    unfold Traffic.station
    split
    · next c hc =>
      cases c with
      | running st => exact absurd rfl (hover _ (List.mem_of_getElem? hc) st)
      | returned | dropped => rfl
    · rfl
  refine ⟨?_, hs.faithful, fun key => hs.clear key fun i ground => ?_⟩
  · have := hs.custody
    simp only [hidle] at this
    exact this
  · rw [hidle]
    exact fun h => by cases h

end Rendezvous
