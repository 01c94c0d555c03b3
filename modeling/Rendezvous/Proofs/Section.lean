/-
Work on a group under its lock, one step at a time.

While a call works on the group of a key, nobody else does, so what it read is still true when it
acts on it.  `Grounded` says what a stage of the work relies on: that a message to be appended is
not there, that a release on its way is the one that the pending messages yield, that a release
to be removed is the one that was accepted.  A step from a grounded stage of a faithful world
does at most one deed, which is legal, and leads to a grounded stage of a faithful world; the
last step leaves no accepted release behind whose messages were not removed.
-/
import Rendezvous.Proofs.History
import Rendezvous.Proofs.Progress

namespace Rendezvous

variable {κ : Type} {names : HeaderNames} {key : CorrelationKey} {m : EventMessage}

/-! ## What the stages rely on -/

/-- What work of a stage relies on when it appends `m` and releases its group. -/
def Aggregation.Stage.Grounded (names : HeaderNames) (key : CorrelationKey) (m : EventMessage)
    (p : Page) : Aggregation.Stage → Prop
  | .read => p.due = none
  | .append => p.due = none ∧ ∀ o ∈ p.messages, o.id ≠ m.id
  | .decide g => p.due = none ∧ g.key = key ∧ g.messages = p.messages
  | .attempt r _ => p.due = none ∧ Release.of? names key p.messages = some r
  | .transit r _ _ => p.due = none ∧ Release.of? names key p.messages = some r
  | .arrive r _ => p.due = none ∧ Release.of? names key p.messages = some r
  | .pause r _ _ => p.due = none ∧ Release.of? names key p.messages = some r
  | .remove r => p.due = some r ∧ Release.of? names key p.messages = some r
  | .reread => p.due = none

/-- What work of a stage relies on when it takes out the registrations. -/
def Reconciliation.Stage.Grounded (names : HeaderNames) (p : Page) : Reconciliation.Stage → Prop
  | .read => p.due = none
  | .purge ids => p.due = none ∧ ids = stale names p.messages ∧ ids ≠ []

/-- The deed of a stage of work that appends `m` and releases its group. -/
def Aggregation.May (key : CorrelationKey) (m : EventMessage) : Aggregation.Stage → Deed → Prop
  | .append, .append k o => k = key ∧ o = m
  | .arrive r _, .accept k r' => k = key ∧ r' = r
  | .remove r, .remove k ids why => k = key ∧ ids = r.consumed ∧ why = .released
  | _, _ => False

/-- The deed of a stage of work that takes out the registrations of a key. -/
def Reconciliation.May (key : CorrelationKey) : Reconciliation.Stage → Deed → Prop
  | .purge ids, .remove k ids' why => k = key ∧ ids' = ids ∧ why = .cancelled
  | _, _ => False

/-- What work on a group leaves alone. -/
structure World.Kept (w w' : World κ) : Prop where
  now : w'.now = w.now
  desk : w'.desk = w.desk
  claims : w'.claims = w.claims
  claimFaults : w'.claimFaults = w.claimFaults
  letterFaults : w'.letterFaults = w.letterFaults
  handlerFaults : w'.handlerFaults = w.handlerFaults

theorem World.Kept.refl (w : World κ) : w.Kept w := ⟨rfl, rfl, rfl, rfl, rfl, rfl⟩

theorem World.Kept.trans {w w' w'' : World κ} (h : w.Kept w') (h' : w'.Kept w'') : w.Kept w'' :=
  ⟨h'.now.trans h.now, h'.desk.trans h.desk, h'.claims.trans h.claims,
    h'.claimFaults.trans h.claimFaults, h'.letterFaults.trans h.letterFaults,
    h'.handlerFaults.trans h.handlerFaults⟩

/-- A step of work on a group: the world stays faithful, and deeds of a kind are done. -/
structure Worked (names : HeaderNames) (may : Deed → Prop) (w w' : World κ) : Prop where
  kept : w.Kept w'
  faithful : Faithful names w'
  grows : Grows names may w.history w'.history

theorem Worked.quiet {may : Deed → Prop} {w w' : World κ} (hw : Faithful names w)
    (hk : w.Kept w') (hf : w'.storeFaults = w.storeFaults) (hg : w'.groups = w.groups)
    (hh : w'.history = w.history) : Worked names may w w' :=
  ⟨hk, hw.congr hf hg hh, Or.inl hh⟩

/-! ## Calls of the store -/

namespace World

variable {w : World κ}

theorem askStore_eq (hf : w.storeFaults = []) (call : StoreCall) :
    w.askStore call = (w.record (.asked call), none) := by
  show ({ w.record (.asked call) with storeFaults := (w.storeFaults.next call).2 },
    (w.storeFaults.next call).1) = _
  rw [hf]
  show ({ w.record (.asked call) with storeFaults := [] }, none) = _
  rw [show ([] : Faults StoreCall StoreError) = (w.record (.asked call)).storeFaults from hf.symm]

/-- Reading a group tells what is pending, and changes nothing but the journal. -/
theorem readGroup_eq (hf : w.storeFaults = []) (key : CorrelationKey) :
    w.readGroup key = (w.record (.asked .group), .ok (w.groups.group? key)) := by
  rw [readGroup, askStore_eq hf]
  rfl

theorem appendMessage_spec (hw : Faithful names w)
    (hd : (Deed.append key m).Legal names w.history) :
    ∃ w' g, w.appendMessage key m = (w', .ok g) ∧ w.Kept w' ∧ Faithful names w' ∧
      w'.history = .append key m :: w.history ∧ w'.channel = w.channel ∧
      g.key = key ∧ g.messages = (page key w'.history).messages := by
  rw [appendMessage, askStore_eq hw.faultless]
  refine ⟨_, _, rfl, ⟨rfl, rfl, rfl, rfl, rfl, rfl⟩, ?_, rfl, rfl, rfl, ?_⟩
  · refine hw.deed rfl rfl hd fun k => ?_
    show (w.groups.add key m _).1.messages k = _
    rw [GroupStore.messages_add]
    by_cases hk : k = key
    · rw [if_pos hk, hk, page_append, hw.pages]
    · rw [if_neg hk, page_cons_of_ne (by rintro ⟨⟩; exact hk rfl), hw.pages]
  · show (w.groups.add key m _).2.messages = (page key (.append key m :: w.history)).messages
    rw [GroupStore.messages_snd_add, page_append, hw.pages]

theorem removeMessages_spec (hw : Faithful names w) {ids : List Uuid} {why : Removal}
    (hd : (Deed.remove key ids why).Legal names w.history)
    (hne : (page key w.history).messages ≠ []) :
    ∃ w', w.removeMessages key ids why = (w', .ok ()) ∧ w.Kept w' ∧ Faithful names w' ∧
      w'.history = .remove key ids why :: w.history ∧ w'.channel = w.channel := by
  have hsome : ∃ g, w.groups.group? key = some g := by
    cases hg : w.groups.group? key with
    | some g => exact ⟨g, rfl⟩
    | none => exact absurd (GroupStore.messages_of_group?_none hg) (hw.pages key ▸ hne)
  obtain ⟨g, hg⟩ := hsome
  rw [removeMessages, askStore_eq hw.faultless]
  simp only [stamp, record, hg]
  refine ⟨_, rfl, ⟨rfl, rfl, rfl, rfl, rfl, rfl⟩, ?_, rfl, rfl⟩
  refine hw.deed rfl rfl hd fun k => ?_
  show (w.groups.remove key ids _).messages k = _
  rw [GroupStore.messages_remove]
  by_cases hk : k = key
  · rw [if_pos hk, hk, page_remove, hw.pages]
  · rw [if_neg hk, page_cons_of_ne (by rintro ⟨⟩; exact hk rfl), hw.pages]

end World

/-! ## Steps -/

/-- An accepted output is due until its messages are removed. -/
theorem Worked.accept {may : Deed → Prop} {w : World κ} {channel : κ} {r : Release}
    (hw : Faithful names w) (hmay : may (.accept key r))
    (hd : (Deed.accept key r).Legal names w.history) :
    Worked names may w ({ w with channel := channel }.record (.accepted key r)) := by
  refine ⟨⟨rfl, rfl, rfl, rfl, rfl, rfl⟩, hw.deed rfl rfl hd fun k => ?_, Or.inr ⟨_, rfl, hmay, hd⟩⟩
  show w.groups.messages k = _
  rw [hw.pages]
  by_cases hk : k = key
  · rw [hk, page_accept]
  · rw [page_cons_of_ne (by rintro ⟨⟩; exact hk rfl)]

theorem Faithful.of_group? {w : World κ} (hw : Faithful names w) {g : Group}
    (hg : w.groups.group? key = some g) :
    g.key = key ∧ g.messages = (page key w.history).messages := by
  rw [← hw.pages]
  exact GroupStore.of_group? hg

/-- What the calls of the store keep, the offers of outputs and whatever is counted, that every step
of the aggregator keeps. -/
theorem Aggregation.step_keeps {P : World κ → Prop} {carrier : Carrier κ} {a : Aggregator}
    {w : World κ} (hread : P (w.readGroup key).1) (happend : P (w.appendMessage key m).1)
    (hremove : ∀ ids, P (w.removeMessages key ids .released).1)
    (hmetrics : ∀ v metrics, P v → P { v with metrics := metrics })
    (hattempt : ∀ r : Release, P ({ w with channel := (carrier.delay w.channel).1 }.record
      (.attempted w.now r.message)))
    (haccept : ∀ (r : Release) channel, carrier.send w.channel r.message = (channel, .ok ()) →
      P ({ w with channel := channel }.record (.accepted key r)))
    (hrefuse : ∀ (r : Release) channel e, carrier.send w.channel r.message = (channel, .error e) →
      P { w with channel := channel })
    (hw : P w) (st : Aggregation.Stage) :
    (Aggregation.step carrier a key m w st).Ensures (fun v _ => P v) fun v _ => P v := by
  cases st with
  | read =>
    simp only [step]
    split <;> rename_i heq <;> rw [heq] at hread
    · exact hread
    · exact hread
    · split <;> exact hread
  | append =>
    simp only [step]
    split <;> rename_i heq <;> rw [heq] at happend
    · exact happend
    · exact hmetrics _ _ happend
  | decide g =>
    simp only [step]
    repeat' split
    all_goals exact hw
  | attempt r n => exact hattempt r
  | transit r n arrival =>
    simp only [step]
    split
    · trivial
    · exact hw
  | arrive r n =>
    simp only [step]
    split
    · next heq => exact haccept r _ heq
    · next heq =>
      have hrefused := hrefuse r _ _ heq
      unfold failed
      split
      · exact hmetrics _ _ hrefused
      · split
        · exact hmetrics _ _ (hmetrics _ _ hrefused)
        · exact hmetrics _ _ hrefused
  | pause r n wake =>
    simp only [step]
    split
    · trivial
    · exact hw
  | remove r =>
    have hremoved := hremove r.consumed
    simp only [step]
    split <;> rename_i heq <;> rw [heq] at hremoved
    · exact hremoved
    · show P (countReleased a _ r)
      unfold countReleased
      split
      · exact hmetrics _ _ hremoved
      · exact hremoved
  | reread =>
    simp only [step]
    split <;> rename_i heq <;> rw [heq] at hread <;> exact hread

/-- What an aggregating call relies on it finds again after each of its steps. -/
theorem Aggregation.step_ensures {carrier : Carrier κ} {retry : RetryPolicy}
    {timeout : Option Nat} {w : World κ} {st : Aggregation.Stage} (hw : Faithful names w)
    (hm : Pertains names key m) (hst : st.Grounded names key m (page key w.history)) :
    (Aggregation.step carrier (.default names retry timeout) key m w st).Ensures
      (fun w' st' => Worked names (Aggregation.May key m st) w w' ∧
        st'.Grounded names key m (page key w'.history))
      (fun w' _ => Worked names (Aggregation.May key m st) w w' ∧
        (page key w'.history).due = none) := by
  have hread : Worked names (Aggregation.May key m st) w (w.record (.asked .group)) :=
    .quiet hw ⟨rfl, rfl, rfl, rfl, rfl, rfl⟩ rfl rfl rfl
  have hsame : Worked names (Aggregation.May key m st) w w := .quiet hw (.refl w) rfl rfl rfl
  cases st with
  | read =>
    simp only [step, World.readGroup_eq hw.faultless]
    cases hg : w.groups.group? key with
    | none =>
      refine ⟨hread, hst, fun o ho => ?_⟩
      have hnil := hw.pages key ▸ GroupStore.messages_of_group?_none hg
      rw [show page key (w.record _).history = page key w.history from rfl, hnil] at ho
      cases ho
    | some g =>
      obtain ⟨hkey, hms⟩ := hw.of_group? hg
      dsimp only
      by_cases hc : g.contains m.id = true
      · rw [if_pos hc]
        exact ⟨hread, hst, hkey, hms⟩
      · rw [if_neg hc]
        refine ⟨hread, hst, fun o ho hid => hc ?_⟩
        rw [Group.contains, List.any_eq_true]
        exact ⟨o, hms ▸ ho, by simpa using hid⟩
  | append =>
    have hd : (Deed.append key m).Legal names w.history := ⟨hst.1, hst.2, hm⟩
    obtain ⟨w', g, happ, hk, hw', hh, -, hkey, hms⟩ := World.appendMessage_spec hw hd
    simp only [step, happ]
    refine ⟨⟨hk.trans ⟨rfl, rfl, rfl, rfl, rfl, rfl⟩, hw'.congr rfl rfl rfl,
      Or.inr ⟨_, hh, ⟨rfl, rfl⟩, hd⟩⟩, ?_, hkey, hms⟩
    show (page key w'.history).due = none
    rw [hh, page_append]
    exact hst.1
  | decide g =>
    obtain ⟨hdue, hkey, hms⟩ := hst
    simp only [step, Aggregator.default, Release.ready_eq_isSome, Release.processor,
      Release.ofGroup?_eq, hkey, hms]
    cases hr : Release.of? names key (page key w.history).messages with
    | none => exact ⟨hsame, hdue⟩
    | some r =>
      have hne : r.consumed.isEmpty = false := by
        simpa using Release.consumed_ne_nil hr
      simp only [Option.isSome_some, if_true, hne, Bool.false_eq_true, if_false]
      exact ⟨hsame, hdue, hr⟩
  | attempt r n =>
    have hoffer : Worked names (Aggregation.May key m (.attempt r n)) w
        ({ w with channel := (carrier.delay w.channel).1 }.record (.attempted w.now r.message)) :=
      .quiet hw ⟨rfl, rfl, rfl, rfl, rfl, rfl⟩ rfl rfl rfl
    simp only [step]
    cases (carrier.delay w.channel).2 with
    | none => exact ⟨hoffer, hst⟩
    | some millis => exact ⟨hoffer, hst⟩
  | transit r n arrival =>
    simp only [step]
    split
    · trivial
    · exact ⟨hsame, hst⟩
  | arrive r n =>
    simp only [step]
    cases hs : carrier.send w.channel r.message with
    | mk channel outcome =>
      cases outcome with
      | ok u =>
        refine ⟨.accept hw ⟨rfl, rfl⟩ hst, ?_, ?_⟩
        · show (page key (.accept key r :: w.history)).due = some r
          rw [page_accept]
        · show Release.of? names key (page key (.accept key r :: w.history)).messages = some r
          rw [page_accept]
          exact hst.2
      | error e =>
        dsimp only [failed]
        split
        · exact ⟨.quiet hw ⟨rfl, rfl, rfl, rfl, rfl, rfl⟩ rfl rfl rfl, hst⟩
        · split <;> exact ⟨.quiet hw ⟨rfl, rfl, rfl, rfl, rfl, rfl⟩ rfl rfl rfl, hst.1⟩
  | pause r n wake =>
    simp only [step]
    split
    · trivial
    · exact ⟨hsame, hst⟩
  | remove r =>
    obtain ⟨hdue, hr⟩ := hst
    have hd : (Deed.remove key r.consumed .released).Legal names w.history := ⟨r, hdue, rfl⟩
    have hne : (page key w.history).messages ≠ [] := by
      obtain ⟨sent, hsent, -⟩ := Release.sent_mem_consumed hr
      exact List.ne_nil_of_mem (List.mem_of_find?_eq_some hsent)
    obtain ⟨w', hrem, hk, hw', hh, -⟩ := World.removeMessages_spec hw hd hne
    simp only [step, hrem]
    have hcount : ∀ w : World κ, w.Kept (countReleased (.default names retry timeout) w r) ∧
        (countReleased (.default names retry timeout) w r).storeFaults = w.storeFaults ∧
        (countReleased (.default names retry timeout) w r).groups = w.groups ∧
        (countReleased (.default names retry timeout) w r).history = w.history := by
      intro w
      unfold countReleased
      split <;> exact ⟨⟨rfl, rfl, rfl, rfl, rfl, rfl⟩, rfl, rfl, rfl⟩
    obtain ⟨hk', hf', hg', hh'⟩ := hcount w'
    refine ⟨⟨hk.trans hk', hw'.congr hf' hg' hh', ?_⟩, ?_⟩
    · exact Or.inr ⟨_, hh'.trans hh, ⟨rfl, rfl, rfl⟩, hd⟩
    · show (page key (countReleased _ w' r).history).due = none
      rw [hh', hh, page_remove]
  | reread =>
    simp only [step, World.readGroup_eq hw.faultless]
    cases hg : w.groups.group? key with
    | none => exact ⟨hread, hst⟩
    | some g =>
      obtain ⟨hkey, hms⟩ := hw.of_group? hg
      exact ⟨hread, hst, hkey, hms⟩

/-- What a reconciling call relies on it finds again after each of its steps. -/
theorem Reconciliation.step_ensures {timeout : Option Nat} {w : World κ}
    {st : Reconciliation.Stage} (hw : Faithful names w)
    (hst : st.Grounded names (page key w.history)) :
    (Reconciliation.step (.default names timeout) key w st).Ensures
      (fun w' st' => Worked names (Reconciliation.May key st) w w' ∧
        st'.Grounded names (page key w'.history))
      (fun w' _ => Worked names (Reconciliation.May key st) w w' ∧
        (page key w'.history).due = none) := by
  cases st with
  | read =>
    have hread : Worked names (Reconciliation.May key .read) w (w.record (.asked .group)) :=
      .quiet hw ⟨rfl, rfl, rfl, rfl, rfl, rfl⟩ rfl rfl rfl
    simp only [step, World.readGroup_eq hw.faultless]
    cases hg : w.groups.group? key with
    | none => exact ⟨hread, hst⟩
    | some g =>
      have hstale : (Reconciler.default names timeout).stale g =
          stale names (page key w.history).messages := by
        rw [← (hw.of_group? hg).2]
        rfl
      dsimp only
      rw [hstale]
      by_cases hempty : (stale names (page key w.history).messages).isEmpty = true
      · rw [if_pos hempty]
        exact ⟨hread, hst⟩
      · rw [if_neg hempty]
        exact ⟨hread, hst, rfl, fun e => hempty (List.isEmpty_iff.mpr e)⟩
  | purge ids =>
    obtain ⟨hdue, hids, hne⟩ := hst
    have hd : (Deed.remove key ids .cancelled).Legal names w.history := ⟨hdue, hids⟩
    have hms : (page key w.history).messages ≠ [] := by
      intro hnil
      rw [hids, hnil] at hne
      exact hne rfl
    obtain ⟨w', hrem, hk, hw', hh, -⟩ := World.removeMessages_spec hw hd hms
    simp only [step, hrem]
    refine ⟨⟨hk.trans ⟨rfl, rfl, rfl, rfl, rfl, rfl⟩, hw'.congr rfl rfl rfl,
      Or.inr ⟨_, hh, ⟨rfl, rfl, rfl⟩, hd⟩⟩, ?_⟩
    show (page key w'.history).due = none
    rw [hh, page_remove]

end Rendezvous
