/-
No matched pair is left behind.

A section of work that joins a message with the group of a key releases outputs for as long as the
group yields one, so when it ends well the group is settled: nothing was sent to it, or nobody
waits.  No other call can unsettle a settled group, because a reconciliation only takes messages
out.  Hence a group that could be released was left so by the last section that joined a message
with it, and that section is still at work, or failed, or its call was dropped.
-/
import Rendezvous.Proofs.Course
import Rendezvous.Proofs.Priming
import Rendezvous.Proofs.Trail

namespace Rendezvous

variable {κ : Type}

/-! ## Sections -/

/-- Whether work under a lock goes on inside it, or failed there. -/
def Guarded.unfinished {σ ε α : Type} : Guarded σ (Except ε α) → Bool
  | inside .. => true
  | leaving _ (.error _) => true
  | _ => false

theorem Guarded.entered_of_unfinished {σ ε α : Type} {g : Guarded σ (Except ε α)}
    (h : g.unfinished = true) : g.entered = true := by
  cases g with
  | inside | leaving => rfl
  | asking | lining | queued | givingUp => cases h

namespace Sending

/-- Whether a call is in the critical section of a key to join a message with its group. -/
def joins (key : CorrelationKey) : Sending → Bool
  | running (.handling _ ⟨.aggregating _ k _ g, _⟩) => g.entered && k = key
  | _ => false

/-- Whether a call is in the critical section of a key, to join a message or to reconcile. -/
def occupies (key : CorrelationKey) : Sending → Bool
  | running (.handling _ ⟨.reconciling _ k _ _ g, _⟩) => g.entered && k = key
  | c => c.joins key

/-- Whether a call was dropped, or failed: it returned an error, or is about to. -/
def fails : Sending → Bool
  | running (.handling _ ⟨.leave (.error _), _⟩) => true
  | returned (.error _) => true
  | dropped => true
  | _ => false

/-- Whether the handlers of a call are done and did not fail. -/
def succeeds : Sending → Bool
  | running (.handling _ ⟨.leave (.ok _), _⟩) => true
  | returned (.ok _) => true
  | _ => false

/-- Whether the work of a call on the group of a key goes on, or failed. -/
def unfinished (key : CorrelationKey) : Sending → Bool
  | running (.handling _ ⟨.aggregating _ k _ g, _⟩) => g.unfinished && k = key
  | c => c.fails

theorem fails_of_unfinished {key : CorrelationKey} {c : Sending}
    (h : c.unfinished key = true) (hout : c.joins key = false) : c.fails = true := by
  unfold unfinished at h
  split at h
  · next g _ =>
    cases g with
    | inside | leaving =>
      obtain ⟨-, hk⟩ : _ ∧ _ = key := by simpa using h
      simp [joins, Guarded.entered, hk] at hout
    | asking | lining | queued | givingUp => simp [Guarded.unfinished] at h
  · exact h

theorem not_joins_of_not_occupies {key : CorrelationKey} {c : Sending}
    (h : c.occupies key = false) : c.joins key = false := by
  unfold occupies at h
  split at h
  · rfl
  · exact h

theorem not_unfinished_of_succeeds {key : CorrelationKey} {c : Sending}
    (h : c.succeeds = true) : c.unfinished key = false := by
  unfold succeeds at h
  split at h
  · rfl
  · rfl
  · cases h

end Sending

namespace Traffic

/-- The call that a move brings into the critical section of a key to join a message. -/
def entering (key : CorrelationKey) (s s' : Traffic κ) : Move → List Nat
  | .step i =>
    if (s'.calls[i]?.any fun c => c.joins key) && !(s.calls[i]?.any fun c => c.joins key) then [i]
    else []
  | _ => []

/-- The calls that entered the critical section of a key to join a message, in the order in which
they did. -/
def entrants (carrier : Carrier κ) (f : Flow) (key : CorrelationKey) :
    List Move → Traffic κ → List Nat
  | [], _ => []
  | mv :: rest, s =>
    match s.move carrier f mv with
    | none => []
    | some s' => s.entering key s' mv ++ entrants carrier f key rest s'

theorem entrants_concat {carrier : Carrier κ} {f : Flow} {key : CorrelationKey}
    {before : List Move} {mv : Move} {s t t' : Traffic κ} (h : run carrier f before s = some t)
    (hmv : t.move carrier f mv = some t') : entrants carrier f key (before ++ [mv]) s =
      entrants carrier f key before s ++ t.entering key t' mv := by
  induction before generalizing s with
  | nil =>
    obtain rfl : s = t := Option.some.inj h
    simp only [List.nil_append, entrants, hmv, List.append_nil]
  | cons first rest ih =>
    obtain ⟨u, hu, h⟩ := Option.bind_eq_some_iff.mp h
    simp only [List.cons_append, entrants, hu, ih h, List.append_assoc]

end Traffic

/-! ## Steps -/

variable {names : HeaderNames} {key : CorrelationKey}

/-- Without an append, messages only leave. -/
theorem Grows.messages_subset {may : Deed → Prop} {h h' : List Deed} (hg : Grows names may h h')
    (hmay : ∀ m, ¬may (.append key m)) :
    (page key h').messages ⊆ (page key h).messages := by
  obtain rfl | ⟨d, rfl, hd, -⟩ := hg
  · exact List.Subset.refl _
  · by_cases hk : d.key? = some key
    · cases d with
      | append k m => exact absurd (Option.some.inj hk ▸ hd) (hmay m)
      | accept k r =>
        obtain rfl : k = key := Option.some.inj hk
        rw [page_accept]
        exact List.Subset.refl _
      | remove k ids why =>
        obtain rfl : k = key := Option.some.inj hk
        rw [page_remove]
        exact (without_sublist ids _).subset
      | settle => cases hk
    · rw [page_cons_of_ne hk]
      exact List.Subset.refl _

/-- What a step of a call may be for the group of a key: the call is in the critical section after
it, and if its work there is done the group is settled; or no message joins the group, and work
that was not done is not done. -/
inductive Passage (names : HeaderNames) (key : CorrelationKey) (w : World κ) (c : Sending)
    (w' : World κ) (c' : Sending) : Prop
  | within (joins : c'.joins key = true)
      (done : c'.unfinished key = true ∨ Settled names (page key w'.history).messages)
  | without (joins : c'.joins key = false)
      (subset : (page key w'.history).messages ⊆ (page key w.history).messages)
      (stays : c.unfinished key = true → c'.unfinished key = true)

theorem Passage.of_history {w w' : World κ} {c c' : Sending} (hjoins : c'.joins key = false)
    (hh : w'.history = w.history) (hstays : c.unfinished key = true → c'.unfinished key = true) :
    Passage names key w c w' c' :=
  .without hjoins (by rw [hh]; exact List.Subset.refl _) hstays

/-- The time that a call took is noted. -/
theorem Passage.time {w w' : World κ} {c c' : Sending} (h : Passage names key w c w' c')
    {t : Timing} {n : Nat} : Passage names key w c (w'.time t n) c' := by
  cases h with
  | within joins done => exact .within joins done
  | without joins subset stays => exact .without joins subset stays

/-- The last step of joining a message finds the group settled, unless it fails. -/
theorem Aggregation.step_settled {carrier : Carrier κ} {retry : RetryPolicy}
    {timeout : Option Nat} {m : EventMessage} {w : World κ} {st : Aggregation.Stage}
    (hw : Faithful names w) (hm : Pertains names key m)
    (hst : st.Grounded names key m (page key w.history)) :
    (Aggregation.step carrier (.default names retry timeout) key m w st).Ensures
      (fun _ _ => True)
      fun w' r => r = .ok () → Settled names (page key w'.history).messages := by
  refine (Aggregation.step_next hw hm hst).mono (fun _ _ _ => trivial) ?_
  rintro w' r h rfl
  obtain ⟨haccount, hstops⟩ := h (fun _ => true) rfl
  cases hstops with
  | done hnone _ =>
    rw [← haccount] at hnone
    exact Release.of?_eq_none_iff.mp hnone

namespace Chain

variable {carrier : Carrier κ} {core : Core} {w : World κ}

section
variable {retry : RetryPolicy} {timeout : Option Nat} {k : CorrelationKey} {m : EventMessage}
  {g : Guarded Aggregation.Stage (Except HandlerError Unit)}

/-- A call that joins its message with another group. -/
theorem aggregateStep_passage_of_ne (since : Nat) (frames : List Frame) (hk : k ≠ key)
    (hw : Faithful names w) (hm : Pertains names k m)
    (hg : (aggregatingStation names k m g).Grounded w.history) :
    (aggregateStep carrier (.default names retry timeout) k m w g).Ensures
      (fun w' g' => Passage names key w
        (.running (.handling since ⟨.aggregating (.default names retry timeout) k m g, frames⟩)) w'
        (.running (.handling since ⟨.aggregating (.default names retry timeout) k m g', frames⟩)))
      fun w' outcome => Passage names key w
        (.running (.handling since ⟨.aggregating (.default names retry timeout) k m g, frames⟩)) w'
        (.running (.handling since ⟨.leave outcome, frames⟩)) := by
  have hmay (o : EventMessage) : ¬(aggregatingStation names k m g).may (.append key o) := by
    intro h
    obtain ⟨-, t, rfl⟩ := of_append_of_aggregating h
    exact hk h.1.symm
  have hidle : ¬(Sending.running (.handling since
      ⟨.aggregating (.default names retry timeout) k m g, frames⟩)).unfinished key = true := by
    simp [Sending.unfinished, hk]
  refine (aggregateStep_stride hw hm hg).mono (fun w' g' h => ?_) fun w' outcome h => ?_
  · exact .without (by simp [Sending.joins, hk]) (h.grows.messages_subset hmay)
      fun hc => absurd hc hidle
  · exact .without rfl (h.grows.messages_subset hmay) fun hc => absurd hc hidle

/-- A call that joins its message with the group. -/
theorem aggregateStep_passage (since : Nat) (frames : List Frame) (hw : Faithful names w)
    (hm : Pertains names key m) (hg : (aggregatingStation names key m g).Grounded w.history) :
    (aggregateStep carrier (.default names retry timeout) key m w g).Ensures
      (fun w' g' => Passage names key w
        (.running (.handling since ⟨.aggregating (.default names retry timeout) key m g, frames⟩))
        w' (.running
          (.handling since ⟨.aggregating (.default names retry timeout) key m g', frames⟩)))
      fun w' outcome => Passage names key w
        (.running (.handling since ⟨.aggregating (.default names retry timeout) key m g, frames⟩))
        w' (.running (.handling since ⟨.leave outcome, frames⟩)) := by
  have hunfinished (h : (Sending.running (.handling since
      ⟨.aggregating (.default names retry timeout) key m g, frames⟩)).unfinished key = true) :
      g.unfinished = true := by simpa [Sending.unfinished] using h
  rw [aggregateStep, Progress.ensures_map]
  refine (Guarded.step_closes (Q := fun w' r => r = .ok () →
    Settled names (page key w'.history).messages) ?_).mono ?_ ?_
  · rintro t s rfl
    exact Aggregation.step_settled hw hm (hg key _ rfl)
  · rintro w' g' ⟨hdone, hout⟩
    cases hentered : g'.entered with
    | true =>
      refine .within (by simpa [Sending.joins] using hentered) ?_
      cases g' with
      | inside => exact Or.inl (by simp [Sending.unfinished, Guarded.unfinished])
      | leaving t r =>
        cases r with
        | ok => exact Or.inr (hdone t _ rfl rfl)
        | error e => exact Or.inl (by simp [Sending.unfinished, Guarded.unfinished])
      | asking | lining | queued | givingUp => cases hentered
    | false =>
      obtain ⟨hg', hh⟩ := hout hentered
      refine .of_history (by simpa [Sending.joins] using hentered) hh fun h => ?_
      rw [Guarded.entered_of_unfinished (hunfinished h)] at hg'
      cases hg'
  · rintro w' entry ⟨hh, ⟨t, r, rfl, rfl⟩ | ⟨hout, -⟩⟩
    · refine .of_history rfl hh fun h => ?_
      cases r with
      | ok => cases hunfinished h
      | error e => rfl
    · refine .of_history rfl hh fun h => ?_
      rw [Guarded.entered_of_unfinished (hunfinished h)] at hout
      cases hout

end

/-- What every step of a call of standard handlers is for the group of a key. -/
theorem step_passage {c : Call} (since : Nat) (hw : Faithful names w)
    (hfits : c.stage.Fits names) (hg : (c.station names).Grounded w.history) :
    (Chain.step carrier core w c).Ensures
      (fun w' c' => Passage names key w (.running (.handling since c)) w'
        (.running (.handling since c')))
      fun w' outcome => Passage names key w (.running (.handling since c)) w'
        (.returned (Flow.verdict outcome)) := by
  obtain ⟨stage, frames⟩ := c
  cases stage with
  | enter m advices =>
    -- whatever a message meets before its section leaves the history as it is
    have haside {w' : World κ} {c' : Call} {rest : List Advice} (h : w.Aside w' ∧
        ((∃ m', c'.stage = .enter m' rest) ∨ ∃ o, c'.stage = .leave o)) :
        Passage names key w (.running (.handling since ⟨.enter m advices, frames⟩)) w'
          (.running (.handling since c')) := by
      obtain ⟨stage, frames'⟩ := c'
      obtain ⟨h, ⟨m', hc⟩ | ⟨o, hc⟩⟩ := h <;> obtain rfl : stage = _ := hc
      all_goals exact .of_history rfl h.history fun hc => by cases hc
    cases advices with
    | nil =>
      simp only [step, coreStep]
      repeat' split
      all_goals exact .of_history rfl rfl fun hc => by cases hc
    | cons a rest =>
      cases a with
      | once stamping => exact haside (claimStep_spec w stamping m rest frames)
      | intercept i => exact haside (interceptStep_spec w i m rest frames)
      | reconcile r =>
        simp only [step, cancelStep]
        repeat' split
        all_goals exact .of_history rfl rfl fun hc => by cases hc
  | reconciling r k m rest g =>
    obtain ⟨⟨timeout, rfl⟩, -, -⟩ := hfits
    rw [step, Progress.ensures_andThen]
    refine (reconcileStep_stride hw hg).mono (fun w' g' h => ?_) fun w' outcome h => ?_
    · exact .without rfl (h.grows.messages_subset fun o => not_append_of_reconciling)
        fun hc => by cases hc
    · have hsubset : (page key w'.history).messages ⊆ (page key w.history).messages :=
        h.grows.messages_subset fun o => not_append_of_reconciling
      split
      · exact .without rfl hsubset fun hc => by cases hc
      · exact .without rfl hsubset fun hc => by cases hc
  | aggregating a k m g =>
    obtain ⟨⟨retry, timeout, rfl⟩, hm⟩ := hfits
    rw [step, Progress.ensures_andThen]
    by_cases hk : k = key
    · subst hk
      exact aggregateStep_passage since frames hw hm hg
    · exact aggregateStep_passage_of_ne since frames hk hw hm hg
  | leave outcome =>
    cases frames with
    | nil =>
      refine .of_history rfl rfl fun hc => ?_
      cases outcome with
      | ok => cases hc
      | error e => rfl
    | cons frame frames =>
      refine .without rfl ?_ fun hc => ?_
      · refine (leaveFrame_stride hw outcome frame frames).grows.messages_subset fun m h => ?_
        cases frame <;> cases h
      · cases outcome with
        | ok => cases hc
        | error e => rfl

end Chain

/-- What every step of a call of a standard flow is for the group of a key. -/
theorem Flow.step_passage {carrier : Carrier κ} {f : Flow} {w : World κ} {st : Flow.Stage}
    (hw : Faithful names w) (hfits : st.Fits names) (hg : (st.station names).Grounded w.history) :
    (f.step carrier w st).Ensures
      (fun w' st' => Passage names key w (.running st) w' (.running st'))
      fun w' r => Passage names key w (.running st) w' (.returned r) := by
  cases st with
  | arrived m =>
    simp only [step]
    split
    all_goals exact .of_history rfl rfl fun hc => by cases hc
  | rejecting m verdict =>
    have h := World.offer_aside w m
    simp only [step]
    split
    all_goals
      next heq =>
      rw [heq] at h
      exact .of_history rfl h.history fun hc => by cases hc
  | handling since call =>
    simp only [step]
    rw [Progress.ensures_andThen]
    exact (Chain.step_passage since hw hfits hg).mono (fun _ _ h => h) fun _ _ h => h.time

/-! ## Traffic -/

/-- The entrants of a key so far, and what is true of the last one: nobody else is in the critical
section to join a message, and if its work there is done the group is settled. -/
structure Paired (names : HeaderNames) (key : CorrelationKey) (entrants : List Nat)
    (s : Traffic κ) : Prop where
  alone : ∀ (i : Nat) c, s.calls[i]? = some c → c.joins key = true → entrants.getLast? = some i
  settled : Settled names (page key s.world.history).messages ∨
    ∃ i c, entrants.getLast? = some i ∧ s.calls[i]? = some c ∧ c.unfinished key = true

/-- A call that joins a message works on the group of the key. -/
theorem Sending.work_of_joins (names : HeaderNames) {c : Sending} (h : c.joins key = true) :
    ∃ ground, (c.station names).work = some (key, ground) := by
  unfold joins at h
  split at h
  · next k m g frames =>
    obtain ⟨hg, rfl⟩ : g.entered = true ∧ k = key := by simpa using h
    cases g with
    | inside | leaving => exact ⟨_, rfl⟩
    | asking | lining | queued | givingUp => cases hg
  · cases h

/-- No two calls join messages with one group. -/
theorem Sound.eq_of_joins {s : Traffic κ} (hs : Sound names s) {i j : Nat} {c d : Sending}
    (hi : s.calls[i]? = some c) (hj : s.calls[j]? = some d) (hc : c.joins key = true)
    (hd : d.joins key = true) : i = j := by
  obtain ⟨ground, hwork⟩ := Sending.work_of_joins names hc
  obtain ⟨ground', hwork'⟩ := Sending.work_of_joins names hd
  exact Sound.eq_of_work hs.custody (c.station_proper names) (d.station_proper names)
    (congrArg Station.post (Traffic.station_of_call hi))
    (congrArg Station.post (Traffic.station_of_call hj)) hwork hwork'

namespace Paired

variable {s s' : Traffic κ} {entrants : List Nat}

theorem start (names : HeaderNames) (key : CorrelationKey) (channel : κ) (clock : Clock)
    (claims : ClaimStore) (letters : DeadLetterQueue) :
    Paired names key [] (.start (.start channel clock claims letters) : Traffic κ) :=
  ⟨fun _ _ h => (by cases h), Or.inl (Or.inl fun _ h => by cases h)⟩

theorem put (hs : Paired names key entrants s) {i : Nat} {c c' : Sending} {w' : World κ}
    (hi : s.calls[i]? = some c) (hsound : Sound names (s.put i w' c'))
    (h : Passage names key s.world c w' c') :
    Paired names key
      (entrants ++ if c'.joins key && !c.joins key then [i] else []) (s.put i w' c') := by
  have hself : (s.put i w' c').calls[i]? = some c' := by
    rw [Traffic.getElem?_put hi, if_pos rfl]
  cases h with
  | within hjoins hdone =>
    -- the call that moves is the last entrant, be it that it was in the section or enters now
    have hlast : (entrants ++ if c'.joins key && !c.joins key then [i] else []).getLast? =
        some i := by
      cases hc : c.joins key with
      | true => simpa [hjoins] using hs.alone i c hi hc
      | false => simp [hjoins]
    refine ⟨fun j d hj hd => ?_, ?_⟩
    · rw [hsound.eq_of_joins hj hself hd hjoins]
      exact hlast
    · exact hdone.elim (fun h => Or.inr ⟨i, c', hlast, hself, h⟩) Or.inl
  | without hjoins hsubset hstays =>
    rw [hjoins, Bool.false_and, if_neg Bool.false_ne_true, List.append_nil]
    refine ⟨Traffic.forall_put hi hs.alone fun h => ?_, ?_⟩
    · rw [hjoins] at h
      cases h
    · rcases hs.settled with hsettled | ⟨l, d, hlast, hl, hd⟩
      · exact Or.inl (hsettled.mono hsubset)
      · by_cases hli : l = i
        · subst hli
          obtain rfl : c = d := Option.some.inj (hi.symm.trans hl)
          exact Or.inr ⟨l, c', hlast, hself, hstays hd⟩
        · refine Or.inr ⟨l, d, hlast, ?_, hd⟩
          rw [Traffic.getElem?_put hi, if_neg hli]
          exact hl

theorem move {carrier : Carrier κ} {f : Flow} {mv : Move} (hf : f.Standard names)
    (hsound : Sound names s) (hs : Paired names key entrants s)
    (h : s.move carrier f mv = some s') :
    Paired names key (entrants ++ s.entering key s' mv) s' := by
  have hsound' : Sound names s' := hsound.move hf h
  cases Traffic.moved_of_move h with
  | @steps i st w c call step =>
    have hpassage : Passage names key s.world (.running st) w c :=
      Sending.of_after? (R := fun w' c' => Passage names key s.world (.running st) w' c')
        (Flow.step_passage hsound.faithful (hsound.fits i _ call) (hsound.grounded_of_call call))
        step
    have hnext := hs.put call hsound' hpassage
    have hself : (s.put i w c).calls[i]? = some c := by
      rw [Traffic.getElem?_put call, if_pos rfl]
    simpa only [Traffic.entering, call, hself, Option.any_some] using hnext
  | drops desk call suspends =>
    have hnext := hs.put call hsound' (.of_history rfl rfl fun _ => rfl)
    simpa [Traffic.entering, Sending.joins] using hnext
  | sends m =>
    show Paired names key (entrants ++ []) _
    rw [List.append_nil]
    refine ⟨Traffic.forall_send m hs.alone fun h => (by cases h), hs.settled.imp id ?_⟩
    rintro ⟨l, c, hlast, hl, hc⟩
    refine ⟨l, c, hlast, ?_, hc⟩
    rw [Traffic.getElem?_send, if_neg (Nat.ne_of_lt (List.getElem?_eq_some_iff.mp hl).1)]
    exact hl
  | quiet now desk silent idle =>
    have hentering :
        s.entering key ⟨{ s.world with now := now, desk := desk }, s.calls⟩ mv = [] := by
      unfold Traffic.entering
      split
      · exact absurd rfl (idle _)
      · rfl
    rw [hentering, List.append_nil]
    exact ⟨hs.alone, hs.settled⟩

theorem run {carrier : Carrier κ} {f : Flow} {moves : List Move} (hf : f.Standard names)
    (hsound : Sound names s) (hs : Paired names key [] s)
    (h : Traffic.run carrier f moves s = some s') :
    Paired names key (Traffic.entrants carrier f key moves s) s' := by
  refine (Traffic.prefix_induction (I := fun before t =>
    Sound names t ∧ Paired names key (Traffic.entrants carrier f key before s) t)
    ⟨hsound, hs⟩ ?_ h).2
  rintro before mv t t' - hbefore ⟨ht, hpaired⟩ hmv
  rw [Traffic.entrants_concat hbefore hmv]
  exact ⟨ht.move hf hmv, hpaired.move hf ht hmv⟩

end Paired

/-- No matched pair is left behind, whatever the calls do and however they interleave, fail, time
out and are dropped.  If a group can be released and nobody is in the critical section of its key,
the last call that entered the section to join a message failed or was dropped.  In other words,
after a call that joined a message and succeeded there is no group or it cannot be released, until
the next call enters to join one. -/
theorem no_pair_left_behind {settings : FlowSettings}
    (hadvices : ∀ a ∈ settings.advices, a.Standard settings.names) {carrier : Carrier κ}
    {channel : κ} {clock : Clock} {claims : ClaimStore} {letters : DeadLetterQueue}
    {moves : List Move} {s : Traffic κ}
    (h : Traffic.run carrier settings.flow moves
      (.start (.start channel clock claims letters)) = some s) (key : CorrelationKey) :
    (∀ g, s.world.groups.group? key = some g → Release.ready settings.names g = true →
      (∀ c ∈ s.calls, c.occupies key = false) →
      ∃ i c, (Traffic.entrants carrier settings.flow key moves
          (.start (.start channel clock claims letters))).getLast? = some i ∧
        s.calls[i]? = some c ∧ c.fails = true) ∧
    ∀ i c, (Traffic.entrants carrier settings.flow key moves
        (.start (.start channel clock claims letters))).getLast? = some i →
      s.calls[i]? = some c → c.succeeds = true →
      ∀ g, s.world.groups.group? key = some g → Release.ready settings.names g = false := by
  have hf : settings.flow.Standard settings.names := FlowSettings.flow_standard hadvices
  have hstart : Sound settings.names (.start (.start channel clock claims letters)) :=
    (Quiet.start _ _ _ _ _).sound
  have hs : Sound settings.names s := hstart.run hf h
  have hpaired := (Paired.start settings.names key channel clock claims letters).run hf hstart h
  have hready {g : Group} (hg : s.world.groups.group? key = some g)
      (hsettled : Settled settings.names (page key s.world.history).messages) :
      Release.ready settings.names g = false := by
    obtain ⟨-, hms⟩ := hs.faithful.of_group? hg
    rw [Release.ready_eq_isSome, hms, Release.of?_eq_none_iff.mpr hsettled]
    rfl
  refine ⟨fun g hg hyields hfree => ?_, fun i c hlast hi hsucceeds g hg => ?_⟩
  · rcases hpaired.settled with hsettled | ⟨i, c, hlast, hi, hunfinished⟩
    · rw [hready hg hsettled] at hyields
      cases hyields
    · refine ⟨i, c, hlast, hi, Sending.fails_of_unfinished hunfinished ?_⟩
      exact Sending.not_joins_of_not_occupies (hfree c (List.mem_of_getElem? hi))
  · rcases hpaired.settled with hsettled | ⟨j, d, hlast', hj, hunfinished⟩
    · exact hready hg hsettled
    · obtain rfl : i = j := Option.some.inj (hlast.symm.trans hlast')
      obtain rfl : c = d := Option.some.inj (hi.symm.trans hj)
      rw [Sending.not_unfinished_of_succeeds hsucceeds] at hunfinished
      cases hunfinished

set_option maxRecDepth 100000 in
/-- A payment and the execution that waits for it stay together after the output was refused, and
the call of the payment, which was the last to join them, returned the error. -/
theorem no_pair_left_behind_refused : ∃ (s : Traffic Outlet) (g : Group) (i : Nat) (c : Sending),
    Traffic.run Outlet.carrier (FlowSettings.flow {})
      ([.send (orderAwaited 1), .send (orderSent 2)] ++ .replicate 11 (.step 0) ++
        .replicate 13 (.step 1)) (.start (.recording [some (.rejected "refused")])) = some s ∧
    s.world.groups.group? "order-paid:42" = some g ∧ Release.ready {} g = true ∧
    (Traffic.entrants Outlet.carrier (FlowSettings.flow {}) "order-paid:42"
      ([.send (orderAwaited 1), .send (orderSent 2)] ++ .replicate 11 (.step 0) ++
        .replicate 13 (.step 1)) (.start (.recording [some (.rejected "refused")]))).getLast? =
        some i ∧
    s.calls[i]? = some c ∧ c.fails = true := by
  have hrun : (Traffic.run Outlet.carrier (FlowSettings.flow {})
      ([.send (orderAwaited 1), .send (orderSent 2)] ++ .replicate 11 (.step 0) ++
        .replicate 13 (.step 1)) (.start (.recording [some (.rejected "refused")]))).any
      (fun s => (s.calls.all fun c => !c.occupies "order-paid:42") &&
        (s.world.groups.group? "order-paid:42").any fun g => Release.ready {} g) = true := by
    decide +kernel
  obtain ⟨s, hs, hstate⟩ := (Option.any_eq_true _ _).mp hrun
  obtain ⟨hfree, hgroup⟩ := Bool.and_eq_true_iff.mp hstate
  obtain ⟨g, hg, hready⟩ := (Option.any_eq_true _ _).mp hgroup
  have hadvices : ∀ a ∈ ({} : FlowSettings).advices, a.Standard {} := fun _ h => by cases h
  obtain ⟨i, c, hlast, hi, hfails⟩ := (no_pair_left_behind hadvices hs "order-paid:42").1 g hg
    hready fun c hc => by simpa using List.all_eq_true.mp hfree c hc
  exact ⟨s, g, i, c, hs, hg, hready, hlast, hi, hfails⟩

end Rendezvous
