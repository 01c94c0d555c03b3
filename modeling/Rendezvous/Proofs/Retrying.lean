/-
How often something is tried.

A run of retries calls its operation up to the first outcome that is final, a success or a failure
for good, and no further than the policy allows (`Retry.run_eq`).

The dispatch of an output is such a run, spread over the steps of the aggregator: an attempt begins,
is on its way, arrives, and after a failure that may pass there is a pause before the next one.  In
between others do what they like, with the channel too, so the answers that it gives are not known
beforehand.  A record of what was offered is kept beside the channel.  An induction on the retries
that are left shows that, whatever the answers are, the record is that of a run of retries on them
(`Aggregation.dispatches_attempt`).
-/
import Rendezvous.Proofs.Draining

namespace Rendezvous

/-! ## Retries -/

namespace Retry

variable {ε α : Type} {p : RetryPolicy} {retryable : ε → Bool} {outcome outcome' : Nat → Except ε α}
  {attempt left k : Nat}

/-- After such an outcome nothing is tried again: a success, or a failure for good. -/
def Final (retryable : ε → Bool) : Except ε α → Prop
  | .ok _ => True
  | .error e => retryable e = false

theorem run_of_final (h : Final retryable (outcome attempt)) (left : Nat) :
    run p retryable outcome attempt left = ⟨1, [], outcome attempt⟩ := by
  cases left with
  | zero => rfl
  | succ left =>
    rw [run]
    cases ho : outcome attempt with
    | ok a => rfl
    | error e =>
      rw [ho] at h
      have hfinal : retryable e = false := h
      simp only [hfinal, Bool.false_eq_true, if_false]

theorem run_of_not_final (h : ¬Final retryable (outcome attempt)) (left : Nat) :
    run p retryable outcome attempt (left + 1) =
      ⟨(run p retryable outcome (attempt + 1) left).calls + 1,
        p.delay attempt :: (run p retryable outcome (attempt + 1) left).delays,
        (run p retryable outcome (attempt + 1) left).outcome⟩ := by
  rw [run]
  cases ho : outcome attempt with
  | ok a =>
    rw [ho] at h
    exact absurd trivial h
  | error e =>
    rw [ho] at h
    have hretryable : retryable e = true := Bool.not_eq_false _ ▸ h
    simp only [hretryable, if_true]

/-- The calls go on to the first outcome that is final, or to the last retry. -/
theorem run_eq (hbefore : ∀ i < k, ¬Final retryable (outcome (attempt + i))) (hk : k ≤ left)
    (hlast : Final retryable (outcome (attempt + k)) ∨ k = left) :
    run p retryable outcome attempt left =
      ⟨k + 1, (List.range k).map fun i => p.delay (attempt + i), outcome (attempt + k)⟩ := by
  induction k generalizing attempt left with
  | zero =>
    rcases hlast with hfinal | rfl
    · exact run_of_final hfinal left
    · rfl
  | succ k ih =>
    obtain ⟨left, rfl⟩ := Nat.exists_eq_add_of_le' (Nat.le_trans (Nat.le_add_left 1 k) hk)
    have hshift (i : Nat) : attempt + (i + 1) = attempt + 1 + i := by omega
    have hrest : run p retryable outcome (attempt + 1) left = ⟨k + 1,
        (List.range k).map fun i => p.delay (attempt + 1 + i), outcome (attempt + 1 + k)⟩ :=
      ih (fun i hi => hshift i ▸ hbefore (i + 1) (by omega)) (by omega)
        (hlast.imp (fun h => hshift k ▸ h) fun h => by omega)
    have hfirst : ¬Final retryable (outcome attempt) := hbefore 0 (Nat.succ_pos k)
    have hdelays : (List.range (k + 1)).map (fun i => p.delay (attempt + i)) =
        p.delay attempt :: (List.range k).map fun i => p.delay (attempt + 1 + i) := by
      rw [List.range_succ_eq_map, List.map_cons, List.map_map]
      exact congrArg (p.delay attempt :: ·)
        (List.map_congr_left fun i _ => congrArg p.delay (hshift i))
    rw [run_of_not_final hfirst, hrest, hdelays, hshift k]

/-- There is a call after which no other is made. -/
theorem exists_isLeast (retryable : ε → Bool) (outcome : Nat → Except ε α) (retries : Nat) :
    ∃ k, IsLeast {i | Final retryable (outcome i) ∨ i = retries} k := by
  classical
  have hsome : ∃ i, Final retryable (outcome i) ∨ i = retries := ⟨retries, Or.inr rfl⟩
  exact ⟨Nat.find hsome, Nat.find_spec hsome, fun i hi => Nat.find_min' hsome hi⟩

theorem run_of_isLeast (h : IsLeast {i | Final retryable (outcome i) ∨ i = p.maxRetries} k) :
    run p retryable outcome 0 p.maxRetries =
      ⟨k + 1, (List.range k).map p.delay, outcome k⟩ := by
  have hbefore : ∀ i < k, ¬Final retryable (outcome (0 + i)) := fun i hi hfinal =>
    Nat.not_le.mpr hi (h.2 (Or.inl (Nat.zero_add i ▸ hfinal)))
  have hlast : Final retryable (outcome (0 + k)) ∨ k = p.maxRetries := (Nat.zero_add k).symm ▸ h.1
  have hrun : run p retryable outcome 0 p.maxRetries = _ :=
    run_eq hbefore (h.2 (Or.inr rfl)) hlast
  simpa only [Nat.zero_add] using hrun

/-- A run is told by the outcomes from its first call on. -/
theorem run_congr (h : ∀ i, attempt ≤ i → outcome i = outcome' i) :
    run p retryable outcome attempt left = run p retryable outcome' attempt left := by
  induction left generalizing attempt with
  | zero => rw [run, run, h attempt (Nat.le_refl _)]
  | succ left ih =>
    have hrest : run p retryable outcome (attempt + 1) left =
        run p retryable outcome' (attempt + 1) left := ih fun i hi => h i (Nat.le_of_succ_le hi)
    rw [run, run, h attempt (Nat.le_refl _), hrest]

end Retry

/-! ## The dispatch of an output -/

variable {κ : Type}

/-- What is offered when a message is dispatched with a number of retries, and what comes of it: the
same message each time, again only after a failure that may pass, and not once too often. -/
structure Offered (retries : Nat) (m : RawMessage) (record : List Offer)
    (result : Except HandlerError Unit) : Prop where
  same : ∀ o ∈ record, o.1 = m
  bounded : record.length ≤ retries + 1
  again : ∀ o ∈ record.dropLast, ∃ e, o.2 = .error e ∧ e.isTransient = true
  told : ∃ answer, record.getLast? = some (m, answer) ∧ result = answer.mapError .dispatch ∧
    (record.length = retries + 1 ∨ ∀ e, answer = .error e → e.isTransient = false)

namespace Aggregation

variable {carrier : Carrier κ} {a : Aggregator} {key : CorrelationKey} {m : EventMessage}
  {r : Release}

/-- The work of the aggregator up to the point at which an output was accepted. -/
def dispatch (carrier : Carrier κ) (a : Aggregator) (key : CorrelationKey) (m : EventMessage)
    (w : World κ) (st : Stage) : Progress (World κ) Stage (Except HandlerError Unit) :=
  match step carrier a key m w st with
  | .goes v (.remove _) => .ends v (.ok ())
  | progress => progress

theorem dispatch_attempt (r : Release) (attempt : Nat) (w : World κ) :
    dispatch carrier a key m w (.attempt r attempt) =
      step carrier a key m w (.attempt r attempt) := by
  simp only [dispatch, step]
  cases (carrier.delay w.channel).2 <;> rfl

theorem dispatch_transit (r : Release) (attempt : Nat) (w : World κ) (arrival : Nat) :
    dispatch carrier a key m w (.transit r attempt arrival) =
      step carrier a key m w (.transit r attempt arrival) := by
  simp only [dispatch, step]
  by_cases h : w.now < arrival
  · rw [if_pos h]
  · rw [if_neg h]

theorem dispatch_pause (r : Release) (attempt wake : Nat) (w : World κ) :
    dispatch carrier a key m w (.pause r attempt wake) =
      if w.now < wake then .waits (some wake) else .resumes w (.attempt r (attempt + 1)) := by
  simp only [dispatch, step]
  by_cases h : w.now < wake
  · rw [if_pos h]
  · rw [if_neg h]

/-- What a run of retries offers, from the attempt of a number on. -/
def offers (r : Release) (outcome : Nat → Except ChannelError Unit) (attempt calls : Nat) :
    List Offer :=
  (List.range calls).map fun i => (r.message, outcome (attempt + i))

theorem offers_succ (r : Release) (outcome : Nat → Except ChannelError Unit) (attempt calls : Nat) :
    offers r outcome attempt (calls + 1) =
      (r.message, outcome attempt) :: offers r outcome (attempt + 1) calls := by
  rw [offers, List.range_succ_eq_map, List.map_cons, List.map_map]
  refine congrArg ((r.message, outcome attempt) :: ·) (List.map_congr_left fun i _ => ?_)
  rw [Function.comp_apply, Nat.succ_eq_add_one, Nat.add_right_comm, Nat.add_assoc attempt i 1]

theorem offers_congr {outcome outcome' : Nat → Except ChannelError Unit} {attempt : Nat}
    (h : ∀ i, attempt ≤ i → outcome i = outcome' i) (calls : Nat) :
    offers r outcome attempt calls = offers r outcome' attempt calls :=
  List.map_congr_left fun i _ => congrArg (r.message, ·) (h _ (Nat.le_add_right attempt i))

/-- The answers of a channel make a run of retries, which was recorded behind what was there. -/
def Retried (a : Aggregator) (r : Release) (attempt left : Nat) (before : List Offer)
    (w : World (κ × List Offer)) (result : Except HandlerError Unit) : Prop :=
  ∃ outcome, let t := Retry.run a.retry ChannelError.isTransient outcome attempt left
    w.channel.2 = before ++ offers r outcome attempt t.calls ∧
      result = t.outcome.mapError .dispatch

/-- An answer that is not followed by another attempt. -/
theorem Retried.of_last {attempt left : Nat} {before : List Offer} {w : World (κ × List Offer)}
    (answer : Except ChannelError Unit)
    (hlast : Retry.Final ChannelError.isTransient answer ∨ left = 0)
    (hw : w.channel.2 = before ++ [(r.message, answer)]) :
    Retried a r attempt left before w (answer.mapError .dispatch) := by
  refine ⟨fun _ => answer, ?_⟩
  have hrun : Retry.run a.retry ChannelError.isTransient (fun _ => answer) attempt left =
      ⟨1, [], answer⟩ := by
    rcases hlast with hfinal | rfl
    · exact Retry.run_of_final hfinal left
    · rfl
  rw [hrun]
  exact ⟨hw, rfl⟩

/-- An answer that is followed by other attempts. -/
theorem Retried.of_next {attempt left : Nat} {before : List Offer} {w : World (κ × List Offer)}
    {e : ChannelError} {result : Except HandlerError Unit} (he : e.isTransient = true)
    (h : Retried a r (attempt + 1) left (before ++ [(r.message, .error e)]) w result) :
    Retried a r attempt (left + 1) before w result := by
  obtain ⟨outcome, hrecord, hresult⟩ := h
  -- the answers to the later attempts, with this one in front of them
  let answers := Function.update outcome attempt (.error e)
  have hthis : answers attempt = .error e := Function.update_self ..
  have hlater (i : Nat) (hi : attempt + 1 ≤ i) : outcome i = answers i :=
    (Function.update_of_ne (Nat.ne_of_gt hi) ..).symm
  have hnot : ¬Retry.Final ChannelError.isTransient (answers attempt) := by
    rw [hthis]
    exact fun hfinal => Bool.false_ne_true (hfinal.symm.trans he)
  refine ⟨answers, ?_⟩
  rw [Retry.run_of_not_final hnot, ← Retry.run_congr hlater]
  refine ⟨hrecord.trans ?_, hresult⟩
  rw [List.append_assoc, offers_succ, hthis, ← offers_congr hlater]
  rfl

/-- A failure that is not followed by another attempt ends the work, and is reported. -/
theorem failed_of_last {w : World κ} {attempt : Nat} {e : ChannelError}
    (h : a.retry.retries e.isTransient attempt = false) :
    ∃ v : World κ, failed a w r attempt e = .ends v (.error (.dispatch e)) ∧
      v.channel = w.channel := by
  refine ⟨_, by simp only [failed, h, Bool.false_eq_true, if_false]; rfl, ?_⟩
  cases e.isTransient <;> rfl

/-- An attempt arrives.  There is another one after a failure that may pass, if a retry is left. -/
theorem dispatches_arrive {before : List Offer} {w : World (κ × List Offer)} {left attempt : Nat}
    (hleft : attempt + left = a.retry.maxRetries) (hw : w.channel.2 = before)
    (hnext : ∀ later, left = later + 1 → ∀ record, ∀ v : World (κ × List Offer),
      v.channel.2 = record →
        Completes (dispatch carrier.recording a key m) World.Aloof
          (Retried a r (attempt + 1) later record) v (.attempt r (attempt + 1))) :
    Completes (dispatch carrier.recording a key m) World.Aloof (Retried a r attempt left before) w
      (.arrive r attempt) := by
  obtain ⟨channel, answer, hsend, hrecord⟩ : ∃ channel answer,
      carrier.recording.send w.channel r.message = (channel, answer) ∧
        channel.2 = before ++ [(r.message, answer)] := ⟨_, _, rfl, hw ▸ rfl⟩
  cases answer with
  | ok =>
    exact .ends (v := { w with channel := channel }.record (.accepted key r)) (r := .ok ())
      (by simp only [dispatch, step, hsend]) (.of_last (.ok ()) (.inl trivial) hrecord)
  | error e =>
    cases hretries : a.retry.retries e.isTransient attempt with
    | false =>
      obtain ⟨v, hfailed, hchannel⟩ :=
        failed_of_last (w := { w with channel := channel }) (r := r) hretries
      have hlast : e.isTransient = false ∨ left = 0 := by
        rcases Bool.and_eq_false_iff.mp hretries with hpermanent | hlt
        · exact .inl hpermanent
        · exact .inr (by have := of_decide_eq_false hlt; omega)
      exact .ends (v := v) (r := .error (.dispatch e))
        (by simp only [dispatch, step, hsend, hfailed])
        (.of_last (.error e) hlast (hchannel ▸ hrecord))
    | true =>
      obtain ⟨htransient, hlt⟩ := Bool.and_eq_true_iff.mp hretries
      obtain ⟨later, rfl⟩ := Nat.exists_eq_succ_of_ne_zero (n := left) fun hnone =>
        absurd (of_decide_eq_true hlt) (by omega)
      refine .steps
        (v := ({ w with channel := channel } : World (κ × List Offer)).count .retries)
        (t := .pause r attempt (w.now + a.retry.sleep attempt))
        (by simp only [dispatch, step, hsend, failed, hretries, if_true]; rfl) fun v hv => ?_
      have hwoken (u : World (κ × List Offer))
          (hu : u.channel.2 = before ++ [(r.message, .error e)]) :
          Completes (dispatch carrier.recording a key m) World.Aloof
            (Retried a r attempt (later + 1) before) u (.attempt r (attempt + 1)) :=
        (hnext later rfl _ u hu).mono fun _ _ => .of_next htransient
      exact .of_alarm (dispatch_pause r attempt _) (fun _ _ hu huv => Eq.trans huv hu) hwoken
        (Eq.trans hv hrecord)

/-- The induction is on the number of retries that are left. -/
theorem dispatches_attempt {before : List Offer} {w : World (κ × List Offer)} {left attempt : Nat}
    (hleft : attempt + left = a.retry.maxRetries) (hw : w.channel.2 = before) :
    Completes (dispatch carrier.recording a key m) World.Aloof (Retried a r attempt left before) w
      (.attempt r attempt) := by
  induction left generalizing w before attempt with
  | zero =>
    exact completes_attempt (fun v => v.channel.2 = before) (dispatch_attempt r attempt)
      (dispatch_transit r attempt) (fun _ _ hv hvu => Eq.trans hvu hv)
      (fun v hv => dispatches_arrive hleft hv fun _ hnone => by cases hnone) hw
  | succ left ih =>
    refine completes_attempt (fun v => v.channel.2 = before) (dispatch_attempt r attempt)
      (dispatch_transit r attempt) (fun _ _ hv hvu => Eq.trans hvu hv)
      (fun v hv => dispatches_arrive hleft hv fun later hlater record u hu => ?_) hw
    obtain rfl := Nat.succ.inj hlater
    exact ih (by omega) hu

/-- What a run of retries offers ends with an answer that is final, or with the last retry. -/
theorem Retried.offered {before : List Offer} {w : World (κ × List Offer)}
    {result : Except HandlerError Unit} (h : Retried a r 0 a.retry.maxRetries before w result) :
    ∃ record, w.channel.2 = before ++ record ∧
      Offered a.retry.maxRetries r.message record result := by
  obtain ⟨outcome, hrecord, hresult⟩ := h
  obtain ⟨k, hk⟩ := Retry.exists_isLeast ChannelError.isTransient outcome a.retry.maxRetries
  rw [Retry.run_of_isLeast hk] at hrecord hresult
  have hoffers : offers r outcome 0 (k + 1) =
      ((List.range k).map fun i => (r.message, outcome i)) ++ [(r.message, outcome k)] := by
    simp only [offers, Nat.zero_add, List.range_succ, List.map_append, List.map_cons, List.map_nil]
  have hlength : (offers r outcome 0 (k + 1)).length = k + 1 := by
    rw [offers, List.length_map, List.length_range]
  refine ⟨offers r outcome 0 (k + 1), hrecord, ?_, ?_, ?_, outcome k, ?_, hresult, ?_⟩
  · intro o ho
    obtain ⟨i, -, rfl⟩ := List.mem_map.mp ho
    rfl
  · rw [hlength]
    exact Nat.succ_le_succ (hk.2 (Or.inr rfl))
  · rw [hoffers, List.dropLast_concat]
    intro o ho
    obtain ⟨i, hi, rfl⟩ := List.mem_map.mp ho
    have hnot : ¬Retry.Final ChannelError.isTransient (outcome i) := fun hfinal =>
      Nat.not_le.mpr (List.mem_range.mp hi) (hk.2 (Or.inl hfinal))
    cases houtcome : outcome i with
    | ok => rw [houtcome] at hnot; exact absurd trivial hnot
    | error e =>
      rw [houtcome] at hnot
      exact ⟨e, rfl, Bool.not_eq_false _ ▸ hnot⟩
  · rw [hoffers, List.getLast?_concat]
  · rw [hlength]
    rcases hk.1 with hfinal | rfl
    · exact Or.inr fun e he => by rw [he] at hfinal; exact hfinal
    · exact Or.inl rfl

end Aggregation

/-- An operation is called up to its first outcome that is final, or to the last retry: the last
outcome is returned, and the delays in between are those of the policy, in their order.  So the
dispatch of an output comes to its end, whatever others do and whatever the channel answers. -/
theorem retries_until_settled :
    (∀ (ε α : Type) (p : RetryPolicy) (retryable : ε → Bool) (outcome : Nat → Except ε α),
      ∃ k, IsLeast {i | Retry.Final retryable (outcome i) ∨ i = p.maxRetries} k ∧
        Retry.run p retryable outcome 0 p.maxRetries =
          ⟨k + 1, (List.range k).map p.delay, outcome k⟩) ∧
    ∀ (κ : Type) (carrier : Carrier κ) (a : Aggregator) (key : CorrelationKey) (m : EventMessage)
      (r : Release) (w : World (κ × List Offer)),
      Completes (Aggregation.dispatch carrier.recording a key m) World.Aloof
        (fun v result => ∃ record, v.channel.2 = w.channel.2 ++ record ∧
          Offered a.retry.maxRetries r.message record result)
        w (.attempt r 0) := by
  constructor
  · intro ε α p retryable outcome
    obtain ⟨k, hk⟩ := Retry.exists_isLeast retryable outcome p.maxRetries
    exact ⟨k, hk, Retry.run_of_isLeast hk⟩
  · intro κ carrier a key m r w
    exact (Aggregation.dispatches_attempt (Nat.zero_add _) rfl).mono
      fun v result hretried => hretried.offered

end Rendezvous
