/-
A call that is alone.

Nothing but the call takes steps, and time passes whenever it waits, until it returns.  Such a run
is a run of a traffic of one call, so everything that is known of traffic is known of it
(`Alone.exists_run`).  In a quiet world in which no interrupt is raised every call returns
(`exists_alone`): its lock is free, a group has fewer messages after each release, and the retries
of an output are counted.
-/
import Rendezvous.Proofs.Course

namespace Rendezvous

variable {κ : Type}

/-- A call of a stage runs alone until it returns. -/
inductive Alone (carrier : Carrier κ) (f : Flow) :
    World κ → Flow.Stage → World κ → Except FlowError FlowOutcome → Prop
  | returns {w st w' result}
      (step : Sending.after? (f.step carrier w st) = some (w', .returned result)) :
      Alone carrier f w st w' result
  | goes {w st w' st' v result}
      (step : Sending.after? (f.step carrier w st) = some (w', .running st'))
      (rest : Alone carrier f w' st' v result) : Alone carrier f w st v result
  | passes {w st now v result} (later : w.now ≤ now)
      (rest : Alone carrier f (w.setTime now) st v result) : Alone carrier f w st v result

variable {carrier : Carrier κ} {f : Flow} {w : World κ} {st : Flow.Stage}

/-- A move of a traffic of one call that is already made: a step of it, or time that passes. -/
def Move.Solitary : Move → Prop
  | .step i => i = 0
  | .pass _ => True
  | _ => False

/-- A call that runs alone is a traffic of one call. -/
theorem Alone.exists_run {v : World κ} {result : Except FlowError FlowOutcome}
    (h : Alone carrier f w st v result) : ∃ moves : List Move, (∀ mv ∈ moves, mv.Solitary) ∧
      Traffic.run carrier f moves ⟨w, [.running st]⟩ = some ⟨v, [.returned result]⟩ := by
  induction h with
  | returns step =>
    refine ⟨[.step 0], fun mv hmv => List.mem_singleton.mp hmv ▸ rfl, ?_⟩
    simp only [Traffic.run, Traffic.move, Traffic.stage?, List.getElem?_cons_zero, Option.bind_some,
      step, Option.map_some]
    rfl
  | goes step rest ih =>
    obtain ⟨moves, hmoves, hrun⟩ := ih
    refine ⟨.step 0 :: moves, fun mv hmv => ?_, ?_⟩
    · rcases List.mem_cons.mp hmv with rfl | hmv
      · rfl
      · exact hmoves mv hmv
    · simp only [Traffic.run, Traffic.move, Traffic.stage?, List.getElem?_cons_zero,
        Option.bind_some, step, Option.map_some]
      exact hrun
  | @passes w st now v result later rest ih =>
    obtain ⟨moves, hmoves, hrun⟩ := ih
    refine ⟨.pass now :: moves, fun mv hmv => ?_, ?_⟩
    · rcases List.mem_cons.mp hmv with rfl | hmv
      · trivial
      · exact hmoves mv hmv
    · rw [Traffic.run, Traffic.move, if_pos later, Option.bind_some]
      exact hrun

/-- What a call keeps until its last step, and what its last step brings about. -/
theorem Alone.ends {I : World κ → Flow.Stage → Prop}
    {Q : World κ → Except FlowError FlowOutcome → Prop}
    (hstep : ∀ w st, I w st → (f.step carrier w st).Ensures I Q)
    (htime : ∀ w st now, I w st → I (w.setTime now) st) {v : World κ}
    {result : Except FlowError FlowOutcome} (h : Alone carrier f w st v result) (hw : I w st) :
    Q v result := by
  have hafter {w w' : World κ} {st : Flow.Stage} {c : Sending} (hw : I w st)
      (hs : Sending.after? (f.step carrier w st) = some (w', c)) :
      (∀ st', c = .running st' → I w' st') ∧ ∀ result, c = .returned result → Q w' result := by
    have hafter := Sending.of_after? (R := fun w' c =>
      (∀ st', c = .running st' → I w' st') ∧ ∀ result, c = .returned result → Q w' result)
      ((hstep w st hw).mono ?_ ?_) hs
    · exact hafter
    · exact fun w' st' h => ⟨fun _ e => Sending.running.inj e ▸ h, fun _ e => by cases e⟩
    · exact fun w' r h => ⟨fun _ e => (by cases e), fun _ e => Sending.returned.inj e ▸ h⟩
  induction h with
  | returns step => exact (hafter hw step).2 _ rfl
  | goes step rest ih => exact ih ((hafter hw step).1 _ rfl)
  | passes later rest ih => exact ih (htime _ _ _ hw)

/-! ## Calls return -/

def Returns (carrier : Carrier κ) (f : Flow) (w : World κ) (st : Flow.Stage) : Prop :=
  ∃ v result, Alone carrier f w st v result

theorem Returns.of_goes {w' : World κ} {st' : Flow.Stage}
    (hstep : Sending.after? (f.step carrier w st) = some (w', .running st'))
    (h : Returns carrier f w' st') : Returns carrier f w st := by
  obtain ⟨v, result, h⟩ := h
  exact ⟨v, result, .goes hstep h⟩

theorem Returns.of_returns {w' : World κ} {result : Except FlowError FlowOutcome}
    (hstep : Sending.after? (f.step carrier w st) = some (w', .returned result)) :
    Returns carrier f w st :=
  ⟨w', result, .returns hstep⟩

/-- A call returns if it does not wait, and returns from wherever its next step leads. -/
theorem Returns.of_step
    (hnext : (f.step carrier w st).Proceeds (Returns carrier f) fun _ _ => True) :
    Returns carrier f w st := by
  cases hs : f.step carrier w st with
  | waits wake =>
    rw [hs] at hnext
    exact absurd hnext not_false
  | ends w' result => exact .of_returns (congrArg Sending.after? hs)
  | goes w' st' | pauses w' st' | resumes w' st' =>
    rw [hs] at hnext
    exact .of_goes (congrArg Sending.after? hs) hnext

theorem Returns.of_passes {now : Nat} (hnow : w.now ≤ now)
    (h : Returns carrier f (w.setTime now) st) : Returns carrier f w st := by
  obtain ⟨v, result, h⟩ := h
  exact ⟨v, result, .passes hnow h⟩

namespace Chain

variable {since : Nat} {frames : List Frame}

theorem returns_leave (outcome : Except HandlerError Unit) :
    Returns carrier f w (.handling since ⟨.leave outcome, frames⟩) := by
  induction frames generalizing w with
  | nil => exact .of_returns rfl
  | cons frame frames ih => exact .of_goes rfl ih

theorem returns_of_step {c c' : Call} {w' : World κ}
    (hstep : Chain.step carrier f.chain.core w c = .goes w' c')
    (h : Returns carrier f w' (.handling since c')) : Returns carrier f w (.handling since c) := by
  refine .of_goes ?_ h
  rw [Flow.step, hstep]
  rfl

section
variable {names : HeaderNames} {retry : RetryPolicy} {timeout : Option Nat} {key : CorrelationKey}
  {m : EventMessage} {t : Ticket}

def working (names : HeaderNames) (retry : RetryPolicy) (timeout : Option Nat)
    (key : CorrelationKey) (m : EventMessage) (since : Nat) (frames : List Frame) (t : Ticket)
    (st : Aggregation.Stage) : Flow.Stage :=
  .handling since ⟨.aggregating (.default names retry timeout) key m (.inside t st), frames⟩

/-- The call takes its steps as the work does, and leaves its lock when the work is over. -/
theorem step_working (st : Aggregation.Stage) :
    f.step carrier w (working names retry timeout key m since frames t st) =
      (Aggregation.step carrier (.default names retry timeout) key m w st).andThen
        (working names retry timeout key m since frames t) fun w' result =>
          .goes w' (.handling since
            ⟨.aggregating (.default names retry timeout) key m (.leaving t result), frames⟩) := by
  simp only [working, Flow.step, Chain.step, aggregateStep, Guarded.step]
  cases Aggregation.step carrier (.default names retry timeout) key m w st <;> rfl

/-- A call at work returns if it does not wait, and returns from wherever its work leads. -/
theorem returns_working {st : Aggregation.Stage} (hw : Faithful names w)
    (hm : Pertains names key m) (hst : st.Grounded names key m (page key w.history))
    (hnext : (Aggregation.step carrier (.default names retry timeout) key m w st).Proceeds
      (fun w' st' => Faithful names w' → st'.Grounded names key m (page key w'.history) →
        Returns carrier f w' (working names retry timeout key m since frames t st'))
      fun _ _ => True) :
    Returns carrier f w (working names retry timeout key m since frames t st) := by
  refine .of_step ?_
  rw [step_working, Progress.proceeds_andThen]
  refine (Aggregation.step_ensures hw hm hst).proceeds hnext ?_ fun w' result _ _ => ?_
  · exact fun w' st' h h' => h' h.1.faithful h.2
  · exact .of_goes rfl (returns_leave result)

theorem returns_transit {r : Release} {n arrival : Nat} (hw : Faithful names w)
    (hm : Pertains names key m)
    (hst : (Aggregation.Stage.transit r n arrival).Grounded names key m (page key w.history))
    (hnext : ∀ w' : World κ, Faithful names w' → w'.history = w.history →
      Returns carrier f w' (working names retry timeout key m since frames t (.arrive r n))) :
    Returns carrier f w
      (working names retry timeout key m since frames t (.transit r n arrival)) := by
  have hlate : ¬(w.setTime (max w.now arrival)).now < arrival :=
    Nat.not_lt.mpr (Nat.le_max_right _ _)
  refine .of_passes (Nat.le_max_left w.now arrival)
    (returns_working (hw.congr rfl rfl rfl) hm hst ?_)
  simp only [Aggregation.step, if_neg hlate]
  exact fun hw' _ => hnext _ hw' rfl

theorem returns_pause {r : Release} {n wake : Nat} (hw : Faithful names w)
    (hm : Pertains names key m)
    (hst : (Aggregation.Stage.pause r n wake).Grounded names key m (page key w.history))
    (hnext : ∀ w' : World κ, Faithful names w' → w'.history = w.history →
      Returns carrier f w'
        (working names retry timeout key m since frames t (.attempt r (n + 1)))) :
    Returns carrier f w (working names retry timeout key m since frames t (.pause r n wake)) := by
  have hlate : ¬(w.setTime (max w.now wake)).now < wake :=
    Nat.not_lt.mpr (Nat.le_max_right _ _)
  refine .of_passes (Nat.le_max_left w.now wake)
    (returns_working (hw.congr rfl rfl rfl) hm hst ?_)
  simp only [Aggregation.step, if_neg hlate]
  exact fun hw' _ => hnext _ hw' rfl

theorem returns_remove {r : Release} (hw : Faithful names w) (hm : Pertains names key m)
    (hst : (Aggregation.Stage.remove r).Grounded names key m (page key w.history))
    (hless : ∀ w' : World κ, Faithful names w' → (page key w'.history).due = none →
      (page key w'.history).messages.length < (page key w.history).messages.length →
      Returns carrier f w' (working names retry timeout key m since frames t .reread)) :
    Returns carrier f w (working names retry timeout key m since frames t (.remove r)) := by
  obtain ⟨hdue, hr⟩ := id hst
  have hd : (Deed.remove key r.consumed .released).Legal names w.history := ⟨r, hdue, rfl⟩
  have hne : (page key w.history).messages ≠ [] := by
    obtain ⟨sent, hsent, -⟩ := Release.sent_mem_consumed hr
    exact List.ne_nil_of_mem (List.mem_of_find?_eq_some hsent)
  obtain ⟨w', hrem, -, -, hh, -⟩ := World.removeMessages_spec hw hd hne
  have hcount : (Aggregation.countReleased (.default names retry timeout) w' r).history =
      w'.history := by
    unfold Aggregation.countReleased
    split <;> rfl
  refine returns_working hw hm hst ?_
  simp only [Aggregation.step, hrem]
  intro hw' hst'
  refine hless _ hw' hst' ?_
  rw [hcount, hh, page_remove]
  exact Release.length_without_consumed_lt hr

theorem returns_arrive {r : Release} {n : Nat} (hw : Faithful names w) (hm : Pertains names key m)
    (hst : (Aggregation.Stage.arrive r n).Grounded names key m (page key w.history))
    (hless : ∀ w' : World κ, Faithful names w' → (page key w'.history).due = none →
      (page key w'.history).messages.length < (page key w.history).messages.length →
      Returns carrier f w' (working names retry timeout key m since frames t .reread))
    (hretry : n < retry.maxRetries → ∀ w' : World κ, Faithful names w' → w'.history = w.history →
      Returns carrier f w'
        (working names retry timeout key m since frames t (.attempt r (n + 1)))) :
    Returns carrier f w (working names retry timeout key m since frames t (.arrive r n)) := by
  refine returns_working hw hm hst ?_
  simp only [Aggregation.step, Aggregation.failed]
  split
  · refine fun hw' hst' => returns_remove hw' hm hst' fun v hv hdue hlt => ?_
    refine hless v hv hdue (Nat.lt_of_lt_of_eq hlt ?_)
    show (page key (.accept key r :: w.history)).messages.length = _
    rw [page_accept]
  · split
    · next hretries =>
      have hlt : n < retry.maxRetries := by
        simp only [Aggregator.default, RetryPolicy.retries, Bool.and_eq_true] at hretries
        exact of_decide_eq_true hretries.2
      exact fun hw' hst' => returns_pause hw' hm hst' fun v hv hh => hretry hlt v hv hh
    · split <;> trivial

theorem returns_offer {r : Release} {n : Nat} (hw : Faithful names w) (hm : Pertains names key m)
    (hst : (Aggregation.Stage.attempt r n).Grounded names key m (page key w.history))
    (hless : ∀ w' : World κ, Faithful names w' → (page key w'.history).due = none →
      (page key w'.history).messages.length < (page key w.history).messages.length →
      Returns carrier f w' (working names retry timeout key m since frames t .reread))
    (hretry : n < retry.maxRetries → ∀ w' : World κ, Faithful names w' → w'.history = w.history →
      Returns carrier f w'
        (working names retry timeout key m since frames t (.attempt r (n + 1)))) :
    Returns carrier f w (working names retry timeout key m since frames t (.attempt r n)) := by
  have harrive (w' : World κ) (hw' : Faithful names w') (hh : w'.history = w.history) :
      Returns carrier f w' (working names retry timeout key m since frames t (.arrive r n)) := by
    refine returns_arrive hw' hm ?_ ?_ fun hlt v hv hhv => hretry hlt v hv (hhv.trans hh)
    · exact hh ▸ hst
    · exact hh ▸ hless
  refine returns_working hw hm hst ?_
  simp only [Aggregation.step]
  cases (carrier.delay w.channel).2 with
  | none => exact fun hw' _ => harrive _ hw' rfl
  | some millis => exact fun hw' hst' => returns_transit hw' hm hst' fun v hv hh => harrive v hv hh

/-- However many attempts are left, a call that offers an output returns, if it does with fewer
messages. -/
theorem returns_attempt {r : Release} {p : Page} (hm : Pertains names key m)
    (hless : ∀ w' : World κ, Faithful names w' → (page key w'.history).due = none →
      (page key w'.history).messages.length < p.messages.length →
      Returns carrier f w' (working names retry timeout key m since frames t .reread))
    (left n : Nat) (hleft : retry.maxRetries ≤ n + left) (hw : Faithful names w)
    (hst : (Aggregation.Stage.attempt r n).Grounded names key m p) (hp : page key w.history = p) :
    Returns carrier f w (working names retry timeout key m since frames t (.attempt r n)) := by
  induction left generalizing n w with
  | zero =>
    refine returns_offer hw hm (hp ▸ hst) (hp ▸ hless) fun hlt => ?_
    omega
  | succ left ih =>
    refine returns_offer hw hm (hp ▸ hst) (hp ▸ hless) fun _ v hv hh => ?_
    exact ih (n + 1) (by omega) hv hst (hh ▸ hp)

theorem returns_decide {g : Group} (hw : Faithful names w) (hm : Pertains names key m)
    (hst : (Aggregation.Stage.decide g).Grounded names key m (page key w.history))
    (hless : ∀ w' : World κ, Faithful names w' → (page key w'.history).due = none →
      (page key w'.history).messages.length < (page key w.history).messages.length →
      Returns carrier f w' (working names retry timeout key m since frames t .reread)) :
    Returns carrier f w (working names retry timeout key m since frames t (.decide g)) := by
  refine returns_working hw hm hst ?_
  simp only [Aggregation.step]
  split
  · split
    · trivial
    · trivial
    · split
      · trivial
      · have hleft : retry.maxRetries ≤ 0 + retry.maxRetries := by omega
        exact fun hw' hst' => returns_attempt hm hless retry.maxRetries 0 hleft hw' hst' rfl
  · trivial

/-- A call that reads its group again returns, however many messages are pending. -/
theorem returns_reread (hm : Pertains names key m) (L : Nat) (hw : Faithful names w)
    (hdue : (page key w.history).due = none) (hlen : (page key w.history).messages.length ≤ L) :
    Returns carrier f w (working names retry timeout key m since frames t .reread) := by
  -- the group is decided on, and then has fewer messages
  have hread {w : World κ} (hw : Faithful names w) (hdue : (page key w.history).due = none)
      (hless : ∀ w' : World κ, Faithful names w' → (page key w'.history).due = none →
        (page key w'.history).messages.length < (page key w.history).messages.length →
        Returns carrier f w' (working names retry timeout key m since frames t .reread)) :
      Returns carrier f w (working names retry timeout key m since frames t .reread) := by
    refine returns_working hw hm hdue ?_
    simp only [Aggregation.step, World.readGroup_eq hw.faultless]
    cases w.groups.group? key with
    | none => trivial
    | some g => exact fun hw' hst' => returns_decide hw' hm hst' hless
  induction L generalizing w with
  | zero =>
    exact hread hw hdue fun v _ _ hlt => absurd (Nat.lt_of_lt_of_le hlt hlen) (Nat.not_lt_zero _)
  | succ L ih =>
    exact hread hw hdue fun v hv hvdue hlt =>
      ih hv hvdue (Nat.le_of_lt_succ (Nat.lt_of_lt_of_le hlt hlen))

theorem returns_read (hw : Faithful names w) (hm : Pertains names key m)
    (hdue : (page key w.history).due = none) :
    Returns carrier f w (working names retry timeout key m since frames t .read) := by
  have hdecide {w' : World κ} {g : Group} (hw' : Faithful names w')
      (hst' : (Aggregation.Stage.decide g).Grounded names key m (page key w'.history)) :
      Returns carrier f w' (working names retry timeout key m since frames t (.decide g)) :=
    returns_decide hw' hm hst' fun v hv hvdue _ => returns_reread hm _ hv hvdue (Nat.le_refl _)
  have happend {w' : World κ} (hw' : Faithful names w')
      (hst' : Aggregation.Stage.append.Grounded names key m (page key w'.history)) :
      Returns carrier f w' (working names retry timeout key m since frames t .append) := by
    have hd : (Deed.append key m).Legal names w'.history := ⟨hst'.1, hst'.2, hm⟩
    obtain ⟨v, g, happ, -⟩ := World.appendMessage_spec hw' hd
    refine returns_working hw' hm hst' ?_
    simp only [Aggregation.step, happ]
    exact fun hv hst => hdecide hv hst
  refine returns_working hw hm hdue ?_
  simp only [Aggregation.step, World.readGroup_eq hw.faultless]
  cases w.groups.group? key with
  | none => exact fun hw' hst' => happend hw' hst'
  | some g =>
    dsimp only
    split
    · exact fun hw' hst' => hdecide hw' hst'
    · exact fun hw' hst' => happend hw' hst'

end

end Chain

/-! ## From the arrival of a message -/

theorem Quiet.free {names : HeaderNames} (hw : Quiet names w) (lk : String) :
    (w.desk.table.lock lk).holder = none := by
  cases hh : (w.desk.table.lock lk).holder with
  | none => rfl
  | some t =>
    obtain ⟨i, hi⟩ := hw.custody.held hh
    cases hi

/-- Calls that leave groups alone leave a quiet world quiet. -/
theorem Quiet.aside {names : HeaderNames} {w' : World κ} (hw : Quiet names w) (h : w.Aside w') :
    Quiet names w' :=
  ⟨h.desk ▸ hw.custody, hw.faithful.congr h.storeFaults h.groups h.history,
    fun key => h.history ▸ hw.settled key⟩

namespace Chain

variable {s : FlowSettings} {key : CorrelationKey} {e : EventMessage} {since : Nat}
  {frames : List Frame}

theorem request_granted (hw : Quiet s.names w) (hraised : w.desk.raised = false) (lk : String)
    (p : Patience) : ∃ d, w.desk.request lk p = (d, .granted w.desk.issued) :=
  (Desk.request_calm hraised lk p).resolve_right fun h => h.1 (hw.free lk)

theorem returns_aggregating (hw : Quiet s.names w) (hraised : w.desk.raised = false)
    (hm : Pertains s.names key e) :
    Returns carrier s.flow w (.handling since
      ⟨.aggregating (.default s.names s.retry s.lockTimeout) key e .asking, frames⟩) := by
  obtain ⟨d, hreq⟩ := request_granted hw hraised key.lockKey (Patience.ofTimeout s.lockTimeout)
  have hread : Returns carrier s.flow
      (Guarded.enter (Guarded.withDesk w d) key.lockKey w.desk.issued 0)
      (working s.names s.retry s.lockTimeout key e since frames w.desk.issued .read) :=
    returns_read (hw.faithful.congr rfl rfl rfl) hm (hw.settled key)
  refine returns_of_step ?_ hread
  simp only [Chain.step, aggregateStep, Guarded.step, Aggregator.default, hreq]
  rfl

theorem correlation_eq (hkey : e.headers.text? s.names.correlationId = some key) :
    Correlation.ofHeader s.names e.headers = .ok key := by
  rw [Correlation.ofHeader, hkey]

theorem returns_passed (hkey : e.headers.text? s.names.correlationId = some key)
    (he : e.isAggregated s.names = false) :
    Returns carrier s.flow w (.handling since ⟨.enter e [], frames⟩) := by
  have hparticipates :
      (Aggregator.default s.names s.retry s.lockTimeout).participates e = false := he
  have hstep : Chain.step carrier s.flow.chain.core w ⟨.enter e [], frames⟩ =
      .goes w ⟨.leave (.ok ()), frames⟩ := by
    simp only [Chain.step, coreStep, FlowSettings.flow, hparticipates, Bool.false_eq_true, if_false]
    simp only [Aggregator.default, correlation_eq hkey]
  exact returns_of_step hstep (returns_leave _)

def clearing (s : FlowSettings) (key : CorrelationKey) (e : EventMessage) (since : Nat)
    (frames : List Frame) (g : Guarded Reconciliation.Stage (Except HandlerError Nat)) :
    Flow.Stage :=
  .handling since ⟨.reconciling (.default s.names s.lockTimeout) key e [] g, frames⟩

theorem step_clearing (t : Ticket) (st : Reconciliation.Stage) :
    s.flow.step carrier w (clearing s key e since frames (.inside t st)) =
      (Reconciliation.step (.default s.names s.lockTimeout) key w st).andThen
        (fun st' => clearing s key e since frames (.inside t st')) fun w' result =>
          .goes w' (clearing s key e since frames (.leaving t result)) := by
  simp only [clearing, Flow.step, Chain.step, reconcileStep, Guarded.step]
  cases Reconciliation.step (.default s.names s.lockTimeout) key w st <;> rfl

theorem returns_clearing (hw : Quiet s.names w) (hraised : w.desk.raised = false)
    (hkey : e.headers.text? s.names.correlationId = some key)
    (he : e.isOf s.names .cancelled = true) :
    Returns carrier s.flow w (clearing s key e since frames .asking) := by
  have hleaving (w : World κ) (t : Ticket) (result : Except HandlerError Nat) :
      Returns carrier s.flow w (clearing s key e since frames (.leaving t result)) := by
    cases result with
    | ok n => exact .of_goes rfl (returns_passed hkey (Message.not_isAggregated_of_cancelled he))
    | error cause => exact .of_goes rfl (returns_leave _)
  have hpurge (w : World κ) (t : Ticket) (ids : List Uuid) :
      Returns carrier s.flow w (clearing s key e since frames (.inside t (.purge ids))) := by
    refine .of_step ?_
    rw [step_clearing, Progress.proceeds_andThen]
    simp only [Reconciliation.step]
    split <;> exact hleaving _ _ _
  have hread (w : World κ) (t : Ticket) :
      Returns carrier s.flow w (clearing s key e since frames (.inside t .read)) := by
    refine .of_step ?_
    rw [step_clearing, Progress.proceeds_andThen]
    simp only [Reconciliation.step]
    split
    · exact hleaving _ _ _
    · exact hleaving _ _ _
    · split
      · exact hleaving _ _ _
      · exact hpurge _ _ _
  obtain ⟨d, hreq⟩ := request_granted hw hraised key.lockKey (Patience.ofTimeout s.lockTimeout)
  refine returns_of_step ?_
    (hread (Guarded.enter (Guarded.withDesk w d) key.lockKey w.desk.issued 0)
    w.desk.issued)
  simp only [Chain.step, reconcileStep, Guarded.step, Reconciler.default, hreq]
  rfl

theorem returns_admitted (hw : Quiet s.names w) (hraised : w.desk.raised = false)
    (hkey : e.headers.text? s.names.correlationId = some key) :
    Returns carrier s.flow w
      (.handling since ⟨.enter e [.reconcile (.default s.names s.lockTimeout)], frames⟩) := by
  by_cases he : e.isOf s.names .cancelled = true
  · have hconcerns : (Reconciler.default s.names s.lockTimeout).concerns e = true := he
    have hcancel : cancelStep (.default s.names s.lockTimeout) e [] frames =
        ⟨.reconciling (.default s.names s.lockTimeout) key e [] .asking, frames⟩ := by
      simp only [cancelStep, hconcerns, if_true]
      simp only [Reconciler.default, correlation_eq hkey]
    exact returns_of_step (congrArg (Progress.goes w) hcancel)
      (returns_clearing hw hraised hkey he)
  · have hconcerns : ¬(Reconciler.default s.names s.lockTimeout).concerns e = true := he
    have hcore : Returns carrier s.flow w (.handling since ⟨.enter e [], frames⟩) := by
      cases ha : e.isAggregated s.names with
      | false => exact returns_passed hkey ha
      | true =>
        have hparticipates :
            (Aggregator.default s.names s.retry s.lockTimeout).participates e = true :=
          ha
        have hstep : Chain.step carrier s.flow.chain.core w ⟨.enter e [], frames⟩ = .goes w
            ⟨.aggregating (.default s.names s.retry s.lockTimeout) key e .asking, frames⟩ := by
          simp only [Chain.step, coreStep, FlowSettings.flow, hparticipates, if_true]
          simp only [Aggregator.default, correlation_eq hkey]
        exact returns_of_step hstep (returns_aggregating hw hraised ⟨hkey, ha⟩)
    have hcancel : cancelStep (.default s.names s.lockTimeout) e [] frames =
        ⟨.enter e [], frames⟩ := by
      rw [cancelStep, if_neg hconcerns]
    exact returns_of_step (congrArg (Progress.goes w) hcancel) hcore

theorem returns_begin (hadvices : s.advices = []) (hw : Quiet s.names w)
    (hraised : w.desk.raised = false) (hkey : e.headers.text? s.names.correlationId = some key) :
    Returns carrier s.flow w (.handling since (s.flow.chain.begin e)) := by
  have hadmitted (w : World κ) (hw : Quiet s.names w) (hraised : w.desk.raised = false)
      (frames : List Frame) : Returns carrier s.flow w
        (.handling since ⟨.enter e [.reconcile (.default s.names s.lockTimeout)], frames⟩) :=
    returns_admitted hw hraised hkey
  show Returns carrier s.flow w (.handling since ⟨.enter e s.chainAdvices, []⟩)
  rw [FlowSettings.chainAdvices, hadvices]
  split
  · -- the receiver lets the message in, or not
    have haside := (claimStep_spec w s.stamping e
      [.reconcile (.default s.names s.lockTimeout)] []).1
    have hcase : ∃ stage frames, (claimStep w s.stamping e
          [.reconcile (.default s.names s.lockTimeout)] []).2 = ⟨stage, frames⟩ ∧
        ((∃ o, stage = .leave o) ∨
          stage = .enter e [.reconcile (.default s.names s.lockTimeout)]) := by
      unfold claimStep
      dsimp only
      split
      · exact ⟨_, _, rfl, Or.inl ⟨_, rfl⟩⟩
      · exact ⟨_, _, rfl, Or.inl ⟨_, rfl⟩⟩
      · exact ⟨_, _, rfl, Or.inr rfl⟩
    obtain ⟨stage, frames, hc, ⟨o, rfl⟩ | rfl⟩ := hcase
    · exact returns_of_step (congrArg (Progress.goes _) hc) (returns_leave o)
    · exact returns_of_step (congrArg (Progress.goes _) hc)
        (hadmitted _ (hw.aside haside) (haside.desk ▸ hraised) frames)
  · exact hadmitted w hw hraised []

end Chain

/-- In a quiet world, with no interrupt raised, every message is handled. -/
theorem returns_arrived {s : FlowSettings} (hadvices : s.advices = []) (hw : Quiet s.names w)
    (hraised : w.desk.raised = false) (raw : RawMessage) :
    Returns carrier s.flow w (.arrived raw) := by
  have hrejecting (w : World κ) (m : RawMessage) (verdict : Except FlowError FlowOutcome) :
      Returns carrier s.flow w (.rejecting m verdict) := by
    refine .of_step ?_
    simp only [Flow.step]
    split <;> trivial
  refine .of_step ?_
  simp only [Flow.step]
  split
  · exact hrejecting _ _ _
  · exact hrejecting _ _ _
  · exact hrejecting _ _ _
  · next e hroute =>
    obtain ⟨key, hkey⟩ := Flow.key_of_route hroute
    exact Chain.returns_begin hadvices (hw.aside ⟨rfl, rfl, rfl, rfl⟩) hraised hkey

end Rendezvous
