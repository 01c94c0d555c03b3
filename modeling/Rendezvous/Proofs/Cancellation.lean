/-
What a cancellation rules out.

A cancellation that returns has taken all registrations out of its group, at some moment after it
was let in.  A process can be started from one of them later only if it is appended once more.
With the idempotent receiver in front, that needs a delivery of it that failed: it withdrew the
claim, and the next delivery registers again what was cancelled (`revival_of_cancelled_start`).
-/
import Mathlib.Data.List.Infix
import Rendezvous.Proofs.Pairing
import Rendezvous.Proofs.Repetition

namespace Rendezvous

/-! ## Histories -/

variable {names : HeaderNames} {key : CorrelationKey}

/-- No registration is pending for a key. -/
def Unregistered (names : HeaderNames) (key : CorrelationKey) (h : List Deed) : Prop :=
  ∀ m ∈ (page key h).messages, m.isOf names .startDeployed = false

/-- Later than `since`, a start command was accepted for a key, and its subscriber was the
registration `d`, which was pending then. -/
def StartedFrom (names : HeaderNames) (key : CorrelationKey) (d : EventMessage)
    (since h : List Deed) : Prop :=
  ∃ (sent : EventMessage) (older : List Deed), Deed.accept key (Release.output names key .start
      (Release.startCommand sent.payload).encode d [sent.id]) :: older <:+ h ∧
    since <:+ older ∧ d ∈ (page key older).messages ∧ d.isOf names .startDeployed = true

/-- A registration came back: it had been appended in `old`, no registration was pending at some
moment later than `old`, and it was appended again after that; between the two appends a delivery
of it had failed. -/
def Revival (names : HeaderNames) (key : CorrelationKey) (id : Uuid) (old h : List Deed) : Prop :=
  ∃ (again first : EventMessage) (mid earlier cleared : List Deed), again.id = id ∧ first.id = id ∧
    Deed.append key again :: (mid ++ .append key first :: earlier) <:+ h ∧
    .append key first :: earlier <:+ old ∧ old <:+ cleared ∧
    cleared <:+ mid ++ .append key first :: earlier ∧ Unregistered names key cleared ∧
    Deed.settle id false ∈ mid

/-- A process is started from a registration that was taken out only if it came back. -/
theorem Revival.of_started {d first : EventMessage} {old cleared since h : List Deed}
    (hspaced : Spaced h) (hclear : Unregistered names key cleared) (hold : old <:+ cleared)
    (hcleared : cleared <:+ since) (hfirst : Deed.append key first ∈ old) (hid : first.id = d.id)
    (hstarted : StartedFrom names key d since h) : Revival names key d.id old h := by
  obtain ⟨sent, older, haccept, hsince, hpending, hregistration⟩ := hstarted
  obtain ⟨newer, rfl⟩ := hcleared.trans hsince
  -- it was pending when the command was made, and not when the registrations were out
  have hagain : Deed.append key d ∈ newer := by
    refine (append_mem_or_pending hpending).resolve_right fun h => ?_
    rw [hclear d h] at hregistration
    cases hregistration
  obtain ⟨late, mid, rfl⟩ := List.append_of_mem hagain
  obtain ⟨between, rfl⟩ := hold
  obtain ⟨begin, earlier, rfl⟩ := List.append_of_mem hfirst
  have hsuffix : .append key d :: (mid ++ (between ++ begin) ++ .append key first :: earlier) <:+
      h := by
    refine List.IsSuffix.trans ?_ ((List.suffix_cons _ _).trans haccept)
    exact ⟨late, by simp⟩
  obtain ⟨prior, rfl⟩ := hsuffix
  -- no message is appended twice unless a delivery of it failed in between
  have hfailed : Deed.settle d.id false ∈ mid ++ (between ++ begin) :=
    hspaced.of_append.1.settle_mem hid
  refine ⟨d, first, mid ++ (between ++ begin), earlier, _, rfl, hid, List.suffix_append _ _,
    List.suffix_append _ _, List.suffix_append _ _, ?_, hclear, hfailed⟩
  exact ⟨mid, by simp⟩

/-! ## A cancellation on its way -/

/-- Whether a call has still to reconcile the group of a key: it is a cancellation that was let in,
and its reconciliation has not ended. -/
def Sending.Cancelling (names : HeaderNames) (key : CorrelationKey) : Sending → Prop
  | running (.handling _ ⟨.enter m (.reconcile _ :: _), _⟩) => Cancels names key m
  | running (.handling _ ⟨.reconciling _ k m _ g, _⟩) =>
    k = key ∧ Cancels names key m ∧ ∀ t r, g ≠ .leaving t r
  | _ => False

variable {κ : Type} {carrier : Carrier κ} {core : Core} {w : World κ}

/-- The last step of a reconciliation leaves no registration behind. -/
theorem Reconciliation.step_unregistered {timeout : Option Nat} {st : Reconciliation.Stage}
    (hw : Faithful names w) (hst : st.Grounded names (page key w.history)) :
    (Reconciliation.step (.default names timeout) key w st).Ensures (fun _ _ => True)
      fun w' _ => Unregistered names key w'.history := by
  refine (Reconciliation.step_next hw hst).mono (fun _ _ _ => trivial) ?_
  rintro w' r ⟨-, -, haccount⟩
  have hmessages : (page key w'.history).messages =
      (page key w.history).messages.filter fun m => !m.isOf names .startDeployed := by
    have hnext := congrArg Account.messages (haccount fun _ => true)
    cases st with
    | read => exact hnext
    | purge ids =>
      obtain ⟨-, rfl, -⟩ := hst
      exact hnext.trans (hw.lawful.without_stale key)
  intro m hm
  rw [hmessages] at hm
  simpa using (List.mem_filter.mp hm).2

/-- How a cancellation fares: its reconciliation is still to end, or it left no registration behind
at some moment, or the call failed or was dropped. -/
inductive Cleared (names : HeaderNames) (key : CorrelationKey) (old : List Deed) (w : World κ)
    (c : Sending) : Prop
  | ahead (cancelling : c.Cancelling names key)
  | done (cleared : List Deed) (later : old <:+ cleared) (before : cleared <:+ w.history)
      (none : Unregistered names key cleared)
  | failed (fails : c.fails = true)

theorem Cleared.mono {old : List Deed} {w' : World κ} {c : Sending}
    (h : Cleared names key old w c) (hsuffix : w.history <:+ w'.history) :
    Cleared names key old w' c := by
  cases h with
  | ahead cancelling => exact .ahead cancelling
  | done cleared later before none => exact .done cleared later (before.trans hsuffix) none
  | failed fails => exact .failed fails

theorem Chain.step_cleared {c : Chain.Call} {since : Nat} {old : List Deed}
    (hw : Faithful names w) (hfits : c.stage.Fits names)
    (hg : (c.station names).Grounded w.history) (hold : old <:+ w.history)
    (hc : (Sending.running (.handling since c)).Cancelling names key) :
    (Chain.step carrier core w c).Ensures
      (fun w' c' => w.history <:+ w'.history →
        Cleared names key old w' (.running (.handling since c')))
      fun w' outcome => w.history <:+ w'.history →
        Cleared names key old w' (.returned (Flow.verdict outcome)) := by
  obtain ⟨stage, frames⟩ := c
  cases stage with
  | aggregating | leave => exact absurd hc not_false
  | enter m advices =>
    cases advices with
    | nil => exact absurd hc not_false
    | cons a rest =>
      cases a with
      | once | intercept => exact absurd hc not_false
      | reconcile r =>
        obtain ⟨timeout, rfl⟩ : ∃ timeout, r = .default names timeout := hfits _ List.mem_cons_self
        have hcancels : Cancels names key m := hc
        have hconcerns : (Reconciler.default names timeout).concerns m = true := hcancels.2
        have hkey : (Reconciler.default names timeout).correlation m.headers = .ok key := by
          show Correlation.ofHeader names m.headers = .ok key
          rw [Correlation.ofHeader, hcancels.1]
        simp only [step, cancelStep, hconcerns, if_true, hkey]
        exact fun _ => .ahead ⟨rfl, hcancels, fun t r h => by cases h⟩
  | reconciling r k m rest g =>
    obtain ⟨rfl, hcancels, hout⟩ := hc
    obtain ⟨⟨timeout, rfl⟩, -, -⟩ := hfits
    rw [step, Progress.ensures_andThen, reconcileStep, Progress.ensures_map]
    refine (Guarded.step_closes (Q := fun w' _ => Unregistered names k w'.history) ?_).mono ?_ ?_
    · rintro t s rfl
      exact Reconciliation.step_unregistered hw (hg k _ rfl)
    · rintro w' g' ⟨hdone, -⟩ hsuffix
      by_cases hg' : ∃ t r, g' = .leaving t r
      · obtain ⟨t, r, rfl⟩ := hg'
        exact .done _ (hold.trans hsuffix) (List.suffix_refl _) (hdone t r rfl)
      · exact .ahead ⟨rfl, hcancels, fun t r h => hg' ⟨t, r, h⟩⟩
    · rintro w' entry ⟨-, ⟨t, r, rfl, -⟩ | ⟨-, hentry⟩⟩
      · exact absurd rfl (hout t r)
      · cases entry with
        | ran r => exact absurd rfl (hentry r)
        | skipped | refused => exact fun _ => .failed rfl

/-- A failure is handed outwards until the call returns it. -/
theorem Flow.step_fails {f : Flow} {st : Flow.Stage} (h : (Sending.running st).fails = true) :
    (f.step carrier w st).Ensures (fun _ st' => (Sending.running st').fails = true)
      fun _ result => (Sending.returned result).fails = true := by
  unfold Sending.fails at h
  split at h
  · next since e frames heq =>
    obtain rfl := Sending.running.inj heq
    cases frames <;> rfl
  · next heq => cases heq
  · next heq => cases heq
  · cases h

theorem Flow.step_cleared {f : Flow} {st : Flow.Stage} {old : List Deed} (hw : Faithful names w)
    (hfits : st.Fits names) (hg : (st.station names).Grounded w.history)
    (hold : old <:+ w.history) (hc : Cleared names key old w (.running st)) :
    (f.step carrier w st).Ensures
      (fun w' st' => w.history <:+ w'.history → Cleared names key old w' (.running st'))
      fun w' result => w.history <:+ w'.history → Cleared names key old w' (.returned result) := by
  cases hc with
  | ahead hcancelling =>
    cases st with
    | arrived | rejecting => exact absurd hcancelling not_false
    | handling since call =>
      rw [step, Progress.ensures_andThen]
      refine (Chain.step_cleared hw hfits hg hold hcancelling).mono (fun _ _ h => h) ?_
      exact fun w' outcome h hsuffix => (h hsuffix).mono (List.suffix_refl _)
  | done cleared later before none =>
    have hdone {w' : World κ} {c' : Sending} (hsuffix : w.history <:+ w'.history) :
        Cleared names key old w' c' := .done cleared later (before.trans hsuffix) none
    cases f.step carrier w st with
    | waits => trivial
    | goes | pauses | resumes | ends => exact hdone
  | failed hfails =>
    exact (step_fails hfails).mono (fun _ _ h _ => .failed h) fun _ _ h _ => .failed h

/-- A move carries a cancellation on. -/
theorem Sound.cleared_of_move {f : Flow} {s s' : Traffic κ} {mv : Move} {i : Nat} {c : Sending}
    {old : List Deed} (hf : f.Standard names) (hs : Sound names s) (hold : old <:+ s.world.history)
    (hi : s.calls[i]? = some c) (hc : Cleared names key old s.world c)
    (h : s.move carrier f mv = some s') :
    ∃ c', s'.calls[i]? = some c' ∧ Cleared names key old s'.world c' := by
  have hsuffix := hs.suffix_of_move hf h
  have hstays : Cleared names key old s'.world c := hc.mono hsuffix
  cases Traffic.moved_of_move h with
  | @steps j st w' c' call step =>
    by_cases hij : i = j
    · subst hij
      obtain rfl : c = .running st := Option.some.inj (hi.symm.trans call)
      refine ⟨c', by rw [Traffic.getElem?_put call, if_pos rfl], ?_⟩
      exact Sending.of_after?
        (R := fun w c => s.world.history <:+ w.history → Cleared names key old w c)
        (Flow.step_cleared hs.faithful (hs.fits i _ call) (hs.grounded_of_call call) hold hc) step
        hsuffix
    · exact ⟨c, by rw [Traffic.getElem?_put call, if_neg hij, hi], hstays⟩
  | @drops j st desk call suspends =>
    by_cases hij : i = j
    · subst hij
      exact ⟨.dropped, by rw [Traffic.getElem?_put call, if_pos rfl], .failed rfl⟩
    · exact ⟨c, by rw [Traffic.getElem?_put call, if_neg hij, hi], hstays⟩
  | sends m =>
    refine ⟨c, ?_, hstays⟩
    rw [Traffic.getElem?_send, if_neg (Nat.ne_of_lt (List.getElem?_eq_some_iff.mp hi).1), hi]
  | quiet now desk silent idle => exact ⟨c, hi, hstays⟩

/-- A cancellation that returned well left no registration behind at some moment on its way. -/
theorem Sound.cleared_of_run {f : Flow} {s s' : Traffic κ} {moves : List Move} {i : Nat}
    {c : Sending} (hf : f.Standard names) (hs : Sound names s) (hi : s.calls[i]? = some c)
    (hc : c.Cancelling names key) (h : Traffic.run carrier f moves s = some s')
    (hreturned : s'.calls[i]? = some (.returned (.ok .handled))) :
    ∃ cleared, s.world.history <:+ cleared ∧ cleared <:+ s'.world.history ∧
      Unregistered names key cleared := by
  have hrun : Sound names s' ∧ s.world.history <:+ s'.world.history ∧
      ∃ c, s'.calls[i]? = some c ∧ Cleared names key s.world.history s'.world c := by
    refine Traffic.inv_of_run (I := fun t => Sound names t ∧
      s.world.history <:+ t.world.history ∧
        ∃ c, t.calls[i]? = some c ∧ Cleared names key s.world.history t.world c) ?_ h
      ⟨hs, List.suffix_refl _, c, hi, .ahead hc⟩
    rintro t mv t' - ⟨ht, hold, c, hi, hcleared⟩ hmv
    exact ⟨ht.move hf hmv, hold.trans (ht.suffix_of_move hf hmv),
      ht.cleared_of_move hf hold hi hcleared hmv⟩
  obtain ⟨-, -, c', hi', hcleared⟩ := hrun
  obtain rfl : c' = .returned (.ok .handled) := Option.some.inj (hi'.symm.trans hreturned)
  cases hcleared with
  | ahead cancelling => exact absurd cancelling not_false
  | done cleared later before none => exact ⟨cleared, later, before, none⟩
  | failed fails => cases fails

/-! ## Runs -/

/-- In every run of a flow with the idempotent receiver on, the memory of claims having room for
all identities, let a cancellation for a key be let in and return well.  A start command that is
accepted for the key later has a registration that was appended before the cancellation as its
subscriber only if this registration came back: a delivery of it had failed since it was appended,
and it was appended again after the registrations had been taken out. -/
theorem revival_of_cancelled_start {settings : FlowSettings} (honce : settings.idempotent = true)
    (hadvices : settings.advices = []) {channel : κ} {clock : Clock} {letters : DeadLetterQueue}
    {capacity : Nat} {before during after : List Move}
    (hroom : ((sentBy (before ++ during ++ after)).map Message.id).dedup.length ≤ capacity)
    {s₀ s₁ s₂ : Traffic κ}
    (h₀ : Traffic.run carrier settings.flow before
      (.start (.start channel clock (.ofCapacity capacity) letters)) = some s₀)
    (h₁ : Traffic.run carrier settings.flow during s₀ = some s₁)
    (h₂ : Traffic.run carrier settings.flow after s₁ = some s₂) {i : Nat} {c : Sending}
    (hi : s₀.calls[i]? = some c) (hc : c.Cancelling settings.names key)
    (hreturned : s₁.calls[i]? = some (.returned (.ok .handled))) {d first : EventMessage}
    (hfirst : Deed.append key first ∈ s₀.world.history) (hid : first.id = d.id)
    (hstarted : StartedFrom settings.names key d s₁.world.history s₂.world.history) :
    Revival settings.names key d.id s₀.world.history s₂.world.history := by
  have hf : settings.flow.Standard settings.names := FlowSettings.flow_standard_of_nil hadvices
  have hstart : Sound settings.names
      (.start (.start channel clock (.ofCapacity capacity) letters)) :=
    (Quiet.start _ _ _ _ _).sound
  have hrun : Traffic.run carrier settings.flow (before ++ during ++ after)
      (.start (.start channel clock (.ofCapacity capacity) letters)) = some s₂ := by
    rw [Traffic.run_append, Traffic.run_append, h₀]
    show (Traffic.run carrier settings.flow during s₀).bind _ = _
    rw [h₁]
    exact h₂
  obtain ⟨-, hholding⟩ := Holding.run (FlowSettings.flow_receiving honce hadvices) hf hstart
    (Holding.start hroom channel clock letters) (fun _ h => List.mem_dedup.mpr h) hrun
  obtain ⟨cleared, hold, hcleared, hnone⟩ :=
    (hstart.run hf h₀).cleared_of_run hf hi hc h₁ hreturned
  exact Revival.of_started hholding.spaced hnone hold hcleared hfirst hid hstarted

/-! ## A registration that comes back -/

def orderCancelled (id : Nat) : RawMessage :=
  orderPaid id .cancelled "\x7b\"name\":\"order-paid\"\x7d"

/-- A payment is there, a process is deployed that starts on it, and the start command is refused;
then a cancellation is let in. -/
def deployedInVain : List Move :=
  oneByOne 0 [(orderSent 1, 11), (orderDeployed 2, 13), (orderCancelled 3, 2)]

/-- After the cancellation, the deployment is sent again. -/
def deployedAgain : List Move := .send (orderDeployed 2) :: .replicate 16 (.step 3)

/-- Whether a call is a cancellation of the conversation that the receiver has just let in. -/
def Sending.cancelsOrder : Sending → Bool
  | running (.handling _ ⟨.enter m (.reconcile _ :: _), _⟩) =>
    m.headers.text? "correlationId" = some "order-paid:42" && m.isOf {} .cancelled
  | _ => false

/-- Whether a history of at least `n` deeds goes on with a start command for the conversation whose
subscriber is the deployment. -/
def startsOrder (n : Nat) : List Deed → Bool
  | .accept k _ :: older => k = "order-paid:42" && n ≤ older.length &&
      ((page k older).messages.find? (Message.isOf {} .waiting)).isNone &&
      ((page k older).messages.find? (Message.isOf {} .startDeployed)).any fun d => d.id = .ofNat 2
  | _ => false

/-- Whether a deed says that a message of an identity was appended to the group of a key. -/
def Deed.appends (key : CorrelationKey) (id : Uuid) : Deed → Bool
  | append k m => k = key && m.id = id
  | _ => false

theorem Deed.eq_of_appends {id : Uuid} {d : Deed} (h : d.appends key id = true) :
    ∃ m, d = .append key m ∧ m.id = id := by
  unfold appends at h
  split at h
  · next k m =>
    simp only [Bool.and_eq_true, decide_eq_true_eq] at h
    exact ⟨m, by rw [h.1], h.2⟩
  · cases h

theorem Sending.cancelling_of_cancelsOrder {c : Sending} (h : c.cancelsOrder = true) :
    c.Cancelling {} "order-paid:42" := by
  unfold cancelsOrder at h
  split at h
  · simp only [Bool.and_eq_true, decide_eq_true_eq] at h
    exact ⟨h.1, h.2⟩
  · cases h

theorem startedFrom_of_startsOrder {since h history : List Deed} (hl : Lawful {} history)
    (hsince : since <:+ history) (hh : h <:+ history) (hs : startsOrder since.length h = true) :
    ∃ d, d.id = .ofNat 2 ∧ StartedFrom {} "order-paid:42" d since history := by
  unfold startsOrder at hs
  split at hs
  · next k r older =>
    simp only [Bool.and_eq_true, decide_eq_true_eq, Option.isNone_iff_eq_none] at hs
    obtain ⟨⟨⟨rfl, hlen⟩, hnobody⟩, hd⟩ := hs
    obtain ⟨d, hfound, hid⟩ := (Option.any_eq_true _ _).mp hd
    obtain ⟨prior, rfl⟩ := hh
    obtain ⟨sent, -, ⟨waiting, hwaiting, -⟩ | ⟨-, d', hd', rfl⟩⟩ :=
      Release.of?_eq_some_iff.mp hl.of_append.1.2
    · rw [hnobody] at hwaiting
      cases hwaiting
    · obtain rfl : d = d' := Option.some.inj (hfound.symm.trans hd')
      refine ⟨d, of_decide_eq_true hid, sent, older, List.suffix_append _ _, ?_,
        List.mem_of_find?_eq_some hfound, List.find?_some hfound⟩
      exact List.suffix_of_suffix_length_le hsince
        ((List.suffix_cons _ _).trans (List.suffix_append _ _)) hlen
  · cases hs

set_option maxRecDepth 100000 in
theorem reviving_run : ∃ (s₀ s₁ s₂ : Traffic Outlet) (c : Sending) (d first : EventMessage),
    Traffic.run Outlet.carrier (FlowSettings.flow {}) deployedInVain
      (.start (.recording [some (.rejected "refused")])) = some s₀ ∧
    Traffic.run Outlet.carrier (FlowSettings.flow {}) (.replicate 8 (.step 2)) s₀ = some s₁ ∧
    Traffic.run Outlet.carrier (FlowSettings.flow {}) deployedAgain s₁ = some s₂ ∧
    s₀.calls[2]? = some c ∧ c.Cancelling {} "order-paid:42" ∧
    s₁.calls[2]? = some (.returned (.ok .handled)) ∧
    Deed.append "order-paid:42" first ∈ s₀.world.history ∧ first.id = d.id ∧
    StartedFrom {} "order-paid:42" d s₁.world.history s₂.world.history := by
  have hrun : (Traffic.run Outlet.carrier (FlowSettings.flow {}) deployedInVain
      (.start (.recording [some (.rejected "refused")]))).any (fun s₀ =>
        s₀.calls[2]?.any Sending.cancelsOrder &&
        s₀.world.history.any (Deed.appends "order-paid:42" (.ofNat 2)) &&
        (Traffic.run Outlet.carrier (FlowSettings.flow {}) (.replicate 8 (.step 2)) s₀).any
          fun s₁ => s₁.calls[2]?.any Sending.acknowledged &&
            (Traffic.run Outlet.carrier (FlowSettings.flow {}) deployedAgain s₁).any fun s₂ =>
              s₂.world.history.tails.any (startsOrder s₁.world.history.length)) = true := by
    decide +kernel
  obtain ⟨s₀, h₀, hstate⟩ := (Option.any_eq_true _ _).mp hrun
  simp only [Bool.and_eq_true] at hstate
  obtain ⟨⟨hcancels, happended⟩, hduring⟩ := hstate
  obtain ⟨s₁, h₁, hstate⟩ := (Option.any_eq_true _ _).mp hduring
  obtain ⟨hhandled, hafter⟩ := Bool.and_eq_true_iff.mp hstate
  obtain ⟨s₂, h₂, hstarts⟩ := (Option.any_eq_true _ _).mp hafter
  obtain ⟨c, hc, hcancels⟩ := (Option.any_eq_true _ _).mp hcancels
  obtain ⟨returned, hreturned, hhandled⟩ := (Option.any_eq_true _ _).mp hhandled
  rw [Sending.eq_of_acknowledged hhandled] at hreturned
  obtain ⟨deed, hdeed, happended⟩ := List.any_eq_true.mp happended
  obtain ⟨first, rfl, hfirst⟩ := Deed.eq_of_appends happended
  obtain ⟨h, hh, hstarts⟩ := List.any_eq_true.mp hstarts
  have hadvices : ({} : FlowSettings).advices = [] := rfl
  have hf : (FlowSettings.flow {}).Standard {} := FlowSettings.flow_standard_of_nil hadvices
  have hsound₁ : Sound {} s₁ := ((Quiet.start _ _ _ _ _).sound.run hf h₀).run hf h₁
  obtain ⟨d, hid, hstarted⟩ := startedFrom_of_startsOrder (hsound₁.run hf h₂).faithful.lawful
    (hsound₁.suffix_of_run hf h₂) ((List.mem_tails _ _).mp hh) hstarts
  exact ⟨s₀, s₁, s₂, c, d, first, h₀, h₁, h₂, hc, Sending.cancelling_of_cancelsOrder hcancels,
    hreturned, hdeed, hfirst.trans hid.symm, hstarted⟩

theorem revival_of_cancelled_start_refused : ∃ (s₀ s₂ : Traffic Outlet) (d : EventMessage),
    Traffic.run Outlet.carrier (FlowSettings.flow {}) deployedInVain
      (.start (.recording [some (.rejected "refused")])) = some s₀ ∧
    Revival {} "order-paid:42" d.id s₀.world.history s₂.world.history := by
  obtain ⟨s₀, s₁, s₂, c, d, first, h₀, h₁, h₂, hc, hcancelling, hreturned, hfirst, hid, hstarted⟩ :=
    reviving_run
  exact ⟨s₀, s₂, d, h₀, revival_of_cancelled_start rfl rfl (by decide) h₀ h₁ h₂ hc hcancelling
    hreturned hfirst hid hstarted⟩

/-- A cancellation that returned well does not see to it that no process is started from a
registration that was appended before. -/
theorem not_always_dead_after_cancellation : ¬∀ (faults : List (Option ChannelError))
    (before during after : List Move) (s₀ s₁ s₂ : Traffic Outlet) (i : Nat) (c : Sending)
    (key : CorrelationKey) (d first : EventMessage),
    ((sentBy (before ++ during ++ after)).map Message.id).dedup.length ≤ 10 →
    Traffic.run Outlet.carrier (FlowSettings.flow {}) before (.start (.recording faults)) =
      some s₀ →
    Traffic.run Outlet.carrier (FlowSettings.flow {}) during s₀ = some s₁ →
    Traffic.run Outlet.carrier (FlowSettings.flow {}) after s₁ = some s₂ →
    s₀.calls[i]? = some c → c.Cancelling {} key →
    s₁.calls[i]? = some (.returned (.ok .handled)) →
    Deed.append key first ∈ s₀.world.history → first.id = d.id →
    ¬StartedFrom {} key d s₁.world.history s₂.world.history := by
  intro hclaim
  obtain ⟨s₀, s₁, s₂, c, d, first, h₀, h₁, h₂, hc, hcancelling, hreturned, hfirst, hid, hstarted⟩ :=
    reviving_run
  exact hclaim _ _ _ _ s₀ s₁ s₂ 2 c _ d first (by decide) h₀ h₁ h₂ hc hcancelling hreturned hfirst
    hid hstarted

end Rendezvous
