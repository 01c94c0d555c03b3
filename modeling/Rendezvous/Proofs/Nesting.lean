/-
Handlers behind a receiver.

The frames of a call are a stack that its steps touch at the top only, so the handlers behind an
advice run as they would alone, and hand their outcome to the frame of the advice (`runs_under`).
Handlers without a receiver among them leave the claims alone.  Hence a call of a chain behind a
receiver is a delivery to the handlers that the rest of the chain makes (`deliversAll_of_runs`).
-/
import Rendezvous.Proofs.Idempotence
import Rendezvous.Proofs.Letters

namespace Rendezvous

/-- The task comes to its end in a world and with a result, and others change the world between its
steps within `amid`. -/
inductive Runs {ω σ ρ : Type} (step : ω → σ → Progress ω σ ρ) (amid : ω → ω → Prop) :
    ω → σ → ω → ρ → Prop
  | ends {w : ω} {s : σ} {v : ω} {r : ρ} (last : step w s = .ends v r) : Runs step amid w s v r
  | steps {w : ω} {s : σ} {v : ω} {t : σ} {u : ω} {r : ρ}
      (next : (step w s).next? = some (v, t)) (later : Runs step amid v t u r) :
      Runs step amid w s u r
  | amid {w v : ω} {s : σ} {u : ω} {r : ρ} (others : amid w v) (later : Runs step amid v s u r) :
      Runs step amid w s u r

variable {κ : Type} {carrier : Carrier κ} {w v u : World κ}

/-! ## Frames -/

namespace Chain

variable {core : Core} {c : Call} {frame : Frame} {frames outer : List Frame}
  {outcome : Except HandlerError Unit}

/-- The call of handlers behind others, which left their frames. -/
def Call.under (c : Call) (outer : List Frame) : Call := ⟨c.stage, c.frames ++ outer⟩

theorem coreStep_under (core : Core) (w : World κ) (m : EventMessage) (frames outer : List Frame) :
    coreStep core w m (frames ++ outer) =
      ((coreStep core w m frames).1, (coreStep core w m frames).2.under outer) := by
  cases core with
  | aggregate a =>
    simp only [coreStep]
    split
    · rfl
    · split <;> rfl
  | record =>
    simp only [coreStep]
    split <;> rfl

theorem claimStep_under (w : World κ) (stamping : Stamping) (m : EventMessage)
    (rest : List Advice) (frames outer : List Frame) :
    claimStep w stamping m rest (frames ++ outer) =
      ((claimStep w stamping m rest frames).1,
        (claimStep w stamping m rest frames).2.under outer) := by
  simp only [claimStep]
  split <;> rfl

theorem cancelStep_under (r : Reconciler) (m : EventMessage) (rest : List Advice)
    (frames outer : List Frame) :
    cancelStep r m rest (frames ++ outer) = (cancelStep r m rest frames).under outer := by
  unfold cancelStep
  split
  · split <;> rfl
  · rfl

theorem interceptStep_under (w : World κ) (i : Interceptor) (m : EventMessage)
    (rest : List Advice) (frames outer : List Frame) :
    interceptStep w i m rest (frames ++ outer) =
      ((interceptStep w i m rest frames).1, (interceptStep w i m rest frames).2.under outer) := by
  simp only [interceptStep]
  split <;> rfl

/-- Until the outcome is at the top of the stack, a step does not see the frames below. -/
theorem step_under (core : Core) (w : World κ) (outer : List Frame)
    (hc : ∀ outcome, c ≠ ⟨.leave outcome, []⟩) :
    Chain.step carrier core w (c.under outer) =
      (Chain.step carrier core w c).map (·.under outer) id := by
  obtain ⟨stage, frames⟩ := c
  cases stage with
  | enter m advices =>
    cases advices with
    | nil =>
      simp only [step, Call.under, coreStep_under]
      rfl
    | cons advice rest =>
      cases advice with
      | once stamping =>
        simp only [step, Call.under, claimStep_under]
        rfl
      | reconcile r =>
        simp only [step, Call.under, cancelStep_under]
        rfl
      | intercept i =>
        simp only [step, Call.under, interceptStep_under]
        rfl
  | reconciling r key m rest g =>
    simp only [step, Call.under]
    cases reconcileStep r key w g with
    | ends v result => cases result <;> rfl
    | waits | goes | pauses | resumes => rfl
  | aggregating a key m g =>
    simp only [step, Call.under]
    cases aggregateStep carrier a key m w g <;> rfl
  | leave outcome =>
    cases frames with
    | nil => exact absurd rfl (hc outcome)
    | cons frame frames => rfl

/-- A call ends when its outcome has passed all frames. -/
theorem eq_leave_of_ends (h : Chain.step carrier core w c = .ends v outcome) :
    c = ⟨.leave outcome, []⟩ ∧ v = w := by
  obtain ⟨stage, frames⟩ := c
  cases stage with
  | enter m advices =>
    cases advices with
    | nil => cases h
    | cons advice rest => cases advice <;> cases h
  | reconciling r key m rest g =>
    simp only [step] at h
    cases hg : reconcileStep r key w g with
    | ends v result =>
      rw [hg] at h
      cases result <;> cases h
    | waits | goes | pauses | resumes =>
      rw [hg] at h
      cases h
  | aggregating a key m g =>
    simp only [step] at h
    cases hg : aggregateStep carrier a key m w g <;> rw [hg] at h <;> cases h
  | leave result =>
    cases frames with
    | nil =>
      cases h
      exact ⟨rfl, rfl⟩
    | cons frame frames => cases h

/-- Handlers behind others run as they would alone, and hand their outcome to the next frame. -/
theorem runs_under {amid : World κ → World κ → Prop}
    (h : Runs (Chain.step carrier core) amid w (c.under (frame :: frames)) v outcome) :
    ∃ u result, Runs (Chain.step carrier core) amid w c u result ∧
      Runs (Chain.step carrier core) amid (leaveFrame u result frame) ⟨.leave result, frames⟩ v
        outcome := by
  generalize hcall : c.under (frame :: frames) = call at h
  induction h generalizing c with
  | @ends w call v outcome last =>
    subst hcall
    have hframes := congrArg Call.frames (eq_leave_of_ends last).1
    simp [Call.under] at hframes
  | @steps w call v t u outcome next later ih =>
    subst hcall
    by_cases hleave : ∃ result, c = ⟨.leave result, []⟩
    · obtain ⟨result, rfl⟩ := hleave
      cases next
      exact ⟨w, result, .ends rfl, later⟩
    · rw [step_under core w _ (not_exists.mp hleave)] at next
      obtain ⟨c', hnext, rfl⟩ : ∃ c', (Chain.step carrier core w c).next? = some (v, c') ∧
          c'.under (frame :: frames) = t := by
        cases hstep : Chain.step carrier core w c <;> rw [hstep] at next <;> cases next <;>
          exact ⟨_, rfl, rfl⟩
      obtain ⟨u', result, hrun, hrest⟩ := ih rfl
      exact ⟨u', result, .steps hnext hrun, hrest⟩
  | amid others later ih =>
    obtain ⟨u, result, hrun, hrest⟩ := ih hcall
    exact ⟨u, result, .amid others hrun, hrest⟩

end Chain

/-! ## Handlers that leave the claims alone -/

namespace World

namespace SameClaims

theorem refl (w : World κ) : w.SameClaims w := ⟨rfl, rfl⟩

theorem trans (h : u.SameClaims v) (h' : v.SameClaims w) : u.SameClaims w :=
  ⟨h'.claims.trans h.claims, h'.claimFaults.trans h.claimFaults⟩

end SameClaims

theorem Beyond.sameClaims (h : w.Beyond v) : w.SameClaims v := ⟨h.claims, h.claimFaults⟩

end World

namespace Chain

/-- The advices that are left. -/
def Stage.advices : Stage → List Advice
  | .enter _ advices => advices
  | .reconciling _ _ _ advices _ => advices
  | _ => []

/-- A call that has nothing to do with claims anymore. -/
structure Call.Free (c : Call) : Prop where
  advices : ∀ a ∈ c.stage.advices, ∀ stamping, a ≠ .once stamping
  frames : ∀ f ∈ c.frames, ∀ i, f ≠ .claimed i

theorem Call.Free.leave {c : Call} (h : c.Free) (outcome : Except HandlerError Unit) :
    Call.Free ⟨.leave outcome, c.frames⟩ :=
  ⟨fun _ ha => absurd ha List.not_mem_nil, h.frames⟩

theorem Call.Free.enter {c : Call} (h : c.Free) (m : EventMessage) {advices : List Advice}
    (hadvices : advices ⊆ c.stage.advices) : Call.Free ⟨.enter m advices, c.frames⟩ :=
  ⟨fun a ha => h.advices a (hadvices ha), h.frames⟩

theorem coreStep_claims (core : Core) (w : World κ) (m : EventMessage) {frames : List Frame}
    (hfree : Call.Free ⟨.enter m [], frames⟩) :
    w.SameClaims (coreStep core w m frames).1 ∧ (coreStep core w m frames).2.Free := by
  cases core with
  | aggregate a =>
    simp only [coreStep]
    split
    · exact ⟨.refl w, hfree.leave _⟩
    · split
      · exact ⟨.refl w, fun _ ha => absurd ha List.not_mem_nil, hfree.frames⟩
      · exact ⟨.refl w, hfree.leave _⟩
  | record =>
    simp only [coreStep]
    split <;> exact ⟨⟨rfl, rfl⟩, hfree.leave _⟩

theorem cancelStep_free {r : Reconciler} {m : EventMessage} {rest : List Advice}
    {frames : List Frame} (hfree : Call.Free ⟨.enter m (.reconcile r :: rest), frames⟩) :
    (cancelStep r m rest frames).Free := by
  have hrest : Call.Free ⟨.enter m rest, frames⟩ := hfree.enter m (List.subset_cons_self _ rest)
  unfold cancelStep
  split
  · split
    · exact hfree.leave _
    · exact ⟨hrest.advices, hrest.frames⟩
  · exact hrest

theorem interceptStep_claims (w : World κ) {i : Interceptor} {m : EventMessage}
    {rest : List Advice} {frames : List Frame}
    (hfree : Call.Free ⟨.enter m (.intercept i :: rest), frames⟩) :
    w.SameClaims (interceptStep w i m rest frames).1 ∧
      (interceptStep w i m rest frames).2.Free := by
  simp only [interceptStep]
  split
  · exact ⟨⟨rfl, rfl⟩, hfree.leave _⟩
  · exact ⟨⟨rfl, rfl⟩, hfree.leave _⟩
  · rename_i m' _
    have hrest := hfree.enter m' (List.subset_cons_self _ rest)
    refine ⟨⟨rfl, rfl⟩, hrest.advices, ?_⟩
    intro f hf id
    rcases List.mem_cons.mp hf with rfl | hf
    · exact fun h => by cases h
    · exact hrest.frames f hf id

/-- No step of handlers without a receiver among them has anything to do with the claims. -/
theorem step_claims (core : Core) {c : Call} (hfree : c.Free) :
    (Chain.step carrier core w c).Ensures (fun v c' => w.SameClaims v ∧ c'.Free)
      fun v _ => w.SameClaims v := by
  obtain ⟨stage, frames⟩ := c
  cases stage with
  | enter m advices =>
    cases advices with
    | nil => exact coreStep_claims core w m hfree
    | cons advice rest =>
      cases advice with
      | once stamping => exact absurd rfl (hfree.advices _ List.mem_cons_self stamping)
      | reconcile r => exact ⟨.refl w, cancelStep_free hfree⟩
      | intercept i => exact interceptStep_claims w hfree
  | reconciling r key m rest g =>
    rw [step, Progress.ensures_andThen, reconcileStep, Progress.ensures_map]
    refine (Guarded.step_beyond g fun s => Reconciliation.step_beyond r key s).mono
      (fun v g h => ⟨h.sameClaims, hfree.advices, hfree.frames⟩) fun v entry h => ?_
    split
    · exact ⟨h.sameClaims, hfree.advices, hfree.frames⟩
    · exact ⟨h.sameClaims, hfree.leave _⟩
  | aggregating a key m g =>
    rw [step, Progress.ensures_andThen, aggregateStep, Progress.ensures_map]
    exact (Guarded.step_beyond g fun s => Aggregation.step_beyond a key m s).mono
      (fun v g h => ⟨h.sameClaims, hfree.advices, hfree.frames⟩)
      fun v entry h => ⟨h.sameClaims, hfree.leave _⟩
  | leave outcome =>
    cases frames with
    | nil => exact .refl w
    | cons frame frames =>
      have hframes : ∀ f ∈ frames, ∀ i, f ≠ .claimed i :=
        fun f hf => hfree.frames f (List.mem_cons_of_mem frame hf)
      cases frame with
      | claimed i => exact absurd rfl (hfree.frames _ List.mem_cons_self i)
      | intercepted name =>
        exact ⟨⟨rfl, rfl⟩, fun _ ha => absurd ha List.not_mem_nil, hframes⟩

theorem runs_claims {core : Core} {c : Call} {outcome : Except HandlerError Unit}
    (h : Runs (Chain.step carrier core) World.SameClaims w c v outcome) (hfree : c.Free) :
    w.SameClaims v := by
  induction h with
  | ends last =>
    obtain ⟨-, rfl⟩ := eq_leave_of_ends last
    exact .refl _
  | steps next later ih =>
    obtain ⟨hsame, hfree'⟩ := (step_claims core hfree).of_next? next
    exact hsame.trans (ih hfree')
  | amid others later ih => exact others.trans (ih hfree)

/-- The handlers that the rest of a chain makes. -/
def handlers (carrier : Carrier κ) (core : Core) (rest : List Advice)
    (hrest : ∀ a ∈ rest, ∀ stamping, a ≠ .once stamping) : Handlers κ where
  lead w m v outcome :=
    Runs (Chain.step carrier core) World.SameClaims w ⟨.enter m rest, []⟩ v outcome
  sameClaims h := runs_claims h ⟨hrest, fun _ hf => absurd hf List.not_mem_nil⟩

/-- An outcome that has passed all frames is that of the call. -/
theorem runs_leave {core : Core} {result outcome : Except HandlerError Unit}
    (h : Runs (Chain.step carrier core) World.SameClaims w ⟨.leave result, []⟩ v outcome) :
    w.SameClaims v ∧ outcome = result := by
  generalize hcall : (⟨.leave result, []⟩ : Call) = call at h
  induction h with
  | ends last =>
    subst hcall
    cases last
    exact ⟨.refl _, rfl⟩
  | steps next later ih =>
    subst hcall
    cases next
  | amid others later ih =>
    obtain ⟨hsame, houtcome⟩ := ih hcall
    exact ⟨others.trans hsame, houtcome⟩

/-- A call of a chain behind a receiver is a delivery to the handlers that the rest of the chain
makes. -/
theorem deliversAll_of_runs {core : Core} {stamping : Stamping} {rest : List Advice}
    (hrest : ∀ a ∈ rest, ∀ stamping, a ≠ .once stamping) {m : EventMessage}
    {outcome : Except HandlerError Unit}
    (h : Runs (Chain.step carrier core) World.SameClaims w ⟨.enter m (.once stamping :: rest), []⟩ v
      outcome) :
    ∃ d, DeliversAll (handlers carrier core rest hrest) stamping rest w [m] [d] v ∧
      d.outcome = outcome := by
  generalize hcall : (⟨.enter m (.once stamping :: rest), []⟩ : Call) = call at h
  induction h with
  | ends last =>
    subst hcall
    cases last
  | amid others later ih =>
    obtain ⟨d, hdelivers, houtcome⟩ := ih hcall
    exact ⟨d, .amid others hdelivers, houtcome⟩
  | @steps w call v t u outcome next later ih =>
    subst hcall
    have hnext : some ((claimStep w stamping m rest []).1, (claimStep w stamping m rest []).2) =
        some (v, t) := next
    obtain ⟨rfl, rfl⟩ := Prod.mk.inj (Option.some.inj hnext)
    obtain ⟨result, haway⟩ | hin := claimStep_cases w stamping m rest []
    · rw [haway] at later
      obtain ⟨hsame, rfl⟩ := runs_leave later
      exact ⟨_, .cons (.turnedAway haway) (.amid hsame .nil), rfl⟩
    · rw [hin] at later
      have hunder : Runs (Chain.step carrier core) World.SameClaims
          (claimStep w stamping m rest []).1
          (Call.under ⟨.enter m rest, []⟩ (.claimed m.id :: [])) u outcome := later
      obtain ⟨u', result, hrun, hleave⟩ := runs_under hunder
      obtain ⟨hsame, rfl⟩ := runs_leave hleave
      exact ⟨_, .cons (.letIn hin hrun) (.amid hsame .nil), rfl⟩

end Chain
end Rendezvous
