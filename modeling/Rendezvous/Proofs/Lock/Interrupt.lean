/-
Interrupts and the calls that wait.

An interrupt is a level, and a waiting call sees only what it is when the call takes its next step:
one that finds the interrupt raised gives up (`Visit.step?_of_raised`).  So a call that waits when
the interrupt is raised runs its operation later exactly if the interrupt was cleared, and the lock
handed to the call, before it took that step (`Crowd.runs_after_interrupt_iff`).
-/
import Rendezvous.Proofs.Lock.Template

namespace Rendezvous

variable {κ σ ρ : Type}

/-! ## Calls that wait, and calls outside of their operations -/

namespace Whereabouts

/-- The call is about to line up for its lock, or stands in the queue. -/
inductive Waiting : Whereabouts σ ρ → Prop
  | lining : Waiting (.running .lining)
  | queued (t since) : Waiting (.running (.queued t since))

/-- The call asked for its lock and was not let in. -/
inductive Outside : Whereabouts σ ρ → Prop
  | lining : Outside (.running .lining)
  | queued (t since) : Outside (.running (.queued t since))
  | givingUp (interrupted) : Outside (.running (.givingUp interrupted))
  | skipped : Outside (.returned .skipped)
  | refused (cause) : Outside (.returned (.refused cause))
  | dropped : Outside .dropped

theorem Waiting.outside {st : Whereabouts σ ρ} (h : st.Waiting) : st.Outside := by
  cases h with
  | lining => exact .lining
  | queued t since => exact .queued t since

end Whereabouts

namespace Visit

variable {d d' : Desk} {v : Visit σ ρ} {st : Whereabouts σ ρ} {w : World κ} {t : Ticket}
  {since : Nat}

/-- A call outside stays there, unless it is in the queue and the lock was handed to it. -/
theorem Turn.outside (h : v.Turn d d' st) (hv : v.state.Outside) :
    st.Outside ∨ ∃ t since s, v.state = .running (.queued t since) ∧
      st = .running (.inside t s) ∧ (d.table.lock v.key).holder = some t := by
  cases h with
  | takes state | turnsAway state | hesitates state | works state | finishes state
  | leaves state =>
    rw [state] at hv
    cases hv
  | finds | linesUp => exact Or.inl (.queued _ _)
  | @enters t since s state handed => exact Or.inr ⟨t, since, s, state, rfl, handed⟩
  | givesUp => exact Or.inl (.givingUp _)
  | @returns interrupted e state entry =>
    subst entry
    cases interrupted with
    | true => exact Or.inl (.refused _)
    | false => exact Or.inl .skipped
  | dropsOut | drops => exact Or.inl .dropped

theorem step?_of_queued (doing : Doing κ σ ρ) (hv : v.state = .running (.queued t since)) :
    v.step? doing w = Whereabouts.after?
      (Guarded.step v.key v.patience v.start doing.step w (.queued t since)) := by
  rw [step?, hv]

/-- A call in the queue that sees the interrupt raised gives up, even if it holds the lock. -/
theorem step?_of_raised (doing : Doing κ σ ρ) (hv : v.state = .running (.queued t since))
    (hraised : w.desk.raised = true) :
    v.step? doing w =
      some (Guarded.withDesk w (w.desk.leave v.key t), .running (.givingUp true)) := by
  have hcheck : w.desk.check v.key t (v.patience.deadline since) w.now =
      (w.desk.leave v.key t, .interrupted) := if_pos hraised
  rw [step?_of_queued doing hv, Guarded.step, hcheck]
  rfl

/-- A call in the queue that holds the lock, and sees no interrupt, begins its operation. -/
theorem step?_of_handed (doing : Doing κ σ ρ) (hv : v.state = .running (.queued t since))
    (hlowered : w.desk.raised = false) (hhanded : (w.desk.table.lock v.key).holder = some t) :
    ∃ w', v.step? doing w = some (w', .running (.inside t v.start)) := by
  have hcheck : w.desk.check v.key t (v.patience.deadline since) w.now = (w.desk, .granted) := by
    unfold Desk.check
    rw [hlowered, if_neg Bool.false_ne_true, if_pos (by simp [LockTable.holds, hhanded])]
  rw [step?_of_queued doing hv, Guarded.step, hcheck]
  exact ⟨_, rfl⟩

end Visit

namespace Crowd

variable {s s' : Crowd κ σ ρ} {mv : Move κ σ ρ} {moves : List (Move κ σ ρ)} {i : Nat}
  {key : String}

def Waiting (s : Crowd κ σ ρ) (i : Nat) : Prop := ∃ v, s.visits[i]? = some v ∧ v.state.Waiting

def Outside (s : Crowd κ σ ρ) (i : Nat) : Prop := ∃ v, s.visits[i]? = some v ∧ v.state.Outside

/-! ## The level of the interrupt -/

def interrupted (s : Crowd κ σ ρ) : Crowd κ σ ρ :=
  ⟨{ s.world with desk := s.world.desk.interrupt }, s.visits⟩

theorem run_interrupt (moves : List (Move κ σ ρ)) (s : Crowd κ σ ρ) :
    run (.interrupt :: moves) s = run moves s.interrupted := rfl

theorem raised_of_move (h : s.move mv = some s') (hmv : mv ≠ .clear)
    (hs : s.world.desk.raised = true) : s'.world.desk.raised = true := by
  cases mv with
  | call key p start => exact Option.some.inj h ▸ hs
  | step i doing =>
    obtain ⟨v, w, st, hv, hstep, rfl⟩ := step_of_move h
    exact (Visit.turn_of_step hstep).dealing.raised.trans hs
  | drop i =>
    obtain ⟨v, w, hv, hdrop, rfl⟩ := drop_of_move h
    exact (Visit.turn_of_drop hdrop).dealing.raised.trans hs
  | pass now => exact pass_of_move h ▸ hs
  | interrupt => exact Option.some.inj h ▸ rfl
  | clear => exact absurd rfl hmv

/-- Nothing but a clear lowers the interrupt. -/
theorem clear_mem_of_run (h : run moves s = some s') (hs : s.world.desk.raised = true)
    (hs' : s'.world.desk.raised = false) : .clear ∈ moves := by
  induction moves generalizing s with
  | nil =>
    obtain rfl := Option.some.inj h
    rw [hs] at hs'
    cases hs'
  | cons mv rest ih =>
    obtain ⟨t, ht, h⟩ := Option.bind_eq_some_iff.mp h
    by_cases hmv : mv = .clear
    · exact hmv ▸ List.mem_cons_self
    · exact List.mem_cons_of_mem _ (ih h (raised_of_move ht hmv hs))

/-! ## Getting in -/

theorem not_within_of_outside (hi : s.Outside i) : ¬s.Within i key := by
  rintro ⟨t, ht⟩
  obtain ⟨v, hv, hout⟩ := hi
  rw [post_of_visit hv, Visit.post] at ht
  generalize v.state = st at hout ht
  cases hout <;> cases ht

/-- A call outside gets in by a step of its own that finds the lock with it and the interrupt
lowered. -/
theorem outside_of_move (h : s.move mv = some s') (hi : s.Outside i) :
    s'.Outside i ∨ ∃ doing key, mv = .step i doing ∧ s.world.desk.raised = false ∧
      s.Granted i key := by
  obtain ⟨v, hv, hout⟩ := hi
  -- a turn of another call leaves this one where it is
  have hput {j : Nat} {u : Visit σ ρ} {w : World κ} {st : Whereabouts σ ρ}
      (hu : s.visits[j]? = some u) (hst : i = j → st.Outside) :
      (s.put j w { u with state := st }).Outside i := by
    by_cases hij : i = j
    · exact ⟨{ u with state := st }, by rw [getElem?_put hu, if_pos hij], hst hij⟩
    · exact ⟨v, by rw [getElem?_put hu, if_neg hij, hv], hout⟩
  cases mv with
  | call key p start =>
    obtain rfl := Option.some.inj h
    have hlt : i < s.visits.length := (List.getElem?_eq_some_iff.mp hv).1
    exact Or.inl ⟨v, by rw [getElem?_call, if_neg (Nat.ne_of_lt hlt), hv], hout⟩
  | step j doing =>
    obtain ⟨u, w, st, hu, hstep, rfl⟩ := step_of_move h
    by_cases hij : i = j
    · subst hij
      obtain rfl : v = u := Option.some.inj (hv.symm.trans hu)
      obtain hst | ⟨t, since, stage, hstate, hst, hhanded⟩ :=
        (Visit.turn_of_step hstep).outside hout
      · exact Or.inl (hput hu fun _ => hst)
      · refine Or.inr ⟨doing, v.key, rfl, ?_, t, ?_, hhanded⟩
        · cases hraised : s.world.desk.raised with
          | false => rfl
          | true =>
            have hst' := (Visit.step?_of_raised doing hstate hraised).symm.trans hstep
            cases (Prod.mk.inj (Option.some.inj hst')).2.trans hst
        · rw [post_of_visit hv, Visit.post, hstate]
    · exact Or.inl (hput hu fun he => absurd he hij)
  | drop j =>
    obtain ⟨u, w, hu, hdrop, rfl⟩ := drop_of_move h
    exact Or.inl (hput hu fun _ => .dropped)
  | pass now =>
    obtain rfl := pass_of_move h
    exact Or.inl ⟨v, hv, hout⟩
  | interrupt | clear =>
    obtain rfl := Option.some.inj h
    exact Or.inl ⟨v, hv, hout⟩

/-- Some step on the way found the lock with the call and the interrupt lowered. -/
theorem granted_of_within (h : run moves s = some s') (hi : s.Outside i) (hw : s'.Within i key) :
    ∃ before doing rest u k, moves = before ++ .step i doing :: rest ∧ run before s = some u ∧
      u.world.desk.raised = false ∧ u.Granted i k := by
  induction moves generalizing s with
  | nil =>
    obtain rfl := Option.some.inj h
    exact absurd hw (not_within_of_outside hi)
  | cons mv rest ih =>
    obtain ⟨t, ht, h⟩ := Option.bind_eq_some_iff.mp h
    obtain hout | ⟨doing, k, rfl, hlowered, hgranted⟩ := outside_of_move ht hi
    · obtain ⟨before, doing, rest', u, k, rfl, hu, hgranted⟩ := ih h hout
      exact ⟨mv :: before, doing, rest', u, k, rfl, Option.bind_eq_some_iff.mpr ⟨t, ht, hu⟩,
        hgranted⟩
    · exact ⟨[], doing, rest, s, k, rfl, rfl, hlowered, hgranted⟩

theorem exists_queued_of_post {t : Ticket} (h : s.post i = .queued key t) :
    ∃ v since, s.visits[i]? = some v ∧ v.key = key ∧ v.state = .running (.queued t since) := by
  cases hi : s.visits[i]? with
  | none => simp [post, hi] at h
  | some v =>
    rw [post_of_visit hi, Visit.post] at h
    split at h
    · next u since hstate =>
      obtain ⟨hkey, rfl⟩ := Post.queued.inj h
      exact ⟨v, since, rfl, hkey, hstate⟩
    · cases h
    · cases h
    · cases h

/-- Such a step takes the call into its operation. -/
theorem within_of_granted {doing : Doing κ σ ρ} (h : s.move (.step i doing) = some s')
    (hlowered : s.world.desk.raised = false) (hi : s.Granted i key) : s'.Within i key := by
  obtain ⟨t, hpost, hhanded⟩ := hi
  obtain ⟨v, since, hv, rfl, hstate⟩ := exists_queued_of_post hpost
  obtain ⟨u, w, st, hu, hstep, rfl⟩ := step_of_move h
  obtain rfl : v = u := Option.some.inj (hv.symm.trans hu)
  obtain ⟨w', hstep'⟩ := Visit.step?_of_handed doing hstate hlowered hhanded
  obtain ⟨-, rfl⟩ := Prod.mk.inj (Option.some.inj (hstep'.symm.trans hstep))
  refine ⟨t, ?_⟩
  rw [post_put hv, if_pos rfl]
  rfl

/-! ## Interrupts that are lost -/

/-- A call that waits when the interrupt is raised runs its operation later exactly if it takes a
step when the interrupt was cleared again and the lock is with it. -/
theorem runs_after_interrupt_iff {after : List (Move κ σ ρ)} (hi : s.Waiting i)
    (h : run (.interrupt :: after) s = some s') :
    (∃ before rest u key, after = before ++ rest ∧ run (.interrupt :: before) s = some u ∧
      u.Within i key) ↔
    ∃ before doing rest u key, after = before ++ .step i doing :: rest ∧ .clear ∈ before ∧
      run (.interrupt :: before) s = some u ∧ u.world.desk.raised = false ∧
      u.Granted i key := by
  have hout : s.interrupted.Outside i := by
    obtain ⟨v, hv, hwaits⟩ := hi
    exact ⟨v, hv, hwaits.outside⟩
  simp only [run_interrupt] at h ⊢
  constructor
  · rintro ⟨moves, more, u, key, rfl, hu, hwithin⟩
    obtain ⟨before, doing, rest, t, k, rfl, ht, hlowered, hgranted⟩ :=
      granted_of_within hu hout hwithin
    refine ⟨before, doing, rest ++ more, t, k, ?_, clear_mem_of_run ht rfl hlowered, ht, hlowered,
      hgranted⟩
    rw [List.append_assoc, List.cons_append]
  · rintro ⟨before, doing, rest, u, key, rfl, -, hu, hlowered, hgranted⟩
    rw [run_append, hu, Option.bind_some] at h
    obtain ⟨u', hmv, -⟩ := Option.bind_eq_some_iff.mp h
    refine ⟨before ++ [.step i doing], rest, u', key, ?_, ?_,
      within_of_granted hmv hlowered hgranted⟩
    · rw [List.append_assoc, List.singleton_append]
    · rw [run_append, hu, Option.bind_some]
      exact Option.bind_eq_some_iff.mpr ⟨u', hmv, rfl⟩

theorem waiting_of_post {t : Ticket} (h : s.post i = .queued key t) : s.Waiting i := by
  obtain ⟨v, since, hv, -, hstate⟩ := exists_queued_of_post h
  exact ⟨v, hv, hstate ▸ .queued t since⟩

/-- One call is within its operation, and another one waits for the same lock. -/
def oneWaits : List (Move Outlet Unit (Ending String Nat)) :=
  [.call "k" .unbounded (), .step 0 (endingWith (.ok 1)), .call "k" .unbounded (),
    .step 1 (endingWith (.ok 2)), .step 1 (endingWith (.ok 2))]

/-- The first call comes back, and then the other one goes on. -/
def oneReturns : List (Move Outlet Unit (Ending String Nat)) :=
  [.step 0 (endingWith (.ok 1)), .step 0 (endingWith (.ok 1)), .step 1 (endingWith (.ok 2)),
    .step 1 (endingWith (.ok 2))]

theorem waiting_of_oneWaits :
    ∃ s, run oneWaits (start (World.recording [])) = some s ∧ s.Waiting 1 := by
  have hpost : (run oneWaits (start (World.recording []))).map (fun s => s.post 1) =
      some (.queued "k" 1) := by
    decide +kernel
  obtain ⟨s, hs, hpost⟩ := Option.map_eq_some_iff.mp hpost
  exact ⟨s, hs, waiting_of_post hpost⟩

/-- An interrupt that is not cleared reaches the call that waits. -/
theorem runs_after_interrupt_of_oneReturns :
    ∃ s s', run oneWaits (start (World.recording [])) = some s ∧ s.Waiting 1 ∧
      run (.interrupt :: oneReturns) s = some s' ∧
      s'.visits.map Visit.answer? = [some (.done 1), some (.refused (.interrupted "k"))] ∧
      ¬∃ before rest u key, oneReturns = before ++ rest ∧
        run (.interrupt :: before) s = some u ∧ u.Within 1 key := by
  obtain ⟨s, hs, hwaits⟩ := waiting_of_oneWaits
  have hanswers : (run (oneWaits ++ .interrupt :: oneReturns) (start (World.recording []))).map
      (fun s => s.visits.map Visit.answer?) =
        some [some (.done 1), some (.refused (.interrupted "k"))] := by
    decide +kernel
  rw [run_append, hs, Option.bind_some] at hanswers
  obtain ⟨s', hs', hanswers⟩ := Option.map_eq_some_iff.mp hanswers
  refine ⟨s, s', hs, hwaits, hs', hanswers, fun hruns => ?_⟩
  obtain ⟨before, doing, rest, u, key, hmoves, hclear, -⟩ :=
    (runs_after_interrupt_iff hwaits hs').mp hruns
  have hmem : .clear ∈ oneReturns := hmoves ▸ List.mem_append_left _ hclear
  simp [oneReturns] at hmem

/-- An interrupt that is cleared before the call takes a step is lost. -/
theorem not_always_interrupted :
    ¬∀ {moves after : List (Move Outlet Unit (Ending String Nat))}
      {s s' : Crowd Outlet Unit (Ending String Nat)} {i : Nat},
      run moves (start (World.recording [])) = some s → s.Waiting i →
      run (.interrupt :: after) s = some s' → ∀ before rest u key, after = before ++ rest →
        run (.interrupt :: before) s = some u → ¬u.Within i key := by
  intro hnever
  obtain ⟨s, hs, hwaits⟩ := waiting_of_oneWaits
  have hpost : (run (oneWaits ++ .interrupt :: .clear :: oneReturns.take 3)
      (start (World.recording []))).map (fun s => s.post 1) = some (.inside "k" 1) := by
    decide +kernel
  rw [run_append, hs, Option.bind_some] at hpost
  obtain ⟨s', hs', hpost⟩ := Option.map_eq_some_iff.mp hpost
  exact hnever hs hwaits hs' (.clear :: oneReturns.take 3) [] s' "k" (List.append_nil _).symm hs'
    ⟨1, hpost⟩

end Crowd
end Rendezvous
