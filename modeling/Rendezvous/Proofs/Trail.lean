/-
The way a run takes.

`Moved` says once what a move can do to a traffic: one call takes a step, or is dropped where it
waits, or a new call arrives, or nothing happens but at the desk of the locks and the clock.
Invariants that speak of the moves made so far, and not only of the state they led to, are proved
along the prefixes of a run (`prefix_induction`).  On its way a sound traffic only adds to its
history.
-/
import Rendezvous.Proofs.Receiving

namespace Rendezvous

variable {κ : Type}

/-- What a move does to a traffic. -/
inductive Traffic.Moved (carrier : Carrier κ) (f : Flow) (s : Traffic κ) : Move → Traffic κ → Prop
  | steps {i st w c} (call : s.calls[i]? = some (.running st))
      (step : Sending.after? (f.step carrier s.world st) = some (w, c)) :
      Moved carrier f s (.step i) (s.put i w c)
  | drops {i st} (desk : Desk) (call : s.calls[i]? = some (.running st))
      (suspends : st.suspends = true) :
      Moved carrier f s (.drop i) (s.put i { s.world with desk := desk } .dropped)
  | sends (m : RawMessage) :
      Moved carrier f s (.send m) ⟨s.world, s.calls ++ [.running (.arrived m)]⟩
  | quiet {mv} (now : Nat) (desk : Desk) (silent : mv.message? = none)
      (idle : ∀ i, mv ≠ .step i) :
      Moved carrier f s mv ⟨{ s.world with now := now, desk := desk }, s.calls⟩

namespace Traffic

variable {carrier : Carrier κ} {f : Flow} {s s' t t' : Traffic κ} {mv : Move}

theorem moved_of_move (h : s.move carrier f mv = some s') : Moved carrier f s mv s' := by
  cases mv with
  | send m =>
    obtain rfl : _ = s' := Option.some.inj h
    exact .sends m
  | step i =>
    obtain ⟨st, w, c, hi, hc, rfl⟩ := step_of_move h
    exact .steps hi hc
  | drop i =>
    obtain ⟨st, hi, hsusp, rfl⟩ := drop_of_move h
    obtain ⟨d, hd⟩ := Flow.abandon_eq s.world st
    rw [hd]
    exact .drops d hi hsusp
  | pass now =>
    obtain ⟨-, rfl⟩ := pass_of_move h
    exact .quiet now s.world.desk rfl fun _ h => by cases h
  | interrupt =>
    obtain rfl : _ = s' := Option.some.inj h
    exact .quiet s.world.now s.world.desk.interrupt rfl fun _ h => by cases h
  | clear =>
    obtain rfl : _ = s' := Option.some.inj h
    exact .quiet s.world.now s.world.desk.clear rfl fun _ h => by cases h

/-! ## What is true of every call -/

theorem forall_put {P : Nat → Sending → Prop} {i : Nat} {c d : Sending} {w : World κ}
    (hi : s.calls[i]? = some d) (hs : ∀ (j : Nat) e, s.calls[j]? = some e → P j e) (hc : P i c)
    (j : Nat) (e : Sending) (he : (s.put i w c).calls[j]? = some e) : P j e := by
  rw [getElem?_put hi] at he
  split at he
  · next hj =>
    obtain rfl : c = e := Option.some.inj he
    exact hj ▸ hc
  · exact hs j e he

theorem forall_send {P : Nat → Sending → Prop} (m : RawMessage)
    (hs : ∀ (j : Nat) e, s.calls[j]? = some e → P j e)
    (hm : P s.calls.length (.running (.arrived m))) (j : Nat) (e : Sending)
    (he : (s.calls ++ [.running (.arrived m)])[j]? = some e) : P j e := by
  rw [getElem?_send] at he
  split at he
  · next hj =>
    obtain rfl : _ = e := Option.some.inj he
    exact hj ▸ hm
  · exact hs j e he

/-! ## Prefixes -/

theorem run_append (moves more : List Move) (s : Traffic κ) :
    run carrier f (moves ++ more) s = (run carrier f moves s).bind (run carrier f more) := by
  induction moves generalizing s with
  | nil => rfl
  | cons mv moves ih =>
    show (s.move carrier f mv).bind (run carrier f (moves ++ more)) = _
    rw [show run carrier f (mv :: moves) s = (s.move carrier f mv).bind (run carrier f moves) from
      rfl, Option.bind_assoc]
    exact congrArg _ (funext ih)

theorem run_concat {before : List Move} (h : run carrier f before s = some t)
    (hmv : t.move carrier f mv = some t') : run carrier f (before ++ [mv]) s = some t' := by
  rw [run_append, h]
  show (t.move carrier f mv).bind some = some t'
  rw [hmv]
  rfl

/-- What holds before a run and is carried on by each of its moves holds after it; it may speak of
the moves that were made. -/
theorem prefix_induction {I : List Move → Traffic κ → Prop} {moves : List Move}
    (hstart : I [] s)
    (hmove : ∀ before mv t t', before ++ [mv] <+: moves → run carrier f before s = some t →
      I before t → t.move carrier f mv = some t' → I (before ++ [mv]) t')
    (h : run carrier f moves s = some s') : I moves s' := by
  -- the moves are split into those that were made and those that are left
  have hsplit (before rest : List Move) (hall : before ++ rest = moves) (t : Traffic κ)
      (hbefore : run carrier f before s = some t) (ht : I before t)
      (hrest : run carrier f rest t = some s') : I moves s' := by
    induction rest generalizing before t with
    | nil =>
      obtain rfl : t = s' := Option.some.inj hrest
      rw [← hall, List.append_nil]
      exact ht
    | cons mv rest ih =>
      obtain ⟨t', hmv, hrest⟩ := Option.bind_eq_some_iff.mp hrest
      have hnext : before ++ [mv] ++ rest = moves := by rw [← hall, List.append_assoc]; rfl
      exact ih (before ++ [mv]) hnext t' (run_concat hbefore hmv)
        (hmove before mv t t' ⟨rest, hnext⟩ hbefore ht hmv) hrest
  exact hsplit [] moves rfl s rfl hstart h

/-! ## Deliveries -/

theorem length_of_move (h : s.move carrier f mv = some s') :
    s'.calls.length = s.calls.length + mv.message?.toList.length := by
  cases moved_of_move h with
  | steps call step => exact List.length_set
  | drops desk call suspends => exact List.length_set
  | sends m => exact List.length_append
  | quiet now desk silent idle =>
    rw [silent]
    rfl

end Traffic

theorem sentBy_append (moves more : List Move) :
    sentBy (moves ++ more) = sentBy moves ++ sentBy more := List.filterMap_append

theorem getElem?_sentBy_of_prefix {moves more : List Move} (h : moves <+: more) {i : Nat}
    {m : RawMessage} (hm : (sentBy moves)[i]? = some m) : (sentBy more)[i]? = some m := by
  obtain ⟨rest, rfl⟩ := h
  rw [sentBy_append, List.getElem?_append_left (List.getElem?_eq_some_iff.mp hm).1]
  exact hm

/-- There is one call for every message that was sent, in the order in which they were sent. -/
theorem Traffic.length_of_run {carrier : Carrier κ} {f : Flow} {moves : List Move}
    {s s' : Traffic κ} (h : run carrier f moves s = some s') :
    s'.calls.length = s.calls.length + (sentBy moves).length := by
  refine prefix_induction (I := fun before t =>
    t.calls.length = s.calls.length + (sentBy before).length) rfl ?_ h
  rintro before mv t t' - - ht hmv
  have hsent : (sentBy [mv]).length = mv.message?.toList.length := by
    cases mv <;> rfl
  rw [length_of_move hmv, ht, sentBy_append, List.length_append, hsent, Nat.add_assoc]

/-- Whether a call returned that its message was handled. -/
def Sending.acknowledged : Sending → Bool
  | returned (.ok .handled) => true
  | _ => false

theorem Sending.eq_of_acknowledged {c : Sending} (h : c.acknowledged = true) :
    c = .returned (.ok .handled) := by
  unfold acknowledged at h
  split at h
  · rfl
  · cases h

/-! ## What is never undone -/

variable {carrier : Carrier κ} {f : Flow} {names : HeaderNames} {s s' : Traffic κ} {mv : Move}
  {moves : List Move}

theorem Grows.suffix {may : Deed → Prop} {h h' : List Deed} (hg : Grows names may h h') :
    h <:+ h' := by
  obtain rfl | ⟨d, rfl, -⟩ := hg
  · exact List.suffix_refl h'
  · exact List.suffix_cons d h

/-- A step of a call of sound traffic is a stride. -/
theorem Sound.stride_of_step (hf : f.Standard names) (hs : Sound names s) {i : Nat}
    {st : Flow.Stage} {w : World κ} {c : Sending} (hi : s.calls[i]? = some (.running st))
    (hc : Sending.after? (f.step carrier s.world st) = some (w, c)) :
    Stride names s.world (st.station names) w (c.station names) :=
  Sending.of_after?
    (R := fun w' c' => Stride names s.world (st.station names) w' (c'.station names))
    ((Flow.step_ensures hf hs.faithful (hs.fits i _ hi) (hs.grounded_of_call hi)).mono
      (fun _ _ h => h.1) fun _ _ h => h) hc

theorem Sound.suffix_of_move (hf : f.Standard names) (hs : Sound names s)
    (h : s.move carrier f mv = some s') : s.world.history <:+ s'.world.history := by
  cases Traffic.moved_of_move h with
  | steps call step => exact (hs.stride_of_step hf call step).grows.suffix
  | drops | sends | quiet => exact List.suffix_refl _

/-- What was done stays in the history. -/
theorem Sound.suffix_of_run (hf : f.Standard names) (hs : Sound names s)
    (h : Traffic.run carrier f moves s = some s') : s.world.history <:+ s'.world.history := by
  refine (Traffic.inv_of_run (I := fun t => Sound names t ∧ s.world.history <:+ t.world.history)
    ?_ h ⟨hs, List.suffix_refl _⟩).2
  rintro t mv t' - ⟨ht, hsuffix⟩ hmv
  exact ⟨ht.move hf hmv, hsuffix.trans (ht.suffix_of_move hf hmv)⟩

end Rendezvous
