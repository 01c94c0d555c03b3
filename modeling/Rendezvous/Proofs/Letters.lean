/-
The handlers have nothing to do with the error channel.

Whatever chain of handlers takes a message, no step of it offers a message to the error channel,
puts one among the dead letters or uses up a failure that is scripted for the channel
(`Chain.step_letters`).  The store of groups, the channel of outputs and the locks are asked through
calls that leave all three alone, and the claims as well (`World.Beyond`), so the steps are gone
through one after the other.
-/
import Rendezvous.Proofs.Station

namespace Rendezvous

variable {κ : Type}

namespace World

/-- The messages that were offered to the error channel, newest first. -/
def offers (w : World κ) : List RawMessage := w.journal.filterMap Event.offered?

/-- Nothing was done to the error channel. -/
structure SameLetters (w v : World κ) : Prop where
  letters : v.letters = w.letters
  letterFaults : v.letterFaults = w.letterFaults
  offers : v.offers = w.offers

namespace SameLetters

variable {u v w : World κ}

theorem refl (w : World κ) : w.SameLetters w := ⟨rfl, rfl, rfl⟩

theorem trans (h : u.SameLetters v) (h' : v.SameLetters w) : u.SameLetters w :=
  ⟨h'.letters.trans h.letters, h'.letterFaults.trans h.letterFaults, h'.offers.trans h.offers⟩

theorem record (h : w.SameLetters v) {e : Event} (he : e.offered? = none) :
    w.SameLetters (v.record e) := by
  refine ⟨h.letters, h.letterFaults, ?_⟩
  rw [World.offers, World.record, List.filterMap_cons_none he]
  exact h.offers

end SameLetters

/-- Nothing was done to what lies beyond the groups: the error channel and the claims. -/
structure Beyond (w v : World κ) : Prop extends w.SameLetters v where
  claims : v.claims = w.claims
  claimFaults : v.claimFaults = w.claimFaults

namespace Beyond

variable {u v w : World κ}

theorem refl (w : World κ) : w.Beyond w := ⟨.refl w, rfl, rfl⟩

theorem trans (h : u.Beyond v) (h' : v.Beyond w) : u.Beyond w :=
  ⟨h.toSameLetters.trans h'.toSameLetters, h'.claims.trans h.claims,
    h'.claimFaults.trans h.claimFaults⟩

theorem record (h : w.Beyond v) {e : Event} (he : e.offered? = none) : w.Beyond (v.record e) :=
  ⟨h.toSameLetters.record he, h.claims, h.claimFaults⟩

end Beyond

variable (w : World κ) (key : CorrelationKey)

theorem askStore_beyond (call : StoreCall) : w.Beyond (w.askStore call).1 :=
  ⟨⟨rfl, rfl, rfl⟩, rfl, rfl⟩

theorem readGroup_beyond : w.Beyond (w.readGroup key).1 := by
  have hask := w.askStore_beyond .group
  unfold readGroup
  split <;> (rename_i heq; rw [heq] at hask; exact hask)

theorem appendMessage_beyond (m : EventMessage) :
    w.Beyond (w.appendMessage key m).1 := by
  have hask := w.askStore_beyond .add
  unfold appendMessage
  split <;> rename_i heq <;> rw [heq] at hask
  · exact hask
  · exact hask.trans ⟨⟨rfl, rfl, rfl⟩, rfl, rfl⟩

theorem removeMessages_beyond (ids : List Uuid) (why : Removal) :
    w.Beyond (w.removeMessages key ids why).1 := by
  have hask := w.askStore_beyond .remove
  unfold removeMessages
  split <;> rename_i heq <;> rw [heq] at hask
  · exact hask
  · dsimp only
    split
    · exact hask.trans ⟨⟨rfl, rfl, rfl⟩, rfl, rfl⟩
    · exact hask.trans ⟨⟨rfl, rfl, rfl⟩, rfl, rfl⟩

theorem putClaimIfAbsent_letters (id value : String) :
    w.SameLetters (w.putClaimIfAbsent id value).1 := by
  unfold putClaimIfAbsent askClaims
  cases w.claimFaults.next .putIfAbsent with
  | mk fault rest => cases fault <;> exact ⟨rfl, rfl, rfl⟩

theorem removeClaim_letters (id : String) : w.SameLetters (w.removeClaim id).1 := by
  unfold removeClaim askClaims
  cases w.claimFaults.next .remove with
  | mk fault rest => cases fault <;> exact ⟨rfl, rfl, rfl⟩

end World

variable {carrier : Carrier κ} {w : World κ}

theorem Aggregation.step_beyond (a : Aggregator) (key : CorrelationKey) (m : EventMessage)
    (st : Aggregation.Stage) : (Aggregation.step carrier a key m w st).Ensures
      (fun v _ => w.Beyond v) fun v _ => w.Beyond v :=
  Aggregation.step_keeps (w.readGroup_beyond key) (w.appendMessage_beyond key m)
    (fun ids => w.removeMessages_beyond key ids .released)
    (fun _ _ h => h.trans ⟨⟨rfl, rfl, rfl⟩, rfl, rfl⟩) (fun _ => ⟨⟨rfl, rfl, rfl⟩, rfl, rfl⟩)
    (fun _ _ _ => ⟨⟨rfl, rfl, rfl⟩, rfl, rfl⟩) (fun _ _ _ _ => ⟨⟨rfl, rfl, rfl⟩, rfl, rfl⟩)
    (.refl w) st

theorem Reconciliation.step_beyond (r : Reconciler) (key : CorrelationKey)
    (st : Reconciliation.Stage) : (Reconciliation.step r key w st).Ensures
      (fun v _ => w.Beyond v) fun v _ => w.Beyond v := by
  cases st with
  | read =>
    have hread := w.readGroup_beyond key
    simp only [step]
    split <;> rename_i heq <;> rw [heq] at hread
    · exact hread
    · exact hread
    · split <;> exact hread
  | purge ids =>
    have hremove := w.removeMessages_beyond key ids .cancelled
    simp only [step]
    split <;> rename_i heq <;> rw [heq] at hremove
    · exact hremove
    · exact hremove.trans ⟨⟨rfl, rfl, rfl⟩, rfl, rfl⟩

/-- Asking for a lock and leaving it have to do with neither of them. -/
theorem Guarded.step_beyond {σ ρ : Type} {lk : String} {p : Patience} {start : σ}
    {work : World κ → σ → Progress (World κ) σ ρ} (g : Guarded σ ρ)
    (hwork : ∀ s, (work w s).Ensures (fun v _ => w.Beyond v) fun v _ => w.Beyond v) :
    (g.step lk p start work w).Ensures (fun v _ => w.Beyond v) fun v _ => w.Beyond v :=
  Guarded.step_keeps (fun _ _ h => h.trans ⟨⟨rfl, rfl, rfl⟩, rfl, rfl⟩)
    (fun _ _ h => h.trans ⟨⟨rfl, rfl, rfl⟩, rfl, rfl⟩)
    (fun _ _ _ h => h.trans ⟨⟨rfl, rfl, rfl⟩, rfl, rfl⟩) (fun _ _ he h => h.record he)
    (.refl w) fun _ s _ => hwork s

namespace Chain

theorem claimStep_letters (w : World κ) (stamping : Stamping) (m : EventMessage)
    (rest : List Advice) (frames : List Frame) :
    w.SameLetters (claimStep w stamping m rest frames).1 := by
  have hstamp : w.SameLetters (stampOf w stamping).2 := by
    cases stamping <;> exact ⟨rfl, rfl, rfl⟩
  have hput := hstamp.trans ((stampOf w stamping).2.putClaimIfAbsent_letters m.id.text
    (stampOf w stamping).1.text)
  unfold claimStep
  dsimp only
  split <;> rename_i heq <;> rw [heq] at hput
  · exact hput
  · exact ⟨hput.letters, hput.letterFaults, hput.offers⟩
  · exact hput

theorem interceptStep_letters (w : World κ) (i : Interceptor) (m : EventMessage)
    (rest : List Advice) (frames : List Frame) :
    w.SameLetters (interceptStep w i m rest frames).1 := by
  unfold interceptStep
  dsimp only
  split <;> exact ⟨rfl, rfl, rfl⟩

theorem coreStep_letters (core : Core) (w : World κ) (m : EventMessage) (frames : List Frame) :
    w.SameLetters (coreStep core w m frames).1 := by
  cases core with
  | aggregate a =>
    simp only [coreStep]
    split
    · exact .refl w
    · split <;> exact .refl w
  | record =>
    simp only [coreStep]
    split <;> exact ⟨rfl, rfl, rfl⟩

theorem leaveFrame_letters (w : World κ) (outcome : Except HandlerError Unit) (frame : Frame) :
    w.SameLetters (leaveFrame w outcome frame) := by
  cases frame with
  | claimed id =>
    have hsettled : w.SameLetters (w.record (.settled id (succeeded outcome))) :=
      (World.SameLetters.refl w).record rfl
    unfold leaveFrame
    dsimp only
    split
    · exact hsettled
    · exact hsettled.trans (World.removeClaim_letters _ _)
  | intercepted name => exact (World.SameLetters.refl w).record rfl

/-- No step of a chain has anything to do with the error channel. -/
theorem step_letters (core : Core) (c : Call) : (Chain.step carrier core w c).Ensures
    (fun v _ => w.SameLetters v) fun v _ => w.SameLetters v := by
  obtain ⟨stage, frames⟩ := c
  cases stage with
  | enter m advices =>
    cases advices with
    | nil => exact coreStep_letters core w m frames
    | cons advice rest =>
      cases advice with
      | once stamping => exact claimStep_letters w stamping m rest frames
      | reconcile r => exact .refl w
      | intercept i => exact interceptStep_letters w i m rest frames
  | reconciling r key m rest g =>
    rw [step, Progress.ensures_andThen, reconcileStep, Progress.ensures_map]
    refine (Guarded.step_beyond g fun s => Reconciliation.step_beyond r key s).mono
      (fun _ _ h => h.toSameLetters) fun v entry h => ?_
    split <;> exact h.toSameLetters
  | aggregating a key m g =>
    rw [step, Progress.ensures_andThen, aggregateStep, Progress.ensures_map]
    exact (Guarded.step_beyond g fun s => Aggregation.step_beyond a key m s).mono
      (fun _ _ h => h.toSameLetters) fun _ _ h => h.toSameLetters
  | leave outcome =>
    cases frames with
    | nil => exact World.SameLetters.refl w
    | cons frame frames => exact leaveFrame_letters w outcome frame

end Chain
end Rendezvous
