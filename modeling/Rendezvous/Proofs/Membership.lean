/-
What every stored group is.

A group comes into being with a message and is deleted with its last one, so the store never keeps
an empty group, whatever the handlers are (`Peopled`).  What the messages of a group have in common
is read off its lawful history: they were appended under the key that their correlation id names,
they are of an aggregated type, and no two of them share an identity.  Together this is what other
parts rely on when they remove messages by identity or look for the oldest one of a type
(`group_wellFormed`).
-/
import Rendezvous.Proofs.Trail

namespace Rendezvous

/-! ## Emptied groups are deleted -/

namespace GroupStore

/-- Every group that is kept has messages. -/
def Peopled (s : GroupStore) : Prop :=
  ∀ key g, s.groups.find? key = some g → g.messages ≠ []

variable {s : GroupStore}

theorem peopled_empty : empty.Peopled := by
  intro key g h
  cases h

theorem Peopled.add (hs : s.Peopled) (key : CorrelationKey) (m : EventMessage) (now : Stamp) :
    (s.add key m now).1.Peopled := by
  intro other g hg
  rw [GroupStore.add, Dict.find?_insert] at hg
  split at hg
  · obtain rfl := Option.some.inj hg
    cases s.groups.find? key with
    | none => exact List.cons_ne_nil m []
    | some g => exact List.append_ne_nil_of_right_ne_nil _ (List.cons_ne_nil m [])
  · exact hs other g hg

theorem Peopled.remove (hs : s.Peopled) (key : CorrelationKey) (ids : List Uuid) (now : Stamp) :
    (s.remove key ids now).Peopled := by
  unfold GroupStore.remove
  split
  · exact hs
  · next stored hstored =>
    dsimp only
    split
    · intro other g hg
      rw [Dict.find?_erase] at hg
      split at hg
      · cases hg
      · exact hs other g hg
    · next hkept =>
      split
      · exact hs
      · intro other g hg
        rw [Dict.find?_insert] at hg
        split at hg
        · obtain rfl := Option.some.inj hg
          exact fun hnil => hkept (List.isEmpty_iff.mpr hnil)
        · exact hs other g hg

end GroupStore

variable {κ : Type}

namespace World

variable {w : World κ}

theorem readGroup_groups (w : World κ) (key : CorrelationKey) :
    (w.readGroup key).1.groups = w.groups := by
  unfold readGroup
  split <;>
    · next heq => exact congrArg (fun p => p.1.groups) heq.symm

theorem appendMessage_peopled (hw : w.groups.Peopled) (key : CorrelationKey) (m : EventMessage) :
    (w.appendMessage key m).1.groups.Peopled := by
  unfold appendMessage
  split
  · next heq => exact congrArg (fun p => p.1.groups) heq ▸ hw
  · next w' heq =>
    have hw' : w'.groups.Peopled := congrArg (fun p => p.1.groups) heq ▸ hw
    exact hw'.add key m _

theorem removeMessages_peopled (hw : w.groups.Peopled) (key : CorrelationKey) (ids : List Uuid)
    (why : Removal) : (w.removeMessages key ids why).1.groups.Peopled := by
  unfold removeMessages
  split
  · next heq => exact congrArg (fun p => p.1.groups) heq ▸ hw
  · next w' heq =>
    have hw' : w'.groups.Peopled := congrArg (fun p => p.1.groups) heq ▸ hw
    dsimp only
    split
    · exact hw'
    · exact hw'.remove key ids _

theorem Aside.peopled {w' : World κ} (h : w.Aside w') (hw : w.groups.Peopled) :
    w'.groups.Peopled := h.groups ▸ hw

end World

/-! ## Steps -/

theorem Aggregation.step_peopled {carrier : Carrier κ} {a : Aggregator} {key : CorrelationKey}
    {m : EventMessage} {w : World κ} (hw : w.groups.Peopled) (st : Aggregation.Stage) :
    (Aggregation.step carrier a key m w st).Ensures (fun w' _ => w'.groups.Peopled)
      fun w' _ => w'.groups.Peopled :=
  Aggregation.step_keeps (P := fun v => v.groups.Peopled) ((w.readGroup_groups key) ▸ hw)
    (World.appendMessage_peopled hw key m)
    (fun ids => World.removeMessages_peopled hw key ids .released) (fun _ _ h => h) (fun _ => hw)
    (fun _ _ _ => hw) (fun _ _ _ _ => hw) hw st

theorem Reconciliation.step_peopled {r : Reconciler} {key : CorrelationKey} {w : World κ}
    (hw : w.groups.Peopled) (st : Reconciliation.Stage) :
    (Reconciliation.step r key w st).Ensures (fun w' _ => w'.groups.Peopled)
      fun w' _ => w'.groups.Peopled := by
  cases st with
  | read =>
    have hread := (w.readGroup_groups key) ▸ hw
    simp only [step]
    split <;> rename_i heq <;> rw [heq] at hread
    · exact hread
    · exact hread
    · split <;> exact hread
  | purge ids =>
    have hremoved := World.removeMessages_peopled hw key ids .cancelled
    simp only [step]
    split <;> rename_i heq <;> rw [heq] at hremoved <;> exact hremoved

theorem Chain.step_peopled {carrier : Carrier κ} {core : Core} {w : World κ}
    (hw : w.groups.Peopled) (c : Call) :
    (Chain.step carrier core w c).Ensures (fun w' _ => w'.groups.Peopled)
      fun w' _ => w'.groups.Peopled := by
  obtain ⟨stage, frames⟩ := c
  cases stage with
  | enter m advices =>
    cases advices with
    | nil =>
      simp only [step, coreStep]
      repeat' split
      all_goals exact hw
    | cons a rest =>
      cases a with
      | once stamping => exact (claimStep_spec w stamping m rest frames).1.peopled hw
      | reconcile r => exact hw
      | intercept i => exact (interceptStep_spec w i m rest frames).1.peopled hw
  | reconciling r key m rest g =>
    rw [step, Progress.ensures_andThen, reconcileStep, Progress.ensures_map]
    refine (Guarded.step_keeps (P := fun w => w.groups.Peopled) (fun _ _ h => h) (fun _ _ h => h)
      (fun _ _ _ h => h) (fun _ _ _ h => h) hw fun t s _ =>
        Reconciliation.step_peopled hw s).mono (fun _ _ h => h) fun w' entry h => ?_
    split <;> exact h
  | aggregating a key m g =>
    rw [step, Progress.ensures_andThen, aggregateStep, Progress.ensures_map]
    exact Guarded.step_keeps (P := fun w => w.groups.Peopled) (fun _ _ h => h) (fun _ _ h => h)
      (fun _ _ _ h => h) (fun _ _ _ h => h) hw fun t s _ => Aggregation.step_peopled hw s
  | leave outcome =>
    cases frames with
    | nil => exact hw
    | cons frame frames =>
      cases frame with
      | intercepted name => exact hw
      | claimed id =>
        simp only [step, leaveFrame]
        split
        · exact hw
        · exact (World.removeClaim_aside _ id.text).peopled hw

theorem Flow.step_peopled {carrier : Carrier κ} {f : Flow} {w : World κ}
    (hw : w.groups.Peopled) (st : Flow.Stage) :
    (f.step carrier w st).Ensures (fun w' _ => w'.groups.Peopled)
      fun w' _ => w'.groups.Peopled := by
  cases st with
  | arrived m =>
    simp only [step]
    split <;> exact hw
  | rejecting m verdict =>
    have hoffer := (w.offer_aside m).peopled hw
    simp only [step]
    split <;> rename_i heq <;> rw [heq] at hoffer <;> exact hoffer
  | handling since call =>
    rw [step, Progress.ensures_andThen]
    exact Chain.step_peopled hw call

/-! ## Runs -/

/-- Whatever the handlers of a flow are, its store keeps no empty group. -/
theorem Traffic.peopled_of_run {carrier : Carrier κ} {f : Flow} {moves : List Move}
    {s s' : Traffic κ} (hs : s.world.groups.Peopled) (h : run carrier f moves s = some s') :
    s'.world.groups.Peopled := by
  refine inv_of_run (I := fun t => t.world.groups.Peopled) ?_ h hs
  intro t mv t' _ ht hmv
  cases moved_of_move hmv with
  | steps call step =>
    exact Sending.of_after? (R := fun w _ => w.groups.Peopled)
      ((Flow.step_peopled ht _).mono (fun _ _ h => h) fun _ _ h => h) step
  | drops | sends | quiet => exact ht

/-- A group as it should be: it is kept under its key and not empty, its messages are told apart by
their identities, and each of them is of an aggregated type and carries the key as its correlation
id. -/
structure Group.WellFormed (names : HeaderNames) (key : CorrelationKey) (g : Group) : Prop where
  kept : g.key = key
  nonempty : g.messages ≠ []
  distinct : (g.messages.map Message.id).Nodup
  typed : ∀ m ∈ g.messages, m.headers.text? names.eventType ∈
    [some "START_MESSAGE_DEPLOYED", some "MESSAGE_WAITING", some "MESSAGE_SENT"]
  correlated : ∀ m ∈ g.messages, m.headers.text? names.correlationId = some key

/-- In every state that calls of a standard flow reach from an empty store, whatever the names of
the headers, whether the idempotent receiver is on, and however the calls interleave, fail and are
dropped, every stored group is well-formed. -/
theorem group_wellFormed {settings : FlowSettings}
    (hadvices : ∀ a ∈ settings.advices, a.Standard settings.names) {carrier : Carrier κ}
    {channel : κ} {clock : Clock} {claims : ClaimStore} {letters : DeadLetterQueue}
    {moves : List Move} {s : Traffic κ}
    (h : Traffic.run carrier settings.flow moves
      (.start (.start channel clock claims letters)) = some s) {key : CorrelationKey} {g : Group}
    (hg : s.world.groups.group? key = some g) : g.WellFormed settings.names key := by
  have hs : Sound settings.names s :=
    (Quiet.start _ _ _ _ _).sound.run (FlowSettings.flow_standard hadvices) h
  have hpeopled : s.world.groups.Peopled := Traffic.peopled_of_run GroupStore.peopled_empty h
  obtain ⟨hkey, hms⟩ := hs.faithful.of_group? hg
  have hpertains (m : EventMessage) (hm : m ∈ g.messages) : Pertains settings.names key m :=
    hs.faithful.lawful.pertains (append_mem_of_pending (hms ▸ hm))
  refine ⟨hkey, ?_, ?_, fun m hm => ?_, fun m hm => (hpertains m hm).1⟩
  · obtain ⟨stored, hstored, rfl⟩ := Option.map_eq_some_iff.mp hg
    exact hpeopled key stored hstored
  · rw [hms]
    exact hs.faithful.lawful.nodup key
  · have htype (t : EventType) (ht : m.isOf settings.names t = true) :
        m.headers.text? settings.names.eventType = some t.text := of_decide_eq_true ht
    rcases Message.isAggregated_iff.mp (hpertains m hm).2 with ht | ht | ht
    all_goals rw [htype _ ht]; decide

set_option maxRecDepth 100000 in
/-- A payment whose delivery is refused stays in its group with the execution that waits for it. -/
theorem group_wellFormed_refused : ∃ (s : Traffic Outlet) (g : Group),
    Traffic.run Outlet.carrier (FlowSettings.flow {})
      ([.send (orderAwaited 1), .send (orderSent 2)] ++ .replicate 11 (.step 0) ++
        .replicate 13 (.step 1)) (.start (.recording [some (.rejected "refused")])) = some s ∧
    s.world.groups.group? "order-paid:42" = some g ∧ g.messages.length = 2 ∧
    g.WellFormed {} "order-paid:42" := by
  have hrun : (Traffic.run Outlet.carrier (FlowSettings.flow {})
      ([.send (orderAwaited 1), .send (orderSent 2)] ++ .replicate 11 (.step 0) ++
        .replicate 13 (.step 1)) (.start (.recording [some (.rejected "refused")]))).any
      (fun s => (s.world.groups.group? "order-paid:42").any fun g => g.messages.length = 2) =
        true := by decide +kernel
  obtain ⟨s, hs, hgroup⟩ := (Option.any_eq_true _ _).mp hrun
  obtain ⟨g, hg, hlen⟩ := (Option.any_eq_true _ _).mp hgroup
  have hadvices : ∀ a ∈ ({} : FlowSettings).advices, a.Standard {} := fun _ h => by cases h
  exact ⟨s, g, hs, hg, of_decide_eq_true hlen, group_wellFormed hadvices hs hg⟩

end Rendezvous
