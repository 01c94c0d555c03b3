/-
Handlers under other header names.

Two tasks match if they take steps of one kind, and the worlds, what is left to do and the results
correspond (`Progress.Matches`).  Handlers match in worlds that are alike, if what they read from
headers agrees with the renaming: the keys they correlate by, the messages they are concerned with,
the groups they release and the outputs they make of them.  The default handlers are made that way
(`Aggregator.default_alike`, `Reconciler.default_alike`), and so may be the advices of a user.
-/
import Mathlib.Data.List.Forall2
import Rendezvous.Flow.Chain
import Rendezvous.Proofs.Renaming.World

namespace Rendezvous

/-! ## Tasks that match -/

namespace Progress

variable {ω ω' σ σ' τ τ' ρ ρ' ξ ξ' : Type} {W : ω → ω' → Prop} {S : σ → σ' → Prop}
  {T : τ → τ' → Prop} {Q : ρ → ρ' → Prop} {X : ξ → ξ' → Prop}

/-- Two tasks take steps of one kind: their worlds correspond by `W`, what is left to do by `S`, and
the results by `Q`. -/
inductive Matches (W : ω → ω' → Prop) (S : σ → σ' → Prop) (Q : ρ → ρ' → Prop) :
    Progress ω σ ρ → Progress ω' σ' ρ' → Prop
  | waits (wake : Option Nat) : Matches W S Q (.waits wake) (.waits wake)
  | goes {w : ω} {w' : ω'} {s : σ} {s' : σ'} (world : W w w') (state : S s s') :
      Matches W S Q (.goes w s) (.goes w' s')
  | pauses {w : ω} {w' : ω'} {s : σ} {s' : σ'} (world : W w w') (state : S s s') :
      Matches W S Q (.pauses w s) (.pauses w' s')
  | resumes {w : ω} {w' : ω'} {s : σ} {s' : σ'} (world : W w w') (state : S s s') :
      Matches W S Q (.resumes w s) (.resumes w' s')
  | ends {w : ω} {w' : ω'} {r : ρ} {r' : ρ'} (world : W w w') (result : Q r r') :
      Matches W S Q (.ends w r) (.ends w' r')

/-- Larger tasks match if their parts do and what follows the parts does. -/
theorem Matches.andThen {p : Progress ω σ ρ} {p' : Progress ω' σ' ρ'} {put : σ → τ}
    {put' : σ' → τ'} {next : ω → ρ → Progress ω τ ξ} {next' : ω' → ρ' → Progress ω' τ' ξ'}
    (h : p.Matches W S Q p') (hput : ∀ s s', S s s' → T (put s) (put' s'))
    (hnext : ∀ w w' r r', W w w' → Q r r' → (next w r).Matches W T X (next' w' r')) :
    (p.andThen put next).Matches W T X (p'.andThen put' next') := by
  cases h with
  | waits wake => exact .waits wake
  | goes world state => exact .goes world (hput _ _ state)
  | pauses world state => exact .pauses world (hput _ _ state)
  | resumes world state => exact .resumes world (hput _ _ state)
  | ends world result => exact hnext _ _ _ _ world result

end Progress

variable {κ κ' σ ρ ξ : Type} {f : Renaming} {names : HeaderNames} {R : κ → κ' → Prop} {w : World κ}
  {w' : World κ'} {carrier : Carrier κ} {carrier' : Carrier κ'}

/-! ## Work under a lock -/

def Entry.map (k : ρ → ξ) : Entry ρ → Entry ξ
  | ran outcome => ran (k outcome)
  | skipped => skipped
  | refused cause => refused cause

theorem Entry.settle_map (f : Renaming) (key : String) (timeout : Option Nat)
    (e : Entry (Except HandlerError ρ)) :
    (e.map (Except.mapError (HandlerError.rename f))).settle key timeout =
      (e.settle key timeout).mapError (HandlerError.rename f) := by
  cases e <;> rfl

namespace Guarded

def map (h : σ → σ) (k : ρ → ρ) : Guarded σ ρ → Guarded σ ρ
  | asking => asking
  | lining => lining
  | queued t since => queued t since
  | givingUp interrupted => givingUp interrupted
  | inside t s => inside t (h s)
  | leaving t r => leaving t (k r)

variable {h : σ → σ} {k : ρ → ρ} {key : String}

theorem enter_alike (hw : w.Alike f names R w') (key : String) (t : Ticket) (waited : Nat) :
    (enter w key t waited).Alike f names R (enter w' key t waited) :=
  (hw.counted _ _).record (.entered key t)

theorem refuse_matches (hw : w.Alike f names R w') (interrupted : Bool) :
    (refuse w key interrupted : Progress _ (Guarded σ ρ) (Entry ρ)).Matches
      (World.Alike f names R) (fun g g' => g' = g.map h k) (fun e e' => e' = e.map k)
      (refuse w' key interrupted) := by
  unfold refuse
  split
  · exact .ends (hw.counted _ _) rfl
  · exact .ends (hw.counted _ _) rfl

/-- Work under a lock matches if the work does: the lock takes no notice of names. -/
theorem step_matches {p : Patience} {start : σ} {work : World κ → σ → Progress (World κ) σ ρ}
    {work' : World κ' → σ → Progress (World κ') σ ρ} (hw : w.Alike f names R w')
    (hwork : ∀ s, (work w s).Matches (World.Alike f names R) (fun s s' => s' = h s)
      (fun r r' => r' = k r) (work' w' (h s))) (g : Guarded σ ρ) :
    (g.step key p start work w).Matches (World.Alike f names R) (fun g g' => g' = g.map h k)
      (fun e e' => e' = e.map k) ((g.map h k).step key p (h start) work' w') := by
  cases g with
  | asking =>
    rw [map, step, step, hw.desk]
    rcases w.desk.request key p with ⟨d, t | _ | _⟩
    · exact .goes (enter_alike (hw.withDesk d) key t 0) rfl
    · dsimp only
      split
      · exact refuse_matches (hw.withDesk d) false
      · exact .goes (hw.withDesk d) rfl
    · exact refuse_matches (hw.withDesk d) true
  | lining =>
    rw [map, step, step, hw.desk, hw.now]
    exact .pauses (hw.withDesk _) rfl
  | queued t since =>
    rw [map, step, step, hw.desk, hw.now]
    rcases w.desk.check key t (p.deadline since) w.now with ⟨d, _ | _ | _ | _⟩
    · exact .resumes (enter_alike (hw.withDesk d) key t _) rfl
    · exact .resumes (hw.withDesk d) rfl
    · exact .resumes (hw.withDesk d) rfl
    · exact .waits _
  | givingUp interrupted => exact refuse_matches hw interrupted
  | inside t s =>
    refine (hwork s).andThen (fun s s' hs => hs ▸ rfl) fun v v' r r' hv hr => ?_
    exact .goes hv (hr ▸ rfl)
  | leaving t r =>
    have hleft := hw.withDesk (w.desk.leave key t)
    rw [map, step, step, release, release, hw.desk]
    exact .ends (hleft.record (.left key t)) rfl

theorem abandon_alike (hw : w.Alike f names R w') (g : Guarded σ ρ) :
    (g.abandon key w).Alike f names R ((g.map h k).abandon key w') := by
  have hticket : (g.map h k).ticket? = g.ticket? := by cases g <;> rfl
  rw [abandon, abandon, hticket]
  cases g.ticket? with
  | none => exact hw
  | some t =>
    show (withDesk w _).Alike f names R (withDesk w' _)
    rw [hw.desk]
    exact hw.withDesk _

end Guarded

/-! ## Aggregation -/

/-- Aggregators that do the same under other names. -/
structure Aggregator.Alike (f : Renaming) (a a' : Aggregator) : Prop where
  correlation : ∀ h : Headers,
    a'.correlation (h.rename f) = (a.correlation h).mapError (CorrelationError.rename f)
  participates : ∀ m : EventMessage, a'.participates (m.rename f) = a.participates m
  rule : ∀ g : Group, a'.rule (g.rename f) = a.rule g
  processor : ∀ g : Group, a'.processor (g.rename f) =
    ((a.processor g).map (Option.map (Release.rename f))).mapError (HandlerError.rename f)
  retry : a'.retry = a.retry
  lockTimeout : a'.lockTimeout = a.lockTimeout

theorem Aggregator.default_alike (f : Renaming) (names : HeaderNames) (retry : RetryPolicy)
    (lockTimeout : Option Nat) :
    (default names retry lockTimeout).Alike f (default (names.map f.map) retry lockTimeout) where
  correlation := Correlation.ofHeader_rename f names
  participates m := congrArg (fun t : Option String => (EventType.ofText (t.getD "")).isAggregated)
    (m.text?_rename f names.eventType)
  rule := Release.ready_rename f names
  processor g := congrArg Except.ok (Release.ofGroup?_rename f names g)
  retry := rfl
  lockTimeout := rfl

namespace Aggregation

def Stage.rename (f : Renaming) : Stage → Stage
  | .read => .read
  | .append => .append
  | .decide g => .decide (g.rename f)
  | .attempt r n => .attempt (r.rename f) n
  | .transit r n arrival => .transit (r.rename f) n arrival
  | .arrive r n => .arrive (r.rename f) n
  | .pause r n wake => .pause (r.rename f) n wake
  | .remove r => .remove (r.rename f)
  | .reread => .reread

variable {a a' : Aggregator}

/-- Work on a group does the same under other names. -/
abbrev Agrees (f : Renaming) (names : HeaderNames) (R : κ → κ' → Prop)
    (p : Progress (World κ) Stage (Except HandlerError Unit))
    (p' : Progress (World κ') Stage (Except HandlerError Unit)) : Prop :=
  p.Matches (World.Alike f names R) (fun s s' => s' = s.rename f)
    (fun o o' => o' = o.mapError (HandlerError.rename f)) p'

theorem countReleased_alike (hw : w.Alike f names R w') (r r' : Release) :
    (countReleased a w r).Alike f names R (countReleased a' w' r') := by
  unfold countReleased
  split <;> split <;> exact hw.counted _ _

theorem failed_agrees (ha : a.Alike f a') (hw : w.Alike f names R w') (r : Release)
    (attempt : Nat) (e : ChannelError) :
    Agrees f names R (failed a w r attempt e) (failed a' w' (r.rename f) attempt e) := by
  unfold failed
  rw [ha.retry, hw.now]
  split
  · exact .goes (hw.counted _ _) rfl
  · refine .ends (World.Alike.counted ?_ _ _) rfl
    split
    · exact hw.counted _ _
    · exact hw

theorem attempt_agrees (hc : carrier.Alike f R carrier') (hw : w.Alike f names R w')
    (key : CorrelationKey) (m : EventMessage) (r : Release) (n : Nat) :
    Agrees f names R (step carrier a key m w (.attempt r n))
      (step carrier' a' key (m.rename f) w' (.attempt (r.rename f) n)) := by
  obtain ⟨hdelay, hchannel⟩ := hc.delay hw.channel
  have hattempted : Event.Alike f names (.attempted w.now r.message)
      (.attempted w'.now (r.message.rename f)) := by
    rw [hw.now]
    exact .attempted w.now r.message
  rw [step, step]
  refine .goes ((hw.withChannel hchannel).record hattempted) ?_
  rw [hdelay, hw.now]
  cases (carrier.delay w.channel).2 <;> rfl

theorem arrive_agrees (hc : carrier.Alike f R carrier') (ha : a.Alike f a')
    (hw : w.Alike f names R w') (key : CorrelationKey) (m : EventMessage) (r : Release) (n : Nat) :
    Agrees f names R (step carrier a key m w (.arrive r n))
      (step carrier' a' key (m.rename f) w' (.arrive (r.rename f) n)) := by
  have hmessage : (r.rename f).message = r.message.rename f := rfl
  have hsend := hc.send r.message hw.channel
  rw [step, step, hmessage]
  rcases hsent : carrier.send w.channel r.message with ⟨c, o⟩
  rcases hsent' : carrier'.send w'.channel (r.message.rename f) with ⟨c', o'⟩
  rw [hsent, hsent'] at hsend
  obtain ⟨rfl, hchannel⟩ : o' = o ∧ R c c' := hsend
  rcases o' with e | _
  · exact failed_agrees ha (hw.withChannel hchannel) r n e
  · exact .goes ((hw.withChannel hchannel).record (.accepted key r)) rfl

/-- Work on a group reads names by its aggregator only. -/
theorem step_agrees (hc : carrier.Alike f R carrier') (ha : a.Alike f a')
    (hw : w.Alike f names R w') (key : CorrelationKey) (m : EventMessage) (s : Stage) :
    Agrees f names R (step carrier a key m w s)
      (step carrier' a' key (m.rename f) w' (s.rename f)) := by
  cases s with
  | read =>
    obtain ⟨v, v', read, hread, hread', hv⟩ := hw.readGroup key
    rw [Stage.rename, step, step, hread, hread']
    rcases read with e | _ | g
    · exact .ends hv rfl
    · exact .goes hv rfl
    · dsimp only [Except.map, Option.map]
      rw [Group.contains_rename, Message.id_rename]
      split
      · exact .goes hv rfl
      · exact .goes hv rfl
  | append =>
    obtain ⟨v, v', appended, happend, happend', hv⟩ := hw.appendMessage key m
    rw [Stage.rename, step, step, happend, happend']
    rcases appended with e | g
    · exact .ends hv rfl
    · exact .goes (hv.counted _ _) rfl
  | decide g =>
    rw [Stage.rename, step, step, ha.rule, ha.processor]
    split
    · rcases a.processor g with e | _ | r
      · exact .ends hw rfl
      · exact .ends hw rfl
      · show Progress.Matches _ _ _ _ (if r.consumed.isEmpty = true then _ else _)
        dsimp only
        split
        · exact .ends hw rfl
        · exact .goes hw rfl
    · exact .ends hw rfl
  | attempt r n => exact attempt_agrees hc hw key m r n
  | transit r n arrival =>
    rw [Stage.rename, step, step, hw.now]
    split
    · exact .waits _
    · exact .resumes hw rfl
  | arrive r n => exact arrive_agrees hc ha hw key m r n
  | pause r n wake =>
    rw [Stage.rename, step, step, hw.now]
    split
    · exact .waits _
    · exact .resumes hw rfl
  | remove r =>
    obtain ⟨v, v', removed, hremove, hremove', hv⟩ := hw.removeMessages key r.consumed .released
    have hconsumed : (r.rename f).consumed = r.consumed := rfl
    rw [Stage.rename, step, step, hconsumed, hremove, hremove']
    rcases removed with e | _
    · exact .ends hv rfl
    · exact .goes (countReleased_alike hv _ _) rfl
  | reread =>
    obtain ⟨v, v', read, hread, hread', hv⟩ := hw.readGroup key
    rw [Stage.rename, step, step, hread, hread']
    rcases read with e | _ | g
    · exact .ends hv rfl
    · exact .ends hv rfl
    · exact .goes hv rfl

end Aggregation

/-! ## Reconciliation -/

/-- Reconcilers that do the same under other names. -/
structure Reconciler.Alike (f : Renaming) (r r' : Reconciler) : Prop where
  correlation : ∀ h : Headers,
    r'.correlation (h.rename f) = (r.correlation h).mapError (CorrelationError.rename f)
  concerns : ∀ m : EventMessage, r'.concerns (m.rename f) = r.concerns m
  keeps : ∀ m : EventMessage, r'.keeps (m.rename f) = r.keeps m
  lockTimeout : r'.lockTimeout = r.lockTimeout

namespace Reconciler

theorem default_alike (f : Renaming) (names : HeaderNames) (lockTimeout : Option Nat) :
    (default names lockTimeout).Alike f (default (names.map f.map) lockTimeout) := by
  have htype (m : EventMessage) := m.text?_rename f names.eventType
  refine ⟨Correlation.ofHeader_rename f names, fun m => ?_, fun m => ?_, rfl⟩
  · exact congrArg (fun t => decide (t = some EventType.cancelled.text)) (htype m)
  · exact congrArg (fun t => decide (t ≠ some EventType.startDeployed.text)) (htype m)

theorem Alike.stale {r r' : Reconciler} (h : r.Alike f r') (g : Group) :
    r'.stale (g.rename f) = r.stale g := by
  have hkept : (g.rename f).messages.filter (fun m => !r'.keeps m) =
      (g.messages.filter fun m => !r.keeps m).map (Message.rename f) := by
    rw [Group.rename, List.filter_map]
    exact congrArg _ (List.filter_congr fun m _ => congrArg not (h.keeps m))
  rw [Reconciler.stale, Reconciler.stale, hkept, List.map_map]
  rfl

end Reconciler

theorem Reconciliation.step_matches {r r' : Reconciler} (hr : r.Alike f r')
    (hw : w.Alike f names R w') (key : CorrelationKey) (s : Stage) :
    (step r key w s).Matches (World.Alike f names R) (fun s s' => s' = s)
      (fun o o' => o' = o.mapError (HandlerError.rename f)) (step r' key w' s) := by
  cases s with
  | read =>
    obtain ⟨v, v', read, hread, hread', hv⟩ := hw.readGroup key
    rw [step, step, hread, hread']
    rcases read with e | _ | g
    · exact .ends hv rfl
    · exact .ends hv rfl
    · dsimp only [Except.map, Option.map]
      rw [hr.stale]
      split
      · exact .ends hv rfl
      · exact .goes hv rfl
  | purge ids =>
    obtain ⟨v, v', removed, hremove, hremove', hv⟩ := hw.removeMessages key ids .cancelled
    rw [step, step, hremove, hremove']
    rcases removed with e | _
    · exact .ends hv rfl
    · exact .ends (hv.counted _ _) rfl

/-! ## The chain -/

/-- Advices that do the same under other names. -/
inductive Advice.Alike (f : Renaming) : Advice → Advice → Prop
  | once (stamping : Stamping) : Alike f (.once stamping) (.once stamping)
  | reconcile {r r' : Reconciler} (h : r.Alike f r') : Alike f (.reconcile r) (.reconcile r')
  | intercept {i i' : Interceptor} (name : i'.name = i.name)
      (decide : ∀ m : EventMessage, i'.decide (m.rename f) =
        ((i.decide m).map (Option.map (Message.rename f))).mapError (HandlerError.rename f)) :
      Alike f (.intercept i) (.intercept i')

inductive Core.Alike (f : Renaming) : Core → Core → Prop
  | aggregate {a a' : Aggregator} (h : a.Alike f a') : Alike f (.aggregate a) (.aggregate a')

namespace Chain

/-- Stages of calls that do the same under other names. -/
inductive Stage.Alike (f : Renaming) : Stage → Stage → Prop
  | enter (m : EventMessage) {advices advices' : List Advice}
      (h : List.Forall₂ (Advice.Alike f) advices advices') :
      Alike f (.enter m advices) (.enter (m.rename f) advices')
  | reconciling {r r' : Reconciler} (hr : r.Alike f r') (key : CorrelationKey) (m : EventMessage)
      {advices advices' : List Advice} (h : List.Forall₂ (Advice.Alike f) advices advices')
      (g : Guarded Reconciliation.Stage (Except HandlerError Nat)) :
      Alike f (.reconciling r key m advices g)
        (.reconciling r' key (m.rename f) advices'
          (g.map id (Except.mapError (HandlerError.rename f))))
  | aggregating {a a' : Aggregator} (ha : a.Alike f a') (key : CorrelationKey) (m : EventMessage)
      (g : Guarded Aggregation.Stage (Except HandlerError Unit)) :
      Alike f (.aggregating a key m g)
        (.aggregating a' key (m.rename f)
          (g.map (Aggregation.Stage.rename f) (Except.mapError (HandlerError.rename f))))
  | leave (outcome : Except HandlerError Unit) :
      Alike f (.leave outcome) (.leave (outcome.mapError (HandlerError.rename f)))

structure Call.Alike (f : Renaming) (c c' : Call) : Prop where
  stage : c.stage.Alike f c'.stage
  frames : c'.frames = c.frames

variable {stage stage' : Stage} {advices advices' : List Advice}

theorem claimStep_alike (hw : w.Alike f names R w') (stamping : Stamping) (m : EventMessage)
    (h : List.Forall₂ (Advice.Alike f) advices advices') (frames : List Frame) :
    (claimStep w stamping m advices frames).1.Alike f names R
        (claimStep w' stamping (m.rename f) advices' frames).1 ∧
      (claimStep w stamping m advices frames).2.Alike f
        (claimStep w' stamping (m.rename f) advices' frames).2 := by
  have hstamp : (stampOf w' stamping).1 = (stampOf w stamping).1 ∧
      (stampOf w stamping).2.Alike f names R (stampOf w' stamping).2 := by
    cases stamping with
    | fixed stamp => exact ⟨rfl, hw⟩
    | ticking => exact hw.stamp
  obtain ⟨htime, hstamped⟩ := hstamp
  obtain ⟨v, v', put, hput, hput', hv⟩ :=
    hstamped.putClaimIfAbsent m.id.text (stampOf w stamping).1.text
  have hid : (m.rename f).id = m.id := rfl
  unfold claimStep
  dsimp only
  rw [htime, hid, hput, hput']
  rcases put with e | _ | found
  · exact ⟨hv, .leave _, rfl⟩
  · exact ⟨hv, .enter m h, rfl⟩
  · exact ⟨hv.counted _ _, .leave _, rfl⟩

theorem cancelStep_alike {r r' : Reconciler} (hr : r.Alike f r') (m : EventMessage)
    (h : List.Forall₂ (Advice.Alike f) advices advices') (frames : List Frame) :
    (cancelStep r m advices frames).Alike f (cancelStep r' (m.rename f) advices' frames) := by
  have hkey : r'.correlation (m.rename f).headers =
      (r.correlation m.headers).mapError (CorrelationError.rename f) := hr.correlation m.headers
  unfold cancelStep
  rw [hr.concerns, hkey]
  split
  · cases r.correlation m.headers with
    | error e => exact ⟨.leave _, rfl⟩
    | ok key => exact ⟨.reconciling hr key m h .asking, rfl⟩
  · exact ⟨.enter m h, rfl⟩

theorem interceptStep_alike {i i' : Interceptor} (hw : w.Alike f names R w')
    (hname : i'.name = i.name)
    (hdecide : ∀ m : EventMessage, i'.decide (m.rename f) =
      ((i.decide m).map (Option.map (Message.rename f))).mapError (HandlerError.rename f))
    (m : EventMessage) (h : List.Forall₂ (Advice.Alike f) advices advices')
    (frames : List Frame) :
    (interceptStep w i m advices frames).1.Alike f names R
        (interceptStep w' i' (m.rename f) advices' frames).1 ∧
      (interceptStep w i m advices frames).2.Alike f
        (interceptStep w' i' (m.rename f) advices' frames).2 := by
  have hnoted := hw.record (.noted ("before:" ++ i.name))
  unfold interceptStep
  dsimp only
  rw [hname, hdecide]
  rcases i.decide m with e | _ | m
  · exact ⟨hnoted, .leave _, rfl⟩
  · exact ⟨hnoted, .leave _, rfl⟩
  · exact ⟨hnoted, .enter m h, rfl⟩

theorem coreStep_alike {core core' : Core} (hcore : core.Alike f core')
    (hw : w.Alike f names R w') (m : EventMessage) (frames : List Frame) :
    (coreStep core w m frames).1.Alike f names R (coreStep core' w' (m.rename f) frames).1 ∧
      (coreStep core w m frames).2.Alike f (coreStep core' w' (m.rename f) frames).2 := by
  obtain @⟨a, a', ha⟩ := hcore
  have hkey : a'.correlation (m.rename f).headers =
      (a.correlation m.headers).mapError (CorrelationError.rename f) := ha.correlation m.headers
  unfold coreStep
  dsimp only
  rw [ha.participates, hkey]
  cases a.correlation m.headers with
  | error e => exact ⟨hw, .leave _, rfl⟩
  | ok key =>
    dsimp only [Except.mapError]
    split
    · exact ⟨hw, .aggregating ha key m .asking, rfl⟩
    · exact ⟨hw, .leave _, rfl⟩

theorem leaveFrame_alike (hw : w.Alike f names R w') (outcome : Except HandlerError Unit)
    (frame : Frame) : (leaveFrame w outcome frame).Alike f names R
      (leaveFrame w' (outcome.mapError (HandlerError.rename f)) frame) := by
  have hsucceeded : succeeded (outcome.mapError (HandlerError.rename f)) = succeeded outcome := by
    cases outcome <;> rfl
  cases frame with
  | claimed id =>
    have hsettled := hw.record (.settled id (succeeded outcome))
    rw [leaveFrame, leaveFrame, hsucceeded]
    split
    · exact hsettled
    · exact hsettled.removeClaim _
  | intercepted name =>
    rw [leaveFrame, leaveFrame, hsucceeded]
    exact hw.record (.noted _)

theorem reconcileStep_matches {r r' : Reconciler} (hr : r.Alike f r') (hw : w.Alike f names R w')
    (key : CorrelationKey) (g : Guarded Reconciliation.Stage (Except HandlerError Nat)) :
    (reconcileStep r key w g).Matches (World.Alike f names R)
      (fun g g' => g' = g.map id (Except.mapError (HandlerError.rename f)))
      (fun o o' => o' = o.mapError (HandlerError.rename f))
      (reconcileStep r' key w' (g.map id (Except.mapError (HandlerError.rename f)))) := by
  rw [reconcileStep, reconcileStep, hr.lockTimeout]
  refine (Guarded.step_matches hw (Reconciliation.step_matches hr hw key) g).andThen
    (fun g g' hg => ?_) fun v v' e e' hv he => .ends hv ?_
  · exact hg
  · rw [he, Entry.settle_map]

theorem aggregateStep_matches {a a' : Aggregator} (hc : carrier.Alike f R carrier')
    (ha : a.Alike f a') (hw : w.Alike f names R w') (key : CorrelationKey) (m : EventMessage)
    (g : Guarded Aggregation.Stage (Except HandlerError Unit)) :
    (aggregateStep carrier a key m w g).Matches (World.Alike f names R)
      (fun g g' =>
        g' = g.map (Aggregation.Stage.rename f) (Except.mapError (HandlerError.rename f)))
      (fun o o' => o' = o.mapError (HandlerError.rename f))
      (aggregateStep carrier' a' key (m.rename f) w'
        (g.map (Aggregation.Stage.rename f) (Except.mapError (HandlerError.rename f)))) := by
  rw [aggregateStep, aggregateStep, ha.lockTimeout]
  refine (Guarded.step_matches hw (Aggregation.step_agrees hc ha hw key m) g).andThen
    (fun g g' hg => ?_) fun v v' e e' hv he => .ends hv ?_
  · exact hg
  · rw [he, Entry.settle_map]

/-- A call of the chain matches. -/
theorem step_matches {core core' : Core} {c c' : Call} (hc : carrier.Alike f R carrier')
    (hcore : core.Alike f core') (hw : w.Alike f names R w') (h : c.Alike f c') :
    (step carrier core w c).Matches (World.Alike f names R) (Call.Alike f)
      (fun o o' => o' = o.mapError (HandlerError.rename f)) (step carrier' core' w' c') := by
  obtain ⟨stage, frames⟩ := c
  obtain ⟨stage', frames'⟩ := c'
  obtain ⟨hstage, rfl⟩ : stage.Alike f stage' ∧ frames' = frames := ⟨h.stage, h.frames⟩
  cases hstage with
  | enter m hadvices =>
    cases hadvices with
    | nil =>
      obtain ⟨hv, hcall⟩ := coreStep_alike hcore hw m frames'
      exact .goes hv hcall
    | cons hadvice hrest =>
      cases hadvice with
      | once stamping =>
        obtain ⟨hv, hcall⟩ := claimStep_alike hw stamping m hrest frames'
        exact .goes hv hcall
      | reconcile hr => exact .goes hw (cancelStep_alike hr m hrest frames')
      | intercept hname hdecide =>
        obtain ⟨hv, hcall⟩ := interceptStep_alike hw hname hdecide m hrest frames'
        exact .goes hv hcall
  | reconciling hr key m hadvices g =>
    refine (reconcileStep_matches hr hw key g).andThen (fun g g' hg => ?_)
      fun v v' o o' hv ho => ?_
    · rw [hg]
      exact ⟨.reconciling hr key m hadvices g, rfl⟩
    · subst ho
      cases o with
      | error e => exact .goes hv ⟨.leave (.error e), rfl⟩
      | ok n => exact .goes hv ⟨.enter m hadvices, rfl⟩
  | aggregating ha key m g =>
    refine (aggregateStep_matches hc ha hw key m g).andThen (fun g g' hg => ?_)
      fun v v' o o' hv ho => ?_
    · rw [hg]
      exact ⟨.aggregating ha key m g, rfl⟩
    · rw [ho]
      exact .goes hv ⟨.leave o, rfl⟩
  | leave outcome =>
    cases frames' with
    | nil => exact .ends hw rfl
    | cons frame frames => exact .goes (leaveFrame_alike hw outcome frame) ⟨.leave outcome, rfl⟩

theorem abandon_alike {c c' : Call} (hw : w.Alike f names R w') (h : c.Alike f c') :
    (abandon w c).Alike f names R (abandon w' c') := by
  obtain ⟨stage, frames⟩ := c
  obtain ⟨stage', frames'⟩ := c'
  obtain ⟨hstage, -⟩ : stage.Alike f stage' ∧ frames' = frames := ⟨h.stage, h.frames⟩
  cases hstage with
  | enter | leave => exact hw
  | reconciling hr key m hadvices g => exact Guarded.abandon_alike hw g
  | aggregating ha key m g => exact Guarded.abandon_alike hw g

end Chain
end Rendezvous
