/-
Header names are only names.

A flow that is made under other names does with renamed messages what the flow under the first
names does with the messages themselves.  Where a message goes is told by its headers, and agrees
(`Flow.route_alike`); the handlers match; so every step of a call is answered by a step of the same
kind, in worlds that stay alike (`Flow.step_matches`).  An induction over the moves carries this
through every run (`Traffic.run_alike`), and `Traffic.run_renamed` says what is left to see of it:
the outcomes, the claims, the groups, the accepted outputs and the dead letters are the renamed
ones.
-/
import Mathlib.Data.List.Forall2
import Mathlib.Logic.Equiv.Basic
import Rendezvous.Proofs.Account
import Rendezvous.Proofs.Renaming.Chain
import Rendezvous.Proofs.Traffic

namespace Rendezvous

variable {κ κ' : Type} {f : Renaming} {names : HeaderNames} {R : κ → κ' → Prop} {w : World κ}
  {w' : World κ'} {carrier : Carrier κ} {carrier' : Carrier κ'}

/-! ## Flows under other names -/

/-- The settings under other names; the advices of the user are replaced by those that do the same
under these names. -/
def FlowSettings.rename (f : Renaming) (s : FlowSettings) (advices : List Advice) : FlowSettings :=
  { s with names := s.names.map f.map, advices := advices }

/-- A flow under given names, and one that does the same under other names. -/
structure Flow.Alike (f : Renaming) (names : HeaderNames) (F F' : Flow) : Prop where
  named : F.names = names
  renamed : F'.names = names.map f.map
  advices : List.Forall₂ (Advice.Alike f) F.chain.advices F'.chain.advices
  core : F.chain.core.Alike f F'.chain.core

theorem FlowSettings.flow_alike (f : Renaming) (s : FlowSettings) {advices : List Advice}
    (h : List.Forall₂ (Advice.Alike f) s.advices advices) :
    s.flow.Alike f s.names (s.rename f advices).flow := by
  have hreconciler := Reconciler.default_alike f s.names s.lockTimeout
  have honce : List.Forall₂ (Advice.Alike f) (if s.idempotent then [.once s.stamping] else [])
      (if s.idempotent then [.once s.stamping] else []) := by
    split
    · exact .cons (.once _) .nil
    · exact .nil
  exact ⟨rfl, rfl, List.rel_append honce (.cons (.reconcile hreconciler) h),
    .aggregate (Aggregator.default_alike f s.names s.retry s.lockTimeout)⟩

/-! ## Routes -/

/-- Where a message goes, and where it goes under other names. -/
inductive Route.Alike (f : Renaming) (names : HeaderNames) : Route → Route → Prop
  | discard : Alike f names .discard .discard
  | uncorrelated : Alike f names (.uncorrelated (.missingHeader names.messageName))
      (.uncorrelated (.missingHeader (f.map names.messageName)))
  /-- the failure of a decoder names no header -/
  | undecodable (m : RawMessage) {e : FlowError} (h : e.rename f = e) :
      Alike f names (.undecodable m e) (.undecodable (m.rename f) e)
  | accept (m : EventMessage) : Alike f names (.accept m) (.accept (m.rename f))

namespace Flow

theorem decode_rename (f : Renaming) (m : RawMessage) :
    decode (m.rename f) = (decode m).map (Message.rename f) := by
  have hpayload : (m.rename f).payload = m.payload := rfl
  unfold decode
  rw [hpayload]
  cases EventPayload.decode m.payload with
  | error p => rfl
  | ok payload => exact congrArg Except.ok (Message.assemble_rename f m.id m.headers payload).symm

theorem rename_of_decode {m : RawMessage} {e : FlowError} (h : decode m = .error e) :
    e.rename f = e := by
  unfold decode at h
  split at h
  · cases h
    rfl
  · cases h

variable {F F' : Flow}

theorem route_alike (hF : F.Alike f names F') (m : RawMessage) :
    (F.route m).Alike f names (F'.route (m.rename f)) := by
  have hfilter : F'.filter (m.rename f) = F.filter m := by
    rw [filter, filter, hF.named, hF.renamed]
    exact Headers.present_rename f m.headers names.eventType
  have hderive : F'.derive (m.rename f) =
      (F.derive m).mapError (CorrelationError.rename f) := by
    rw [derive, derive, hF.named, hF.renamed]
    exact Correlation.ofEvent_rename f names m.headers
  unfold route
  rw [hfilter, hderive]
  split
  · cases hkey : F.derive m with
    | error e =>
      obtain rfl : e = .missingHeader names.messageName := by
        rw [derive, hF.named, Correlation.ofEvent] at hkey
        split at hkey
        · exact (Except.error.inj hkey).symm
        · cases hkey
      exact .uncorrelated
    | ok key =>
      have hkeyed : (m.rename f).withText F'.names.correlationId key =
          (m.withText F.names.correlationId key).rename f := by
        rw [hF.named, hF.renamed, Message.withText_rename]
        rfl
      dsimp only [Except.mapError]
      rw [hkeyed, decode_rename]
      cases hdecode : decode (m.withText F.names.correlationId key) with
      | error e => exact .undecodable _ (rename_of_decode hdecode)
      | ok decoded => exact .accept decoded
  · exact .discard

/-! ## Steps -/

/-- Stages of calls that do the same under other names. -/
inductive Stage.Alike (f : Renaming) (names : HeaderNames) : Stage → Stage → Prop
  | arrived (m : RawMessage) : Alike f names (.arrived m) (.arrived (m.rename f))
  | rejecting {m m' : RawMessage} (turned : m.Turned f names m')
      (verdict : Except FlowError FlowOutcome) :
      Alike f names (.rejecting m verdict) (.rejecting m' (verdict.mapError (FlowError.rename f)))
  | handling (since : Nat) {call call' : Chain.Call} (h : call.Alike f call') :
      Alike f names (.handling since call) (.handling since call')

theorem withReason_turned (hF : F.Alike f names F') (m : RawMessage) (reason : String) :
    (F.withReason m reason).Turned f names (F'.withReason (m.rename f) reason) := by
  have hreason : F'.withReason (m.rename f) reason = (F.withReason m reason).rename f := by
    rw [withReason, withReason, hF.named, hF.renamed, Message.withText_rename]
    rfl
  rw [hreason]
  exact .plain _

theorem verdict_mapError (f : Renaming) (o : Except HandlerError Unit) :
    verdict (o.mapError (HandlerError.rename f)) =
      (verdict o).mapError (FlowError.rename f) := by
  cases o <;> rfl

/-- A call of a flow matches the call with the renamed message. -/
theorem step_matches (hc : carrier.Alike f R carrier') (hF : F.Alike f names F')
    (hw : w.Alike f names R w') {st st' : Stage} (h : st.Alike f names st') :
    (F.step carrier w st).Matches (World.Alike f names R) (Stage.Alike f names)
      (fun o o' => o' = o.mapError (FlowError.rename f)) (F'.step carrier' w' st') := by
  cases h with
  | arrived m =>
    have hroute := route_alike hF m
    have hreceived : (w.count .received).Alike f names R (w'.count .received) := hw.counted _ _
    rw [step, step]
    generalize F.route m = route, F'.route (m.rename f) = route' at hroute ⊢
    cases hroute with
    | discard =>
      exact .goes (hreceived.counted _ _) (.rejecting (.plain m) (.ok .discarded))
    | uncorrelated =>
      refine .goes (hreceived.counted _ _) (.rejecting ?_ (.error (.correlation _)))
      rw [withReason, withReason, hF.named, hF.renamed]
      exact .unnamed m
    | @undecodable m e he =>
      have hrejecting : Stage.Alike f names (.rejecting (F.withReason m e.message) (.error e))
          (.rejecting (F'.withReason (m.rename f) e.message) (.error (e.rename f))) :=
        .rejecting (withReason_turned hF m e.message) (.error e)
      rw [he] at hrejecting
      exact .goes (hreceived.counted _ _) hrejecting
    | accept m =>
      have hnow : (w'.count .received).now = (w.count .received).now := hreceived.now
      dsimp only
      rw [hnow]
      exact .goes hreceived (.handling _ ⟨.enter m hF.advices, rfl⟩)
  | rejecting turned verdict =>
    obtain ⟨v, v', offered, hoffer, hoffer', hv⟩ := hw.offer turned
    rw [step, step, hoffer, hoffer']
    rcases offered with e | _
    · exact .ends hv rfl
    · exact .ends hv rfl
  | handling since hcall =>
    refine (Chain.step_matches hc hF.core hw hcall).andThen
      (fun call call' hcall => .handling since hcall) fun v v' o o' hv ho => ?_
    rw [ho, verdict_mapError]
    exact .ends (hv.counted _ _) rfl

theorem suspends_alike {st st' : Stage} (h : st.Alike f names st') :
    st'.suspends = st.suspends := by
  have hinner (s : Aggregation.Stage) : (s.rename f).suspends = s.suspends := by cases s <;> rfl
  cases h with
  | arrived | rejecting => rfl
  | @handling since call call' hcall =>
    obtain ⟨stage, frames⟩ := call
    obtain ⟨stage', frames'⟩ := call'
    show stage'.suspends = stage.suspends
    have hstage : stage.Alike f stage' := hcall.stage
    cases hstage with
    | enter | leave => rfl
    | reconciling hr key m hadvices g => cases g <;> rfl
    | aggregating ha key m g =>
      cases g with
      | inside t s => exact hinner s
      | asking | lining | queued | givingUp | leaving => rfl

theorem abandon_alike (hw : w.Alike f names R w') {st st' : Stage} (h : st.Alike f names st') :
    (abandon w st).Alike f names R (abandon w' st') := by
  cases h with
  | arrived | rejecting => exact hw
  | handling since hcall => exact Chain.abandon_alike hw hcall

end Flow

/-! ## Moves and runs -/

def Move.rename (f : Renaming) : Move → Move
  | .send m => .send (m.rename f)
  | .step call => .step call
  | .drop call => .drop call
  | .pass now => .pass now
  | .interrupt => .interrupt
  | .clear => .clear

/-- Calls that do the same under other names. -/
inductive Sending.Alike (f : Renaming) (names : HeaderNames) : Sending → Sending → Prop
  | running {st st' : Flow.Stage} (h : st.Alike f names st') :
      Alike f names (.running st) (.running st')
  | returned (outcome : Except FlowError FlowOutcome) :
      Alike f names (.returned outcome) (.returned (outcome.mapError (FlowError.rename f)))
  | dropped : Alike f names .dropped .dropped

/-- What a step makes of a world and a call is alike if the step matches. -/
theorem Sending.after?_alike {p : Progress (World κ) Flow.Stage (Except FlowError FlowOutcome)}
    {p' : Progress (World κ') Flow.Stage (Except FlowError FlowOutcome)}
    (h : p.Matches (World.Alike f names R) (Flow.Stage.Alike f names)
      (fun o o' => o' = o.mapError (FlowError.rename f)) p') :
    Option.Rel (fun a a' => a.1.Alike f names R a'.1 ∧ a.2.Alike f names a'.2) (after? p)
      (after? p') := by
  cases h with
  | waits wake => exact .none
  | goes hw hst | pauses hw hst | resumes hw hst => exact .some ⟨hw, .running hst⟩
  | ends hw ho =>
    subst ho
    exact .some ⟨hw, .returned _⟩

/-- What a call returned, if it did. -/
def Sending.result? : Sending → Option (Except FlowError FlowOutcome)
  | returned outcome => some outcome
  | _ => none

namespace Traffic

/-- Traffics that differ by header names. -/
structure Alike (f : Renaming) (names : HeaderNames) (R : κ → κ' → Prop) (s : Traffic κ)
    (s' : Traffic κ') : Prop where
  world : s.world.Alike f names R s'.world
  calls : List.Forall₂ (Sending.Alike f names) s.calls s'.calls

variable {F F' : Flow} {s : Traffic κ} {s' : Traffic κ'}

theorem Alike.stage? (h : s.Alike f names R s') (i : Nat) :
    Option.Rel (Flow.Stage.Alike f names) (s.stage? i) (s'.stage? i) := by
  have hcall : Option.Rel (Sending.Alike f names) s.calls[i]? s'.calls[i]? := by
    have hdrop := List.forall₂_drop i h.calls
    rw [← List.head?_drop, ← List.head?_drop]
    generalize s.calls.drop i = calls, s'.calls.drop i = calls' at hdrop ⊢
    cases hdrop with
    | nil => exact .none
    | cons hcall hrest => exact .some hcall
  unfold Traffic.stage?
  generalize s.calls[i]? = call, s'.calls[i]? = call' at hcall ⊢
  cases hcall with
  | none => exact .none
  | some hcall =>
    cases hcall with
    | running hst => exact .some hst
    | returned | dropped => exact .none

theorem Alike.put (h : s.Alike f names R s') (i : Nat) {v : World κ} {v' : World κ'}
    (hv : v.Alike f names R v') {c c' : Sending} (hcall : c.Alike f names c') :
    (s.put i v c).Alike f names R (s'.put i v' c') := by
  refine ⟨hv, ?_⟩
  show List.Forall₂ _ (s.calls.set i c) (s'.calls.set i c')
  rw [List.set_eq_take_append_cons_drop, List.set_eq_take_append_cons_drop, h.calls.length_eq]
  split
  · exact List.rel_append (List.forall₂_take i h.calls)
      (.cons hcall (List.forall₂_drop (i + 1) h.calls))
  · exact h.calls

/-- A move can be made under other names if it can be made, and leads to the same. -/
theorem move_alike (hc : carrier.Alike f R carrier') (hF : F.Alike f names F')
    (h : s.Alike f names R s') (mv : Move) :
    Option.Rel (Alike f names R) (s.move carrier F mv) (s'.move carrier' F' (mv.rename f)) := by
  cases mv with
  | send m => exact .some ⟨h.world, List.rel_append h.calls (.cons (.running (.arrived m)) .nil)⟩
  | step i =>
    have hstage := h.stage? i
    rw [Move.rename, move, move]
    generalize s.stage? i = st, s'.stage? i = st' at hstage ⊢
    cases hstage with
    | none => exact .none
    | @some st st' hst =>
      have hafter := Sending.after?_alike (Flow.step_matches hc hF h.world hst)
      dsimp only [Option.bind]
      generalize Sending.after? (F.step carrier s.world st) = after,
        Sending.after? (F'.step carrier' s'.world st') = after' at hafter ⊢
      cases hafter with
      | none => exact .none
      | some ha => exact .some (h.put i ha.1 ha.2)
  | drop i =>
    have hstage := h.stage? i
    rw [Move.rename, move, move]
    generalize s.stage? i = st, s'.stage? i = st' at hstage ⊢
    cases hstage with
    | none => exact .none
    | some hst =>
      dsimp only [Option.bind]
      rw [Flow.suspends_alike hst]
      split
      · exact .some (h.put i (Flow.abandon_alike h.world hst) .dropped)
      · exact .none
  | pass now =>
    rw [Move.rename, move, move, h.world.now]
    split
    · exact .some ⟨h.world.setTime now, h.calls⟩
    · exact .none
  | interrupt =>
    refine .some ⟨?_, h.calls⟩
    rw [h.world.desk]
    exact h.world.withDesk _
  | clear =>
    refine .some ⟨?_, h.calls⟩
    rw [h.world.desk]
    exact h.world.withDesk _

theorem run_alike (hc : carrier.Alike f R carrier') (hF : F.Alike f names F')
    (h : s.Alike f names R s') (moves : List Move) :
    Option.Rel (Alike f names R) (run carrier F moves s)
      (run carrier' F' (moves.map (Move.rename f)) s') := by
  induction moves generalizing s s' with
  | nil => exact .some h
  | cons mv rest ih =>
    have hmove := move_alike hc hF h mv
    rw [List.map_cons, run, run]
    generalize s.move carrier F mv = t, s'.move carrier' F' (mv.rename f) = t' at hmove ⊢
    cases hmove with
    | none => exact .none
    | some ht => exact ih ht

/-! ## What is left to see -/

/-- What the calls returned, in the order they were made. -/
def results (s : Traffic κ) : List (Option (Except FlowError FlowOutcome)) :=
  s.calls.map Sending.result?

/-- A traffic ended like another one, but for the names of headers. -/
structure Renamed (f : Renaming) (names : HeaderNames) (s : Traffic κ) (s' : Traffic κ') :
    Prop where
  results : s'.results = s.results.map (Option.map (Except.mapError (FlowError.rename f)))
  claims : s'.world.claims = s.world.claims
  groups : s'.world.groups = s.world.groups.rename f
  outputs : ∀ of : CorrelationKey → Bool,
    outputs of s'.world.history = (outputs of s.world.history).map (Release.rename f)
  letters : List.Forall₂ (DeadLetter.Alike f names) s.world.letters.entries
    s'.world.letters.entries

theorem Alike.results (h : s.Alike f names R s') :
    s'.results = s.results.map (Option.map (Except.mapError (FlowError.rename f))) := by
  have hcalls := h.calls
  rw [Traffic.results, Traffic.results]
  generalize s.calls = calls, s'.calls = calls' at hcalls ⊢
  induction hcalls with
  | nil => rfl
  | cons hcall hrest ih =>
    rw [List.map_cons, List.map_cons, List.map_cons, ih]
    cases hcall <;> rfl

theorem Alike.outputs (h : s.Alike f names R s') (of : CorrelationKey → Bool) :
    outputs of s'.world.history = (outputs of s.world.history).map (Release.rename f) := by
  have hjournal := h.world.journal
  rw [World.history, World.history]
  generalize s.world.journal = journal, s'.world.journal = journal' at hjournal ⊢
  induction hjournal with
  | nil => rfl
  | cons hevent hrest ih =>
    cases hevent with
    | accepted key r =>
      rw [List.filterMap_cons, List.filterMap_cons]
      dsimp only [Event.deed?]
      rw [Rendezvous.outputs, Rendezvous.outputs]
      split
      · rw [ih, List.map_append]
        rfl
      · exact ih
    | asked | appended | removed | attempted | offered | settled | entered | left | noted =>
      exact ih

theorem Alike.toRenamed (h : s.Alike f names R s') : s.Renamed f names s' :=
  ⟨h.results, h.world.claims, h.world.groups, h.outputs, h.world.letters.entries⟩

/-- A run under other names is the run under the first names, step by step: it can be made if that
one can be made, and it ends with the same outcomes, claims, groups, accepted outputs and dead
letters, up to the names.  The channels take no notice of names, and the stores and the error
channel fail in both runs as they are told. -/
theorem run_renamed (f : Renaming) {channel : κ} {channel' : κ'}
    (hc : carrier.Alike f R carrier') (hchannel : R channel channel') (s : FlowSettings)
    {advices : List Advice} (hadvices : List.Forall₂ (Advice.Alike f) s.advices advices)
    (clock : Clock) (claims : ClaimStore) (size : Nat) (storeFaults : Faults StoreCall StoreError)
    (claimFaults : Faults ClaimCall StoreError) (letterFaults : Faults Unit ChannelError)
    (moves : List Move) :
    Option.Rel (Renamed f s.names)
      (run carrier s.flow moves
        (.start ((World.start channel clock claims (.ofSize size s.names.error)).failing
          storeFaults claimFaults letterFaults)))
      (run carrier' (s.rename f advices).flow (moves.map (Move.rename f))
        (.start ((World.start channel' clock claims (.ofSize size (f.map s.names.error))).failing
          storeFaults claimFaults letterFaults))) := by
  have hworld := (World.Alike.start f s.names hchannel clock claims size).failing storeFaults
    claimFaults letterFaults
  have hstart : (Traffic.start _).Alike f s.names R (Traffic.start _) := ⟨hworld, .nil⟩
  have hseen {t : Option (Traffic κ)} {t' : Option (Traffic κ')}
      (h : Option.Rel (Alike f s.names R) t t') : Option.Rel (Renamed f s.names) t t' := by
    cases h with
    | none => exact .none
    | some ht => exact .some ht.toRenamed
  exact hseen (run_alike hc (s.flow_alike f hadvices) hstart moves)

end Traffic

/-! ## A renaming to try things on -/

/-- Two names change places. -/
def Renaming.swap (a b : String) (ha : a ≠ Headers.idName) (hb : b ≠ Headers.idName) : Renaming :=
  ⟨Equiv.swap a b, (Equiv.swap a b).injective, Equiv.swap_apply_of_ne_of_ne ha.symm hb.symm⟩

/-- Outlets that recorded the same messages, and take as long and fail alike. -/
structure Outlet.Alike (f : Renaming) (o o' : Outlet) : Prop where
  latencies : o'.latencies = o.latencies
  faults : o'.faults = o.faults
  sink : ∃ accepted, o.sink = .recorder accepted ∧
    o'.sink = .recorder (accepted.map (Message.rename f))

/-- A recorder takes no notice of header names. -/
theorem Outlet.carrier_alike (f : Renaming) :
    Outlet.carrier.Alike f (Outlet.Alike f) Outlet.carrier := by
  refine ⟨fun {o o'} h => ?_, fun {o o'} m h => ?_⟩
  · show (Outlet.delay o').2 = (Outlet.delay o).2 ∧ (Outlet.delay o).1.Alike f (Outlet.delay o').1
    unfold Outlet.delay
    rw [h.latencies]
    cases o.latencies with
    | nil => exact ⟨rfl, h⟩
    | cons millis rest => exact ⟨rfl, ⟨rfl, h.faults, h.sink⟩⟩
  · obtain ⟨accepted, hsink, hsink'⟩ := h.sink
    show (Outlet.send o' (m.rename f)).2 = (Outlet.send o m).2 ∧
      (Outlet.send o m).1.Alike f (Outlet.send o' (m.rename f)).1
    unfold Outlet.send
    rw [h.faults, hsink, hsink']
    rcases o.faults.next () with ⟨_ | e, rest⟩
    · refine ⟨rfl, ⟨h.latencies, rfl, accepted ++ [m], rfl, congrArg Sink.recorder ?_⟩⟩
      rw [List.map_append]
      rfl
    · exact ⟨rfl, ⟨h.latencies, rfl, accepted, rfl, rfl⟩⟩

/-- A message that is about no event. -/
def orderUnnamed (id : Nat) : RawMessage :=
  Message.assemble (Uuid.ofNat id) (Headers.none.putText "eventType" EventType.sent.text)
    (Text.toBytes "")

/-- A message without a name is rejected, and a payment that is awaited is delivered. -/
def orderMoves : List Move :=
  [.send (orderUnnamed 3), .step 0, .step 0, .send (orderAwaited 1)] ++
    List.replicate 11 (.step 1) ++ [.send (orderSent 2)] ++ List.replicate 9 (.step 2) ++
    [.pass 5] ++ List.replicate 7 (.step 2)

/-- A world whose channel takes five milliseconds for the first output. -/
def orderWorld (errorHeader : String) : World Outlet :=
  (World.start ⟨[5], [], .recorder []⟩ ⟨Stamp.start2025, 1⟩ (.ofCapacity 10)
    (.ofSize 10 errorHeader)).failing [] [] []

/-- The header of the type and that of the reason change places. -/
def Renaming.typeForReason : Renaming := .swap "eventType" "errorMessage" (by decide) (by decide)

namespace Traffic

/-- An output and a dead letter are the same if two headers change places. -/
theorem run_renamed_of_swap : ∃ t t' : Traffic Outlet,
    run Outlet.carrier (FlowSettings.flow {}) orderMoves (.start (orderWorld "errorMessage")) =
        some t ∧
      run Outlet.carrier (FlowSettings.rename .typeForReason {} []).flow
          (orderMoves.map (Move.rename .typeForReason))
          (.start (orderWorld (Renaming.typeForReason.map "errorMessage"))) = some t' ∧
      t.Renamed .typeForReason {} t' ∧ t.world.channel.accepted.length = 1 ∧
      t.world.letters.size = 1 := by
  have hends : (run Outlet.carrier (FlowSettings.flow {}) orderMoves
      (.start (orderWorld "errorMessage"))).map
      (fun t => (t.world.channel.accepted.length, t.world.letters.size)) = some (1, 1) := by
    decide +kernel
  obtain ⟨t, ht, hsizes⟩ := Option.map_eq_some_iff.mp hends
  have hchannel : Outlet.Alike .typeForReason ⟨[5], [], .recorder []⟩ ⟨[5], [], .recorder []⟩ :=
    ⟨rfl, rfl, [], rfl, rfl⟩
  have hrel := run_renamed .typeForReason (Outlet.carrier_alike _) hchannel {} .nil
    ⟨Stamp.start2025, 1⟩ (.ofCapacity 10) 10 [] [] [] orderMoves
  change Option.Rel _ (run Outlet.carrier (FlowSettings.flow {}) orderMoves
    (.start (orderWorld "errorMessage"))) _ at hrel
  rw [ht] at hrel
  obtain ⟨haccepted, hletters⟩ := Prod.mk.inj hsizes
  generalize hrun' : run _ _ (orderMoves.map _) _ = r' at hrel
  cases hrel with
  | some hrenamed => exact ⟨t, _, ht, hrun', hrenamed, haccepted, hletters⟩

end Traffic
end Rendezvous
