/-
Where a message goes.

A message without an event type, one without a name and one with a body that is no event are turned
away: the call counts it and offers it to the error channel, once and with the right reason, and
then it is at its end.  Every other message is handed to the chain of handlers, once, decoded and
with its correlation id, and from then on the call does what the chain does.  These are four ways
apart, told by the message alone (`Flow.routed`).  On the first three nothing happens to groups,
claims and outputs, and on the fourth nothing happens to the error channel.

What a call does is told by a walk, the list of the worlds that its own steps met and left.  Between
its steps other calls do with the world what they like.
-/
import Rendezvous.Config.Source
import Rendezvous.Proofs.Letters
import Rendezvous.Proofs.Transport.Record

namespace Rendezvous

/-! ## Walks -/

/-- What a task did so far: the worlds that its steps met and left, and how far it got. -/
inductive Walk {ω σ ρ : Type} (step : ω → σ → Progress ω σ ρ) :
    ω → σ → List (ω × ω) → Slot σ ρ → Prop
  /-- it did nothing yet -/
  | here {w s} : Walk step w s [] (.running s)
  /-- others change the world -/
  | amid {w v s ps slot} (rest : Walk step v s ps slot) : Walk step w s ps slot
  /-- it takes a step -/
  | steps {w s v t ps slot} (next : (step w s).next? = some (v, t))
      (rest : Walk step v t ps slot) : Walk step w s ((w, v) :: ps) slot
  /-- it takes its last step -/
  | ends {w s v r} (last : step w s = .ends v r) : Walk step w s [(w, v)] (.finished r)

section
variable {ω σ ρ : Type} {step : ω → σ → Progress ω σ ρ} {w : ω} {s : σ} {ps : List (ω × ω)}
  {slot : Slot σ ρ}

/-- How a walk begins, whatever others do before. -/
theorem Walk.begins (h : Walk step w s ps slot) :
    (ps = [] ∧ slot = .running s) ∨
      (∃ u v t rest, (step u s).next? = some (v, t) ∧ Walk step v t rest slot ∧
        ps = (u, v) :: rest) ∨
      ∃ u v r, step u s = .ends v r ∧ ps = [(u, v)] ∧ slot = .finished r := by
  induction h with
  | here => exact Or.inl ⟨rfl, rfl⟩
  | amid rest ih => exact ih
  | steps next rest ih => exact Or.inr (Or.inl ⟨_, _, _, _, next, rest, rfl⟩)
  | ends last => exact Or.inr (Or.inr ⟨_, _, _, last, rfl, rfl⟩)

/-- What every step ensures holds of all steps of a walk. -/
theorem Walk.forall {R : ω → ω → Prop} (h : Walk step w s ps slot)
    (hstep : ∀ w s, (step w s).Ensures (fun v _ => R w v) fun v _ => R w v) :
    ∀ p ∈ ps, R p.1 p.2 := by
  induction h with
  | here => exact fun p hp => absurd hp List.not_mem_nil
  | amid rest ih => exact ih
  | @steps w s v t ps slot next rest ih =>
    refine List.forall_mem_cons.mpr ⟨?_, ih⟩
    exact (hstep w s).of_next? next
  | @ends w s v r last =>
    have hlast := hstep w s
    rw [last] at hlast
    exact List.forall_mem_singleton.mpr hlast

end

variable {κ : Type} {carrier : Carrier κ}

namespace World

/-- Nothing happened but that something was counted. -/
def Counts (w v : World κ) : Prop := ∃ metrics, v = { w with metrics := metrics }

/-- Nothing happened to groups, claims and the channel for outputs. -/
structure SameStores (w v : World κ) : Prop where
  groups : v.groups = w.groups
  claims : v.claims = w.claims
  channel : v.channel = w.channel

theorem Counts.sameStores {w v : World κ} (h : w.Counts v) : w.SameStores v := by
  obtain ⟨metrics, rfl⟩ := h
  exact ⟨rfl, rfl, rfl⟩

theorem Counts.sameLetters {w v : World κ} (h : w.Counts v) : w.SameLetters v := by
  obtain ⟨metrics, rfl⟩ := h
  exact ⟨rfl, rfl, rfl⟩

theorem bury_sameStores (w : World κ) (m : RawMessage) : w.SameStores (w.bury m) := by
  unfold bury
  dsimp only
  split <;> exact ⟨rfl, rfl, rfl⟩

theorem bury_offers (w : World κ) (m : RawMessage) : (w.bury m).offers = w.offers := by
  unfold bury
  dsimp only
  split <;> rfl

/-- A message that is offered is the newest one that the error channel got, accepted or not. -/
theorem offers_offer (w : World κ) (m : RawMessage) : (w.offer m).1.offers = m :: w.offers := by
  unfold offer
  dsimp only
  split
  · rfl
  · rw [bury_offers]
    rfl

theorem offer_kept (w : World κ) (m : RawMessage) (h : (w.offer m).2 = .ok ()) :
    ∃ time, (w.offer m).1.letters = w.letters.push m time := by
  unfold offer at h ⊢
  dsimp only at h ⊢
  split at h
  · cases h
  · unfold bury
    dsimp only
    split <;> exact ⟨_, rfl⟩

theorem offer_sameStores (w : World κ) (m : RawMessage) : w.SameStores (w.offer m).1 := by
  have hbury (v : World κ) (hv : w.SameStores v) : w.SameStores (v.bury m) := by
    have h := v.bury_sameStores m
    exact ⟨h.groups.trans hv.groups, h.claims.trans hv.claims, h.channel.trans hv.channel⟩
  unfold offer
  dsimp only
  split
  · exact ⟨rfl, rfl, rfl⟩
  · exact hbury _ ⟨rfl, rfl, rfl⟩

end World

/-! ## The four ways -/

namespace Flow

/-- The answer of a call that offered a message to the error channel. -/
def answer (verdict : Except FlowError FlowOutcome) :
    Except ChannelError Unit → Except FlowError FlowOutcome
  | .ok () => verdict
  | .error e => .error (.errorChannel e)

/-- What a call does with a message that is turned away: it counts, and offers one message to the
error channel.  Nothing else of it reaches the channel, and a channel that takes the message keeps
it. -/
inductive TurnedAway (m offered : RawMessage) (verdict : Except FlowError FlowOutcome) :
    List (World κ × World κ) → Slot Stage (Except FlowError FlowOutcome) → Prop
  | here : TurnedAway m offered verdict [] (.running (.arrived m))
  | counted {w v} (counts : w.Counts v) :
      TurnedAway m offered verdict [(w, v)] (.running (.rejecting offered verdict))
  | offered {w v u} (counts : w.Counts v) (quiet : v.offers = w.offers)
      (reaches : (u.offer offered).1.offers = offered :: u.offers)
      (kept : (u.offer offered).2 = .ok () →
        ∃ time, (u.offer offered).1.letters = u.letters.push offered time) :
      TurnedAway m offered verdict [(w, v), (u, (u.offer offered).1)]
        (.finished (answer verdict (u.offer offered).2))

/-- The first step of a call that turns its message away, whatever world it meets. -/
def TurnsAway (carrier : Carrier κ) (f : Flow) (m offered : RawMessage)
    (verdict : Except FlowError FlowOutcome) : Prop :=
  ∀ w : World κ, ∃ v, w.Counts v ∧
    f.step carrier w (.arrived m) = .goes v (.rejecting offered verdict)

/-- A call that never waits: it is at its end with its second step, whatever worlds it meets. -/
def Prompt (carrier : Carrier κ) (f : Flow) (m : RawMessage) : Prop :=
  ∀ w : World κ, ∃ v st, f.step carrier w (.arrived m) = .goes v st ∧
    ∀ u, ∃ u' result, f.step carrier u st = .ends u' result

/-- What a call does with a message that is handed to the handlers: it counts, walks through the
chain from its beginning, and notes how long that took. -/
inductive HandedOver (carrier : Carrier κ) (chain : Chain) (m : RawMessage) (e : EventMessage) :
    List (World κ × World κ) → Slot Stage (Except FlowError FlowOutcome) → Prop
  | here : HandedOver carrier chain m e [] (.running (.arrived m))
  | handling {w v ps call} (counts : w.Counts v)
      (walk : Walk (Chain.step carrier chain.core) v (chain.begin e) ps (.running call)) :
      HandedOver carrier chain m e ((w, v) :: ps) (.running (.handling w.now call))
  | handled {w v ps u u' outcome} (counts : w.Counts v)
      (walk : Walk (Chain.step carrier chain.core) v (chain.begin e) (ps ++ [(u, u')])
        (.finished outcome)) :
      HandedOver carrier chain m e
        ((w, v) :: ps ++ [(u, u'.time .handled (u'.now - w.now))])
        (.finished (verdict outcome))

section
variable {f : Flow} {m offered : RawMessage} {e : EventMessage} {w : World κ}
  {result : Except FlowError FlowOutcome} {ps : List (World κ × World κ)}
  {slot : Slot Stage (Except FlowError FlowOutcome)}

theorem TurnedAway.sameStores (h : TurnedAway m offered result ps slot) :
    ∀ p ∈ ps, p.1.SameStores p.2 := by
  cases h with
  | here => exact fun p hp => absurd hp List.not_mem_nil
  | counted counts => exact List.forall_mem_singleton.mpr counts.sameStores
  | offered counts =>
    exact List.forall_mem_cons.mpr ⟨counts.sameStores,
      List.forall_mem_singleton.mpr (World.offer_sameStores _ _)⟩

theorem HandedOver.sameLetters {chain : Chain} (h : HandedOver carrier chain m e ps slot) :
    ∀ p ∈ ps, p.1.SameLetters p.2 := by
  cases h with
  | here => exact fun p hp => absurd hp List.not_mem_nil
  | handling counts walk =>
    exact List.forall_mem_cons.mpr ⟨counts.sameLetters,
      walk.forall fun w c => Chain.step_letters chain.core c⟩
  | @handled w v ps u u' outcome counts walk =>
    have hchain := walk.forall fun w c => Chain.step_letters chain.core c
    have hlast : u.SameLetters u' := hchain (u, u') (by simp)
    rw [List.cons_append]
    refine List.forall_mem_cons.mpr ⟨counts.sameLetters, List.forall_mem_append.mpr ⟨?_, ?_⟩⟩
    · exact fun p hp => hchain p (List.mem_append_left _ hp)
    · exact List.forall_mem_singleton.mpr ⟨hlast.letters, hlast.letterFaults, hlast.offers⟩

theorem step_rejecting (u : World κ) : f.step carrier u (.rejecting offered result) =
    .ends (u.offer offered).1 (answer result (u.offer offered).2) := by
  rw [step]
  split <;> rename_i heq <;> rw [heq] <;> rfl

theorem TurnsAway.prompt (h : TurnsAway carrier f m offered result) : Prompt carrier f m := by
  intro w
  obtain ⟨v, -, hgoes⟩ := h w
  exact ⟨v, _, hgoes, fun u => ⟨_, _, step_rejecting u⟩⟩

theorem walk_rejecting (h : Walk (f.step carrier) w (.rejecting offered result) ps slot) :
    (ps = [] ∧ slot = .running (.rejecting offered result)) ∨
      ∃ u, ps = [(u, (u.offer offered).1)] ∧
        slot = .finished (answer result (u.offer offered).2) := by
  obtain hnone | ⟨u, v, t, rest, hnext, -, -⟩ | ⟨u, v, r, hlast, rfl, rfl⟩ := h.begins
  · exact Or.inl hnone
  · rw [step_rejecting] at hnext
    cases hnext
  · rw [step_rejecting] at hlast
    cases hlast
    exact Or.inr ⟨u, rfl, rfl⟩

/-- A call that turns its message away. -/
theorem walk_turnedAway (h : Walk (f.step carrier) w (.arrived m) ps slot)
    (hstep : TurnsAway carrier f m offered result) :
    TurnedAway m offered result ps slot := by
  obtain ⟨rfl, rfl⟩ | ⟨u, v, t, rest, hnext, hrest, rfl⟩ | ⟨u, v, r, hlast, -, -⟩ := h.begins
  · exact .here
  · obtain ⟨v', hcounts, hgoes⟩ := hstep u
    rw [hgoes] at hnext
    cases hnext
    obtain ⟨rfl, rfl⟩ | ⟨u', rfl, rfl⟩ := walk_rejecting hrest
    · exact .counted hcounts
    · exact .offered hcounts hcounts.sameLetters.offers (World.offers_offer u' offered)
        (World.offer_kept u' offered)
  · obtain ⟨v', -, hgoes⟩ := hstep u
    rw [hgoes] at hlast
    cases hlast

/-- Once the handlers have the message, the call does what the chain does. -/
theorem walk_handling {since : Nat} {call : Chain.Call}
    (h : Walk (f.step carrier) w (.handling since call) ps slot) :
    (∃ call', Walk (Chain.step carrier f.chain.core) w call ps (.running call') ∧
        slot = .running (.handling since call')) ∨
      ∃ qs u u' outcome,
        Walk (Chain.step carrier f.chain.core) w call (qs ++ [(u, u')]) (.finished outcome) ∧
        ps = qs ++ [(u, u'.time .handled (u'.now - since))] ∧
        slot = .finished (verdict outcome) := by
  generalize hst : Stage.handling since call = st at h
  induction h generalizing call with
  | here =>
    subst hst
    exact Or.inl ⟨call, .here, rfl⟩
  | amid rest ih =>
    obtain ⟨call', hwalk, hslot⟩ | ⟨qs, u, u', outcome, hwalk, hps, hslot⟩ := ih hst
    · exact Or.inl ⟨call', .amid hwalk, hslot⟩
    · exact Or.inr ⟨qs, u, u', outcome, .amid hwalk, hps, hslot⟩
  | @steps w s v t ps slot next rest ih =>
    subst hst
    obtain ⟨call', hcall, ht⟩ : ∃ call',
        (Chain.step carrier f.chain.core w call).next? = some (v, call') ∧
          Stage.handling since call' = t := by
      rw [step] at next
      cases hc : Chain.step carrier f.chain.core w call with
      | waits | ends =>
        rw [hc] at next
        cases next
      | goes v' call' | pauses v' call' | resumes v' call' =>
        rw [hc] at next
        cases next
        exact ⟨call', rfl, rfl⟩
    obtain ⟨c, hwalk, hslot⟩ | ⟨qs, u, u', outcome, hwalk, rfl, hslot⟩ := ih ht
    · exact Or.inl ⟨c, .steps hcall hwalk, hslot⟩
    · exact Or.inr ⟨(w, v) :: qs, u, u', outcome, .steps hcall hwalk, rfl, hslot⟩
  | @ends w s v r last =>
    subst hst
    rw [step] at last
    cases hc : Chain.step carrier f.chain.core w call with
    | waits | goes | pauses | resumes =>
      rw [hc] at last
      cases last
    | ends u' outcome =>
      rw [hc] at last
      cases last
      exact Or.inr ⟨[], w, u', outcome, .ends hc, rfl, rfl⟩

theorem step_accept (hroute : f.route m = .accept e) (u : World κ) :
    f.step carrier u (.arrived m) =
      .goes (u.count .received) (.handling u.now (f.chain.begin e)) := by
  simp only [step, hroute]
  rfl

/-- A call that hands its message to the handlers. -/
theorem walk_handedOver (h : Walk (f.step carrier) w (.arrived m) ps slot)
    (hroute : f.route m = .accept e) : HandedOver carrier f.chain m e ps slot := by
  have hstep (u : World κ) : f.step carrier u (.arrived m) =
      .goes (u.count .received) (.handling u.now (f.chain.begin e)) := step_accept hroute u
  have hcounts (u : World κ) : u.Counts (u.count .received) := ⟨_, rfl⟩
  obtain ⟨rfl, rfl⟩ | ⟨u, v, t, rest, hnext, hrest, rfl⟩ | ⟨u, v, r, hlast, -, -⟩ := h.begins
  · exact .here
  · rw [hstep] at hnext
    cases hnext
    obtain ⟨call, hwalk, rfl⟩ | ⟨qs, u', v', outcome, hwalk, rfl, rfl⟩ := walk_handling hrest
    · exact .handling (hcounts u) hwalk
    · exact .handled (hcounts u) hwalk
  · rw [hstep] at hlast
    cases hlast

theorem decode_error {p : Json.Problem} (hpayload : EventPayload.decode m.payload = .error p) :
    decode m = .error (.decode m.id p.message) := by
  rw [decode, hpayload]

theorem decode_ok {payload : EventPayload}
    (hpayload : EventPayload.decode m.payload = .ok payload) :
    decode m = .ok (Message.assemble m.id m.headers payload) := by
  rw [decode, hpayload]

/-- A message that carries its identity among its headers is decoded with the headers it has. -/
theorem decode_carried {payload : EventPayload}
    (hid : m.headers.find? Headers.idName = some (.str m.id.text))
    (hpayload : EventPayload.decode m.payload = .ok payload) :
    decode m = .ok ⟨m.id, m.headers, payload⟩ := by
  have hput : m.headers.putText Headers.idName m.id.text = m.headers := Dict.insert_of_find? hid
  rw [decode_ok hpayload, Message.assemble, hput]

theorem route_untyped (h : m.headers.present f.names.eventType = false) :
    f.route m = .discard := by
  rw [route, filter, h, if_neg Bool.false_ne_true]

theorem route_unnamed (h : m.headers.present f.names.eventType = true)
    (hname : m.headers.text? f.names.messageName = none) :
    f.route m = .uncorrelated (.missingHeader f.names.messageName) := by
  rw [route, filter, h, if_pos rfl, derive, Correlation.ofEvent, hname]

theorem route_undecodable {name : String} {cause : FlowError}
    (h : m.headers.present f.names.eventType = true)
    (hname : m.headers.text? f.names.messageName = some name)
    (hdecode : decode (m.withText f.names.correlationId
      (Correlation.keyOf name (m.headers.text? f.names.correlationKey))) = .error cause) :
    f.route m = .undecodable (m.withText f.names.correlationId
      (Correlation.keyOf name (m.headers.text? f.names.correlationKey))) cause := by
  rw [route, filter, h, if_pos rfl, derive, Correlation.ofEvent, hname]
  dsimp only
  rw [hdecode]

theorem route_accept {name : String} (h : m.headers.present f.names.eventType = true)
    (hname : m.headers.text? f.names.messageName = some name)
    (hdecode : decode (m.withText f.names.correlationId
      (Correlation.keyOf name (m.headers.text? f.names.correlationKey))) = .ok e) :
    f.route m = .accept e := by
  rw [route, filter, h, if_pos rfl, derive, Correlation.ofEvent, hname]
  dsimp only
  rw [hdecode]

end

/-- The key of a message of this name, under the default names. -/
def keyOf (m : RawMessage) (name : String) : CorrelationKey :=
  Correlation.keyOf name (m.headers.text? "messageEventCorrelationKey")

/-- The four ways of a message under the default names, told apart by its event type, its name and
its body. -/
inductive Routed (carrier : Carrier κ) (chain : Chain) (m : RawMessage)
    (ps : List (World κ × World κ)) (slot : Slot Stage (Except FlowError FlowOutcome)) : Prop
  /-- it has no event type -/
  | discarded (type : m.headers.present "eventType" = false)
      (course : TurnedAway m m (.ok .discarded) ps slot)
      (stores : ∀ p ∈ ps, p.1.SameStores p.2) (prompt : Prompt carrier ⟨{}, chain⟩ m)
  /-- it has no name -/
  | uncorrelated {cause : CorrelationError} (type : m.headers.present "eventType" = true)
      (name : m.headers.text? "messageEventName" = none)
      (reason : cause = .missingHeader "messageEventName")
      (course : TurnedAway m (m.withText "errorMessage" cause.message)
        (.error (.correlation cause)) ps slot)
      (stores : ∀ p ∈ ps, p.1.SameStores p.2) (prompt : Prompt carrier ⟨{}, chain⟩ m)
  /-- its body is no event -/
  | undecodable {s : String} {p : Json.Problem} {cause : FlowError}
      (type : m.headers.present "eventType" = true)
      (name : m.headers.text? "messageEventName" = some s)
      (body : EventPayload.decode m.payload = .error p)
      (reason : cause = .decode m.id p.message)
      (course : TurnedAway m
        ((m.withText "correlationId" (keyOf m s)).withText "errorMessage" cause.message)
        (.error cause) ps slot)
      (stores : ∀ p ∈ ps, p.1.SameStores p.2) (prompt : Prompt carrier ⟨{}, chain⟩ m)
  /-- the handlers take it -/
  | handed {s : String} {payload : EventPayload} (type : m.headers.present "eventType" = true)
      (name : m.headers.text? "messageEventName" = some s)
      (body : EventPayload.decode m.payload = .ok payload)
      (course : HandedOver carrier chain m
        ⟨m.id, m.headers.putText "correlationId" (keyOf m s), payload⟩ ps slot)
      (letters : ∀ p ∈ ps, p.1.SameLetters p.2)

/-- Every message that was built goes one of the four ways, whatever the handlers are.  Turned away,
it is offered to the error channel once, with the reason if there is one, and the call waits for
nothing and leaves groups, claims and outputs alone.  Handed over, it goes through the handlers
once, as it was built but for its correlation id and its decoded body, and the error channel is left
alone. -/
theorem routed (chain : Chain) (d : Draft Bytes) (s : Supply) {w : World κ}
    {ps : List (World κ × World κ)} {slot : Slot Stage (Except FlowError FlowOutcome)}
    (hwalk : Walk (step carrier ⟨{}, chain⟩) w (.arrived (d.build s).1) ps slot) :
    Routed carrier chain (d.build s).1 ps slot := by
  have hid (name : String) (value : String) (hname : Headers.idName ≠ name) :
      ((d.build s).1.withText name value).headers.find? Headers.idName =
        some (.str (d.build s).1.id.text) := by
    show ((d.build s).1.headers.insert name (.str value)).find? Headers.idName = _
    rw [Dict.find?_insert, if_neg hname, Draft.build_eq]
    exact Dict.find?_insert_self ..
  generalize (d.build s).1 = m at hwalk hid ⊢
  cases htype : m.headers.present "eventType" with
  | false =>
    have hroute : route ⟨{}, chain⟩ m = .discard := route_untyped htype
    have hturns : TurnsAway carrier ⟨{}, chain⟩ m m (.ok .discarded) := by
      refine fun u => ⟨(u.count .received).count .discarded, ⟨_, rfl⟩, ?_⟩
      simp only [step, hroute]
    have hturned := walk_turnedAway hwalk hturns
    exact .discarded htype hturned hturned.sameStores hturns.prompt
  | true =>
    cases hname : m.headers.text? "messageEventName" with
    | none =>
      have hroute : route ⟨{}, chain⟩ m = .uncorrelated (.missingHeader "messageEventName") :=
        route_unnamed htype hname
      have hturns : TurnsAway carrier ⟨{}, chain⟩ m
          (m.withText "errorMessage" (CorrelationError.missingHeader "messageEventName").message)
          (.error (.correlation (.missingHeader "messageEventName"))) := by
        refine fun u => ⟨(u.count .received).count .correlationErrors, ⟨_, rfl⟩, ?_⟩
        simp only [step, hroute, withReason]
      have hturned := walk_turnedAway hwalk hturns
      exact .uncorrelated htype hname rfl hturned hturned.sameStores hturns.prompt
    | some name =>
      cases hbody : EventPayload.decode m.payload with
      | error p =>
        have hroute : route ⟨{}, chain⟩ m =
            .undecodable (m.withText "correlationId" (keyOf m name)) (.decode m.id p.message) :=
          route_undecodable htype hname (decode_error hbody)
        have hturns : TurnsAway carrier ⟨{}, chain⟩ m
            ((m.withText "correlationId" (keyOf m name)).withText "errorMessage"
              (FlowError.decode m.id p.message).message)
            (.error (.decode m.id p.message)) := by
          refine fun u => ⟨(u.count .received).count .decodeErrors, ⟨_, rfl⟩, ?_⟩
          simp only [step, hroute, withReason]
        have hturned := walk_turnedAway hwalk hturns
        exact .undecodable htype hname hbody rfl hturned hturned.sameStores hturns.prompt
      | ok payload =>
        have hroute : route ⟨{}, chain⟩ m =
            .accept ⟨m.id, m.headers.putText "correlationId" (keyOf m name), payload⟩ :=
          route_accept htype hname (decode_carried (hid "correlationId" _ (by decide)) hbody)
        have hover := walk_handedOver hwalk hroute
        exact .handed htype hname hbody hover hover.sameLetters

/-- A sent message without a name is turned away, and its call ends with the second step. -/
theorem routed_of_unnamed : ∃ (d : Draft Bytes) (s : Supply) (w : World (List RawMessage))
    (ps : List (World (List RawMessage) × World (List RawMessage))),
    Walk (step Carrier.taker (FlowSettings.flow {})) w (.arrived (d.build s).1) ps
        (.finished (.error (.correlation (.missingHeader "messageEventName")))) ∧
      ps.length = 2 ∧
      Routed Carrier.taker (FlowSettings.flow {}).chain (d.build s).1 ps
        (.finished (.error (.correlation (.missingHeader "messageEventName")))) := by
  let d : Draft Bytes :=
    { payload := [], headers := Headers.none.putText "eventType" "MESSAGE_SENT" }
  let s : Supply := ⟨Uuid.ofNat, 7⟩
  let w : World (List RawMessage) :=
    .start [] ⟨Stamp.start2025, 1⟩ (.ofCapacity 10) (.ofSize 10 "errorMessage")
  let v : World (List RawMessage) := (w.count .received).count .correlationErrors
  let cause : CorrelationError := .missingHeader "messageEventName"
  let offered : RawMessage := (d.build s).1.withText "errorMessage" cause.message
  have hroute : (FlowSettings.flow {}).route (d.build s).1 = .uncorrelated cause :=
    route_unnamed (by decide +kernel) (by decide +kernel)
  have hfirst : (step Carrier.taker (FlowSettings.flow {}) w (.arrived (d.build s).1)).next? =
      some (v, .rejecting offered (.error (.correlation cause))) := by
    simp only [step, hroute]
    rfl
  have hwalk : Walk (step Carrier.taker (FlowSettings.flow {})) w (.arrived (d.build s).1)
      [(w, v), (v, (v.offer offered).1)] (.finished (.error (.correlation cause))) :=
    .steps hfirst (.ends rfl)
  exact ⟨d, s, w, _, hwalk, rfl, routed (FlowSettings.flow {}).chain d s hwalk⟩

/-! ## Names that coincide -/

theorem present_of_text? {h : Headers} {name value : String} (hvalue : h.text? name = some value) :
    h.present name = true := by
  obtain ⟨v, hfind, hstr⟩ := Option.bind_eq_some_iff.mp hvalue
  rw [Headers.present, hfind]
  cases v with
  | str => rfl
  | null | bool | int | real | arr | obj => cases hstr

/-- The correlation id is written before a message is decoded and its identity after that, whatever
the names of the headers are.  So under any configuration, valid or not, the handlers find the
identity in its header; and they find the event type that the message arrived with and the key that
was derived for it exactly if the header of the key is no other header, or one that holds the key
anyway. -/
theorem handed_of_config (carrier : Carrier κ) (c : Config) (d : Draft Bytes) (s : Supply)
    {m : RawMessage} {type name : String} {key : CorrelationKey} {payload : EventPayload}
    (hm : m = (d.build s).1) (htype : m.headers.text? c.headers.eventType = some type)
    (hname : m.headers.text? c.headers.messageName = some name)
    (hkey : key = Correlation.keyOf name (m.headers.text? c.headers.correlationKey))
    (hbody : EventPayload.decode m.payload = .ok payload) :
    ∃ e : EventMessage, (∀ w : World κ,
        step carrier (FlowSettings.ofConfig c).flow w (.arrived m) = .goes (w.count .received)
          (.handling w.now ((FlowSettings.ofConfig c).flow.chain.begin e))) ∧
      e.id = m.id ∧ e.payload = payload ∧ e.headers.text? "id" = some m.id.text ∧
      ((e.headers.text? c.headers.eventType = some type ∧
          e.headers.text? c.headers.correlationId = some key) ↔
        (c.headers.correlationId = "id" → key = m.id.text) ∧
          (c.headers.correlationId = c.headers.eventType → key = type)) := by
  let e : EventMessage :=
    Message.assemble m.id (m.headers.putText c.headers.correlationId key) payload
  have hroute : (FlowSettings.ofConfig c).flow.route m = .accept e := by
    refine route_accept (present_of_text? htype) hname ?_
    subst hkey
    exact decode_ok hbody
  have hread (header : String) : e.headers.text? header =
      if header = "id" then some m.id.text
      else if header = c.headers.correlationId then some key else m.headers.text? header := by
    show (Headers.putText _ _ _).text? _ = _
    rw [Headers.text?_putText, Headers.text?_putText]
    rfl
  have hid : m.headers.text? "id" = some m.id.text := by
    rw [hm, Draft.build_eq]
    exact (Headers.text?_putText _ _ _ _).trans (if_pos rfl)
  -- the event type may itself be read from the header of the identity
  have hidtype : c.headers.eventType = "id" → type = m.id.text := by
    intro heq
    rw [heq, hid] at htype
    exact (Option.some.inj htype).symm
  refine ⟨e, step_accept hroute, rfl, rfl, (hread "id").trans (if_pos rfl), ?_⟩
  rw [hread, hread]
  by_cases hcid : c.headers.correlationId = "id"
  · by_cases heid : c.headers.eventType = "id"
    · have hsame := hidtype heid
      simp [hcid, heid, hsame, eq_comm]
    · simp [hcid, heid, htype, Ne.symm heid, eq_comm]
  · by_cases heid : c.headers.eventType = "id"
    · have hsame := hidtype heid
      simp [hcid, heid, hsame]
    · by_cases hsame : c.headers.eventType = c.headers.correlationId
      · simp [hcid, hsame]
      · simp [hcid, heid, hsame, htype, Ne.symm hsame]

/-- A payment of order 42 that is being built. -/
def payment : Draft Bytes :=
  { payload := Text.toBytes "\x7b\"name\":\"order-paid\"\x7d"
    id := some (Uuid.ofNat 1)
    headers := ((Headers.none.putText "eventType" "MESSAGE_SENT").putText "messageEventName"
      "order-paid").putText "messageEventCorrelationKey" "42" }

theorem exists_payment_payload (s : Supply) :
    ∃ payload, EventPayload.decode (payment.build s).1.payload = .ok payload := by
  have hok : (EventPayload.decode payment.payload).isOk = true := by decide +kernel
  show ∃ payload, EventPayload.decode payment.payload = .ok payload
  cases hdecode : EventPayload.decode payment.payload with
  | ok payload => exact ⟨payload, rfl⟩
  | error p =>
    rw [hdecode] at hok
    cases hok

/-- Under a name of its own for the key, a payment keeps its event type and carries its key. -/
theorem handed_of_config_payment : ∃ e : EventMessage, e.id = Uuid.ofNat 1 ∧
    e.headers.text? "eventType" = some "MESSAGE_SENT" ∧
    e.headers.text? "conversation" = some "order-paid:42" := by
  let c : Config := { headers := { correlationId := "conversation" } }
  let s : Supply := ⟨Uuid.ofNat, 7⟩
  obtain ⟨payload, hbody⟩ := exists_payment_payload s
  have htype : (payment.build s).1.headers.text? c.headers.eventType = some "MESSAGE_SENT" := by
    decide +kernel
  have hname : (payment.build s).1.headers.text? c.headers.messageName = some "order-paid" := by
    decide +kernel
  have hkey : "order-paid:42" = Correlation.keyOf "order-paid"
      ((payment.build s).1.headers.text? c.headers.correlationKey) := by
    decide +kernel
  obtain ⟨e, -, hid, -, -, hkept⟩ :=
    handed_of_config Carrier.taker c payment s rfl htype hname hkey hbody
  have hapart : (c.headers.correlationId = "id" →
      "order-paid:42" = (payment.build s).1.id.text) ∧
      (c.headers.correlationId = c.headers.eventType → "order-paid:42" = "MESSAGE_SENT") :=
    ⟨fun h => absurd h (by decide), fun h => absurd h (by decide)⟩
  exact ⟨e, hid, hkept.mpr hapart⟩

/-- A configuration is accepted that has one name for the event type and for the key: the handlers
then find the key where the event type was. -/
theorem coinciding_names_accepted : ¬∀ (c : Config) (d : Draft Bytes) (s : Supply)
    (type name : String) (payload : EventPayload), c.validate = .ok () →
      (d.build s).1.headers.text? c.headers.eventType = some type →
      (d.build s).1.headers.text? c.headers.messageName = some name →
      EventPayload.decode (d.build s).1.payload = .ok payload →
      ∃ e : EventMessage, (∀ w : World (List RawMessage),
          step Carrier.taker (FlowSettings.ofConfig c).flow w (.arrived (d.build s).1) =
            .goes (w.count .received)
              (.handling w.now ((FlowSettings.ofConfig c).flow.chain.begin e))) ∧
        e.id = (d.build s).1.id ∧ e.headers.text? "id" = some (d.build s).1.id.text ∧
        e.headers.text? c.headers.eventType = some type ∧
        e.headers.text? c.headers.correlationId = some (Correlation.keyOf name
          ((d.build s).1.headers.text? c.headers.correlationKey)) := by
  intro hall
  let c : Config := { headers := { correlationId := "eventType" } }
  let s : Supply := ⟨Uuid.ofNat, 7⟩
  obtain ⟨payload, hbody⟩ := exists_payment_payload s
  have hfault : c.fault? = none := by decide +kernel
  have hvalid : c.validate = .ok () := by rw [Config.validate, hfault]
  obtain ⟨e, -, -, -, htype, hkey⟩ := hall c payment s "MESSAGE_SENT" "order-paid" payload hvalid
    (by decide +kernel) (by decide +kernel) hbody
  have hsame := Option.some.inj (htype.symm.trans hkey)
  exact absurd hsame (by decide +kernel)

end Flow
end Rendezvous
