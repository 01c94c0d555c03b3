/-
What one call makes of a calm world.

The channel answers by a verdict.  A message that the handlers take is turned away by the receiver,
or its plan is carried out on the account of its key, whatever retries and waits there are on the
way, and its claim stays exactly if the handlers succeed (`Alone.handled`).  A message that they do
not take leaves accounts and claims as they are, and its result depends on nothing but the message
(`Alone.rejected`).  Nothing is assumed of the capacity of the memory of claims.

Under which key and type a message is handled is read from its headers once it was decoded, so this
module also says which headers are not written over on the way (`HeaderNames.Legible`).
-/
import Rendezvous.Proofs.Letters
import Rendezvous.Proofs.Reception
import Rendezvous.Proofs.Redelivery

namespace Rendezvous

variable {κ : Type}

/-! ## Headers -/

/-- The headers that keys and types are read from are not written over, neither when a message is
decoded nor when an output is made.  The names that a flow has by default are such names. -/
structure HeaderNames.Legible (names : HeaderNames) : Prop where
  key_identity : names.correlationId ≠ Headers.idName
  key_payloadType : names.correlationId ≠ names.payloadType
  key_messageName : names.correlationId ≠ names.messageName
  key_destination : names.correlationId ≠ names.destination
  type_identity : names.eventType ≠ Headers.idName
  type_key : names.eventType ≠ names.correlationId

theorem HeaderNames.legible_default : ({} : HeaderNames).Legible :=
  ⟨by decide, by decide, by decide, by decide, by decide, by decide⟩

/-- The key that a message was derived is the one that the handlers read. -/
theorem Flow.key_of_derive {f : Flow} {raw : RawMessage} {e : EventMessage} {key : CorrelationKey}
    (hnames : f.names.Legible) (hroute : f.route raw = .accept e)
    (hderive : f.derive raw = .ok key) :
    e.headers.text? f.names.correlationId = some key := by
  obtain ⟨key', payload, hkey', rfl⟩ := Flow.of_route_accept hroute
  obtain rfl : key' = key := Except.ok.inj (hkey'.symm.trans hderive)
  show ((raw.headers.putText f.names.correlationId key').putText Headers.idName _).text? _ = _
  rw [Headers.text?_putText, if_neg hnames.key_identity, Headers.text?_putText, if_pos rfl]

/-- The type that the handlers read is the one that the message was sent with. -/
theorem Flow.eventType_of_route {f : Flow} {raw : RawMessage} {e : EventMessage}
    (hnames : f.names.Legible) (hroute : f.route raw = .accept e) :
    e.headers.text? f.names.eventType = raw.headers.text? f.names.eventType := by
  obtain ⟨key, payload, -, rfl⟩ := Flow.of_route_accept hroute
  show ((raw.headers.putText f.names.correlationId key).putText Headers.idName _).text? _ = _
  rw [Headers.text?_putText, if_neg hnames.type_identity, Headers.text?_putText,
    if_neg hnames.type_key]

/-- An output carries the key that it was released for. -/
theorem Release.key_output {names : HeaderNames} (hnames : names.Legible) (key : CorrelationKey)
    (kind : CommandKind) (body : Bytes) (subscriber : EventMessage) (consumed : List Uuid) :
    (output names key kind body subscriber consumed).message.headers.text? names.correlationId =
      some key := by
  have hbase : (((Headers.none.putText names.correlationId key).putText names.payloadType
      kind.text).putText names.messageName subscriber.payload.name).text? names.correlationId =
      some key := by
    rw [Headers.text?_putText, if_neg hnames.key_messageName, Headers.text?_putText,
      if_neg hnames.key_payloadType, Headers.text?_putText, if_pos rfl]
  show (Headers.putText _ Headers.idName _).text? _ = _
  rw [Headers.text?_putText, if_neg hnames.key_identity]
  cases subscriber.headers.text? names.serviceFullName with
  | none => exact hbase
  | some service =>
    show (Headers.putText _ names.destination service).text? _ = _
    rw [Headers.text?_putText, if_neg hnames.key_destination]
    exact hbase

/-! ## Claims -/

/-- The claims while a message is behind the receiver: the message was not claimed, and is now.
Without a receiver nothing is claimed. -/
inductive FlowSettings.Holds (settings : FlowSettings) (id : Uuid) (before : ClaimStore) :
    ClaimStore → Prop
  | off (never : settings.idempotent = false) : Holds settings id before before
  | claims (value : String) (once : settings.idempotent = true)
      (free : before.claimed id = false) : Holds settings id before (before.put id.text value)

/-- The claims after a message came back with an outcome: its claim is withdrawn if the handlers
failed. -/
inductive FlowSettings.Leaves (settings : FlowSettings) (id : Uuid) (before : ClaimStore)
    (outcome : Except HandlerError Unit) : ClaimStore → Prop
  | off (never : settings.idempotent = false) : Leaves settings id before outcome before
  | settles (value : String) (once : settings.idempotent = true)
      (free : before.claimed id = false) : Leaves settings id before outcome
        (if Chain.succeeded outcome then before.put id.text value
          else ((before.put id.text value).remove id.text).1)

/-! ## A call on its way -/

section
variable {settings : FlowSettings} {verdict : RawMessage → Except ChannelError Unit}
  {key : CorrelationKey} {e : EventMessage} {base w w' v : World κ} {carrier : Carrier κ}
  {c c' : Course} {raw : RawMessage} {result : Except FlowError FlowOutcome}

/-- No group and no output changed. -/
def World.SameAccounts (w w' : World κ) : Prop :=
  ∀ of k, account of k w'.history = account of k w.history

/-- What the handlers make of the account of the key, and the outcome. -/
def World.served (settings : FlowSettings) (verdict : RawMessage → Except ChannelError Unit)
    (key : CorrelationKey) (e : EventMessage) (base : World κ) (of : CorrelationKey → Bool) :
    Account × Except HandlerError Unit :=
  (Plan.start settings.names key e).finish settings.names verdict (account of key base.history)

/-- How far a call for `e` got with the claims and the account of its key since the world was
`base`. -/
inductive Underway (settings : FlowSettings) (verdict : RawMessage → Except ChannelError Unit)
    (key : CorrelationKey) (e : EventMessage) (base w : World κ) (c : Course) : Prop
  /-- it is in front of the receiver -/
  | enters (once : settings.idempotent = true) (claim : c.claim? = none) (ahead : c.plan = .ahead)
      (claims : w.claims = base.claims) (same : base.SameAccounts w)
  /-- it is behind the receiver, and has not begun with its work -/
  | waits (claim : c.claim? = settings.claim? e) (ahead : c.plan = .ahead)
      (holds : settings.Holds e.id base.claims w.claims) (same : base.SameAccounts w)
  | works (claim : c.claim? = settings.claim? e) (begun : c.plan ≠ .ahead)
      (holds : settings.Holds e.id base.claims w.claims)
      (plan : ∀ of, of key = true →
        c.plan.finish settings.names verdict (account of key w.history) =
          base.served settings verdict key e of)
  /-- it was turned away by the receiver -/
  | repeats (once : settings.idempotent = true) (claim : c.claim? = none)
      (behind : c.plan = .behind (.ok ())) (claimed : base.claims.claimed e.id = true)
      (claims : w.claims = base.claims) (same : base.SameAccounts w)
  /-- the receiver knows the outcome -/
  | told {outcome} (once : settings.idempotent = true) (claim : c.claim? = none)
      (behind : c.plan = .behind outcome)
      (leaves : settings.Leaves e.id base.claims outcome w.claims)
      (done : ∀ of, of key = true → (account of key w.history, outcome) =
        base.served settings verdict key e of)

theorem World.SameAccounts.trans (h : base.SameAccounts w) (h' : w.SameAccounts w') :
    base.SameAccounts w' := fun of k => (h' of k).trans (h of k)

theorem FlowSettings.claim?_of_once (honce : settings.idempotent = true) (e : EventMessage) :
    settings.claim? e = some e.id := by
  rw [claim?, if_pos honce]

namespace Underway

/-- A call in front of the receiver has done nothing. -/
theorem of_front (h : Underway settings verdict key e base w ⟨.ahead, none⟩)
    (honce : settings.idempotent = true) : w.claims = base.claims ∧ base.SameAccounts w := by
  cases h with
  | enters once claim ahead claims same => exact ⟨claims, same⟩
  | waits claim | works claim =>
    rw [FlowSettings.claim?_of_once honce] at claim
    cases claim
  | repeats once claim behind | told once claim behind => cases behind

/-- A call that holds its claim, or needs none, waits or is at work. -/
theorem of_claim (h : Underway settings verdict key e base w c)
    (hc : c.claim? = settings.claim? e) : settings.Holds e.id base.claims w.claims ∧
      (c.plan = .ahead ∧ base.SameAccounts w ∨ c.plan ≠ .ahead ∧
        ∀ of, of key = true → c.plan.finish settings.names verdict (account of key w.history) =
          base.served settings verdict key e of) := by
  have hnone (honce : settings.idempotent = true) (hnone : c.claim? = none) : False := by
    rw [hnone, FlowSettings.claim?_of_once honce] at hc
    cases hc
  cases h with
  | enters once claim | repeats once claim | told once claim => exact (hnone once claim).elim
  | waits claim ahead holds same => exact ⟨holds, Or.inl ⟨ahead, same⟩⟩
  | works claim begun holds plan => exact ⟨holds, Or.inr ⟨begun, plan⟩⟩

/-- A call that has begun with its work keeps to its plan. -/
theorem of_begun {p : Plan} (h : Underway settings verdict key e base w ⟨p, settings.claim? e⟩)
    (hp : p ≠ .ahead) : settings.Holds e.id base.claims w.claims ∧
      ∀ of, of key = true → p.finish settings.names verdict (account of key w.history) =
        base.served settings verdict key e of := by
  obtain ⟨hholds, ⟨hahead, -⟩ | ⟨-, hplan⟩⟩ := h.of_claim rfl
  · exact absurd hahead hp
  · exact ⟨hholds, hplan⟩

theorem rests (h : Underway settings verdict key e base w c) (hclaims : w'.claims = w.claims)
    (hsame : w.SameAccounts w') : Underway settings verdict key e base w' c := by
  cases h with
  | enters once claim ahead claims same =>
    exact .enters once claim ahead (hclaims.trans claims) (same.trans hsame)
  | waits claim ahead holds same => exact .waits claim ahead (hclaims ▸ holds) (same.trans hsame)
  | works claim begun holds plan =>
    refine .works claim begun (hclaims ▸ holds) fun of hof => ?_
    rw [hsame of key]
    exact plan of hof
  | repeats once claim behind claimed claims same =>
    exact .repeats once claim behind claimed (hclaims.trans claims) (same.trans hsame)
  | told once claim behind leaves done =>
    refine .told once claim behind (hclaims ▸ leaves) fun of hof => ?_
    rw [hsame of key]
    exact done of hof

end Underway

theorem Plan.start_ne_ahead (names : HeaderNames) (key : CorrelationKey) (e : EventMessage) :
    Plan.start names key e ≠ .ahead := by
  unfold start
  split
  · exact fun h => by cases h
  · split <;> exact fun h => by cases h

/-- A step of a call is a step on its way. -/
theorem Advance.underway (hverdict : ∀ channel m, (carrier.send channel m).2 = verdict m)
    (h : Advance carrier settings key e w w' c c')
    (hc : Underway settings verdict key e base w c)
    (hsame : c.plan.key? = none → w.SameAccounts w') :
    Underway settings verdict key e base w' c' := by
  cases h with
  | rests calm claims channel => exact hc.rests claims (hsame calm)
  | @admits value once free claims channel =>
    obtain ⟨hclaims, hbefore⟩ := hc.of_front once
    refine .waits (FlowSettings.claim?_of_once once e).symm rfl ?_ (hbefore.trans (hsame rfl))
    rw [claims, hclaims]
    exact .claims value once (hclaims ▸ free)
  | repeats once claimed claims channel =>
    obtain ⟨hclaims, hbefore⟩ := hc.of_front once
    exact .repeats once rfl rfl (hclaims ▸ claimed) (claims.trans hclaims)
      (hbefore.trans (hsame rfl))
  | begins claims channel =>
    obtain ⟨hholds, ⟨-, hbefore⟩ | ⟨hahead, -⟩⟩ := hc.of_claim rfl
    · refine .works rfl (Plan.start_ne_ahead _ _ _) (claims ▸ hholds) fun of hof => ?_
      rw [hbefore.trans (hsame rfl) of key]
      rfl
    · exact absurd rfl hahead
  | works claims channel goes =>
    obtain ⟨hholds, hplan⟩ := hc.of_begun fun h => by cases h
    refine .works rfl (fun h => by cases h) (claims ▸ hholds) fun of hof => ?_
    rw [← hplan of hof]
    rcases goes of hof with hnext | ⟨channel, r, hok, hr, hafter⟩
    · exact congrArg (Account.serve _ _ _) hnext
    · refine (congrArg (Account.serve _ _ _) hafter).trans ?_
      exact (Account.serve_of_accepted hr ((hverdict channel _).symm.trans hok)).symm
  | closes claims stops =>
    obtain ⟨hholds, hplan⟩ := hc.of_begun fun h => by cases h
    refine .works rfl (fun h => by cases h) (claims ▸ hholds) fun of hof => ?_
    rw [← hplan of hof]
    obtain ⟨hleft, hstops⟩ := stops of hof
    refine (congrArg (fun a => (a, _)) hleft).trans ?_
    cases hstops with
    | done hnone same => exact (Account.serve_of_none hnone).symm
    | refused hr answer =>
      refine (Account.serve_of_refused hr ?_).symm
      rw [← hverdict w.channel, answer]
  | clears claims channel same =>
    obtain ⟨hholds, hplan⟩ := hc.of_begun fun h => by cases h
    refine .works rfl (fun h => by cases h) (claims ▸ hholds) fun of hof => ?_
    rw [← hplan of hof]
    exact congrArg (fun a => (a, _)) (same of)
  | leaves claims channel same =>
    obtain ⟨hholds, hplan⟩ := hc.of_begun fun h => by cases h
    refine .works rfl (fun h => by cases h) (claims ▸ hholds) fun of hof => ?_
    rw [← hplan of hof]
    exact congrArg (fun a => (a, _)) (same of)
  | @forgets result once claims channel =>
    rw [← FlowSettings.claim?_of_once once e] at hc
    obtain ⟨hholds, hplan⟩ := hc.of_begun fun h => by cases h
    refine .told once rfl rfl ?_ fun of hof => ?_
    · rw [claims]
      generalize w.claims = now at hholds
      cases hholds with
      | off never =>
        rw [once] at never
        cases never
      | claims value _ free => exact .settles value once free
    · rw [hsame rfl of key]
      exact hplan of hof

/-! ## The error channel -/

/-- The handlers leave the failures alone that are scripted for the error channel. -/
theorem Flow.step_letters {st : Flow.Stage} (hf : st.Follows settings key e) :
    (settings.flow.step carrier w st).Ensures (fun w' _ => w'.letterFaults = w.letterFaults)
      fun w' _ => w'.letterFaults = w.letterFaults := by
  cases st with
  | arrived raw =>
    have hroute : settings.flow.route raw = .accept e := hf
    simp only [step, hroute]
    exact rfl
  | rejecting m verdict => exact absurd hf not_false
  | handling since call =>
    rw [step, Progress.ensures_andThen]
    exact (Chain.step_letters _ call).mono (fun _ _ h => h.letterFaults)
      fun _ _ h => h.letterFaults

/-- A calm world whose error channel takes what is offered to it. -/
structure Serene (settings : FlowSettings) (w : World κ) : Prop where
  calm : Calm settings w
  letters : w.letterFaults = []

theorem Serene.start (settings : FlowSettings) (channel : κ) (clock : Clock) (capacity : Nat)
    (letters : DeadLetterQueue) :
    Serene settings (World.start channel clock (.ofCapacity capacity) letters) :=
  ⟨⟨Quiet.start _ _ _ _ _, rfl, fun _ => rfl⟩, rfl⟩

/-! ## Calls that the handlers take -/

/-- What became of a world by a message of a key that the handlers take. -/
inductive World.Handled (settings : FlowSettings) (verdict : RawMessage → Except ChannelError Unit)
    (key : CorrelationKey) (e : EventMessage) (base v : World κ) :
    Except FlowError FlowOutcome → Prop
  /-- the receiver turned it away -/
  | repeats (once : settings.idempotent = true) (claimed : base.claims.claimed e.id = true)
      (claims : v.claims = base.claims) (same : base.SameAccounts v) :
      Handled settings verdict key e base v (.ok .handled)
  | serves {outcome} (leaves : settings.Leaves e.id base.claims outcome v.claims)
      (own : ∀ of, of key = true → (account of key v.history, outcome) =
        base.served settings verdict key e of)
      (others : ∀ of k, k ≠ key → of key = false →
        account of k v.history = account of k base.history) :
      Handled settings verdict key e base v (Flow.verdict outcome)

/-- A call on its way that nobody disturbs. -/
structure Engaged (settings : FlowSettings) (verdict : RawMessage → Except ChannelError Unit)
    (key : CorrelationKey) (e : EventMessage) (base w : World κ) (st : Flow.Stage) : Prop where
  sound : Sound settings.names ⟨w, [.running st]⟩
  raised : w.desk.raised = false
  faultless : settings.idempotent = true → w.claimFaults = []
  letters : w.letterFaults = []
  follows : st.Follows settings key e
  others : ∀ of k, k ≠ key → of key = false →
    account of k w.history = account of k base.history
  underway : Underway settings verdict key e base w (st.course settings.names)

theorem Underway.handled {outcome : Except HandlerError Unit}
    (h : Underway settings verdict key e base v ⟨.behind outcome, none⟩)
    (hothers : ∀ of k, k ≠ key → of key = false →
      account of k v.history = account of k base.history) :
    base.Handled settings verdict key e v (Flow.verdict outcome) := by
  cases h with
  | enters once claim ahead | waits claim ahead => cases ahead
  | works claim begun holds plan =>
    refine .serves ?_ plan hothers
    generalize v.claims = now at holds
    cases holds with
    | off never => exact .off never
    | claims value once =>
      rw [FlowSettings.claim?_of_once once] at claim
      cases claim
  | repeats once claim behind claimed claims same =>
    obtain rfl := Plan.behind.inj behind
    exact .repeats once claimed claims same
  | told once claim behind leaves done =>
    obtain rfl := Plan.behind.inj behind
    exact .serves leaves done hothers

theorem Engaged.step (hadvices : settings.advices = [])
    (hverdict : ∀ channel m, (carrier.send channel m).2 = verdict m)
    (hkey : e.headers.text? settings.names.correlationId = some key) {st : Flow.Stage}
    (h : Engaged settings verdict key e base w st) :
    (settings.flow.step carrier w st).Ensures (Engaged settings verdict key e base)
      (fun v result => Serene settings v ∧ base.Handled settings verdict key e v result) := by
  have hstandard : settings.flow.Standard settings.names :=
    FlowSettings.flow_standard_of_nil hadvices
  have hcall : (⟨w, [.running st]⟩ : Traffic κ).calls[0]? = some (.running st) := rfl
  have hsame {w' : World κ} {a' : Station}
      (hst : Stride settings.names w (st.station settings.names) w' a')
      (hnone : (st.course settings.names).plan.key? = none) : w.SameAccounts w' := by
    refine fun of k => hst.account_eq fun j hj => ?_
    rw [hnone] at hj
    cases hj
  have hothers {w' : World κ} {a' : Station}
      (hst : Stride settings.names w (st.station settings.names) w' a')
      (habout : ∀ k, (st.course settings.names).plan.key? = some k → key = k)
      (of : CorrelationKey → Bool) (k : CorrelationKey) (hk : k ≠ key) (hof : of key = false) :
      account of k w'.history = account of k base.history := by
    refine Eq.trans (hst.account_eq fun j hj => ?_) (h.others of k hk hof)
    obtain rfl := habout j hj
    exact ⟨Ne.symm hk, hof⟩
  have hground : (st.station settings.names).Grounded w.history := h.sound.grounded_of_call hcall
  refine ((Flow.step_letters h.follows).and
    ((Flow.step_ensures hstandard h.sound.faithful (h.sound.fits 0 _ hcall) hground).and
      (Flow.step_advance hadvices h.sound.faithful h.faultless h.raised
        (Or.inr h.sound.free_of_away) hkey h.follows hground))).mono ?_ ?_
  · rintro w' st' ⟨hletters, ⟨hst, hfits⟩, hfaults, hf', hadv⟩
    exact ⟨h.sound.stride hcall hst hfits, hst.dealing.raised.trans h.raised, hfaults,
      hletters.trans h.letters, hf', hothers hst fun k => hadv.key_eq,
      hadv.underway hverdict h.underway (hsame hst)⟩
  · rintro v result ⟨hletters, hst, hfaults, outcome, rfl, hcourse, hclaims, hchannel⟩
    have hsound : Sound settings.names ⟨v, [.returned (Flow.verdict outcome)]⟩ :=
      h.sound.stride hcall hst trivial
    have hquiet : Quiet settings.names v := by
      refine hsound.quiet fun c hc st hrunning => ?_
      rw [List.mem_singleton.mp hc] at hrunning
      cases hrunning
    have hunderway := h.underway
    rw [hcourse] at hunderway hsame hothers
    exact ⟨⟨⟨hquiet, hst.dealing.raised.trans h.raised, hfaults⟩, hletters.trans h.letters⟩,
      (hunderway.rests hclaims (hsame hst rfl)).handled (hothers hst fun _ h => by cases h)⟩

theorem Engaged.setTime {st : Flow.Stage} (h : Engaged settings verdict key e base w st)
    (now : Nat) : Engaged settings verdict key e base (w.setTime now) st := by
  refine ⟨?_, h.raised, h.faultless, h.letters, h.follows, h.others,
    h.underway.rests rfl fun _ _ => rfl⟩
  exact h.sound.outside rfl rfl rfl rfl rfl (fun _ => rfl) fun c hc => Or.inl hc

/-- A message that the handlers take is handled, and leaves the world serene. -/
theorem Alone.handled (hadvices : settings.advices = [])
    (hverdict : ∀ channel m, (carrier.send channel m).2 = verdict m)
    (hroute : settings.flow.route raw = .accept e)
    (hkey : e.headers.text? settings.names.correlationId = some key) (hw : Serene settings w)
    (h : Alone carrier settings.flow w (.arrived raw) v result) :
    Serene settings v ∧ w.Handled settings verdict key e v result := by
  have hsent : (Traffic.start w).move carrier settings.flow (.send raw) =
      some ⟨w, [.running (.arrived raw)]⟩ := rfl
  have hsound : Sound settings.names ⟨w, [.running (.arrived raw)]⟩ :=
    hw.calm.quiet.sound.move (FlowSettings.flow_standard_of_nil hadvices) hsent
  have hfront : Underway settings verdict key e w w ⟨.ahead, none⟩ := by
    cases honce : settings.idempotent with
    | true => exact .enters honce rfl rfl rfl fun _ _ => rfl
    | false =>
      refine .waits ?_ rfl (.off honce) fun _ _ => rfl
      rw [FlowSettings.claim?, honce, if_neg Bool.false_ne_true]
  have hstart : Engaged settings verdict key e w w (.arrived raw) :=
    ⟨hsound, hw.calm.raised, hw.calm.faultless, hw.letters, hroute, fun _ _ _ _ => rfl, hfront⟩
  have hstep (w' : World κ) (st : Flow.Stage)
      (hst : Engaged settings verdict key e w w' st) := hst.step hadvices hverdict hkey
  exact h.ends hstep (fun w st now hst => hst.setTime now) hstart

/-! ## Calls that the handlers do not take -/

/-- What a message comes back with that the handlers do not take. -/
def Route.rejection : Route → Option (Except FlowError FlowOutcome)
  | .discard => some (.ok .discarded)
  | .uncorrelated cause => some (.error (.correlation cause))
  | .undecodable _ cause => some (.error cause)
  | .accept _ => none

/-- An error channel that does not fail takes what is offered to it, and does not fail then. -/
theorem World.offer_letters (hw : w.letterFaults = []) (m : RawMessage) :
    ∃ v, w.offer m = (v, .ok ()) ∧ v.letterFaults = [] := by
  have hbury (w : World κ) : (w.bury m).letterFaults = w.letterFaults := by
    unfold bury
    dsimp only
    split <;> rfl
  rw [offer, hw]
  exact ⟨_, rfl, hbury _⟩

/-- What leaves locks, groups, claims and the error channel alone leaves a world serene. -/
theorem Serene.aside (hw : Serene settings w) (h : w.Aside w')
    (hfaults : w'.claimFaults = w.claimFaults) (hletters : w'.letterFaults = w.letterFaults) :
    Serene settings w' := by
  refine ⟨⟨hw.calm.quiet.aside h, ?_, hfaults ▸ hw.calm.faultless⟩, hletters.trans hw.letters⟩
  rw [h.desk]
  exact hw.calm.raised

/-- A message that the handlers do not take comes back with its rejection, and leaves everything
else as it is. -/
theorem Alone.rejected {answer : Except FlowError FlowOutcome}
    (hroute : (settings.flow.route raw).rejection = some answer) (hw : Serene settings w)
    (h : Alone carrier settings.flow w (.arrived raw) v result) :
    Serene settings v ∧ w.SameAccounts v ∧ v.claims = w.claims ∧ result = answer := by
  let I (w' : World κ) (st : Flow.Stage) : Prop :=
    (Serene settings w' ∧ w.SameAccounts w' ∧ w'.claims = w.claims) ∧
      (st = .arrived raw ∨ ∃ m, st = .rejecting m answer)
  have hkeep {w₁ w₂ : World κ} (h : Serene settings w₁ ∧ w.SameAccounts w₁ ∧ w₁.claims = w.claims)
      (haside : w₁.Aside w₂) (hclaims : w₂.claims = w₁.claims)
      (hfaults : w₂.claimFaults = w₁.claimFaults) (hletters : w₂.letterFaults = w₁.letterFaults) :
      Serene settings w₂ ∧ w.SameAccounts w₂ ∧ w₂.claims = w.claims := by
    refine ⟨h.1.aside haside hfaults hletters, h.2.1.trans fun of k => ?_, hclaims.trans h.2.2⟩
    rw [haside.history]
  have hstep (w' : World κ) (st : Flow.Stage) (hI : I w' st) :
      (settings.flow.step carrier w' st).Ensures I fun v result =>
        Serene settings v ∧ w.SameAccounts v ∧ v.claims = w.claims ∧ result = answer := by
    obtain ⟨hw', rfl | ⟨m, rfl⟩⟩ := hI
    · have hcount (t : Total) : Serene settings ((w'.count .received).count t) ∧
          w.SameAccounts ((w'.count .received).count t) ∧
            ((w'.count .received).count t).claims = w.claims :=
        hkeep hw' ⟨rfl, rfl, rfl, rfl⟩ rfl rfl rfl
      simp only [Flow.step]
      cases hr : settings.flow.route raw with
      | discard =>
        rw [hr] at hroute
        exact ⟨hcount _, Or.inr ⟨_, congrArg _ (Option.some.inj hroute)⟩⟩
      | uncorrelated cause =>
        rw [hr] at hroute
        exact ⟨hcount _, Or.inr ⟨_, congrArg _ (Option.some.inj hroute)⟩⟩
      | undecodable m cause =>
        rw [hr] at hroute
        exact ⟨hcount _, Or.inr ⟨_, congrArg _ (Option.some.inj hroute)⟩⟩
      | accept e =>
        rw [hr] at hroute
        cases hroute
    · obtain ⟨hclaims, hfaults⟩ := w'.offer_claims m
      obtain ⟨v, hoffer, hletters⟩ := World.offer_letters hw'.1.letters m
      have haside := w'.offer_aside m
      rw [hoffer] at haside hclaims hfaults
      have hv := hkeep hw' haside hclaims hfaults (hletters.trans hw'.1.letters.symm)
      simp only [Flow.step, hoffer]
      exact ⟨hv.1, hv.2.1, hv.2.2, rfl⟩
  have htime (w' : World κ) (st : Flow.Stage) (now : Nat) (hI : I w' st) :
      I (w'.setTime now) st :=
    ⟨hkeep hI.1 ⟨rfl, rfl, rfl, rfl⟩ rfl rfl rfl, hI.2⟩
  exact h.ends hstep htime ⟨⟨hw, fun _ _ => rfl, rfl⟩, Or.inl rfl⟩

/-- A message of any kind leaves a serene world serene. -/
theorem Alone.serene (hadvices : settings.advices = [])
    (hverdict : ∀ channel m, (carrier.send channel m).2 = verdict m) (hw : Serene settings w)
    (h : Alone carrier settings.flow w (.arrived raw) v result) : Serene settings v := by
  cases hroute : settings.flow.route raw with
  | discard | uncorrelated | undecodable =>
    exact (h.rejected (congrArg Route.rejection hroute) hw).1
  | accept e =>
    obtain ⟨key, hkey⟩ := Flow.key_of_route hroute
    exact (h.handled hadvices hverdict hroute hkey hw).1

end

end Rendezvous
