/-
Messages that are delivered again.

Messages are sent one after another, and each is sent again for as long as its handlers fail.  A
channel that refuses any finite number of outputs, at any place of any loop of releases, then comes
to what a channel comes to that accepts everything: the same outputs in the same order, and the
same pending messages (`redelivery_transparent`).

A delivery that fails leaves its message in a group that has nothing else to release, so the next
delivery of the message resumes the loop where it broke off.  `Attempt` is the invariant of a call;
here it is carried through the calls of one delivery, and balances through the deliveries.
-/
import Rendezvous.Proofs.Attempt

namespace Rendezvous

variable {κ : Type}

/-! ## Deliveries -/

/-- A message is sent, and sent again for as long as its handlers fail. -/
inductive Delivered (carrier : Carrier κ) (f : Flow) : World κ → RawMessage → World κ → Prop
  | done {w m v result} (call : Alone carrier f w (.arrived m) v result)
      (ended : ∀ cause, result ≠ .error (.handler cause)) : Delivered carrier f w m v
  | again {w m v cause u} (call : Alone carrier f w (.arrived m) v (.error (.handler cause)))
      (rest : Delivered carrier f v m u) : Delivered carrier f w m u

/-- Messages are delivered one after another. -/
inductive DeliveredAll (carrier : Carrier κ) (f : Flow) :
    World κ → List RawMessage → World κ → Prop
  | nil {w} : DeliveredAll carrier f w [] w
  | cons {w m v ms u} (first : Delivered carrier f w m v) (rest : DeliveredAll carrier f v ms u) :
      DeliveredAll carrier f w (m :: ms) u

namespace Balance

/-- What a raw message makes of a balance. -/
def handle (settings : FlowSettings) (d : Balance) (m : RawMessage) : Balance :=
  match settings.flow.route m with
  | .accept e => d.take settings ((e.headers.text? settings.names.correlationId).getD "") e
  | _ => d

end Balance

/-! ## Worlds between deliveries -/

/-- A quiet world without an interrupt, whose memory of claims does not fail if it is used. -/
structure Calm (settings : FlowSettings) (w : World κ) : Prop where
  quiet : Quiet settings.names w
  raised : w.desk.raised = false
  faultless : settings.idempotent = true → w.claimFaults = []

/-- A calm world in which every group is settled, and the memory of claims has room. -/
structure Tidy (settings : FlowSettings) (known : List Uuid) (w : World κ) : Prop where
  calm : Calm settings w
  roomy : settings.idempotent = true → w.claims.Roomy known
  settled : ∀ key, Settled settings.names (page key w.history).messages

section
variable {settings : FlowSettings} {known : List Uuid} {x : Errand} {left : κ → Nat} {bound : Nat}
  {w v : World κ} {key : CorrelationKey} {e : EventMessage} {carrier : Carrier κ} {raw : RawMessage}
  {result : Except FlowError FlowOutcome}

/-- In a tidy world a message is on its errand. -/
theorem Tidy.attempt (hw : Tidy settings known w) (left : κ → Nat) (key : CorrelationKey)
    (he : e.id ∈ known) : Attempt settings known ⟨key, e, w.balance.take settings key e⟩ left
      (left w.channel) w ⟨.ahead, none⟩ := by
  have hserve : Errand.Owes settings.names ⟨key, e, w.balance.serve settings key e⟩
      (left w.channel < left w.channel) (account (fun _ => true) key w.history) .ahead :=
    ⟨(w.balance.account_put key _).symm, Or.inl (hw.settled key)⟩
  have helse (k : CorrelationKey) (hk : k ≠ key) :
      (page k w.history).messages = (w.balance.serve settings key e).messages k ∧
        Settled settings.names ((w.balance.serve settings key e).messages k) := by
    rw [Balance.serve, Balance.messages_put_of_ne hk]
    exact ⟨rfl, hw.settled k⟩
  cases honce : settings.idempotent with
  | false =>
    have hclaim : none = settings.claim? e := by
      rw [FlowSettings.claim?, honce, if_neg Bool.false_ne_true]
    rw [Balance.take_of_off key e w.balance honce]
    exact ⟨he, by rw [honce]; exact (fun h => by cases h), hw.roomy, Nat.le_refl _, helse,
      fun _ _ => rfl,
      .works hclaim rfl hserve⟩
  | true =>
    cases hclaimed : w.claims.claimed e.id with
    | true =>
      rw [Balance.take_of_claimed key honce hclaimed]
      exact ⟨he, fun _ => hclaimed, hw.roomy, Nat.le_refl _, fun k _ => ⟨rfl, hw.settled k⟩,
        fun _ _ => rfl, .repeats honce rfl rfl hclaimed ⟨rfl, hw.settled key⟩⟩
    | false =>
      rw [Balance.take_of_free key honce hclaimed]
      refine ⟨he, fun _ => Balance.claimed_claim _ _, hw.roomy, Nat.le_refl _, helse,
        fun id hid => ?_, .enters honce rfl rfl hclaimed hserve⟩
      exact (Balance.claimed_claim_of_ne hid (w.balance.serve settings key e)).symm

/-- When its target is reached, the world is tidy again. -/
theorem Attempt.reached (hp : Attempt settings known x left bound w ⟨.behind (.ok ()), none⟩)
    (hw : Calm settings w) : Tidy settings known w ∧ w.balance = x.target := by
  obtain ⟨hclaimed, hgoal, hsettled⟩ : w.claims.claimed x.message.id =
      x.target.claimed x.message.id ∧
      x.Reached settings.names (left w.channel < bound) (account (fun _ => true) x.key w.history)
        (.ok ()) := by
    cases hp.owing with
    | enters _ _ ahead | repeats _ _ ahead => cases ahead
    | works _ same owes => exact ⟨same, owes⟩
    | told once _ behind knows reached =>
      obtain rfl := Plan.behind.inj behind
      exact ⟨knows.trans (hp.stays once).symm, reached⟩
  have hmessages (k : CorrelationKey) : (page k w.history).messages = x.target.messages k := by
    by_cases hk : k = x.key
    · rw [hk]
      exact congrArg Account.messages hgoal
    · exact (hp.elsewhere k hk).1
  refine ⟨⟨hw, hp.roomy, fun k => ?_⟩, ?_⟩
  · rw [hmessages]
    by_cases hk : k = x.key
    · rw [hk]
      exact hsettled
    · exact (hp.elsewhere k hk).2
  · have houtputs : outputs (fun _ => true) w.history = x.target.outputs :=
      congrArg Account.outputs hgoal
    have hclaims : w.claims.claimed = x.target.claimed := by
      refine funext fun id => ?_
      by_cases hid : id = x.message.id
      · rw [hid]
        exact hclaimed
      · exact hp.others id hid
    rw [World.balance, houtputs, funext hmessages, hclaims]

/-- A call that failed leaves fewer refusals, and the next call has the same errand. -/
theorem Attempt.again {cause : HandlerError}
    (hp : Attempt settings known x left bound w ⟨.behind (.error cause), none⟩) :
    left w.channel < bound ∧ Attempt settings known x left (left w.channel) w ⟨.ahead, none⟩ := by
  have hstart {fewer : Prop}
      (howing : Owing settings x fewer (w.claims.claimed x.message.id)
        (account (fun _ => true) x.key w.history) ⟨.behind (.error cause), none⟩) :
      fewer ∧ Owing settings x (left w.channel < left w.channel)
        (w.claims.claimed x.message.id) (account (fun _ => true) x.key w.history)
        ⟨.ahead, none⟩ := by
    cases howing with
    | enters _ _ ahead | repeats _ _ ahead => cases ahead
    | works claim same owes =>
      have hreached : x.Reached settings.names fewer (account (fun _ => true) x.key w.history)
        (.error cause) := owes
      exact ⟨hreached.2.2.2, .works claim same hreached.again⟩
    | told once _ behind knows reached =>
      obtain rfl := Plan.behind.inj behind
      exact ⟨reached.2.2.2, .enters once rfl rfl knows reached.again⟩
  obtain ⟨hless, howing⟩ := hstart hp.owing
  exact ⟨hless, hp.mem, hp.stays, hp.roomy, Nat.le_refl _, hp.elsewhere, hp.others, howing⟩

/-! ## Calls -/

/-- A call that nobody disturbs is on an errand. -/
structure Undertaking (settings : FlowSettings) (known : List Uuid) (x : Errand) (left : κ → Nat)
    (bound : Nat) (w : World κ) (st : Flow.Stage) : Prop where
  sound : Sound settings.names ⟨w, [.running st]⟩
  raised : w.desk.raised = false
  faultless : settings.idempotent = true → w.claimFaults = []
  follows : st.Follows settings x.key x.message
  attempt : Attempt settings known x left bound w (st.course settings.names)

/-- A call that is alone finds every lock free that it does not hold. -/
theorem Sound.free_of_away {names : HeaderNames} {st : Flow.Stage}
    (hs : Sound names ⟨w, [.running st]⟩) (haway : (st.station names).post = .away) (lk : String) :
    (w.desk.table.lock lk).holder = none := by
  by_contra hheld
  obtain ⟨t, ht⟩ := Option.ne_none_iff_exists'.mp hheld
  obtain ⟨i, hi⟩ := hs.custody.held ht
  cases i with
  | zero =>
    have hi : (st.station names).post.ticket? = some (lk, t) := hi
    rw [haway] at hi
    cases hi
  | succ i => cases hi

/-- The plan of a call that takes a step is about its own key. -/
theorem Advance.key_eq {w' : World κ} {c c' : Course} {k : CorrelationKey}
    (h : Advance carrier settings key e w w' c c') (hk : c.plan.key? = some k) : key = k := by
  cases h with
  | rests calm =>
    rw [calm] at hk
    cases hk
  | admits | repeats | begins | forgets => cases hk
  | works | closes | clears | leaves => exact Option.some.inj hk

theorem Undertaking.step (hadvices : settings.advices = []) (htires : carrier.Tires left)
    (hkey : x.message.headers.text? settings.names.correlationId = some x.key) {st : Flow.Stage}
    (h : Undertaking settings known x left bound w st) :
    (settings.flow.step carrier w st).Ensures (Undertaking settings known x left bound)
      (fun v result => Calm settings v ∧ ∃ outcome, result = Flow.verdict outcome ∧
        Attempt settings known x left bound v ⟨.behind outcome, none⟩) := by
  have hstandard : settings.flow.Standard settings.names :=
    FlowSettings.flow_standard_of_nil hadvices
  have hcall : (⟨w, [.running st]⟩ : Traffic κ).calls[0]? = some (.running st) := rfl
  have hsame {w' : World κ} {a' : Station}
      (hst : Stride settings.names w (st.station settings.names) w' a')
      (hnone : (st.course settings.names).plan.key? = none) :
      account (fun _ => true) x.key w'.history = account (fun _ => true) x.key w.history := by
    refine hst.account_eq fun k hk => ?_
    rw [hnone] at hk
    cases hk
  have helse {w' : World κ} {a' : Station}
      (hst : Stride settings.names w (st.station settings.names) w' a')
      (habout : ∀ k, (st.course settings.names).plan.key? = some k → x.key = k)
      (k : CorrelationKey) (hk : k ≠ x.key) :
      (page k w'.history).messages = (page k w.history).messages := by
    have hnone : account (fun _ => false) k w'.history = account (fun _ => false) k w.history := by
      refine hst.account_eq fun j hj => ⟨?_, rfl⟩
      rintro rfl
      exact hk (habout j hj).symm
    exact congrArg Account.messages hnone
  refine ((Flow.step_ensures hstandard h.sound.faithful (h.sound.fits 0 _ hcall)
    (h.sound.grounded_of_call hcall)).and (Flow.step_advance hadvices h.sound.faithful h.faultless
      h.raised (Or.inr h.sound.free_of_away) hkey h.follows
      (h.sound.grounded_of_call hcall))).mono ?_ ?_
  · rintro w' st' ⟨⟨hst, hfits⟩, hfaults, hf', hadv⟩
    exact ⟨h.sound.stride hcall hst hfits, hst.dealing.raised.trans h.raised, hfaults, hf',
      hadv.attempt htires h.attempt (hsame hst) (helse hst fun k => hadv.key_eq)⟩
  · rintro v result ⟨hst, hfaults, outcome, rfl, hcourse, hclaims, hchannel⟩
    have hsound : Sound settings.names ⟨v, [.returned (Flow.verdict outcome)]⟩ :=
      h.sound.stride hcall hst trivial
    have hquiet : Quiet settings.names v := by
      refine hsound.quiet fun c hc st hrunning => ?_
      rw [List.mem_singleton.mp hc] at hrunning
      cases hrunning
    have hp := h.attempt
    rw [hcourse] at hp hsame helse
    refine ⟨⟨hquiet, hst.dealing.raised.trans h.raised, hfaults⟩, outcome, rfl,
      hp.next hclaims (Nat.le_of_eq (congrArg left hchannel))
        (helse hst (fun _ h => by cases h)) ?_⟩
    rw [hsame hst rfl, hchannel]
    exact hp.owing

theorem Undertaking.setTime {st : Flow.Stage} (h : Undertaking settings known x left bound w st)
    (now : Nat) : Undertaking settings known x left bound (w.setTime now) st := by
  refine ⟨?_, h.raised, h.faultless, h.follows, ?_⟩
  · exact h.sound.outside rfl rfl rfl rfl rfl (fun _ => rfl) fun c hc => Or.inl hc
  · exact h.attempt.next rfl (Nat.le_refl _) (fun _ _ => rfl) h.attempt.owing

/-- What a call made of its errand when it is over. -/
theorem Attempt.call (hadvices : settings.advices = []) (htires : carrier.Tires left)
    (hroute : settings.flow.route raw = .accept x.message)
    (hkey : x.message.headers.text? settings.names.correlationId = some x.key)
    (hp : Attempt settings known x left bound w ⟨.ahead, none⟩) (hw : Calm settings w)
    (h : Alone carrier settings.flow w (.arrived raw) v result) :
    Calm settings v ∧ ∃ outcome, result = Flow.verdict outcome ∧
      Attempt settings known x left bound v ⟨.behind outcome, none⟩ := by
  have hsent : (Traffic.start w).move carrier settings.flow (.send raw) =
      some ⟨w, [.running (.arrived raw)]⟩ := rfl
  have hsound : Sound settings.names ⟨w, [.running (.arrived raw)]⟩ :=
    hw.quiet.sound.move (FlowSettings.flow_standard_of_nil hadvices) hsent
  have hstart : Undertaking settings known x left bound w (.arrived raw) :=
    ⟨hsound, hw.raised, hw.faultless, hroute, hp⟩
  have hstep (w : World κ) (st : Flow.Stage) (hst : Undertaking settings known x left bound w st) :=
    hst.step hadvices htires hkey
  exact h.ends hstep (fun w st now hst => hst.setTime now) hstart

/-- What leaves locks, groups and claims alone leaves a world tidy. -/
theorem Tidy.aside {w' : World κ} (hw : Tidy settings known w) (h : w.Aside w')
    (hclaims : w'.claims = w.claims) (hfaults : w'.claimFaults = w.claimFaults) :
    Tidy settings known w' ∧ w'.balance = w.balance := by
  refine ⟨⟨⟨hw.calm.quiet.aside h, ?_, hfaults ▸ hw.calm.faultless⟩, hclaims ▸ hw.roomy, ?_⟩, ?_⟩
  · rw [h.desk]
    exact hw.calm.raised
  · rw [h.history]
    exact hw.settled
  · rw [World.balance, h.history, hclaims]
    rfl

/-- A message that cannot be decoded did not reach the handlers. -/
theorem Flow.not_handler_of_undecodable {f : Flow} {m : RawMessage} {cause : FlowError}
    (h : f.route raw = .undecodable m cause) (e : HandlerError) : cause ≠ .handler e := by
  unfold route at h
  split at h
  · split at h
    · cases h
    · dsimp only [decode] at h
      split at h
      · next hdecode =>
        obtain ⟨-, rfl⟩ := Route.undecodable.inj h
        split at hdecode
        · rw [← Except.error.inj hdecode]
          exact fun h => by cases h
        · cases hdecode
      · cases h
  · cases h

/-- A message that the handlers do not take leaves a tidy world as it is. -/
theorem Tidy.rejected (hroute : ∀ e, settings.flow.route raw ≠ .accept e)
    (hw : Tidy settings known w) (h : Alone carrier settings.flow w (.arrived raw) v result) :
    (Tidy settings known v ∧ v.balance = w.balance) ∧
      ∀ cause, result ≠ .error (.handler cause) := by
  let I (w' : World κ) (st : Flow.Stage) : Prop :=
    (Tidy settings known w' ∧ w'.balance = w.balance) ∧
    (st = .arrived raw ∨ ∃ m verdict, st = .rejecting m verdict ∧
      ∀ cause, verdict ≠ .error (.handler cause))
  have hstep (w' : World κ) (st : Flow.Stage) (hI : I w' st) :
      (settings.flow.step carrier w' st).Ensures I fun v result =>
        (Tidy settings known v ∧ v.balance = w.balance) ∧
          ∀ cause, result ≠ .error (.handler cause) := by
    obtain ⟨⟨hw', hsame⟩, rfl | ⟨m, verdict, rfl, hverdict⟩⟩ := hI
    · have hcount (t : Total) : Tidy settings known ((w'.count .received).count t) ∧
          ((w'.count .received).count t).balance = w.balance := by
        have haside : w'.Aside ((w'.count .received).count t) := ⟨rfl, rfl, rfl, rfl⟩
        obtain ⟨htidy, hbalance⟩ := hw'.aside haside rfl rfl
        exact ⟨htidy, hbalance.trans hsame⟩
      simp only [Flow.step]
      split
      · exact ⟨hcount _, Or.inr ⟨_, _, rfl, fun _ h => by cases h⟩⟩
      · exact ⟨hcount _, Or.inr ⟨_, _, rfl, fun _ h => by cases h⟩⟩
      · next hundecodable =>
        refine ⟨hcount _, Or.inr ⟨_, _, rfl, fun cause hcause => ?_⟩⟩
        exact Flow.not_handler_of_undecodable hundecodable cause (Except.error.inj hcause)
      · next e haccept => exact absurd haccept (hroute e)
    · obtain ⟨hclaims, hfaults⟩ := w'.offer_claims m
      have hoffer := hw'.aside (w'.offer_aside m) hclaims hfaults
      simp only [Flow.step]
      split
      · next heq =>
        rw [heq] at hoffer
        exact ⟨⟨hoffer.1, hoffer.2.trans hsame⟩, fun _ h => by cases h⟩
      · next heq =>
        rw [heq] at hoffer
        exact ⟨⟨hoffer.1, hoffer.2.trans hsame⟩, hverdict⟩
  have htime (w' : World κ) (st : Flow.Stage) (now : Nat) (hI : I w' st) :
      I (w'.setTime now) st := by
    obtain ⟨⟨hw', hsame⟩, hst⟩ := hI
    have haside : w'.Aside (w'.setTime now) := ⟨rfl, rfl, rfl, rfl⟩
    obtain ⟨htidy, hbalance⟩ := hw'.aside haside rfl rfl
    exact ⟨⟨htidy, hbalance.trans hsame⟩, hst⟩
  exact h.ends hstep htime ⟨⟨hw, rfl⟩, Or.inl rfl⟩

/-! ## Deliveries of one message -/

/-- A message that is delivered has reached its target. -/
theorem Delivered.reached (hadvices : settings.advices = []) (htires : carrier.Tires left)
    (hroute : settings.flow.route raw = .accept x.message)
    (hkey : x.message.headers.text? settings.names.correlationId = some x.key)
    (hp : Attempt settings known x left bound w ⟨.ahead, none⟩) (hw : Calm settings w)
    (h : Delivered carrier settings.flow w raw v) :
    Tidy settings known v ∧ v.balance = x.target := by
  induction h generalizing bound with
  | done call ended =>
    obtain ⟨hv, outcome, rfl, hp⟩ := hp.call hadvices htires hroute hkey hw call
    cases outcome with
    | ok => exact hp.reached hv
    | error cause => exact absurd rfl (ended cause)
  | again call rest ih =>
    obtain ⟨hv, outcome, hresult, hp⟩ := hp.call hadvices htires hroute hkey hw call
    cases outcome with
    | ok => cases hresult
    | error cause => exact ih hroute hp.again.2 hv

theorem Attempt.exists_delivered (hadvices : settings.advices = []) (htires : carrier.Tires left)
    (hroute : settings.flow.route raw = .accept x.message)
    (hkey : x.message.headers.text? settings.names.correlationId = some x.key)
    (hp : Attempt settings known x left bound w ⟨.ahead, none⟩) (hw : Calm settings w) :
    ∃ v, Delivered carrier settings.flow w raw v := by
  induction bound using Nat.strongRecOn generalizing w with
  | _ bound ih =>
    obtain ⟨v, result, call⟩ : Returns carrier settings.flow w (.arrived raw) :=
      returns_arrived hadvices hw.quiet hw.raised raw
    obtain ⟨hv, outcome, rfl, hp⟩ := hp.call hadvices htires hroute hkey hw call
    cases outcome with
    | ok => exact ⟨v, .done call fun _ h => by cases h⟩
    | error cause =>
      obtain ⟨hless, hp⟩ := hp.again
      obtain ⟨u, rest⟩ := ih _ hless hp hv
      exact ⟨u, .again call rest⟩

theorem Delivered.balance (hadvices : settings.advices = []) (htires : carrier.Tires left)
    (hraw : raw.id ∈ known) (hw : Tidy settings known w)
    (h : Delivered carrier settings.flow w raw v) :
    Tidy settings known v ∧ v.balance = w.balance.handle settings raw := by
  cases hroute : settings.flow.route raw with
  | accept e =>
    obtain ⟨key, hkey⟩ : ∃ key, e.headers.text? settings.names.correlationId = some key :=
      Flow.key_of_route hroute
    have he : e.id ∈ known := by rwa [Flow.id_of_route hroute]
    have hp := hw.attempt left key he
    simp only [Balance.handle, hroute, hkey, Option.getD_some]
    exact h.reached hadvices htires hroute hkey hp hw.calm
  | discard | uncorrelated | undecodable =>
    have hnot (e : EventMessage) : settings.flow.route raw ≠ .accept e := by
      rw [hroute]
      exact fun h => by cases h
    rw [Balance.handle, hroute]
    cases h with
    | done call => exact (hw.rejected hnot call).1
    | again call => exact absurd rfl ((hw.rejected hnot call).2 _)

theorem Tidy.exists_delivered (hadvices : settings.advices = []) (htires : carrier.Tires left)
    (hraw : raw.id ∈ known) (hw : Tidy settings known w) :
    ∃ v, Delivered carrier settings.flow w raw v := by
  cases hroute : settings.flow.route raw with
  | accept e =>
    obtain ⟨key, hkey⟩ := Flow.key_of_route hroute
    have he : e.id ∈ known := by rwa [Flow.id_of_route hroute]
    have hp := hw.attempt left key he
    exact hp.exists_delivered hadvices htires hroute hkey hw.calm
  | discard | uncorrelated | undecodable =>
    have hnot (e : EventMessage) : settings.flow.route raw ≠ .accept e := by
      rw [hroute]
      exact fun h => by cases h
    obtain ⟨v, result, call⟩ : Returns carrier settings.flow w (.arrived raw) :=
      returns_arrived hadvices hw.calm.quiet hw.calm.raised raw
    exact ⟨v, .done call (hw.rejected hnot call).2⟩

/-! ## Deliveries of all messages -/

theorem DeliveredAll.balance (hadvices : settings.advices = []) (htires : carrier.Tires left)
    {messages : List RawMessage} (hmessages : ∀ m ∈ messages, m.id ∈ known)
    (hw : Tidy settings known w) (h : DeliveredAll carrier settings.flow w messages v) :
    Tidy settings known v ∧ v.balance = messages.foldl (Balance.handle settings) w.balance := by
  induction h with
  | nil => exact ⟨hw, rfl⟩
  | cons first rest ih =>
    obtain ⟨hv, hfirst⟩ := first.balance hadvices htires (hmessages _ List.mem_cons_self) hw
    rw [List.foldl_cons, ← hfirst]
    exact ih (fun m hm => hmessages m (List.mem_cons_of_mem _ hm)) hv

theorem Tidy.exists_deliveredAll (hadvices : settings.advices = []) (htires : carrier.Tires left)
    {messages : List RawMessage} (hmessages : ∀ m ∈ messages, m.id ∈ known)
    (hw : Tidy settings known w) : ∃ v, DeliveredAll carrier settings.flow w messages v := by
  induction messages generalizing w with
  | nil => exact ⟨w, .nil⟩
  | cons m ms ih =>
    have hm : m.id ∈ known := hmessages m List.mem_cons_self
    obtain ⟨v, first⟩ := hw.exists_delivered hadvices htires hm
    obtain ⟨hv, -⟩ := first.balance hadvices htires hm hw
    obtain ⟨u, rest⟩ := ih (fun o ho => hmessages o (List.mem_cons_of_mem _ ho)) hv
    exact ⟨u, .cons first rest⟩

end

/-! ## Transparency -/

theorem Tidy.start {settings : FlowSettings} {known : List Uuid} {capacity : Nat}
    (hroom : settings.idempotent = true → known.length ≤ capacity) (channel : κ) (clock : Clock)
    (letters : DeadLetterQueue) :
    Tidy settings known (World.start channel clock (.ofCapacity capacity) letters) := by
  refine ⟨⟨Quiet.start _ _ _ _ _, rfl, fun _ => rfl⟩, fun h => .ofCapacity (hroom h), fun key => ?_⟩
  exact Or.inl fun m hm => by cases hm

/-- Messages that are sent one after another, each again for as long as its handlers fail, where
the memory of claims has room for their identities or there is none.  Over a channel that refuses
a finite number of outputs, wherever and however, they can be delivered, and the outputs that were
accepted and the messages that are pending are the same as over a channel that accepts
everything. -/
theorem redelivery_transparent {κ' : Type} {settings : FlowSettings}
    (hadvices : settings.advices = []) {carrier : Carrier κ} {left : κ → Nat}
    (htires : carrier.Tires left) {carrier' : Carrier κ'}
    (haccepts : ∀ c m, (carrier'.send c m).2 = .ok ()) {messages : List RawMessage} {capacity : Nat}
    (hroom : settings.idempotent = true → (messages.map Message.id).dedup.length ≤ capacity)
    (channel : κ) (channel' : κ') (clock : Clock) (letters : DeadLetterQueue) :
    (∃ v, DeliveredAll carrier settings.flow
      (.start channel clock (.ofCapacity capacity) letters) messages v) ∧
    (∃ v', DeliveredAll carrier' settings.flow
      (.start channel' clock (.ofCapacity capacity) letters) messages v') ∧
    ∀ v v', DeliveredAll carrier settings.flow
        (.start channel clock (.ofCapacity capacity) letters) messages v →
      DeliveredAll carrier' settings.flow
        (.start channel' clock (.ofCapacity capacity) letters) messages v' →
      outputs (fun _ => true) v.history = outputs (fun _ => true) v'.history ∧
        ∀ key, v.groups.messages key = v'.groups.messages key := by
  have htires' : carrier'.Tires fun _ => 0 := by
    refine ⟨fun c => Nat.le_refl _, fun c m => Nat.le_refl _, fun c m e h => ?_⟩
    rw [haccepts] at h
    cases h
  have hmessages : ∀ m ∈ messages, m.id ∈ (messages.map Message.id).dedup :=
    fun m hm => List.mem_dedup.mpr (List.mem_map_of_mem hm)
  have hw := Tidy.start hroom channel clock letters
  have hw' := Tidy.start hroom channel' clock letters
  refine ⟨hw.exists_deliveredAll hadvices htires hmessages,
    hw'.exists_deliveredAll hadvices htires' hmessages, fun v v' h h' => ?_⟩
  obtain ⟨hv, hbalance⟩ := h.balance hadvices htires hmessages hw
  obtain ⟨hv', hbalance'⟩ := h'.balance hadvices htires' hmessages hw'
  have hsame : v.balance = v'.balance := hbalance.trans hbalance'.symm
  refine ⟨congrArg Balance.outputs hsame, fun key => ?_⟩
  rw [hv.calm.quiet.faithful.pages, hv'.calm.quiet.faithful.pages]
  exact congrFun (congrArg Balance.messages hsame) key

/-- A channel that fails by a pattern, and accepts everything after it. -/
def Carrier.faulty : Carrier (List (Option ChannelError)) where
  delay faults := (faults, none)
  send
    | some e :: rest, _ => (rest, .error e)
    | none :: rest, _ => (rest, .ok ())
    | [], _ => ([], .ok ())

/-- A finite pattern of failures comes to an end. -/
theorem Carrier.faulty_tires : Carrier.faulty.Tires List.length := by
  refine ⟨fun faults => Nat.le_refl _, fun faults m => ?_, fun faults m e h => ?_⟩
  · cases faults with
    | nil => exact Nat.le_refl 0
    | cons fault rest => cases fault <;> exact Nat.le_succ _
  · cases faults with
    | nil => cases h
    | cons fault rest =>
      cases fault with
      | none => cases h
      | some e => exact Nat.lt_succ_self _

/-- A payment meets an execution that waits for it, while the channel is out of service and then
refuses the output. -/
theorem redelivery_transparent_refused : ∃ v v',
    DeliveredAll Carrier.faulty (FlowSettings.flow {})
      (.start [some (.connectionFailed "down"), some (.rejected "refused"), none,
        some (.rejected "refused")] ⟨Stamp.start2025, 1⟩ (.ofCapacity 10) (.ofSize 10 "errors"))
      [orderAwaited 1, orderSent 2, orderSent 3] v ∧
    DeliveredAll Carrier.taker (FlowSettings.flow {})
      (.start [] ⟨Stamp.start2025, 1⟩ (.ofCapacity 10) (.ofSize 10 "errors"))
      [orderAwaited 1, orderSent 2, orderSent 3] v' ∧
    outputs (fun _ => true) v.history = outputs (fun _ => true) v'.history ∧
    ∀ key, v.groups.messages key = v'.groups.messages key := by
  have hadvices : ({} : FlowSettings).advices = [] := rfl
  have haccepts : ∀ c m, (Carrier.taker.send c m).2 = .ok () := fun _ _ => rfl
  have hroom : ([orderAwaited 1, orderSent 2, orderSent 3].map Message.id).dedup.length ≤ 10 := by
    decide
  obtain ⟨⟨v, h⟩, ⟨v', h'⟩, hsame⟩ := redelivery_transparent hadvices Carrier.faulty_tires haccepts
    (fun _ => hroom) [some (.connectionFailed "down"), some (.rejected "refused"), none,
      some (.rejected "refused")] [] ⟨Stamp.start2025, 1⟩ (.ofSize 10 "errors")
  exact ⟨v, v', h, h', hsame v v' h h'⟩

end Rendezvous
