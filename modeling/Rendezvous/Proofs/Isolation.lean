/-
Conversations do not interfere.

Two runs of one flow send the same messages of a key, in the same order, and whatever other
messages between them.  Then the messages of the key come back with the same results, the same
messages stay pending under the key, and the same outputs carry the key (`conversations_isolated`).
The runs share nothing but the verdict of their channels on an output.

When a message arrives, all that the handlers see of the past is the account of its key and whether
its identity is claimed.  This is a dialogue.  A message of the key makes of the dialogue what
`Dialogue.handle` says, and any other message leaves it as it is, so a whole run makes of it what
the messages of the key do (`Retained.settle`).
-/
import Rendezvous.Proofs.Outcome

namespace Rendezvous

/-! ## Keys of messages -/

/-- The key that a message is handled under, if it passes the filter and has one. -/
def Flow.key? (f : Flow) (m : RawMessage) : Option CorrelationKey :=
  if f.filter m then (f.derive m).toOption else none

/-- No identity is used under two keys. -/
def Flow.OneKeyEach (f : Flow) (ms : List RawMessage) : Prop :=
  ∀ m ∈ ms, ∀ m' ∈ ms, m.id = m'.id → ∀ key ∈ f.key? m, ∀ key' ∈ f.key? m', key = key'

instance (f : Flow) (ms : List RawMessage) : Decidable (f.OneKeyEach ms) :=
  inferInstanceAs (Decidable (∀ m ∈ ms, ∀ m' ∈ ms, m.id = m'.id →
    ∀ key ∈ f.key? m, ∀ key' ∈ f.key? m', key = key'))

/-- The messages of a key. -/
def Flow.sentFor (f : Flow) (key : CorrelationKey) (ms : List RawMessage) : List RawMessage :=
  ms.filter fun m => f.key? m = some key

/-- The results that the messages of a key came back with. -/
def Flow.resultsFor (f : Flow) (key : CorrelationKey) (ms : List RawMessage)
    (results : List (Except FlowError FlowOutcome)) : List (Except FlowError FlowOutcome) :=
  ((ms.zip results).filter fun p => f.key? p.1 = some key).map Prod.snd

/-- The accepted outputs, for whatever key they were released, that carry a key. -/
def World.outputsWith {κ : Type} (w : World κ) (names : HeaderNames) (key : CorrelationKey) :
    List Release :=
  (outputs (fun _ => true) w.history).filter fun r =>
    r.message.headers.text? names.correlationId = some key

section
variable {f : Flow} {names : HeaderNames} {raw : RawMessage} {e : EventMessage}
  {key : CorrelationKey} {h : List Deed}

theorem Flow.derive_of_key? (h : f.key? raw = some key) : f.derive raw = .ok key := by
  unfold key? at h
  split at h
  · cases hd : f.derive raw with
    | error cause =>
      rw [hd] at h
      cases h
    | ok key' =>
      rw [hd] at h
      rw [← Option.some.inj h]
  · cases h

/-- The handlers read the key that the message is handled under. -/
theorem Flow.key_of_key? (hnames : f.names.Legible) (hroute : f.route raw = .accept e)
    (hkey : f.key? raw = some key) : e.headers.text? f.names.correlationId = some key :=
  Flow.key_of_derive hnames hroute (Flow.derive_of_key? hkey)

/-- A message that the handlers take has a key. -/
theorem Flow.exists_key?_of_route (h : f.route raw = .accept e) : ∃ key, f.key? raw = some key := by
  obtain ⟨key, payload, hderive, -⟩ := Flow.of_route_accept h
  refine ⟨key, ?_⟩
  unfold route at h
  unfold key?
  split at h
  · next hfilter =>
    rw [if_pos hfilter, hderive]
    rfl
  · cases h

/-- Outputs that carry a key were released for it. -/
theorem Lawful.outputs_eq (hnames : names.Legible) (hl : Lawful names h) (key : CorrelationKey) :
    (outputs (fun _ => true) h).filter
        (fun r => r.message.headers.text? names.correlationId = some key) =
      outputs (fun k => k = key) h := by
  induction h with
  | nil => rfl
  | cons d h ih =>
    have hrest := ih hl.2
    cases d with
    | append | remove | settle => exact hrest
    | accept k r =>
      have hr : Release.of? names k (page k h).messages = some r := hl.1.2
      have hkey : r.message.headers.text? names.correlationId = some k := by
        obtain ⟨sent, -, ⟨waiting, -, rfl⟩ | ⟨-, deployed, -, rfl⟩⟩ := Release.of?_eq_some_iff.mp hr
        · exact Release.key_output hnames ..
        · exact Release.key_output hnames ..
      rw [outputs, outputs, if_pos rfl, List.filter_append, hrest]
      by_cases hk : k = key
      · simp [hk, hkey]
      · simp [hk, hkey]

end

/-! ## Dialogues -/

/-- What the handlers see of the past of a key: its account, and which identities are claimed. -/
structure Dialogue where
  account : Account
  claimed : Uuid → Bool

namespace Dialogue

def start : Dialogue := ⟨⟨[], []⟩, fun _ => false⟩

variable (settings : FlowSettings) (verdict : RawMessage → Except ChannelError Unit)
  (key : CorrelationKey)

/-- What a message of the key makes of a dialogue, and what it comes back with. -/
def handle (x : Dialogue) (m : RawMessage) : Dialogue × Except FlowError FlowOutcome :=
  match settings.flow.route m with
  | .accept e =>
    if x.claimed e.id then (x, .ok .handled)
    else
      let served := (Plan.start settings.names key e).finish settings.names verdict x.account
      (⟨served.1, fun id => if id = e.id then Chain.succeeded served.2 else x.claimed id⟩,
        Flow.verdict served.2)
  | .discard => (x, .ok .discarded)
  | .uncorrelated cause => (x, .error (.correlation cause))
  | .undecodable _ cause => (x, .error cause)

/-- What the messages of the key make of a dialogue one after the other, and their results. -/
def settle : Dialogue → List RawMessage → Dialogue × List (Except FlowError FlowOutcome)
  | x, [] => (x, [])
  | x, m :: ms =>
    let next := x.handle settings verdict key m
    let rest := next.1.settle ms
    (rest.1, next.2 :: rest.2)

variable {settings verdict key} {x : Dialogue} {m : RawMessage} {e : EventMessage}
  {answer : Except FlowError FlowOutcome}

theorem handle_of_rejection (h : (settings.flow.route m).rejection = some answer) :
    x.handle settings verdict key m = (x, answer) := by
  unfold handle
  cases hroute : settings.flow.route m with
  | accept e =>
    rw [hroute] at h
    cases h
  | discard | uncorrelated | undecodable =>
    rw [hroute] at h
    exact congrArg (Prod.mk x) (Option.some.inj h)

theorem handle_of_claimed (hroute : settings.flow.route m = .accept e)
    (hclaimed : x.claimed e.id = true) :
    x.handle settings verdict key m = (x, .ok .handled) := by
  unfold handle
  rw [hroute]
  exact if_pos hclaimed

theorem handle_of_free {account : Account} {outcome : Except HandlerError Unit}
    (hroute : settings.flow.route m = .accept e) (hfree : x.claimed e.id = false)
    (hserved : (account, outcome) =
      (Plan.start settings.names key e).finish settings.names verdict x.account) :
    x.handle settings verdict key m =
      (⟨account, fun id => if id = e.id then Chain.succeeded outcome else x.claimed id⟩,
        Flow.verdict outcome) := by
  unfold handle
  rw [hroute]
  dsimp only
  rw [hfree, if_neg Bool.false_ne_true, ← hserved]

end Dialogue

/-! ## Claims of others -/

section
variable {settings : FlowSettings} {id : Uuid} {before now : ClaimStore}
  {outcome : Except HandlerError Unit} {known : List Uuid}

/-- A message claims its identity, which was free, if its handlers succeed, and no other. -/
theorem FlowSettings.Leaves.sane (h : settings.Leaves id before outcome now)
    (honce : settings.idempotent = true) (hs : before.Sane) :
    before.claimed id = false ∧ now.Sane ∧ now.claimed id = Chain.succeeded outcome ∧
      ∀ j, j ≠ id → now.claimed j = true → before.claimed j = true := by
  cases h with
  | off never =>
    rw [honce] at never
    cases never
  | settles value once free =>
    obtain ⟨hput, hclaimed⟩ : (before.put id.text value).Sane ∧
        (before.put id.text value).claimed id = true := hs.put free
    have hother {j : Uuid} (hj : j ≠ id) (h : (before.put id.text value).claimed j = true) :
        before.claimed j = true := (ClaimStore.claimed_of_put h).resolve_left hj
    cases hsuccess : Chain.succeeded outcome with
    | true => exact ⟨free, hput, hclaimed, fun j hj => hother hj⟩
    | false =>
      refine ⟨free, hput.remove id, ?_, fun j hj h => hother hj ?_⟩
      · simp [ClaimStore.claimed_remove]
      · simpa [ClaimStore.claimed_remove, hj] using h

/-- If there is room for all identities, no claim of another is forgotten. -/
theorem FlowSettings.Leaves.roomy (h : settings.Leaves id before outcome now)
    (hid : id ∈ known) (hs : before.Roomy known) :
    now.Roomy known ∧ ∀ j, j ≠ id → before.claimed j = true → now.claimed j = true := by
  cases h with
  | off never => exact ⟨hs, fun j _ h => h⟩
  | settles value once free =>
    have hput : (before.put id.text value).Roomy known := hs.put hid free
    have hother {j : Uuid} (h : before.claimed j = true) :
        (before.put id.text value).claimed j = true := by
      rw [hs.claimed_put hid free, h, Bool.or_true]
    split
    · exact ⟨hput, fun j _ h => hother h⟩
    · refine ⟨hput.remove id, fun j hj h => ?_⟩
      rw [ClaimStore.claimed_remove, hother h]
      simp [hj]

end

/-! ## Runs that forget no claim -/

/-- Calls are made one after the other, each of them alone, and none of them makes the receiver
forget the claim of another message. -/
inductive Retained {κ : Type} (carrier : Carrier κ) (f : Flow) :
    World κ → List RawMessage → World κ → List (Except FlowError FlowOutcome) → Prop
  | nil {w} : Retained carrier f w [] w []
  | cons {w m v result ms u results} (first : Alone carrier f w (.arrived m) v result)
      (kept : ∀ id, id ≠ m.id → w.claims.claimed id = true → v.claims.claimed id = true)
      (rest : Retained carrier f v ms u results) :
      Retained carrier f w (m :: ms) u (result :: results)

/-- A dialogue is what a world shows of a key and of identities. -/
structure World.Shows {κ : Type} (w : World κ) (key : CorrelationKey) (own : Uuid → Prop)
    (x : Dialogue) : Prop where
  account : account (fun k => k = key) key w.history = x.account
  claimed : ∀ id, own id → w.claims.claimed id = x.claimed id

section
variable {κ : Type} {settings : FlowSettings} {verdict : RawMessage → Except ChannelError Unit}
  {key : CorrelationKey} {own : Uuid → Prop} {x : Dialogue} {carrier : Carrier κ}
  {w v : World κ} {m : RawMessage} {e : EventMessage} {result answer : Except FlowError FlowOutcome}

/-- A message of the key makes of what the world shows what it makes of a dialogue. -/
theorem Alone.shows_own (hadvices : settings.advices = []) (hnames : settings.names.Legible)
    (honce : settings.idempotent = true)
    (hverdict : ∀ channel m, (carrier.send channel m).2 = verdict m)
    (hkey : settings.flow.key? m = some key) (hown : own m.id) (hw : Serene settings w)
    (hsane : w.claims.Sane) (hshows : w.Shows key own x)
    (h : Alone carrier settings.flow w (.arrived m) v result)
    (hkept : ∀ id, id ≠ m.id → w.claims.claimed id = true → v.claims.claimed id = true) :
    Serene settings v ∧ v.claims.Sane ∧
      v.Shows key own (x.handle settings verdict key m).1 ∧
      result = (x.handle settings verdict key m).2 := by
  cases hroute : settings.flow.route m with
  | discard | uncorrelated | undecodable =>
    obtain ⟨hv, hsame, hclaims, rfl⟩ := h.rejected (congrArg Route.rejection hroute) hw
    rw [Dialogue.handle_of_rejection (congrArg Route.rejection hroute)]
    refine ⟨hv, hclaims ▸ hsane, ⟨(hsame _ _).trans hshows.account, ?_⟩, rfl⟩
    rw [hclaims]
    exact hshows.claimed
  | accept e =>
    have hid : e.id = m.id := Flow.id_of_route hroute
    have hclaimed : w.claims.claimed e.id = x.claimed e.id := hshows.claimed e.id (hid ▸ hown)
    obtain ⟨hv, hhandled⟩ := h.handled hadvices hverdict hroute
      (Flow.key_of_key? (f := settings.flow) hnames hroute hkey) hw
    refine ⟨hv, ?_⟩
    cases hhandled with
    | repeats once claimed claims same =>
      rw [Dialogue.handle_of_claimed hroute (hclaimed ▸ claimed)]
      refine ⟨claims ▸ hsane, ⟨(same _ _).trans hshows.account, ?_⟩, rfl⟩
      rw [claims]
      exact hshows.claimed
    | @serves outcome leaves ownAccount others =>
      have hserved := ownAccount (fun k => k = key) (decide_eq_true rfl)
      rw [World.served, hshows.account] at hserved
      obtain ⟨hfree, hsane', hnow, hothers⟩ := leaves.sane honce hsane
      rw [Dialogue.handle_of_free hroute (hclaimed ▸ hfree) hserved]
      refine ⟨hsane', ⟨rfl, fun id hid' => ?_⟩, rfl⟩
      dsimp only
      by_cases he : id = e.id
      · rw [if_pos he, he, hnow]
      · rw [if_neg he, ← hshows.claimed id hid', Bool.eq_iff_iff]
        exact ⟨hothers id he, hkept id (hid ▸ he)⟩

/-- Any other message leaves it as it is. -/
theorem Alone.shows_other (hadvices : settings.advices = []) (hnames : settings.names.Legible)
    (honce : settings.idempotent = true)
    (hverdict : ∀ channel m, (carrier.send channel m).2 = verdict m)
    (hkey : settings.flow.key? m ≠ some key)
    (hforeign : ∀ key', settings.flow.key? m = some key' → ¬own m.id) (hw : Serene settings w)
    (hsane : w.claims.Sane) (hshows : w.Shows key own x)
    (h : Alone carrier settings.flow w (.arrived m) v result)
    (hkept : ∀ id, id ≠ m.id → w.claims.claimed id = true → v.claims.claimed id = true) :
    Serene settings v ∧ v.claims.Sane ∧ v.Shows key own x := by
  have hsame (hv : Serene settings v) (hsame : w.SameAccounts v) (hclaims : v.claims = w.claims) :
      Serene settings v ∧ v.claims.Sane ∧ v.Shows key own x := by
    refine ⟨hv, hclaims ▸ hsane, (hsame _ _).trans hshows.account, ?_⟩
    rw [hclaims]
    exact hshows.claimed
  cases hroute : settings.flow.route m with
  | discard | uncorrelated | undecodable =>
    obtain ⟨hv, hsame', hclaims, -⟩ := h.rejected (congrArg Route.rejection hroute) hw
    exact hsame hv hsame' hclaims
  | accept e =>
    obtain ⟨key', hkey'⟩ := Flow.exists_key?_of_route hroute
    have hid : e.id = m.id := Flow.id_of_route hroute
    have hne : key ≠ key' := fun hk => hkey (hk ▸ hkey')
    obtain ⟨hv, hhandled⟩ := h.handled hadvices hverdict hroute
      (Flow.key_of_key? (f := settings.flow) hnames hroute hkey') hw
    cases hhandled with
    | repeats once claimed claims same => exact hsame hv same claims
    | serves leaves ownAccount others =>
      obtain ⟨-, hsane', -, hothers⟩ := leaves.sane honce hsane
      refine ⟨hv, hsane', (others _ key hne (by simpa using hne.symm)).trans hshows.account, ?_⟩
      intro id hown
      have he : id ≠ m.id := fun h => hforeign key' hkey' (h ▸ hown)
      rw [← hshows.claimed id hown, Bool.eq_iff_iff]
      exact ⟨hothers id (hid ▸ he), hkept id he⟩

/-- A run makes of what the world shows of a key what the messages of the key make of it, and they
come back with the results of the dialogue. -/
theorem Retained.settle (hadvices : settings.advices = []) (hnames : settings.names.Legible)
    (honce : settings.idempotent = true)
    (hverdict : ∀ channel m, (carrier.send channel m).2 = verdict m) {ms : List RawMessage}
    {results : List (Except FlowError FlowOutcome)}
    (hown : ∀ m ∈ ms, settings.flow.key? m = some key → own m.id)
    (hforeign : ∀ m ∈ ms, ∀ key', settings.flow.key? m = some key' → key' ≠ key → ¬own m.id)
    (hw : Serene settings w) (hsane : w.claims.Sane) (hshows : w.Shows key own x)
    (h : Retained carrier settings.flow w ms v results) :
    Serene settings v ∧
      v.Shows key own (x.settle settings verdict key (settings.flow.sentFor key ms)).1 ∧
      settings.flow.resultsFor key ms results =
        (x.settle settings verdict key (settings.flow.sentFor key ms)).2 := by
  induction h generalizing x with
  | nil => exact ⟨hw, hshows, rfl⟩
  | @cons w m v result ms u results first kept rest ih =>
    have hown' : ∀ o ∈ ms, settings.flow.key? o = some key → own o.id :=
      fun o ho => hown o (List.mem_cons_of_mem _ ho)
    have hforeign' : ∀ o ∈ ms, ∀ key', settings.flow.key? o = some key' → key' ≠ key →
        ¬own o.id := fun o ho => hforeign o (List.mem_cons_of_mem _ ho)
    by_cases hkey : settings.flow.key? m = some key
    · have hsent : settings.flow.sentFor key (m :: ms) = m :: settings.flow.sentFor key ms :=
        List.filter_cons_of_pos (decide_eq_true hkey)
      have hresults : settings.flow.resultsFor key (m :: ms) (result :: results) =
          result :: settings.flow.resultsFor key ms results := by
        simp [Flow.resultsFor, hkey]
      obtain ⟨hv, hsane', hshows', rfl⟩ := first.shows_own hadvices hnames honce hverdict hkey
        (hown m List.mem_cons_self hkey) hw hsane hshows kept
      obtain ⟨hu, hfinal, hrest⟩ := ih hown' hforeign' hv hsane' hshows'
      rw [hsent, hresults, hrest]
      exact ⟨hu, hfinal, rfl⟩
    · have hsent : settings.flow.sentFor key (m :: ms) = settings.flow.sentFor key ms :=
        List.filter_cons_of_neg (by simpa using hkey)
      have hresults : settings.flow.resultsFor key (m :: ms) (result :: results) =
          settings.flow.resultsFor key ms results := by
        simp [Flow.resultsFor, hkey]
      have hforeign'' (key' : CorrelationKey) (hkey' : settings.flow.key? m = some key') :
          ¬own m.id :=
        hforeign m List.mem_cons_self key' hkey' fun hk => hkey (hk ▸ hkey')
      obtain ⟨hv, hsane', hshows'⟩ := first.shows_other hadvices hnames honce hverdict hkey
        hforeign'' hw hsane hshows kept
      rw [hsent, hresults]
      exact ih hown' hforeign' hv hsane' hshows'

/-- If there is room for the claims of all messages, they can be sent and none is forgotten. -/
theorem exists_retained (hadvices : settings.advices = [])
    (hverdict : ∀ channel m, (carrier.send channel m).2 = verdict m) {known : List Uuid}
    {ms : List RawMessage} (hknown : ∀ m ∈ ms, m.id ∈ known) (hw : Serene settings w)
    (hroomy : w.claims.Roomy known) :
    ∃ v results, Retained carrier settings.flow w ms v results := by
  induction ms generalizing w with
  | nil => exact ⟨w, [], .nil⟩
  | cons m ms ih =>
    obtain ⟨v, result, first⟩ : Returns carrier settings.flow w (.arrived m) :=
      returns_arrived hadvices hw.calm.quiet hw.calm.raised m
    have hv : Serene settings v ∧ v.claims.Roomy known ∧
        ∀ id, id ≠ m.id → w.claims.claimed id = true → v.claims.claimed id = true := by
      cases hroute : settings.flow.route m with
      | discard | uncorrelated | undecodable =>
        obtain ⟨hv, -, hclaims, -⟩ := first.rejected (congrArg Route.rejection hroute) hw
        rw [hclaims]
        exact ⟨hv, hroomy, fun id _ h => h⟩
      | accept e =>
        obtain ⟨key, hkey⟩ := Flow.key_of_route hroute
        obtain ⟨hv, hhandled⟩ := first.handled hadvices hverdict hroute hkey hw
        refine ⟨hv, ?_⟩
        cases hhandled with
        | repeats once claimed claims same =>
          rw [claims]
          exact ⟨hroomy, fun id _ h => h⟩
        | serves leaves ownAccount others =>
          rw [Flow.id_of_route hroute] at leaves
          exact leaves.roomy (hknown m List.mem_cons_self) hroomy
    obtain ⟨u, results, rest⟩ :=
      ih (fun o ho => hknown o (List.mem_cons_of_mem _ ho)) hv.1 hv.2.1
    exact ⟨u, result :: results, .cons first hv.2.2 rest⟩

/-! ## Isolation -/

/-- What a run shows of a key is told by the messages of the key alone. -/
theorem Retained.settle_start (hadvices : settings.advices = []) (hnames : settings.names.Legible)
    (honce : settings.idempotent = true)
    (hverdict : ∀ channel m, (carrier.send channel m).2 = verdict m) {channel : κ} {clock : Clock}
    {capacity : Nat} {letters : DeadLetterQueue} {ms : List RawMessage}
    {results : List (Except FlowError FlowOutcome)} (hids : settings.flow.OneKeyEach ms)
    (h : Retained carrier settings.flow (.start channel clock (.ofCapacity capacity) letters) ms v
      results) (key : CorrelationKey) :
    (⟨v.outputsWith settings.names key, v.groups.messages key⟩ : Account) =
        (Dialogue.start.settle settings verdict key (settings.flow.sentFor key ms)).1.account ∧
      settings.flow.resultsFor key ms results =
        (Dialogue.start.settle settings verdict key (settings.flow.sentFor key ms)).2 := by
  let own (id : Uuid) : Prop := ∃ m ∈ ms, settings.flow.key? m = some key ∧ m.id = id
  have hown : ∀ m ∈ ms, settings.flow.key? m = some key → own m.id :=
    fun m hm hkey => ⟨m, hm, hkey, rfl⟩
  have hforeign : ∀ m ∈ ms, ∀ key', settings.flow.key? m = some key' → key' ≠ key →
      ¬own m.id := by
    intro m hm key' hkey' hne ho
    obtain ⟨o, ho, hkey, hid⟩ := ho
    exact hne (hids m hm o ho hid.symm key' hkey' key hkey)
  have hshows : World.Shows (World.start channel clock (.ofCapacity capacity) letters) key own
      Dialogue.start := by
    refine ⟨rfl, fun id _ => ?_⟩
    show ((Dict.empty : Dict String).find? id.text).isSome = false
    rw [Dict.find?_empty]
    rfl
  obtain ⟨hv, hfinal, hresults⟩ := h.settle hadvices hnames honce hverdict hown hforeign
    (Serene.start settings channel clock capacity letters) (.ofCapacity capacity) hshows
  refine ⟨?_, hresults⟩
  rw [← hfinal.account, account, World.outputsWith,
    hv.calm.quiet.faithful.lawful.outputs_eq hnames, hv.calm.quiet.faithful.pages]

end

/-- Two runs of one flow from empty stores, in which messages are sent one after the other, no claim
is forgotten and no identity is used under two keys, and in which the channels answer by the same
verdict.  If the messages of a key are the same in both, they come back with the same results, the
same messages are pending under the key in the end, and the same outputs that carry the key were
accepted, whatever was sent between them. -/
theorem conversations_isolated {settings : FlowSettings} (hadvices : settings.advices = [])
    (hnames : settings.names.Legible) (honce : settings.idempotent = true) {κ κ' : Type}
    {carrier : Carrier κ} {carrier' : Carrier κ'} {verdict : RawMessage → Except ChannelError Unit}
    (hverdict : ∀ channel m, (carrier.send channel m).2 = verdict m)
    (hverdict' : ∀ channel m, (carrier'.send channel m).2 = verdict m)
    {channel : κ} {channel' : κ'} {clock clock' : Clock} {capacity capacity' : Nat}
    {letters letters' : DeadLetterQueue} {ms ms' : List RawMessage} {v : World κ} {v' : World κ'}
    {results results' : List (Except FlowError FlowOutcome)}
    (hids : settings.flow.OneKeyEach ms) (hids' : settings.flow.OneKeyEach ms')
    (hrun : Retained carrier settings.flow (.start channel clock (.ofCapacity capacity) letters) ms
      v results)
    (hrun' : Retained carrier' settings.flow
      (.start channel' clock' (.ofCapacity capacity') letters') ms' v' results')
    {key : CorrelationKey} (hsame : settings.flow.sentFor key ms = settings.flow.sentFor key ms') :
    settings.flow.resultsFor key ms results = settings.flow.resultsFor key ms' results' ∧
      v.groups.messages key = v'.groups.messages key ∧
      v.outputsWith settings.names key = v'.outputsWith settings.names key := by
  obtain ⟨haccount, hresults⟩ := hrun.settle_start hadvices hnames honce hverdict hids key
  obtain ⟨haccount', hresults'⟩ := hrun'.settle_start hadvices hnames honce hverdict' hids' key
  rw [← hsame] at haccount' hresults'
  have hboth := haccount.trans haccount'.symm
  exact ⟨hresults.trans hresults'.symm, congrArg Account.messages hboth,
    congrArg Account.outputs hboth⟩

/-- A message about the payment of another order. -/
def otherOrderSent (id : Nat) : RawMessage :=
  (orderSent id).withText "messageEventCorrelationKey" "43"

/-- A message without an event type. -/
def stray (id : Nat) : RawMessage :=
  Message.assemble (Uuid.ofNat id) Headers.none (Text.toBytes "lost")

set_option maxRecDepth 100000 in
/-- The conversation about an order among messages about another one and a message that is
discarded. -/
theorem conversations_isolated_among_others : ∃ (v v' : World (List RawMessage))
    (results results' : List (Except FlowError FlowOutcome)),
    Retained Carrier.taker (FlowSettings.flow {})
      (.start [] ⟨Stamp.start2025, 1⟩ (.ofCapacity 10) (.ofSize 10 "errors"))
      [orderAwaited 1, orderSent 2] v results ∧
    Retained Carrier.taker (FlowSettings.flow {})
      (.start [] ⟨Stamp.start2025, 7⟩ (.ofCapacity 5) (.ofSize 10 "errors"))
      [otherOrderSent 3, orderAwaited 1, stray 4, otherOrderSent 5, orderSent 2] v' results' ∧
    (FlowSettings.flow {}).resultsFor "order-paid:42" [orderAwaited 1, orderSent 2] results =
      (FlowSettings.flow {}).resultsFor "order-paid:42"
        [otherOrderSent 3, orderAwaited 1, stray 4, otherOrderSent 5, orderSent 2] results' ∧
    v.groups.messages "order-paid:42" = v'.groups.messages "order-paid:42" ∧
    v.outputsWith {} "order-paid:42" = v'.outputsWith {} "order-paid:42" := by
  let settings : FlowSettings := {}
  let ms : List RawMessage := [orderAwaited 1, orderSent 2]
  let ms' : List RawMessage :=
    [otherOrderSent 3, orderAwaited 1, stray 4, otherOrderSent 5, orderSent 2]
  have hverdict : ∀ channel m, (Carrier.taker.send channel m).2 = (fun _ => .ok ()) m :=
    fun _ _ => rfl
  have hids : settings.flow.OneKeyEach ms := by decide +kernel
  have hids' : settings.flow.OneKeyEach ms' := by decide +kernel
  have hsame : settings.flow.sentFor "order-paid:42" ms =
      settings.flow.sentFor "order-paid:42" ms' := rfl
  obtain ⟨v, results, hrun⟩ : ∃ v results, Retained Carrier.taker settings.flow
      (.start [] ⟨Stamp.start2025, 1⟩ (.ofCapacity 10) (.ofSize 10 "errors")) ms v results :=
    exists_retained rfl hverdict (fun m hm => List.mem_map_of_mem hm)
      (Serene.start settings _ _ _ _) (.ofCapacity (by decide : (ms.map Message.id).length ≤ 10))
  obtain ⟨v', results', hrun'⟩ : ∃ v results, Retained Carrier.taker settings.flow
      (.start [] ⟨Stamp.start2025, 7⟩ (.ofCapacity 5) (.ofSize 10 "errors")) ms' v results :=
    exists_retained rfl hverdict (fun m hm => List.mem_map_of_mem hm)
      (Serene.start settings _ _ _ _) (.ofCapacity (by decide : (ms'.map Message.id).length ≤ 5))
  exact ⟨v, v', results, results', hrun, hrun',
    conversations_isolated rfl HeaderNames.legible_default rfl hverdict hverdict hids hids' hrun
      hrun' hsame⟩

end Rendezvous
