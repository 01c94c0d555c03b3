/-
One delivery of a message over a channel that may refuse.

An errand is a message of a key together with what is to become of the world: the outputs that were
accepted, the messages that are pending, and the identities that are claimed.  The target of an
errand is what the message makes of a world whose channel accepts everything (`Balance.take`).
While a call is on an errand, it owes what is left to do (`Owing`), whatever the channel has
refused so far.  When the call is over, either the target is reached, or the channel refused an
output, the message primes its group, and a new call has the same errand (`Attempt.again`).
-/
import Rendezvous.Proofs.Alone
import Rendezvous.Proofs.Priming

namespace Rendezvous

variable {κ : Type}

/-! ## Channels that refuse for a while -/

/-- A channel whose refusals are counted: it refuses no more than `left` outputs. -/
structure Carrier.Tires (carrier : Carrier κ) (left : κ → Nat) : Prop where
  delay : ∀ c, left (carrier.delay c).1 ≤ left c
  send : ∀ c m, left (carrier.send c m).1 ≤ left c
  refuse : ∀ c m e, (carrier.send c m).2 = .error e → left (carrier.send c m).1 < left c

theorem Carrier.Tires.le_of_reaches {carrier : Carrier κ} {left : κ → Nat}
    (h : carrier.Tires left) {c c' : κ} (hr : carrier.Reaches c c') : left c' ≤ left c := by
  rcases hr with rfl | rfl | ⟨m, rfl⟩
  · exact Nat.le_refl _
  · exact h.delay c
  · exact h.send c m

/-! ## Balances -/

/-- What an observer of outputs and groups sees, and what the receiver knows. -/
structure Balance where
  outputs : List Release
  messages : CorrelationKey → List EventMessage
  claimed : Uuid → Bool

def World.balance (w : World κ) : Balance :=
  ⟨outputs (fun _ => true) w.history, fun key => (page key w.history).messages, w.claims.claimed⟩

namespace Balance

def account (d : Balance) (key : CorrelationKey) : Account := ⟨d.outputs, d.messages key⟩

def put (d : Balance) (key : CorrelationKey) (a : Account) : Balance :=
  ⟨a.outputs, Function.update d.messages key a.messages, d.claimed⟩

def claim (d : Balance) (id : Uuid) : Balance :=
  ⟨d.outputs, d.messages, Function.update d.claimed id true⟩

theorem account_put (d : Balance) (key : CorrelationKey) (a : Account) :
    (d.put key a).account key = a :=
  congrArg (Account.mk a.outputs) (Function.update_self ..)

theorem messages_put_of_ne {key k : CorrelationKey} (hk : k ≠ key) (d : Balance) (a : Account) :
    (d.put key a).messages k = d.messages k :=
  Function.update_of_ne hk ..

theorem claimed_claim (d : Balance) (id : Uuid) : (d.claim id).claimed id = true :=
  Function.update_self ..

theorem claimed_claim_of_ne {id other : Uuid} (hid : other ≠ id) (d : Balance) :
    (d.claim id).claimed other = d.claimed other :=
  Function.update_of_ne hid ..

variable (settings : FlowSettings) (key : CorrelationKey) (e : EventMessage) (d : Balance)

/-- What the handlers behind the receiver make of a balance over a channel that accepts
everything. -/
def serve : Balance :=
  d.put key
    ((Plan.start settings.names key e).finish settings.names (fun _ => .ok ()) (d.account key)).1

/-- What a message makes of it. -/
def take : Balance :=
  if settings.idempotent then
    if d.claimed e.id then d else (d.serve settings key e).claim e.id
  else d.serve settings key e

variable {settings}

theorem take_of_off (h : settings.idempotent = false) :
    d.take settings key e = d.serve settings key e := by
  rw [take, h, if_neg Bool.false_ne_true]

variable {d} {e}

theorem take_of_claimed (h : settings.idempotent = true) (hc : d.claimed e.id = true) :
    d.take settings key e = d := by
  rw [take, if_pos h, if_pos hc]

theorem take_of_free (h : settings.idempotent = true) (hc : d.claimed e.id = false) :
    d.take settings key e = (d.serve settings key e).claim e.id := by
  rw [take, if_pos h, hc, if_neg Bool.false_ne_true]

end Balance

/-! ## Errands -/

/-- A message of a key that is to be delivered, and what is to become of the world. -/
structure Errand where
  key : CorrelationKey
  message : EventMessage
  target : Balance

namespace Errand

def goal (x : Errand) : Account := x.target.account x.key

/-- What a call that is over has made of the account: the goal, or the channel refused an output
and the message will make the goal of what is there.  Then fewer refusals are left. -/
def Reached (names : HeaderNames) (x : Errand) (fewer : Prop) (a : Account) :
    Except HandlerError Unit → Prop
  | .ok () => a = x.goal ∧ Settled names x.goal.messages
  | .error _ => x.message.isAggregated names = true ∧ Primed names x.message a.messages ∧
      (a.serve names (fun _ => .ok ()) x.key).1 = x.goal ∧ fewer

/-- A plan makes the goal of an account. -/
def Owes (names : HeaderNames) (x : Errand) (fewer : Prop) (a : Account) : Plan → Prop
  | .ahead => ((Plan.start names x.key x.message).finish names (fun _ => .ok ()) a).1 = x.goal ∧
      (Settled names a.messages ∨
        x.message.isAggregated names = true ∧ Primed names x.message a.messages)
  | .looping k next => k = x.key ∧ x.message.isAggregated names = true ∧
      (Settled names (next a).messages ∨ Primed names x.message (next a).messages) ∧
      ((next a).serve names (fun _ => .ok ()) x.key).1 = x.goal
  | .ending _ next result => x.Reached names fewer (next a) result
  | .behind result => x.Reached names fewer a result

variable {names : HeaderNames} {x : Errand} {fewer : Prop} {a : Account}

theorem Owes.begin (h : x.Owes names fewer a .ahead) :
    x.Owes names fewer a (.start names x.key x.message) := by
  obtain ⟨hgoal, hready⟩ := h
  -- no other message joins a group that is primed
  have hsettled (he : x.message.isAggregated names = false) : Settled names a.messages := by
    refine hready.resolve_right fun h => ?_
    rw [he] at h
    cases h.1
  cases he : x.message.isAggregated names with
  | true =>
    rw [Plan.start_of_aggregated he] at hgoal ⊢
    refine ⟨rfl, he, ?_, hgoal⟩
    rcases hready with h | ⟨-, h⟩
    · exact h.join
    · exact Or.inr (h.join_eq.symm ▸ h)
  | false =>
    cases hc : x.message.isOf names .cancelled with
    | true =>
      rw [Plan.start_of_cancelled hc] at hgoal ⊢
      have hgoal : a.cancel names = x.goal := hgoal
      exact ⟨hgoal, hgoal ▸ (hsettled he).mono fun m hm => (List.mem_filter.mp hm).1⟩
    | false =>
      rw [Plan.start_of_neither he hc] at hgoal ⊢
      have hgoal : a = x.goal := hgoal
      exact ⟨hgoal, hgoal ▸ hsettled he⟩

/-- A message whose delivery failed is to be delivered again. -/
theorem Reached.again {cause : HandlerError} (h : x.Reached names fewer a (.error cause)) :
    x.Owes names fewer a .ahead := by
  obtain ⟨he, hprimed, hgoal, -⟩ := h
  refine ⟨?_, Or.inr ⟨he, hprimed⟩⟩
  rw [Plan.start_of_aggregated he]
  show ((a.join x.message).serve names _ x.key).1 = x.goal
  rw [hprimed.join_eq]
  exact hgoal

end Errand

/-- What a call of a course owes, where the identity of its message is claimed or not. -/
inductive Owing (settings : FlowSettings) (x : Errand) (fewer : Prop) (claimed : Bool)
    (a : Account) (c : Course) : Prop
  /-- the message is to be let in -/
  | enters (once : settings.idempotent = true) (claim : c.claim? = none) (ahead : c.plan = .ahead)
      (free : claimed = false) (owes : x.Owes settings.names fewer a .ahead)
  /-- the message was delivered before -/
  | repeats (once : settings.idempotent = true) (claim : c.claim? = none)
      (ahead : c.plan = .ahead) (taken : claimed = true)
      (reached : x.Reached settings.names fewer a (.ok ()))
  | works (claim : c.claim? = settings.claim? x.message)
      (same : claimed = x.target.claimed x.message.id) (owes : x.Owes settings.names fewer a c.plan)
  /-- the receiver knows the outcome -/
  | told {result} (once : settings.idempotent = true) (claim : c.claim? = none)
      (behind : c.plan = .behind result) (knows : claimed = Chain.succeeded result)
      (reached : x.Reached settings.names fewer a result)

/-- A call that holds its claim, or needs none, is at work. -/
theorem Owing.of_claim {settings : FlowSettings} {x : Errand} {fewer : Prop} {claimed : Bool}
    {a : Account} {c : Course} (h : Owing settings x fewer claimed a c)
    (hc : c.claim? = settings.claim? x.message) :
    claimed = x.target.claimed x.message.id ∧ x.Owes settings.names fewer a c.plan := by
  have hnone (honce : settings.idempotent = true) (hnone : c.claim? = none) : False := by
    rw [hnone, FlowSettings.claim?, if_pos honce] at hc
    cases hc
  cases h with
  | enters once claim | repeats once claim | told once claim => exact (hnone once claim).elim
  | works claim same owes => exact ⟨same, owes⟩

/-! ## Attempts -/

/-- A call is on an errand.  Everything but the account of its key and the claim of its message is
already as it is to be. -/
structure Attempt (settings : FlowSettings) (known : List Uuid) (x : Errand) (left : κ → Nat)
    (bound : Nat) (w : World κ) (c : Course) : Prop where
  mem : x.message.id ∈ known
  stays : settings.idempotent = true → x.target.claimed x.message.id = true
  roomy : settings.idempotent = true → w.claims.Roomy known
  bounded : left w.channel ≤ bound
  elsewhere : ∀ k, k ≠ x.key → (page k w.history).messages = x.target.messages k ∧
    Settled settings.names (x.target.messages k)
  others : ∀ id, id ≠ x.message.id → w.claims.claimed id = x.target.claimed id
  owing : Owing settings x (left w.channel < bound) (w.claims.claimed x.message.id)
    (account (fun _ => true) x.key w.history) c

section
variable {settings : FlowSettings} {known : List Uuid} {x : Errand} {left : κ → Nat} {bound : Nat}
  {w w' : World κ} {c c' : Course}

theorem Attempt.next (hp : Attempt settings known x left bound w c) (hclaims : w'.claims = w.claims)
    (hleft : left w'.channel ≤ left w.channel)
    (helse : ∀ k, k ≠ x.key → (page k w'.history).messages = (page k w.history).messages)
    (howing : Owing settings x (left w'.channel < bound) (w.claims.claimed x.message.id)
      (account (fun _ => true) x.key w'.history) c') :
    Attempt settings known x left bound w' c' :=
  ⟨hp.mem, hp.stays, hclaims.symm ▸ hp.roomy, Nat.le_trans hleft hp.bounded,
    fun k hk => (helse k hk).symm ▸ hp.elsewhere k hk, hclaims.symm ▸ hp.others,
    hclaims.symm ▸ howing⟩

/-- A call that takes a step is still on its errand. -/
theorem Advance.attempt {carrier : Carrier κ} (htires : carrier.Tires left)
    (h : Advance carrier settings x.key x.message w w' c c')
    (hp : Attempt settings known x left bound w c)
    (hsame : c.plan.key? = none →
      account (fun _ => true) x.key w'.history = account (fun _ => true) x.key w.history)
    (helse : ∀ k, k ≠ x.key → (page k w'.history).messages = (page k w.history).messages) :
    Attempt settings known x left bound w' c' := by
  have howing := hp.owing
  cases h with
  | rests calm claims channel =>
    refine hp.next claims (Nat.le_of_eq (congrArg left channel)) helse ?_
    rw [hsame calm, channel]
    exact howing
  | @admits value once free claims channel =>
    have howes : x.Owes settings.names (left w.channel < bound)
        (account (fun _ => true) x.key w.history) .ahead := by
      cases howing with
      | enters _ _ _ _ owes => exact owes
      | repeats _ _ _ taken =>
        rw [taken] at free
        cases free
      | works _ _ owes => exact owes
      | told _ _ behind => cases behind
    have hroomy := hp.roomy once
    have hclaimed (id : Uuid) :
        w'.claims.claimed id = (decide (id = x.message.id) || w.claims.claimed id) := by
      rw [claims]
      exact hroomy.claimed_put hp.mem free id
    refine ⟨hp.mem, hp.stays, fun _ => claims ▸ hroomy.put hp.mem free, ?_,
      fun k hk => (helse k hk).symm ▸ hp.elsewhere k hk, fun id hid => ?_, .works ?_ ?_ ?_⟩
    · rw [channel]
      exact hp.bounded
    · rw [hclaimed, decide_eq_false hid, Bool.false_or]
      exact hp.others id hid
    · rw [FlowSettings.claim?, if_pos once]
    · rw [hclaimed, decide_eq_true rfl, hp.stays once]
      rfl
    · rw [hsame rfl, channel]
      exact howes
  | repeats once claimed claims channel =>
    have hreached : x.Reached settings.names (left w.channel < bound)
        (account (fun _ => true) x.key w.history) (.ok ()) := by
      cases howing with
      | enters _ _ _ free =>
        rw [claimed] at free
        cases free
      | repeats _ _ _ _ reached => exact reached
      | works claim =>
        rw [FlowSettings.claim?, if_pos once] at claim
        cases claim
      | told _ _ behind => cases behind
    refine hp.next claims (Nat.le_of_eq (congrArg left channel)) helse
      (.told once rfl rfl claimed ?_)
    rw [hsame rfl, channel]
    exact hreached
  | begins claims channel =>
    obtain ⟨hclaimed, howes⟩ := howing.of_claim rfl
    refine hp.next claims (Nat.le_of_eq (congrArg left channel)) helse (.works rfl hclaimed ?_)
    rw [hsame rfl, channel]
    exact howes.begin
  | works claims channel goes =>
    obtain ⟨hclaimed, hkey, he, hready, hgoal⟩ := howing.of_claim rfl
    refine hp.next claims (htires.le_of_reaches channel) helse
      (.works rfl hclaimed ⟨hkey, he, ?_⟩)
    rcases goes (fun _ => true) rfl with hnext | ⟨channel, r, -, hr, hafter⟩
    · rw [hnext]
      exact ⟨hready, hgoal⟩
    · rw [hafter]
      refine ⟨(Primed.of_some hready hr).after r, ?_⟩
      rw [← Account.serve_of_accepted hr rfl]
      exact hgoal
  | closes claims stops =>
    obtain ⟨hclaimed, -, he, hready, hgoal⟩ := howing.of_claim rfl
    obtain ⟨hleft, hstops⟩ := stops (fun _ => true) rfl
    cases hstops with
    | done hnone same =>
      rw [Account.serve_of_none hnone] at hgoal
      have hgoal : account (fun _ => true) x.key w'.history = x.goal := hleft.trans hgoal
      refine hp.next claims (Nat.le_of_eq (congrArg left same)) helse
        (.works rfl hclaimed ⟨hgoal, ?_⟩)
      rw [← hgoal, hleft]
      exact Release.of?_eq_none_iff.mp hnone
    | @refused r cause hr answer =>
      have hless : left w'.channel < left w.channel := by
        have := htires.refuse w.channel r.message cause (by rw [answer])
        rwa [answer] at this
      refine hp.next claims (Nat.le_of_lt hless) helse (.works rfl hclaimed ?_)
      show x.Reached settings.names _ (account (fun _ => true) x.key w'.history)
        (.error (.dispatch cause))
      rw [hleft]
      exact ⟨he, Primed.of_some hready hr, hgoal, Nat.lt_of_lt_of_le hless hp.bounded⟩
  | clears claims channel same =>
    obtain ⟨hclaimed, hreached⟩ := howing.of_claim rfl
    refine hp.next claims (Nat.le_of_eq (congrArg left channel)) helse (.works rfl hclaimed ?_)
    show x.Reached settings.names _ _ _
    rw [same, channel]
    exact hreached
  | leaves claims channel same =>
    obtain ⟨hclaimed, hreached⟩ := howing.of_claim rfl
    refine hp.next claims (Nat.le_of_eq (congrArg left channel)) helse (.works rfl hclaimed ?_)
    rw [same, channel]
    exact hreached
  | @forgets result once claims channel =>
    have hclaim : some x.message.id = settings.claim? x.message := by
      rw [FlowSettings.claim?, if_pos once]
    obtain ⟨hclaimed, hreached⟩ := howing.of_claim hclaim
    have hreached : x.Reached settings.names (left w'.channel < bound)
        (account (fun _ => true) x.key w'.history) result := by
      rw [hsame rfl, channel]
      exact hreached
    cases hs : Chain.succeeded result with
    | true =>
      rw [hs, if_pos rfl] at claims
      refine hp.next claims (Nat.le_of_eq (congrArg left channel)) helse
        (.told once rfl rfl ?_ hreached)
      rw [hclaimed, hp.stays once, hs]
    | false =>
      rw [hs, if_neg Bool.false_ne_true] at claims
      have hremoved (id : Uuid) :
          w'.claims.claimed id = (!decide (id = x.message.id) && w.claims.claimed id) := by
        rw [claims]
        exact ClaimStore.claimed_remove w.claims x.message.id id
      refine ⟨hp.mem, hp.stays, fun _ => claims ▸ (hp.roomy once).remove _, ?_,
        fun k hk => (helse k hk).symm ▸ hp.elsewhere k hk, fun id hid => ?_,
        .told once rfl rfl ?_ hreached⟩
      · rw [channel]
        exact hp.bounded
      · rw [hremoved, decide_eq_false hid]
        exact hp.others id hid
      · rw [hremoved, decide_eq_true rfl, hs]
        rfl

end

end Rendezvous
