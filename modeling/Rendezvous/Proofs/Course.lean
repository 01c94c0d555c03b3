/-
The course of a call: what it will still make of its group.

A call is ahead of its work on a group, or in the middle of it, or behind it.  Its plan says so,
and in the middle it tells what the work will have made of the account of its key in the end.  An
advance is what one step may do to the plan of the call that takes it, to the claim it holds, and
to the account: it may begin with its work, and from then on it leaves what the account will
become as it is, or releases an output of it.  Every step of a call of a standard flow without
advices of the user is an advance (`Flow.step_advance`), provided that nobody raises the
interrupt, and that the call either waits for its lock without a limit or finds it free.
-/
import Rendezvous.Proofs.Account
import Rendezvous.Proofs.Receiving

namespace Rendezvous

/-! ## Work under a lock -/

namespace Desk

variable {d : Desk} {lk : String}

/-- While no interrupt is raised, a request is granted if the lock is free. -/
theorem request_calm (hd : d.raised = false) (lk : String) (p : Patience) :
    (∃ d', d.request lk p = (d', .granted d.issued)) ∨
      (d.table.lock lk).holder ≠ none ∧ ∃ d', d.request lk p = (d', .busy) := by
  have hob := d.change_obtain lk
  simp only [request, hd, Bool.and_false, Bool.false_eq_true, if_false]
  split
  · exact Or.inl ⟨_, rfl⟩
  · next hfree =>
    refine Or.inr ⟨fun hnone => hfree ?_, _, rfl⟩
    rw [LockTable.isFree, hob.self, hnone]
    rfl

/-- While no interrupt is raised, a request without a limit waits until it is granted. -/
theorem check_calm (hd : d.raised = false) (lk : String) (t : Ticket) (now : Nat) :
    d.check lk t none now = (d, .granted) ∨ d.check lk t none now = (d, .waiting) := by
  simp only [check, hd, Bool.false_eq_true, if_false]
  split
  · exact Or.inl rfl
  · exact Or.inr rfl

end Desk

namespace Guarded

variable {κ σ ρ : Type}

def entered : Guarded σ ρ → Bool
  | inside .. => true
  | leaving .. => true
  | _ => false

/-- Work that will get its lock: it stands in no queue if there is a limit to its wait. -/
def Steady (timeout : Option Nat) : Guarded σ ρ → Prop
  | lining => timeout = none
  | queued .. => timeout = none
  | givingUp _ => False
  | _ => True

/-- What a step of work under a lock may be, where `P` and `Q` hold of the steps and of the last
step of the work itself. -/
inductive Advance (start : σ) (P : σ → World κ → σ → Prop) (Q : σ → World κ → ρ → Prop)
    (w w' : World κ) : Guarded σ ρ → Guarded σ ρ → Prop
  | waits {g g'} (out : g.entered = false) (out' : g'.entered = false)
      (channel : w'.channel = w.channel) : Advance start P Q w w' g g'
  | enters {g t} (out : g.entered = false) (channel : w'.channel = w.channel) :
      Advance start P Q w w' g (.inside t start)
  | works {t s s'} (step : P s w' s') : Advance start P Q w w' (.inside t s) (.inside t s')
  | closes {t s r} (step : Q s w' r) : Advance start P Q w w' (.inside t s) (.leaving t r)

theorem step_advance {lk : String} {timeout : Option Nat} {start : σ}
    {work : World κ → σ → Progress (World κ) σ ρ} {w : World κ} {g : Guarded σ ρ}
    {P : σ → World κ → σ → Prop} {Q : σ → World κ → ρ → Prop} (hraised : w.desk.raised = false)
    (hsteady : g.Steady timeout)
    (hfree : timeout = none ∨ (g = asking → (w.desk.table.lock lk).holder = none))
    (hwork : ∀ t s, g = inside t s → (work w s).Ensures (P s) (Q s)) :
    (g.step lk (Patience.ofTimeout timeout) start work w).Ensures
      (fun w' g' => g'.Steady timeout ∧ Advance start P Q w w' g g')
      (fun w' entry => w'.channel = w.channel ∧ ∃ t r, g = leaving t r ∧ entry = .ran r) := by
  cases g with
  | asking =>
    rw [step]
    obtain ⟨d', hreq⟩ | ⟨hheld, d', hreq⟩ :=
      Desk.request_calm hraised lk (Patience.ofTimeout timeout)
    · rw [hreq]
      exact ⟨trivial, .enters rfl rfl⟩
    · obtain rfl : timeout = none := hfree.resolve_right fun h => hheld (h rfl)
      rw [hreq]
      exact ⟨rfl, .waits rfl rfl rfl⟩
  | lining =>
    rw [step]
    exact ⟨hsteady, .waits rfl rfl rfl⟩
  | queued t since =>
    obtain rfl : timeout = none := hsteady
    have hcheck := Desk.check_calm hraised lk t w.now
    rw [step, show (Patience.ofTimeout none).deadline since = none from rfl]
    rcases hcheck with hcheck | hcheck
    · rw [hcheck]
      exact ⟨trivial, .enters rfl rfl⟩
    · rw [hcheck]
      trivial
  | givingUp interrupted => exact absurd hsteady not_false
  | inside t s =>
    rw [step, Progress.ensures_andThen]
    exact (hwork t s rfl).mono (fun w' s' h => ⟨trivial, .works h⟩)
      fun w' r h => ⟨trivial, .closes h⟩
  | leaving t r => exact ⟨rfl, t, r, rfl, rfl⟩

/-- Outside its lock, work leaves the history as it is; it is about to leave the lock when its last
step was taken, and has an outcome only then. -/
theorem step_closes {lk : String} {p : Patience} {start : σ}
    {work : World κ → σ → Progress (World κ) σ ρ} {w : World κ} {g : Guarded σ ρ}
    {Q : World κ → ρ → Prop}
    (hwork : ∀ t s, g = inside t s → (work w s).Ensures (fun _ _ => True) Q) :
    (g.step lk p start work w).Ensures
      (fun w' g' => (∀ t r, g' = leaving t r → Q w' r) ∧
        (g'.entered = false → g.entered = false ∧ w'.history = w.history))
      fun w' entry => w'.history = w.history ∧
        ((∃ t r, g = leaving t r ∧ entry = .ran r) ∨ g.entered = false ∧ ∀ r, entry ≠ .ran r) := by
  have henters {w' : World κ} (t : Ticket) (s : σ) :
      (∀ t' r, inside t s = leaving t' r → Q w' r) ∧
        ((inside t s : Guarded σ ρ).entered = false → g.entered = false ∧
          w'.history = w.history) := by
    refine ⟨fun t' r h => ?_, fun h => ?_⟩ <;> cases h
  have hstays {w' : World κ} {g' : Guarded σ ρ} (hg : g.entered = false)
      (hg' : g'.entered = false) (hh : w'.history = w.history) :
      (∀ t r, g' = leaving t r → Q w' r) ∧
        (g'.entered = false → g.entered = false ∧ w'.history = w.history) := by
    refine ⟨?_, fun _ => ⟨hg, hh⟩⟩
    rintro t r rfl
    cases hg'
  have hrefused (w' : World κ) (interrupted : Bool) (hg : g.entered = false)
      (hh : w'.history = w.history) :
      (refuse w' lk interrupted : Progress (World κ) (Guarded σ ρ) (Entry ρ)).Ensures
        (fun w' g' => (∀ t r, g' = leaving t r → Q w' r) ∧
          (g'.entered = false → g.entered = false ∧ w'.history = w.history))
        fun w' entry => w'.history = w.history ∧
          ((∃ t r, g = leaving t r ∧ entry = .ran r) ∨
            g.entered = false ∧ ∀ r, entry ≠ .ran r) := by
    unfold refuse
    split <;> exact ⟨hh, Or.inr ⟨hg, fun r h => by cases h⟩⟩
  cases g with
  | asking =>
    rw [step]
    split
    · exact henters _ _
    · split
      · exact hrefused _ _ rfl rfl
      · exact hstays rfl rfl rfl
    · exact hrefused _ _ rfl rfl
  | lining => exact hstays rfl rfl rfl
  | queued t since =>
    rw [step]
    split
    · exact henters _ _
    · exact hstays rfl rfl rfl
    · exact hstays rfl rfl rfl
    · trivial
  | givingUp interrupted => exact hrefused _ _ rfl rfl
  | inside t s =>
    rw [step, Progress.ensures_andThen]
    refine (hwork t s rfl).mono (fun w' s' _ => henters t s') fun w' r hQ => ⟨?_, ?_⟩
    · rintro t' r' h
      obtain ⟨-, rfl⟩ := leaving.inj h
      exact hQ
    · intro h
      cases h
  | leaving t r => exact ⟨rfl, Or.inl ⟨t, r, rfl, rfl⟩⟩

end Guarded

/-! ## Plans -/

/-- What a call will still make of its group. -/
inductive Plan where
  /-- the work has not begun -/
  | ahead
  /-- outputs are released of what `next` makes of the account, for as long as there are any -/
  | looping (key : CorrelationKey) (next : Account → Account)
  /-- the account becomes what `next` makes of it -/
  | ending (key : CorrelationKey) (next : Account → Account) (result : Except HandlerError Unit)
  /-- the work is over, or there was none -/
  | behind (result : Except HandlerError Unit)

namespace Plan

def key? : Plan → Option CorrelationKey
  | looping key _ => some key
  | ending key _ _ => some key
  | _ => none

def start (names : HeaderNames) (key : CorrelationKey) (e : EventMessage) : Plan :=
  if e.isAggregated names then .looping key (Account.join e)
  else if e.isOf names .cancelled then .ending key (Account.cancel names) (.ok ())
  else .behind (.ok ())

theorem start_of_aggregated {names : HeaderNames} {key : CorrelationKey} {e : EventMessage}
    (he : e.isAggregated names = true) : start names key e = .looping key (Account.join e) :=
  if_pos he

end Plan

/-- What a plan makes of the account of its key over a channel that answers by a verdict, and the
result. -/
def Plan.finish (names : HeaderNames) (verdict : RawMessage → Except ChannelError Unit) :
    Plan → Account → Account × Except HandlerError Unit
  | .ahead, a => (a, .ok ())
  | .looping key next, a => (next a).serve names verdict key
  | .ending _ next result, a => (next a, result)
  | .behind result, a => (a, result)

theorem Message.not_isAggregated_of_cancelled {names : HeaderNames} {e : EventMessage}
    (he : e.isOf names .cancelled = true) : e.isAggregated names = false := by
  refine Bool.eq_false_iff.mpr fun h => ?_
  rcases Message.isAggregated_iff.mp h with h | h | h <;>
    exact absurd (Message.isOf_unique he h) (by decide)

theorem Plan.start_of_cancelled {names : HeaderNames} {key : CorrelationKey} {e : EventMessage}
    (he : e.isOf names .cancelled = true) :
    start names key e = .ending key (Account.cancel names) (.ok ()) := by
  rw [start, Message.not_isAggregated_of_cancelled he, if_neg Bool.false_ne_true, if_pos he]

theorem Plan.start_of_neither {names : HeaderNames} {key : CorrelationKey} {e : EventMessage}
    (ha : e.isAggregated names = false) (hc : e.isOf names .cancelled = false) :
    start names key e = .behind (.ok ()) := by
  rw [start, ha, hc]
  rfl

/-- The plan of a call, and the identity whose claim it holds. -/
structure Course where
  plan : Plan
  claim? : Option Uuid

namespace Chain

def aggregatingPlan (key : CorrelationKey) (m : EventMessage) :
    Guarded Aggregation.Stage (Except HandlerError Unit) → Plan
  | .inside _ st => .looping key (st.next m)
  | .leaving _ r => .ending key id r
  | _ => .ahead

def reconcilingPlan (names : HeaderNames) (key : CorrelationKey) :
    Guarded Reconciliation.Stage (Except HandlerError Nat) → Plan
  | .inside _ st => .ending key (st.next names) (.ok ())
  | .leaving _ r => .ending key id (r.map fun _ => ())
  | _ => .ahead

def Stage.plan (names : HeaderNames) : Stage → Plan
  | .enter m [] => if m.isOf names .cancelled then .behind (.ok ()) else .ahead
  | .enter _ (_ :: _) => .ahead
  | .reconciling _ key _ _ g => reconcilingPlan names key g
  | .aggregating _ key m g => aggregatingPlan key m g
  | .leave outcome => .behind outcome

def Call.course (names : HeaderNames) (c : Call) : Course := ⟨c.stage.plan names, claimOf c.frames⟩

def framesOf : Option Uuid → List Frame
  | none => []
  | some id => [.claimed id]

theorem claimOf_framesOf (id? : Option Uuid) : claimOf (framesOf id?) = id? := by
  cases id? <;> rfl

end Chain

/-- The claim that a message of a flow needs to pass. -/
def FlowSettings.claim? (s : FlowSettings) (e : EventMessage) : Option Uuid :=
  if s.idempotent then some e.id else none

/-! ## The way of a message through the chain -/

variable {κ : Type} {s : FlowSettings} {key : CorrelationKey} {e : EventMessage}

/-- A call is where the chain brings the message `e` of a key. -/
def Chain.Call.Follows (s : FlowSettings) (key : CorrelationKey) (e : EventMessage)
    (c : Chain.Call) : Prop :=
  match c.stage with
  | .enter m advices => m = e ∧ (c.frames = [] ∧ advices = s.chainAdvices ∨
      c.frames = framesOf (s.claim? e) ∧
        (advices = [.reconcile (.default s.names s.lockTimeout)] ∨ advices = []))
  | .reconciling r k m rest g => r = .default s.names s.lockTimeout ∧ k = key ∧ m = e ∧
      rest = [] ∧ c.frames = framesOf (s.claim? e) ∧ e.isOf s.names .cancelled = true ∧
      g.Steady s.lockTimeout
  | .aggregating a k m g => a = .default s.names s.retry s.lockTimeout ∧ k = key ∧ m = e ∧
      c.frames = framesOf (s.claim? e) ∧ e.isAggregated s.names = true ∧ g.Steady s.lockTimeout
  | .leave _ => c.frames = [] ∨ c.frames = framesOf (s.claim? e)

/-- What one step may do to the course of a call for the message `e`, to the claims and to the
account of its key. -/
inductive Advance (carrier : Carrier κ) (s : FlowSettings) (key : CorrelationKey)
    (e : EventMessage) (w w' : World κ) : Course → Course → Prop
  /-- nothing is done to the group or the claims -/
  | rests {plan claim?} (calm : plan.key? = none) (claims : w'.claims = w.claims)
      (channel : w'.channel = w.channel) :
      Advance carrier s key e w w' ⟨plan, claim?⟩ ⟨plan, claim?⟩
  /-- the message is let in -/
  | admits {value} (once : s.idempotent = true) (free : w.claims.claimed e.id = false)
      (claims : w'.claims = w.claims.put e.id.text value) (channel : w'.channel = w.channel) :
      Advance carrier s key e w w' ⟨.ahead, none⟩ ⟨.ahead, some e.id⟩
  /-- the message was let in before -/
  | repeats (once : s.idempotent = true) (claimed : w.claims.claimed e.id = true)
      (claims : w'.claims = w.claims) (channel : w'.channel = w.channel) :
      Advance carrier s key e w w' ⟨.ahead, none⟩ ⟨.behind (.ok ()), none⟩
  | begins (claims : w'.claims = w.claims) (channel : w'.channel = w.channel) :
      Advance carrier s key e w w' ⟨.ahead, s.claim? e⟩ ⟨.start s.names key e, s.claim? e⟩
  | works {next next'} (claims : w'.claims = w.claims)
      (channel : carrier.Reaches w.channel w'.channel)
      (goes : ∀ of, of key = true →
        next' (account of key w'.history) = next (account of key w.history) ∨
        Account.Releases carrier s.names key (next (account of key w.history))
          (next' (account of key w'.history))) :
      Advance carrier s key e w w' ⟨.looping key next, s.claim? e⟩ ⟨.looping key next', s.claim? e⟩
  | closes {next result} (claims : w'.claims = w.claims)
      (stops : ∀ of, of key = true →
        account of key w'.history = next (account of key w.history) ∧
        Account.Stops carrier s.names key (next (account of key w.history)) w.channel w'.channel
          result) :
      Advance carrier s key e w w' ⟨.looping key next, s.claim? e⟩
        ⟨.ending key id result, s.claim? e⟩
  /-- registrations are taken out -/
  | clears {next next' result} (claims : w'.claims = w.claims)
      (channel : w'.channel = w.channel)
      (same : ∀ of, next' (account of key w'.history) = next (account of key w.history)) :
      Advance carrier s key e w w' ⟨.ending key next result, s.claim? e⟩
        ⟨.ending key next' result, s.claim? e⟩
  | leaves {result} (claims : w'.claims = w.claims) (channel : w'.channel = w.channel)
      (same : ∀ of, account of key w'.history = account of key w.history) :
      Advance carrier s key e w w' ⟨.ending key id result, s.claim? e⟩ ⟨.behind result, s.claim? e⟩
  /-- the receiver learns the outcome -/
  | forgets {result} (once : s.idempotent = true)
      (claims : w'.claims =
        if Chain.succeeded result then w.claims else (w.claims.remove e.id.text).1)
      (channel : w'.channel = w.channel) :
      Advance carrier s key e w w' ⟨.behind result, some e.id⟩ ⟨.behind result, none⟩

/-! ## Steps -/

theorem Flow.key_of_route {f : Flow} {raw : RawMessage} (h : f.route raw = .accept e) :
    ∃ key, e.headers.text? f.names.correlationId = some key := by
  obtain ⟨key, payload, -, rfl⟩ := Flow.of_route_accept h
  simp only [Headers.text?, Message.assemble, Headers.putText, Message.withText,
    Message.withHeader, Dict.find?_insert]
  split
  · exact ⟨_, rfl⟩
  · exact ⟨_, rfl⟩

namespace Chain

variable {carrier : Carrier κ} {w : World κ}

theorem aggregatingPlan_of_out {m : EventMessage}
    {g : Guarded Aggregation.Stage (Except HandlerError Unit)} (hg : g.entered = false) :
    aggregatingPlan key m g = .ahead := by
  cases g with
  | inside | leaving => cases hg
  | asking | lining | queued | givingUp => rfl

theorem reconcilingPlan_of_out {names : HeaderNames}
    {g : Guarded Reconciliation.Stage (Except HandlerError Nat)} (hg : g.entered = false) :
    reconcilingPlan names key g = .ahead := by
  cases g with
  | inside | leaving => cases hg
  | asking | lining | queued | givingUp => rfl

theorem aggregateStep_advance {g : Guarded Aggregation.Stage (Except HandlerError Unit)}
    (hw : Faithful s.names w) (hm : Pertains s.names key e)
    (hg : (aggregatingStation s.names key e g).Grounded w.history)
    (hraised : w.desk.raised = false) (hsteady : g.Steady s.lockTimeout)
    (hfree : s.lockTimeout = none ∨
      (g = .asking → (w.desk.table.lock key.lockKey).holder = none)) :
    (aggregateStep carrier (.default s.names s.retry s.lockTimeout) key e w g).Ensures
      (fun w' g' => g'.Steady s.lockTimeout ∧ Advance carrier s key e w w'
        ⟨aggregatingPlan key e g, s.claim? e⟩ ⟨aggregatingPlan key e g', s.claim? e⟩)
      (fun w' r => Advance carrier s key e w w'
        ⟨aggregatingPlan key e g, s.claim? e⟩ ⟨.behind r, s.claim? e⟩) := by
  have hclaims : (aggregateStep carrier (.default s.names s.retry s.lockTimeout) key e w g).Ensures
      (fun w' _ => w'.claims = w.claims ∧ w'.claimFaults = w.claimFaults)
      (fun w' _ => w'.claims = w.claims ∧ w'.claimFaults = w.claimFaults) :=
    aggregateStep_claims hw hm hg
  have hstride : (aggregateStep carrier (.default s.names s.retry s.lockTimeout) key e w g).Ensures
      (fun w' g' => Stride s.names w (aggregatingStation s.names key e g) w'
        (aggregatingStation s.names key e g'))
      (fun w' _ => Stride s.names w (aggregatingStation s.names key e g) w' .idle) :=
    aggregateStep_stride hw hm hg
  have hguard : (g.step key.lockKey (Patience.ofTimeout s.lockTimeout) .read
      (Aggregation.step carrier (.default s.names s.retry s.lockTimeout) key e) w).Ensures
      (fun w' g' => g'.Steady s.lockTimeout ∧
        Guarded.Advance .read (Aggregation.Goes carrier s.names key e w)
          (Aggregation.Halts carrier s.names key e w) w w' g g')
      (fun w' entry => w'.channel = w.channel ∧ ∃ t r, g = .leaving t r ∧ entry = .ran r) := by
    refine Guarded.step_advance hraised hsteady hfree ?_
    rintro t st rfl
    exact Aggregation.step_next hw hm (hg key _ rfl)
  rw [aggregateStep, Progress.ensures_map] at hclaims hstride ⊢
  refine (hclaims.and (hstride.and hguard)).mono ?_ ?_
  · rintro w' g' ⟨⟨hcl, -⟩, -, hsteady', hadv⟩
    refine ⟨hsteady', ?_⟩
    cases hadv with
    | waits out out' channel =>
      rw [aggregatingPlan_of_out out, id_eq, aggregatingPlan_of_out out']
      exact .rests rfl hcl channel
    | @enters _ t out channel =>
      rw [aggregatingPlan_of_out out]
      have hbegin : aggregatingPlan key e (.inside t .read) = .start s.names key e :=
        (Plan.start_of_aggregated hm.2).symm
      rw [id_eq, hbegin]
      exact .begins hcl channel
    | works step => exact .works hcl step.1 step.2
    | closes step => exact .closes hcl step
  · rintro w' entry ⟨⟨hcl, -⟩, hst, hch, t, r, rfl, rfl⟩
    have hh : w'.history = w.history :=
      hst.grows.resolve_right fun hgrown => hgrown.choose_spec.2.1
    exact .leaves hcl hch fun of => by rw [hh]

theorem reconcileStep_advance (carrier : Carrier κ)
    {g : Guarded Reconciliation.Stage (Except HandlerError Nat)} (hw : Faithful s.names w)
    (he : e.isOf s.names .cancelled = true)
    (hg : (reconcilingStation s.names key g).Grounded w.history)
    (hraised : w.desk.raised = false) (hsteady : g.Steady s.lockTimeout)
    (hfree : s.lockTimeout = none ∨
      (g = .asking → (w.desk.table.lock key.lockKey).holder = none)) :
    (reconcileStep (.default s.names s.lockTimeout) key w g).Ensures
      (fun w' g' => g'.Steady s.lockTimeout ∧ Advance carrier s key e w w'
        ⟨reconcilingPlan s.names key g, s.claim? e⟩ ⟨reconcilingPlan s.names key g', s.claim? e⟩)
      (fun w' r => Advance carrier s key e w w' ⟨reconcilingPlan s.names key g, s.claim? e⟩
        ⟨.behind (r.map fun _ => ()), s.claim? e⟩) := by
  have hclaims : (reconcileStep (.default s.names s.lockTimeout) key w g).Ensures
      (fun w' _ => w'.claims = w.claims ∧ w'.claimFaults = w.claimFaults)
      (fun w' _ => w'.claims = w.claims ∧ w'.claimFaults = w.claimFaults) :=
    reconcileStep_claims hw hg
  have hstride : (reconcileStep (.default s.names s.lockTimeout) key w g).Ensures
      (fun w' g' => Stride s.names w (reconcilingStation s.names key g) w'
        (reconcilingStation s.names key g'))
      (fun w' _ => Stride s.names w (reconcilingStation s.names key g) w' .idle) :=
    reconcileStep_stride hw hg
  have hguard : (g.step key.lockKey (Patience.ofTimeout s.lockTimeout) .read
      (Reconciliation.step (.default s.names s.lockTimeout) key) w).Ensures
      (fun w' g' => g'.Steady s.lockTimeout ∧
        Guarded.Advance .read (Reconciliation.Goes s.names key w)
          (Reconciliation.Halts s.names key w) w w' g g')
      (fun w' entry => w'.channel = w.channel ∧ ∃ t r, g = .leaving t r ∧ entry = .ran r) := by
    refine Guarded.step_advance hraised hsteady hfree ?_
    rintro t st rfl
    exact Reconciliation.step_next hw (hg key _ rfl)
  rw [reconcileStep, Progress.ensures_map] at hclaims hstride ⊢
  refine (hclaims.and (hstride.and hguard)).mono ?_ ?_
  · rintro w' g' ⟨⟨hcl, -⟩, -, hsteady', hadv⟩
    refine ⟨hsteady', ?_⟩
    cases hadv with
    | waits out out' channel =>
      rw [reconcilingPlan_of_out out, id_eq, reconcilingPlan_of_out out']
      exact .rests rfl hcl channel
    | @enters _ t out channel =>
      rw [reconcilingPlan_of_out out]
      have hbegin : reconcilingPlan s.names key (.inside t .read) = .start s.names key e :=
        (Plan.start_of_cancelled he).symm
      rw [id_eq, hbegin]
      exact .begins hcl channel
    | works step => exact .clears hcl step.1 step.2
    | closes step =>
      obtain ⟨hch, ⟨n, rfl⟩, hsame⟩ := step
      exact .clears hcl hch hsame
  · rintro w' entry ⟨⟨hcl, -⟩, hst, hch, t, r, rfl, rfl⟩
    have hh : w'.history = w.history :=
      hst.grows.resolve_right fun hgrown => hgrown.choose_spec.2.1
    exact .leaves hcl hch fun of => by rw [hh]

theorem claimStep_advance (carrier : Carrier κ) (key : CorrelationKey) (e : EventMessage)
    (stamping : Stamping) (honce : s.idempotent = true) (hclaims : w.claimFaults = [])
    {w' : World κ} {c : Call}
    (h : claimStep w stamping e [.reconcile (.default s.names s.lockTimeout)] [] = (w', c)) :
    w'.claimFaults = [] ∧ c.Follows s key e ∧
      Advance carrier s key e w w' ⟨.ahead, none⟩ (c.course s.names) := by
  obtain ⟨hstamp, hchannel, hfaults⟩ : (stampOf w stamping).2.claims = w.claims ∧
      (stampOf w stamping).2.channel = w.channel ∧ (stampOf w stamping).2.claimFaults = [] := by
    cases stamping <;> exact ⟨rfl, rfl, hclaims⟩
  have hclaim : s.claim? e = some e.id := by rw [FlowSettings.claim?, honce, if_pos rfl]
  simp only [claimStep, World.putClaimIfAbsent_eq hfaults, hstamp] at h
  cases hc : w.claims.claimed e.id with
  | true =>
    obtain ⟨found, hfound⟩ := ClaimStore.putIfAbsent_of_claimed (stampOf w stamping).1.text hc
    rw [hfound] at h
    obtain ⟨rfl, rfl⟩ := Prod.mk.inj h
    exact ⟨hfaults, Or.inl rfl, .repeats honce hc rfl hchannel⟩
  | false =>
    rw [ClaimStore.putIfAbsent_of_not_claimed hc] at h
    obtain ⟨rfl, rfl⟩ := Prod.mk.inj h
    refine ⟨hfaults, ⟨rfl, Or.inr ⟨?_, Or.inl rfl⟩⟩, .admits honce hc rfl hchannel⟩
    rw [hclaim]
    rfl

theorem cancelStep_advance (carrier : Carrier κ) (w : World κ)
    (hkey : e.headers.text? s.names.correlationId = some key) :
    (cancelStep (.default s.names s.lockTimeout) e [] (framesOf (s.claim? e))).Follows s key e ∧
      Advance carrier s key e w w ⟨.ahead, s.claim? e⟩
        ((cancelStep (.default s.names s.lockTimeout) e [] (framesOf (s.claim? e))).course
          s.names) := by
  have hrests : Advance carrier s key e w w ⟨.ahead, s.claim? e⟩ ⟨.ahead, s.claim? e⟩ :=
    .rests rfl rfl rfl
  have hcorrelation :
      (Reconciler.default s.names s.lockTimeout).correlation e.headers = .ok key := by
    simp only [Reconciler.default, Correlation.ofHeader, hkey]
  simp only [cancelStep, hcorrelation]
  cases hc : e.isOf s.names .cancelled with
  | true =>
    rw [if_pos (show (Reconciler.default s.names s.lockTimeout).concerns e = true from hc),
      Call.course,
      claimOf_framesOf]
    exact ⟨⟨rfl, rfl, rfl, rfl, rfl, hc, trivial⟩, hrests⟩
  | false =>
    have hnot : ¬(Reconciler.default s.names s.lockTimeout).concerns e = true :=
      Bool.eq_false_iff.mp hc
    rw [if_neg hnot, Call.course, claimOf_framesOf, Stage.plan, hc, if_neg Bool.false_ne_true]
    exact ⟨⟨rfl, Or.inr ⟨rfl, Or.inr rfl⟩⟩, hrests⟩

theorem coreStep_advance (carrier : Carrier κ) (w : World κ)
    (hkey : e.headers.text? s.names.correlationId = some key) {w' : World κ} {c : Call}
    (h : coreStep s.flow.chain.core w e (framesOf (s.claim? e)) = (w', c)) :
    w'.claimFaults = w.claimFaults ∧ c.Follows s key e ∧ Advance carrier s key e w w'
      ⟨(Stage.enter e []).plan s.names, s.claim? e⟩ (c.course s.names) := by
  have hcorrelation : (Aggregator.default s.names s.retry s.lockTimeout).correlation e.headers =
      .ok key := by
    simp only [Aggregator.default, Correlation.ofHeader, hkey]
  have hparticipates : (Aggregator.default s.names s.retry s.lockTimeout).participates e =
      e.isAggregated s.names := rfl
  simp only [coreStep, FlowSettings.flow, hcorrelation, hparticipates] at h
  cases ha : e.isAggregated s.names with
  | true =>
    have hc : e.isOf s.names .cancelled = false := by
      refine Bool.eq_false_iff.mpr fun hc => ?_
      rw [Message.not_isAggregated_of_cancelled hc] at ha
      cases ha
    rw [ha, if_pos rfl] at h
    obtain ⟨rfl, rfl⟩ := Prod.mk.inj h
    rw [Call.course, claimOf_framesOf, Stage.plan, hc, if_neg Bool.false_ne_true]
    exact ⟨rfl, ⟨rfl, rfl, rfl, rfl, ha, trivial⟩, .rests rfl rfl rfl⟩
  | false =>
    rw [ha, if_neg Bool.false_ne_true] at h
    obtain ⟨rfl, rfl⟩ := Prod.mk.inj h
    rw [Call.course, claimOf_framesOf, Stage.plan]
    refine ⟨rfl, Or.inr rfl, ?_⟩
    cases hc : e.isOf s.names .cancelled with
    | true => exact .rests rfl rfl rfl
    | false =>
      rw [if_neg Bool.false_ne_true, Stage.plan, ← Plan.start_of_neither ha hc]
      exact .begins rfl rfl

theorem leaveFrame_advance (carrier : Carrier κ) (key : CorrelationKey) (e : EventMessage)
    (outcome : Except HandlerError Unit) (honce : s.idempotent = true)
    (hclaims : w.claimFaults = []) :
    (leaveFrame w outcome (.claimed e.id)).claimFaults = [] ∧
      Advance carrier s key e w (leaveFrame w outcome (.claimed e.id))
        ⟨.behind outcome, some e.id⟩ ⟨.behind outcome, none⟩ := by
  have hfaults : (w.record (.settled e.id (succeeded outcome))).claimFaults = [] := hclaims
  have hforgets {w' : World κ} (hcl : w'.claims =
        if succeeded outcome then w.claims else (w.claims.remove e.id.text).1)
      (hch : w'.channel = w.channel) :
      Advance carrier s key e w w' ⟨.behind outcome, some e.id⟩ ⟨.behind outcome, none⟩ :=
    .forgets honce hcl hch
  simp only [leaveFrame]
  cases hs : succeeded outcome with
  | true =>
    rw [hs] at hforgets
    exact ⟨hclaims, hforgets rfl rfl⟩
  | false =>
    rw [hs] at hforgets hfaults
    rw [if_neg Bool.false_ne_true, World.removeClaim_eq hfaults]
    exact ⟨hclaims, hforgets rfl rfl⟩

/-- Every step of a call is an advance, until the call hands its outcome over. -/
theorem step_advance {c : Call} (hadvices : s.advices = []) (hw : Faithful s.names w)
    (hclaims : s.idempotent = true → w.claimFaults = []) (hraised : w.desk.raised = false)
    (hfree : s.lockTimeout = none ∨
      ((c.station s.names).post = .away → ∀ lk, (w.desk.table.lock lk).holder = none))
    (hkey : e.headers.text? s.names.correlationId = some key) (hf : c.Follows s key e)
    (hg : (c.station s.names).Grounded w.history) :
    (Chain.step carrier s.flow.chain.core w c).Ensures
      (fun w' c' => (s.idempotent = true → w'.claimFaults = []) ∧ c'.Follows s key e ∧
        Advance carrier s key e w w' (c.course s.names) (c'.course s.names))
      (fun w' r => (s.idempotent = true → w'.claimFaults = []) ∧
        c.course s.names = ⟨.behind r, none⟩ ∧ w'.claims = w.claims ∧
        w'.channel = w.channel) := by
  obtain ⟨stage, frames⟩ := c
  cases stage with
  | enter m advices =>
    -- meeting the advices that follow the receiver
    have hpassed (hframes : frames = framesOf (s.claim? e))
        (hadv : advices = [.reconcile (.default s.names s.lockTimeout)] ∨ advices = []) :
        (Chain.step carrier s.flow.chain.core w ⟨.enter e advices, frames⟩).Ensures
          (fun w' c' => (s.idempotent = true → w'.claimFaults = []) ∧ c'.Follows s key e ∧
            Advance carrier s key e w w' (Call.course s.names ⟨.enter e advices, frames⟩)
              (c'.course s.names))
          (fun w' r => (s.idempotent = true → w'.claimFaults = []) ∧
            Call.course s.names ⟨.enter e advices, frames⟩ = ⟨.behind r, none⟩ ∧
            w'.claims = w.claims ∧ w'.channel = w.channel) := by
      subst hframes
      rw [Call.course, claimOf_framesOf]
      rcases hadv with rfl | rfl
      · exact ⟨hclaims, cancelStep_advance carrier w hkey⟩
      · obtain ⟨hfaults, hadvance⟩ := coreStep_advance carrier w hkey rfl
        exact ⟨fun h => hfaults.trans (hclaims h), hadvance⟩
    obtain ⟨rfl, ⟨hframes, hadv⟩ | ⟨hframes, hadv⟩⟩ := hf
    · cases honce : s.idempotent with
      | true =>
        have hchain :
            advices = [.once s.stamping, .reconcile (.default s.names s.lockTimeout)] := by
          rw [hadv, FlowSettings.chainAdvices, honce, hadvices]
          rfl
        obtain rfl : frames = [] := hframes
        obtain rfl : advices = _ := hchain
        obtain ⟨hfaults, hfollows, hadvance⟩ :=
          claimStep_advance carrier key m s.stamping honce (hclaims honce) rfl
        exact ⟨fun _ => hfaults, hfollows, hadvance⟩
      | false =>
        rw [honce] at hpassed
        refine hpassed ?_ (Or.inl ?_)
        · rw [FlowSettings.claim?, honce]
          exact hframes
        · rw [hadv, FlowSettings.chainAdvices, honce, hadvices]
          rfl
    · exact hpassed hframes hadv
  | reconciling r k m rest g =>
    obtain ⟨rfl, rfl, rfl, rfl, hframes, he, hsteady⟩ := hf
    obtain rfl : frames = _ := hframes
    have hlock : s.lockTimeout = none ∨
        (g = .asking → (w.desk.table.lock k.lockKey).holder = none) := by
      refine hfree.imp id fun h hasking => h ?_ _
      rw [hasking]
      rfl
    rw [step, Progress.ensures_andThen]
    refine ((reconcileStep_claims hw hg).and
      (reconcileStep_advance carrier hw he hg hraised hsteady hlock)).mono ?_ ?_
    · rintro w' g' ⟨⟨-, hfaults⟩, hsteady', hadv⟩
      refine ⟨fun h => hfaults.trans (hclaims h), ⟨rfl, rfl, rfl, rfl, rfl, he, hsteady'⟩, ?_⟩
      rw [Call.course, Call.course, claimOf_framesOf]
      exact hadv
    · rintro w' outcome ⟨⟨-, hfaults⟩, hadv⟩
      split
      · refine ⟨fun h => hfaults.trans (hclaims h), ⟨rfl, Or.inr ⟨rfl, Or.inr rfl⟩⟩, ?_⟩
        rw [Call.course, Call.course, claimOf_framesOf, Stage.plan, Stage.plan, if_pos he]
        exact hadv
      · refine ⟨fun h => hfaults.trans (hclaims h), Or.inr rfl, ?_⟩
        rw [Call.course, Call.course, claimOf_framesOf]
        exact hadv
  | aggregating a k m g =>
    obtain ⟨rfl, rfl, rfl, hframes, he, hsteady⟩ := hf
    obtain rfl : frames = _ := hframes
    have hlock : s.lockTimeout = none ∨
        (g = .asking → (w.desk.table.lock k.lockKey).holder = none) := by
      refine hfree.imp id fun h hasking => h ?_ _
      rw [hasking]
      rfl
    rw [step, Progress.ensures_andThen]
    refine ((aggregateStep_claims hw ⟨hkey, he⟩ hg).and
      (aggregateStep_advance hw ⟨hkey, he⟩ hg hraised hsteady hlock)).mono ?_ ?_
    · rintro w' g' ⟨⟨-, hfaults⟩, hsteady', hadv⟩
      refine ⟨fun h => hfaults.trans (hclaims h), ⟨rfl, rfl, rfl, rfl, he, hsteady'⟩, ?_⟩
      rw [Call.course, Call.course, claimOf_framesOf]
      exact hadv
    · rintro w' outcome ⟨⟨-, hfaults⟩, hadv⟩
      refine ⟨fun h => hfaults.trans (hclaims h), Or.inr rfl, ?_⟩
      rw [Call.course, Call.course, claimOf_framesOf]
      exact hadv
  | leave outcome =>
    rcases hf with hf | hf <;> obtain rfl : frames = _ := hf
    · exact ⟨hclaims, rfl, rfl, rfl⟩
    · cases honce : s.idempotent with
      | true =>
        obtain ⟨hfaults, hadvance⟩ :=
          leaveFrame_advance carrier key e outcome honce (hclaims honce)
        rw [FlowSettings.claim?, honce, if_pos rfl]
        exact ⟨fun _ => hfaults, Or.inl rfl, hadvance⟩
      | false =>
        rw [FlowSettings.claim?, honce, if_neg Bool.false_ne_true]
        exact ⟨(fun h => by cases h), rfl, rfl, rfl⟩

end Chain

/-! ## Steps of a flow -/

namespace Flow.Stage

def Follows (s : FlowSettings) (key : CorrelationKey) (e : EventMessage) : Flow.Stage → Prop
  | .arrived raw => s.flow.route raw = .accept e
  | .rejecting .. => False
  | .handling _ call => call.Follows s key e

def course (names : HeaderNames) : Flow.Stage → Course
  | .handling _ call => call.course names
  | _ => ⟨.ahead, none⟩

end Flow.Stage

/-- A call works on the group that its plan is about. -/
theorem Flow.Stage.key?_course (names : HeaderNames) (st : Flow.Stage) :
    (st.course names).plan.key? = (st.station names).work.map Prod.fst := by
  cases st with
  | arrived | rejecting => rfl
  | handling since call =>
    obtain ⟨stage, frames⟩ := call
    cases stage with
    | enter m advices =>
      show ((Chain.Stage.enter m advices).plan names).key? = none
      cases advices with
      | nil => rw [Chain.Stage.plan]; split <;> rfl
      | cons => rfl
    | reconciling r key m rest g => cases g <;> rfl
    | aggregating a key m g => cases g <;> rfl
    | leave outcome => rfl

/-- A step of a call leaves the accounts of keys alone that its plan is not about. -/
theorem Stride.account_eq {names : HeaderNames} {w w' : World κ} {st : Flow.Stage} {a' : Station}
    {of : CorrelationKey → Bool} {k : CorrelationKey}
    (h : Stride names w (st.station names) w' a')
    (hk : ∀ key, (st.course names).plan.key? = some key → key ≠ k ∧ of key = false) :
    account of k w'.history = account of k w.history := by
  refine h.grows.account_eq fun d key hd hkey => hk key ?_
  obtain ⟨ground, hwork⟩ := (Sending.station_proper names (.running st)).own hd hkey
  rw [Flow.Stage.key?_course]
  exact congrArg (Option.map Prod.fst) hwork

/-- Every step of a call is an advance, until the call returns. -/
theorem Flow.step_advance {carrier : Carrier κ} {w : World κ} {st : Flow.Stage}
    (hadvices : s.advices = []) (hw : Faithful s.names w)
    (hclaims : s.idempotent = true → w.claimFaults = []) (hraised : w.desk.raised = false)
    (hfree : s.lockTimeout = none ∨
      ((st.station s.names).post = .away → ∀ lk, (w.desk.table.lock lk).holder = none))
    (hkey : e.headers.text? s.names.correlationId = some key) (hf : st.Follows s key e)
    (hg : (st.station s.names).Grounded w.history) :
    (s.flow.step carrier w st).Ensures
      (fun w' st' => (s.idempotent = true → w'.claimFaults = []) ∧ st'.Follows s key e ∧
        Advance carrier s key e w w' (st.course s.names) (st'.course s.names))
      (fun w' result => (s.idempotent = true → w'.claimFaults = []) ∧ ∃ outcome,
        result = Flow.verdict outcome ∧ st.course s.names = ⟨.behind outcome, none⟩ ∧
        w'.claims = w.claims ∧ w'.channel = w.channel) := by
  cases st with
  | arrived raw =>
    have hroute : s.flow.route raw = .accept e := hf
    simp only [step, hroute]
    refine ⟨hclaims, ⟨rfl, Or.inl ⟨rfl, rfl⟩⟩, ?_⟩
    have hchain : s.chainAdvices ≠ [] := by
      rw [FlowSettings.chainAdvices]
      exact List.append_ne_nil_of_right_ne_nil _ (List.cons_ne_nil _ _)
    obtain ⟨a, rest, hchain⟩ := List.exists_cons_of_ne_nil hchain
    show Advance carrier s key e w (w.count .received) ⟨.ahead, none⟩
      ⟨(Chain.Stage.enter e s.chainAdvices).plan s.names, none⟩
    rw [hchain]
    exact .rests rfl rfl rfl
  | rejecting m verdict => exact absurd hf not_false
  | handling since call =>
    rw [step, Progress.ensures_andThen]
    refine (Chain.step_advance hadvices hw hclaims hraised hfree hkey hf hg).mono
      (fun w' call' h => h) ?_
    rintro w' outcome ⟨hfaults, hcourse, hcl, hch⟩
    exact ⟨hfaults, outcome, rfl, hcourse, hcl, hch⟩

end Rendezvous
