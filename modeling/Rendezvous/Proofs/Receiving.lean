/-
What the idempotent receiver lets in.

A call that was let in holds the claim of its identity until the handlers behind it are done.  As
long as the memory of claims has room, a claim that is held is remembered, so no two calls hold
claims of one identity, and a claim is withdrawn only by the call that holds it and only when its
handlers failed.  Hence between two times that a message is appended, a delivery of it must have
failed (`Holding.spaced`); a history says so by itself (`Spaced`), which is all that later
arguments about redelivery need.
-/
import Rendezvous.Proofs.Claims
import Rendezvous.Proofs.Sound

namespace Rendezvous

/-! ## Claims in a history -/

/-- Since a message of this identity was last appended, a delivery of it failed. -/
def Clear (id : Uuid) : List Deed → Prop
  | [] => True
  | .append _ m :: h => m.id ≠ id ∧ Clear id h
  | .settle i success :: h => (i = id ∧ success = false) ∨ Clear id h
  | _ :: h => Clear id h

/-- Whenever a message was appended, every earlier time it was followed by a delivery that
failed. -/
def Spaced : List Deed → Prop
  | [] => True
  | .append _ m :: h => Clear m.id h ∧ Spaced h
  | _ :: h => Spaced h

variable {id : Uuid} {h : List Deed} {d : Deed}

/-- Only an append makes a history that was clear otherwise. -/
theorem Clear.cons (hc : Clear id h) (hd : ∀ key m, d = .append key m → m.id ≠ id) :
    Clear id (d :: h) := by
  cases d with
  | append key m => exact ⟨hd key m rfl, hc⟩
  | accept | remove => exact hc
  | settle i success => exact Or.inr hc

/-- What was appended earlier was followed by a failure. -/
theorem Clear.settle_mem {newer older : List Deed} {key : CorrelationKey} {m : EventMessage}
    (hc : Clear id (newer ++ .append key m :: older)) (hm : m.id = id) :
    Deed.settle id false ∈ newer := by
  induction newer with
  | nil => exact absurd hm hc.1
  | cons d newer ih =>
    cases d with
    | append k o => exact List.mem_cons_of_mem _ (ih hc.2)
    | accept | remove => exact List.mem_cons_of_mem _ (ih hc)
    | settle i success =>
      rcases hc with ⟨rfl, rfl⟩ | hc
      · exact List.mem_cons_self
      · exact List.mem_cons_of_mem _ (ih hc)

theorem Spaced.of_append {newer older : List Deed} (ha : Spaced (newer ++ older)) :
    Spaced older := by
  induction newer with
  | nil => exact ha
  | cons d newer ih =>
    cases d with
    | append => exact ih ha.2
    | accept | remove | settle => exact ih ha

/-! ## Messages that were sent -/

/-- A message was decoded from one that was sent. -/
def Decoded (f : Flow) (sent : List RawMessage) (m : EventMessage) : Prop :=
  ∃ raw ∈ sent, f.route raw = .accept m

/-- A message that is accepted carries its correlation id and the headers it was sent with. -/
theorem Flow.of_route_accept {f : Flow} {raw : RawMessage} {m : EventMessage}
    (h : f.route raw = .accept m) : ∃ key payload, f.derive raw = .ok key ∧
      m = Message.assemble raw.id (raw.withText f.names.correlationId key).headers payload := by
  unfold route at h
  split at h
  · split at h
    · cases h
    · next key hkey =>
      dsimp only [decode] at h
      cases hp : EventPayload.decode (raw.withText f.names.correlationId key).payload with
      | error p =>
        rw [hp] at h
        cases h
      | ok payload =>
        rw [hp] at h
        exact ⟨key, payload, hkey, (Route.accept.inj h).symm⟩
  · cases h

theorem Flow.id_of_route {f : Flow} {raw : RawMessage} {m : EventMessage}
    (h : f.route raw = .accept m) : m.id = raw.id := by
  obtain ⟨key, payload, -, rfl⟩ := Flow.of_route_accept h
  rfl

theorem Decoded.id_mem {f : Flow} {sent : List RawMessage} {m : EventMessage}
    (h : Decoded f sent m) : m.id ∈ sent.map Message.id := by
  obtain ⟨raw, hraw, hroute⟩ := h
  rw [Flow.id_of_route hroute]
  exact List.mem_map_of_mem hraw

/-- Messages of one identity are one, if those that were sent are. -/
theorem Decoded.eq_of_id {f : Flow} {sent : List RawMessage}
    (hsame : ∀ r ∈ sent, ∀ r' ∈ sent, r.id = r'.id → r = r') {m o : EventMessage}
    (hm : Decoded f sent m) (ho : Decoded f sent o) (hid : m.id = o.id) : m = o := by
  obtain ⟨r, hr, hrm⟩ := hm
  obtain ⟨r', hr', hro⟩ := ho
  have hrr : r = r' := hsame r hr r' hr' (by
    rw [← Flow.id_of_route hrm, ← Flow.id_of_route hro, hid])
  rw [hrr, hro] at hrm
  exact (Route.accept.inj hrm).symm

/-! ## Calls that hold claims -/

/-- What a call has to do with claims: the identity it holds the claim of, and whether it may
still append its message. -/
structure Hold where
  claim? : Option Uuid
  early : Bool

/-- A call that has nothing to do with claims any more. -/
def Hold.none : Hold := ⟨.none, false⟩

/-- Whether work on a group may still append its message. -/
def Aggregation.Stage.early : Aggregation.Stage → Bool
  | .read => true
  | .append => true
  | _ => false

def Guarded.early {σ ρ : Type} (inner : σ → Bool) : Guarded σ ρ → Bool
  | .inside _ s => inner s
  | .leaving .. => false
  | _ => true

def Chain.Stage.early : Chain.Stage → Bool
  | .enter .. => true
  | .reconciling .. => true
  | .aggregating _ _ _ g => g.early Aggregation.Stage.early
  | .leave _ => false

/-- The identity whose claim the innermost frame holds. -/
def Chain.claimOf : List Chain.Frame → Option Uuid
  | .claimed id :: _ => some id
  | _ => none

def Chain.Call.hold (c : Chain.Call) : Hold := ⟨Chain.claimOf c.frames, c.stage.early⟩

def Sending.hold : Sending → Hold
  | .running (.handling _ call) => call.hold
  | .running _ => ⟨none, true⟩
  | _ => .none

/-- A call is where a flow with an idempotent receiver in front brings it: its message was sent,
and once it is let in, the call holds the claim of its message. -/
def Chain.Call.Receives (f : Flow) (sent : List RawMessage) (c : Chain.Call) : Prop :=
  match c.stage with
  | .enter m advices => Decoded f sent m ∧ (c.frames = [] ∧ advices = f.chain.advices ∨
      c.frames = [.claimed m.id] ∧ ∀ a ∈ advices, ∃ r, a = .reconcile r)
  | .reconciling _ _ m rest _ => Decoded f sent m ∧ c.frames = [.claimed m.id] ∧
      ∀ a ∈ rest, ∃ r, a = .reconcile r
  | .aggregating _ _ m _ => Decoded f sent m ∧ c.frames = [.claimed m.id]
  | .leave _ => c.frames = [] ∨ ∃ id, c.frames = [.claimed id]

def Sending.Receives (f : Flow) (sent : List RawMessage) : Sending → Prop
  | .running (.arrived raw) => raw ∈ sent
  | .running (.handling _ call) => call.Receives f sent
  | _ => True

/-- An idempotent receiver stands in front, and nothing but reconciliations behind it. -/
structure Flow.Receiving (f : Flow) : Prop where
  advices : ∃ stamping rest, f.chain.advices = .once stamping :: rest ∧
    ∀ a ∈ rest, ∃ r, a = .reconcile r
  core : ∃ a, f.chain.core = .aggregate a

theorem FlowSettings.flow_receiving {s : FlowSettings} (honce : s.idempotent = true)
    (hadvices : s.advices = []) : s.flow.Receiving := by
  refine ⟨⟨s.stamping, [.reconcile (.default s.names s.lockTimeout)], ?_, ?_⟩, _, rfl⟩
  · show s.chainAdvices = _
    rw [chainAdvices, honce, hadvices]
    rfl
  · intro a ha
    exact ⟨_, List.mem_singleton.mp ha⟩

variable {κ : Type}

/-- What a step of a call does to the claims: nothing, with at most one deed, which appends the
message of a call that holds its claim and has not appended it; or it takes the claim of an
identity that nobody claimed; or it gives up the claim it holds, which is withdrawn if the
handlers failed. -/
inductive Claiming (f : Flow) (sent : List RawMessage) (w : World κ) (a : Hold) (w' : World κ)
    (a' : Hold) : Prop
  | keeps (claims : w'.claims = w.claims) (held : a'.claim? = a.claim? ∨ a'.claim? = none)
      (late : a'.early = true → a.early = true)
      (grows : w'.history = w.history ∨ ∃ d, w'.history = d :: w.history ∧
        ∀ key m, d = .append key m → Decoded f sent m ∧ a.claim? = some m.id ∧
          a.early = true ∧ a'.early = false)
  | takes (id : Uuid) (value : String) (known : id ∈ sent.map Message.id)
      (free : w.claims.claimed id = false) (held : a'.claim? = some id)
      (claims : w'.claims = w.claims.put id.text value) (same : w'.history = w.history)
  | gives (id : Uuid) (success : Bool) (held : a.claim? = some id) (gone : a'.claim? = none)
      (claims : w'.claims = if success then w.claims else (w.claims.remove id.text).1)
      (settles : w'.history = .settle id success :: w.history)

/-! ## Steps -/

/-- Only the first read leads to a stage that may append. -/
theorem Aggregation.step_early {carrier : Carrier κ} {a : Aggregator} {key : CorrelationKey}
    {m : EventMessage} {w : World κ} {st : Aggregation.Stage} :
    (Aggregation.step carrier a key m w st).Ensures
      (fun _ st' => st'.early = true → st = .read) fun _ _ => True := by
  cases st with
  | read =>
    simp only [step]
    split
    · trivial
    · exact fun _ => trivial
    · split <;> exact fun _ => trivial
  | append =>
    simp only [step]
    split
    · trivial
    · exact fun h => by cases h
  | decide g =>
    simp only [step]
    split
    · split
      · trivial
      · trivial
      · split
        · trivial
        · exact fun h => by cases h
    · trivial
  | attempt r n =>
    simp only [step]
    cases (carrier.delay w.channel).2 <;> exact fun h => by cases h
  | transit r n arrival =>
    simp only [step]
    split
    · trivial
    · exact fun h => by cases h
  | arrive r n =>
    simp only [step, failed]
    split
    · exact fun h => by cases h
    · split
      · exact fun h => by cases h
      · trivial
  | pause r n wake =>
    simp only [step]
    split
    · trivial
    · exact fun h => by cases h
  | remove r =>
    simp only [step]
    split
    · trivial
    · exact fun h => by cases h
  | reread =>
    simp only [step]
    split
    · trivial
    · trivial
    · exact fun h => by cases h

/-- Work under a lock that may still append has done nothing yet. -/
theorem Guarded.step_early {σ ρ : Type} {lk : String} {p : Patience} {start : σ}
    {work : World κ → σ → Progress (World κ) σ ρ} {inner : σ → Bool} {w : World κ}
    {g : Guarded σ ρ} (hwork : ∀ s, (work w s).Ensures
      (fun _ s' => inner s' = true → s = start) fun _ _ => True) (hstart : inner start = true) :
    (g.step lk p start work w).Ensures
      (fun _ g' => g'.early inner = true → g.early inner = true ∧ ∀ t s, g = inside t s → s = start)
      fun _ _ => True := by
  cases g with
  | asking =>
    rw [step]
    split
    · exact fun _ => ⟨rfl, fun _ _ h => by cases h⟩
    · split
      · exact refuse_ensures fun _ _ => trivial
      · exact fun _ => ⟨rfl, fun _ _ h => by cases h⟩
    · exact refuse_ensures fun _ _ => trivial
  | lining => exact fun _ => ⟨rfl, fun _ _ h => by cases h⟩
  | queued t since =>
    rw [step]
    split
    · exact fun _ => ⟨rfl, fun _ _ h => by cases h⟩
    · exact fun _ => ⟨rfl, fun _ _ h => by cases h⟩
    · exact fun _ => ⟨rfl, fun _ _ h => by cases h⟩
    · trivial
  | givingUp interrupted => exact refuse_ensures fun _ _ => trivial
  | inside t s =>
    rw [step, Progress.ensures_andThen]
    refine (hwork s).mono (fun w' s' h hs' => ?_) fun _ _ _ => fun h => by cases h
    obtain rfl := h hs'
    exact ⟨hstart, fun _ _ e => (inside.inj e).2.symm⟩
  | leaving t r => trivial

namespace Chain

variable {names : HeaderNames} {f : Flow} {sent : List RawMessage} {w : World κ}

/-- A message meets the idempotent receiver in front of the flow. -/
theorem claimStep_claiming {stamping : Stamping} {rest : List Advice} {m : EventMessage}
    (hclaims : w.claimFaults = []) (hm : Decoded f sent m)
    (hrest : ∀ a ∈ rest, ∃ r, a = .reconcile r) :
    (claimStep w stamping m rest []).1.claimFaults = [] ∧
      (claimStep w stamping m rest []).2.Receives f sent ∧
      Claiming f sent w ⟨none, true⟩ (claimStep w stamping m rest []).1
        (claimStep w stamping m rest []).2.hold := by
  obtain ⟨hstamp, hhist, hfaults⟩ : (stampOf w stamping).2.claims = w.claims ∧
      (stampOf w stamping).2.history = w.history ∧ (stampOf w stamping).2.claimFaults = [] := by
    cases stamping <;> exact ⟨rfl, rfl, hclaims⟩
  simp only [claimStep, World.putClaimIfAbsent_eq hfaults, hstamp]
  cases hc : w.claims.claimed m.id with
  | true =>
    obtain ⟨found, hfound⟩ := ClaimStore.putIfAbsent_of_claimed (stampOf w stamping).1.text hc
    rw [hfound]
    exact ⟨hfaults, Or.inl rfl, .keeps rfl (Or.inl rfl) (fun h => by cases h) (Or.inl hhist)⟩
  | false =>
    rw [ClaimStore.putIfAbsent_of_not_claimed hc]
    exact ⟨hfaults, ⟨hm, Or.inr ⟨rfl, hrest⟩⟩, .takes m.id _ hm.id_mem hc rfl rfl hhist⟩

/-- An advice that learns the outcome gives up the claim it holds. -/
theorem leaveFrame_claiming (f : Flow) (sent : List RawMessage)
    (outcome : Except HandlerError Unit) (id : Uuid) (hclaims : w.claimFaults = []) :
    (leaveFrame w outcome (.claimed id)).claimFaults = [] ∧
      Claiming f sent w ⟨some id, false⟩ (leaveFrame w outcome (.claimed id)) ⟨none, false⟩ := by
  have hfaults : (w.record (.settled id (succeeded outcome))).claimFaults = [] := hclaims
  simp only [leaveFrame]
  cases hs : succeeded outcome with
  | true => exact ⟨hclaims, .gives id true rfl rfl rfl rfl⟩
  | false =>
    rw [hs] at hfaults
    rw [if_neg Bool.false_ne_true, World.removeClaim_eq hfaults]
    exact ⟨hclaims, .gives id false rfl rfl rfl rfl⟩

theorem aggregateStep_claims {carrier : Carrier κ} {retry : RetryPolicy} {timeout : Option Nat}
    {key : CorrelationKey} {m : EventMessage}
    {g : Guarded Aggregation.Stage (Except HandlerError Unit)} (hw : Faithful names w)
    (hm : Pertains names key m) (hg : (aggregatingStation names key m g).Grounded w.history) :
    (aggregateStep carrier (.default names retry timeout) key m w g).Ensures
      (fun w' _ => w'.claims = w.claims ∧ w'.claimFaults = w.claimFaults)
      (fun w' _ => w'.claims = w.claims ∧ w'.claimFaults = w.claimFaults) := by
  rw [aggregateStep, Progress.ensures_map]
  refine Guarded.step_keeps (P := fun w' => w'.claims = w.claims ∧ w'.claimFaults = w.claimFaults)
    (fun _ _ h => h) (fun _ _ h => h) (fun _ _ _ h => h) (fun _ _ _ h => h) ⟨rfl, rfl⟩ ?_
  rintro t s rfl
  have hs : s.Grounded names key m (page key w.history) := hg key _ rfl
  exact (Aggregation.step_ensures hw hm hs).mono
    (fun _ _ h => ⟨h.1.kept.claims, h.1.kept.claimFaults⟩)
    fun _ _ h => ⟨h.1.kept.claims, h.1.kept.claimFaults⟩

theorem reconcileStep_claims {timeout : Option Nat} {key : CorrelationKey}
    {g : Guarded Reconciliation.Stage (Except HandlerError Nat)} (hw : Faithful names w)
    (hg : (reconcilingStation names key g).Grounded w.history) :
    (reconcileStep (.default names timeout) key w g).Ensures
      (fun w' _ => w'.claims = w.claims ∧ w'.claimFaults = w.claimFaults)
      (fun w' _ => w'.claims = w.claims ∧ w'.claimFaults = w.claimFaults) := by
  rw [reconcileStep, Progress.ensures_map]
  refine Guarded.step_keeps (P := fun w' => w'.claims = w.claims ∧ w'.claimFaults = w.claimFaults)
    (fun _ _ h => h) (fun _ _ h => h) (fun _ _ _ h => h) (fun _ _ _ h => h) ⟨rfl, rfl⟩ ?_
  rintro t s rfl
  have hs : s.Grounded names (page key w.history) := hg key _ rfl
  exact (Reconciliation.step_ensures hw hs).mono
    (fun _ _ h => ⟨h.1.kept.claims, h.1.kept.claimFaults⟩)
    fun _ _ h => ⟨h.1.kept.claims, h.1.kept.claimFaults⟩

/-- Work on a group that may still append its message has done nothing yet. -/
theorem aggregateStep_early {carrier : Carrier κ} {a : Aggregator} {key : CorrelationKey}
    {m : EventMessage} {g : Guarded Aggregation.Stage (Except HandlerError Unit)} :
    (aggregateStep carrier a key m w g).Ensures
      (fun _ g' => g'.early Aggregation.Stage.early = true →
        g.early Aggregation.Stage.early = true ∧ ∀ t s, g = .inside t s → s = .read)
      fun _ _ => True := by
  rw [aggregateStep, Progress.ensures_map]
  exact Guarded.step_early (fun s => Aggregation.step_early) rfl

theorem not_append_of_reconciling {key k : CorrelationKey} {m : EventMessage}
    {g : Guarded Reconciliation.Stage (Except HandlerError Nat)} :
    ¬(reconcilingStation names key g).may (.append k m) := by
  intro h
  cases g with
  | inside t s => cases s <;> cases h
  | asking | lining | queued | givingUp | leaving => cases h

/-- Only the stage before an append does one. -/
theorem of_append_of_aggregating {key k : CorrelationKey} {m o : EventMessage}
    {g : Guarded Aggregation.Stage (Except HandlerError Unit)}
    (h : (aggregatingStation names key m g).may (.append k o)) :
    o = m ∧ ∃ t, g = .inside t .append := by
  cases g with
  | inside t s =>
    cases s with
    | append => exact ⟨h.2, t, rfl⟩
    | read | decide | attempt | transit | arrive | pause | remove | reread => cases h
  | asking | lining | queued | givingUp | leaving => cases h

/-- What every step of a call does to the claims. -/
theorem step_claiming {carrier : Carrier κ} {c : Call} (hf : f.Receiving) (hw : Faithful names w)
    (hclaims : w.claimFaults = []) (hfits : c.stage.Fits names)
    (hg : (c.station names).Grounded w.history) (hr : c.Receives f sent) :
    (Chain.step carrier f.chain.core w c).Ensures
      (fun w' c' => w'.claimFaults = [] ∧ c'.Receives f sent ∧
        Claiming f sent w c.hold w' c'.hold)
      (fun w' _ => w'.claimFaults = [] ∧ Claiming f sent w c.hold w' .none) := by
  obtain ⟨stage, frames⟩ := c
  have hsame {c' : Call} (hframes : c'.frames = frames)
      (hlate : c'.stage.early = true → stage.early = true) :
      Claiming f sent w ⟨claimOf frames, stage.early⟩ w c'.hold :=
    .keeps rfl (Or.inl (congrArg claimOf hframes)) hlate (Or.inl rfl)
  cases stage with
  | enter m advices =>
    obtain ⟨hm, ⟨hnil, hadv⟩ | ⟨hheld, hadv⟩⟩ := hr
    · -- the message meets the idempotent receiver
      obtain ⟨stamping, rest, hfront, hrest⟩ := hf.advices
      obtain rfl : frames = [] := hnil
      obtain rfl : advices = .once stamping :: rest := hadv.trans hfront
      exact claimStep_claiming hclaims hm hrest
    · obtain rfl : frames = [.claimed m.id] := hheld
      cases advices with
      | nil =>
        obtain ⟨a, ha⟩ := hf.core
        simp only [step, coreStep, ha]
        split
        · exact ⟨hclaims, Or.inr ⟨m.id, rfl⟩, hsame rfl (fun h => by cases h)⟩
        · split
          · exact ⟨hclaims, ⟨hm, rfl⟩, hsame rfl fun _ => rfl⟩
          · exact ⟨hclaims, Or.inr ⟨m.id, rfl⟩, hsame rfl (fun h => by cases h)⟩
      | cons a rest =>
        obtain ⟨r, rfl⟩ := hadv _ List.mem_cons_self
        have hrest : ∀ b ∈ rest, ∃ r, b = .reconcile r :=
          fun b hb => hadv b (List.mem_cons_of_mem _ hb)
        simp only [step, cancelStep]
        split
        · split
          · exact ⟨hclaims, Or.inr ⟨m.id, rfl⟩, hsame rfl (fun h => by cases h)⟩
          · exact ⟨hclaims, ⟨hm, rfl, hrest⟩, hsame rfl fun _ => rfl⟩
        · exact ⟨hclaims, ⟨hm, Or.inr ⟨rfl, hrest⟩⟩, hsame rfl fun _ => rfl⟩
  | reconciling r key m rest g =>
    obtain ⟨⟨timeout, rfl⟩, -, -⟩ := hfits
    obtain ⟨hm, hheld, hrest⟩ := hr
    obtain rfl : frames = [.claimed m.id] := hheld
    have hkeeps {w' : World κ} {a' : Station} {c' : Call}
        (h : Stride names w (reconcilingStation names key g) w' a')
        (hcl : w'.claims = w.claims) (hframes : c'.frames = [.claimed m.id]) :
        Claiming f sent w ⟨some m.id, true⟩ w' c'.hold := by
      refine .keeps hcl (Or.inl (congrArg claimOf hframes)) (fun _ => rfl) ?_
      obtain hsame | ⟨d, hd, hmay, -⟩ := h.grows
      · exact Or.inl hsame
      · refine Or.inr ⟨d, hd, ?_⟩
        rintro k o rfl
        exact absurd hmay not_append_of_reconciling
    rw [step, Progress.ensures_andThen]
    refine ((reconcileStep_stride hw hg).and (reconcileStep_claims hw hg)).mono ?_ ?_
    · rintro w' g' ⟨h, hcl, hfaults⟩
      exact ⟨hfaults.trans hclaims, ⟨hm, rfl, hrest⟩, hkeeps h hcl rfl⟩
    · rintro w' entry ⟨h, hcl, hfaults⟩
      split
      · exact ⟨hfaults.trans hclaims, ⟨hm, Or.inr ⟨rfl, hrest⟩⟩, hkeeps h hcl rfl⟩
      · exact ⟨hfaults.trans hclaims, Or.inr ⟨m.id, rfl⟩, hkeeps h hcl rfl⟩
  | aggregating a key m g =>
    obtain ⟨⟨retry, timeout, rfl⟩, hpertains⟩ := hfits
    obtain ⟨hm, hheld⟩ := hr
    obtain rfl : frames = [.claimed m.id] := hheld
    have hgrows {w' : World κ} {a' : Station} {early' : Bool}
        (h : Stride names w (aggregatingStation names key m g) w' a')
        (hlate : early' = true → ∀ t s, g = .inside t s → s = .read) :
        w'.history = w.history ∨ ∃ d, w'.history = d :: w.history ∧
          ∀ k o, d = .append k o → Decoded f sent o ∧ some m.id = some o.id ∧
            g.early Aggregation.Stage.early = true ∧ early' = false := by
      obtain hsame | ⟨d, hd, hmay, -⟩ := h.grows
      · exact Or.inl hsame
      · refine Or.inr ⟨d, hd, ?_⟩
        rintro k o rfl
        obtain ⟨rfl, t, rfl⟩ := of_append_of_aggregating hmay
        refine ⟨hm, rfl, rfl, Bool.eq_false_iff.mpr fun he => ?_⟩
        cases hlate he t _ rfl
    rw [step, Progress.ensures_andThen]
    refine ((aggregateStep_stride hw hpertains hg).and
      ((aggregateStep_claims hw hpertains hg).and aggregateStep_early)).mono ?_ ?_
    · rintro w' g' ⟨h, ⟨hcl, hfaults⟩, he⟩
      exact ⟨hfaults.trans hclaims, ⟨hm, rfl⟩,
        .keeps hcl (Or.inl rfl) (fun e => (he e).1) (hgrows h fun e => (he e).2)⟩
    · rintro w' entry ⟨h, ⟨hcl, hfaults⟩, -⟩
      exact ⟨hfaults.trans hclaims, Or.inr ⟨m.id, rfl⟩,
        .keeps hcl (Or.inl rfl) (fun h => by cases h) (hgrows h (fun h => by cases h))⟩
  | leave outcome =>
    rcases hr with hr | ⟨id, hr⟩ <;> obtain rfl : frames = _ := hr
    · exact ⟨hclaims, .keeps rfl (Or.inl rfl) (fun h => by cases h) (Or.inl rfl)⟩
    · obtain ⟨hfaults, hclaiming⟩ := leaveFrame_claiming f sent outcome id hclaims
      exact ⟨hfaults, Or.inl rfl, hclaiming⟩

end Chain

theorem World.offer_claims (w : World κ) (m : RawMessage) :
    (w.offer m).1.claims = w.claims ∧ (w.offer m).1.claimFaults = w.claimFaults := by
  have hbury (w : World κ) : (w.bury m).claims = w.claims ∧
      (w.bury m).claimFaults = w.claimFaults := by
    unfold bury
    dsimp only
    split <;> exact ⟨rfl, rfl⟩
  unfold offer
  dsimp only
  split
  · exact ⟨rfl, rfl⟩
  · exact hbury _

variable {names : HeaderNames} {f : Flow} {sent : List RawMessage}

/-- What every step of a call of a flow does to the claims. -/
theorem Flow.step_claiming {carrier : Carrier κ} {w : World κ} {st : Flow.Stage}
    (hf : f.Receiving) (hw : Faithful names w) (hclaims : w.claimFaults = [])
    (hfits : st.Fits names) (hg : (st.station names).Grounded w.history)
    (hr : (Sending.running st).Receives f sent) :
    (f.step carrier w st).Ensures
      (fun w' st' => w'.claimFaults = [] ∧ (Sending.running st').Receives f sent ∧
        Claiming f sent w (Sending.running st).hold w' (Sending.running st').hold)
      (fun w' _ => w'.claimFaults = [] ∧ Claiming f sent w (Sending.running st).hold w' .none) := by
  cases st with
  | arrived raw =>
    simp only [step]
    split
    · exact ⟨hclaims, trivial, .keeps rfl (Or.inl rfl) (fun _ => rfl) (Or.inl rfl)⟩
    · exact ⟨hclaims, trivial, .keeps rfl (Or.inl rfl) (fun _ => rfl) (Or.inl rfl)⟩
    · exact ⟨hclaims, trivial, .keeps rfl (Or.inl rfl) (fun _ => rfl) (Or.inl rfl)⟩
    · next m hroute =>
      exact ⟨hclaims, ⟨⟨raw, hr, hroute⟩, Or.inl ⟨rfl, rfl⟩⟩,
        .keeps rfl (Or.inl rfl) (fun _ => rfl) (Or.inl rfl)⟩
  | rejecting m verdict =>
    obtain ⟨hcl, hfaults⟩ := w.offer_claims m
    have hhist := (w.offer_aside m).history
    simp only [step]
    split
    all_goals
      next heq =>
      rw [heq] at hcl hfaults hhist
      exact ⟨hfaults.trans hclaims, .keeps hcl (Or.inl rfl) (fun h => by cases h) (Or.inl hhist)⟩
  | handling since call =>
    rw [step, Progress.ensures_andThen]
    refine (Chain.step_claiming hf hw hclaims hfits hg hr).mono (fun w' call' h => h) ?_
    rintro w' outcome ⟨hfaults, hc⟩
    refine ⟨hfaults, ?_⟩
    cases hc with
    | keeps claims held late grows => exact .keeps claims held late grows
    | takes id value known free held => cases held
    | gives id success held gone claims settles => exact .gives id success held gone claims settles

/-! ## Traffic -/

/-- The invariant of the traffic of a flow with an idempotent receiver in front, for messages
among those that were sent. -/
structure Holding (f : Flow) (sent : List RawMessage) (known : List Uuid) (s : Traffic κ) :
    Prop where
  faultless : s.world.claimFaults = []
  roomy : s.world.claims.Roomy known
  receives : ∀ (i : Nat) c, s.calls[i]? = some c → c.Receives f sent
  alone : ∀ {i j : Nat} {c d id}, s.calls[i]? = some c → s.calls[j]? = some d →
    c.hold.claim? = some id → d.hold.claim? = some id → i = j
  held : ∀ {i : Nat} {c id}, s.calls[i]? = some c → c.hold.claim? = some id →
    s.world.claims.claimed id = true
  fresh : ∀ {i : Nat} {c id}, s.calls[i]? = some c → c.hold.claim? = some id →
    c.hold.early = true → Clear id s.world.history
  free : ∀ {id}, s.world.claims.claimed id = false → Clear id s.world.history
  decoded : ∀ {key m}, Deed.append key m ∈ s.world.history → Decoded f sent m
  spaced : Spaced s.world.history

namespace Holding

variable {known : List Uuid} {s s' : Traffic κ}

theorem start {n : Nat} (hroom : known.length ≤ n) (channel : κ) (clock : Clock)
    (letters : DeadLetterQueue) :
    Holding f sent known (Traffic.start (.start channel clock (.ofCapacity n) letters)) := by
  refine ⟨rfl, .ofCapacity hroom, ?_, ?_, ?_, ?_, fun _ => trivial, ?_, trivial⟩
  · intro i c h
    cases h
  · intro i j c d id h
    cases h
  · intro i c id h
    cases h
  · intro i c id h
    cases h
  · intro key m h
    cases h

/-- What a step of one call does to the claims keeps the invariant. -/
theorem put (hs : Holding f sent known s) {i : Nat} {c c' : Sending} {w' : World κ}
    (hi : s.calls[i]? = some c) (hknown : ∀ id ∈ sent.map Message.id, id ∈ known)
    (hfaults : w'.claimFaults = []) (hr : c'.Receives f sent)
    (hc : Claiming f sent s.world c.hold w' c'.hold) : Holding f sent known (s.put i w' c') := by
  have hreceives : ∀ (j : Nat) d, (s.put i w' c').calls[j]? = some d → d.Receives f sent := by
    intro j d hd
    rw [Traffic.getElem?_put hi] at hd
    split at hd
    · exact Option.some.inj hd ▸ hr
    · exact hs.receives j d hd
  have hother {j : Nat} {d : Sending} (hj : j ≠ i) (hd : (s.put i w' c').calls[j]? = some d) :
      s.calls[j]? = some d := by
    rw [Traffic.getElem?_put hi, if_neg hj] at hd
    exact hd
  have hself {d : Sending} (hd : (s.put i w' c').calls[i]? = some d) : d = c' := by
    rw [Traffic.getElem?_put hi, if_pos rfl] at hd
    exact (Option.some.inj hd).symm
  cases hc with
  | keeps claims held late grows =>
    have hold {j : Nat} {d : Sending} {id : Uuid} (hd : (s.put i w' c').calls[j]? = some d)
        (hid : d.hold.claim? = some id) : ∃ e, s.calls[j]? = some e ∧ e.hold.claim? = some id ∧
          (d.hold.early = true → e.hold.early = true) := by
      by_cases hj : j = i
      · subst hj
        obtain rfl := hself hd
        refine ⟨c, hi, ?_, late⟩
        rcases held with held | held
        · rw [← held, hid]
        · rw [held] at hid
          cases hid
      · exact ⟨d, hother hj hd, hid, fun h => h⟩
    refine ⟨hfaults, claims ▸ hs.roomy, hreceives, ?_, ?_, ?_, ?_, ?_, ?_⟩
    · intro j l d e id hd he hdid heid
      obtain ⟨d', hd', hdid', -⟩ := hold hd hdid
      obtain ⟨e', he', heid', -⟩ := hold he heid
      exact hs.alone hd' he' hdid' heid'
    · intro j d id hd hid
      obtain ⟨d', hd', hid', -⟩ := hold hd hid
      show w'.claims.claimed id = true
      rw [claims]
      exact hs.held hd' hid'
    · intro j d id hd hid hearly
      obtain ⟨d', hd', hid', hlate⟩ := hold hd hid
      have hclear := hs.fresh hd' hid' (hlate hearly)
      show Clear id w'.history
      rcases grows with hh | ⟨e, hh, happend⟩
      · rw [hh]
        exact hclear
      · rw [hh]
        refine hclear.cons fun key m he hm => ?_
        -- the append would be one of the call that holds the claim, which is late by now
        obtain ⟨-, hclaim, -, hlate'⟩ := happend key m he
        obtain rfl : j = i := hs.alone hd' hi hid' (hm ▸ hclaim)
        rw [hself hd, hlate'] at hearly
        cases hearly
    · intro id hfree
      show Clear id w'.history
      have hfree' : s.world.claims.claimed id = false := claims ▸ hfree
      rcases grows with hh | ⟨e, hh, happend⟩
      · rw [hh]
        exact hs.free hfree'
      · rw [hh]
        refine (hs.free hfree').cons fun key m he hm => ?_
        obtain ⟨-, hclaim, -, -⟩ := happend key m he
        rw [hs.held hi (hm ▸ hclaim)] at hfree'
        cases hfree'
    · intro key m hm
      replace hm : Deed.append key m ∈ w'.history := hm
      rcases grows with hh | ⟨e, hh, happend⟩
      · exact hs.decoded (hh ▸ hm)
      · rw [hh] at hm
        rcases List.mem_cons.mp hm with he | hm
        · exact (happend key m he.symm).1
        · exact hs.decoded hm
    · show Spaced w'.history
      rcases grows with hh | ⟨e, hh, happend⟩
      · rw [hh]
        exact hs.spaced
      · rw [hh]
        cases e with
        | append key m =>
          obtain ⟨-, hclaim, hearly, -⟩ := happend key m rfl
          exact ⟨hs.fresh hi hclaim hearly, hs.spaced⟩
        | accept | remove | settle => exact hs.spaced
  | takes id value known' free held claims same =>
    have hclaimed (j : Uuid) : w'.claims.claimed j =
        (decide (j = id) || s.world.claims.claimed j) := by
      rw [claims]
      exact hs.roomy.claimed_put (hknown id known') free j
    have hnobody {j : Nat} {d : Sending} (hd : s.calls[j]? = some d) :
        d.hold.claim? ≠ some id := by
      intro hid
      rw [hs.held hd hid] at free
      cases free
    refine ⟨hfaults, ?_, hreceives, ?_, ?_, ?_, ?_, ?_, ?_⟩
    · show w'.claims.Roomy known
      rw [claims]
      exact hs.roomy.put (hknown id known') free
    · intro j l d e id' hd he hdid heid
      by_cases hj : j = i <;> by_cases hl : l = i
      · rw [hj, hl]
      · subst hj
        rw [hself hd, held] at hdid
        obtain rfl := Option.some.inj hdid
        exact absurd heid (hnobody (hother hl he))
      · subst hl
        rw [hself he, held] at heid
        obtain rfl := Option.some.inj heid
        exact absurd hdid (hnobody (hother hj hd))
      · exact hs.alone (hother hj hd) (hother hl he) hdid heid
    · intro j d id' hd hid
      show w'.claims.claimed id' = true
      rw [hclaimed]
      by_cases hj : j = i
      · subst hj
        rw [hself hd, held] at hid
        simp [Option.some.inj hid]
      · simp [hs.held (hother hj hd) hid]
    · intro j d id' hd hid hearly
      show Clear id' w'.history
      rw [same]
      by_cases hj : j = i
      · subst hj
        rw [hself hd, held] at hid
        exact Option.some.inj hid ▸ hs.free free
      · exact hs.fresh (hother hj hd) hid hearly
    · intro id' hfree
      show Clear id' w'.history
      rw [same]
      replace hfree : w'.claims.claimed id' = false := hfree
      rw [hclaimed, Bool.or_eq_false_iff] at hfree
      exact hs.free hfree.2
    · intro key m hm
      exact hs.decoded (same ▸ hm)
    · exact same ▸ hs.spaced
  | gives id success held gone claims settles =>
    have hold {j : Nat} {d : Sending} {id' : Uuid} (hd : (s.put i w' c').calls[j]? = some d)
        (hid : d.hold.claim? = some id') : s.calls[j]? = some d ∧ id' ≠ id := by
      by_cases hj : j = i
      · subst hj
        rw [hself hd, gone] at hid
        cases hid
      · refine ⟨hother hj hd, ?_⟩
        rintro rfl
        exact hj (hs.alone (hother hj hd) hi hid held)
    have hclaimed {id' : Uuid} (hne : id' ≠ id) :
        w'.claims.claimed id' = s.world.claims.claimed id' := by
      rw [claims]
      cases success with
      | true => rfl
      | false =>
        rw [if_neg Bool.false_ne_true, ClaimStore.claimed_remove]
        simp [hne]
    refine ⟨hfaults, ?_, hreceives, ?_, ?_, ?_, ?_, ?_, ?_⟩
    · show w'.claims.Roomy known
      rw [claims]
      cases success with
      | true => exact hs.roomy
      | false => exact hs.roomy.remove id
    · intro j l d e id' hd he hdid heid
      exact hs.alone (hold hd hdid).1 (hold he heid).1 hdid heid
    · intro j d id' hd hid
      show w'.claims.claimed id' = true
      rw [hclaimed (hold hd hid).2]
      exact hs.held (hold hd hid).1 hid
    · intro j d id' hd hid hearly
      show Clear id' w'.history
      rw [settles]
      exact (hs.fresh (hold hd hid).1 hid hearly).cons (fun _ _ h => by cases h)
    · intro id' hfree
      show Clear id' w'.history
      replace hfree : w'.claims.claimed id' = false := hfree
      rw [settles]
      by_cases hid : id' = id
      · subst hid
        cases success with
        | true =>
          rw [claims, if_pos rfl, hs.held hi held] at hfree
          cases hfree
        | false => exact Or.inl ⟨rfl, rfl⟩
      · rw [hclaimed hid] at hfree
        exact (hs.free hfree).cons (fun _ _ h => by cases h)
    · intro key m hm
      replace hm : Deed.append key m ∈ w'.history := hm
      rw [settles] at hm
      rcases List.mem_cons.mp hm with he | hm
      · cases he
      · exact hs.decoded hm
    · show Spaced w'.history
      rw [settles]
      exact hs.spaced

/-- Every move keeps the invariant, if what is sent is known. -/
theorem move {carrier : Carrier κ} (hf : f.Receiving) (hsound : Sound names s)
    (hs : Holding f sent known s) (hknown : ∀ id ∈ sent.map Message.id, id ∈ known) {mv : Move}
    (hsent : ∀ m, mv = .send m → m ∈ sent) (h : s.move carrier f mv = some s') :
    Holding f sent known s' := by
  have hworld {w' : World κ} (hclaims : w'.claims = s.world.claims)
      (hfaults : w'.claimFaults = s.world.claimFaults) (hh : w'.history = s.world.history) :
      Holding f sent known ⟨w', s.calls⟩ := by
    refine ⟨hfaults.trans hs.faultless, hclaims ▸ hs.roomy, hs.receives, hs.alone, ?_, ?_, ?_, ?_,
      ?_⟩
    · intro i c id hc hid
      exact hclaims ▸ hs.held hc hid
    · intro i c id hc hid hearly
      exact hh ▸ hs.fresh hc hid hearly
    · intro id hfree
      exact hh ▸ hs.free (hclaims ▸ hfree)
    · intro key m hm
      exact hs.decoded (hh ▸ hm)
    · exact hh ▸ hs.spaced
  cases mv with
  | send m =>
    obtain rfl : _ = s' := Option.some.inj h
    -- the new call holds no claim
    have hold {j : Nat} {d : Sending} (hd : (s.calls ++ [.running (.arrived m)])[j]? = some d) :
        s.calls[j]? = some d ∨ d = .running (.arrived m) := by
      rw [Traffic.getElem?_send] at hd
      split at hd
      · exact Or.inr (Option.some.inj hd).symm
      · exact Or.inl hd
    have hclaim {j : Nat} {d : Sending} {id : Uuid}
        (hd : (s.calls ++ [.running (.arrived m)])[j]? = some d)
        (hid : d.hold.claim? = some id) : s.calls[j]? = some d := by
      rcases hold hd with hd | rfl
      · exact hd
      · cases hid
    refine ⟨hs.faultless, hs.roomy, ?_, ?_, ?_, ?_, hs.free, hs.decoded, hs.spaced⟩
    · intro i c hc
      rcases hold hc with hc | rfl
      · exact hs.receives i c hc
      · exact hsent m rfl
    · intro i j c d id hc hd hcid hdid
      exact hs.alone (hclaim hc hcid) (hclaim hd hdid) hcid hdid
    · intro i c id hc hid
      exact hs.held (hclaim hc hid) hid
    · intro i c id hc hid hearly
      exact hs.fresh (hclaim hc hid) hid hearly
  | step i =>
    obtain ⟨st, w, c, hi, hc, rfl⟩ := Traffic.step_of_move h
    have hstep : (f.step carrier s.world st).Ensures
        (fun w' st' => w'.claimFaults = [] ∧ (Sending.running st').Receives f sent ∧
          Claiming f sent s.world (Sending.running st).hold w' (Sending.running st').hold)
        (fun w' _ => w'.claimFaults = [] ∧
          Claiming f sent s.world (Sending.running st).hold w' .none) :=
      Flow.step_claiming hf hsound.faithful hs.faultless (hsound.fits i _ hi)
        (hsound.grounded_of_call hi) (hs.receives i _ hi)
    have hafter : w.claimFaults = [] ∧ c.Receives f sent ∧
        Claiming f sent s.world (Sending.running st).hold w c.hold :=
      Sending.of_after?
        (R := fun w' c' => w'.claimFaults = [] ∧ c'.Receives f sent ∧
          Claiming f sent s.world (Sending.running st).hold w' c'.hold)
        (hstep.mono (fun _ _ h => h) fun _ _ h => ⟨h.1, trivial, h.2⟩) hc
    exact hs.put hi hknown hafter.1 hafter.2.1 hafter.2.2
  | drop i =>
    obtain ⟨st, hi, -, rfl⟩ := Traffic.drop_of_move h
    obtain ⟨d, hd⟩ := Flow.abandon_eq s.world st
    rw [hd]
    exact hs.put hi hknown hs.faultless trivial
      (.keeps rfl (Or.inr rfl) (fun h => by cases h) (Or.inl rfl))
  | pass now =>
    obtain ⟨-, rfl⟩ := Traffic.pass_of_move h
    exact hworld rfl rfl rfl
  | interrupt =>
    obtain rfl : _ = s' := Option.some.inj h
    exact hworld rfl rfl rfl
  | clear =>
    obtain rfl : _ = s' := Option.some.inj h
    exact hworld rfl rfl rfl

end Holding

/-! ## Runs -/

/-- The messages that the moves of a run send. -/
def Move.message? : Move → Option RawMessage
  | .send m => some m
  | _ => none

def sentBy (moves : List Move) : List RawMessage := moves.filterMap Move.message?

/-- What the history of every run says about its claims, if there was room for all of them. -/
theorem Holding.run {carrier : Carrier κ} (hf : f.Receiving) (hstandard : f.Standard names)
    {known : List Uuid} {s s' : Traffic κ} {moves : List Move} (hsound : Sound names s)
    (hs : Holding f (sentBy moves) known s)
    (hknown : ∀ id ∈ (sentBy moves).map Message.id, id ∈ known)
    (h : Traffic.run carrier f moves s = some s') :
    Sound names s' ∧ Holding f (sentBy moves) known s' := by
  refine Traffic.inv_of_run (I := fun s => Sound names s ∧ Holding f (sentBy moves) known s)
    ?_ h ⟨hsound, hs⟩
  rintro s mv s' hmv ⟨hsound, hs⟩ hmove
  refine ⟨hsound.move hstandard hmove, hs.move hf hsound hknown ?_ hmove⟩
  rintro m rfl
  exact List.mem_filterMap.mpr ⟨_, hmv, rfl⟩

end Rendezvous
