/-
How a delivery meets the idempotent receiver.

A delivery is ahead of the receiver, then behind it or turned away, and at last past it, unless it
is dropped (`Place`).  Only where it changes its place may the claims change: letting a message in
claims its identity, and the receiver withdraws the claim when the handlers failed (`Receipt`).
-/
import Rendezvous.Proofs.Trail

namespace Rendezvous

/-! ## Claims that are forgotten -/

namespace ClaimStore

theorem find?_of_evict {capacity : Nat} {values : Dict String} {order : List String}
    {key : String} (h : ((evict capacity values order).1.find? key).isSome = true) :
    (values.find? key).isSome = true := by
  induction order generalizing values with
  | nil => exact h
  | cons oldest rest ih =>
    rw [evict] at h
    split at h
    · exact h
    · have hrest := ih h
      rw [Dict.find?_erase] at hrest
      split at hrest
      · cases hrest
      · exact hrest

/-- Whatever is forgotten for it, a new claim makes no other identity claimed. -/
theorem claimed_of_put {s : ClaimStore} {i j : Uuid} {value : String}
    (h : (s.put i.text value).claimed j = true) : j = i ∨ s.claimed j = true := by
  have hfound := find?_of_evict h
  rw [Dict.find?_insert] at hfound
  by_cases hj : j.text = i.text
  · exact Or.inl (Uuid.text_injective hj)
  · rw [if_neg hj] at hfound
    exact Or.inr hfound

end ClaimStore

/-! ## Before, behind and past the receiver -/

/-- Where a call stands to the idempotent receiver in front of its flow. -/
inductive Place where
  /-- the message of this identity has not met the receiver -/
  | ahead (id : Uuid)
  /-- the receiver let the message in, and claimed this identity for it -/
  | behind (id : Uuid)
  /-- the message was turned away, or the receiver is done with it -/
  | past (result : Except FlowError FlowOutcome)
  | dropped

def Place.id? : Place → Option Uuid
  | ahead id => some id
  | behind id => some id
  | _ => none

namespace Chain

/-- The message of a call that has not met the receiver, or what came of it. -/
def Stage.place : Stage → Place
  | .enter m _ => .ahead m.id
  | .reconciling _ _ m _ _ => .ahead m.id
  | .aggregating _ _ m _ => .ahead m.id
  | .leave outcome => .past (Flow.verdict outcome)

/-- The receiver is the outermost advice, so its claim is the last one to hear of the outcome. -/
def Call.place (c : Call) : Place :=
  match c.frames.getLast? with
  | some (.claimed id) => .behind id
  | _ => c.stage.place

theorem Call.place_of_frames (stage : Stage) (above : List Frame) (id : Uuid) :
    Call.place ⟨stage, above ++ [.claimed id]⟩ = .behind id := by
  rw [place, List.getLast?_concat]

/-- The advices that a message has still to meet. -/
def Stage.left : Stage → List Advice
  | .enter _ advices => advices
  | .reconciling _ _ _ rest _ => rest
  | _ => []

end Chain

def Sending.place : Sending → Place
  | running (.arrived m) => .ahead m.id
  | running (.rejecting _ verdict) => .past verdict
  | running (.handling _ call) => call.place
  | returned result => .past result
  | dropped => .dropped

def Traffic.place? {κ : Type} (s : Traffic κ) (i : Nat) : Option Place :=
  s.calls[i]?.map Sending.place

/-- An idempotent receiver stands in front, and there is no other one. -/
def Flow.Fronted (f : Flow) : Prop :=
  ∃ stamping rest, f.chain.advices = .once stamping :: rest ∧
    ∀ a ∈ rest, ∀ stamping', a ≠ .once stamping'

theorem FlowSettings.flow_fronted {s : FlowSettings} (honce : s.idempotent = true)
    (h : ∀ a ∈ s.advices, ∀ stamping, a ≠ .once stamping) : s.flow.Fronted := by
  refine ⟨s.stamping, .reconcile (.default s.names s.lockTimeout) :: s.advices, ?_, ?_⟩
  · show s.chainAdvices = _
    rw [chainAdvices, honce]
    rfl
  · intro a ha stamping'
    rcases List.mem_cons.mp ha with rfl | ha
    · exact fun h => by cases h
    · exact h a ha stamping'

/-- A call is where such a flow brings it: it is to meet all advices, or it is past the receiver,
or it was let in, and no other receiver is to come. -/
def Chain.Call.Attended (f : Flow) (c : Chain.Call) : Prop :=
  c.frames = [] ∧ ((∃ m, c.stage = .enter m f.chain.advices) ∨ ∃ o, c.stage = .leave o) ∨
    (∃ above id, c.frames = above ++ [.claimed id] ∧ ∀ x ∈ above, ∃ name, x = .intercepted name) ∧
      ∀ a ∈ c.stage.left, ∀ stamping, a ≠ .once stamping

def Sending.Attended (f : Flow) : Sending → Prop
  | running (.rejecting _ verdict) => verdict ≠ .ok .handled
  | running (.handling _ call) => call.Attended f
  | _ => True

variable {κ : Type}

/-- What a step of a call does to the claims, by where it brings the call: it lets the message in
and claims its identity, which may make the memory forget others; it acknowledges a message whose
identity is claimed; or it tells the receiver what came of a message, which withdraws the claim if
the handlers failed. -/
inductive Receipt (w w' : World κ) : Place → Place → Prop
  | stays {p} (claims : w'.claims = w.claims) : Receipt w w' p p
  | turnedAway {id r} (result : r ≠ .ok .handled) (claims : w'.claims = w.claims) :
      Receipt w w' (.ahead id) (.past r)
  | unreported {r e} (claims : w'.claims = w.claims) : Receipt w w' (.past r) (.past (.error e))
  | letIn {id value} (claims : w'.claims = w.claims.put id.text value) :
      Receipt w w' (.ahead id) (.behind id)
  | acknowledged {id} (claimed : w.claims.claimed id = true) (claims : w'.claims = w.claims) :
      Receipt w w' (.ahead id) (.past (.ok .handled))
  | handled {id} (settled : Deed.settle id true ∈ w'.history) (claims : w'.claims = w.claims) :
      Receipt w w' (.behind id) (.past (.ok .handled))
  | failed {id e} (claims : w'.claims = (w.claims.remove id.text).1) :
      Receipt w w' (.behind id) (.past (.error e))

/-- The time that a call took is noted. -/
theorem Receipt.time {w w' : World κ} {p p' : Place} (h : Receipt w w' p p') {t : Timing}
    {n : Nat} : Receipt w (w'.time t n) p p' := by
  cases h with
  | stays claims => exact .stays claims
  | turnedAway result claims => exact .turnedAway result claims
  | unreported claims => exact .unreported claims
  | letIn claims => exact .letIn claims
  | acknowledged claimed claims => exact .acknowledged claimed claims
  | handled settled claims => exact .handled settled claims
  | failed claims => exact .failed claims

/-! ## Steps -/

variable {names : HeaderNames} {f : Flow} {carrier : Carrier κ} {w : World κ}

namespace Chain

theorem claimStep_receipt {stamping : Stamping} {rest : List Advice} {m : EventMessage}
    (hclaims : w.claimFaults = []) (hrest : ∀ a ∈ rest, ∀ stamping', a ≠ .once stamping') :
    (claimStep w stamping m rest []).1.claimFaults = [] ∧
      (claimStep w stamping m rest []).2.Attended f ∧
      Receipt w (claimStep w stamping m rest []).1 (.ahead m.id)
        (claimStep w stamping m rest []).2.place := by
  obtain ⟨hstamp, hfaults⟩ : (stampOf w stamping).2.claims = w.claims ∧
      (stampOf w stamping).2.claimFaults = [] := by
    cases stamping <;> exact ⟨rfl, hclaims⟩
  simp only [claimStep, World.putClaimIfAbsent_eq hfaults, hstamp]
  cases hc : w.claims.claimed m.id with
  | true =>
    obtain ⟨found, hfound⟩ := ClaimStore.putIfAbsent_of_claimed (stampOf w stamping).1.text hc
    rw [hfound]
    exact ⟨hfaults, Or.inl ⟨rfl, Or.inr ⟨_, rfl⟩⟩, .acknowledged hc rfl⟩
  | false =>
    rw [ClaimStore.putIfAbsent_of_not_claimed hc]
    exact ⟨hfaults, Or.inr ⟨⟨[], m.id, rfl, fun _ h => by cases h⟩, hrest⟩, .letIn rfl⟩

/-- The receiver hears what came of a message that it let in. -/
theorem leaveFrame_receipt (outcome : Except HandlerError Unit) (id : Uuid)
    (hclaims : w.claimFaults = []) :
    (leaveFrame w outcome (.claimed id)).claimFaults = [] ∧
      Receipt w (leaveFrame w outcome (.claimed id)) (.behind id)
        (.past (Flow.verdict outcome)) := by
  cases outcome with
  | ok => exact ⟨hclaims, .handled List.mem_cons_self rfl⟩
  | error e =>
    have hfaults : (w.record (.settled id false)).claimFaults = [] := hclaims
    have hleave : leaveFrame w (.error e) (.claimed id) =
        ((w.record (.settled id false)).removeClaim id.text).1 := rfl
    rw [hleave, World.removeClaim_eq hfaults]
    exact ⟨hclaims, .failed rfl⟩

/-- As long as the claim is the last to hear of the outcome, nothing happens to the claims. -/
theorem stays_behind {w' : World κ} {stage : Stage} (above : List Frame) {id : Uuid}
    (hclaims : w.claimFaults = []) (hw' : w'.claims = w.claims ∧ w'.claimFaults = w.claimFaults)
    (habove : ∀ x ∈ above, ∃ name, x = .intercepted name)
    (hleft : ∀ a ∈ stage.left, ∀ stamping, a ≠ .once stamping) :
    w'.claimFaults = [] ∧ Call.Attended f ⟨stage, above ++ [.claimed id]⟩ ∧
      Receipt w w' (.behind id) (Call.place ⟨stage, above ++ [.claimed id]⟩) := by
  rw [Call.place_of_frames]
  exact ⟨hw'.2.trans hclaims, Or.inr ⟨⟨above, id, rfl, habove⟩, hleft⟩, .stays hw'.1⟩

/-- A message that the receiver let in meets the other advices and the handlers, and then the
receiver hears what came of it. -/
theorem step_behind {stage : Stage} {above : List Frame} {id : Uuid} (hw : Faithful names w)
    (hclaims : w.claimFaults = []) (hfits : stage.Fits names)
    (hg : (Call.station names ⟨stage, above ++ [.claimed id]⟩).Grounded w.history)
    (habove : ∀ x ∈ above, ∃ name, x = .intercepted name)
    (hleft : ∀ a ∈ stage.left, ∀ stamping, a ≠ .once stamping) :
    (Chain.step carrier f.chain.core w ⟨stage, above ++ [.claimed id]⟩).Ensures
      (fun w' c' => w'.claimFaults = [] ∧ c'.Attended f ∧ Receipt w w' (.behind id) c'.place)
      (fun w' outcome => w'.claimFaults = [] ∧
        Receipt w w' (.behind id) (.past (Flow.verdict outcome))) := by
  cases stage with
  | enter m advices =>
    cases advices with
    | nil =>
      simp only [step, coreStep]
      repeat' split
      all_goals exact stays_behind above hclaims ⟨rfl, rfl⟩ habove fun _ h => by cases h
    | cons a rest =>
      have hrest : ∀ b ∈ rest, ∀ stamping, b ≠ .once stamping :=
        fun b hb => hleft b (List.mem_cons_of_mem _ hb)
      cases a with
      | once stamping => exact absurd rfl (hleft _ List.mem_cons_self stamping)
      | reconcile r =>
        simp only [step, cancelStep]
        repeat' split
        · exact stays_behind above hclaims ⟨rfl, rfl⟩ habove fun _ h => by cases h
        · exact stays_behind above hclaims ⟨rfl, rfl⟩ habove hrest
        · exact stays_behind above hclaims ⟨rfl, rfl⟩ habove hrest
      | intercept i =>
        simp only [step, interceptStep]
        split
        · exact stays_behind above hclaims ⟨rfl, rfl⟩ habove fun _ h => by cases h
        · exact stays_behind above hclaims ⟨rfl, rfl⟩ habove fun _ h => by cases h
        · have hframes : ∀ x ∈ .intercepted i.name :: above, ∃ name, x = .intercepted name := by
            intro x hx
            rcases List.mem_cons.mp hx with rfl | hx
            · exact ⟨_, rfl⟩
            · exact habove x hx
          exact stays_behind (.intercepted i.name :: above) hclaims ⟨rfl, rfl⟩ hframes
            hrest
  | reconciling r key m rest g =>
    obtain ⟨⟨timeout, rfl⟩, -, -⟩ := hfits
    rw [step, Progress.ensures_andThen]
    refine (reconcileStep_claims hw hg).mono
      (fun w' g' h => stays_behind above hclaims h habove hleft) fun w' outcome h => ?_
    split
    · exact stays_behind above hclaims h habove hleft
    · exact stays_behind above hclaims h habove fun _ h => by cases h
  | aggregating a key m g =>
    obtain ⟨⟨retry, timeout, rfl⟩, hm⟩ := hfits
    rw [step, Progress.ensures_andThen]
    exact (aggregateStep_claims hw hm hg).mono
      (fun w' g' h => stays_behind above hclaims h habove fun _ h => by cases h)
      fun w' outcome h => stays_behind above hclaims h habove fun _ h => by cases h
  | leave outcome =>
    cases above with
    | nil =>
      obtain ⟨hfaults, hreceipt⟩ := leaveFrame_receipt outcome id hclaims
      exact ⟨hfaults, Or.inl ⟨rfl, Or.inr ⟨outcome, rfl⟩⟩, hreceipt⟩
    | cons frame above =>
      obtain ⟨name, rfl⟩ := habove frame List.mem_cons_self
      exact stays_behind above hclaims ⟨rfl, rfl⟩ (fun x hx => habove x (List.mem_cons_of_mem _ hx))
        fun _ h => by cases h

/-- What every step of a call does to the claims, by where it brings the call. -/
theorem step_receipt {c : Call} (hf : f.Fronted) (hw : Faithful names w)
    (hclaims : w.claimFaults = []) (hfits : c.stage.Fits names)
    (hg : (c.station names).Grounded w.history) (ha : c.Attended f) :
    (Chain.step carrier f.chain.core w c).Ensures
      (fun w' c' => w'.claimFaults = [] ∧ c'.Attended f ∧ Receipt w w' c.place c'.place)
      (fun w' outcome => w'.claimFaults = [] ∧
        Receipt w w' c.place (.past (Flow.verdict outcome))) := by
  obtain ⟨stage, frames⟩ := c
  rcases ha with ⟨hframes, hstage⟩ | ⟨⟨above, id, hframes, habove⟩, hleft⟩
  · obtain rfl : frames = [] := hframes
    rcases hstage with ⟨m, hstage⟩ | ⟨outcome, hstage⟩ <;> obtain rfl : stage = _ := hstage
    · obtain ⟨stamping, rest, hadvices, hrest⟩ := hf
      rw [hadvices]
      exact claimStep_receipt hclaims hrest
    · exact ⟨hclaims, .stays rfl⟩
  · obtain rfl : frames = _ := hframes
    rw [Call.place_of_frames]
    exact step_behind hw hclaims hfits hg habove hleft

end Chain

/-- What every step of a call of a flow does to the claims, by where it brings the call. -/
theorem Flow.step_receipt {st : Flow.Stage} (hf : f.Fronted) (hw : Faithful names w)
    (hclaims : w.claimFaults = []) (hfits : st.Fits names)
    (hg : (st.station names).Grounded w.history) (ha : (Sending.running st).Attended f) :
    (f.step carrier w st).Ensures
      (fun w' st' => w'.claimFaults = [] ∧ (Sending.running st').Attended f ∧
        Receipt w w' (Sending.running st).place (Sending.running st').place)
      (fun w' result => w'.claimFaults = [] ∧
        Receipt w w' (Sending.running st).place (.past result)) := by
  cases st with
  | arrived m =>
    simp only [step]
    split
    · exact ⟨hclaims, fun h => (by cases h), .turnedAway (fun h => by cases h) rfl⟩
    · exact ⟨hclaims, fun h => (by cases h), .turnedAway (fun h => by cases h) rfl⟩
    · exact ⟨hclaims, fun h => (by cases h), .turnedAway (fun h => by cases h) rfl⟩
    · next e hroute =>
      refine ⟨hclaims, Or.inl ⟨rfl, Or.inl ⟨e, rfl⟩⟩, ?_⟩
      show Receipt w _ (.ahead m.id) (.ahead e.id)
      rw [Flow.id_of_route hroute]
      exact .stays rfl
  | rejecting m verdict =>
    obtain ⟨hcl, hfaults⟩ := w.offer_claims m
    simp only [step]
    split
    · next heq =>
      rw [heq] at hcl hfaults
      exact ⟨hfaults.trans hclaims, .unreported hcl⟩
    · next heq =>
      rw [heq] at hcl hfaults
      exact ⟨hfaults.trans hclaims, .stays hcl⟩
  | handling since call =>
    rw [step, Progress.ensures_andThen]
    refine (Chain.step_receipt hf hw hclaims hfits hg ha).mono (fun _ _ h => h) ?_
    rintro w' outcome ⟨hfaults, hreceipt⟩
    exact ⟨hfaults, hreceipt.time⟩

/-! ## Traffic -/

namespace Traffic

/-- Every call is where a flow with a receiver in front brings it, and no failure of the memory of
claims is to come. -/
structure Attended (f : Flow) (s : Traffic κ) : Prop where
  faultless : s.world.claimFaults = []
  calls : ∀ (i : Nat) c, s.calls[i]? = some c → c.Attended f

/-- What a move does to the places of the calls and to the claims. -/
inductive Relocated (s s' : Traffic κ) : Move → Prop
  | steps {i p p'} (call : s.place? i = some p) (receipt : Receipt s.world s'.world p p')
      (places : ∀ j, s'.place? j = if j = i then some p' else s.place? j) : Relocated s s' (.step i)
  | drops {i p} (call : s.place? i = some p)
      (places : ∀ j, s'.place? j = if j = i then some .dropped else s.place? j)
      (claims : s'.world.claims = s.world.claims) : Relocated s s' (.drop i)
  | sends (m : RawMessage)
      (places : ∀ j, s'.place? j = if j = s.calls.length then some (.ahead m.id) else s.place? j)
      (claims : s'.world.claims = s.world.claims) : Relocated s s' (.send m)
  | quiet {mv} (places : ∀ j, s'.place? j = s.place? j)
      (claims : s'.world.claims = s.world.claims) : Relocated s s' mv

variable {s s' start : Traffic κ} {mv : Move} {moves : List Move} {i j : Nat} {id : Uuid}

theorem place?_of_call {c : Sending} (h : s.calls[i]? = some c) : s.place? i = some c.place := by
  rw [place?, h]
  rfl

theorem place?_put {c d : Sending} {w : World κ} (hi : s.calls[i]? = some d) (j : Nat) :
    (s.put i w c).place? j = if j = i then some c.place else s.place? j := by
  unfold place?
  rw [getElem?_put hi]
  split <;> rfl

theorem lt_of_place? {p : Place} (h : s.place? i = some p) : i < s.calls.length := by
  obtain ⟨c, hc, -⟩ := Option.map_eq_some_iff.mp h
  exact (List.getElem?_eq_some_iff.mp hc).1

/-- What a move does to the place of one call. -/
theorem Relocated.place {p : Place} (h : s.Relocated s' mv) (hj : s.place? j = some p) :
    s'.place? j = some p ∨ s'.place? j = some .dropped ∨
      ∃ p', s'.place? j = some p' ∧ Receipt s.world s'.world p p' := by
  cases h with
  | @steps i q q' call receipt places =>
    rw [places]
    split
    · next hji =>
      obtain rfl : q = p := Option.some.inj (call.symm.trans (hji ▸ hj))
      exact Or.inr (Or.inr ⟨q', rfl, receipt⟩)
    · exact Or.inl hj
  | drops call places =>
    rw [places]
    split
    · exact Or.inr (Or.inl rfl)
    · exact Or.inl hj
  | sends m places =>
    rw [places, if_neg (Nat.ne_of_lt (lt_of_place? hj))]
    exact Or.inl hj
  | quiet places =>
    rw [places]
    exact Or.inl hj

/-- How a move brought a call to its place. -/
theorem Relocated.origin {p' : Place} (h : s.Relocated s' mv) (hj : s'.place? j = some p') :
    s.place? j = some p' ∨ p' = .dropped ∨
      (∃ m, mv = .send m ∧ j = s.calls.length ∧ p' = .ahead m.id) ∨
      mv = .step j ∧ ∃ p, s.place? j = some p ∧ Receipt s.world s'.world p p' := by
  cases h with
  | @steps i p q' call receipt places =>
    rw [places] at hj
    split at hj
    · next hji =>
      subst hji
      obtain rfl : q' = p' := Option.some.inj hj
      exact Or.inr (Or.inr (Or.inr ⟨rfl, p, call, receipt⟩))
    · exact Or.inl hj
  | drops call places =>
    rw [places] at hj
    split at hj
    · exact Or.inr (Or.inl (Option.some.inj hj).symm)
    · exact Or.inl hj
  | sends m places =>
    rw [places] at hj
    split at hj
    · next hlast => exact Or.inr (Or.inr (Or.inl ⟨m, rfl, hlast, (Option.some.inj hj).symm⟩))
    · exact Or.inl hj
  | quiet places =>
    rw [places] at hj
    exact Or.inl hj

end Traffic

open Traffic in
/-- What a move does to the places of the calls and to the claims. -/
theorem Sound.relocated {s s' : Traffic κ} {mv : Move} (hfront : f.Fronted)
    (hs : Sound names s) (ha : s.Attended f) (h : s.move carrier f mv = some s') :
    s'.Attended f ∧ s.Relocated s' mv := by
  cases moved_of_move h with
  | @steps i st w c call step =>
    obtain ⟨hfaults, hc, hreceipt⟩ := Sending.of_after?
      (R := fun w' c' => w'.claimFaults = [] ∧ c'.Attended f ∧
        Receipt s.world w' (Sending.running st).place c'.place)
      ((Flow.step_receipt hfront hs.faithful ha.faultless (hs.fits i _ call)
        (hs.grounded_of_call call) (ha.calls i _ call)).mono (fun _ _ h => h)
        fun _ _ h => ⟨h.1, trivial, h.2⟩) step
    exact ⟨⟨hfaults, forall_put call ha.calls hc⟩,
      .steps (place?_of_call call) hreceipt (place?_put call)⟩
  | @drops i st desk call suspends =>
    exact ⟨⟨ha.faultless, forall_put call ha.calls trivial⟩,
      .drops (place?_of_call call) (place?_put call) rfl⟩
  | sends m =>
    refine ⟨⟨ha.faultless, forall_send m ha.calls trivial⟩, .sends m (fun j => ?_) rfl⟩
    unfold place?
    rw [getElem?_send]
    split <;> rfl
  | quiet now desk silent idle => exact ⟨⟨ha.faultless, ha.calls⟩, .quiet (fun _ => rfl) rfl⟩

theorem Traffic.Attended.run {s s' : Traffic κ} {moves : List Move} (hf : f.Standard names)
    (hfront : f.Fronted) (hs : Sound names s) (ha : s.Attended f)
    (h : Traffic.run carrier f moves s = some s') : s'.Attended f := by
  refine (Traffic.inv_of_run (I := fun t => Sound names t ∧ t.Attended f) ?_ h ⟨hs, ha⟩).2
  rintro t mv t' - ⟨ht, hat⟩ hmv
  exact ⟨ht.move hf hmv, (ht.relocated hfront hat hmv).1⟩

end Rendezvous
