/-
How often a record is handed out, and what becomes of it.

While the stream stays open, every input is forced by the stage, by the reactions of the consumer
or by the answer of the error channel.  So there is one course of things: deliveries up to the first
acknowledgement, once more than there are retries at most, with the delays in between, and then the
end (`settled_while_open`).

When the receiving end is dropped before that, this is noticed at the next delivery.  If there is a
next one, the record is left as it is.  If the last delivery is out already, there is none: it
counts as not acknowledged, the message is parked and the record committed
(`left_alone_iff`).
-/
import Rendezvous.Transport.Settling

namespace Rendezvous
namespace Settling

variable {r : Rules} {m : RawMessage} {s t u : Stage} {i j : Input} {inputs others : List Input}
  {effects now later : List Effect} {attempt : Nat} {listening : Bool} {x : Reaction}

/-- A message whose redeliveries are spent: as it was, with the reason in the error header. -/
def spent (r : Rules) (m : RawMessage) : RawMessage :=
  ⟨m.id, m.headers.insert r.errorHeader (.str "redeliveries exhausted"), m.payload⟩

theorem parked_eq (r : Rules) (m : RawMessage) : parked r m = spent r m := rfl

/-! ## Runs -/

theorem run?_cons (h : step? r m s i = some (t, now)) (hrun : run? r m t inputs = some (u, later)) :
    run? r m s (i :: inputs) = some (u, now ++ later) := by
  simp only [run?, h, Option.bind_some, hrun, Option.map_some]

theorem run?_cons_quiet (h : step? r m s i = some (t, []))
    (hrun : run? r m t inputs = some (u, later)) : run? r m s (i :: inputs) = some (u, later) :=
  run?_cons h hrun

theorem of_run?_cons (h : run? r m s (i :: inputs) = some (u, effects)) :
    ∃ t now later, step? r m s i = some (t, now) ∧ run? r m t inputs = some (u, later) ∧
      effects = now ++ later := by
  obtain ⟨⟨t, now⟩, hstep, h⟩ := Option.bind_eq_some_iff.mp h
  obtain ⟨⟨v, later⟩, hrun, h⟩ := Option.map_eq_some_iff.mp h
  obtain ⟨rfl, rfl⟩ := Prod.mk.inj h
  exact ⟨t, now, later, hstep, hrun, rfl⟩

theorem react_of_ack : react r m attempt listening .ack = (.done (some .ack), [.commit]) := rfl

theorem settlement_of_ne_ack (h : x ≠ .ack) : x.settlement = .redeliver := by
  cases x with
  | ack => exact absurd rfl h
  | redeliver | drop => rfl

theorem react_of_lt (h : x ≠ .ack) (hlt : attempt < r.policy.maxRetries) :
    react r m attempt listening x =
      (.backoff attempt listening, [.sleep (r.policy.delay attempt)]) := by
  simp only [react, settlement_of_ne_ack h, if_pos hlt]

theorem react_of_le (h : x ≠ .ack) (hle : r.policy.maxRetries ≤ attempt) :
    react r m attempt listening x =
      if r.parks then (.parking listening, [.park (spent r m)])
      else (.done (some .redeliver), [.commit]) := by
  simp only [react, settlement_of_ne_ack h, if_neg (Nat.not_lt.mpr hle), parked_eq]

/-! ## A stream that stays open -/

def Input.reaction? : Input → Option Reaction
  | .reaction x => some x
  | _ => none

/-- The consumer goes on listening and reacts to one delivery after the other as `reactions` says,
and the error channel answers as `answer` says. -/
structure Listening (reactions : Nat → Reaction) (answer : Except ChannelError Unit)
    (inputs : List Input) : Prop where
  stays : .closed ∉ inputs
  reacts : ∀ (k : Nat) x, (inputs.filterMap Input.reaction?)[k]? = some x → x = reactions k
  answers : ∀ outcome, .answered outcome ∈ inputs → outcome = answer

/-- How often a message is handed out: until it is acknowledged, and once more than there are
retries at most. -/
def handOuts (retries : Nat) (reactions : Nat → Reaction) : Nat :=
  min (((List.range (retries + 1)).map reactions).idxOf .ack + 1) (retries + 1)

/-- The reactions that follow the first one. -/
def following (reactions : Nat → Reaction) (k : Nat) : Reaction := reactions (k + 1)

/-- A message is handed out a number of times, from an attempt on, with the delays in between. -/
def rounds (r : Rules) (m : RawMessage) (attempt n : Nat) : List Effect :=
  (List.range n).flatMap fun k =>
    .handOut m :: if k + 1 < n then [.sleep (r.policy.delay (attempt + k))] else []

/-- What is done after the last reaction. -/
def ending (r : Rules) (m : RawMessage) (x : Reaction) : List Effect :=
  (if x = .ack then [] else if r.parks then [.park (spent r m)] else []) ++ [.commit]

section
variable {reactions : Nat → Reaction} {answer : Except ChannelError Unit} {retries n : Nat}

theorem handOuts_zero : handOuts 0 reactions = 1 := by
  simp [handOuts]

theorem handOuts_of_ack (h : reactions 0 = .ack) : handOuts retries reactions = 1 := by
  simp [handOuts, List.range_succ_eq_map, h]

theorem handOuts_of_ne_ack (h : reactions 0 ≠ .ack) :
    handOuts (retries + 1) reactions = handOuts retries (following reactions) + 1 := by
  have htail : ((List.range (retries + 2)).map reactions).idxOf .ack =
      ((List.range (retries + 1)).map (following reactions)).idxOf .ack + 1 := by
    rw [List.range_succ_eq_map, List.map_cons, List.idxOf_cons, beq_eq_false_iff_ne.mpr h,
      List.map_map]
    rfl
  rw [handOuts, htail, handOuts]
  omega

theorem handOuts_pos : 0 < handOuts retries reactions := by
  unfold handOuts
  omega

theorem rounds_one : rounds r m attempt 1 = [.handOut m] := rfl

theorem rounds_succ (hn : 0 < n) : rounds r m attempt (n + 1) =
    .handOut m :: .sleep (r.policy.delay attempt) :: rounds r m (attempt + 1) n := by
  have hfirst : 0 + 1 < n + 1 := by omega
  have hlater : ∀ k, (Effect.handOut m :: if k + 1 + 1 < n + 1
      then [Effect.sleep (r.policy.delay (attempt + (k + 1)))] else []) =
      .handOut m :: if k + 1 < n then [.sleep (r.policy.delay (attempt + 1 + k))] else [] := by
    intro k
    rw [Nat.add_comm k 1, ← Nat.add_assoc attempt 1 k]
    simp only [Nat.add_lt_add_iff_right]
  rw [rounds, List.range_succ_eq_map, List.flatMap_cons, List.flatMap_map, if_pos hfirst]
  simp only [Nat.succ_eq_add_one, hlater]
  rfl

namespace Listening

theorem nil : Listening reactions answer [] :=
  ⟨List.not_mem_nil, fun k x h => (by cases h), fun _ h => by cases h⟩

theorem cons (h : Listening reactions answer inputs)
    (hi : i = .room ∨ i = .taken ∨ i = .elapsed ∨ i = .answered answer) :
    Listening reactions answer (i :: inputs) := by
  refine ⟨?_, ?_, ?_⟩
  · intro hmem
    rcases List.mem_cons.mp hmem with heq | hmem
    · obtain rfl | rfl | rfl | rfl := hi <;> cases heq
    · exact h.stays hmem
  · have hnone : i.reaction? = none := by obtain rfl | rfl | rfl | rfl := hi <;> rfl
    rw [List.filterMap_cons_none hnone]
    exact h.reacts
  · intro outcome hmem
    rcases List.mem_cons.mp hmem with heq | hmem
    · obtain rfl | rfl | rfl | rfl := hi <;> cases heq
      rfl
    · exact h.answers outcome hmem

theorem cons_reaction (h : Listening (following reactions) answer inputs) :
    Listening reactions answer (.reaction (reactions 0) :: inputs) := by
  refine ⟨?_, ?_, ?_⟩
  · intro hmem
    rcases List.mem_cons.mp hmem with hi | hmem
    · cases hi
    · exact h.stays hmem
  · intro k x hk
    have hhead : Input.reaction? (.reaction (reactions 0)) = some (reactions 0) := rfl
    rw [List.filterMap_cons_some hhead] at hk
    cases k with
    | zero => exact (Option.some.inj hk).symm
    | succ k => exact h.reacts k x hk
  · intro outcome hmem
    rcases List.mem_cons.mp hmem with hi | hmem
    · cases hi
    · exact h.answers outcome hmem

theorem tail (h : Listening reactions answer (i :: inputs)) (hi : i.reaction? = none) :
    Listening reactions answer inputs := by
  refine ⟨fun hmem => h.stays (List.mem_cons_of_mem i hmem), ?_,
    fun outcome hmem => h.answers outcome (List.mem_cons_of_mem i hmem)⟩
  have hreacts := h.reacts
  rw [List.filterMap_cons_none hi] at hreacts
  exact hreacts

theorem tail_reaction (h : Listening reactions answer (.reaction x :: inputs)) :
    x = reactions 0 ∧ Listening (following reactions) answer inputs := by
  refine ⟨h.reacts 0 x rfl, fun hmem => h.stays (List.mem_cons_of_mem _ hmem), ?_,
    fun outcome hmem => h.answers outcome (List.mem_cons_of_mem _ hmem)⟩
  intro k y hk
  exact h.reacts (k + 1) y hk

end Listening

/-- What a stage waits for while the stream stays open. -/
theorem awaited (h : step? r m s i = some (t, now)) (hopen : i ≠ .closed) :
    match s with
    | .offering _ => i = .room
    | .queued _ => i = .taken
    | .held .. => ∃ x, i = .reaction x
    | .backoff .. => i = .elapsed
    | .parking _ => ∃ outcome, i = .answered outcome
    | .done _ => False := by
  cases i with
  | closed => exact absurd rfl hopen
  | room | taken | elapsed =>
    cases s with
    | offering | queued => first | rfl | cases h
    | backoff _ listening => cases listening <;> first | rfl | cases h
    | held _ listening | parking listening => cases listening <;> cases h
    | done => cases h
  | reaction x =>
    cases s with
    | held => exact ⟨x, rfl⟩
    | backoff _ listening | parking listening => cases listening <;> cases h
    | offering | queued | done => cases h
  | answered outcome =>
    cases s with
    | parking => exact ⟨outcome, rfl⟩
    | held _ listening | backoff _ listening => cases listening <;> cases h
    | offering | queued | done => cases h

/-- Two inputs that one stage may meet next are the same. -/
theorem Listening.forced (h : Listening reactions answer (i :: inputs))
    (h' : Listening reactions answer (j :: others)) (hi : step? r m s i = some (t, now))
    (hj : step? r m s j = some (u, later)) : i = j := by
  have hopen : i ≠ .closed := fun heq => h.stays (heq ▸ List.mem_cons_self)
  have hopen' : j ≠ .closed := fun heq => h'.stays (heq ▸ List.mem_cons_self)
  have hwait := awaited hi hopen
  have hwait' := awaited hj hopen'
  cases s with
  | offering | queued | backoff => exact hwait.trans hwait'.symm
  | held attempt listening =>
    obtain ⟨x, rfl⟩ := hwait
    obtain ⟨y, rfl⟩ := hwait'
    rw [h.tail_reaction.1, h'.tail_reaction.1]
  | parking listening =>
    obtain ⟨o, rfl⟩ := hwait
    obtain ⟨o', rfl⟩ := hwait'
    rw [h.answers o List.mem_cons_self, h'.answers o' List.mem_cons_self]
  | done result => exact absurd hwait not_false

/-- A run that came to its end went as far as any other one. -/
theorem Listening.isPrefix {result : Option Settlement} (h : Listening reactions answer inputs)
    (h' : Listening reactions answer others)
    (hrun : run? r m s inputs = some (.done result, effects))
    (hrun' : (run? r m s others).isSome = true) : others <+: inputs := by
  induction inputs generalizing s reactions others effects with
  | nil =>
    obtain ⟨rfl, -⟩ := Prod.mk.inj (Option.some.inj hrun)
    cases others with
    | nil => exact List.prefix_rfl
    | cons j others =>
      obtain ⟨⟨u, all⟩, hsome⟩ := Option.isSome_iff_exists.mp hrun'
      obtain ⟨t, now, later, hstep, -, -⟩ := of_run?_cons hsome
      cases j <;> cases hstep
  | cons i inputs ih =>
    cases others with
    | nil => exact List.nil_prefix
    | cons j others =>
      obtain ⟨t, now, later, hstep, hrest, -⟩ := of_run?_cons hrun
      obtain ⟨⟨u, all⟩, hsome⟩ := Option.isSome_iff_exists.mp hrun'
      obtain ⟨t', now', later', hstep', hrest', -⟩ := of_run?_cons hsome
      obtain rfl := h.forced h' hstep hstep'
      obtain ⟨rfl, rfl⟩ := Prod.mk.inj (Option.some.inj (hstep.symm.trans hstep'))
      have hrest' : (run? r m t others).isSome = true := by rw [hrest']; rfl
      refine (List.cons_prefix_cons.mpr ⟨rfl, ?_⟩)
      cases hi : i.reaction? with
      | none => exact ih (h.tail hi) (h'.tail hi) hrest hrest'
      | some x =>
        obtain rfl : i = .reaction x := by cases i <;> cases hi; rfl
        exact ih h.tail_reaction.2 h'.tail_reaction.2 hrest hrest'

/-- A delivery is handed out and comes back with a reaction. -/
theorem run?_delivery (hreact : react r m attempt true x = (t, now))
    (hrun : run? r m t inputs = some (u, later)) :
    run? r m (.offering attempt) (.room :: .taken :: .reaction x :: inputs) =
      some (u, .handOut m :: (now ++ later)) := by
  have hreaction : step? r m (.held attempt true) (.reaction x) = some (t, now) := by
    rw [← hreact]
    rfl
  have htaken : step? r m (.queued attempt) .taken = some (.held attempt true, []) := rfl
  have hroom : step? r m (.offering attempt) .room = some (.queued attempt, [.handOut m]) := rfl
  exact run?_cons hroom (run?_cons_quiet htaken (run?_cons hreaction hrun))

theorem Listening.delivery (h : Listening (following reactions) answer inputs) :
    Listening reactions answer (.room :: .taken :: .reaction (reactions 0) :: inputs) := by
  have htaken := h.cons_reaction.cons (.inr (.inl rfl))
  exact htaken.cons (.inl rfl)

/-- The course of things when the next reaction is the last one. -/
theorem exists_run_last (reactions : Nat → Reaction) (answer : Except ChannelError Unit)
    (hlast : reactions 0 = .ack ∨ r.policy.maxRetries ≤ attempt) :
    ∃ inputs, Listening reactions answer inputs ∧
      run? r m (.offering attempt) inputs = some (.done (some (reactions 0).settlement),
        .handOut m :: ending r m (reactions 0)) := by
  by_cases hack : reactions 0 = .ack
  · have hreact : react r m attempt true (reactions 0) = (.done (some .ack), [.commit]) := by
      rw [hack, react_of_ack]
    refine ⟨_, Listening.nil.delivery, (run?_delivery hreact rfl).trans ?_⟩
    rw [hack]
    rfl
  · have hreact : react r m attempt true (reactions 0) = _ :=
      react_of_le hack (hlast.resolve_left hack)
    rw [settlement_of_ne_ack hack, ending, if_neg hack]
    by_cases hparks : r.parks = true
    · rw [if_pos hparks] at hreact ⊢
      have hanswered : Listening (following reactions) answer [.answered answer] :=
        Listening.nil.cons (.inr (.inr (.inr rfl)))
      have hanswer : step? r m (.parking true) (.answered answer) =
          some (.done (some .redeliver), [.commit]) := rfl
      exact ⟨_, hanswered.delivery, run?_delivery hreact (run?_cons hanswer rfl)⟩
    · rw [if_neg hparks] at hreact ⊢
      have hended : run? r m (.done (some .redeliver)) [] = some (.done (some .redeliver), []) :=
        rfl
      have hround := run?_delivery hreact hended
      exact ⟨_, Listening.nil.delivery, hround⟩

/-- The course of things from an attempt on, by induction on the retries that are left. -/
theorem exists_run (reactions : Nat → Reaction) (answer : Except ChannelError Unit)
    (hleft : attempt + retries = r.policy.maxRetries) (hn : n = handOuts retries reactions) :
    ∃ inputs, Listening reactions answer inputs ∧
      run? r m (.offering attempt) inputs = some (.done (some (reactions (n - 1)).settlement),
        rounds r m attempt n ++ ending r m (reactions (n - 1))) := by
  subst hn
  induction retries generalizing attempt reactions with
  | zero =>
    rw [handOuts_zero, rounds_one]
    exact exists_run_last reactions answer (.inr (Nat.le_of_eq hleft.symm))
  | succ retries ih =>
    by_cases hack : reactions 0 = .ack
    · rw [handOuts_of_ack hack, rounds_one]
      exact exists_run_last reactions answer (.inl hack)
    · have hlt : attempt < r.policy.maxRetries := by omega
      have hnext : attempt + 1 + retries = r.policy.maxRetries := by omega
      obtain ⟨inputs, hlistening, hrun⟩ := ih (following reactions) hnext
      have helapsed : step? r m (.backoff attempt true) .elapsed =
          some (.offering (attempt + 1), []) := rfl
      have hround := run?_delivery (react_of_lt hack hlt) (run?_cons_quiet helapsed hrun)
      have hwaited := hlistening.cons (i := .elapsed) (.inr (.inr (.inl rfl)))
      refine ⟨_, hwaited.delivery, ?_⟩
      have hpos : 0 < handOuts retries (following reactions) := handOuts_pos
      have hlast : following reactions (handOuts retries (following reactions) - 1) =
          reactions (handOuts retries (following reactions)) := by
        rw [following, Nat.sub_add_cancel hpos]
      rw [handOuts_of_ne_ack hack, rounds_succ hpos, Nat.add_sub_cancel, ← hlast]
      exact hround

end

/-- A record on a stream that stays open.  Its message is handed out up to the first
acknowledgement, once more than there are retries at most, with the delays in between.  The last
reaction settles the record; unless it was an acknowledgement the message was offered to the error
channel once, if there is one, and the answer of that changes nothing.  Things take this course as
far as they go. -/
theorem settled_while_open (r : Rules) (m : RawMessage) (reactions : Nat → Reaction)
    (answer : Except ChannelError Unit) :
    ∃ n inputs, n = handOuts r.policy.maxRetries reactions ∧ Listening reactions answer inputs ∧
      run? r m start inputs = some (.done (some (reactions (n - 1)).settlement),
        rounds r m 0 n ++ ending r m (reactions (n - 1))) ∧
      ∀ others, Listening reactions answer others → (run? r m start others).isSome = true →
        others <+: inputs := by
  obtain ⟨inputs, hlistening, hrun⟩ :=
    exists_run (m := m) reactions answer (Nat.zero_add r.policy.maxRetries) rfl
  refine ⟨_, inputs, rfl, hlistening, hrun, ?_⟩
  intro others hothers hsome
  exact hlistening.isPrefix hothers hrun hsome

def withRetries (retries : Nat) : Rules := ⟨⟨retries, 1000, 30000, 2.0⟩, true, "error"⟩

def record : RawMessage := ⟨⟨7, by decide⟩, Headers.none, []⟩

/-- A message that is given back and then dropped, with one retry and an error channel that refuses
it. -/
theorem settled_while_open_exhausted :
    let reactions : Nat → Reaction := fun k => if k = 0 then .redeliver else .drop
    let refusal : Except ChannelError Unit := .error (.rejected "full")
    ∃ inputs, Listening reactions refusal inputs ∧
      run? (withRetries 1) record start inputs = some (.done (some .redeliver),
        [.handOut record, .sleep ((withRetries 1).policy.delay 0), .handOut record,
          .park ⟨record.id, Headers.none.insert "error" (.str "redeliveries exhausted"), []⟩,
          .commit]) := by
  intro reactions refusal
  obtain ⟨n, inputs, hn, hlistening, hrun, -⟩ :=
    settled_while_open (withRetries 1) record reactions refusal
  obtain rfl : n = 2 := hn
  exact ⟨inputs, hlistening, hrun⟩

/-! ## A stream that is dropped -/

def Effect.isHandOut : Effect → Bool
  | .handOut _ => true
  | _ => false

/-- The record was neither committed nor its message offered to the error channel. -/
structure LeftAlone (effects : List Effect) : Prop where
  uncommitted : .commit ∉ effects
  unparked : ∀ m, .park m ∉ effects

/-- The record counts as not acknowledged: its message was offered to the error channel with the
reason, if there is one, and the record committed. -/
structure GivenUp (r : Rules) (m : RawMessage) (effects : List Effect) : Prop where
  committed : .commit ∈ effects
  parked : r.parks = true → .park (spent r m) ∈ effects

/-- From a stage on, things come to an end as told, whatever happens except that a delivery is
acknowledged. -/
inductive Ends (r : Rules) (m : RawMessage) (post : Option Settlement → List Effect → Prop) :
    Stage → List Effect → Prop where
  | done {result : Option Settlement} {effects : List Effect} (h : post result effects) :
      Ends r m post (.done result) effects
  | steps {s : Stage} {effects : List Effect}
      (can : ∃ i, i ≠ .reaction .ack ∧ (step? r m s i).isSome = true)
      (next : ∀ i t now, i ≠ .reaction .ack → step? r m s i = some (t, now) →
        Ends r m post t (effects ++ now)) : Ends r m post s effects

/-- While the stream is open and nothing is settled for good: how often the message was handed out
and how often it came back. -/
def Underway (retries handed reacted : Nat) : Stage → Prop
  | .offering attempt => attempt ≤ retries ∧ handed = attempt ∧ reacted = attempt
  | .queued attempt | .held attempt true =>
    attempt ≤ retries ∧ handed = attempt + 1 ∧ reacted = attempt
  | .backoff attempt true => attempt < retries ∧ handed = attempt + 1 ∧ reacted = attempt + 1
  | _ => False

section
variable {post post' : Option Settlement → List Effect → Prop} {handed reacted : Nat}

theorem LeftAlone.nil : LeftAlone [] := ⟨List.not_mem_nil, fun _ => List.not_mem_nil⟩

theorem LeftAlone.append (h : LeftAlone now) (h' : LeftAlone later) : LeftAlone (now ++ later) := by
  constructor
  · intro hmem
    exact (List.mem_append.mp hmem).elim h.uncommitted h'.uncommitted
  · intro m hmem
    exact (List.mem_append.mp hmem).elim (h.unparked m) (h'.unparked m)

theorem LeftAlone.handOut : LeftAlone [.handOut m] := by
  constructor <;> simp

theorem LeftAlone.sleep {millis : Nat} : LeftAlone [.sleep millis] := by
  constructor <;> simp

theorem Ends.imp (h : Ends r m post s effects) (himp : ∀ result all, post result all →
    post' result all) : Ends r m post' s effects := by
  induction h with
  | done h => exact .done (himp _ _ h)
  | steps can next ih => exact .steps can ih

/-- A stage at which only the passing of time counts. -/
theorem Ends.of_backoff_closed (h : post none effects) :
    Ends r m post (.backoff attempt false) effects := by
  refine .steps ⟨.elapsed, (by simp), rfl⟩ ?_
  intro i t now _ hstep
  cases i <;> cases hstep
  rw [List.append_nil]
  exact .done h

theorem Ends.of_parking_closed (h : post (some .redeliver) (effects ++ [.commit])) :
    Ends r m post (.parking false) effects := by
  refine .steps ⟨.answered (.ok ()), (by simp), rfl⟩ ?_
  intro i t now _ hstep
  cases i <;> cases hstep
  exact .done h

/-- Nobody listens anymore, and there would be a next delivery. -/
theorem Ends.of_react_of_lt (hx : x ≠ .ack) (hlt : attempt < r.policy.maxRetries)
    (h : LeftAlone effects) (hreact : react r m attempt false x = (t, now)) :
    Ends r m (fun result all => result = none ∧ LeftAlone all) t (effects ++ now) := by
  rw [react_of_lt hx hlt] at hreact
  obtain ⟨rfl, rfl⟩ := Prod.mk.inj hreact
  exact .of_backoff_closed ⟨rfl, h.append .sleep⟩

/-- Nobody listens anymore, and the last delivery comes back. -/
theorem Ends.of_react_of_le (hx : x ≠ .ack) (hle : r.policy.maxRetries ≤ attempt)
    (hreact : react r m attempt false x = (t, now)) :
    Ends r m (fun result all => result = some .redeliver ∧ GivenUp r m all) t
      (effects ++ now) := by
  rw [react_of_le hx hle] at hreact
  by_cases hparks : r.parks = true
  · rw [if_pos hparks] at hreact
    obtain ⟨rfl, rfl⟩ := Prod.mk.inj hreact
    exact .of_parking_closed ⟨rfl, ⟨by simp, fun _ => by simp⟩⟩
  · rw [if_neg hparks] at hreact
    obtain ⟨rfl, rfl⟩ := Prod.mk.inj hreact
    exact .done ⟨rfl, ⟨by simp, fun h => absurd h hparks⟩⟩

theorem Ends.of_held_closed
    (h : ∀ x t now, x ≠ .ack → react r m attempt false x = (t, now) →
      Ends r m post t (effects ++ now)) : Ends r m post (.held attempt false) effects := by
  refine .steps ⟨.reaction .drop, (by simp), rfl⟩ ?_
  intro i t now hi hstep
  cases i with
  | reaction x =>
    refine h x t now (fun hx => hi (hx ▸ rfl)) ?_
    exact Option.some.inj hstep
  | room | taken | elapsed | answered | closed => cases hstep

theorem underway_start : Underway retries 0 0 start := ⟨Nat.zero_le retries, rfl, rfl⟩

/-- What one input leaves of that, as long as the last delivery does not come back. -/
theorem Underway.step (h : Underway r.policy.maxRetries handed reacted s)
    (hstep : step? r m s i = some (t, now)) (hopen : i ≠ .closed) (hack : i ≠ .reaction .ack)
    (hle : reacted + [i].countP (·.reaction?.isSome) ≤ r.policy.maxRetries) :
    Underway r.policy.maxRetries (handed + now.countP Effect.isHandOut)
      (reacted + [i].countP (·.reaction?.isSome)) t ∧ LeftAlone now := by
  have hawaited := awaited hstep hopen
  cases s with
  | offering attempt =>
    obtain rfl : i = .room := hawaited
    obtain ⟨rfl, rfl⟩ := Prod.mk.inj (Option.some.inj hstep)
    obtain ⟨hattempt, rfl, rfl⟩ := h
    exact ⟨⟨hattempt, rfl, rfl⟩, .handOut⟩
  | queued attempt =>
    obtain rfl : i = .taken := hawaited
    obtain ⟨rfl, rfl⟩ := Prod.mk.inj (Option.some.inj hstep)
    exact ⟨h, .nil⟩
  | held attempt listening =>
    obtain ⟨x, rfl⟩ := hawaited
    cases listening with
    | false => exact h.elim
    | true =>
      obtain ⟨hattempt, rfl, rfl⟩ := h
      have hlt : reacted < r.policy.maxRetries := hle
      have hreact : react r m reacted true x = (t, now) := Option.some.inj hstep
      rw [react_of_lt (fun hx => hack (hx ▸ rfl)) hlt] at hreact
      obtain ⟨rfl, rfl⟩ := Prod.mk.inj hreact
      exact ⟨⟨hlt, rfl, rfl⟩, .sleep⟩
  | backoff attempt listening =>
    obtain rfl : i = .elapsed := hawaited
    cases listening with
    | false => exact h.elim
    | true =>
      obtain ⟨rfl, rfl⟩ := Prod.mk.inj (Option.some.inj hstep)
      obtain ⟨hattempt, rfl, rfl⟩ := h
      exact ⟨⟨hattempt, rfl, rfl⟩, .nil⟩
  | parking listening => exact h.elim
  | done result => exact h.elim

/-- And what a run leaves of it. -/
theorem Underway.run (h : Underway r.policy.maxRetries handed reacted s)
    (hrun : run? r m s inputs = some (t, effects)) (hopen : .closed ∉ inputs)
    (hack : .reaction .ack ∉ inputs)
    (hle : reacted + inputs.countP (·.reaction?.isSome) ≤ r.policy.maxRetries) :
    Underway r.policy.maxRetries (handed + effects.countP Effect.isHandOut)
      (reacted + inputs.countP (·.reaction?.isSome)) t ∧ LeftAlone effects := by
  induction inputs generalizing s handed reacted effects with
  | nil =>
    obtain ⟨rfl, rfl⟩ := Prod.mk.inj (Option.some.inj hrun)
    exact ⟨h, .nil⟩
  | cons i inputs ih =>
    obtain ⟨u, now, later, hstep, hrest, rfl⟩ := of_run?_cons hrun
    have hcount : ([i] ++ inputs).countP (·.reaction?.isSome) =
        [i].countP (·.reaction?.isSome) + inputs.countP (·.reaction?.isSome) :=
      List.countP_append
    rw [← List.singleton_append, hcount, ← Nat.add_assoc] at hle ⊢
    rw [List.countP_append, ← Nat.add_assoc]
    obtain ⟨hnext, hnow⟩ := h.step hstep (List.ne_of_not_mem_cons hopen).symm
      (List.ne_of_not_mem_cons hack).symm (by omega)
    obtain ⟨hlast, hlater⟩ := ih hnext hrest (List.not_mem_of_not_mem_cons hopen)
      (List.not_mem_of_not_mem_cons hack) hle
    exact ⟨hlast, hnow.append hlater⟩

/-- When the stream is dropped and there would be a next delivery, the record is left as it is. -/
theorem Underway.left_alone (h : Underway r.policy.maxRetries handed reacted s)
    (halone : LeftAlone effects) (hle : handed ≤ r.policy.maxRetries) :
    ∃ t now, step? r m s .closed = some (t, now) ∧
      Ends r m (fun result all => result = none ∧ LeftAlone all) t (effects ++ now) := by
  cases s with
  | offering attempt =>
    refine ⟨.done none, [], rfl, .done ⟨rfl, ?_⟩⟩
    rwa [List.append_nil]
  | queued attempt =>
    obtain ⟨hattempt, rfl, rfl⟩ := h
    exact ⟨_, _, rfl, .of_react_of_lt (x := .drop) (by decide) hle halone rfl⟩
  | held attempt listening =>
    cases listening with
    | false => exact h.elim
    | true =>
      obtain ⟨hattempt, rfl, rfl⟩ := h
      refine ⟨_, _, rfl, .of_held_closed ?_⟩
      intro x t now hx hreact
      rw [List.append_nil]
      exact .of_react_of_lt hx hle halone hreact
  | backoff attempt listening =>
    cases listening with
    | false => exact h.elim
    | true =>
      refine ⟨_, _, rfl, .of_backoff_closed ⟨rfl, ?_⟩⟩
      rwa [List.append_nil]
  | parking listening => exact h.elim
  | done result => exact h.elim

/-- When the stream is dropped and the last delivery is out, the record is given up. -/
theorem Underway.given_up (h : Underway r.policy.maxRetries handed reacted s)
    (effects : List Effect) (hlt : r.policy.maxRetries < handed) :
    ∃ t now, step? r m s .closed = some (t, now) ∧
      Ends r m (fun result all => result = some .redeliver ∧ GivenUp r m all) t
        (effects ++ now) := by
  cases s with
  | offering attempt =>
    obtain ⟨hattempt, rfl, rfl⟩ := h
    omega
  | queued attempt =>
    obtain ⟨hattempt, rfl, rfl⟩ := h
    exact ⟨_, _, rfl, .of_react_of_le (x := .drop) (by decide) (Nat.le_of_lt_succ hlt) rfl⟩
  | held attempt listening =>
    cases listening with
    | false => exact h.elim
    | true =>
      obtain ⟨hattempt, rfl, rfl⟩ := h
      refine ⟨_, _, rfl, .of_held_closed ?_⟩
      intro x t now hx hreact
      exact .of_react_of_le hx (Nat.le_of_lt_succ hlt) hreact
  | backoff attempt listening =>
    cases listening with
    | false => exact h.elim
    | true =>
      obtain ⟨hattempt, rfl, rfl⟩ := h
      omega
  | parking listening => exact h.elim
  | done result => exact h.elim

/-- The receiving end of the stream is dropped before an acknowledgement and before the last
delivery came back, and nothing is acknowledged afterwards.  Then the record is left as it is
exactly if the last delivery is not out yet.  If it is, the message is offered to the error channel
and the record committed. -/
theorem left_alone_iff {before : List Input} (hrun : run? r m start before = some (s, effects))
    (hopen : .closed ∉ before) (hunacked : .reaction .ack ∉ before)
    (hunsettled : before.countP (·.reaction?.isSome) ≤ r.policy.maxRetries) :
    ∃ t now, step? r m s .closed = some (t, now) ∧
      Ends r m (fun result all =>
        (result = none ∧ LeftAlone all ↔
          effects.countP Effect.isHandOut ≤ r.policy.maxRetries) ∧
        (result = some .redeliver ∧ GivenUp r m all ↔
          r.policy.maxRetries < effects.countP Effect.isHandOut)) t (effects ++ now) := by
  obtain ⟨hunderway, halone⟩ := underway_start.run hrun hopen hunacked (by omega)
  rw [Nat.zero_add, Nat.zero_add] at hunderway
  rcases Nat.lt_or_ge r.policy.maxRetries (effects.countP Effect.isHandOut) with hlt | hle
  · obtain ⟨t, now, hclosed, hends⟩ := hunderway.given_up (m := m) effects hlt
    refine ⟨t, now, hclosed, hends.imp ?_⟩
    rintro result all ⟨rfl, hgiven⟩
    refine ⟨⟨fun h => ?_, fun h => ?_⟩, fun _ => hlt, fun _ => ⟨rfl, hgiven⟩⟩
    · cases h.1
    · omega
  · obtain ⟨t, now, hclosed, hends⟩ := hunderway.left_alone (m := m) halone hle
    refine ⟨t, now, hclosed, hends.imp ?_⟩
    rintro result all ⟨rfl, hleft⟩
    refine ⟨⟨fun _ => hle, fun _ => ⟨rfl, hleft⟩⟩, fun h => ?_, fun h => ?_⟩
    · cases h.1
    · omega

/-- The stream is dropped during the only delay, and while the last delivery stands in it. -/
theorem left_alone_iff_of_one_retry :
    (∃ t now, step? (withRetries 1) record (.backoff 0 true) .closed = some (t, now) ∧
      Ends (withRetries 1) record (fun result all => result = none ∧ LeftAlone all) t
        ([.handOut record, .sleep ((withRetries 1).policy.delay 0)] ++ now)) ∧
    ∃ t now, step? (withRetries 1) record (.queued 1) .closed = some (t, now) ∧
      Ends (withRetries 1) record
        (fun result all => result = some .redeliver ∧ GivenUp (withRetries 1) record all) t
        ([.handOut record, .sleep ((withRetries 1).policy.delay 0), .handOut record] ++ now) := by
  constructor
  · have hrun : run? (withRetries 1) record start [.room, .taken, .reaction .drop] =
        some (.backoff 0 true, [.handOut record, .sleep ((withRetries 1).policy.delay 0)]) := rfl
    obtain ⟨t, now, hclosed, hends⟩ := left_alone_iff hrun (by simp) (by simp) (by decide)
    exact ⟨t, now, hclosed, hends.imp fun _ _ h => h.1.mpr (by decide)⟩
  · have hrun : run? (withRetries 1) record start
        [.room, .taken, .reaction .drop, .elapsed, .room] = some (.queued 1,
          [.handOut record, .sleep ((withRetries 1).policy.delay 0), .handOut record]) := rfl
    obtain ⟨t, now, hclosed, hends⟩ := left_alone_iff hrun (by simp) (by simp) (by decide)
    exact ⟨t, now, hclosed, hends.imp fun _ _ h => h.2.mpr (by decide)⟩

/-- A record is not always left as it is when the stream is dropped: without retries, not while its
only delivery stands in the stream. -/
theorem not_always_left_alone :
    ¬ ∀ (r : Rules) (m : RawMessage) (before : List Input) (s : Stage) (effects : List Effect),
      run? r m start before = some (s, effects) → .closed ∉ before → .reaction .ack ∉ before →
      before.countP (·.reaction?.isSome) ≤ r.policy.maxRetries →
      ∃ t now, step? r m s .closed = some (t, now) ∧
        Ends r m (fun result all => result = none ∧ LeftAlone all) t (effects ++ now) := by
  intro h
  have hrun : run? (withRetries 0) record start [.room] = some (.queued 0, [.handOut record]) := rfl
  obtain ⟨t, now, hclosed, hends⟩ :=
    h (withRetries 0) record _ _ _ hrun (by simp) (by simp) (by decide)
  obtain ⟨rfl, rfl⟩ := Prod.mk.inj (Option.some.inj hclosed)
  -- the message was offered to the error channel, which answers
  cases hends with
  | steps can next =>
    have hanswered := next (.answered (.ok ())) _ _ (by simp) rfl
    cases hanswered with
    | done hpost => cases hpost.1
    | steps can next =>
      obtain ⟨i, -, hcan⟩ := can
      cases i <;> cases hcan

end

end Settling
end Rendezvous
