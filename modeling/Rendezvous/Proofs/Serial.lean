/-
Concurrent calls and serial ones.

With an unlimited wait for locks, no interrupt, no idempotent receiver, and a channel whose answer
is a function of the output, any interleaving of calls comes to what the calls come to when they
are made one after the other, in the order in which they were granted their locks: the same
results, the same pending messages under every key, and the same accepted outputs for every key
(`serialisable`).

The proof keeps a ledger, the accounts of all keys, and what the calls that were granted their
locks make of it one after the other.  While a call is at work on its group, the account of its key
is on the way to what the ledger says; every other account is there already (`Reckoning`).
-/
import Rendezvous.Proofs.Alone

namespace Rendezvous

/-! ## Runs -/

/-- Calls are made one after the other, each of them alone. -/
inductive Serially {κ : Type} (carrier : Carrier κ) (f : Flow) :
    World κ → List RawMessage → World κ → List (Except FlowError FlowOutcome) → Prop
  | nil {w} : Serially carrier f w [] w []
  | cons {w m v result ms u results} (first : Alone carrier f w (.arrived m) v result)
      (rest : Serially carrier f v ms u results) :
      Serially carrier f w (m :: ms) u (result :: results)

def Flow.Stage.entered : Flow.Stage → Bool
  | .handling _ ⟨.reconciling _ _ _ _ g, _⟩ => g.entered
  | .handling _ ⟨.aggregating _ _ _ g, _⟩ => g.entered
  | _ => false

/-- The lock a call waits for, from when it saw that it is taken. -/
def Guarded.awaits {σ ρ : Type} : Guarded σ ρ → Bool
  | lining => true
  | queued .. => true
  | _ => false

def Flow.Stage.awaits (lk : String) : Flow.Stage → Prop
  | .handling _ ⟨.reconciling _ key _ _ g, _⟩ => key.lockKey = lk ∧ g.awaits = true
  | .handling _ ⟨.aggregating _ key _ g, _⟩ => key.lockKey = lk ∧ g.awaits = true
  | _ => False

namespace Traffic

variable {κ : Type}

def entered (s : Traffic κ) (i : Nat) : Bool := (s.stage? i).any Flow.Stage.entered

/-- The call that a move grants its lock. -/
def granted (s s' : Traffic κ) : Move → List Nat
  | .step i => if s'.entered i && !s.entered i then [i] else []
  | _ => []

/-- The calls that moves grant their locks, in the order in which they do. -/
def grants (carrier : Carrier κ) (f : Flow) : List Move → Traffic κ → List Nat
  | [], _ => []
  | mv :: rest, s =>
    match s.move carrier f mv with
    | none => []
    | some s' => s.granted s' mv ++ grants carrier f rest s'

/-- A call holds a lock: the lock is taken by the ticket of the call. -/
def Holds (names : HeaderNames) (s : Traffic κ) (i : Nat) (lk : String) : Prop :=
  ∃ t, (s.station names i).post.ticket? = some (lk, t) ∧
    (s.world.desk.table.lock lk).holder = some t

/-- A call waits for a lock, which was not passed to it yet. -/
def Waits (names : HeaderNames) (s : Traffic κ) (i : Nat) (lk : String) : Prop :=
  (∃ st, s.stage? i = some st ∧ st.awaits lk) ∧ ¬s.Holds names i lk

end Traffic

/-- A message that the handlers take and that needs a lock: it is to be joined with a group, or it
cancels. -/
def FlowSettings.Concerns (s : FlowSettings) (m : RawMessage) : Prop :=
  ∃ e, s.flow.route m = .accept e ∧
    (e.isAggregated s.names = true ∨ e.isOf s.names .cancelled = true)

instance (s : FlowSettings) (m : RawMessage) : Decidable (s.Concerns m) :=
  match h : s.flow.route m with
  | .accept e =>
    decidable_of_iff (e.isAggregated s.names = true ∨ e.isOf s.names .cancelled = true)
      ⟨fun he => ⟨e, h, he⟩, fun hc =>
        Route.accept.inj (h.symm.trans hc.choose_spec.1) ▸ hc.choose_spec.2⟩
  | .discard => isFalse fun hc => Route.noConfusion (h.symm.trans hc.choose_spec.1)
  | .uncorrelated _ => isFalse fun hc => Route.noConfusion (h.symm.trans hc.choose_spec.1)
  | .undecodable .. => isFalse fun hc => Route.noConfusion (h.symm.trans hc.choose_spec.1)

/-- A move of undisturbed traffic: such a message is sent, a call takes a step, or time passes. -/
def Move.Undisturbed (s : FlowSettings) : Move → Prop
  | .send m => s.Concerns m
  | .step _ => True
  | .pass _ => True
  | _ => False

instance (s : FlowSettings) (mv : Move) : Decidable (mv.Undisturbed s) :=
  match mv with
  | .send m => inferInstanceAs (Decidable (s.Concerns m))
  | .step _ => isTrue trivial
  | .pass _ => isTrue trivial
  | .drop _ => isFalse not_false
  | .interrupt => isFalse not_false
  | .clear => isFalse not_false

/-! ## Ledgers -/

/-- The accounts of all keys, each with the outputs that were accepted for its key. -/
abbrev Ledger := CorrelationKey → Account

variable {κ : Type}

def World.ledger (w : World κ) : Ledger := fun key => account (fun k => k = key) key w.history

namespace Ledger

variable (settings : FlowSettings) (verdict : RawMessage → Except ChannelError Unit)

def handle (L : Ledger) (m : RawMessage) : Ledger × Except FlowError FlowOutcome :=
  match settings.flow.route m with
  | .accept e =>
    let key := (e.headers.text? settings.names.correlationId).getD ""
    let after := (Plan.start settings.names key e).finish settings.names verdict (L key)
    (Function.update L key after.1, Flow.verdict after.2)
  | _ => (L, .ok .discarded)

/-- Messages are handled one after the other. -/
def settle (L : Ledger) : List RawMessage → Ledger × List (Except FlowError FlowOutcome)
  | [] => (L, [])
  | m :: ms =>
    let first := L.handle settings verdict m
    let rest := settle first.1 ms
    (rest.1, first.2 :: rest.2)

variable {settings verdict}

theorem handle_of_accept {m : RawMessage} {e : EventMessage} {key : CorrelationKey}
    (hroute : settings.flow.route m = .accept e)
    (hkey : e.headers.text? settings.names.correlationId = some key) (L : Ledger) :
    L.handle settings verdict m =
      (Function.update L key
        ((Plan.start settings.names key e).finish settings.names verdict (L key)).1,
      Flow.verdict
        ((Plan.start settings.names key e).finish settings.names verdict (L key)).2) := by
  rw [handle, hroute]
  simp only [hkey, Option.getD_some]

theorem settle_append (L : Ledger) (ms ns : List RawMessage) :
    L.settle settings verdict (ms ++ ns) =
      (((L.settle settings verdict ms).1.settle settings verdict ns).1,
        (L.settle settings verdict ms).2 ++
          ((L.settle settings verdict ms).1.settle settings verdict ns).2) := by
  induction ms generalizing L with
  | nil => rfl
  | cons m ms ih => simp only [List.cons_append, settle, ih]

end Ledger

/-! ## Plans over a ledger -/

namespace Plan

variable {names : HeaderNames} {verdict : RawMessage → Except ChannelError Unit}

def promise (names : HeaderNames) (verdict : RawMessage → Except ChannelError Unit) (L : Ledger)
    (p : Plan) : Except HandlerError Unit :=
  (p.finish names verdict (L (p.key?.getD ""))).2

/-- A plan that is about no key leaves accounts as they are, and its result does not depend on
them. -/
theorem finish_of_key?_eq_none {p : Plan} (hp : p.key? = none) (a a' : Account) :
    (p.finish names verdict a).1 = a ∧
      (p.finish names verdict a).2 = (p.finish names verdict a').2 := by
  cases p with
  | ahead | behind => exact ⟨rfl, rfl⟩
  | looping | ending => cases hp

theorem promise_eq {p : Plan} {key : CorrelationKey} (hp : p.key? = some key ∨ p.key? = none)
    (L : Ledger) : p.promise names verdict L = (p.finish names verdict (L key)).2 := by
  rcases hp with hp | hp
  · rw [promise, hp]
    rfl
  · exact (finish_of_key?_eq_none hp _ _).2

/-- A step that keeps to a plan: what the account of its key will become and the result stay the
same, and no other account is touched. -/
structure Keeps (names : HeaderNames) (verdict : RawMessage → Except ChannelError Unit)
    (key : CorrelationKey) (L L' : Ledger) (p p' : Plan) : Prop where
  about : p.key? = some key ∨ p.key? = none ∧ L' = L
  about' : p'.key? = none ∨ p'.key? = some key ∧ p.key? = some key
  others : ∀ k, k ≠ key → L' k = L k
  finish : p'.finish names verdict (L' key) = p.finish names verdict (L key)
  ahead : p' = .ahead ↔ p = .ahead

end Plan

/-- A step keeps to the plan of the call that takes it, or the call begins with its work. -/
theorem Advance.keeps {carrier : Carrier κ} {settings : FlowSettings} {key : CorrelationKey}
    {e : EventMessage} {w w' : World κ} {a a' : Course}
    {verdict : RawMessage → Except ChannelError Unit} (h : Advance carrier settings key e w w' a a')
    (honce : settings.idempotent = false)
    (hverdict : ∀ channel m, (carrier.send channel m).2 = verdict m)
    (hothers : ∀ k, a.plan.key? ≠ some k → w'.ledger k = w.ledger k) :
    a.plan.Keeps settings.names verdict key w.ledger w'.ledger a'.plan ∨
      a.plan = .ahead ∧ a'.plan = .start settings.names key e ∧ w'.ledger = w.ledger := by
  let of : CorrelationKey → Bool := fun k => k = key
  have hof : of key = true := decide_eq_true rfl
  have hrest {p : Plan} (hp : p.key? = none)
      (ho : ∀ k, p.key? ≠ some k → w'.ledger k = w.ledger k) : w'.ledger = w.ledger := by
    refine funext fun k => ho k ?_
    rw [hp]
    exact fun h => by cases h
  have hother {p : Plan} (hp : p.key? = some key)
      (ho : ∀ k, p.key? ≠ some k → w'.ledger k = w.ledger k) (k : CorrelationKey) (hk : k ≠ key) :
      w'.ledger k = w.ledger k := by
    refine ho k ?_
    rw [hp]
    exact fun h => hk (Option.some.inj h).symm
  cases h with
  | rests calm claims channel =>
    have hsame := hrest calm hothers
    exact Or.inl ⟨Or.inr ⟨calm, hsame⟩, Or.inl calm, fun k _ => congrFun hsame k,
      by rw [hsame], Iff.rfl⟩
  | admits once | repeats once | forgets once => rw [honce] at once; cases once
  | begins claims channel => exact Or.inr ⟨rfl, rfl, hrest rfl hothers⟩
  | works claims channel goes =>
    refine Or.inl ⟨Or.inl rfl, Or.inr ⟨rfl, rfl⟩, hother rfl hothers, ?_, ?_⟩
    · rcases goes of hof with hsame | ⟨channel, r, hok, hr, hafter⟩
      · exact congrArg (Account.serve _ _ _) hsame
      · refine (congrArg (Account.serve _ _ _) hafter).trans ?_
        exact (Account.serve_of_accepted hr ((hverdict channel _).symm.trans hok)).symm
    · exact iff_of_false (fun h => by cases h) (fun h => by cases h)
  | closes claims stops =>
    obtain ⟨hleft, hstops⟩ := stops of hof
    refine Or.inl ⟨Or.inl rfl, Or.inr ⟨rfl, rfl⟩, hother rfl hothers, ?_, ?_⟩
    · refine (congrArg (fun a => (a, _)) hleft).trans ?_
      cases hstops with
      | done hnone hsame => exact (Account.serve_of_none hnone).symm
      | refused hr answer =>
        refine (Account.serve_of_refused hr ?_).symm
        rw [← hverdict w.channel, answer]
    · exact iff_of_false (fun h => by cases h) (fun h => by cases h)
  | clears claims channel same =>
    refine Or.inl ⟨Or.inl rfl, Or.inr ⟨rfl, rfl⟩, hother rfl hothers, ?_, ?_⟩
    · exact congrArg (fun a => (a, _)) (same of)
    · exact iff_of_false (fun h => by cases h) (fun h => by cases h)
  | leaves claims channel same =>
    refine Or.inl ⟨Or.inl rfl, Or.inl rfl, hother rfl hothers, ?_, ?_⟩
    · exact congrArg (fun a => (a, _)) (same of)
    · exact iff_of_false (fun h => by cases h) (fun h => by cases h)

/-! ## Traffic over a ledger -/

/-- What the handlers made of a message, told from what the flow returned. -/
def Flow.outcome : Except FlowError FlowOutcome → Except HandlerError Unit
  | .error (.handler e) => .error e
  | _ => .ok ()

theorem Flow.outcome_verdict (outcome : Except HandlerError Unit) :
    Flow.outcome (Flow.verdict outcome) = outcome := by
  cases outcome <;> rfl

namespace Sending

def plan (names : HeaderNames) : Sending → Plan
  | running st => (st.course names).plan
  | returned result => .behind (Flow.outcome result)
  | dropped => .ahead

/-- A call is where the flow brings the message, which is one that needs a lock. -/
def Follows (settings : FlowSettings) (m : RawMessage) : Sending → Prop
  | running st => ∃ key e, settings.flow.route m = .accept e ∧
      (e.isAggregated settings.names = true ∨ e.isOf settings.names .cancelled = true) ∧
      e.headers.text? settings.names.correlationId = some key ∧ st.Follows settings key e
  | returned result => ∃ outcome, result = Flow.verdict outcome
  | dropped => False

end Sending

namespace Traffic

variable {names : HeaderNames} {s : Traffic κ}

def plan (names : HeaderNames) (s : Traffic κ) (i : Nat) : Plan :=
  match s.calls[i]? with
  | some c => c.plan names
  | none => .ahead

theorem plan_of_call {i : Nat} {c : Sending} (h : s.calls[i]? = some c) :
    s.plan names i = c.plan names := by
  rw [plan, h]

theorem plan_put {i : Nat} {w : World κ} {c d : Sending} (hi : s.calls[i]? = some d) (j : Nat) :
    (s.put i w c).plan names j = if j = i then c.plan names else s.plan names j := by
  unfold plan
  rw [getElem?_put hi]
  by_cases hj : j = i
  · rw [if_pos hj, if_pos hj]
  · rw [if_neg hj, if_neg hj]

theorem key?_plan (names : HeaderNames) (s : Traffic κ) (i : Nat) :
    (s.plan names i).key? = (s.station names i).work.map Prod.fst := by
  unfold plan station
  cases s.calls[i]? with
  | none => rfl
  | some c =>
    cases c with
    | running st => exact st.key?_course names
    | returned | dropped => rfl

end Traffic

/-- A call has its lock while its plan is about a key. -/
theorem Flow.Stage.entered_eq (names : HeaderNames) (st : Flow.Stage) :
    st.entered = (st.course names).plan.key?.isSome := by
  rw [Flow.Stage.key?_course]
  cases st with
  | arrived | rejecting => rfl
  | handling since call =>
    obtain ⟨stage, frames⟩ := call
    cases stage with
    | enter | leave => rfl
    | reconciling r key m rest g => cases g <;> rfl
    | aggregating a key m g => cases g <;> rfl

theorem Traffic.entered_eq (names : HeaderNames) (s : Traffic κ) (i : Nat) :
    s.entered i = (s.plan names i).key?.isSome := by
  unfold Traffic.entered Traffic.stage? Traffic.plan
  cases s.calls[i]? with
  | none => rfl
  | some c =>
    cases c with
    | running st => exact st.entered_eq names
    | returned | dropped => rfl

/-- No two calls are at work on the group of one key. -/
theorem Sound.eq_of_plan {names : HeaderNames} {s : Traffic κ} (hs : Sound names s) {i j : Nat}
    {key : CorrelationKey} (hi : (s.plan names i).key? = some key)
    (hj : (s.plan names j).key? = some key) : i = j := by
  rw [Traffic.key?_plan] at hi hj
  obtain ⟨⟨_, ground⟩, hwi, rfl⟩ := Option.map_eq_some_iff.mp hi
  obtain ⟨⟨_, ground'⟩, hwj, rfl⟩ := Option.map_eq_some_iff.mp hj
  exact Sound.eq_of_work hs.custody (s.station_proper names i) (s.station_proper names j) rfl rfl
    hwi hwj

def messagesOf (messages : List RawMessage) (order : List Nat) : List RawMessage :=
  order.filterMap fun i => messages[i]?

/-- The invariant: the ledger of the world is on the way to what the calls that were granted their
locks, in their order, make of the one it began with. -/
structure Reckoning (settings : FlowSettings) (verdict : RawMessage → Except ChannelError Unit)
    (base : Ledger) (messages : List RawMessage) (order : List Nat) (s : Traffic κ) : Prop where
  raised : s.world.desk.raised = false
  length : messages.length = s.calls.length
  follows : ∀ (i : Nat) c, s.calls[i]? = some c →
    ∃ m, messages[i]? = some m ∧ c.Follows settings m
  nodup : order.Nodup
  mem : ∀ i, i ∈ order ↔ s.plan settings.names i ≠ .ahead
  results : (base.settle settings verdict (messagesOf messages order)).2 = order.map fun i =>
    Flow.verdict ((s.plan settings.names i).promise settings.names verdict s.world.ledger)
  busy : ∀ i key, (s.plan settings.names i).key? = some key →
    (base.settle settings verdict (messagesOf messages order)).1 key =
      ((s.plan settings.names i).finish settings.names verdict (s.world.ledger key)).1
  idle : ∀ key, (∀ i, (s.plan settings.names i).key? ≠ some key) →
    (base.settle settings verdict (messagesOf messages order)).1 key = s.world.ledger key

namespace Reckoning

variable {settings : FlowSettings} {verdict : RawMessage → Except ChannelError Unit}
  {base : Ledger} {messages : List RawMessage} {order : List Nat} {s : Traffic κ} {i : Nat}
  {c c' : Sending} {w' : World κ} {key : CorrelationKey}

theorem start {w : World κ} (hraised : w.desk.raised = false) :
    Reckoning settings verdict w.ledger [] [] (Traffic.start w) := by
  refine ⟨hraised, rfl, fun i c h => (by cases h), List.nodup_nil, fun i => ?_, rfl, ?_, ?_⟩
  · exact iff_of_false List.not_mem_nil fun h => h rfl
  · exact fun i key h => (by cases h)
  · exact fun key _ => rfl

theorem follows_put (hs : Reckoning settings verdict base messages order s)
    (hi : s.calls[i]? = some c) {m : RawMessage} (hm : messages[i]? = some m)
    (hc' : c'.Follows settings m) (j : Nat) (d : Sending)
    (hd : (s.put i w' c').calls[j]? = some d) :
    ∃ m, messages[j]? = some m ∧ d.Follows settings m := by
  rw [Traffic.getElem?_put hi] at hd
  split at hd
  · next hj =>
    obtain rfl := Option.some.inj hd
    exact ⟨m, hj ▸ hm, hc'⟩
  · exact hs.follows j d hd

theorem keep (hs : Reckoning settings verdict base messages order s)
    (hsound : Sound settings.names s) (hi : s.calls[i]? = some c)
    (hkeeps : (c.plan settings.names).Keeps settings.names verdict key s.world.ledger w'.ledger
      (c'.plan settings.names)) (hraised : w'.desk.raised = false) {m : RawMessage}
    (hm : messages[i]? = some m) (hc' : c'.Follows settings m) :
    Reckoning settings verdict base messages order (s.put i w' c') := by
  have hplan (j : Nat) : (s.put i w' c').plan settings.names j =
      if j = i then c'.plan settings.names else s.plan settings.names j := Traffic.plan_put hi j
  have hself : s.plan settings.names i = c.plan settings.names := Traffic.plan_of_call hi
  -- the account that another call is at work on is not touched
  have hother {j : Nat} {k : CorrelationKey} (hj : j ≠ i)
      (hk : (s.plan settings.names j).key? = some k) : w'.ledger k = s.world.ledger k := by
    rcases hkeeps.about with habout | ⟨-, hsame⟩
    · refine hkeeps.others k fun h => hj (hsound.eq_of_plan hk ?_)
      rw [hself, h]
      exact habout
    · exact congrFun hsame k
  have habout : (c.plan settings.names).key? = some key ∨ (c.plan settings.names).key? = none :=
    hkeeps.about.imp id And.left
  have habout' : (c'.plan settings.names).key? = some key ∨
      (c'.plan settings.names).key? = none := hkeeps.about'.symm.imp And.left id
  refine ⟨hraised, ?_, hs.follows_put hi hm hc', hs.nodup, fun j => ?_, ?_, ?_, ?_⟩
  · rw [hs.length]
    exact (List.length_set ..).symm
  · rw [hplan, hs.mem]
    by_cases hj : j = i
    · rw [if_pos hj, hj, hself]
      exact not_congr hkeeps.ahead.symm
    · rw [if_neg hj]
  · rw [hs.results]
    refine List.map_congr_left fun j _ => congrArg Flow.verdict ?_
    show _ = ((s.put i w' c').plan settings.names j).promise settings.names verdict w'.ledger
    rw [hplan]
    by_cases hj : j = i
    · rw [if_pos hj, hj, hself, Plan.promise_eq habout, Plan.promise_eq habout', hkeeps.finish]
    · rw [if_neg hj]
      cases hk : (s.plan settings.names j).key? with
      | none =>
        rw [Plan.promise, Plan.promise]
        exact (Plan.finish_of_key?_eq_none hk _ _).2
      | some k => rw [Plan.promise_eq (Or.inl hk), Plan.promise_eq (Or.inl hk), hother hj hk]
  · intro j k hk
    rw [hplan] at hk ⊢
    by_cases hj : j = i
    · rw [if_pos hj] at hk ⊢
      rcases hkeeps.about' with hnone | ⟨hsome, hsome'⟩
      · rw [hnone] at hk
        cases hk
      · obtain rfl : key = k := Option.some.inj (hsome.symm.trans hk)
        rw [hs.busy i key (hself ▸ hsome'), hself]
        exact congrArg Prod.fst hkeeps.finish.symm
    · rw [if_neg hj] at hk ⊢
      rw [hs.busy j k hk]
      exact congrArg _ (congrArg _ (hother hj hk).symm)
  · intro k hnone
    show _ = w'.ledger k
    by_cases hk : (c.plan settings.names).key? = some k
    · -- the work on this key is over
      have hkey : key = k := by
        rcases habout with h | h
        · exact Option.some.inj (h.symm.trans hk)
        · rw [h] at hk
          cases hk
      have hdone : (c'.plan settings.names).key? = none := by
        rcases hkeeps.about' with h | ⟨h, -⟩
        · exact h
        · refine absurd ?_ (hnone i)
          rw [hplan, if_pos rfl, h, hkey]
      rw [hs.busy i k (hself ▸ hk), hself, ← hkey]
      show ((c.plan settings.names).finish settings.names verdict (s.world.ledger key)).1 = _
      rw [← hkeeps.finish]
      exact (Plan.finish_of_key?_eq_none hdone _ (w'.ledger key)).1
    · have hnone' (j : Nat) : (s.plan settings.names j).key? ≠ some k := by
        by_cases hj : j = i
        · rw [hj, hself]
          exact hk
        · have := hnone j
          rwa [hplan, if_neg hj] at this
      rw [hs.idle k hnone']
      rcases hkeeps.about with h | ⟨-, hsame⟩
      · exact (hkeeps.others k fun e => hk (e ▸ h)).symm
      · exact (congrFun hsame k).symm

theorem begin (hs : Reckoning settings verdict base messages order s)
    (hsound' : Sound settings.names (s.put i w' c')) (hi : s.calls[i]? = some c) {m : RawMessage}
    {e : EventMessage} (hm : messages[i]? = some m) (hroute : settings.flow.route m = .accept e)
    (hkey : e.headers.text? settings.names.correlationId = some key)
    (hahead : c.plan settings.names = .ahead)
    (hbegin : c'.plan settings.names = .start settings.names key e)
    (habout : (c'.plan settings.names).key? = some key) (hsame : w'.ledger = s.world.ledger)
    (hraised : w'.desk.raised = false) (hc' : c'.Follows settings m) :
    Reckoning settings verdict base messages (order ++ [i]) (s.put i w' c') := by
  have hplan (j : Nat) : (s.put i w' c').plan settings.names j =
      if j = i then c'.plan settings.names else s.plan settings.names j := Traffic.plan_put hi j
  have hself : s.plan settings.names i = .ahead := (Traffic.plan_of_call hi).trans hahead
  have hnot : i ∉ order := fun h => (hs.mem i).mp h hself
  -- nobody else is at work on the group
  have hfree {j : Nat} {k : CorrelationKey} (hj : j ≠ i)
      (hk : (s.plan settings.names j).key? = some k) : k ≠ key := by
    rintro rfl
    have hothers : ((s.put i w' c').plan settings.names j).key? = some k := by
      rw [hplan, if_neg hj]
      exact hk
    refine hj (hsound'.eq_of_plan hothers ?_)
    rw [hplan, if_pos rfl]
    exact habout
  have hidle : (base.settle settings verdict (messagesOf messages order)).1 key =
      s.world.ledger key := by
    refine hs.idle key fun j hj => ?_
    by_cases hji : j = i
    · rw [hji, hself] at hj
      cases hj
    · exact hfree hji hj rfl
  -- what the order comes to now
  have hsettle : base.settle settings verdict (messagesOf messages (order ++ [i])) =
      (Function.update (base.settle settings verdict (messagesOf messages order)).1 key
        ((c'.plan settings.names).finish settings.names verdict (s.world.ledger key)).1,
      (base.settle settings verdict (messagesOf messages order)).2 ++
        [Flow.verdict ((c'.plan settings.names).finish settings.names verdict
          (s.world.ledger key)).2]) := by
    have hmessages : messagesOf messages (order ++ [i]) = messagesOf messages order ++ [m] := by
      rw [messagesOf, List.filterMap_append, messagesOf]
      simp only [List.filterMap_cons, hm, List.filterMap_nil]
    rw [hmessages, Ledger.settle_append]
    simp only [Ledger.settle, Ledger.handle_of_accept hroute hkey, hidle, hbegin]
  refine ⟨hraised, ?_, hs.follows_put hi hm hc', ?_, fun j => ?_, ?_, ?_, ?_⟩
  · rw [hs.length]
    exact (List.length_set ..).symm
  · refine List.nodup_append.mpr ⟨hs.nodup, List.nodup_singleton i, fun a ha b hb => ?_⟩
    rintro rfl
    exact hnot (List.mem_singleton.mp hb ▸ ha)
  · rw [hplan, List.mem_append, List.mem_singleton, hs.mem]
    by_cases hj : j = i
    · rw [if_pos hj, hbegin]
      refine iff_of_true (Or.inr hj) fun h => ?_
      rw [hbegin, h] at habout
      cases habout
    · rw [if_neg hj]
      exact or_iff_left hj
  · rw [hsettle, List.map_append, hs.results]
    refine congrArg₂ (· ++ ·) (List.map_congr_left fun j hj => congrArg Flow.verdict ?_) ?_
    · show _ = ((s.put i w' c').plan settings.names j).promise settings.names verdict w'.ledger
      rw [hplan, if_neg fun (h : j = i) => hnot (h ▸ hj), hsame]
    · show _ = [Flow.verdict (((s.put i w' c').plan settings.names i).promise settings.names
        verdict w'.ledger)]
      rw [hplan, if_pos rfl, Plan.promise_eq (Or.inl habout), hsame]
  · intro j k hk
    show _ = (Plan.finish _ _ _ (w'.ledger k)).1
    rw [hplan] at hk ⊢
    rw [hsettle, hsame]
    by_cases hj : j = i
    · rw [if_pos hj] at hk ⊢
      obtain rfl : key = k := Option.some.inj (habout.symm.trans hk)
      exact Function.update_self ..
    · rw [if_neg hj] at hk ⊢
      rw [← hs.busy j k hk]
      exact Function.update_of_ne (hfree hj hk) ..
  · intro k hnone
    have hk : k ≠ key := by
      rintro rfl
      refine hnone i ?_
      rw [hplan, if_pos rfl, habout]
    show _ = w'.ledger k
    rw [hsettle, hsame]
    refine (Function.update_of_ne hk ..).trans (hs.idle k fun j hj => ?_)
    refine hnone j ?_
    rw [hplan, if_neg, hj]
    rintro rfl
    rw [hself] at hj
    cases hj

theorem outside (hs : Reckoning settings verdict base messages order s) {s' : Traffic κ}
    {messages' : List RawMessage} (hraised : s'.world.desk.raised = false)
    (hledger : s'.world.ledger = s.world.ledger) (hlength : messages'.length = s'.calls.length)
    (hplan : ∀ i, s'.plan settings.names i = s.plan settings.names i)
    (hmessages : ∀ i < messages.length, messages'[i]? = messages[i]?)
    (hfollows : ∀ (i : Nat) c, s'.calls[i]? = some c →
      ∃ m, messages'[i]? = some m ∧ c.Follows settings m) :
    Reckoning settings verdict base messages' order s' := by
  have hsame : messagesOf messages' order = messagesOf messages order := by
    refine List.filterMap_congr fun i hi => hmessages i ?_
    have hne := (hs.mem i).mp hi
    rw [hs.length]
    by_contra hlt
    refine hne ?_
    rw [Traffic.plan, List.getElem?_eq_none (Nat.le_of_not_lt hlt)]
  refine ⟨hraised, hlength, hfollows, hs.nodup, ?_, ?_, ?_, ?_⟩
  · simp only [hplan]
    exact hs.mem
  · simp only [hplan, hsame, hledger]
    exact hs.results
  · simp only [hplan, hsame, hledger]
    exact hs.busy
  · simp only [hplan, hsame, hledger]
    exact hs.idle

end Reckoning

/-- What a step of a call for the message `m` makes of its plan: it keeps to it, or begins. -/
structure Headway (settings : FlowSettings) (verdict : RawMessage → Except ChannelError Unit)
    (m : RawMessage) (w : World κ) (st : Flow.Stage) (w' : World κ) (c' : Sending) : Prop where
  raised : w'.desk.raised = false
  follows : c'.Follows settings m
  turns : ∃ key e, settings.flow.route m = .accept e ∧
    (e.isAggregated settings.names = true ∨ e.isOf settings.names .cancelled = true) ∧
    e.headers.text? settings.names.correlationId = some key ∧
    ((st.course settings.names).plan.Keeps settings.names verdict key w.ledger w'.ledger
        (c'.plan settings.names) ∨
      (st.course settings.names).plan = .ahead ∧
        c'.plan settings.names = .start settings.names key e ∧ w'.ledger = w.ledger)

section
variable {settings : FlowSettings} {verdict : RawMessage → Except ChannelError Unit}
  {carrier : Carrier κ}

theorem Flow.step_headway (hadvices : settings.advices = []) (honce : settings.idempotent = false)
    (htimeout : settings.lockTimeout = none)
    (hverdict : ∀ channel m, (carrier.send channel m).2 = verdict m) {w : World κ}
    {st : Flow.Stage} {m : RawMessage} (hraised : w.desk.raised = false)
    (hw : Faithful settings.names w) (hfits : st.Fits settings.names)
    (hg : (st.station settings.names).Grounded w.history)
    (hf : (Sending.running st).Follows settings m) :
    (settings.flow.step carrier w st).Ensures
      (fun w' st' => Headway settings verdict m w st w' (.running st'))
      (fun w' result => Headway settings verdict m w st w' (.returned result)) := by
  obtain ⟨key, e, hroute, hconcerns, hkey, hf⟩ := hf
  have hstandard : settings.flow.Standard settings.names :=
    FlowSettings.flow_standard_of_nil hadvices
  have hclaims : settings.idempotent = true → w.claimFaults = [] := by
    rw [honce]
    exact fun h => by cases h
  have hothers {w' : World κ} {a' : Station}
      (hst : Stride settings.names w (st.station settings.names) w' a') (k : CorrelationKey)
      (hk : (st.course settings.names).plan.key? ≠ some k) : w'.ledger k = w.ledger k := by
    refine hst.account_eq fun key hkey => ?_
    have hne : key ≠ k := fun h => hk (h ▸ hkey)
    exact ⟨hne, decide_eq_false hne⟩
  refine ((Flow.step_ensures hstandard hw hfits hg).and (Flow.step_advance hadvices hw hclaims
    hraised (Or.inl htimeout) hkey hf hg)).mono ?_ ?_
  · rintro w' st' ⟨⟨hst, -⟩, -, hf', hadv⟩
    refine ⟨hst.dealing.raised.trans hraised, ⟨key, e, hroute, hconcerns, hkey, hf'⟩, key, e,
      hroute, hconcerns, hkey, ?_⟩
    exact hadv.keeps honce hverdict (hothers hst)
  · rintro w' result ⟨hst, -, outcome, rfl, hcourse, -, -⟩
    refine ⟨hst.dealing.raised.trans hraised, ⟨outcome, rfl⟩, key, e, hroute, hconcerns, hkey, ?_⟩
    have hplan : (Sending.returned (Flow.verdict outcome)).plan settings.names = .behind outcome :=
      congrArg Plan.behind (Flow.outcome_verdict outcome)
    have hsame : w'.ledger = w.ledger := by
      refine funext fun k => hothers hst k ?_
      rw [hcourse]
      exact fun h => by cases h
    rw [hplan, hcourse, hsame]
    exact Or.inl ⟨Or.inr ⟨rfl, rfl⟩, Or.inl rfl, fun _ _ => rfl, rfl, Iff.rfl⟩

variable {base : Ledger} {messages : List RawMessage} {order : List Nat} {s s' : Traffic κ}

theorem Reckoning.move (hadvices : settings.advices = []) (honce : settings.idempotent = false)
    (htimeout : settings.lockTimeout = none)
    (hverdict : ∀ channel m, (carrier.send channel m).2 = verdict m)
    (hs : Reckoning settings verdict base messages order s) (hsound : Sound settings.names s)
    (hsound' : Sound settings.names s') {mv : Move} (hmv : mv.Undisturbed settings)
    (h : s.move carrier settings.flow mv = some s') :
    Reckoning settings verdict base (messages ++ mv.message?.toList) (order ++ s.granted s' mv)
      s' := by
  cases mv with
  | drop | interrupt | clear => exact absurd hmv not_false
  | pass now =>
    obtain ⟨-, rfl⟩ := Traffic.pass_of_move h
    show Reckoning settings verdict base (messages ++ []) (order ++ []) _
    rw [List.append_nil, List.append_nil]
    exact hs.outside hs.raised rfl hs.length (fun _ => rfl) (fun _ _ => rfl) hs.follows
  | send m =>
    obtain rfl : _ = s' := Option.some.inj h
    show Reckoning settings verdict base (messages ++ [m]) (order ++ []) _
    rw [List.append_nil]
    have hfirst (i : Nat) (hi : i < messages.length) : (messages ++ [m])[i]? = messages[i]? :=
      List.getElem?_append_left hi
    refine hs.outside hs.raised rfl ?_ (fun i => ?_) hfirst fun i c hc => ?_
    · show _ = (s.calls ++ [_]).length
      rw [List.length_append, List.length_append, hs.length]
      rfl
    · unfold Traffic.plan
      rw [Traffic.getElem?_send]
      by_cases hi : i = s.calls.length
      · rw [if_pos hi, List.getElem?_eq_none (Nat.le_of_eq hi.symm)]
        rfl
      · rw [if_neg hi]
    · rw [Traffic.getElem?_send] at hc
      by_cases hi : i = s.calls.length
      · rw [if_pos hi] at hc
        obtain rfl := Option.some.inj hc
        obtain ⟨e, hroute, hconcerns⟩ := hmv
        obtain ⟨key, hkey⟩ := Flow.key_of_route hroute
        refine ⟨m, ?_, key, e, hroute, hconcerns, hkey, hroute⟩
        rw [hi, ← hs.length, List.getElem?_append_right (Nat.le_refl _), Nat.sub_self]
        rfl
      · rw [if_neg hi] at hc
        obtain ⟨o, ho, hfollows⟩ := hs.follows i c hc
        exact ⟨o, by rw [hfirst i (List.getElem?_eq_some_iff.mp ho).1, ho], hfollows⟩
  | step i =>
    obtain ⟨st, w, c, hi, hc, rfl⟩ := Traffic.step_of_move h
    obtain ⟨m, hm, hfollows⟩ := hs.follows i _ hi
    have hheadway : Headway settings verdict m s.world st w c :=
      Sending.of_after?
        (Flow.step_headway hadvices honce htimeout hverdict hs.raised hsound.faithful
        (hsound.fits i _ hi) (hsound.grounded_of_call hi) hfollows) hc
    obtain ⟨key, e, hroute, hconcerns, hkey, hturns⟩ := hheadway.turns
    have hentered : s.entered i = (st.course settings.names).plan.key?.isSome := by
      rw [Traffic.entered_eq settings.names, Traffic.plan_of_call hi]
      rfl
    have hentered' : (s.put i w c).entered i = (c.plan settings.names).key?.isSome := by
      rw [Traffic.entered_eq settings.names, Traffic.plan_put hi, if_pos rfl]
    show Reckoning settings verdict base (messages ++ []) (order ++
      if (s.put i w c).entered i && !s.entered i then [i] else []) _
    rw [List.append_nil, hentered, hentered']
    rcases hturns with hkeeps | ⟨hahead, hbegin, hsame⟩
    · have hnot : ((c.plan settings.names).key?.isSome &&
          !(st.course settings.names).plan.key?.isSome) = false := by
        rcases hkeeps.about' with h | ⟨-, h⟩
        · rw [h]
          rfl
        · rw [h]
          exact Bool.and_false _
      rw [hnot, if_neg Bool.false_ne_true, List.append_nil]
      exact hs.keep hsound hi hkeeps hheadway.raised hm hheadway.follows
    · have habout : (c.plan settings.names).key? = some key := by
        rw [hbegin]
        rcases hconcerns with h | h
        · rw [Plan.start_of_aggregated h]
          rfl
        · rw [Plan.start_of_cancelled h]
          rfl
      rw [hahead, habout]
      exact hs.begin hsound' hi hm hroute hkey hahead hbegin habout hsame hheadway.raised
        hheadway.follows

theorem Reckoning.run (hadvices : settings.advices = []) (honce : settings.idempotent = false)
    (htimeout : settings.lockTimeout = none)
    (hverdict : ∀ channel m, (carrier.send channel m).2 = verdict m) {moves : List Move}
    (hs : Reckoning settings verdict base messages order s) (hsound : Sound settings.names s)
    (hmoves : ∀ mv ∈ moves, mv.Undisturbed settings)
    (h : Traffic.run carrier settings.flow moves s = some s') :
    Reckoning settings verdict base (messages ++ sentBy moves)
      (order ++ Traffic.grants carrier settings.flow moves s) s' := by
  have hstandard : settings.flow.Standard settings.names :=
    FlowSettings.flow_standard_of_nil hadvices
  induction moves generalizing s messages order with
  | nil =>
    obtain rfl := Option.some.inj h
    show Reckoning settings verdict base (messages ++ []) (order ++ []) _
    rw [List.append_nil, List.append_nil]
    exact hs
  | cons mv rest ih =>
    obtain ⟨t, ht, h⟩ := Option.bind_eq_some_iff.mp h
    have hsound' : Sound settings.names t := hsound.move hstandard ht
    have hsent : sentBy (mv :: rest) = mv.message?.toList ++ sentBy rest := by
      rw [sentBy, List.filterMap_cons, sentBy]
      cases mv.message? <;> rfl
    have hgrants : Traffic.grants carrier settings.flow (mv :: rest) s =
        s.granted t mv ++ Traffic.grants carrier settings.flow rest t := by
      rw [Traffic.grants, ht]
    rw [hsent, hgrants, ← List.append_assoc, ← List.append_assoc]
    refine ih (hs.move hadvices honce htimeout hverdict hsound hsound' ?_ ht) hsound' ?_ h
    · exact hmoves mv List.mem_cons_self
    · exact fun o ho => hmoves o (List.mem_cons_of_mem _ ho)

/-- A run after which all calls have returned came to what the calls, in the order of their locks,
make of the ledger. -/
theorem settle_of_run (hadvices : settings.advices = []) (honce : settings.idempotent = false)
    (htimeout : settings.lockTimeout = none)
    (hverdict : ∀ channel m, (carrier.send channel m).2 = verdict m) {w : World κ}
    (hw : Quiet settings.names w) (hraised : w.desk.raised = false) {moves : List Move}
    (hmoves : ∀ mv ∈ moves, mv.Undisturbed settings)
    (hrun : Traffic.run carrier settings.flow moves (Traffic.start w) = some s)
    (hover : ∀ c ∈ s.calls, ∃ r, c = .returned r) :
    (Traffic.grants carrier settings.flow moves (Traffic.start w)).Perm
        (List.range s.calls.length) ∧
      Quiet settings.names s.world ∧ s.world.desk.raised = false ∧ ∃ results,
        w.ledger.settle settings verdict (messagesOf (sentBy moves)
          (Traffic.grants carrier settings.flow moves (Traffic.start w))) =
          (s.world.ledger, results) ∧
        (Traffic.grants carrier settings.flow moves (Traffic.start w)).map (fun i => s.calls[i]?) =
          results.map fun r => some (.returned r) := by
  have hstandard : settings.flow.Standard settings.names :=
    FlowSettings.flow_standard_of_nil hadvices
  have hsound : Sound settings.names s := hw.sound.run hstandard hrun
  have hs : Reckoning settings verdict w.ledger (sentBy moves)
      (Traffic.grants carrier settings.flow moves (Traffic.start w)) s :=
    (Reckoning.start hraised).run hadvices honce htimeout hverdict hw.sound hmoves hrun
  have hplan (i : Nat) (hi : i < s.calls.length) : ∃ outcome,
      s.calls[i]? = some (.returned (Flow.verdict outcome)) ∧
        s.plan settings.names i = .behind outcome := by
    obtain ⟨r, hr⟩ := hover s.calls[i] (List.getElem_mem hi)
    have hcall : s.calls[i]? = some (.returned r) := by rw [List.getElem?_eq_getElem hi, hr]
    obtain ⟨m, -, outcome, rfl⟩ := hs.follows i _ hcall
    refine ⟨outcome, hcall, ?_⟩
    rw [Traffic.plan_of_call hcall, Sending.plan, Flow.outcome_verdict]
  have hlate (i : Nat) (hi : ¬i < s.calls.length) : s.plan settings.names i = .ahead := by
    rw [Traffic.plan, List.getElem?_eq_none (Nat.le_of_not_lt hi)]
  have hidle (key : CorrelationKey) (i : Nat) : (s.plan settings.names i).key? ≠ some key := by
    by_cases hi : i < s.calls.length
    · obtain ⟨outcome, -, h⟩ := hplan i hi
      rw [h]
      exact fun h => by cases h
    · rw [hlate i hi]
      exact fun h => by cases h
  have hmem (i : Nat) : i ∈ Traffic.grants carrier settings.flow moves (Traffic.start w) ↔
      i < s.calls.length := by
    rw [hs.mem]
    constructor
    · intro hne
      by_contra hi
      exact hne (hlate i hi)
    · intro hi
      obtain ⟨outcome, -, h⟩ := hplan i hi
      rw [h]
      exact fun h => by cases h
  refine ⟨?_, hsound.quiet fun c hc st h => ?_, hs.raised, _, Prod.ext ?_ rfl, ?_⟩
  · refine (List.perm_ext_iff_of_nodup hs.nodup List.nodup_range).mpr fun i => ?_
    rw [hmem, List.mem_range]
  · obtain ⟨r, hr⟩ := hover c hc
    rw [h] at hr
    cases hr
  · exact funext fun key => hs.idle key (hidle key)
  · refine Eq.trans ?_ (congrArg (List.map _) hs.results.symm)
    rw [List.map_map]
    refine List.map_congr_left fun i hi => ?_
    obtain ⟨outcome, hcall, h⟩ := hplan i ((hmem i).mp hi)
    rw [hcall, Function.comp_apply, h]
    rfl

/-- A call that is alone comes to what its message makes of the ledger. -/
theorem Alone.settle (hadvices : settings.advices = []) (honce : settings.idempotent = false)
    (htimeout : settings.lockTimeout = none)
    (hverdict : ∀ channel m, (carrier.send channel m).2 = verdict m) {w v : World κ}
    {m : RawMessage} {result : Except FlowError FlowOutcome} (hw : Quiet settings.names w)
    (hraised : w.desk.raised = false) (hm : settings.Concerns m)
    (h : Alone carrier settings.flow w (.arrived m) v result) :
    Quiet settings.names v ∧ v.desk.raised = false ∧
      w.ledger.settle settings verdict [m] = (v.ledger, [result]) := by
  obtain ⟨moves, hsolitary, hrun⟩ := h.exists_run
  have hmoves : ∀ mv ∈ Move.send m :: moves, mv.Undisturbed settings := by
    intro mv hmv
    rcases List.mem_cons.mp hmv with rfl | hmv
    · exact hm
    · have := hsolitary mv hmv
      cases mv with
      | step | pass => trivial
      | send | drop | interrupt | clear => exact absurd this not_false
  have hsent : sentBy (.send m :: moves) = [m] := by
    refine congrArg (m :: ·) (List.filterMap_eq_nil_iff.mpr fun mv hmv => ?_)
    have := hsolitary mv hmv
    cases mv with
    | send => exact absurd this not_false
    | step | pass | drop | interrupt | clear => rfl
  have hover : ∀ c ∈ [Sending.returned result], ∃ r, c = .returned r :=
    fun c hc => ⟨result, List.mem_singleton.mp hc⟩
  obtain ⟨hperm, hquiet, hraised', results, hsettle, hresults⟩ := settle_of_run hadvices honce
    htimeout hverdict hw hraised hmoves hrun hover
  have hgrants : Traffic.grants carrier settings.flow (.send m :: moves) (Traffic.start w) = [0] :=
    List.perm_singleton.mp hperm
  rw [hgrants] at hsettle hresults
  rw [hsent] at hsettle
  refine ⟨hquiet, hraised', hsettle.trans (congrArg (Prod.mk _) ?_)⟩
  refine List.map_injective_iff.mpr ?_ (hresults.symm.trans rfl)
  exact fun r r' h => Sending.returned.inj (Option.some.inj h)

/-- Calls that are made one after the other come to what their messages make of the ledger. -/
theorem Serially.settle (hadvices : settings.advices = []) (honce : settings.idempotent = false)
    (htimeout : settings.lockTimeout = none)
    (hverdict : ∀ channel m, (carrier.send channel m).2 = verdict m) {w v : World κ}
    {ms : List RawMessage} {results : List (Except FlowError FlowOutcome)}
    (hw : Quiet settings.names w) (hraised : w.desk.raised = false)
    (hms : ∀ m ∈ ms, settings.Concerns m)
    (h : Serially carrier settings.flow w ms v results) :
    Faithful settings.names v ∧ w.ledger.settle settings verdict ms = (v.ledger, results) := by
  induction h with
  | nil => exact ⟨hw.faithful, rfl⟩
  | cons first rest ih =>
    obtain ⟨hquiet, hraised', hfirst⟩ := first.settle hadvices honce htimeout hverdict hw hraised
      (hms _ List.mem_cons_self)
    obtain ⟨hv, hrest⟩ := ih hquiet hraised' fun m hm => hms m (List.mem_cons_of_mem _ hm)
    refine ⟨hv, ?_⟩
    rw [← List.singleton_append, Ledger.settle_append, hfirst, hrest]
    rfl

theorem exists_serially (hadvices : settings.advices = []) (honce : settings.idempotent = false)
    (htimeout : settings.lockTimeout = none)
    (hverdict : ∀ channel m, (carrier.send channel m).2 = verdict m) {ms : List RawMessage}
    (hms : ∀ m ∈ ms, settings.Concerns m) {w : World κ} (hw : Quiet settings.names w)
    (hraised : w.desk.raised = false) :
    ∃ v results, Serially carrier settings.flow w ms v results := by
  induction ms generalizing w with
  | nil => exact ⟨w, [], .nil⟩
  | cons m ms ih =>
    obtain ⟨v, result, first⟩ : Returns carrier settings.flow w (.arrived m) :=
      returns_arrived hadvices hw hraised m
    obtain ⟨hquiet, hraised', -⟩ := first.settle hadvices honce htimeout hverdict hw hraised
      (hms m List.mem_cons_self)
    obtain ⟨u, results, rest⟩ := ih (fun o ho => hms o (List.mem_cons_of_mem _ ho)) hquiet hraised'
    exact ⟨u, result :: results, .cons first rest⟩

end

/-! ## Waiting calls -/

/-- A call that waits for a lock stands in its queue, or is about to. -/
theorem Flow.Stage.post_of_awaits {names : HeaderNames} {st : Flow.Stage} {lk : String}
    (h : st.awaits lk) : (st.station names).post = .away ∨
      ∃ t, (st.station names).post = .queued lk t := by
  cases st with
  | arrived | rejecting => exact absurd h not_false
  | handling since call =>
    obtain ⟨stage, frames⟩ := call
    cases stage with
    | enter | leave => exact absurd h not_false
    | reconciling r key m rest g =>
      obtain ⟨rfl, hg⟩ := h
      cases g with
      | lining => exact Or.inl rfl
      | queued t since => exact Or.inr ⟨t, rfl⟩
      | asking | givingUp | inside | leaving => cases hg
    | aggregating a key m g =>
      obtain ⟨rfl, hg⟩ := h
      cases g with
      | lining => exact Or.inl rfl
      | queued t since => exact Or.inr ⟨t, rfl⟩
      | asking | givingUp | inside | leaving => cases hg

/-- A call that waits for a lock holds none: every lock that is taken is held by another call. -/
theorem Sound.holds_of_waits {names : HeaderNames} {s : Traffic κ} (hs : Sound names s) {i : Nat}
    {lk : String} (h : s.Waits names i lk) (other : String) : ¬s.Holds names i other ∧
      ((s.world.desk.table.lock other).holder ≠ none → ∃ j, j ≠ i ∧ s.Holds names j other) := by
  obtain ⟨⟨st, hst, hawaits⟩, hnot⟩ := h
  have hstation : s.station names i = st.station names :=
    Traffic.station_of_call (Traffic.call_of_stage? hst)
  have hnone : ¬s.Holds names i other := by
    rintro ⟨t, ht, hholder⟩
    rw [hstation] at ht
    rcases Flow.Stage.post_of_awaits hawaits with hpost | ⟨u, hpost⟩
    · rw [hpost] at ht
      cases ht
    · rw [hpost] at ht
      obtain ⟨rfl, rfl⟩ : lk = other ∧ u = t := by simpa [Post.ticket?] using ht
      refine hnot ⟨u, ?_, hholder⟩
      rw [hstation, hpost]
      rfl
  refine ⟨hnone, fun htaken => ?_⟩
  obtain ⟨t, hholder⟩ := Option.ne_none_iff_exists'.mp htaken
  obtain ⟨j, hj⟩ := hs.custody.held hholder
  refine ⟨j, ?_, t, hj, hholder⟩
  rintro rfl
  exact hnone ⟨t, hj, hholder⟩

/-! ## Serialisability -/

/-- Messages that were sent in undisturbed traffic need a lock. -/
theorem concerns_of_undisturbed {settings : FlowSettings} {moves : List Move}
    (hmoves : ∀ mv ∈ moves, mv.Undisturbed settings) (order : List Nat) :
    ∀ m ∈ messagesOf (sentBy moves) order, settings.Concerns m := by
  intro m hm
  obtain ⟨i, -, hi⟩ := List.mem_filterMap.mp hm
  obtain ⟨mv, hmv, hsent⟩ := List.mem_filterMap.mp (List.mem_of_getElem? hi)
  have hundisturbed := hmoves mv hmv
  cases mv with
  | send o =>
    obtain rfl : o = m := Option.some.inj hsent
    exact hundisturbed
  | step | drop | pass | interrupt | clear => cases hsent

/-- Undisturbed traffic of any number of calls, whose steps interleave in any way.  A call that
waits for a lock holds none, every lock that is taken being held by another call.  And when all
calls have returned, each was granted a lock once, and the calls can be made one after the other in
the order of the grants; however this is done, every call returns what it returned, the same
messages are pending under every key, and the same outputs were accepted for every key. -/
theorem serialisable {settings : FlowSettings} (hadvices : settings.advices = [])
    (honce : settings.idempotent = false) (htimeout : settings.lockTimeout = none)
    {carrier : Carrier κ} {verdict : RawMessage → Except ChannelError Unit}
    (hverdict : ∀ channel m, (carrier.send channel m).2 = verdict m) {w : World κ}
    (hw : Quiet settings.names w) (hraised : w.desk.raised = false) {moves : List Move}
    (hmoves : ∀ mv ∈ moves, mv.Undisturbed settings) {s : Traffic κ}
    (hrun : Traffic.run carrier settings.flow moves (Traffic.start w) = some s) :
    (∀ i lk, s.Waits settings.names i lk → ∀ other, ¬s.Holds settings.names i other ∧
      ((s.world.desk.table.lock other).holder ≠ none →
        ∃ j, j ≠ i ∧ s.Holds settings.names j other)) ∧
    ((∀ c ∈ s.calls, ∃ r, c = .returned r) →
      (Traffic.grants carrier settings.flow moves (Traffic.start w)).Perm
        (List.range s.calls.length) ∧
      (∃ v results, Serially carrier settings.flow w (messagesOf (sentBy moves)
        (Traffic.grants carrier settings.flow moves (Traffic.start w))) v results) ∧
      ∀ v results, Serially carrier settings.flow w (messagesOf (sentBy moves)
          (Traffic.grants carrier settings.flow moves (Traffic.start w))) v results →
        (Traffic.grants carrier settings.flow moves (Traffic.start w)).map (fun i => s.calls[i]?) =
          results.map (fun r => some (.returned r)) ∧
        (∀ key, s.world.groups.messages key = v.groups.messages key) ∧
        ∀ key, outputs (fun k => k = key) s.world.history =
          outputs (fun k => k = key) v.history) := by
  have hstandard : settings.flow.Standard settings.names :=
    FlowSettings.flow_standard_of_nil hadvices
  have hsound : Sound settings.names s := hw.sound.run hstandard hrun
  refine ⟨fun i lk h => hsound.holds_of_waits h, fun hover => ?_⟩
  obtain ⟨hperm, -, -, results, hsettle, hresults⟩ := settle_of_run hadvices honce htimeout hverdict
    hw hraised hmoves hrun hover
  have hms := concerns_of_undisturbed hmoves
    (Traffic.grants carrier settings.flow moves (Traffic.start w))
  refine ⟨hperm, exists_serially hadvices honce htimeout hverdict hms hw hraised, ?_⟩
  intro v results' hserial
  obtain ⟨hv, hsettle'⟩ := hserial.settle hadvices honce htimeout hverdict hw hraised hms
  have hsame : (s.world.ledger, results) = (v.ledger, results') := hsettle.symm.trans hsettle'
  have haccount (key : CorrelationKey) :
      account (fun k => k = key) key s.world.history = account (fun k => k = key) key v.history :=
    congrFun (congrArg Prod.fst hsame) key
  refine ⟨?_, fun key => ?_, fun key => congrArg Account.outputs (haccount key)⟩
  · rw [hresults, show results = results' from congrArg Prod.snd hsame]
  · rw [hsound.faithful.pages, hv.pages]
    exact congrArg Account.messages (haccount key)

def Sending.hasReturned : Sending → Bool
  | .returned _ => true
  | _ => false

set_option maxRecDepth 100000 in
/-- A payment is made while an execution that waits for it is announced: the payment gets the lock
first, and the announcement dispatches it. -/
theorem serialisable_overtaken : ∃ s : Traffic (List RawMessage), ∃ v results,
    Serially Carrier.taker (FlowSettings.flow { idempotent := false })
      (.start [] ⟨Stamp.start2025, 1⟩ (.ofCapacity 10) (.ofSize 10 "errors"))
      [orderSent 2, orderAwaited 1] v results ∧
    [1, 0].map (fun i => s.calls[i]?) = results.map (fun r => some (.returned r)) ∧
    (∀ key, s.world.groups.messages key = v.groups.messages key) ∧
    ∀ key, outputs (fun k => k = key) s.world.history =
      outputs (fun k => k = key) v.history := by
  let settings : FlowSettings := { idempotent := false }
  let w : World (List RawMessage) :=
    .start [] ⟨Stamp.start2025, 1⟩ (.ofCapacity 10) (.ofSize 10 "errors")
  let moves : List Move := [.send (orderAwaited 1), .send (orderSent 2)] ++
    .replicate 5 (.step 1) ++ .replicate 5 (.step 0) ++ .replicate 4 (.step 1) ++
    .replicate 5 (.step 0) ++ [.pass 5] ++ .replicate 6 (.step 0)
  have hrun : (Traffic.run Carrier.taker settings.flow moves (Traffic.start w)).any
      (fun s => s.calls.all Sending.hasReturned) = true := by decide +kernel
  have hgrants : Traffic.grants Carrier.taker settings.flow moves (Traffic.start w) = [1, 0] := by
    decide +kernel
  have hmoves : ∀ mv ∈ moves, mv.Undisturbed settings := by decide +kernel
  obtain ⟨s, hs, hall⟩ := (Option.any_eq_true _ _).mp hrun
  have hover : ∀ c ∈ s.calls, ∃ r, c = .returned r := by
    intro c hc
    have := List.all_eq_true.mp hall c hc
    cases c with
    | returned r => exact ⟨r, rfl⟩
    | running | dropped => cases this
  have hverdict : ∀ channel m, (Carrier.taker.send channel m).2 = (fun _ => .ok ()) m :=
    fun _ _ => rfl
  have hquiet : Quiet settings.names w := Quiet.start _ _ _ _ _
  obtain ⟨-, ⟨v, results, hserial⟩, hsame⟩ :=
    (serialisable rfl rfl rfl hverdict hquiet rfl hmoves hs).2 hover
  have hresults := hsame v results hserial
  rw [hgrants] at hserial hresults
  exact ⟨s, v, results, hserial, hresults⟩

end Rendezvous
