/-
Operations under locks, any number of them at once.

A call asks for the lock of its key, runs an operation when it gets it, and gives it back.  A crowd
is a world with the calls that were made in it.  What an operation does next is up to the move that
lets it go on, so a run of moves stands for any operations, in any order of their steps: they change
everything but the locks, and end well, with an error of their own, or in a panic.  A call may be
dropped wherever it waits, and within its operation.

`Turn` says once what a call can do at the desk of the locks.  From it comes that the crowd stays in
order (`InOrder`), and that what a call came back with agrees with what it did on its way.
`template_safe` puts this together.
-/
import Rendezvous.Proofs.Station

namespace Rendezvous

/-- How an operation ended. -/
inductive Ending (ε α : Type) where
  | ok (value : α)
  | error (cause : ε)
  | panicked

/-- What a call comes back with. -/
inductive Answer (ε α : Type) where
  | done (value : α)
  /-- the lock was not had in time -/
  | skipped
  /-- the operation failed -/
  | failed (cause : ε)
  /-- the lock was not had, and that is a failure -/
  | refused (cause : LockError)
  | panicked
deriving DecidableEq

/-- What an operation ended with is what its call comes back with. -/
def Ending.answer {ε α : Type} : Ending ε α → Answer ε α
  | ok value => .done value
  | error cause => .failed cause
  | panicked => .panicked

/-- The call did not get its lock. -/
inductive Answer.Denied {ε α : Type} : Answer ε α → Prop
  | skipped : Denied .skipped
  | refused (cause : LockError) : Denied (.refused cause)

theorem Ending.not_denied {ε α : Type} (r : Ending ε α) : ¬r.answer.Denied := by
  intro h
  cases r <;> cases h

/-- The longest time there is. -/
def Span.longest : Span := .ofParts (Nat.pow 2 64 - 1) 999999999

/-- What a call comes back with; to one that waits without a limit it is a failure not to get its
lock. -/
def Patience.answer {ε α : Type} (p : Patience) (key : String) :
    Entry (Ending ε α) → Answer ε α
  | .ran r => r.answer
  | .refused cause => .refused cause
  | .skipped => if p = .unbounded then .refused (.unavailable key Span.longest) else .skipped

variable {κ σ ρ ε α : Type}

/-- What an operation does next; it leaves the locks alone. -/
structure Doing (κ σ ρ : Type) where
  step : World κ → σ → Progress (World κ) σ ρ
  desk : ∀ w s, (step w s).Ensures (fun w' _ => w'.desk = w.desk) fun w' _ => w'.desk = w.desk

/-- Whether work under a lock may be dropped here: wherever it waits, and within its operation. -/
def Guarded.mayDrop : Guarded σ ρ → Bool
  | .asking => true
  | g => g.suspends fun _ => true

/-- What became of a call so far. -/
inductive Whereabouts (σ ρ : Type) where
  | running (stage : Guarded σ ρ)
  | returned (entry : Entry ρ)
  | dropped

/-- A call: its key, how long it waits, where its operation starts, and what became of it. -/
structure Visit (σ ρ : Type) where
  key : String
  patience : Patience
  start : σ
  state : Whereabouts σ ρ

/-- What a step makes of a world and the call that takes it. -/
def Whereabouts.after? :
    Progress (World κ) (Guarded σ ρ) (Entry ρ) → Option (World κ × Whereabouts σ ρ)
  | .waits _ => none
  | .goes w g => some (w, .running g)
  | .pauses w g => some (w, .running g)
  | .resumes w g => some (w, .running g)
  | .ends w e => some (w, .returned e)

theorem Whereabouts.of_after? {R : World κ → Whereabouts σ ρ → Prop} {w : World κ}
    {st : Whereabouts σ ρ} {p : Progress (World κ) (Guarded σ ρ) (Entry ρ)}
    (h : p.Ensures (fun w g => R w (.running g)) fun w e => R w (.returned e))
    (hp : after? p = some (w, st)) : R w st := by
  cases p with
  | waits => simp [after?] at hp
  | goes w g => obtain ⟨rfl, rfl⟩ : _ ∧ _ := by simpa [after?] using hp
                exact h
  | pauses w g => obtain ⟨rfl, rfl⟩ : _ ∧ _ := by simpa [after?] using hp
                  exact h
  | resumes w g => obtain ⟨rfl, rfl⟩ : _ ∧ _ := by simpa [after?] using hp
                   exact h
  | ends w e => obtain ⟨rfl, rfl⟩ : _ ∧ _ := by simpa [after?] using hp
                exact h

theorem Desk.check_ne_late {d : Desk} {key : String} {t : Ticket} {now : Nat} :
    (d.check key t none now).2 ≠ .late := by
  unfold check
  split
  · simp
  · split <;> simp

namespace Visit

def step? (v : Visit σ ρ) (doing : Doing κ σ ρ) (w : World κ) :
    Option (World κ × Whereabouts σ ρ) :=
  match v.state with
  | .running g => Whereabouts.after? (g.step v.key v.patience v.start doing.step w)
  | _ => none

def drop? (v : Visit σ ρ) (w : World κ) : Option (World κ) :=
  match v.state with
  | .running g => if g.mayDrop then some (g.abandon v.key w) else none
  | _ => none

def answer? (v : Visit σ (Ending ε α)) : Option (Answer ε α) :=
  match v.state with
  | .returned e => some (v.patience.answer v.key e)
  | _ => none

theorem answer?_eq_some {v : Visit σ (Ending ε α)} {a : Answer ε α} (h : v.answer? = some a) :
    ∃ e, v.state = .returned e ∧ a = v.patience.answer v.key e := by
  unfold answer? at h
  split at h
  · next e he => exact ⟨e, he, (Option.some.inj h).symm⟩
  · cases h

/-- Where a call stands towards the locks. -/
def post (v : Visit σ ρ) : Post :=
  match v.state with
  | .running (.queued t _) => .queued v.key t
  | .running (.inside t _) => .inside v.key t
  | .running (.leaving t _) => .inside v.key t
  | _ => .away

/-! ## What a call can do -/

/-- What one step of a call, or that it is dropped, makes of the desk and of the call. -/
inductive Turn (d : Desk) (v : Visit σ ρ) : Desk → Whereabouts σ ρ → Prop
  | takes {d' s} (state : v.state = .running .asking) (free : (d.table.lock v.key).holder = none)
      (change : d.Change d' v.key ⟨some d.issued, (d.table.lock v.key).queue⟩ (d.issued + 1)) :
      Turn d v d' (.running (.inside d.issued s))
  | turnsAway {d' e} (state : v.state = .running .asking)
      (change : d.Change d' v.key (d.table.lock v.key) d.issued)
      (entry : e = .refused (.interrupted v.key) ∨ v.patience = .never ∧ e = .skipped) :
      Turn d v d' (.returned e)
  | hesitates {d'} (state : v.state = .running .asking)
      (change : d.Change d' v.key (d.table.lock v.key) d.issued) :
      Turn d v d' (.running .lining)
  | finds {d' since} (state : v.state = .running .lining)
      (free : (d.table.lock v.key).holder = none)
      (change : d.Change d' v.key ⟨some d.issued, (d.table.lock v.key).queue⟩ (d.issued + 1)) :
      Turn d v d' (.running (.queued d.issued since))
  | linesUp {d' since} (state : v.state = .running .lining)
      (taken : (d.table.lock v.key).holder ≠ none)
      (change : d.Change d' v.key
        ⟨(d.table.lock v.key).holder, (d.table.lock v.key).queue ++ [d.issued]⟩ (d.issued + 1)) :
      Turn d v d' (.running (.queued d.issued since))
  | enters {t since s} (state : v.state = .running (.queued t since))
      (handed : (d.table.lock v.key).holder = some t) : Turn d v d (.running (.inside t s))
  | givesUp {t since interrupted} (state : v.state = .running (.queued t since))
      (vain : interrupted = false → v.patience ≠ .unbounded) :
      Turn d v (d.leave v.key t) (.running (.givingUp interrupted))
  | returns {interrupted e} (state : v.state = .running (.givingUp interrupted))
      (entry : e = if interrupted then .refused (.interrupted v.key) else .skipped) :
      Turn d v d (.returned e)
  | works {t s s'} (state : v.state = .running (.inside t s)) :
      Turn d v d (.running (.inside t s'))
  | finishes {t s r} (state : v.state = .running (.inside t s)) :
      Turn d v d (.running (.leaving t r))
  | leaves {t r} (state : v.state = .running (.leaving t r)) :
      Turn d v (d.leave v.key t) (.returned (.ran r))
  | dropsOut {g t} (state : v.state = .running g) (may : g.mayDrop = true)
      (ticket : g.ticket? = some t) : Turn d v (d.leave v.key t) .dropped
  | drops {g} (state : v.state = .running g) (may : g.mayDrop = true)
      (ticket : g.ticket? = none) : Turn d v d .dropped

variable {d d' : Desk} {v : Visit σ ρ} {st : Whereabouts σ ρ} {w w' : World κ}

theorem turn_of_step {doing : Doing κ σ ρ} (h : v.step? doing w = some (w', st)) :
    v.Turn w.desk w'.desk st := by
  unfold step? at h
  split at h
  · next g hg =>
    refine Whereabouts.of_after? (R := fun w' st => v.Turn w.desk w'.desk st) ?_ h
    cases g with
    | asking =>
      rw [Guarded.step]
      obtain ⟨d', hreq, hfree, hchange⟩ | ⟨d', answer, hreq, hanswer, hchange⟩ :=
        w.desk.request_spec v.key v.patience
      · rw [hreq]
        exact .takes hg hfree hchange
      · rw [hreq]
        rcases hanswer with rfl | rfl
        · dsimp only
          split
          · next hnever => exact .turnsAway hg hchange (Or.inr ⟨hnever, rfl⟩)
          · exact .hesitates hg hchange
        · exact .turnsAway hg hchange (Or.inl rfl)
    | lining =>
      rw [Guarded.step]
      by_cases hfree : (w.desk.table.lock v.key).holder = none
      · rw [Desk.lineUp, if_pos (by simp [LockTable.isFree, hfree])]
        exact .finds hg hfree (w.desk.change_grant v.key)
      · rw [Desk.lineUp, if_neg (by simp [LockTable.isFree, hfree])]
        exact .linesUp hg hfree (w.desk.change_enqueue v.key)
    | queued t since =>
      rw [Guarded.step]
      obtain ⟨hc, hh⟩ | hc | hc | hc :=
        w.desk.check_spec v.key t (v.patience.deadline since) w.now
      · rw [hc]
        exact .enters hg hh
      · rw [hc]
        exact .givesUp hg fun h => by cases h
      · rw [hc]
        refine .givesUp hg fun _ hunbounded => ?_
        rw [hunbounded] at hc
        exact Desk.check_ne_late (congrArg Prod.snd hc)
      · rw [hc]
        trivial
    | givingUp interrupted =>
      rw [Guarded.step, Guarded.refuse]
      split
      · next hi => exact .returns hg (by rw [if_pos hi])
      · next hi => exact .returns hg (by rw [if_neg hi])
    | inside t s =>
      rw [Guarded.step, Progress.ensures_andThen]
      refine (doing.desk w s).mono (fun w' s' hd => ?_) fun w' r hd => ?_
      · rw [hd]
        exact .works hg
      · show v.Turn w.desk w'.desk (.running (.leaving t r))
        rw [hd]
        exact .finishes hg
    | leaving t r => exact .leaves hg
  · cases h

theorem turn_of_drop (h : v.drop? w = some w') : v.Turn w.desk w'.desk .dropped := by
  unfold drop? at h
  split at h
  · next g hg =>
    by_cases hmay : g.mayDrop = true
    · rw [if_pos hmay] at h
      obtain rfl := Option.some.inj h
      unfold Guarded.abandon
      cases ht : g.ticket? with
      | none => exact .drops hg hmay ht
      | some t => exact .dropsOut hg hmay ht
    · rw [if_neg hmay] at h
      cases h
  · cases h

theorem post_of_ticket? {g : Guarded σ ρ} {t : Ticket} (hg : v.state = .running g)
    (ht : g.ticket? = some t) : v.post.ticket? = some (v.key, t) := by
  unfold post
  rw [hg]
  cases g <;> simp_all [Guarded.ticket?, Post.ticket?]

theorem post_of_no_ticket {g : Guarded σ ρ} (hg : v.state = .running g)
    (ht : g.ticket? = none) : v.post = .away := by
  unfold post
  rw [hg]
  cases g <;> simp_all [Guarded.ticket?]

/-- What a call can do is a dealing at the desk. -/
theorem Turn.dealing (h : v.Turn d d' st) : Dealing d v.post d' { v with state := st }.post := by
  have hsame : d.Change d v.key (d.table.lock v.key) d.issued := d.change_rfl v.key
  cases h with
  | takes state free change =>
    rw [post_of_no_ticket state rfl]
    exact .take v.key free change (Or.inr rfl)
  | turnsAway state change entry =>
    rw [post_of_no_ticket state rfl]
    exact .rest v.key change
  | hesitates state change =>
    rw [post_of_no_ticket state rfl]
    exact .rest v.key change
  | finds state free change =>
    rw [post_of_no_ticket state rfl]
    exact .take v.key free change (Or.inl rfl)
  | linesUp state taken change =>
    rw [post_of_no_ticket state rfl]
    exact .line v.key change
  | enters state handed =>
    rw [show v.post = .queued v.key _ by rw [post, state]]
    exact .enter handed hsame
  | givesUp state vain => exact .leave (post_of_ticket? state rfl) (d.change_leave v.key _)
  | returns state entry =>
    rw [post_of_no_ticket state rfl]
    exact .rest v.key hsame
  | works state | finishes state =>
    rw [show v.post = .inside v.key _ by rw [post, state]]
    exact .rest v.key hsame
  | leaves state => exact .leave (post_of_ticket? state rfl) (d.change_leave v.key _)
  | dropsOut state may ticket =>
    exact .leave (post_of_ticket? state ticket) (d.change_leave v.key _)
  | drops state may ticket =>
    rw [post_of_no_ticket state ticket]
    exact .rest v.key hsame

end Visit

/-- A party ceases to hold a lock only by giving it up, and then it is passed on. -/
theorem Custody.passed {d d' : Desk} {post post' : Nat → Post} {i j : Nat} {p : Post}
    {key : String} {t : Ticket} (h : Custody d post) (hd : Dealing d (post j) d' p)
    (hp : ∀ k, post' k = if k = j then p else post k)
    (hi : (post i).ticket? = some (key, t)) (hh : (d.table.lock key).holder = some t)
    (hi' : (post' i).ticket? = some (key, t) → (d'.table.lock key).holder ≠ some t) :
    d'.table.lock key = (d.table.lock key).pass := by
  by_cases hij : i = j
  · -- the party itself dealt
    subst hij
    rw [hp, if_pos rfl] at hi'
    generalize hq : post i = q at hd hi
    cases hd with
    | rest other change => exact absurd (change.same key ▸ hh) (hi' hi)
    | take | line => cases hi
    | enter handed change => exact absurd (change.same key ▸ hh) (hi' hi)
    | @leave _ _ other u place change =>
      obtain ⟨rfl, rfl⟩ : other = key ∧ u = t := by simpa using place.symm.trans hi
      rw [change.self, KeyLock.forget_of_holder hh]
  · -- another party cannot take the lock away
    refine absurd ?_ (hi' (by rw [hp, if_neg hij]; exact hi))
    generalize hq : post j = q at hd
    cases hd with
    | rest other change | enter handed change =>
      rw [change.same]
      exact hh
    | take other free change post =>
      rw [change.other, hh]
      rintro rfl
      rw [hh] at free
      cases free
    | line other change =>
      rw [change.lock]
      split
      · next ho => exact ho ▸ hh
      · exact hh
    | @leave _ _ other u place change =>
      rw [change.lock]
      split
      · next ho =>
        subst ho
        refine KeyLock.holder_forget_of_ne ?_ hh
        rintro rfl
        exact hij (h.apart hi (hq ▸ place))
      · exact hh

/-! ## A free lock has nobody in its queue -/

theorem KeyLock.queue_forget {l : KeyLock} (t : Ticket)
    (hl : l.holder = none → l.queue = []) :
    (l.forget t).holder = none → (l.forget t).queue = [] := by
  intro h
  by_cases hh : l.holder = some t
  · rw [forget_of_holder hh, pass] at h ⊢
    cases hq : l.queue with
    | nil => rfl
    | cons next rest => simp [hq] at h
  · rw [forget_of_ne hh] at h ⊢
    show l.queue.filter _ = []
    rw [hl h, List.filter_nil]

/-- Nobody waits for a lock that is free. -/
def Desk.Tended (d : Desk) : Prop :=
  ∀ key, (d.table.lock key).holder = none → (d.table.lock key).queue = []

namespace Desk.Tended

variable {d d' : Desk} {key : String} {l : KeyLock} {n : Nat}

theorem change (h : d.Tended) (hd : d.Change d' key l n) (hl : l.holder = none → l.queue = []) :
    d'.Tended := by
  intro other
  by_cases ho : other = key
  · rw [ho, hd.self]
    exact hl
  · rw [hd.other ho]
    exact h other

theorem leave (h : d.Tended) (key : String) (t : Ticket) : (d.leave key t).Tended :=
  h.change (d.change_leave key t) (KeyLock.queue_forget t (h key))

theorem turn {v : Visit σ ρ} {st : Whereabouts σ ρ} (h : d.Tended) (ht : v.Turn d d' st) :
    d'.Tended := by
  cases ht with
  | takes state free change | finds state free change => exact h.change change fun h => by cases h
  | turnsAway state change entry => exact h.change change (h _)
  | hesitates state change => exact h.change change (h _)
  | linesUp state taken change => exact h.change change fun hfree => absurd hfree taken
  | givesUp | leaves | dropsOut => exact h.leave _ _
  | enters | returns | works | finishes | drops => exact h

end Desk.Tended

/-! ## What a call has behind it -/

namespace Whereabouts

/-- The operation was begun, or the call is gone. -/
inductive Begun : Whereabouts σ ρ → Prop
  | inside (t s) : Begun (.running (.inside t s))
  | leaving (t r) : Begun (.running (.leaving t r))
  | ran (r) : Begun (.returned (.ran r))
  | dropped : Begun .dropped

/-- The operation ended with `r`. -/
inductive Ended (r : ρ) : Whereabouts σ ρ → Prop
  | leaving (t) : Ended r (.running (.leaving t r))
  | ran : Ended r (.returned (.ran r))

theorem Begun.answer {v : Visit σ (Ending ε α)} {a : Answer ε α} (h : v.state.Begun)
    (ha : v.answer? = some a) : ∃ r : Ending ε α, a = r.answer := by
  obtain ⟨e, he, rfl⟩ := Visit.answer?_eq_some ha
  rw [he] at h
  cases h with
  | ran r => exact ⟨r, rfl⟩

theorem Ended.answer {v : Visit σ (Ending ε α)} {r : Ending ε α} (h : v.state.Ended r) :
    (∃ t, v.state = .running (.leaving t r)) ∨ v.answer? = some r.answer := by
  unfold Visit.answer?
  generalize v.state = st at h
  cases h with
  | leaving t => exact Or.inl ⟨t, rfl⟩
  | ran => exact Or.inr rfl

/-- What a call knows if it comes back without having run its operation. -/
def Honest (key : String) (p : Patience) : Whereabouts σ ρ → Prop
  | .running (.givingUp false) => p ≠ .unbounded
  | .returned .skipped => p ≠ .unbounded
  | .returned (.refused cause) => cause = .interrupted key
  | _ => True

end Whereabouts

theorem Whereabouts.Honest.available {v : Visit σ (Ending ε α)} {key : String} {timeout : Span}
    (h : v.state.Honest v.key v.patience) (hv : v.patience = .unbounded) :
    v.answer? ≠ some (.refused (.unavailable key timeout)) := by
  intro ha
  obtain ⟨e, he, ha⟩ := Visit.answer?_eq_some ha
  rw [he] at h
  cases e with
  | ran r =>
    have hr : Answer.refused (.unavailable key timeout) = r.answer := ha
    exact r.not_denied (hr ▸ .refused _)
  | skipped => exact h hv
  | refused cause =>
    obtain rfl : cause = .interrupted v.key := h
    cases ha

namespace Visit.Turn

variable {d d' : Desk} {v : Visit σ ρ} {st : Whereabouts σ ρ}

theorem begun (h : v.Turn d d' st) (hv : v.state.Begun) : st.Begun := by
  cases h with
  | takes state | turnsAway state | hesitates state | finds state | linesUp state
  | enters state | givesUp state | returns state =>
    rw [state] at hv
    cases hv
  | works => exact .inside _ _
  | finishes => exact .leaving _ _
  | leaves => exact .ran _
  | dropsOut | drops => exact .dropped

theorem ended {r : ρ} (h : v.Turn d d' st) (hv : v.state.Ended r) : st.Ended r := by
  cases h with
  | takes state | turnsAway state | hesitates state | finds state | linesUp state
  | enters state | givesUp state | returns state | works state | finishes state =>
    rw [state] at hv
    cases hv
  | leaves state =>
    rw [state] at hv
    cases hv with
    | leaving => exact .ran
  | dropsOut state may | drops state may =>
    -- a call on its way out waits for nothing
    rw [state] at hv
    cases hv with
    | leaving => cases may

theorem honest (h : v.Turn d d' st) (hv : v.state.Honest v.key v.patience) :
    st.Honest v.key v.patience := by
  cases h with
  | turnsAway state change entry =>
    rcases entry with rfl | ⟨hnever, rfl⟩
    · exact rfl
    · show v.patience ≠ .unbounded
      rw [hnever]
      exact fun h => by cases h
  | @givesUp t since interrupted state vain =>
    cases interrupted with
    | true => trivial
    | false => exact vain rfl
  | @returns interrupted e state entry =>
    rw [state] at hv
    subst entry
    cases interrupted with
    | true => exact rfl
    | false => exact hv
  | takes | hesitates | finds | linesUp | enters | works | finishes | leaves | dropsOut | drops =>
    trivial

end Visit.Turn

/-! ## Crowds -/

/-- A world with the calls in it, in the order they were made. -/
structure Crowd (κ σ ρ : Type) where
  world : World κ
  visits : List (Visit σ ρ)

namespace Crowd

/-- Something that happens to a crowd. -/
inductive Move (κ σ ρ : Type) where
  | call (key : String) (patience : Patience) (start : σ)
  /-- a call takes its next step, its operation going on as it is told -/
  | step (visit : Nat) (doing : Doing κ σ ρ)
  | drop (visit : Nat)
  /-- it becomes later -/
  | pass (now : Nat)
  | interrupt
  | clear

def start (w : World κ) : Crowd κ σ ρ := ⟨w, []⟩

def put (s : Crowd κ σ ρ) (i : Nat) (w : World κ) (v : Visit σ ρ) : Crowd κ σ ρ :=
  ⟨w, s.visits.set i v⟩

/-- Makes a move, if it can be made. -/
def move (s : Crowd κ σ ρ) : Move κ σ ρ → Option (Crowd κ σ ρ)
  | .call key p start => some ⟨s.world, s.visits ++ [⟨key, p, start, .running .asking⟩]⟩
  | .step i doing =>
    s.visits[i]?.bind fun v =>
      (v.step? doing s.world).map fun after => s.put i after.1 { v with state := after.2 }
  | .drop i =>
    s.visits[i]?.bind fun v =>
      (v.drop? s.world).map fun w => s.put i w { v with state := .dropped }
  | .pass now => if s.world.now ≤ now then some ⟨s.world.setTime now, s.visits⟩ else none
  | .interrupt => some ⟨{ s.world with desk := s.world.desk.interrupt }, s.visits⟩
  | .clear => some ⟨{ s.world with desk := s.world.desk.clear }, s.visits⟩

def run : List (Move κ σ ρ) → Crowd κ σ ρ → Option (Crowd κ σ ρ)
  | [], s => some s
  | mv :: rest, s => (s.move mv).bind (run rest)

/-- What a move does to a crowd. -/
inductive Moved (s : Crowd κ σ ρ) : Crowd κ σ ρ → Prop
  | turns {i v w st} (visit : s.visits[i]? = some v) (turn : v.Turn s.world.desk w.desk st) :
      Moved s (s.put i w { v with state := st })
  | calls (key p start) : Moved s ⟨s.world, s.visits ++ [⟨key, p, start, .running .asking⟩]⟩
  | quiet {w : World κ} (table : w.desk.table = s.world.desk.table)
      (issued : w.desk.issued = s.world.desk.issued) : Moved s ⟨w, s.visits⟩

variable {s s' t : Crowd κ σ ρ} {mv : Move κ σ ρ} {moves : List (Move κ σ ρ)}

theorem step_of_move {i : Nat} {doing : Doing κ σ ρ} (h : s.move (.step i doing) = some s') :
    ∃ v w st, s.visits[i]? = some v ∧ v.step? doing s.world = some (w, st) ∧
      s' = s.put i w { v with state := st } := by
  obtain ⟨v, hv, h⟩ := Option.bind_eq_some_iff.mp h
  obtain ⟨⟨w, st⟩, hstep, rfl⟩ := Option.map_eq_some_iff.mp h
  exact ⟨v, w, st, hv, hstep, rfl⟩

theorem drop_of_move {i : Nat} (h : s.move (.drop i) = some s') :
    ∃ v w, s.visits[i]? = some v ∧ v.drop? s.world = some w ∧
      s' = s.put i w { v with state := .dropped } := by
  obtain ⟨v, hv, h⟩ := Option.bind_eq_some_iff.mp h
  obtain ⟨w, hdrop, rfl⟩ := Option.map_eq_some_iff.mp h
  exact ⟨v, w, hv, hdrop, rfl⟩

theorem pass_of_move {now : Nat} (h : s.move (.pass now) = some s') :
    s' = ⟨s.world.setTime now, s.visits⟩ := by
  by_cases hle : s.world.now ≤ now
  · rw [show s.move (.pass now) = _ from if_pos hle] at h
    exact (Option.some.inj h).symm
  · rw [show s.move (.pass now) = _ from if_neg hle] at h
    cases h

theorem moved_of_move (h : s.move mv = some s') : s.Moved s' := by
  cases mv with
  | call key p start =>
    obtain rfl := Option.some.inj h
    exact .calls key p start
  | step i doing =>
    obtain ⟨v, w, st, hv, hstep, rfl⟩ := step_of_move h
    exact .turns hv (Visit.turn_of_step hstep)
  | drop i =>
    obtain ⟨v, w, hv, hdrop, rfl⟩ := drop_of_move h
    exact .turns hv (Visit.turn_of_drop hdrop)
  | pass now =>
    obtain rfl := pass_of_move h
    exact .quiet rfl rfl
  | interrupt | clear =>
    obtain rfl := Option.some.inj h
    exact .quiet rfl rfl

theorem getElem?_put {i : Nat} {v v' : Visit σ ρ} {w : World κ} (hi : s.visits[i]? = some v)
    (j : Nat) : (s.put i w v').visits[j]? = if j = i then some v' else s.visits[j]? := by
  have hlt : i < s.visits.length := (List.getElem?_eq_some_iff.mp hi).1
  show (s.visits.set i v')[j]? = _
  rw [List.getElem?_set]
  by_cases hij : i = j
  · subst hij
    simp [hlt]
  · rw [if_neg hij, if_neg (Ne.symm hij)]

theorem getElem?_call (s : Crowd κ σ ρ) (v : Visit σ ρ) (j : Nat) :
    (s.visits ++ [v])[j]? = if j = s.visits.length then some v else s.visits[j]? := by
  rw [List.getElem?_append]
  by_cases hj : j < s.visits.length
  · rw [if_pos hj, if_neg (Nat.ne_of_lt hj)]
  · rw [if_neg hj]
    by_cases he : j = s.visits.length
    · rw [if_pos he, he, Nat.sub_self]
      rfl
    · have hle : [v].length ≤ j - s.visits.length := by
        show 1 ≤ j - s.visits.length
        omega
      rw [if_neg he, List.getElem?_eq_none hle, List.getElem?_eq_none (Nat.le_of_not_lt hj)]

/-- What every move keeps holds after every run. -/
theorem inv_of_run {I : Crowd κ σ ρ → Prop} (hmove : ∀ s s', I s → s.Moved s' → I s')
    (h : run moves s = some s') (hs : I s) : I s' := by
  induction moves generalizing s with
  | nil => exact Option.some.inj h ▸ hs
  | cons mv rest ih =>
    obtain ⟨t, ht, h⟩ := Option.bind_eq_some_iff.mp h
    exact ih h (hmove s t hs (moved_of_move ht))

theorem run_append (moves more : List (Move κ σ ρ)) (s : Crowd κ σ ρ) :
    run (moves ++ more) s = (run moves s).bind (run more) := by
  induction moves generalizing s with
  | nil => rfl
  | cons mv moves ih =>
    show (s.move mv).bind (run (moves ++ more)) = _
    rw [show run (mv :: moves) s = (s.move mv).bind (run moves) from rfl, Option.bind_assoc]
    exact congrArg _ (funext ih)

/-- What a call keeps with every turn it keeps along a run; its key and how long it waits never
change. -/
theorem visit_of_run {P : Whereabouts σ ρ → Prop} {i : Nat} {v : Visit σ ρ}
    (hturn : ∀ {d d' : Desk} {v : Visit σ ρ} {st}, v.Turn d d' st → P v.state → P st)
    (h : run moves s = some s') (hi : s.visits[i]? = some v) (hv : P v.state) :
    ∃ v', s'.visits[i]? = some v' ∧ v'.key = v.key ∧ v'.patience = v.patience ∧ P v'.state := by
  refine inv_of_run (I := fun t => ∃ v', t.visits[i]? = some v' ∧ v'.key = v.key ∧
    v'.patience = v.patience ∧ P v'.state) ?_ h ⟨v, hi, rfl, rfl, hv⟩
  rintro t t' ⟨v', hi', hkey, hpatience, hP⟩ hmoved
  cases hmoved with
  | @turns j u w st visit turn =>
    by_cases hij : i = j
    · subst hij
      obtain rfl : u = v' := Option.some.inj (visit.symm.trans hi')
      exact ⟨{ u with state := st }, by rw [getElem?_put visit, if_pos rfl], hkey, hpatience,
        hturn turn hP⟩
    · exact ⟨v', by rw [getElem?_put visit, if_neg hij, hi'], hkey, hpatience, hP⟩
  | calls key p start =>
    have hlt : i < t.visits.length := (List.getElem?_eq_some_iff.mp hi').1
    exact ⟨v', by rw [getElem?_call, if_neg (Nat.ne_of_lt hlt), hi'], hkey, hpatience, hP⟩
  | quiet => exact ⟨v', hi', hkey, hpatience, hP⟩

/-! ## Order at the locks -/

def lock (s : Crowd κ σ ρ) (key : String) : KeyLock := s.world.desk.table.lock key

def post (s : Crowd κ σ ρ) (i : Nat) : Post := (s.visits[i]?.map Visit.post).getD .away

/-- The locks are with the calls that stand at them, nobody waits for a free lock, and the calls
that came back without their operation say why. -/
structure InOrder (s : Crowd κ σ ρ) : Prop where
  custody : Custody s.world.desk s.post
  tended : s.world.desk.Tended
  honest : ∀ (i : Nat) (v : Visit σ ρ), s.visits[i]? = some v → v.state.Honest v.key v.patience

theorem post_of_visit {i : Nat} {v : Visit σ ρ} (hi : s.visits[i]? = some v) :
    s.post i = v.post := by
  rw [post, hi]
  rfl

theorem post_put {i : Nat} {v v' : Visit σ ρ} {w : World κ} (hi : s.visits[i]? = some v)
    (j : Nat) : (s.put i w v').post j = if j = i then v'.post else s.post j := by
  unfold post
  rw [getElem?_put hi]
  split <;> rfl

/-- A call that was just made stands away from the locks, as if it were not there. -/
theorem post_call (s : Crowd κ σ ρ) (key : String) (p : Patience) (start : σ) :
    (⟨s.world, s.visits ++ [⟨key, p, start, .running .asking⟩]⟩ : Crowd κ σ ρ).post =
      s.post := by
  funext j
  unfold post
  rw [getElem?_call]
  split
  · next hj => rw [hj, List.getElem?_eq_none (Nat.le_refl _)]; rfl
  · rfl

theorem InOrder.start {w : World κ} (hw : w.desk = Desk.empty) :
    (Crowd.start w : Crowd κ σ ρ).InOrder := by
  refine ⟨?_, ?_, fun i v hi => ?_⟩
  · show Custody w.desk _
    rw [hw]
    exact Custody.start
  · show w.desk.Tended
    rw [hw]
    exact fun key _ => rfl
  · simp [Crowd.start] at hi

theorem InOrder.moved (h : s.InOrder) (hmoved : s.Moved s') : s'.InOrder := by
  cases hmoved with
  | @turns i v w st visit turn =>
    refine ⟨?_, h.tended.turn turn, fun j u hj => ?_⟩
    · exact h.custody.deal (post_of_visit visit ▸ turn.dealing) fun j => post_put visit j
    · rw [getElem?_put visit] at hj
      split at hj
      · obtain rfl := Option.some.inj hj
        exact turn.honest (h.honest i v visit)
      · exact h.honest j u hj
  | calls key p start =>
    refine ⟨post_call s key p start ▸ h.custody, h.tended, fun j u hj => ?_⟩
    rw [getElem?_call] at hj
    split at hj
    · obtain rfl := Option.some.inj hj
      trivial
    · exact h.honest j u hj
  | @quiet w table issued =>
    refine ⟨h.custody.congr table issued, fun key => ?_, h.honest⟩
    show (w.desk.table.lock key).holder = none → (w.desk.table.lock key).queue = []
    rw [table]
    exact h.tended key

theorem InOrder.run (h : s.InOrder) (hrun : run moves s = some s') : s'.InOrder :=
  inv_of_run (fun _ _ ht hmoved => ht.moved hmoved) hrun h

/-! ## Safety -/

/-- The call is within its operation: it holds the lock of `key`, and its operation is going on, or
has just ended. -/
def Within (s : Crowd κ σ ρ) (i : Nat) (key : String) : Prop := ∃ t, s.post i = .inside key t

/-- The call was passed the lock of `key`, and has not noticed it yet. -/
def Granted (s : Crowd κ σ ρ) (i : Nat) (key : String) : Prop :=
  ∃ t, s.post i = .queued key t ∧ (s.lock key).holder = some t

/-- The call waits for the lock of `key`. -/
def Waits (s : Crowd κ σ ρ) (i : Nat) (key : String) : Prop :=
  ∃ t, s.post i = .queued key t ∧ (s.lock key).holder ≠ some t

def Holds (s : Crowd κ σ ρ) (i : Nat) (key : String) : Prop :=
  ∃ t, (s.post i).ticket? = some (key, t) ∧ (s.lock key).holder = some t

/-- The operation of the call ends with `r` if it goes on as it is told. -/
def Finishes (s : Crowd κ σ ρ) (i : Nat) (doing : Doing κ σ ρ) (r : ρ) : Prop :=
  ∃ v t stage w, s.visits[i]? = some v ∧ v.state = .running (.inside t stage) ∧
    doing.step s.world stage = .ends w r

/-- What is safe about a crowd after some moves. -/
structure Safe (w : World κ) (moves : List (Move κ σ (Ending ε α)))
    (s : Crowd κ σ (Ending ε α)) : Prop where
  /-- under each lock there is one operation at most -/
  exclusive : ∀ {i j key}, s.Within i key → s.Within j key → i = j
  /-- a lock is held by nobody but a call within its operation, or one that was just granted it -/
  held : ∀ {key t}, (s.lock key).holder = some t →
    ∃ i, s.Holds i key ∧ (s.Within i key ∨ s.Granted i key)
  /-- a lock that a call no longer holds is with the first that waited for it, or free -/
  passed : ∀ {mv s' i key}, s.move mv = some s' → s.Holds i key → ¬s'.Holds i key →
    (s'.lock key).holder = (s.lock key).queue.head?
  /-- a call waits only for a lock that another call holds -/
  waits : ∀ {i key}, s.Waits i key → ∃ j, j ≠ i ∧ s.Holds j key
  /-- a call that did not get its lock never ran its operation -/
  idle : ∀ {i v a}, s.visits[i]? = some v → v.answer? = some a → a.Denied →
    ∀ {before after t key}, moves = before ++ after → run before (start w) = some t →
      ¬t.Within i key
  /-- a call whose operation has ended is about to come back with what it ended with, or has -/
  ended : ∀ {before after doing t i r}, moves = before ++ .step i doing :: after →
    run before (start w) = some t → t.Finishes i doing r →
      ∃ v, s.visits[i]? = some v ∧
        ((∃ t, v.state = .running (.leaving t r)) ∨ v.answer? = some r.answer)
  /-- a call that is about to come back does so with its next step -/
  returns : ∀ {i v t r} (doing), s.visits[i]? = some v → v.state = .running (.leaving t r) →
    ∃ s' v', s.move (.step i doing) = some s' ∧ s'.visits[i]? = some v' ∧
      v'.answer? = some r.answer
  /-- a wait without a limit is not too long -/
  available : ∀ {i : Nat} {v : Visit σ (Ending ε α)}, s.visits[i]? = some v →
    v.patience = .unbounded → ∀ key timeout, v.answer? ≠ some (.refused (.unavailable key timeout))

section
variable {i j : Nat} {key : String} {v : Visit σ ρ}

theorem InOrder.exclusive (h : s.InOrder) (hi : s.Within i key) (hj : s.Within j key) : i = j := by
  obtain ⟨t, hi⟩ := hi
  obtain ⟨u, hj⟩ := hj
  exact h.custody.exclusive hi hj

theorem InOrder.held (h : s.InOrder) {t : Ticket} (ht : (s.lock key).holder = some t) :
    ∃ i, s.Holds i key ∧ (s.Within i key ∨ s.Granted i key) := by
  obtain ⟨i, hi⟩ := h.custody.held ht
  refine ⟨i, ⟨t, hi, ht⟩, ?_⟩
  cases hpost : s.post i with
  | away => simp [hpost, Post.ticket?] at hi
  | queued k u =>
    obtain ⟨rfl, rfl⟩ : k = key ∧ u = t := by simpa [hpost, Post.ticket?] using hi
    exact Or.inr ⟨u, hpost, ht⟩
  | inside k u =>
    obtain ⟨rfl, rfl⟩ : k = key ∧ u = t := by simpa [hpost, Post.ticket?] using hi
    exact Or.inl ⟨u, hpost⟩

theorem InOrder.waits (h : s.InOrder) (hi : s.Waits i key) : ∃ j, j ≠ i ∧ s.Holds j key := by
  obtain ⟨t, hpost, hne⟩ := hi
  have hmem : t ∈ (s.lock key).queue := (h.custody.queued hpost).resolve_left hne
  cases hh : (s.lock key).holder with
  | none =>
    have hnil : (s.lock key).queue = [] := h.tended key hh
    rw [hnil] at hmem
    cases hmem
  | some u =>
    obtain ⟨j, hj⟩ := h.custody.held hh
    refine ⟨j, ?_, u, hj, hh⟩
    rintro rfl
    obtain ⟨-, rfl⟩ : key = key ∧ t = u := by simpa [hpost, Post.ticket?] using hj
    exact hne hh

theorem InOrder.passed (h : s.InOrder) (hmoved : s.Moved s') (hi : s.Holds i key)
    (hi' : ¬s'.Holds i key) : s'.lock key = (s.lock key).pass := by
  obtain ⟨t, hpost, hh⟩ := hi
  cases hmoved with
  | @turns k v w st visit turn =>
    have hput (j : Nat) : (s.put k w { v with state := st }).post j =
        if j = k then Visit.post { v with state := st } else s.post j := post_put visit j
    refine h.custody.passed (post_of_visit visit ▸ turn.dealing) hput hpost hh ?_
    exact fun hpost' hh' => hi' ⟨t, hpost', hh'⟩
  | calls k p start => exact absurd ⟨t, (post_call s k p start).symm ▸ hpost, hh⟩ hi'
  | quiet table issued => exact absurd ⟨t, hpost, by rw [lock, table]; exact hh⟩ hi'

theorem begun_of_within (hw : s.Within i key) :
    ∃ v, s.visits[i]? = some v ∧ v.state.Begun := by
  obtain ⟨t, ht⟩ := hw
  cases hi : s.visits[i]? with
  | none => simp [post, hi] at ht
  | some v =>
    refine ⟨v, rfl, ?_⟩
    rw [post_of_visit hi, Visit.post] at ht
    split at ht
    · cases ht
    · next h => exact h ▸ .inside _ _
    · next h => exact h ▸ .leaving _ _
    · cases ht

/-- The operation that ends is over in the state after the move, with what it ended with. -/
theorem Finishes.moved {doing : Doing κ σ ρ} {r : ρ} (h : s.Finishes i doing r)
    (hmv : s.move (.step i doing) = some s') :
    ∃ v, s'.visits[i]? = some v ∧ v.state.Ended r := by
  obtain ⟨v, t, stage, w, hi, hstate, hends⟩ := h
  obtain ⟨v', w', st, hv', hstep, rfl⟩ := step_of_move hmv
  obtain rfl : v = v' := Option.some.inj (hi.symm.trans hv')
  refine ⟨{ v with state := st }, by rw [getElem?_put hi, if_pos rfl], ?_⟩
  have hst : some (w, Whereabouts.running (.leaving t r)) = some (w', st) := by
    rw [← hstep, Visit.step?, hstate]
    show _ = Whereabouts.after? ((doing.step s.world stage).andThen _ _)
    rw [hends]
    rfl
  obtain ⟨-, rfl⟩ := Prod.mk.inj (Option.some.inj hst)
  exact .leaving t

/-- A call on its way out waits for nothing. -/
theorem move_of_leaving {t : Ticket} {r : ρ} (doing : Doing κ σ ρ) (hi : s.visits[i]? = some v)
    (hv : v.state = .running (.leaving t r)) :
    ∃ w, s.move (.step i doing) = some (s.put i w { v with state := .returned (.ran r) }) := by
  refine ⟨(Guarded.release s.world v.key t).record (.left v.key t), ?_⟩
  have hstep : v.step? doing s.world =
      some ((Guarded.release s.world v.key t).record (.left v.key t), .returned (.ran r)) := by
    rw [Visit.step?, hv]
    rfl
  show s.visits[i]?.bind _ = _
  rw [hi, Option.bind_some, hstep]
  rfl

end

/-- Whatever calls there are, and in whatever order they go on, wait, are interrupted and dropped:
the operations are kept apart, no lock is lost, and the calls come back with what they did. -/
theorem template_safe {w : World κ} {moves : List (Move κ σ (Ending ε α))}
    {s : Crowd κ σ (Ending ε α)} (hw : w.desk = Desk.empty) (h : run moves (start w) = some s) :
    Safe w moves s := by
  have hs : s.InOrder := (InOrder.start hw).run h
  -- what follows a part of the run leads to its end
  have hrest {before after : List (Move κ σ (Ending ε α))} {t : Crowd κ σ (Ending ε α)}
      (hmoves : moves = before ++ after) (ht : run before (start w) = some t) :
      run after t = some s := by
    rw [hmoves, run_append, ht] at h
    exact h
  refine ⟨hs.exclusive, hs.held, ?_, hs.waits, ?_, ?_, ?_, ?_⟩
  · intro mv s' i key hmv hi hi'
    rw [hs.passed (moved_of_move hmv) hi hi', KeyLock.pass]
    cases (s.lock key).queue <;> rfl
  · intro i v a hi ha hdenied before after t key hmoves ht hwithin
    obtain ⟨u, hu, hbegun⟩ := begun_of_within hwithin
    obtain ⟨v', hi', -, -, hbegun⟩ :=
      visit_of_run (fun turn => turn.begun) (hrest hmoves ht) hu hbegun
    obtain rfl := Option.some.inj (hi.symm.trans hi')
    obtain ⟨r, rfl⟩ := hbegun.answer ha
    exact r.not_denied hdenied
  · intro before after doing t i r hmoves ht hfinishes
    obtain ⟨t', hmv, hafter⟩ := Option.bind_eq_some_iff.mp (hrest hmoves ht)
    obtain ⟨u, hu, hended⟩ := hfinishes.moved hmv
    obtain ⟨v, hv, -, -, hended⟩ := visit_of_run (fun turn => turn.ended) hafter hu hended
    exact ⟨v, hv, hended.answer⟩
  · intro i v t r doing hi hv
    obtain ⟨w', hmv⟩ := move_of_leaving doing hi hv
    exact ⟨_, _, hmv, by rw [getElem?_put hi, if_pos rfl], rfl⟩
  · intro i v hi hunbounded key timeout
    exact (hs.honest i v hi).available hunbounded

/-- Ends the operation at once. -/
def endingWith (r : ρ) : Doing κ σ ρ := ⟨fun w _ => .ends w r, fun _ _ => rfl⟩

/-- Five calls for one lock: the first runs its operation, the third does not wait, the second is
dropped within its operation, the fourth panics, and meanwhile the fifth is interrupted. -/
def fiveCalls : List (Move Outlet Unit (Ending String Nat)) :=
  [.call "k" .unbounded (), .call "k" (.atMost 10) (), .call "k" .never (),
    .step 0 (endingWith (.ok 1)), .step 2 (endingWith (.ok 3)), .step 1 (endingWith (.ok 2)),
    .step 1 (endingWith (.ok 2)),
    .step 0 (endingWith (.ok 1)), .step 0 (endingWith (.ok 1)), .pass 20,
    .step 1 (endingWith (.ok 2)), .drop 1, .call "k" .unbounded (), .call "k" .unbounded (),
    .step 3 (endingWith .panicked), .step 4 (endingWith (.ok 5)), .step 4 (endingWith (.ok 5)),
    .interrupt, .step 4 (endingWith (.ok 5)), .step 4 (endingWith (.ok 5)), .clear,
    .step 3 (endingWith .panicked), .step 3 (endingWith .panicked)]

set_option maxRecDepth 100000 in
theorem template_safe_of_fiveCalls :
    ∃ s, run fiveCalls (start (World.recording [])) = some s ∧
      s.visits.map Visit.answer? =
        [some (.done 1), none, some .skipped, some .panicked, some (.refused (.interrupted "k"))] ∧
      Safe (World.recording []) fiveCalls s := by
  have hrun : (run fiveCalls (start (World.recording []))).map
      (fun s => s.visits.map Visit.answer?) = some
      [some (.done 1), none, some .skipped, some .panicked,
        some (.refused (.interrupted "k"))] := by
    decide +kernel
  obtain ⟨s, hs, hanswers⟩ := Option.map_eq_some_iff.mp hrun
  exact ⟨s, hs, hanswers, template_safe rfl hs⟩

end Crowd
end Rendezvous
