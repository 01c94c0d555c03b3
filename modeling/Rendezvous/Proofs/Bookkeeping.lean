/-
The metrics account for every message.

The books of a world are its groups and what is counted about messages (`Books`).  A message that
joins a group is counted as aggregated in the same step, and one that leaves it as released or as
cancelled, so one side of the books grows by as much as the other (`Books.Balances`).  For that a
step has to take out of the group what it is counted for, and under the lock of the group it does:
the messages of an output are still there, one or two of them, and so are the registrations that a
cancellation found.  Asking for locks, claims, the channel of outputs and users' advices are not in
the books at all.

On its way through the flow a message is counted when it arrives and once more when it is turned
away or the handlers are done with it, so what was received and not settled yet is at the handlers
(`Tallied`).  `books_balanced` puts this together.
-/
import Rendezvous.Proofs.Dispatch
import Rendezvous.Proofs.Group.Stock
import Rendezvous.Proofs.Trail

namespace Rendezvous

/-! ## Books -/

/-- How many messages an output of the kind takes out of its group. -/
def CommandKind.takes : CommandKind → Nat
  | receive => 2
  | start => 1

/-- The groups, and what is counted about messages. -/
structure Books where
  groups : GroupStore
  shown : Option Nat
  aggregated : Dict Nat
  released : Dict Nat
  cancelled : Nat
  received : Nat
  discarded : Nat
  uncorrelated : Nat
  undecodable : Nat
  handled : Nat

variable {κ : Type}

def World.books (w : World κ) : Books where
  groups := w.groups
  shown := w.metrics.gauge? .groups
  aggregated := w.metrics.aggregated
  released := w.metrics.released
  cancelled := w.metrics.total .cancelledRemoved
  received := w.metrics.total .received
  discarded := w.metrics.total .discarded
  uncorrelated := w.metrics.total .correlationErrors
  undecodable := w.metrics.total .decodeErrors
  handled := (w.metrics.samples .handled).length

namespace Books

/-- The number of outputs of a kind that were released. -/
def outputs (b : Books) (kind : CommandKind) : Nat := (b.released.find? kind.text).getD 0

/-- The messages that are in a group, or were counted as they left it. -/
def accounted (b : Books) : Nat :=
  b.groups.stored + 2 * b.outputs .receive + b.outputs .start + b.cancelled

/-- The messages that were counted a second time, when they were turned away or handled. -/
def settled (b : Books) : Nat := b.discarded + b.uncorrelated + b.undecodable + b.handled

/-- Both sides of the books grow alike, and the number of groups is shown anew if it changes. -/
structure Balances (b b' : Books) : Prop where
  messages : Metrics.sum b'.aggregated + b.accounted = Metrics.sum b.aggregated + b'.accounted
  groups : b'.groups.count = b.groups.count ∧ b'.shown = b.shown ∨ b'.shown = some b'.groups.count

/-- What the handlers do to the books: they balance, and no message arrives or is settled. -/
structure Handles (b b' : Books) : Prop extends b.Balances b' where
  received : b'.received = b.received
  settled : b'.settled = b.settled

variable {b b' : Books}

theorem Handles.rfl : b.Handles b := ⟨⟨Eq.refl _, .inl ⟨Eq.refl _, Eq.refl _⟩⟩, Eq.refl _, Eq.refl _⟩

theorem Handles.of_eq (h : b' = b) : b.Handles b' := h ▸ .rfl

/-- A message joins a group and is counted. -/
def append (b : Books) (key : CorrelationKey) (m : EventMessage) (now : Stamp) (label : String) :
    Books :=
  { b with
    groups := (b.groups.add key m now).1
    shown := some (b.groups.add key m now).1.count
    aggregated := Metrics.bump b.aggregated label }

/-- Messages leave a group. -/
def remove (b : Books) (key : CorrelationKey) (ids : List Uuid) (now : Stamp) : Books :=
  { b with
    groups := b.groups.remove key ids now
    shown := some (b.groups.remove key ids now).count }

theorem handles_append (b : Books) (key : CorrelationKey) (m : EventMessage) (now : Stamp)
    (label : String) : b.Handles (b.append key m now label) := by
  refine ⟨⟨?_, .inr rfl⟩, rfl, rfl⟩
  have hstored := b.groups.stored_add key m now
  have hsum := Metrics.sum_bump b.aggregated label
  simp only [append, accounted, outputs]
  omega

/-- The identities are those of messages of the group, each once. -/
structure Lists (b : Books) (key : CorrelationKey) (ids : List Uuid) : Prop where
  once : ids.Nodup
  distinct : ((b.groups.messages key).map Message.id).Nodup
  there : ids ⊆ (b.groups.messages key).map Message.id

variable {key : CorrelationKey} {ids : List Uuid}

theorem Lists.stored_remove (h : b.Lists key ids) (now : Stamp) :
    (b.groups.remove key ids now).stored + ids.length = b.groups.stored := by
  have hstored := b.groups.stored_remove key ids now
  have hlength := length_without h.once h.distinct h.there
  omega

/-- Messages leave their group and are counted as cancelled. -/
theorem Lists.handles_cancelled (h : b.Lists key ids) (now : Stamp) :
    b.Handles { b.remove key ids now with cancelled := b.cancelled + ids.length } := by
  refine ⟨⟨?_, .inr rfl⟩, rfl, rfl⟩
  have hstored := h.stored_remove now
  simp only [remove, accounted, outputs]
  omega

/-- As many messages as an output of the kind consumes leave their group, and it is counted. -/
theorem Lists.handles_released (h : b.Lists key ids) (now : Stamp) {kind : CommandKind}
    (hlength : ids.length = kind.takes) :
    b.Handles { b.remove key ids now with released := Metrics.bump b.released kind.text } := by
  refine ⟨⟨?_, .inr rfl⟩, rfl, rfl⟩
  have hstored := h.stored_remove now
  simp only [remove, accounted, outputs, Metrics.getD_find?_bump]
  cases kind with
  | receive =>
    have hother : CommandKind.start.text ≠ CommandKind.receive.text := by decide
    simp only [hother, if_true, if_false]
    rw [CommandKind.takes] at hlength
    omega
  | start =>
    have hother : CommandKind.receive.text ≠ CommandKind.start.text := by decide
    simp only [hother, if_true, if_false]
    rw [CommandKind.takes] at hlength
    omega

end Books

/-! ## What a release and a cancellation take out -/

section

variable {names : HeaderNames} {key : CorrelationKey} {ms : List EventMessage} {r : Release}

/-- An output consumes two messages, or the sent one if it starts a process, and its header says
which it is. -/
theorem Release.exists_kind
    (hnames : names.payloadType ∉ [names.messageName, names.destination, Headers.idName])
    (h : of? names key ms = some r) :
    ∃ kind, (r.message.headers.text? names.payloadType).bind CommandKind.ofText? = some kind ∧
      r.consumed.length = kind.takes := by
  obtain ⟨sent, -, ⟨waiting, -, rfl⟩ | ⟨-, deployed, -, rfl⟩⟩ := of?_eq_some_iff.mp h
  · exact ⟨.receive, kind_output hnames .., rfl⟩
  · exact ⟨.start, kind_output hnames .., rfl⟩

/-- A message is not of two types, so an output does not consume one twice. -/
theorem Release.nodup_consumed (h : of? names key ms = some r)
    (hms : (ms.map Message.id).Nodup) : r.consumed.Nodup := by
  obtain ⟨sent, hsent, ⟨waiting, hwaiting, rfl⟩ | ⟨-, deployed, -, rfl⟩⟩ := of?_eq_some_iff.mp h
  · show [sent.id, waiting.id].Nodup
    rw [List.nodup_cons, List.mem_singleton]
    refine ⟨fun hid => ?_, List.nodup_singleton _⟩
    have heq : sent = waiting := List.inj_on_of_nodup_map hms (List.mem_of_find?_eq_some hsent)
      (List.mem_of_find?_eq_some hwaiting) hid
    have hboth := Message.isOf_unique (List.find?_some hsent) (heq ▸ List.find?_some hwaiting)
    exact absurd hboth (by decide)
  · exact List.nodup_singleton _

end

namespace World

variable {w : World κ} {names : HeaderNames} {key : CorrelationKey}

theorem books_lists_consumed (hw : Faithful names w) {r : Release}
    (hr : Release.of? names key (page key w.history).messages = some r) :
    w.books.Lists key r.consumed := by
  have hms := hw.lawful.nodup key
  have hpage : w.books.groups.messages key = (page key w.history).messages := hw.pages key
  refine ⟨Release.nodup_consumed hr hms, hpage ▸ hms, fun id hid => ?_⟩
  obtain ⟨m, hm, rfl, -⟩ := Release.exists_of_mem_consumed hr hid
  rw [hpage]
  exact List.mem_map_of_mem hm

theorem books_lists_stale (hw : Faithful names w) :
    w.books.Lists key (stale names (page key w.history).messages) := by
  have hms := hw.lawful.nodup key
  have hpage : w.books.groups.messages key = (page key w.history).messages := hw.pages key
  have hsub : (stale names (page key w.history).messages).Sublist
      ((page key w.history).messages.map Message.id) := List.filter_sublist.map _
  exact ⟨hms.sublist hsub, hpage ▸ hms, hpage ▸ hsub.subset⟩

/-! ## Calls and the books -/

theorem books_add (w : World κ) (t : Total) (n : Nat) :
    { w with metrics := w.metrics.add t n }.books =
      { w.books with
        cancelled := w.books.cancelled + if t = .cancelledRemoved then n else 0
        received := w.books.received + if t = .received then n else 0
        discarded := w.books.discarded + if t = .discarded then n else 0
        uncorrelated := w.books.uncorrelated + if t = .correlationErrors then n else 0
        undecodable := w.books.undecodable + if t = .decodeErrors then n else 0 } := by
  simp only [books, Metrics.total_add]
  cases t <;> rfl

/-- What is counted besides is not in the books. -/
theorem books_count (w : World κ) {t : Total}
    (ht : t ∉ [.cancelledRemoved, .received, .discarded, .correlationErrors, .decodeErrors]) :
    (w.count t).books = w.books := by
  simp only [List.mem_cons, List.not_mem_nil, or_false, not_or] at ht
  obtain ⟨hcancelled, hreceived, hdiscarded, huncorrelated, hundecodable⟩ := ht
  rw [count, Metrics.count, books_add, if_neg hcancelled, if_neg hreceived, if_neg hdiscarded,
    if_neg huncorrelated, if_neg hundecodable]
  rfl

theorem books_lockWait (w : World κ) (n : Nat) : (w.time .lockWait n).books = w.books := by
  have hsame : (w.metrics.time .lockWait n).samples .handled = w.metrics.samples .handled := by
    simp [Metrics.samples, Metrics.time, Metrics.lookup_adjust]
  simp only [books, time, hsame]
  rfl

theorem gauge?_set (m : Metrics) (g g' : Gauge) (n : Nat) :
    (m.set g n).gauge? g' = if g' = g then some n else m.gauge? g' := by
  simp only [Metrics.gauge?, Metrics.set, Metrics.lookup_adjust]

theorem books_gaugeGroups (w : World κ) :
    w.gaugeGroups.books = { w.books with shown := some w.groups.count } := by
  simp only [books, gaugeGroups, gauge?_set, if_true]
  rfl

theorem books_bury (w : World κ) (m : RawMessage) : (w.bury m).books = w.books := by
  have hset (v : World κ) (letters : DeadLetterQueue) (n : Nat) :
      { v with letters := letters, metrics := v.metrics.set .deadLetters n }.books = v.books := by
    have hne : Gauge.groups ≠ Gauge.deadLetters := by decide
    simp only [books, gauge?_set, hne, if_false]
    rfl
  refine (hset _ _ _).trans ?_
  by_cases hfull : w.letters.isFull = true
  · simp only [hfull, if_true]
    exact books_count _ (by decide)
  · simp only [hfull]
    rfl

theorem books_offer (w : World κ) (m : RawMessage) : (w.offer m).1.books = w.books := by
  unfold offer
  dsimp only
  split
  · rfl
  · exact books_bury _ m

theorem books_putClaimIfAbsent (w : World κ) (id value : String) :
    (w.putClaimIfAbsent id value).1.books = w.books := by
  unfold putClaimIfAbsent askClaims
  cases w.claimFaults.next .putIfAbsent with
  | mk fault rest => cases fault <;> rfl

theorem books_removeClaim (w : World κ) (id : String) : (w.removeClaim id).1.books = w.books := by
  unfold removeClaim askClaims
  cases w.claimFaults.next .remove with
  | mk fault rest => cases fault <;> rfl

theorem books_appendMessage (hf : w.storeFaults = []) (key : CorrelationKey) (m : EventMessage)
    (label : String) : ∃ v g now, w.appendMessage key m = (v, .ok g) ∧
      { v with metrics := v.metrics.countAggregated label }.books =
        w.books.append key m now label := by
  rw [appendMessage, askStore_eq hf]
  refine ⟨_, _, w.clock.tick.1, rfl, ?_⟩
  let grown : World κ := { w.stamp.2 with groups := (w.groups.add key m w.clock.tick.1).1 }
  show { grown.gaugeGroups.books with
    aggregated := Metrics.bump grown.metrics.aggregated label } = _
  rw [books_gaugeGroups]
  rfl

theorem books_removeMessages (hf : w.storeFaults = []) (ids : List Uuid) (why : Removal)
    (hne : w.groups.messages key ≠ []) :
    ∃ v now, w.removeMessages key ids why = (v, .ok ()) ∧ v.books = w.books.remove key ids now := by
  have hsome : ∃ g, w.groups.group? key = some g := by
    cases hg : w.groups.group? key with
    | some g => exact ⟨g, rfl⟩
    | none => exact absurd (GroupStore.messages_of_group?_none hg) hne
  obtain ⟨g, hg⟩ := hsome
  rw [removeMessages, askStore_eq hf]
  simp only [stamp, record, hg]
  refine ⟨_, w.clock.tick.1, rfl, ?_⟩
  let shrunk : World κ := { w.stamp.2 with groups := w.groups.remove key ids w.clock.tick.1 }
  show shrunk.gaugeGroups.books = _
  rw [books_gaugeGroups]
  rfl

end World

/-! ## Steps of the handlers -/

section

variable {carrier : Carrier κ} {names : HeaderNames} {key : CorrelationKey} {m : EventMessage}
  {w : World κ}

/-- Work on a group keeps the books balanced: a stage that relies on what is in the group is right
about it. -/
theorem Aggregation.step_books (carrier : Carrier κ) (retry : RetryPolicy) (timeout : Option Nat)
    (hnames : names.payloadType ∉ [names.messageName, names.destination, Headers.idName])
    (hw : Faithful names w) {st : Aggregation.Stage}
    (hst : st.Grounded names key m (page key w.history)) :
    (Aggregation.step carrier (.default names retry timeout) key m w st).Ensures
      (fun v _ => w.books.Handles v.books) fun v _ => w.books.Handles v.books := by
  have hread : w.books.Handles (w.record (.asked .group)).books := .rfl
  cases st with
  | read =>
    simp only [step, World.readGroup_eq hw.faultless]
    cases w.groups.group? key with
    | none => exact hread
    | some g =>
      dsimp only
      split <;> exact hread
  | append =>
    simp only [step]
    obtain ⟨v, g, now, happ, hbooks⟩ := World.books_appendMessage hw.faultless key m
      ((Aggregator.default names retry timeout).eventTypeText m)
    rw [happ]
    show w.books.Handles _
    rw [hbooks]
    exact Books.handles_append ..
  | decide g =>
    simp only [step]
    repeat' split
    all_goals exact .rfl
  | attempt r n => exact .rfl
  | transit r n arrival =>
    simp only [step]
    split
    · trivial
    · exact .rfl
  | arrive r n =>
    simp only [step]
    split
    · exact .rfl
    · unfold failed
      dsimp only
      split
      · exact .of_eq (World.books_count _ (by decide))
      · split
        · exact .of_eq ((World.books_count _ (by decide)).trans (World.books_count _ (by decide)))
        · exact .of_eq (World.books_count _ (by decide))
  | pause r n wake =>
    simp only [step]
    split
    · trivial
    · exact .rfl
  | remove r =>
    obtain ⟨-, hr⟩ := hst
    have hne : w.groups.messages key ≠ [] := by
      obtain ⟨sent, hsent, -⟩ := Release.sent_mem_consumed hr
      exact hw.pages key ▸ List.ne_nil_of_mem (List.mem_of_find?_eq_some hsent)
    obtain ⟨v, now, hrem, hbooks⟩ :=
      World.books_removeMessages hw.faultless r.consumed .released hne
    obtain ⟨kind, hkind, hlength⟩ := Release.exists_kind hnames hr
    simp only [step, hrem, countReleased, kind?, Aggregator.default, hkind]
    show w.books.Handles { v.books with released := Metrics.bump v.books.released kind.text }
    rw [hbooks]
    exact (World.books_lists_consumed hw hr).handles_released now hlength
  | reread =>
    simp only [step, World.readGroup_eq hw.faultless]
    cases w.groups.group? key <;> exact hread

theorem Reconciliation.step_books (timeout : Option Nat) (hw : Faithful names w)
    {st : Reconciliation.Stage} (hst : st.Grounded names (page key w.history)) :
    (Reconciliation.step (.default names timeout) key w st).Ensures
      (fun v _ => w.books.Handles v.books) fun v _ => w.books.Handles v.books := by
  have hread : w.books.Handles (w.record (.asked .group)).books := .rfl
  cases st with
  | read =>
    simp only [step, World.readGroup_eq hw.faultless]
    cases w.groups.group? key with
    | none => exact hread
    | some g =>
      dsimp only
      split <;> exact hread
  | purge ids =>
    obtain ⟨-, hstale, hids⟩ := hst
    have hne : w.groups.messages key ≠ [] := by
      intro hnil
      rw [hw.pages] at hnil
      exact hids (by rw [hstale, hnil]; rfl)
    obtain ⟨v, now, hrem, hbooks⟩ := World.books_removeMessages hw.faultless ids .cancelled hne
    have hlists : w.books.Lists key ids := hstale ▸ World.books_lists_stale hw
    simp only [step, hrem]
    show w.books.Handles { v with metrics := v.metrics.add .cancelledRemoved ids.length }.books
    rw [World.books_add, hbooks]
    exact hlists.handles_cancelled now

/-- Asking for a lock and leaving it are not in the books. -/
theorem Guarded.step_books {σ ρ : Type} {lk : String} {p : Patience} {start : σ}
    {work : World κ → σ → Progress (World κ) σ ρ} {g : Guarded σ ρ}
    (hwork : ∀ t s, g = .inside t s → (work w s).Ensures
      (fun v _ => w.books.Handles v.books) fun v _ => w.books.Handles v.books) :
    (g.step lk p start work w).Ensures
      (fun v _ => w.books.Handles v.books) fun v _ => w.books.Handles v.books := by
  refine step_keeps_of_locks (P := fun v => w.books.Handles v.books) (fun _ _ h => h)
    (fun v h => ?_) (fun v h => ?_) (fun v n h => ?_) (fun _ _ _ h => h) .rfl hwork
  · rw [World.books_count v (by decide)]
    exact h
  · rw [World.books_count v (by decide)]
    exact h
  · rw [World.books_lockWait]
    exact h

namespace Chain

theorem claimStep_books (w : World κ) (stamping : Stamping) (m : EventMessage)
    (rest : List Advice) (frames : List Frame) :
    (claimStep w stamping m rest frames).1.books = w.books := by
  have hstamp : (stampOf w stamping).2.books = w.books := by
    cases stamping <;> rfl
  have hput := World.books_putClaimIfAbsent (stampOf w stamping).2 m.id.text
    (stampOf w stamping).1.text
  unfold claimStep
  dsimp only
  split <;> rename_i heq <;> rw [heq] at hput
  · exact hput.trans hstamp
  · exact (World.books_count _ (by decide)).trans (hput.trans hstamp)
  · exact hput.trans hstamp

theorem leaveFrame_books (w : World κ) (outcome : Except HandlerError Unit) (frame : Frame) :
    (leaveFrame w outcome frame).books = w.books := by
  cases frame with
  | intercepted name => rfl
  | claimed id =>
    unfold leaveFrame
    dsimp only
    split
    · rfl
    · exact World.books_removeClaim _ _

/-- Whatever the handlers do, the books balance. -/
theorem step_books
    (hnames : names.payloadType ∉ [names.messageName, names.destination, Headers.idName])
    {core : Core} {c : Call} (hw : Faithful names w) (hfits : c.stage.Fits names)
    (hg : (c.station names).Grounded w.history) :
    (Chain.step carrier core w c).Ensures
      (fun v _ => w.books.Handles v.books) fun v _ => w.books.Handles v.books := by
  obtain ⟨stage, frames⟩ := c
  cases stage with
  | enter m advices =>
    cases advices with
    | nil =>
      simp only [step, coreStep]
      repeat' split
      all_goals exact .rfl
    | cons a rest =>
      cases a with
      | once stamping => exact .of_eq (claimStep_books w stamping m rest frames)
      | reconcile r => exact .rfl
      | intercept i =>
        simp only [step, interceptStep]
        split <;> exact .rfl
  | reconciling r key m rest g =>
    obtain ⟨⟨timeout, rfl⟩, -⟩ := hfits
    rw [step, Progress.ensures_andThen, reconcileStep, Progress.ensures_map]
    have hwork (t : Ticket) (s : Reconciliation.Stage) (h : g = .inside t s) :=
      Reconciliation.step_books timeout hw (hg key (fun p => s.Grounded names p) (by rw [h]; rfl))
    refine (Guarded.step_books hwork).mono (fun _ _ h => h) fun v entry h => ?_
    split <;> exact h
  | aggregating a key m g =>
    obtain ⟨⟨retry, timeout, rfl⟩, -⟩ := hfits
    rw [step, Progress.ensures_andThen, aggregateStep, Progress.ensures_map]
    have hwork (t : Ticket) (s : Aggregation.Stage) (h : g = .inside t s) :=
      Aggregation.step_books carrier retry timeout hnames hw
        (hg key (fun p => s.Grounded names key m p) (by rw [h]; rfl))
    exact (Guarded.step_books hwork).mono (fun _ _ h => h) fun _ _ h => h
  | leave outcome =>
    cases frames with
    | nil => exact .rfl
    | cons frame frames => exact .of_eq (leaveFrame_books w outcome frame)

end Chain

end

/-! ## Steps of a flow -/

/-- Whether a message that was received is not settled yet. -/
def Flow.Stage.open : Flow.Stage → Nat
  | .handling .. => 1
  | _ => 0

def Sending.open : Sending → Nat
  | running st => st.open
  | returned _ => 0
  | dropped => 0

/-- What a step of a call does to the books: they balance, and of what is received it settles as
much as it does not keep at the handlers. -/
structure Books.Tallies (b : Books) (c : Sending) (b' : Books) (c' : Sending) : Prop
    extends b.Balances b' where
  arrivals : b'.received + b.settled + c.open = b.received + b'.settled + c'.open

section

variable {carrier : Carrier κ} {names : HeaderNames} {f : Flow} {w : World κ}

/-- A message that is turned away is settled with its arrival. -/
theorem World.books_turnedAway (w : World κ) {t : Total}
    (ht : t = .discarded ∨ t = .correlationErrors ∨ t = .decodeErrors) (m m' : RawMessage)
    (verdict : Except FlowError FlowOutcome) :
    w.books.Tallies (.running (.arrived m)) ((w.count .received).count t).books
      (.running (.rejecting m' verdict)) := by
  have hreceived : (w.count .received).books =
      { w.books with received := w.books.received + 1 } := books_add w .received 1
  have hcounted := books_add (w.count .received) t 1
  rw [hreceived] at hcounted
  show Books.Tallies _ _ { w.count .received with
    metrics := (w.count .received).metrics.add t 1 }.books _
  rw [hcounted]
  rcases ht with rfl | rfl | rfl
  all_goals
    refine ⟨⟨rfl, .inl ⟨rfl, rfl⟩⟩, ?_⟩
    simp only [Books.settled, Sending.open, Flow.Stage.open, reduceCtorEq, if_true, if_false]
    omega

theorem World.books_accepted (w : World κ) (m : RawMessage) (since : Nat) (call : Chain.Call) :
    w.books.Tallies (.running (.arrived m)) (w.count .received).books
      (.running (.handling since call)) := by
  have hreceived : (w.count .received).books =
      { w.books with received := w.books.received + 1 } := books_add w .received 1
  rw [hreceived]
  refine ⟨⟨rfl, .inl ⟨rfl, rfl⟩⟩, ?_⟩
  simp only [Books.settled, Sending.open, Flow.Stage.open]
  omega

theorem Books.Handles.tallies {b b' : Books} (h : b.Handles b') {c c' : Sending}
    (hc : c'.open = c.open) : b.Tallies c b' c' := by
  refine ⟨h.toBalances, ?_⟩
  rw [h.received, h.settled, hc]

theorem World.books_handled (w : World κ) (n : Nat) :
    (w.time .handled n).books = { w.books with handled := w.books.handled + 1 } := by
  have hmore : (w.metrics.time .handled n).samples .handled =
      w.metrics.samples .handled ++ [n] := by
    simp [Metrics.samples, Metrics.time, Metrics.lookup_adjust]
  simp only [books, time, hmore, List.length_append, List.length_singleton]
  rfl

theorem Flow.step_books
    (hnames : names.payloadType ∉ [names.messageName, names.destination, Headers.idName])
    {st : Flow.Stage} (hw : Faithful names w) (hfits : st.Fits names)
    (hg : (st.station names).Grounded w.history) :
    (f.step carrier w st).Ensures
      (fun v st' => w.books.Tallies (.running st) v.books (.running st'))
      fun v r => w.books.Tallies (.running st) v.books (.returned r) := by
  cases st with
  | arrived m =>
    simp only [step]
    split
    · exact w.books_turnedAway (.inl rfl) ..
    · exact w.books_turnedAway (.inr (.inl rfl)) ..
    · exact w.books_turnedAway (.inr (.inr rfl)) ..
    · exact w.books_accepted ..
  | rejecting m verdict =>
    have hoffer := World.books_offer w m
    simp only [step]
    split <;>
    · rename_i heq
      rw [heq] at hoffer
      exact (Books.Handles.of_eq hoffer).tallies rfl
  | handling since call =>
    rw [step, Progress.ensures_andThen]
    refine (Chain.step_books hnames hw hfits hg).mono (fun v call' h => h.tallies rfl)
      fun v outcome h => ?_
    show w.books.Tallies _ (v.time .handled (v.now - since)).books _
    rw [World.books_handled]
    refine ⟨⟨h.messages, h.groups⟩, ?_⟩
    have hreceived := h.received
    have hsettled := h.settled
    simp only [Books.settled, Sending.open, Flow.Stage.open] at hsettled ⊢
    omega

end

/-! ## Runs -/

/-- Whether a call is gone without an outcome. -/
def Sending.gone : Sending → Nat
  | dropped => 1
  | running _ => 0
  | returned _ => 0

/-- The books of a traffic: what joined groups is accounted for; what was received is settled, or at
the handlers, or was there when its call was dropped; and the number of groups is shown unless there
was none yet. -/
structure Tallied (s : Traffic κ) : Prop where
  messages : Metrics.sum s.world.books.aggregated = s.world.books.accounted
  arrivals : ∃ lost, lost ≤ (s.calls.map Sending.gone).sum ∧
    s.world.books.received = s.world.books.settled + (s.calls.map Sending.open).sum + lost
  groups : s.world.books.shown = some s.world.groups.count ∨ s.world.groups.count = 0

theorem sum_map_set {α : Type} (f : α → Nat) {l : List α} {i : Nat} {a : α} (h : l[i]? = some a)
    (b : α) : ((l.set i b).map f).sum + f a = (l.map f).sum + f b := by
  induction l generalizing i with
  | nil => simp at h
  | cons head rest ih =>
    cases i with
    | zero =>
      obtain rfl : head = a := by simpa using h
      simp only [List.set_cons_zero, List.map_cons, List.sum_cons]
      omega
    | succ i =>
      have := ih (i := i) (by simpa using h)
      simp only [List.set_cons_succ, List.map_cons, List.sum_cons]
      omega

section

variable {carrier : Carrier κ} {names : HeaderNames} {f : Flow} {s s' : Traffic κ} {mv : Move}

theorem Tallied.start (channel : κ) (clock : Clock) (claims : ClaimStore)
    (letters : DeadLetterQueue) :
    Tallied (Traffic.start (World.start channel clock claims letters)) :=
  ⟨rfl, ⟨0, Nat.le_refl 0, rfl⟩, .inr rfl⟩

/-- What a step of a call does to the books. -/
theorem Sound.tallies_of_step
    (hnames : names.payloadType ∉ [names.messageName, names.destination, Headers.idName])
    (hs : Sound names s) {i : Nat} {st : Flow.Stage} {w : World κ} {c : Sending}
    (hi : s.calls[i]? = some (.running st))
    (hc : Sending.after? (f.step carrier s.world st) = some (w, c)) :
    s.world.books.Tallies (.running st) w.books c ∧ c.gone = 0 :=
  Sending.of_after?
    (R := fun v c => s.world.books.Tallies (.running st) v.books c ∧ c.gone = 0)
    ((Flow.step_books hnames hs.faithful (hs.fits i _ hi) (hs.grounded_of_call hi)).mono
      (fun _ _ h => ⟨h, rfl⟩) fun _ _ h => ⟨h, rfl⟩) hc

theorem Sound.balances_of_move
    (hnames : names.payloadType ∉ [names.messageName, names.destination, Headers.idName])
    (hs : Sound names s) (h : s.move carrier f mv = some s') :
    s.world.books.Balances s'.world.books := by
  cases Traffic.moved_of_move h with
  | steps call step => exact (hs.tallies_of_step hnames call step).1.toBalances
  | drops | sends | quiet => exact Books.Handles.rfl.toBalances

theorem Tallied.move
    (hnames : names.payloadType ∉ [names.messageName, names.destination, Headers.idName])
    (hs : Sound names s) (ht : Tallied s) (h : s.move carrier f mv = some s') : Tallied s' := by
  have hbalances := hs.balances_of_move hnames h
  obtain ⟨lost, hlost, harrivals⟩ := ht.arrivals
  have hmessages : Metrics.sum s'.world.books.aggregated = s'.world.books.accounted := by
    have := ht.messages
    have := hbalances.messages
    omega
  have hgroups : s'.world.books.shown = some s'.world.groups.count ∨
      s'.world.groups.count = 0 := by
    rcases hbalances.groups with ⟨hcount, hshown⟩ | hshown
    · rcases ht.groups with hold | hold
      · exact .inl (hshown.trans (hold.trans (congrArg some hcount.symm)))
      · exact .inr (hcount.trans hold)
    · exact .inl hshown
  refine ⟨hmessages, ?_, hgroups⟩
  cases Traffic.moved_of_move h with
  | @steps i st w c call step =>
    obtain ⟨htallies, hgone⟩ := hs.tallies_of_step hnames call step
    have hopen := sum_map_set Sending.open call c
    have hsum := sum_map_set Sending.gone call c
    have hnew := htallies.arrivals
    rw [hgone] at hsum
    refine ⟨lost, ?_, ?_⟩
    · show lost ≤ ((s.calls.set i c).map Sending.gone).sum
      simp only [Sending.gone] at hsum
      omega
    · show w.books.received = w.books.settled + ((s.calls.set i c).map Sending.open).sum + lost
      omega
  | @drops i st desk call suspends =>
    have hopen := sum_map_set Sending.open call .dropped
    have hsum := sum_map_set Sending.gone call .dropped
    have hone : Sending.open (.running st) ≤ 1 := by
      cases st <;> simp [Sending.open, Flow.Stage.open]
    simp only [Sending.gone] at hsum
    refine ⟨lost + Sending.open (.running st), ?_, ?_⟩
    · show _ ≤ ((s.calls.set i .dropped).map Sending.gone).sum
      omega
    · show s.world.books.received =
        s.world.books.settled + ((s.calls.set i .dropped).map Sending.open).sum + _
      have hnone : Sending.open .dropped = 0 := rfl
      omega
  | sends m =>
    refine ⟨lost, ?_, ?_⟩
    · simpa [Sending.gone] using hlost
    · simpa [Sending.open, Flow.Stage.open] using harrivals
  | quiet => exact ⟨lost, hlost, harrivals⟩

theorem Tallied.run (hf : f.Standard names)
    (hnames : names.payloadType ∉ [names.messageName, names.destination, Headers.idName])
    (hs : Sound names s) (ht : Tallied s) {moves : List Move}
    (h : Traffic.run carrier f moves s = some s') : Tallied s' := by
  refine (Traffic.inv_of_run (I := fun t => Sound names t ∧ Tallied t) ?_ h ⟨hs, ht⟩).2
  rintro t mv t' - ⟨hs, ht⟩ hmv
  exact ⟨hs.move hf hmv, ht.move hnames hs hmv⟩

/-- A number of groups that is shown goes on being shown. -/
theorem Sound.shown_of_run (hf : f.Standard names)
    (hnames : names.payloadType ∉ [names.messageName, names.destination, Headers.idName])
    (hs : Sound names s) (hshown : s.world.books.shown = some s.world.groups.count)
    {moves : List Move} (h : Traffic.run carrier f moves s = some s') :
    s'.world.books.shown = some s'.world.groups.count := by
  refine (Traffic.inv_of_run (I := fun t => Sound names t ∧
    t.world.books.shown = some t.world.groups.count) ?_ h ⟨hs, hshown⟩).2
  rintro t mv t' - ⟨hs, hshown⟩ hmv
  refine ⟨hs.move hf hmv, ?_⟩
  rcases (hs.balances_of_move hnames hmv).groups with ⟨hcount, hsame⟩ | hnew
  · exact hsame.trans (hshown.trans (congrArg some hcount.symm))
  · exact hnew

end

/-- The metrics account for every message, whatever the calls of a standard flow do, however their
steps interleave, and however the output channel fails.  Once all calls have returned, each message
that was received was discarded, or could not be correlated or decoded, or the handlers were done
with it.  At any time each message that was aggregated is in a group, or is one of the two that an
output to a waiting execution took out of it, or the one that an output to a start took, or was
removed by a cancellation.  And once there was a group, the number of groups is shown. -/
theorem books_balanced {settings : FlowSettings}
    (hadvices : ∀ a ∈ settings.advices, a.Standard settings.names)
    (hnames : settings.names.payloadType ∉
      [settings.names.messageName, settings.names.destination, Headers.idName])
    {carrier : Carrier κ} {channel : κ} {clock : Clock} {claims : ClaimStore}
    {letters : DeadLetterQueue} {moves : List Move} {s : Traffic κ}
    (h : Traffic.run carrier settings.flow moves
      (.start (.start channel clock claims letters)) = some s) :
    ((∀ c ∈ s.calls, ∃ r, c = .returned r) →
      s.world.metrics.total .received =
        s.world.metrics.total .discarded + s.world.metrics.total .correlationErrors +
          s.world.metrics.total .decodeErrors + (s.world.metrics.samples .handled).length) ∧
    Metrics.sum s.world.metrics.aggregated =
      s.world.groups.stored +
        2 * (s.world.metrics.released.find? "ReceiveMessagePayload").getD 0 +
        (s.world.metrics.released.find? "StartMessagePayload").getD 0 +
        s.world.metrics.total .cancelledRemoved ∧
    ∀ before t, before <+: moves → Traffic.run carrier settings.flow before
        (.start (.start channel clock claims letters)) = some t → 0 < t.world.groups.count →
      s.world.metrics.gauge? .groups = some s.world.groups.count := by
  have hf := FlowSettings.flow_standard hadvices
  have hsound := (Quiet.start settings.names channel clock claims letters).sound
  have hstart := Tallied.start channel clock claims letters
  have hs := hstart.run hf hnames hsound h
  refine ⟨fun hover => ?_, hs.messages, fun before t hbefore ht hcount => ?_⟩
  · obtain ⟨lost, hlost, harrivals⟩ := hs.arrivals
    have hnone (g : Sending → Nat) (hg : ∀ r, g (.returned r) = 0) :
        (s.calls.map g).sum = 0 := by
      refine List.sum_eq_zero fun n hn => ?_
      obtain ⟨c, hc, rfl⟩ := List.mem_map.mp hn
      obtain ⟨r, rfl⟩ := hover c hc
      exact hg r
    have hopen := hnone Sending.open fun _ => rfl
    have hgone := hnone Sending.gone fun _ => rfl
    show s.world.books.received = s.world.books.settled
    omega
  · obtain ⟨rest, rfl⟩ := hbefore
    rw [Traffic.run_append, ht, Option.bind_some] at h
    have hshown := (hstart.run hf hnames hsound ht).groups.resolve_right (by omega)
    exact (hsound.run hf ht).shown_of_run hf hnames hshown h

/-- A message without an event type. -/
def untyped : RawMessage := ⟨Uuid.ofNat 9, Headers.none, []⟩

/-- Whether every call has returned. -/
def Traffic.over (s : Traffic κ) : Bool :=
  s.calls.all fun c => match c with
    | .returned _ => true
    | _ => false

theorem Traffic.returned_of_over {s : Traffic κ} (h : s.over = true) :
    ∀ c ∈ s.calls, ∃ r, c = .returned r := by
  intro c hc
  have := List.all_eq_true.mp h c hc
  cases c with
  | returned r => exact ⟨r, rfl⟩
  | running st => cases this
  | dropped => cases this

/-- A subscription, two payments, of which the first is refused by the output, and a message that
says nothing: the moves up to the end of the first call, and those after it. -/
def paymentRefused : List Move × List Move :=
  ([.send (orderAwaited 1), .send (orderSent 2), .send (orderSent 3), .send untyped] ++
      .replicate 11 (.step 0),
    .replicate 13 (.step 1) ++ .replicate 16 (.step 2) ++ .replicate 2 (.step 3))

set_option maxRecDepth 100000 in
/-- After a refused payment, a delivered one and a discarded message the books are balanced. -/
theorem books_balanced_refused : ∃ s t : Traffic Outlet,
    Traffic.run Outlet.carrier (FlowSettings.flow {}) (paymentRefused.1 ++ paymentRefused.2)
      (.start (.recording [some (.rejected "refused")])) = some s ∧
    Traffic.run Outlet.carrier (FlowSettings.flow {}) paymentRefused.1
      (.start (.recording [some (.rejected "refused")])) = some t ∧
    0 < t.world.groups.count ∧ (∀ c ∈ s.calls, ∃ r, c = .returned r) ∧
    s.world.metrics.total .received = 4 ∧
    s.world.metrics.total .received =
      s.world.metrics.total .discarded + s.world.metrics.total .correlationErrors +
        s.world.metrics.total .decodeErrors + (s.world.metrics.samples .handled).length ∧
    Metrics.sum s.world.metrics.aggregated =
      s.world.groups.stored +
        2 * (s.world.metrics.released.find? "ReceiveMessagePayload").getD 0 +
        (s.world.metrics.released.find? "StartMessagePayload").getD 0 +
        s.world.metrics.total .cancelledRemoved ∧
    s.world.metrics.gauge? .groups = some s.world.groups.count := by
  have hrun : (Traffic.run Outlet.carrier (FlowSettings.flow {})
      (paymentRefused.1 ++ paymentRefused.2)
      (.start (.recording [some (.rejected "refused")]))).any
      (fun s => s.over && s.world.metrics.total .received = 4) = true := by decide +kernel
  have hfirst : (Traffic.run Outlet.carrier (FlowSettings.flow {}) paymentRefused.1
      (.start (.recording [some (.rejected "refused")]))).any
      (fun t => 0 < t.world.groups.count) = true := by decide +kernel
  obtain ⟨s, hs, hend⟩ := (Option.any_eq_true _ _).mp hrun
  obtain ⟨t, ht, hgroups⟩ := (Option.any_eq_true _ _).mp hfirst
  obtain ⟨hover, hfour⟩ := Bool.and_eq_true_iff.mp hend
  have hreturned := Traffic.returned_of_over hover
  have hcount := of_decide_eq_true hgroups
  have hadvices : ∀ a ∈ ({} : FlowSettings).advices, a.Standard {} := fun _ h => by cases h
  obtain ⟨harrivals, hmessages, hshown⟩ := books_balanced hadvices (by decide) hs
  exact ⟨s, t, hs, ht, hcount, hreturned, of_decide_eq_true hfour, harrivals hreturned, hmessages,
    hshown _ t (List.prefix_append ..) ht hcount⟩

end Rendezvous
