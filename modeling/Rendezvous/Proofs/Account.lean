/-
What a whole section of work makes of a group.

The account of a key is the outputs that were accepted for it and the messages that are pending.
Work on a group first lets its message join, or takes registrations out, and then releases outputs
for as long as it can: `Account.serve` is that loop as a function, for a channel that answers by a
verdict.  `Stage.next` says of a stage of work which account its loop goes on from.  A step leaves
this account as it is or releases one output of it, and the last step leaves it behind
(`Aggregation.step_next`, `Reconciliation.step_next`).  So however long the work takes, what it
makes of an account is told by the account it began with.
-/
import Rendezvous.Proofs.Section

namespace Rendezvous

/-- The outputs that were accepted for the keys that `of` picks, oldest first. -/
def outputs (of : CorrelationKey → Bool) : List Deed → List Release
  | [] => []
  | .accept k r :: h => if of k then outputs of h ++ [r] else outputs of h
  | _ :: h => outputs of h

/-- Outputs that were accepted, and pending messages. -/
structure Account where
  outputs : List Release
  messages : List EventMessage

/-- The messages of a key, with the outputs for the keys that `of` picks. -/
def account (of : CorrelationKey → Bool) (key : CorrelationKey) (h : List Deed) : Account :=
  ⟨outputs of h, (page key h).messages⟩

/-! ## Histories -/

section
variable {of : CorrelationKey → Bool} {key : CorrelationKey} {h : List Deed} {d : Deed}

/-- A deed for another key leaves the outputs that are picked and the messages. -/
theorem account_cons_of_ne (hd : d.key? ≠ some key) (hof : ∀ k, d.key? = some k → of k = false) :
    account of key (d :: h) = account of key h := by
  rw [account, account, page_cons_of_ne hd]
  cases d with
  | accept k r =>
    have hk : of k = false := hof k rfl
    simp [outputs, hk]
  | append | remove | settle => rfl

/-- What does not grow by deeds for a key keeps its account. -/
theorem Grows.account_eq {names : HeaderNames} {may : Deed → Prop} {h' : List Deed}
    (hg : Grows names may h h')
    (hmay : ∀ d k, may d → d.key? = some k → k ≠ key ∧ of k = false) :
    account of key h' = account of key h := by
  obtain rfl | ⟨d, rfl, hd, -⟩ := hg
  · rfl
  · refine account_cons_of_ne (fun hk => ?_) fun k hk => (hmay d k hd hk).2
    exact (hmay d key hd hk).1 rfl

theorem account_append (of : CorrelationKey → Bool) (key : CorrelationKey) (m : EventMessage)
    (h : List Deed) : account of key (.append key m :: h) =
      ⟨outputs of h, (page key h).messages ++ [m]⟩ := by
  rw [account, page_append]
  rfl

theorem account_accept (hof : of key = true) (r : Release) (h : List Deed) :
    account of key (.accept key r :: h) = ⟨outputs of h ++ [r], (page key h).messages⟩ := by
  rw [account, page_accept, outputs, if_pos hof]

theorem account_remove (of : CorrelationKey → Bool) (key : CorrelationKey) (ids : List Uuid)
    (why : Removal) (h : List Deed) : account of key (.remove key ids why :: h) =
      ⟨outputs of h, without ids (page key h).messages⟩ := by
  rw [account, page_remove]
  rfl

end

/-! ## Accounts -/

namespace Account

def append (a : Account) (m : EventMessage) : Account := ⟨a.outputs, a.messages ++ [m]⟩

/-- A message joins the others unless it is among them. -/
def join (m : EventMessage) (a : Account) : Account :=
  if a.messages.any fun o => o.id = m.id then a else a.append m

theorem messages_join (m : EventMessage) (a : Account) : (a.join m).messages =
    if m.id ∈ a.messages.map Message.id then a.messages else a.messages ++ [m] := by
  have hany : a.messages.any (fun o => o.id = m.id) = true ↔
      m.id ∈ a.messages.map Message.id := by simp
  rw [join, if_congr hany rfl rfl]
  split <;> rfl

theorem outputs_join (m : EventMessage) (a : Account) : (a.join m).outputs = a.outputs := by
  unfold join
  split <;> rfl

def drop (a : Account) (ids : List Uuid) : Account := ⟨a.outputs, without ids a.messages⟩

/-- The registrations leave. -/
def cancel (names : HeaderNames) (a : Account) : Account :=
  ⟨a.outputs, a.messages.filter fun m => !m.isOf names .startDeployed⟩

/-- An output was accepted, and its messages left. -/
def after (a : Account) (r : Release) : Account := ⟨a.outputs ++ [r], without r.consumed a.messages⟩

variable (names : HeaderNames) (verdict : RawMessage → Except ChannelError Unit)
  (key : CorrelationKey)

/-- The loop of releases over a channel that answers by a verdict, and its outcome. -/
def serve (a : Account) : Account × Except HandlerError Unit :=
  match _h : Release.of? names key a.messages with
  | none => (a, .ok ())
  | some r =>
    match verdict r.message with
    | .ok () => serve (a.after r)
    | .error e => (a, .error (.dispatch e))
termination_by a.messages.length
decreasing_by exact Release.length_without_consumed_lt _h

variable {names verdict key} {a : Account} {r : Release}

theorem serve_of_none (h : Release.of? names key a.messages = none) :
    serve names verdict key a = (a, .ok ()) := by
  rw [serve]
  split
  · rfl
  · next heq =>
    rw [h] at heq
    cases heq

theorem serve_of_accepted (h : Release.of? names key a.messages = some r)
    (hv : verdict r.message = .ok ()) :
    serve names verdict key a = serve names verdict key (a.after r) := by
  rw [serve]
  split
  · next heq =>
    rw [h] at heq
    cases heq
  · next heq =>
    obtain rfl : _ = r := Option.some.inj (heq.symm.trans h)
    rw [hv]

theorem serve_of_refused {e : ChannelError} (h : Release.of? names key a.messages = some r)
    (hv : verdict r.message = .error e) :
    serve names verdict key a = (a, .error (.dispatch e)) := by
  rw [serve]
  split
  · next heq =>
    rw [h] at heq
    cases heq
  · next heq =>
    obtain rfl : _ = r := Option.some.inj (heq.symm.trans h)
    rw [hv]

end Account

/-! ## Where the loop of releases goes on from -/

/-- The account that work of a stage goes on from with its releases. -/
def Aggregation.Stage.next (m : EventMessage) : Aggregation.Stage → Account → Account
  | .read => Account.join m
  | .append => fun a => a.append m
  | .remove r => fun a => a.drop r.consumed
  | _ => id

/-- What a reconciliation of a stage will have made of an account. -/
def Reconciliation.Stage.next (names : HeaderNames) : Reconciliation.Stage → Account → Account
  | .read => Account.cancel names
  | .purge ids => fun a => a.drop ids

variable {κ : Type}

/-- The states a channel may get to by one step of work on a group. -/
def Carrier.Reaches (carrier : Carrier κ) (c c' : κ) : Prop :=
  c' = c ∨ c' = (carrier.delay c).1 ∨ ∃ m, c' = (carrier.send c m).1

/-- An output of an account was accepted by the channel. -/
def Account.Releases (carrier : Carrier κ) (names : HeaderNames) (key : CorrelationKey)
    (a a' : Account) : Prop :=
  ∃ channel r, (carrier.send channel r.message).2 = .ok () ∧
    Release.of? names key a.messages = some r ∧ a' = a.after r

/-- Why the releases of an account end: nothing is left to release, or the channel, which goes
from `c` to `c'`, refuses the output. -/
inductive Account.Stops (carrier : Carrier κ) (names : HeaderNames) (key : CorrelationKey)
    (a : Account) (c c' : κ) : Except HandlerError Unit → Prop
  | done (none : Release.of? names key a.messages = none) (same : c' = c) :
      Stops carrier names key a c c' (.ok ())
  | refused {r : Release} {e : ChannelError} (some : Release.of? names key a.messages = some r)
      (answer : carrier.send c r.message = (c', .error e)) :
      Stops carrier names key a c c' (.error (.dispatch e))

section
variable {carrier : Carrier κ} {names : HeaderNames} {key : CorrelationKey} {m : EventMessage}
  {w : World κ}

/-- A step of aggregating work leaves the account that it goes on from as it is, or releases an
output of it. -/
def Aggregation.Goes (carrier : Carrier κ) (names : HeaderNames) (key : CorrelationKey)
    (m : EventMessage) (w : World κ) (st : Aggregation.Stage) (w' : World κ)
    (st' : Aggregation.Stage) : Prop :=
  carrier.Reaches w.channel w'.channel ∧ ∀ of, of key = true →
    st'.next m (account of key w'.history) = st.next m (account of key w.history) ∨
    Account.Releases carrier names key (st.next m (account of key w.history))
      (st'.next m (account of key w'.history))

/-- The last step leaves that account behind. -/
def Aggregation.Halts (carrier : Carrier κ) (names : HeaderNames) (key : CorrelationKey)
    (m : EventMessage) (w : World κ) (st : Aggregation.Stage) (w' : World κ)
    (result : Except HandlerError Unit) : Prop :=
  ∀ of, of key = true → account of key w'.history = st.next m (account of key w.history) ∧
    Account.Stops carrier names key (st.next m (account of key w.history)) w.channel w'.channel
      result

theorem Aggregation.step_next {retry : RetryPolicy} {timeout : Option Nat}
    {st : Aggregation.Stage} (hw : Faithful names w) (hm : Pertains names key m)
    (hst : st.Grounded names key m (page key w.history)) :
    (Aggregation.step carrier (.default names retry timeout) key m w st).Ensures
      (Aggregation.Goes carrier names key m w st) (Aggregation.Halts carrier names key m w st) := by
  have hsame : carrier.Reaches w.channel w.channel := Or.inl rfl
  cases st with
  | read =>
    have hread (of : CorrelationKey → Bool) : account of key (w.record (.asked .group)).history =
        account of key w.history := rfl
    simp only [step, World.readGroup_eq hw.faultless]
    cases hg : w.groups.group? key with
    | none =>
      have hnil := hw.pages key ▸ GroupStore.messages_of_group?_none hg
      refine ⟨hsame, fun of _ => Or.inl ?_⟩
      show (account of key w.history).append m = (account of key w.history).join m
      rw [Account.join, account, hnil]
      rfl
    | some g =>
      obtain ⟨-, hms⟩ := hw.of_group? hg
      have hcontains (of : CorrelationKey → Bool) : g.contains m.id =
          ((account of key w.history).messages.any fun o => o.id = m.id) := by
        rw [Group.contains, hms]
        rfl
      dsimp only
      by_cases hc : g.contains m.id = true
      · rw [if_pos hc]
        refine ⟨hsame, fun of _ => Or.inl ?_⟩
        show account of key w.history = (account of key w.history).join m
        rw [Account.join, if_pos (hcontains of ▸ hc)]
      · rw [if_neg hc]
        refine ⟨hsame, fun of _ => Or.inl ?_⟩
        show (account of key w.history).append m = (account of key w.history).join m
        rw [Account.join, if_neg (hcontains of ▸ hc)]
  | append =>
    have hd : (Deed.append key m).Legal names w.history := ⟨hst.1, hst.2, hm⟩
    obtain ⟨w', g, happ, -, -, hh, hch, -, -⟩ := World.appendMessage_spec hw hd
    simp only [step, happ]
    refine ⟨Or.inl hch, fun of _ => Or.inl ?_⟩
    show account of key w'.history = (account of key w.history).append m
    rw [hh, account_append]
    rfl
  | decide g =>
    obtain ⟨-, hkey, hms⟩ := hst
    simp only [step, Aggregator.default, Release.ready_eq_isSome, Release.processor,
      Release.ofGroup?_eq, hkey, hms]
    cases hr : Release.of? names key (page key w.history).messages with
    | none => exact fun of _ => ⟨rfl, .done hr rfl⟩
    | some r =>
      have hne : r.consumed.isEmpty = false := by
        simpa using Release.consumed_ne_nil hr
      simp only [Option.isSome_some, if_true, hne, Bool.false_eq_true, if_false]
      exact ⟨hsame, fun of _ => Or.inl rfl⟩
  | attempt r n =>
    have hdelay : carrier.Reaches w.channel (carrier.delay w.channel).1 := Or.inr (Or.inl rfl)
    simp only [step]
    cases (carrier.delay w.channel).2 with
    | none => exact ⟨hdelay, fun of _ => Or.inl rfl⟩
    | some millis => exact ⟨hdelay, fun of _ => Or.inl rfl⟩
  | transit r n arrival =>
    simp only [step]
    split
    · trivial
    · exact ⟨hsame, fun of _ => Or.inl rfl⟩
  | arrive r n =>
    obtain ⟨-, hr⟩ := hst
    simp only [step]
    cases hs : carrier.send w.channel r.message with
    | mk channel answer =>
      have hsend : carrier.Reaches w.channel channel := Or.inr (Or.inr ⟨r.message, by rw [hs]⟩)
      cases answer with
      | ok u =>
        refine ⟨hsend, fun of hof => Or.inr ⟨w.channel, r, by rw [hs], hr, ?_⟩⟩
        show (account of key (.accept key r :: w.history)).drop r.consumed =
          (account of key w.history).after r
        rw [account_accept hof]
        rfl
      | error e =>
        dsimp only [failed]
        split
        · exact ⟨hsend, fun of _ => Or.inl rfl⟩
        · split <;> exact fun of _ => ⟨rfl, .refused hr hs⟩
  | pause r n wake =>
    simp only [step]
    split
    · trivial
    · exact ⟨hsame, fun of _ => Or.inl rfl⟩
  | remove r =>
    obtain ⟨hdue, hr⟩ := hst
    have hd : (Deed.remove key r.consumed .released).Legal names w.history := ⟨r, hdue, rfl⟩
    have hne : (page key w.history).messages ≠ [] := by
      obtain ⟨sent, hsent, -⟩ := Release.sent_mem_consumed hr
      exact List.ne_nil_of_mem (List.mem_of_find?_eq_some hsent)
    obtain ⟨w', hrem, -, -, hh, hch⟩ := World.removeMessages_spec hw hd hne
    have hcount : (countReleased (.default names retry timeout) w' r).history = w'.history ∧
        (countReleased (.default names retry timeout) w' r).channel = w'.channel := by
      unfold countReleased
      split <;> exact ⟨rfl, rfl⟩
    simp only [step, hrem]
    refine ⟨Or.inl (hcount.2.trans hch), fun of _ => Or.inl ?_⟩
    show account of key (countReleased _ w' r).history =
      (account of key w.history).drop r.consumed
    rw [hcount.1, hh, account_remove]
    rfl
  | reread =>
    simp only [step, World.readGroup_eq hw.faultless]
    cases hg : w.groups.group? key with
    | none =>
      have hnil : (page key w.history).messages = [] :=
        hw.pages key ▸ GroupStore.messages_of_group?_none hg
      refine fun of _ => ⟨rfl, .done ?_ rfl⟩
      show Release.of? names key (page key w.history).messages = none
      rw [hnil]
      rfl
    | some g => exact ⟨hsame, fun of _ => Or.inl rfl⟩

/-- A step of a reconciliation leaves what it will have made of an account as it is. -/
def Reconciliation.Goes (names : HeaderNames) (key : CorrelationKey) (w : World κ)
    (st : Reconciliation.Stage) (w' : World κ) (st' : Reconciliation.Stage) : Prop :=
  w'.channel = w.channel ∧ ∀ of,
    st'.next names (account of key w'.history) = st.next names (account of key w.history)

def Reconciliation.Halts (names : HeaderNames) (key : CorrelationKey) (w : World κ)
    (st : Reconciliation.Stage) (w' : World κ) (result : Except HandlerError Nat) : Prop :=
  w'.channel = w.channel ∧ (∃ n, result = .ok n) ∧ ∀ of,
    account of key w'.history = st.next names (account of key w.history)

theorem Reconciliation.step_next {timeout : Option Nat} {st : Reconciliation.Stage}
    (hw : Faithful names w) (hst : st.Grounded names (page key w.history)) :
    (Reconciliation.step (.default names timeout) key w st).Ensures
      (Reconciliation.Goes names key w st) (Reconciliation.Halts names key w st) := by
  have hcancel (of : CorrelationKey → Bool) : (account of key w.history).cancel names =
      (account of key w.history).drop (stale names (page key w.history).messages) := by
    rw [Account.drop, account, hw.lawful.without_stale]
    rfl
  have hend (hnil : stale names (page key w.history).messages = []) (of : CorrelationKey → Bool) :
      account of key w.history = (account of key w.history).cancel names := by
    rw [hcancel, hnil, Account.drop, without_nil]
  cases st with
  | read =>
    simp only [step, World.readGroup_eq hw.faultless]
    cases hg : w.groups.group? key with
    | none =>
      have hnil : (page key w.history).messages = [] :=
        hw.pages key ▸ GroupStore.messages_of_group?_none hg
      exact ⟨rfl, ⟨0, rfl⟩, hend (by rw [hnil]; rfl)⟩
    | some g =>
      have hstale : (Reconciler.default names timeout).stale g =
          stale names (page key w.history).messages := by
        rw [← (hw.of_group? hg).2]
        rfl
      dsimp only
      rw [hstale]
      by_cases hempty : (stale names (page key w.history).messages).isEmpty = true
      · rw [if_pos hempty]
        exact ⟨rfl, ⟨0, rfl⟩, hend (List.isEmpty_iff.mp hempty)⟩
      · rw [if_neg hempty]
        exact ⟨rfl, fun of => (hcancel of).symm⟩
  | purge ids =>
    obtain ⟨hdue, hids, hne⟩ := hst
    have hd : (Deed.remove key ids .cancelled).Legal names w.history := ⟨hdue, hids⟩
    have hms : (page key w.history).messages ≠ [] := by
      intro hnil
      rw [hids, hnil] at hne
      exact hne rfl
    obtain ⟨w', hrem, -, -, hh, hch⟩ := World.removeMessages_spec hw hd hms
    simp only [step, hrem]
    refine ⟨hch, ⟨ids.length, rfl⟩, fun of => ?_⟩
    show account of key w'.history = (account of key w.history).drop ids
    rw [hh, account_remove]
    rfl

end

end Rendezvous
