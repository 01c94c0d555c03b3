/-
A group is drained first come, first served.

The messages of a group stand in three columns, the sent ones, the waiting ones and the
registrations, each in the order of arrival.  The loop of releases takes the heads of the columns:
it delivers sent messages to executions as long as both columns have a head, and only then starts
processes from the sent messages that are left, all of them of the oldest registration.  So the
outputs of a group are told by its columns at once (`Release.paired`), and so is what stays
(`Unpaired`).  A release shortens the columns by their heads, and an induction over the releases
carries this through the loop (`Account.release_paired`).

The work of the aggregator is that loop spread over many steps.  While it runs, others work on
other groups, on the channel and on the clock; they leave the group alone, because its lock is
held.  `Completes` says of a task that it comes to its end whatever they do.  Of every step it holds
that an output is accepted exactly if its message reached the channel just then
(`Aggregation.step_sends`), so a record kept beside the channel tells of the same outputs.
-/
import Rendezvous.Proofs.Matching
import Rendezvous.Proofs.Membership

namespace Rendezvous

/-! ## Columns -/

/-- The messages of a type, oldest first. -/
def column (names : HeaderNames) (type : EventType) (ms : List EventMessage) : List EventMessage :=
  ms.filter (Message.isOf names type)

/-- The outputs of a group: messages are delivered in their order, and if there is a registration,
the messages that no execution waits for start processes of the oldest one. -/
def Release.paired (names : HeaderNames) (key : CorrelationKey) (ms : List EventMessage) :
    List Release :=
  List.zipWith (delivery names key) (column names .sent ms) (column names .waiting ms) ++
    match column names .startDeployed ms with
    | [] => []
    | deployed :: _ =>
      ((column names .sent ms).drop (column names .waiting ms).length).map
        (launch names key deployed)

/-- What stays of a group: the messages that no output consumed, in their order. -/
structure Unpaired (names : HeaderNames) (key : CorrelationKey) (ms rest : List EventMessage) :
    Prop where
  order : rest = without ((Release.paired names key ms).flatMap Release.consumed) ms
  deployed : column names .startDeployed rest = column names .startDeployed ms
  waiting : column names .waiting rest =
    (column names .waiting ms).drop (column names .sent ms).length
  sent : column names .sent rest =
    if column names .startDeployed ms = [] then
      (column names .sent ms).drop (column names .waiting ms).length
    else []

section
variable {names : HeaderNames} {key : CorrelationKey} {type : EventType} {m x : EventMessage}
  {ms rest : List EventMessage} {ids ids' : List Uuid} {r : Release} {a : Account}

theorem find?_isOf_eq_head? (names : HeaderNames) (type : EventType) (ms : List EventMessage) :
    ms.find? (Message.isOf names type) = (column names type ms).head? :=
  List.head?_filter.symm

theorem mem_column : m ∈ column names type ms ↔ m ∈ ms ∧ m.isOf names type = true :=
  List.mem_filter

theorem column_eq_nil_iff : column names type ms = [] ↔ ∀ m ∈ ms, m.isOf names type = false := by
  simp [column, List.filter_eq_nil_iff]

theorem column_without (names : HeaderNames) (type : EventType) (ids : List Uuid)
    (ms : List EventMessage) :
    column names type (without ids ms) = without ids (column names type ms) := by
  rw [column, without, without, column, List.filter_comm]

theorem without_without (ids ids' : List Uuid) (ms : List EventMessage) :
    without ids' (without ids ms) = without (ids ++ ids') ms := by
  simp only [without, List.filter_filter]
  refine List.filter_congr fun m _ => ?_
  rw [List.contains_eq_mem, List.contains_eq_mem, List.contains_eq_mem]
  simp [Bool.and_comm]

theorem nodup_without (h : (ms.map Message.id).Nodup) (ids : List Uuid) :
    ((without ids ms).map Message.id).Nodup :=
  h.sublist ((without_sublist ids ms).map _)

/-- A column loses its head if the head is taken out with messages that are not of its type. -/
theorem without_head (h : (ms.map Message.id).Nodup) (hcolumn : column names type ms = x :: rest)
    (hx : x.id ∈ ids) (hids : ∀ o ∈ ms, o.id ∈ ids → o.isOf names type = true → o = x) :
    column names type (without ids ms) = rest := by
  have hsub : (x :: rest).Sublist ms := hcolumn ▸ List.filter_sublist
  rw [column_without, hcolumn, without_cons_of_mem hx]
  refine without_eq_self fun o ho hid => ?_
  have hmem : o ∈ column names type ms := hcolumn ▸ List.mem_cons_of_mem x ho
  have hox := hids o (mem_column.mp hmem).1 hid (mem_column.mp hmem).2
  exact ne_of_nodup_cons h hsub o ho (congrArg Message.id hox)

/-- A column stays if nothing of its type is taken out. -/
theorem column_without_of_forall (hids : ∀ o ∈ ms, o.id ∈ ids → o.isOf names type = false) :
    column names type (without ids ms) = column names type ms := by
  rw [column_without]
  refine without_eq_self fun o ho hid => ?_
  obtain ⟨hmem, htype⟩ := mem_column.mp ho
  rw [hids o hmem hid] at htype
  cases htype

/-! ## Releases shorten the columns -/

theorem eq_of_id_eq (h : (ms.map Message.id).Nodup) {o o' : EventMessage} (ho : o ∈ ms)
    (ho' : o' ∈ ms) (hid : o.id = o'.id) : o = o' :=
  List.inj_on_of_nodup_map h ho ho' hid

/-- An output that delivers a message takes the heads of two columns. -/
theorem columns_delivery {s w : EventMessage} {sent waiting : List EventMessage}
    (h : (ms.map Message.id).Nodup) (hsent : column names .sent ms = s :: sent)
    (hwaiting : column names .waiting ms = w :: waiting) :
    column names .sent (without [s.id, w.id] ms) = sent ∧
      column names .waiting (without [s.id, w.id] ms) = waiting ∧
      column names .startDeployed (without [s.id, w.id] ms) = column names .startDeployed ms := by
  obtain ⟨hs, hstype⟩ := mem_column.mp (hsent ▸ List.mem_cons_self : s ∈ column names .sent ms)
  obtain ⟨hw, hwtype⟩ :=
    mem_column.mp (hwaiting ▸ List.mem_cons_self : w ∈ column names .waiting ms)
  have htaken : ∀ o ∈ ms, o.id ∈ [s.id, w.id] → o = s ∨ o = w := by
    intro o ho hid
    rcases List.mem_pair.mp hid with hid | hid
    · exact Or.inl (eq_of_id_eq h ho hs hid)
    · exact Or.inr (eq_of_id_eq h ho hw hid)
  refine ⟨without_head h hsent (by simp) fun o ho hid htype => ?_,
    without_head h hwaiting (by simp) fun o ho hid htype => ?_,
    column_without_of_forall fun o ho hid => ?_⟩
  · refine (htaken o ho hid).resolve_right fun how => ?_
    exact absurd (Message.isOf_unique (how ▸ htype) hwtype) (by decide)
  · refine (htaken o ho hid).resolve_left fun hos => ?_
    exact absurd (Message.isOf_unique (hos ▸ htype) hstype) (by decide)
  · rcases htaken o ho hid with rfl | rfl
    · exact Message.isOf_of_ne (by decide) hstype
    · exact Message.isOf_of_ne (by decide) hwtype

/-- An output that starts a process takes the head of the sent messages. -/
theorem columns_launch {s : EventMessage} {sent : List EventMessage}
    (h : (ms.map Message.id).Nodup) (hsent : column names .sent ms = s :: sent) :
    column names .sent (without [s.id] ms) = sent ∧
      ∀ type, type.text ≠ EventType.sent.text →
        column names type (without [s.id] ms) = column names type ms := by
  obtain ⟨hs, hstype⟩ := mem_column.mp (hsent ▸ List.mem_cons_self : s ∈ column names .sent ms)
  have htaken : ∀ o ∈ ms, o.id ∈ [s.id] → o = s := fun o ho hid =>
    eq_of_id_eq h ho hs (List.mem_singleton.mp hid)
  refine ⟨without_head h hsent (by simp) fun o ho hid _ => htaken o ho hid,
    fun type htype => column_without_of_forall fun o ho hid => ?_⟩
  obtain rfl := htaken o ho hid
  exact Message.isOf_of_ne (Ne.symm htype) hstype

/-- What stays after an output and those that follow it. -/
theorem Unpaired.cons (h : Unpaired names key (without r.consumed ms) rest)
    (hpaired : Release.paired names key ms =
      r :: Release.paired names key (without r.consumed ms)) :
    rest = without ((Release.paired names key ms).flatMap Release.consumed) ms := by
  rw [hpaired, List.flatMap_cons, ← without_without]
  exact h.order

variable (key) in
/-- A group without an output stays as it is. -/
theorem paired_of_settled (h : Settled names ms) :
    Release.paired names key ms = [] ∧ Unpaired names key ms ms := by
  have hpaired : Release.paired names key ms = [] := by
    rcases h with hsent | htaken
    · rw [Release.paired, column_eq_nil_iff.mpr hsent, List.zipWith_nil_left, List.drop_nil]
      cases column names .startDeployed ms <;> rfl
    · rw [Release.paired, column_eq_nil_iff.mpr fun m hm => (htaken m hm).1,
        column_eq_nil_iff.mpr fun m hm => (htaken m hm).2, List.zipWith_nil_right]
      rfl
  refine ⟨hpaired, ?_, rfl, ?_, ?_⟩
  · rw [hpaired, List.flatMap_nil, without_nil]
  · rcases h with hsent | htaken
    · rw [column_eq_nil_iff.mpr hsent]
      rfl
    · rw [column_eq_nil_iff.mpr fun m hm => (htaken m hm).1, List.drop_nil]
  · rcases h with hsent | htaken
    · rw [column_eq_nil_iff.mpr hsent, List.drop_nil, ite_self]
    · rw [if_pos (column_eq_nil_iff.mpr fun m hm => (htaken m hm).2),
        column_eq_nil_iff.mpr fun m hm => (htaken m hm).1]
      rfl

/-- The first output of a group, and the others: those of what it leaves. -/
theorem paired_of_some (h : (ms.map Message.id).Nodup) (hr : Release.of? names key ms = some r) :
    Release.paired names key ms = r :: Release.paired names key (without r.consumed ms) ∧
      ∀ rest, Unpaired names key (without r.consumed ms) rest → Unpaired names key ms rest := by
  obtain ⟨s, hs, hcase⟩ := Release.of?_eq_some_iff_made.mp hr
  rw [find?_isOf_eq_head?, List.head?_eq_some_iff] at hs
  obtain ⟨sent, hsent⟩ := hs
  rcases hcase with ⟨w, hw, rfl⟩ | ⟨hw, d, hd, rfl⟩
  · rw [find?_isOf_eq_head?, List.head?_eq_some_iff] at hw
    obtain ⟨waiting, hwaiting⟩ := hw
    obtain ⟨hsent', hwaiting', hdeployed'⟩ := columns_delivery h hsent hwaiting
    have hpaired : Release.paired names key ms = Release.delivery names key s w ::
        Release.paired names key (without [s.id, w.id] ms) := by
      rw [Release.paired, Release.paired, hsent, hwaiting, hsent', hwaiting', hdeployed']
      rfl
    refine ⟨hpaired, fun rest (hrest : Unpaired names key (without [s.id, w.id] ms) rest) =>
      ⟨hrest.cons hpaired, hrest.deployed.trans hdeployed', ?_, ?_⟩⟩
    · rw [hrest.waiting, hwaiting', hsent', hwaiting, hsent]
      rfl
    · rw [hrest.sent, hdeployed', hwaiting', hsent', hwaiting, hsent]
      rfl
  · rw [find?_isOf_eq_head?, List.head?_eq_none_iff] at hw
    rw [find?_isOf_eq_head?, List.head?_eq_some_iff] at hd
    obtain ⟨deployed, hdeployed⟩ := hd
    obtain ⟨hsent', hothers⟩ := columns_launch h hsent
    have hwaiting' := (hothers .waiting (by decide)).trans hw
    have hdeployed' := (hothers .startDeployed (by decide)).trans hdeployed
    have hpaired : Release.paired names key ms = Release.launch names key d s ::
        Release.paired names key (without [s.id] ms) := by
      rw [Release.paired, Release.paired, hsent, hw, hdeployed, hsent', hwaiting', hdeployed',
        List.zipWith_nil_right, List.zipWith_nil_right]
      rfl
    refine ⟨hpaired, fun rest (hrest : Unpaired names key (without [s.id] ms) rest) =>
      ⟨hrest.cons hpaired, ?_, ?_, ?_⟩⟩
    · rw [hrest.deployed, hdeployed', hdeployed]
    · rw [hrest.waiting, hwaiting', hw, List.drop_nil, List.drop_nil]
    · rw [hrest.sent, hdeployed', hdeployed, if_neg (List.cons_ne_nil d deployed),
        if_neg (List.cons_ne_nil d deployed)]

variable (names key) in
/-- The loop of releases makes the outputs of the columns and leaves the rest. -/
theorem Account.release_paired (h : (a.messages.map Message.id).Nodup) :
    (a.release names key).2 = .ok () ∧
      (a.release names key).1.outputs = a.outputs ++ Release.paired names key a.messages ∧
      Unpaired names key a.messages (a.release names key).1.messages := by
  induction hlen : a.messages.length using Nat.strong_induction_on generalizing a with
  | h n ih =>
    cases hr : Release.of? names key a.messages with
    | none =>
      obtain ⟨hpaired, hrest⟩ :=
        paired_of_settled key (Release.of?_eq_none_iff.mp hr)
      rw [Account.release, Account.serve_of_none hr, hpaired, List.append_nil]
      exact ⟨rfl, rfl, hrest⟩
    | some r =>
      obtain ⟨hpaired, hrest⟩ := paired_of_some h hr
      have hlt : (a.after r).messages.length < n :=
        hlen ▸ Release.length_without_consumed_lt hr
      obtain ⟨hok, houtputs, hleft⟩ := ih _ hlt (nodup_without h r.consumed) rfl
      rw [Account.release, Account.serve_of_accepted hr rfl, hpaired]
      refine ⟨hok, houtputs.trans ?_, hrest _ hleft⟩
      rw [List.append_cons]
      rfl

end

/-! ## Tasks that come to their end -/

variable {κ σ ρ : Type}

/-- The task comes to its end, and `Q` holds there, whatever others make of the world between its
steps within `amid`.  A wait is over some time after the moment it is for. -/
inductive Completes (step : World κ → σ → Progress (World κ) σ ρ)
    (amid : World κ → World κ → Prop) (Q : World κ → ρ → Prop) : World κ → σ → Prop
  | ends {w s v r} (last : step w s = .ends v r) (done : Q v r) : Completes step amid Q w s
  | steps {w s v t} (next : (step w s).next? = some (v, t))
      (rest : ∀ v', amid v v' → Completes step amid Q v' t) : Completes step amid Q w s
  | waits {w s wake} (wait : step w s = .waits (some wake))
      (woken : ∀ v, amid w v → wake ≤ v.now → Completes step amid Q v s) :
      Completes step amid Q w s

/-- A task that waits for a moment goes on after it. -/
theorem Completes.of_alarm {step : World κ → σ → Progress (World κ) σ ρ}
    {amid : World κ → World κ → Prop} {Q : World κ → ρ → Prop} {P : World κ → Prop} {w : World κ}
    {s t : σ} {wake : Nat}
    (hstep : ∀ v, step v s = if v.now < wake then .waits (some wake) else .resumes v t)
    (hamid : ∀ v u, P v → amid v u → P u) (hrest : ∀ v, P v → Completes step amid Q v t)
    (hw : P w) : Completes step amid Q w s := by
  have hlands (v : World κ) (hv : P v) (hnow : wake ≤ v.now) : Completes step amid Q v s :=
    .steps (v := v) (t := t) (by rw [hstep, if_neg (Nat.not_lt.mpr hnow)]; rfl)
      fun u hu => hrest u (hamid v u hv hu)
  by_cases hnow : wake ≤ w.now
  · exact hlands w hw hnow
  · exact .waits (by rw [hstep, if_pos (Nat.not_le.mp hnow)])
      fun v hv hwoken => hlands v (hamid w v hw hv) hwoken

theorem Completes.mono {step : World κ → σ → Progress (World κ) σ ρ}
    {amid : World κ → World κ → Prop} {Q Q' : World κ → ρ → Prop} {w : World κ} {s : σ}
    (h : Completes step amid Q w s) (hQ : ∀ v r, Q v r → Q' v r) :
    Completes step amid Q' w s := by
  induction h with
  | ends last done => exact .ends last (hQ _ _ done)
  | steps next rest ih => exact .steps next ih
  | waits wait woken ih => exact .waits wait ih

/-- What every step and all others keep holds at the end too, also if others do less. -/
theorem Completes.keeps {step : World κ → σ → Progress (World κ) σ ρ}
    {amid amid' : World κ → World κ → Prop} {Q : World κ → ρ → Prop} {P : World κ → Prop}
    {w : World κ} {s : σ} (h : Completes step amid Q w s) (hamid : ∀ u v, amid' u v → amid u v)
    (hothers : ∀ u v, P u → amid' u v → P v)
    (hstep : ∀ u s, P u → (step u s).Ensures (fun v _ => P v) fun v _ => P v) (hw : P w) :
    Completes step amid' (fun v r => Q v r ∧ P v) w s := by
  induction h with
  | @ends w s v r last done =>
    have hlast := hstep w s hw
    rw [last] at hlast
    exact .ends last ⟨done, hlast⟩
  | @steps w s v t next rest ih =>
    have hv : P v := (hstep w s hw).of_next? next
    exact .steps next fun u hu => ih u (hamid v u hu) (hothers v u hv hu)
  | @waits w s wake wait woken ih =>
    exact .waits wait fun v hv hwake => ih v (hamid w v hv) hwake (hothers w v hw hv)

/-! ## Groups that others leave alone -/

namespace GroupStore

/-- After a removal a group is there exactly if a message is left. -/
theorem group?_remove (s : GroupStore) (key : CorrelationKey) (ids : List Uuid) (now : Stamp) :
    (s.remove key ids now).group? key = none ↔ (s.remove key ids now).messages key = [] := by
  refine ⟨messages_of_group?_none, fun hnil => ?_⟩
  rw [messages_remove, if_pos rfl] at hnil
  rw [group?_remove_self]
  cases hg : s.group? key with
  | none => rfl
  | some g =>
    rw [← (of_group? hg).2] at hnil
    exact if_pos (List.isEmpty_iff.mpr hnil)

end GroupStore

/-- The outputs that were accepted for a key, oldest first. -/
def World.outputs (w : World κ) (key : CorrelationKey) : List Release :=
  Rendezvous.outputs (· = key) w.history

/-- What a world shows of a key: the outputs that were accepted, and the messages that are
pending. -/
def World.standing (w : World κ) (key : CorrelationKey) : Account :=
  ⟨w.outputs key, w.groups.messages key⟩

/-- What others do while the group of a key is locked: they leave it alone, and nothing is accepted
for its key. -/
structure World.Spares (key : CorrelationKey) (w v : World κ) : Prop where
  faultless : v.storeFaults = w.storeFaults
  group : v.groups.group? key = w.groups.group? key
  outputs : v.outputs key = w.outputs key

/-- The account of a key in a world whose stores do not fail; there is a group exactly if there are
messages. -/
structure World.Holds (key : CorrelationKey) (w : World κ) (a : Account) : Prop where
  faultless : w.storeFaults = []
  outputs : w.outputs key = a.outputs
  messages : w.groups.messages key = a.messages
  absent : w.groups.group? key = none ↔ a.messages = []

section
variable {key : CorrelationKey} {w v : World κ} {a : Account} {m : EventMessage} {r : Release}

theorem GroupStore.messages_eq {s s' : GroupStore} (h : s'.group? key = s.group? key) :
    s'.messages key = s.messages key := by
  cases hg : s.group? key with
  | none => rw [messages_of_group?_none hg, messages_of_group?_none (h.trans hg)]
  | some g => rw [← (of_group? hg).2, ← (of_group? (h.trans hg)).2]

theorem World.Spares.of_same (hf : v.storeFaults = w.storeFaults) (hg : v.groups = w.groups)
    (hh : v.history = w.history) : w.Spares key v :=
  ⟨hf, congrArg (GroupStore.group? · key) hg, congrArg (Rendezvous.outputs (· = key)) hh⟩

theorem World.Spares.standing (h : w.Spares key v) : v.standing key = w.standing key := by
  rw [World.standing, World.standing, h.outputs, GroupStore.messages_eq h.group]

theorem World.outputs_accept (h : v.history = .accept key r :: w.history) :
    v.outputs key = w.outputs key ++ [r] := by
  rw [World.outputs, h, Rendezvous.outputs, if_pos (decide_eq_true rfl), World.outputs]

/-- A message is appended to its group. -/
theorem World.holds_append (hw : w.storeFaults = []) (key : CorrelationKey) (m : EventMessage) :
    ∃ v g, w.appendMessage key m = (v, .ok g) ∧ v.Holds key ((w.standing key).append m) ∧
      g.key = key ∧ g.messages = ((w.standing key).append m).messages := by
  rw [World.appendMessage, World.askStore_eq hw]
  refine ⟨_, _, rfl, ⟨hw, rfl, ?_, iff_of_false ?_ ?_⟩, rfl, GroupStore.messages_snd_add _ _ _ _⟩
  · exact (GroupStore.messages_add _ _ _ _ _).trans (if_pos rfl)
  · exact (GroupStore.group?_add_self _ _ _ _).symm ▸ Option.some_ne_none _
  · exact List.append_ne_nil_of_right_ne_nil _ (List.cons_ne_nil m [])

namespace World.Holds

theorem amid (h : w.Holds key a) (hv : w.Spares key v) : v.Holds key a :=
  ⟨hv.faultless.trans h.faultless, hv.outputs.trans h.outputs,
    (GroupStore.messages_eq hv.group).trans h.messages, hv.group ▸ h.absent⟩

theorem accept (h : w.Holds key a) (hf : v.storeFaults = w.storeFaults) (hg : v.groups = w.groups)
    (hh : v.history = .accept key r :: w.history) :
    v.Holds key ⟨a.outputs ++ [r], a.messages⟩ :=
  ⟨hf.trans h.faultless, h.outputs ▸ World.outputs_accept hh, hg ▸ h.messages, hg ▸ h.absent⟩

/-- Taking messages out leaves the others. -/
theorem remove (h : w.Holds key a) (ids : List Uuid) (why : Removal) :
    ∃ v, w.removeMessages key ids why = (v, .ok ()) ∧ v.Holds key (a.drop ids) := by
  have hmessages (now : Stamp) :
      (w.groups.remove key ids now).messages key = without ids a.messages := by
    rw [GroupStore.messages_remove, if_pos rfl, h.messages]
  have habsent (now : Stamp) := w.groups.group?_remove key ids now
  rw [World.removeMessages, World.askStore_eq h.faultless]
  cases hg : w.groups.group? key with
  | none =>
    have hdrop : a.drop ids = a := by
      rw [Account.drop, h.absent.mp hg]
      exact congrArg (Account.mk _) (h.absent.mp hg).symm
    simp only [World.stamp, World.record, hg, hdrop]
    exact ⟨_, rfl, h.amid (.of_same rfl rfl rfl)⟩
  | some g =>
    simp only [World.stamp, World.record, hg]
    exact ⟨_, rfl, h.faultless, h.outputs, hmessages _, (habsent _).trans (by rw [hmessages]; rfl)⟩

end World.Holds

/-! ## The work of the aggregator -/

namespace Aggregation

variable {carrier : Carrier κ} {names : HeaderNames} {retry : RetryPolicy} {timeout : Option Nat}
  {g : Group}

/-- The group was drained: what the loop of releases makes of the account was done. -/
def Drained (names : HeaderNames) (key : CorrelationKey) (a : Account) (w : World κ)
    (result : Except HandlerError Unit) : Prop :=
  result = .ok () ∧ w.Holds key (a.release names key).1

/-- From the stage on the work comes to its end, and the group is drained. -/
abbrev Drains (carrier : Carrier κ) (names : HeaderNames) (retry : RetryPolicy)
    (timeout : Option Nat) (key : CorrelationKey) (m : EventMessage) (a : Account) (w : World κ)
    (st : Stage) : Prop :=
  Completes (step carrier (.default names retry timeout) key m) (World.Spares key)
    (Drained names key a) w st

/-- The consumed messages are taken out, and the group is read again. -/
theorem completes_remove {a : Aggregator} {Q : World κ → Except HandlerError Unit → Prop}
    (P : World κ → Prop) (hamid : ∀ u v, P u → u.Spares key v → P v)
    (hfaultless : ∀ u, P u → u.storeFaults = [])
    (hremove : ∃ v, w.removeMessages key r.consumed .released = (v, .ok ()) ∧ P v)
    (hlast : ∀ u, P u → u.groups.group? key = none → Q u (.ok ()))
    (hnext : ∀ u g, P u → u.groups.group? key = some g →
      Completes (step carrier a key m) (World.Spares key) Q u (.decide g)) :
    Completes (step carrier a key m) (World.Spares key) Q w (.remove r) := by
  obtain ⟨v, hremove, hv⟩ := hremove
  have hcounted : P (countReleased a v r) := by
    unfold countReleased
    split <;> exact hamid v _ hv (.of_same rfl rfl rfl)
  refine .steps (v := countReleased a v r) (t := .reread)
    (by simp only [step, hremove]; rfl) fun u hu => ?_
  have hheld : P u := hamid _ u hcounted hu
  have hread := World.readGroup_eq (hfaultless u hheld) key
  have hasked : P (u.record (.asked .group)) := hamid u _ hheld (.of_same rfl rfl rfl)
  cases hg : u.groups.group? key with
  | none =>
    exact .ends (v := u.record (.asked .group)) (r := .ok ())
      (by simp only [step, hread, hg]) (hlast _ hasked hg)
  | some g =>
    exact .steps (v := u.record (.asked .group)) (t := .decide g)
      (by simp only [step, hread, hg]; rfl)
      fun u' hu' => hnext u' g (hamid _ u' hasked hu') (hu'.group.trans hg)

theorem drains_remove
    (hafter : ∀ w g, w.Holds key (a.after r) → g.key = key →
      g.messages = (a.after r).messages →
      Drains carrier names retry timeout key m (a.after r) w (.decide g))
    (hw : w.Holds key ⟨a.outputs ++ [r], a.messages⟩) :
    Drains carrier names retry timeout key m (a.after r) w (.remove r) := by
  refine completes_remove (fun u => u.Holds key (a.after r)) (fun _ _ hu hv => hu.amid hv)
    (fun _ hu => hu.faultless) (hw.remove r.consumed .released) (fun u hu hnone => ?_)
    fun u g hu hg => ?_
  · have hsettled : Settled names (a.after r).messages := by
      rw [hu.absent.mp hnone]
      exact Or.inl fun m hm => absurd hm List.not_mem_nil
    rw [Drained, Account.release_of_settled hsettled]
    exact ⟨rfl, hu⟩
  · obtain ⟨hkey, hmessages⟩ := GroupStore.of_group? hg
    exact hafter u g hu hkey (hmessages.trans hu.messages)

/-- An attempt begins, and arrives at the channel after some time or at once. -/
theorem completes_attempt {a : Aggregator}
    {work : World κ → Stage → Progress (World κ) Stage (Except HandlerError Unit)}
    {amid : World κ → World κ → Prop} {Q : World κ → Except HandlerError Unit → Prop} {n : Nat}
    (P : World κ → Prop)
    (hattempt : ∀ v, work v (.attempt r n) = step carrier a key m v (.attempt r n))
    (htransit : ∀ v arrival,
      work v (.transit r n arrival) = step carrier a key m v (.transit r n arrival))
    (hamid : ∀ v u, P v → amid v u → P u)
    (harrive : ∀ v, P v → Completes work amid Q v (.arrive r n))
    (hoffered : P ({ w with channel := (carrier.delay w.channel).1 }.record
      (.attempted w.now r.message))) :
    Completes work amid Q w (.attempt r n) := by
  cases hdelay : (carrier.delay w.channel).2 with
  | none =>
    refine .steps (t := .arrive r n) (by rw [hattempt]; simp only [step, hdelay]; rfl)
      fun v hv => harrive v (hamid _ v hoffered hv)
  | some millis =>
    refine .steps (t := .transit r n (w.now + millis))
      (by rw [hattempt]; simp only [step, hdelay]; rfl) fun v hv => ?_
    exact .of_alarm (fun v => by rw [htransit]; rfl) hamid harrive (hamid _ v hoffered hv)

/-- An output that the channel accepts is offered to it once. -/
theorem completes_accepted {a : Aggregator} {amid : World κ → World κ → Prop}
    {Q : World κ → Except HandlerError Unit → Prop} {n : Nat} (P P' : World κ → Prop)
    (haccepts : ∀ channel m, (carrier.send channel m).2 = .ok ())
    (hamid : ∀ v u, P v → amid v u → P u) (hamid' : ∀ v u, P' v → amid v u → P' u)
    (haccept : ∀ v channel, P v → P' ({ v with channel := channel }.record (.accepted key r)))
    (hremove : ∀ v, P' v → Completes (step carrier a key m) amid Q v (.remove r))
    (hoffered : P ({ w with channel := (carrier.delay w.channel).1 }.record
      (.attempted w.now r.message))) :
    Completes (step carrier a key m) amid Q w (.attempt r n) := by
  refine completes_attempt P (fun _ => rfl) (fun _ _ => rfl) hamid (fun v hv => ?_) hoffered
  have hsend : carrier.send v.channel r.message =
      ((carrier.send v.channel r.message).1, .ok ()) := Prod.ext rfl (haccepts _ _)
  exact .steps
    (v := { v with channel := (carrier.send v.channel r.message).1 }.record (.accepted key r))
    (t := .remove r) (by rw [step, hsend]; rfl)
    fun u hu => hremove u (hamid' _ u (haccept v _ hv) hu)

theorem drains_attempt (haccepts : ∀ channel m, (carrier.send channel m).2 = .ok ())
    (hremove : ∀ w, w.Holds key ⟨a.outputs ++ [r], a.messages⟩ →
      Drains carrier names retry timeout key m (a.after r) w (.remove r))
    (hw : w.Holds key a) (n : Nat) :
    Drains carrier names retry timeout key m (a.after r) w (.attempt r n) :=
  completes_accepted (fun v => v.Holds key a)
    (fun v => v.Holds key ⟨a.outputs ++ [r], a.messages⟩) haccepts
    (fun _ _ hv hu => hv.amid hu) (fun _ _ hv hu => hv.amid hu)
    (fun _ _ hv => hv.accept rfl rfl rfl) hremove (hw.amid (.of_same rfl rfl rfl))

/-- The induction is on the number of messages: every output takes one out at least. -/
theorem drains_decide (haccepts : ∀ channel m, (carrier.send channel m).2 = .ok ())
    (hw : w.Holds key a) (hkey : g.key = key) (hmessages : g.messages = a.messages) :
    Drains carrier names retry timeout key m a w (.decide g) := by
  induction hlen : a.messages.length using Nat.strong_induction_on generalizing a w g with
  | h n ih =>
    cases hr : Release.of? names key a.messages with
    | none =>
      refine .ends (v := w) (r := .ok ()) ?_ ⟨rfl, ?_⟩
      · simp only [step, Aggregator.default, Release.ready_eq_isSome, hkey, hmessages, hr]
        rfl
      · rw [Account.release_of_settled (Release.of?_eq_none_iff.mp hr)]
        exact hw
    | some r =>
      have hsame : Drained (κ := κ) names key a = Drained names key (a.after r) := by
        unfold Drained Account.release
        rw [Account.serve_of_accepted hr rfl]
      have hlt : (a.after r).messages.length < n :=
        hlen ▸ Release.length_without_consumed_lt hr
      have hconsumed : r.consumed.isEmpty = false := by
        simpa using Release.consumed_ne_nil hr
      refine .steps (v := w) (t := .attempt r 0) ?_ fun v hv => ?_
      · simp only [step, Aggregator.default, Release.ready_eq_isSome, Release.processor,
          Release.ofGroup?_eq, hkey, hmessages, hr, Option.isSome_some, if_true, hconsumed,
          Bool.false_eq_true, if_false]
        rfl
      · rw [hsame]
        refine drains_attempt haccepts (fun u hu => ?_) (hw.amid hv) 0
        exact drains_remove (fun u g hu hkey hmessages => ih _ hlt hu hkey hmessages rfl) hu

theorem drains_append (haccepts : ∀ channel m, (carrier.send channel m).2 = .ok ())
    (hw : w.storeFaults = []) :
    Drains carrier names retry timeout key m ((w.standing key).append m) w .append := by
  obtain ⟨v, g, happend, hv, hkey, hmessages⟩ := World.holds_append hw key m
  refine .steps (t := .decide g) (by simp only [step, happend]; rfl) fun u hu => ?_
  have hcounted (metrics : Metrics) :
      ({ v with metrics := metrics } : World κ).Holds key ((w.standing key).append m) :=
    hv.amid (.of_same rfl rfl rfl)
  exact drains_decide haccepts ((hcounted _).amid hu) hkey hmessages

/-- A message joins its group, and the group is drained. -/
theorem drains_read (haccepts : ∀ channel m, (carrier.send channel m).2 = .ok ())
    (hw : w.storeFaults = []) :
    Drains carrier names retry timeout key m ((w.standing key).join m) w .read := by
  have hread := World.readGroup_eq hw key
  have happend (habsent : ¬(w.standing key).messages.any fun o => o.id = m.id) :
      ∀ v, (w.record (.asked .group)).Spares key v →
        Drains carrier names retry timeout key m ((w.standing key).join m) v .append := by
    intro v hv
    have hstanding : (w.standing key).join m = (v.standing key).append m := by
      rw [Account.join, if_neg habsent, hv.standing]
      rfl
    rw [hstanding]
    exact drains_append haccepts (hv.faultless.trans hw)
  cases hg : w.groups.group? key with
  | none =>
    refine .steps (t := .append) (by simp only [step, hread, hg]; rfl) (happend ?_)
    rw [World.standing, GroupStore.messages_of_group?_none hg]
    exact Bool.false_ne_true
  | some g =>
    obtain ⟨hkey, hmessages⟩ := GroupStore.of_group? hg
    have hcontains : g.contains m.id = (w.standing key).messages.any fun o => o.id = m.id := by
      rw [Group.contains, hmessages]
      rfl
    by_cases hmem : g.contains m.id = true
    · refine .steps (v := w.record (.asked .group)) (t := .decide g)
        (by simp only [step, hread, hg, hmem]; rfl) fun v hv => ?_
      rw [Account.join, if_pos (hcontains ▸ hmem)]
      have hne : (w.standing key).messages ≠ [] := by
        intro hnil
        rw [hcontains, hnil] at hmem
        cases hmem
      have hasked : (w.record (.asked .group)).Holds key (w.standing key) :=
        ⟨hw, rfl, rfl, iff_of_false (by rw [World.record, hg]; exact Option.some_ne_none g) hne⟩
      exact drains_decide haccepts (hasked.amid hv) hkey hmessages
    · refine .steps (t := .append) (by simp only [step, hread, hg, hmem]; rfl) (happend ?_)
      exact hcontains ▸ hmem

end Aggregation

end

/-! ## What reaches the channel -/

/-- What is offered to a channel, and what it answers. -/
abbrev Offer := RawMessage × Except ChannelError Unit

/-- The channel with a record of what was offered to it. -/
def Carrier.recording (carrier : Carrier κ) : Carrier (κ × List Offer) where
  delay c :=
    let (channel, delay) := carrier.delay c.1
    ((channel, c.2), delay)
  send c m :=
    let (channel, answer) := carrier.send c.1 m
    ((channel, c.2 ++ [(m, answer)]), answer)

/-- Others do what they like, with the channel too.  Their offers are not in the record. -/
def World.Aloof (w v : World (κ × List Offer)) : Prop := v.channel.2 = w.channel.2

/-- Since an earlier world exactly the outputs that were accepted for the key reached the channel. -/
def World.Sends (key : CorrelationKey) (w v : World (κ × List Offer)) : Prop :=
  ∃ sent, v.outputs key = w.outputs key ++ sent ∧
    v.channel.2 = w.channel.2 ++ sent.map fun r => (r.message, .ok ())

section
variable {key : CorrelationKey} {start w v : World (κ × List Offer)} {m : EventMessage}

theorem World.Sends.refl (key : CorrelationKey) (w : World (κ × List Offer)) : w.Sends key w :=
  ⟨[], (List.append_nil _).symm, (List.append_nil _).symm⟩

/-- Nothing reached the channel, and nothing was accepted. -/
theorem World.Sends.same (h : start.Sends key w) (houtputs : v.outputs key = w.outputs key)
    (hrecord : v.channel.2 = w.channel.2) : start.Sends key v := by
  obtain ⟨sent, hsent, hoffers⟩ := h
  exact ⟨sent, houtputs.trans hsent, hrecord.trans hoffers⟩

/-- An output reached the channel, and was accepted. -/
theorem World.Sends.accept {r : Release} (h : start.Sends key w)
    (hhistory : v.history = .accept key r :: w.history)
    (hrecord : v.channel.2 = w.channel.2 ++ [(r.message, .ok ())]) : start.Sends key v := by
  obtain ⟨sent, hsent, hoffers⟩ := h
  refine ⟨sent ++ [r], ?_, ?_⟩
  · rw [World.outputs_accept hhistory, hsent, List.append_assoc]
  · rw [hrecord, hoffers, List.map_append, List.append_assoc]
    rfl

/-- The store of groups has nothing to do with the channel. -/
theorem World.askStore_sends (h : start.Sends key w) (call : StoreCall) :
    start.Sends key (w.askStore call).1 := h.same rfl rfl

theorem World.readGroup_sends (h : start.Sends key w) :
    start.Sends key (w.readGroup key).1 := by
  have hask := World.askStore_sends h .group
  unfold readGroup
  split <;> (rename_i heq; rw [heq] at hask; exact hask)

theorem World.appendMessage_sends (h : start.Sends key w) (m : EventMessage) :
    start.Sends key (w.appendMessage key m).1 := by
  have hask := World.askStore_sends h .add
  unfold appendMessage
  split <;> rename_i heq <;> rw [heq] at hask
  · exact hask
  · exact hask.same rfl rfl

theorem World.removeMessages_sends (h : start.Sends key w) (ids : List Uuid) (why : Removal) :
    start.Sends key (w.removeMessages key ids why).1 := by
  have hask := World.askStore_sends h .remove
  unfold removeMessages
  split <;> rename_i heq <;> rw [heq] at hask
  · exact hask
  · dsimp only
    split
    · exact hask.same rfl rfl
    · exact hask.same rfl rfl

/-- What a step of the aggregator accepts is what it sent. -/
theorem Aggregation.step_sends {carrier : Carrier κ} {a : Aggregator}
    (haccepts : ∀ channel m, (carrier.send channel m).2 = .ok ()) (h : start.Sends key w)
    (st : Aggregation.Stage) : (Aggregation.step carrier.recording a key m w st).Ensures
      (fun v _ => start.Sends key v) fun v _ => start.Sends key v := by
  refine Aggregation.step_keeps (World.readGroup_sends h) (World.appendMessage_sends h m)
    (fun ids => World.removeMessages_sends h ids .released) (fun _ _ hv => hv.same rfl rfl)
    (fun _ => h.same rfl rfl) (fun r channel hsend => ?_) (fun r channel e hsend => ?_) h st
  · have hrecord : channel.2 = w.channel.2 ++ [(r.message, .ok ())] := by
      obtain rfl : _ = channel := congrArg Prod.fst hsend
      rw [← haccepts w.channel.1 r.message]
      rfl
    exact h.accept rfl hrecord
  · have hanswer : (carrier.recording.send w.channel r.message).2 = .ok () := haccepts _ _
    rw [hsend] at hanswer
    cases hanswer

/-- A message joins its group unless it is there, and over a channel that accepts everything the
group is drained first come, first served: the work comes to its end, whatever others do meanwhile
outside of the group.  Exactly the commands of the columns were sent, and what no output consumed
stays in its order.  There is no group if nothing stays. -/
theorem Aggregation.drains_in_order {carrier : Carrier κ} {names : HeaderNames}
    {retry : RetryPolicy} {timeout : Option Nat} {joined : List EventMessage}
    (haccepts : ∀ channel m, (carrier.send channel m).2 = .ok ()) (hw : w.storeFaults = [])
    (hjoined : joined =
      if m.id ∈ (w.groups.messages key).map Message.id then w.groups.messages key
      else w.groups.messages key ++ [m])
    (hids : (joined.map Message.id).Nodup) :
    Completes (Aggregation.step carrier.recording (.default names retry timeout) key m)
      (fun u v => u.Spares key v ∧ u.Aloof v)
      (fun v result => result = .ok () ∧
        v.outputs key = w.outputs key ++ Release.paired names key joined ∧
        v.channel.2 = w.channel.2 ++
          (Release.paired names key joined).map (fun r => (r.message, .ok ())) ∧
        Unpaired names key joined (v.groups.messages key) ∧
        (v.groups.group? key = none ↔ v.groups.messages key = []))
      w .read := by
  have hmessages : ((w.standing key).join m).messages = joined :=
    (Account.messages_join m (w.standing key)).trans hjoined.symm
  have houtputs : ((w.standing key).join m).outputs = w.outputs key :=
    Account.outputs_join m (w.standing key)
  obtain ⟨-, hpaired, hleft⟩ := Account.release_paired names key (hmessages.symm ▸ hids)
  rw [hmessages] at hpaired hleft
  have hdrains : Drains carrier.recording names retry timeout key m ((w.standing key).join m) w
      .read := drains_read (fun _ _ => haccepts _ _) hw
  have hsends : Completes (Aggregation.step carrier.recording (.default names retry timeout) key m)
      (fun u v => u.Spares key v ∧ u.Aloof v)
      (fun v result => Drained names key ((w.standing key).join m) v result ∧ w.Sends key v) w
      .read :=
    hdrains.keeps (fun _ _ hamid => hamid.1) (fun _ _ hu hamid => hu.same hamid.1.outputs hamid.2)
      (fun _ st hu => step_sends haccepts hu st) (World.Sends.refl key w)
  refine hsends.mono fun v result hdone => ?_
  obtain ⟨⟨hresult, hv⟩, sent, hsent, hrecord⟩ := hdone
  have hall : v.outputs key = w.outputs key ++ Release.paired names key joined := by
    rw [hv.outputs, hpaired, houtputs]
  obtain rfl : Release.paired names key joined = sent :=
    List.append_cancel_left (hall.symm.trans hsent)
  exact ⟨hresult, hall, hrecord, hv.messages ▸ hleft, hv.absent.trans (by rw [hv.messages])⟩

end

/-- An event about the payment of order 42. -/
def paidOrder (id : Nat) (type : EventType) : EventMessage :=
  ⟨Uuid.ofNat id, Headers.none.putText "eventType" type.text, { name := "order-paid" }⟩

/-- A world with one group, of messages about the payment of order 42. -/
def World.paidOrders (ms : List EventMessage) : World (List RawMessage) :=
  { World.start [] ⟨Stamp.start2025, 1⟩ (.ofCapacity 10) (.ofSize 10 "errors") with
    groups := ⟨Dict.empty.insert "order-paid:42" ⟨ms, Stamp.start2025, Stamp.start2025⟩⟩ }

theorem World.peopled_paidOrders {ms : List EventMessage} (h : ms ≠ []) :
    (World.paidOrders ms).groups.Peopled := by
  intro key g hg
  rw [World.paidOrders, Dict.find?_insert] at hg
  split at hg
  · obtain rfl := Option.some.inj hg
    exact h
  · cases hg

/-- A payment with a number and a business key. -/
def paidFor (id : Nat) (business : String) : EventMessage :=
  ⟨Uuid.ofNat id, Headers.none.putText "eventType" "MESSAGE_SENT",
    { name := "order-paid", businessKey := some business,
      vars := Dict.empty.insert "number" (.int id) }⟩

/-- An execution that waits for a payment. -/
def awaitedBy (id : Nat) (execution : String) : EventMessage :=
  ⟨Uuid.ofNat id, Headers.none.putText "eventType" "MESSAGE_WAITING",
    { name := "order-paid", executionId := some execution }⟩

/-- Two payments, a registration and an execution are pending when a third payment is made. -/
theorem Aggregation.drains_in_order_of_payments :
    let pending := [paidFor 1 "A", paidOrder 5 .startDeployed, paidFor 2 "B", awaitedBy 4 "X"]
    let start : World (List RawMessage × List Offer) :=
      { World.paidOrders pending with channel := ([], []) }
    Completes (Aggregation.step Carrier.taker.recording (.default {} {} none) "order-paid:42"
        (paidFor 3 "C")) (fun u v => u.Spares "order-paid:42" v ∧ u.Aloof v)
      (fun v result => result = .ok () ∧
        (v.outputs "order-paid:42").map Release.consumed =
          [[1, 4], [2], [3]].map (List.map Uuid.ofNat) ∧
        v.channel.2.map (fun o => (o.1.headers.text? "messagePayloadType", o.1.payload)) =
          [("ReceiveMessagePayload",
              "\x7b\"name\":\"order-paid\",\"correlationKey\":null,\"businessKey\":\"A\"," ++
                "\"variables\":\x7b\"number\":1\x7d,\"executionId\":\"X\"\x7d"),
            ("StartMessagePayload",
              "\x7b\"name\":\"order-paid\",\"correlationKey\":null,\"businessKey\":\"B\"," ++
                "\"variables\":\x7b\"number\":2\x7d\x7d"),
            ("StartMessagePayload",
              "\x7b\"name\":\"order-paid\",\"correlationKey\":null,\"businessKey\":\"C\"," ++
                "\"variables\":\x7b\"number\":3\x7d\x7d")].map
            (fun (kind, body) => (some kind, Text.toBytes body)) ∧
        v.groups.messages "order-paid:42" = [paidOrder 5 .startDeployed])
      start .read := by
  intro pending start
  have haccepts : ∀ channel m, (Carrier.taker.send channel m).2 = .ok () := fun _ _ => rfl
  have hjoined : pending ++ [paidFor 3 "C"] =
      if (paidFor 3 "C").id ∈ (start.groups.messages "order-paid:42").map Message.id
      then start.groups.messages "order-paid:42"
      else start.groups.messages "order-paid:42" ++ [paidFor 3 "C"] :=
    (if_neg (by decide +kernel)).symm
  have hids : ((pending ++ [paidFor 3 "C"]).map Message.id).Nodup := by decide +kernel
  refine (Aggregation.drains_in_order haccepts rfl hjoined hids).mono fun v result hdrained => ?_
  obtain ⟨hresult, houtputs, hrecord, hrest, -⟩ := hdrained
  refine ⟨hresult, ?_, ?_, ?_⟩
  · rw [houtputs, List.map_append]
    decide +kernel
  · rw [hrecord, List.map_append, List.map_map]
    decide +kernel
  · rw [hrest.order]
    rfl

end Rendezvous
