/-
When the loop of releases ends.

A rule and a processor may be any functions of the group.  What the loop makes of them is an output
that names messages, or nothing (`Aggregator.release?`); after an accepted output the store takes out
the messages of these names, and the loop goes on with what is left.  It comes to one group after
the other this way (`Aggregator.Comes`), and every one of them is smaller than the one before unless
an output names no message of its group at all.  The store then keeps the group as it is, and the
same output is made of it again (`Aggregator.Stuck`).

So the loop ends exactly if it comes to no such group.  One direction is an induction on the number
of messages; the other is an invariant that every step leads back to.
-/
import Rendezvous.Proofs.Draining

namespace Rendezvous

/-! ## The groups that the loop comes to -/

/-- The output that the loop makes of a group. -/
def Aggregator.release? (a : Aggregator) (g : Group) : Option Release :=
  if a.rule g then
    match a.processor g with
    | .ok (some r) => if r.consumed.isEmpty then none else some r
    | _ => none
  else none

/-- The loop comes from a group to another one, whatever the clock shows at the removals. -/
inductive Aggregator.Comes (a : Aggregator) : Group → Group → Prop
  | here (g : Group) : Comes a g g
  | next {g h left : Group} {r : Release} {now : Stamp} (release : a.release? g = some r)
      (after : g.after? r.consumed now = some left) (rest : Comes a left h) : Comes a g h

/-- An output is made of a group, and it names none of its messages. -/
def Aggregator.Stuck (a : Aggregator) (g : Group) : Prop :=
  g.messages ≠ [] ∧ ∃ r, a.release? g = some r ∧ ∀ m ∈ g.messages, m.id ∉ r.consumed

section
variable {a : Aggregator} {g left : Group} {r : Release} {now : Stamp} {ids : List Uuid}

theorem Group.after?_of_forall_not_mem (hne : g.messages ≠ [])
    (hids : ∀ m ∈ g.messages, m.id ∉ ids) (now : Stamp) : g.after? ids now = some g := by
  have hsame : without ids g.messages = g.messages := without_eq_self hids
  rw [after?, hsame, if_neg (by simpa using hne), if_pos rfl]

/-- What is left of a group are the messages that were not taken out, and some there are. -/
theorem Group.messages_after? (h : g.after? ids now = some left) :
    left.messages = without ids g.messages ∧ left.messages ≠ [] := by
  unfold after? at h
  split at h
  · cases h
  · next hleft =>
    have hne : without ids g.messages ≠ [] := fun hnil => hleft (List.isEmpty_iff.mpr hnil)
    split at h
    · next hlength =>
      obtain rfl := Option.some.inj h
      have hsame := (without_sublist ids g.messages).eq_of_length hlength
      exact ⟨hsame.symm, hsame ▸ hne⟩
    · obtain rfl := Option.some.inj h
      exact ⟨rfl, hne⟩

/-- Something is taken out of a group that is not stuck. -/
theorem Aggregator.size_after?_lt (hstuck : ¬a.Stuck g) (hne : g.messages ≠ [])
    (hr : a.release? g = some r) (h : g.after? r.consumed now = some left) :
    left.size < g.size := by
  have hnamed : ∃ m ∈ g.messages, m.id ∈ r.consumed := by
    by_contra hnone
    exact hstuck ⟨hne, r, hr, fun m hm hid => hnone ⟨m, hm, hid⟩⟩
  obtain ⟨m, hm, hid⟩ := hnamed
  rw [Group.size, (Group.messages_after? h).1]
  exact length_without_lt hm hid

theorem Aggregator.release?_eq_some_iff : a.release? g = some r ↔
    a.rule g = true ∧ a.processor g = .ok (some r) ∧ r.consumed ≠ [] := by
  unfold release?
  cases a.rule g with
  | false => simp
  | true =>
    cases a.processor g with
    | error e => simp
    | ok output =>
      cases output with
      | none => simp
      | some r' =>
        simp only [if_true, Except.ok.injEq, Option.some.injEq, true_and]
        by_cases hempty : r'.consumed = []
        · rw [if_pos (List.isEmpty_iff.mpr hempty)]
          refine iff_of_false (Option.some_ne_none r).symm ?_
          rintro ⟨rfl, hne⟩
          exact hne hempty
        · rw [if_neg fun hnil => hempty (List.isEmpty_iff.mp hnil), Option.some.injEq]
          exact ⟨fun hr => ⟨hr, hr ▸ hempty⟩, And.left⟩

/-- The standard rule and processor name messages of the group. -/
theorem Aggregator.not_stuck_default (names : HeaderNames) (retry : RetryPolicy)
    (timeout : Option Nat) (g : Group) : ¬(Aggregator.default names retry timeout).Stuck g := by
  rintro ⟨-, r, hr, hforeign⟩
  have hof : Release.of? names g.key g.messages = some r :=
    Except.ok.inj (release?_eq_some_iff.mp hr).2.1
  obtain ⟨sent, hsent, hmem⟩ := Release.sent_mem_consumed hof
  exact hforeign sent (List.mem_of_find?_eq_some hsent) hmem

end

/-! ## The loop -/

variable {κ : Type}

/-- The group of a key, in a world whose stores do not fail, and the outputs that were accepted. -/
structure World.Keeps (key : CorrelationKey) (w : World κ) (found : Option Group)
    (outputs : List Release) : Prop where
  faultless : w.storeFaults = []
  group : w.groups.group? key = found
  outputs : w.outputs key = outputs

section
variable {key : CorrelationKey} {w v : World κ} {g : Group} {found : Option Group}
  {outputs : List Release} {r : Release}

theorem World.Keeps.amid (h : w.Keeps key found outputs) (hv : w.Spares key v) :
    v.Keeps key found outputs :=
  ⟨hv.faultless.trans h.faultless, hv.group.trans h.group, hv.outputs.trans h.outputs⟩

theorem World.Keeps.accept (h : w.Keeps key found outputs) (hf : v.storeFaults = w.storeFaults)
    (hg : v.groups = w.groups) (hh : v.history = .accept key r :: w.history) :
    v.Keeps key found (outputs ++ [r]) :=
  ⟨hf.trans h.faultless, hg ▸ h.group, h.outputs ▸ World.outputs_accept hh⟩

/-- The named messages are taken out at the reading of the clock. -/
theorem World.Keeps.remove (h : w.Keeps key (some g) outputs) (ids : List Uuid) (why : Removal) :
    ∃ v, w.removeMessages key ids why = (v, .ok ()) ∧
      v.Keeps key (g.after? ids w.clock.tick.1) outputs := by
  have hafter : (w.groups.remove key ids w.clock.tick.1).group? key =
      g.after? ids w.clock.tick.1 := by
    rw [GroupStore.group?_remove_self, h.group, Option.bind_some]
  rw [World.removeMessages, World.askStore_eq h.faultless]
  simp only [World.stamp, World.record, h.group]
  exact ⟨_, rfl, h.faultless, hafter, h.outputs⟩

namespace Aggregation

variable {carrier : Carrier κ} {a : Aggregator} {m : EventMessage} {before : List Release}

/-- Outputs were accepted, and not too many. -/
def Released (key : CorrelationKey) (before : List Release) (n : Nat) (w : World κ)
    (_ : Except HandlerError Unit) : Prop :=
  ∃ outputs, w.outputs key = before ++ outputs ∧ outputs.length ≤ n

variable (key carrier m) in
/-- A group of which no output is made is the last one. -/
theorem ends_of_release?_none (h : a.release? g = none) (w : World κ) :
    ∃ result, step carrier a key m w (.decide g) = .ends w result := by
  unfold Aggregator.release? at h
  simp only [step]
  cases hrule : a.rule g with
  | false => exact ⟨.ok (), rfl⟩
  | true =>
    rw [hrule, if_pos rfl] at h
    cases hprocessor : a.processor g with
    | error e => exact ⟨.error e, rfl⟩
    | ok output =>
      rw [hprocessor] at h
      cases output with
      | none => exact ⟨.ok (), rfl⟩
      | some r =>
        refine ⟨.ok (), (if_pos rfl).trans (if_pos ?_)⟩
        by_contra hempty
        exact Option.some_ne_none r ((if_neg hempty).symm.trans h)

theorem goes_of_release?_some (h : a.release? g = some r) (w : World κ) :
    step carrier a key m w (.decide g) = .goes w (.attempt r 0) := by
  obtain ⟨hrule, hprocessor, hne⟩ := Aggregator.release?_eq_some_iff.mp h
  have hempty : ¬r.consumed.isEmpty = true := fun hnil => hne (List.isEmpty_iff.mp hnil)
  simp only [step, hrule, hprocessor, if_true, if_neg hempty]

theorem Released.of_next {n n' : Nat} {result : Except HandlerError Unit}
    (h : Released key (before ++ [r]) n w result) (hlt : n < n') :
    Released key before n' w result := by
  obtain ⟨outputs, houtputs, hbound⟩ := h
  exact ⟨r :: outputs, houtputs.trans (List.append_cons ..).symm, Nat.lt_of_le_of_lt hbound hlt⟩

/-- The induction is on the number of messages: unless the loop is stuck, every output takes one
out at least. -/
theorem released_decide (haccepts : ∀ channel m, (carrier.send channel m).2 = .ok ())
    (hfree : ∀ h, a.Comes g h → ¬a.Stuck h) (hne : g.messages ≠ [])
    (hw : w.Keeps key (some g) before) :
    Completes (step carrier a key m) (World.Spares key) (Released key before g.size) w
      (.decide g) := by
  induction hsize : g.size using Nat.strong_induction_on generalizing g w before with
  | h n ih =>
    cases hr : a.release? g with
    | none =>
      obtain ⟨result, hends⟩ := ends_of_release?_none key carrier m hr w
      exact .ends hends ⟨[], by rw [hw.outputs, List.append_nil], Nat.zero_le n⟩
    | some r =>
      have hpositive : 0 < n := hsize ▸ List.length_pos_iff.mpr hne
      refine .steps (v := w) (t := .attempt r 0)
        (by rw [goes_of_release?_some hr]; rfl) fun v hv => ?_
      refine completes_accepted (fun v => v.Keeps key (some g) before)
        (fun v => v.Keeps key (some g) (before ++ [r])) haccepts (fun _ _ hu hv => hu.amid hv)
        (fun _ _ hu hv => hu.amid hv) (fun _ _ hu => hu.accept rfl rfl rfl) (fun u hu => ?_)
        ((hw.amid hv).amid (.of_same rfl rfl rfl))
      let left? := g.after? r.consumed u.clock.tick.1
      refine completes_remove (fun v => v.Keeps key left? (before ++ [r]))
        (fun _ _ hu hv => hu.amid hv) (fun _ hu => hu.faultless) (hu.remove r.consumed .released)
        (fun v hv _ => ?_) fun v left hv hleft => ?_
      · exact Released.of_next ⟨[], hv.outputs.trans (List.append_nil _).symm, le_rfl⟩ hpositive
      · have hafter : g.after? r.consumed u.clock.tick.1 = some left := hv.group.symm.trans hleft
        have hlt : left.size < n := hsize ▸ a.size_after?_lt (hfree g (.here g)) hne hr hafter
        have hends : Completes (step carrier a key m) (World.Spares key)
            (Released key (before ++ [r]) left.size) v (.decide left) :=
          ih _ hlt (fun h hh => hfree h (.next hr hafter hh)) (Group.messages_after? hafter).2
            ⟨hv.faultless, hleft, hv.outputs⟩ rfl
        exact hends.mono fun _ _ hreleased => hreleased.of_next hlt

end Aggregation
end

/-! ## Tasks that never end -/

/-- Others can always see to it that the task goes on, and that it can go on again. -/
theorem not_completes {σ ρ : Type} {step : World κ → σ → Progress (World κ) σ ρ}
    {amid : World κ → World κ → Prop} {Q : World κ → ρ → Prop} {I : World κ → σ → Prop}
    {w : World κ} {s : σ}
    (hgoes : ∀ w s, I w s →
      (∃ v t, (step w s).next? = some (v, t) ∧ ∃ v', amid v v' ∧ I v' t) ∨
        ∃ wake, step w s = .waits (some wake) ∧ ∃ v, amid w v ∧ wake ≤ v.now ∧ I v s)
    (hw : I w s) : ¬Completes step amid Q w s := by
  intro h
  induction h with
  | ends last _ =>
    rcases hgoes _ _ hw with ⟨v, t, hnext, -⟩ | ⟨wake, hwaits, -⟩
    · rw [last] at hnext
      cases hnext
    · rw [last] at hwaits
      cases hwaits
  | steps next _ ih =>
    rcases hgoes _ _ hw with ⟨v, t, hnext, v', hamid, hv'⟩ | ⟨wake, hwaits, -⟩
    · obtain ⟨rfl, rfl⟩ := Prod.mk.inj (Option.some.inj (next.symm.trans hnext))
      exact ih v' hamid hv'
    · rw [hwaits] at next
      cases next
  | waits wait _ ih =>
    rcases hgoes _ _ hw with ⟨v, t, hnext, -⟩ | ⟨wake, hwaits, v, hamid, hwoken, hv⟩
    · rw [wait] at hnext
      cases hnext
    · obtain rfl := Option.some.inj (Progress.waits.inj (wait.symm.trans hwaits))
      exact ih v hamid hwoken hv

namespace Aggregation

variable {carrier : Carrier κ} {a : Aggregator} {key : CorrelationKey} {m : EventMessage}
  {w : World κ} {g : Group} {amid : World κ → World κ → Prop} {D : Group → Prop}

/-- Others can see to it that the removal of messages leaves such a group. -/
def Leads (amid : World κ → World κ → Prop) (D : Group → Prop) (g : Group) (ids : List Uuid) :
    Prop :=
  ∀ w, ∃ v, amid w v ∧ v.groups = w.groups ∧ v.storeFaults = w.storeFaults ∧
    ∃ left, g.after? ids v.clock.tick.1 = some left ∧ D left

/-- The loop is on its way from one such group to the next. -/
def Endless (amid : World κ → World κ → Prop) (D : Group → Prop) (key : CorrelationKey)
    (w : World κ) (st : Stage) : Prop :=
  w.storeFaults = [] ∧ ∃ g, w.groups.group? key = some g ∧
    match st with
    | .decide g' => g' = g ∧ D g
    | .attempt r _ | .transit r _ _ | .arrive r _ => Leads amid D g r.consumed
    | .remove r => ∃ left, g.after? r.consumed w.clock.tick.1 = some left ∧ D left
    | .reread => D g
    | .read | .append | .pause .. => False

/-- Whatever the stage is, there is a next one, and a wait is over when the output has arrived. -/
theorem Endless.goes (haccepts : ∀ channel m, (carrier.send channel m).2 = .ok ())
    (hrests : ∀ w, amid w w) (hpasses : ∀ w now, w.now ≤ now → amid w (w.setTime now))
    (hnext : ∀ g, D g → ∃ r, a.release? g = some r ∧ Leads amid D g r.consumed) {st : Stage}
    (h : Endless amid D key w st) :
    (∃ v t, (step carrier a key m w st).next? = some (v, t) ∧
        ∃ v', amid v v' ∧ Endless amid D key v' t) ∨
      ∃ wake, step carrier a key m w st = .waits (some wake) ∧
        ∃ v, amid w v ∧ wake ≤ v.now ∧ Endless amid D key v st := by
  obtain ⟨hfaultless, g, hg, h⟩ := h
  cases st with
  | read | append | pause => exact h.elim
  | decide g' =>
    obtain ⟨rfl, hd⟩ := h
    obtain ⟨r, hr, hleads⟩ := hnext _ hd
    exact .inl ⟨w, .attempt r 0, by rw [goes_of_release?_some hr]; rfl, w, hrests w,
      hfaultless, g', hg, hleads⟩
  | attempt r n =>
    let v := { w with channel := (carrier.delay w.channel).1 }.record (.attempted w.now r.message)
    cases hdelay : (carrier.delay w.channel).2 with
    | none =>
      exact .inl ⟨v, .arrive r n, by simp only [step, hdelay]; rfl, v, hrests v,
        hfaultless, g, hg, h⟩
    | some millis =>
      exact .inl ⟨v, .transit r n (w.now + millis), by simp only [step, hdelay]; rfl, v, hrests v,
        hfaultless, g, hg, h⟩
  | transit r n arrival =>
    by_cases hnow : w.now < arrival
    · exact .inr ⟨arrival, if_pos hnow, w.setTime arrival, hpasses w arrival hnow.le, le_rfl,
        hfaultless, g, hg, h⟩
    · exact .inl ⟨w, .arrive r n, by simp only [step, if_neg hnow]; rfl, w, hrests w,
        hfaultless, g, hg, h⟩
  | arrive r n =>
    have hsend : carrier.send w.channel r.message =
        ((carrier.send w.channel r.message).1, .ok ()) := Prod.ext rfl (haccepts _ _)
    let v := { w with channel := (carrier.send w.channel r.message).1 }.record (.accepted key r)
    obtain ⟨v', hamid, hgroups, hfaults, left, hafter, hleft⟩ := h v
    exact .inl ⟨v, .remove r, by rw [step, hsend]; rfl, v', hamid,
      hfaults.trans hfaultless, g, hgroups ▸ hg, left, hafter, hleft⟩
  | remove r =>
    obtain ⟨left, hafter, hleft⟩ := h
    have hkept : w.Keeps key (some g) (w.outputs key) := ⟨hfaultless, hg, rfl⟩
    obtain ⟨v, hremove, hv⟩ := hkept.remove r.consumed .released
    have hcounted : (countReleased a v r).Keeps key (some left) (w.outputs key) := by
      rw [hafter] at hv
      unfold countReleased
      split <;> exact hv.amid (.of_same rfl rfl rfl)
    exact .inl ⟨countReleased a v r, .reread, by simp only [step, hremove]; rfl, _, hrests _,
      hcounted.faultless, left, hcounted.group, hleft⟩
  | reread =>
    have hread := World.readGroup_eq hfaultless key
    rw [hg] at hread
    exact .inl ⟨w.record (.asked .group), .decide g, by simp only [step, hread]; rfl, _, hrests _,
      hfaultless, g, hg, rfl, h⟩

/-- At a group that is stuck the loop is endless whatever others do, for the group stays as it is. -/
theorem not_completes_of_stuck (haccepts : ∀ channel m, (carrier.send channel m).2 = .ok ())
    (hrests : ∀ w, amid w w) (hpasses : ∀ w now, w.now ≤ now → amid w (w.setTime now))
    (hw : w.storeFaults = []) (hg : w.groups.group? key = some g) (hstuck : a.Stuck g)
    (Q : World κ → Except HandlerError Unit → Prop) :
    ¬Completes (step carrier a key m) amid Q w (.decide g) := by
  obtain ⟨hne, r, hr, hforeign⟩ := hstuck
  have hleads : Leads amid (· = g) g r.consumed := fun v =>
    ⟨v, hrests v, rfl, rfl, g, Group.after?_of_forall_not_mem hne hforeign _, rfl⟩
  have hnext : ∀ g', g' = g → ∃ r, a.release? g' = some r ∧ Leads amid (· = g) g' r.consumed := by
    rintro g' rfl
    exact ⟨r, hr, hleads⟩
  exact not_completes (fun _ _ => Endless.goes haccepts hrests hpasses hnext) ⟨hw, g, hg, rfl, rfl⟩

/-- A clock that stands still shows the same at every reading. -/
theorem tick_of_still (now : Stamp) : (Clock.mk now 0).tick.1 = now := by
  simp [Clock.tick, Stamp.later]

/-- On the way to a group that is stuck the clock must show what leads there. -/
theorem not_completes_of_comes {h : Group}
    (haccepts : ∀ channel m, (carrier.send channel m).2 = .ok ()) (hw : w.storeFaults = [])
    (hg : w.groups.group? key = some g) (hcomes : a.Comes g h) (hstuck : a.Stuck h)
    (Q : World κ → Except HandlerError Unit → Prop) :
    ¬Completes (step carrier a key m) (World.Spares key) Q w (.decide g) := by
  have hclock {g left : Group} {r : Release} {now : Stamp}
      (hafter : g.after? r.consumed now = some left) (hleft : a.Comes left h) :
      Leads (World.Spares (κ := κ) key) (a.Comes · h) g r.consumed := fun v =>
    ⟨{ v with clock := ⟨now, 0⟩ }, .of_same rfl rfl rfl, rfl, rfl, left,
      (tick_of_still now).symm ▸ hafter, hleft⟩
  have hnext (g' : Group) (hd : a.Comes g' h) : ∃ r, a.release? g' = some r ∧
      Leads (World.Spares (κ := κ) key) (a.Comes · h) g' r.consumed := by
    cases hd with
    | here =>
      obtain ⟨hne, r, hr, hforeign⟩ := hstuck
      exact ⟨r, hr, hclock (Group.after?_of_forall_not_mem hne hforeign h.modified) (.here h)⟩
    | next hr hafter hrest => exact ⟨_, hr, hclock hafter hrest⟩
  exact not_completes (fun _ _ => Endless.goes haccepts (fun _ => .of_same rfl rfl rfl)
    (fun _ _ _ => .of_same rfl rfl rfl) hnext) ⟨hw, g, hg, rfl, hcomes⟩

end Aggregation

/-- Over a channel and a store that accept everything the loop of releases ends, and makes no more
outputs than the group has messages, unless it can come to a group of which an output is made that
names none of its messages.  It is over at once with a group of which no output is made, or one that
names nothing. -/
theorem Aggregation.release_ends_iff {carrier : Carrier κ} {a : Aggregator} {key : CorrelationKey}
    {m : EventMessage} {w : World κ} {g : Group}
    (haccepts : ∀ channel m, (carrier.send channel m).2 = .ok ()) (hw : w.storeFaults = [])
    (hg : w.groups.group? key = some g) (hne : g.messages ≠ []) :
    ((∀ h, a.Comes g h → ¬a.Stuck h) →
      Completes (step carrier a key m) (World.Spares key)
        (Released key (w.outputs key) g.size) w (.decide g)) ∧
    (∀ Q, Completes (step carrier a key m) (World.Spares key) Q w (.decide g) →
      ∀ h, a.Comes g h → ¬a.Stuck h) ∧
    (a.release? g = none → ∃ result, step carrier a key m w (.decide g) = .ends w result) := by
  refine ⟨fun hfree => released_decide haccepts hfree hne ⟨hw, hg, rfl⟩,
    fun Q hends h hcomes hstuck => ?_, fun hnone => ends_of_release?_none key carrier m hnone w⟩
  exact not_completes_of_comes haccepts hw hg hcomes hstuck Q hends

/-- With the standard rule and processor the loop ends: a payment that an execution waits for, and
one that is left. -/
theorem Aggregation.release_ends_iff_of_payments :
    let g : Group := ⟨"order-paid:42", [paidOrder 1 .sent, paidOrder 2 .waiting, paidOrder 3 .sent],
      Stamp.start2025, Stamp.start2025⟩
    Completes (step Carrier.taker (.default {} {} none) "order-paid:42" (paidOrder 3 .sent))
      (World.Spares "order-paid:42") (Released "order-paid:42" [] 3)
      (World.paidOrders g.messages) (.decide g) := by
  intro g
  have hends := @Aggregation.release_ends_iff _ Carrier.taker (.default {} {} none)
    "order-paid:42" (paidOrder 3 .sent) (World.paidOrders g.messages) g (fun _ _ => rfl) rfl rfl
    (List.cons_ne_nil _ _)
  exact hends.1 fun h _ => Aggregator.not_stuck_default {} {} none h

/-- A processor that names the nil identity, whatever is in the group. -/
def GroupProcessor.foreign : GroupProcessor := fun _ =>
  .ok (some ⟨Message.assemble Uuid.nil Headers.none [], [Uuid.nil]⟩)

/-- Its output is dispatched again and again, even if nobody else does anything. -/
theorem Aggregation.not_always_release_ends :
    ¬∀ (a : Aggregator) (key : CorrelationKey) (m : EventMessage) (w : World (List RawMessage))
        (g : Group), w.storeFaults = [] → w.groups.group? key = some g → g.messages ≠ [] →
      Completes (step Carrier.taker a key m) (fun w v => ∃ now, w.now ≤ now ∧ v = w.setTime now)
        (Released key (w.outputs key) g.size) w (.decide g) := by
  intro hends
  let a : Aggregator :=
    ⟨{}, Correlation.ofHeader {}, fun _ => true, GroupProcessor.foreign, {}, none⟩
  let g : Group := ⟨"order-paid:42", [paidOrder 1 .sent], Stamp.start2025, Stamp.start2025⟩
  have hforeign : ∀ m ∈ g.messages, m.id ∉ [Uuid.nil] := by decide
  have hstuck : a.Stuck g := ⟨List.cons_ne_nil _ _, _, rfl, hforeign⟩
  have hcompletes := hends a "order-paid:42" (paidOrder 1 .sent) (World.paidOrders g.messages) g
    rfl rfl (List.cons_ne_nil _ _)
  exact not_completes_of_stuck (fun _ _ => rfl) (fun w => ⟨w.now, le_rfl, rfl⟩)
    (fun _ now hnow => ⟨now, hnow, rfl⟩) rfl rfl hstuck _ hcompletes

end Rendezvous
