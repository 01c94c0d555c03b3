/-
What a reconciliation leaves.

The messages of a group that are not kept are told by a predicate and taken out by identity.  The
identities in a group are distinct, so this is the same (`without_stale`), and a reconciliation
leaves what the predicate accepts, counts the rest, and deletes an emptied group (`Tidied`).  What
is left is accepted, so a second reconciliation finds nothing to do.

A reconciliation asks for the lock of its group first.  `Within` says where it stands before and
inside; an induction over the steps carries it to the end, whatever others do meanwhile outside of
the groups that they spare.  The advice hands a cancellation on when its reconciliation is done, and
every other message at once (`Advised`).
-/
import Rendezvous.Proofs.Draining
import Rendezvous.Proofs.Nesting
import Rendezvous.Proofs.Routing

namespace Rendezvous

variable {κ σ ρ : Type}

/-! ## Tasks -/

section
variable {ω : Type} {step : ω → σ → Progress ω σ ρ} {amid : ω → ω → Prop} {w v : ω} {s : σ} {r : ρ}

/-- What every step ensures, and others do not disturb, holds at the end of a run. -/
theorem Runs.ensures {I : ω → σ → Prop} {J : ω → ρ → Prop} (h : Runs step amid w s v r)
    (hstep : ∀ w s, I w s → (step w s).Ensures I J) (hamid : ∀ w v s, amid w v → I w s → I v s)
    (hs : I w s) : J v r := by
  induction h with
  | @ends w s v r last =>
    have hlast := hstep w s hs
    rw [last] at hlast
    exact hlast
  | steps next later ih => exact ih ((hstep _ _ hs).of_next? next)
  | amid others later ih => exact ih (hamid _ _ _ others hs)

end

namespace Completes

variable {step : World κ → σ → Progress (World κ) σ ρ} {amid : World κ → World κ → Prop}
  {Q : World κ → ρ → Prop} {w : World κ} {s : σ}

/-- What every step ensures, and others do not disturb, holds at the end of a task. -/
theorem ensures {I : World κ → σ → Prop} {J : World κ → ρ → Prop} (h : Completes step amid Q w s)
    (hstep : ∀ w s, I w s → (step w s).Ensures I J) (hamid : ∀ w v s, amid w v → I w s → I v s)
    (hs : I w s) : Completes step amid (fun v r => Q v r ∧ J v r) w s := by
  induction h with
  | @ends w s v r last done =>
    have hlast := hstep w s hs
    rw [last] at hlast
    exact .ends last ⟨done, hlast⟩
  | steps next rest ih =>
    exact .steps next fun v' hv' => ih v' hv' (hamid _ _ _ hv' ((hstep _ _ hs).of_next? next))
  | waits wait woken ih =>
    exact .waits wait fun v hv hwake => ih v hv hwake (hamid _ _ _ hv hs)

theorem map {ξ : Type} {f : ρ → ξ} {Q : World κ → ξ → Prop}
    (h : Completes step amid (fun v r => Q v (f r)) w s) :
    Completes (fun w s => (step w s).map id f) amid Q w s := by
  induction h with
  | @ends w s v r last done =>
    refine .ends (v := v) (r := f r) ?_ done
    rw [last]
    rfl
  | @steps w s v t next rest ih =>
    refine .steps (v := v) (t := t) ?_ ih
    cases hstep : step w s <;> rw [hstep] at next <;> cases next <;> rfl
  | @waits w s wake wait woken ih =>
    have hwait : (step w s).map id f = .waits (some wake) := by
      rw [wait]
      rfl
    exact .waits hwait ih

end Completes

/-! ## Work under a lock -/

namespace Guarded

variable {lk : String} {p : Patience} {start : σ}
  {work : World κ → σ → Progress (World κ) σ ρ} {w : World κ} {s : σ}

/-- Work under a lock: what holds before it has the lock, while it works, and when it is done. -/
def Within (P : World κ → Prop) (I : World κ → σ → Prop) (J : World κ → ρ → Prop) (w : World κ) :
    Guarded σ ρ → Prop
  | inside _ s => I w s
  | leaving _ r => J w r
  | _ => P w

/-- The same for the outcome; work that did not get the lock was not begun. -/
def Leaves (P : World κ → Prop) (J : World κ → ρ → Prop) (w : World κ) : Entry ρ → Prop
  | .ran r => J w r
  | _ => P w

/-- What is told by the groups alone has nothing to do with asking for a lock and leaving it. -/
theorem step_within {P : World κ → Prop} {I : World κ → σ → Prop} {J : World κ → ρ → Prop}
    (hP : ∀ w v, v.groups = w.groups → P w → P v)
    (hJ : ∀ w v r, v.groups = w.groups → J w r → J v r) (hstart : ∀ w, P w → I w start)
    (hwork : ∀ w s, I w s → (work w s).Ensures I J) (g : Guarded σ ρ) (hg : g.Within P I J w) :
    (g.step lk p start work w).Ensures (fun v g => g.Within P I J v) fun v e => Leaves P J v e := by
  have hrefuse (v : World κ) (hv : P v) (interrupted : Bool) :
      (refuse v lk interrupted : Progress (World κ) (Guarded σ ρ) (Entry ρ)).Ensures
        (fun v g => g.Within P I J v) fun v e => Leaves P J v e := by
    cases interrupted <;> exact hP v _ rfl hv
  cases g with
  | asking =>
    have hdesk (d : Desk) : P (withDesk w d) := hP w _ rfl hg
    rw [step]
    split
    · exact hstart _ (hP w _ rfl hg)
    · split
      · exact hrefuse _ (hdesk _) false
      · exact hdesk _
    · exact hrefuse _ (hdesk _) true
  | lining => exact hP w _ rfl hg
  | queued t since =>
    rw [step]
    split
    · exact hstart _ (hP w _ rfl hg)
    · exact hP w _ rfl hg
    · exact hP w _ rfl hg
    · trivial
  | givingUp interrupted => exact hrefuse w hg interrupted
  | inside t s =>
    rw [step, Progress.ensures_andThen]
    exact (hwork w s hg).mono (fun v s h => h) fun v r h => h
  | leaving t r => exact hJ w _ r rfl hg

/-- Work that has its lock comes to its end. -/
theorem completes_inside {amid : World κ → World κ → Prop} {Q : ρ → Prop} (t : Ticket)
    (h : Completes work amid (fun _ r => Q r) w s) :
    Completes (step lk p start work) amid (fun _ e => ∃ r, e = .ran r ∧ Q r) w (.inside t s) := by
  induction h with
  | @ends w s v r last done =>
    refine .steps (v := v) (t := .leaving t r) ?_ fun v' _ => .ends rfl ⟨r, rfl, done⟩
    rw [step, last]
    rfl
  | @steps w s v s' next rest ih =>
    refine .steps (v := v) (t := .inside t s') ?_ ih
    rw [step]
    cases hstep : work w s <;> rw [hstep] at next <;> cases next <;> rfl
  | @waits w s wake wait woken ih =>
    have hwait : step lk p start work w (.inside t s) = .waits (some wake) := by
      rw [step, wait]
      rfl
    exact .waits hwait ih

end Guarded

/-! ## What is taken out -/

namespace GroupStore

/-- A group as a store in memory keeps it: no two messages share an identity, and an emptied group
is gone. -/
structure Neat (s : GroupStore) (key : CorrelationKey) : Prop where
  distinct : ((s.messages key).map Message.id).Nodup
  peopled : s.messages key = [] → s.group? key = none

theorem Neat.of_peopled {s : GroupStore} {key : CorrelationKey} (hpeopled : s.Peopled)
    (hids : ((s.messages key).map Message.id).Nodup) : s.Neat key := by
  refine ⟨hids, fun hnil => Option.map_eq_none_iff.mpr ?_⟩
  cases hstored : s.groups.find? key with
  | none => rfl
  | some g =>
    rw [messages, hstored] at hnil
    exact absurd hnil (hpeopled key g hstored)

end GroupStore

/-- What a reconciliation of the group of a key makes of a store: what is kept stays, in its order,
the group is gone if nothing is kept, and nothing at all is done, not even to its stamps, if nothing
is taken out. -/
structure Tidied (r : Reconciler) (key : CorrelationKey) (s s' : GroupStore) (n : Nat) : Prop where
  count : n = (s.messages key).countP fun m => !r.keeps m
  messages : s'.messages key = (s.messages key).filter r.keeps
  deleted : s'.group? key = none ↔ ∀ m ∈ s.messages key, r.keeps m = false
  untouched : n = 0 → s'.group? key = s.group? key

section
variable {r : Reconciler} {key : CorrelationKey} {s s' : GroupStore} {n : Nat} {g : Group}

/-- What is not kept is taken out by identity. -/
theorem without_stale (r : Reconciler) {ms : List EventMessage} (h : (ms.map Message.id).Nodup) :
    without ((ms.filter fun m => !r.keeps m).map Message.id) ms = ms.filter r.keeps := by
  refine List.filter_congr fun m hm => ?_
  have hmem : m.id ∈ (ms.filter fun m => !r.keeps m).map Message.id ↔ r.keeps m = false := by
    constructor
    · intro hid
      obtain ⟨m', hm', heq⟩ := List.mem_map.mp hid
      obtain ⟨hin, hnot⟩ := List.mem_filter.mp hm'
      rw [← List.inj_on_of_nodup_map h hin hm heq]
      simpa using hnot
    · intro hnot
      exact List.mem_map_of_mem (List.mem_filter.mpr ⟨hm, by simp [hnot]⟩)
  cases hkeeps : r.keeps m with
  | true => simpa [hkeeps] using hmem
  | false => simpa [hkeeps] using hmem

theorem length_stale (r : Reconciler) (g : Group) :
    (r.stale g).length = g.messages.countP fun m => !r.keeps m := by
  rw [Reconciler.stale, List.length_map, List.countP_eq_length_filter]

/-- There is nothing to take out. -/
theorem Tidied.of_kept (hneat : s.Neat key) (hkept : ∀ m ∈ s.messages key, r.keeps m = true)
    (hsame : s'.group? key = s.group? key) : Tidied r key s s' 0 where
  count := by
    refine (List.countP_eq_zero.mpr fun m hm => ?_).symm
    simp [hkept m hm]
  messages := by
    rw [GroupStore.messages_eq hsame, List.filter_eq_self.mpr hkept]
  deleted := by
    rw [hsame]
    refine ⟨fun hnone m hm => ?_, fun hnot => hneat.peopled ?_⟩
    · rw [GroupStore.messages_of_group?_none hnone] at hm
      cases hm
    · refine List.eq_nil_iff_forall_not_mem.mpr fun m hm => ?_
      have hfalse := hnot m hm
      rw [hkept m hm] at hfalse
      cases hfalse
  untouched _ := hsame

/-- The stale messages are taken out of a store that has the group as it was. -/
theorem Tidied.of_remove (hneat : s.Neat key) (hg : s.group? key = some g)
    (hsame : s'.group? key = s.group? key) (hstale : r.stale g ≠ []) (now : Stamp) :
    Tidied r key s (s'.remove key (r.stale g) now) (r.stale g).length := by
  have hmessages : (s'.remove key (r.stale g) now).messages key =
      (s.messages key).filter r.keeps := by
    rw [GroupStore.messages_remove, if_pos rfl, GroupStore.messages_eq hsame, Reconciler.stale,
      (GroupStore.of_group? hg).2, without_stale r hneat.distinct]
  refine ⟨?_, hmessages, ?_, fun hzero => absurd (List.length_eq_zero_iff.mp hzero) hstale⟩
  · rw [length_stale, (GroupStore.of_group? hg).2]
  · rw [GroupStore.group?_remove, hmessages, List.filter_eq_nil_iff]
    simp

theorem Tidied.congr {s'' : GroupStore} (h : Tidied r key s s' n)
    (hsame : s''.group? key = s'.group? key) : Tidied r key s s'' n :=
  ⟨h.count, (GroupStore.messages_eq hsame).trans h.messages, hsame ▸ h.deleted,
    fun hzero => hsame.trans (h.untouched hzero)⟩

/-- What is left is as neat as before. -/
theorem Tidied.neat (h : Tidied r key s s' n) (hneat : s.Neat key) : s'.Neat key where
  distinct := by
    rw [h.messages]
    exact (List.filter_sublist.map Message.id).nodup hneat.distinct
  peopled hnil := by
    rw [h.messages] at hnil
    refine h.deleted.mpr fun m hm => ?_
    simpa using List.filter_eq_nil_iff.mp hnil m hm

/-- What is left is accepted. -/
theorem Tidied.again {s'' : GroupStore} {n' : Nat} (h : Tidied r key s s' n)
    (h' : Tidied r key s' s'' n') : n' = 0 ∧ s''.group? key = s'.group? key := by
  have hzero : n' = 0 := by
    rw [h'.count, h.messages]
    refine List.countP_eq_zero.mpr fun m hm => ?_
    simp [(List.mem_filter.mp hm).2]
  exact ⟨hzero, h'.untouched hzero⟩

end

/-! ## The work of a reconciliation -/

namespace World

/-- The groups of the spared keys are as they were. -/
def Spared (spared : CorrelationKey → Prop) (w v : World κ) : Prop :=
  ∀ k, spared k → v.groups.group? k = w.groups.group? k

/-- The same, and the stores fail no more than before. -/
structure Undisturbed (spared : CorrelationKey → Prop) (w v : World κ) : Prop where
  groups : w.Spared spared v
  faultless : v.storeFaults = w.storeFaults

/-- The stores do not fail, and the lock of a key is to be had. -/
structure Ready (key : CorrelationKey) (w : World κ) : Prop where
  faultless : w.storeFaults = []
  lowered : w.desk.raised = false
  free : w.desk.table.isFree key.lockKey = true

variable {spared : CorrelationKey → Prop} {u v w : World κ} {key : CorrelationKey}

theorem of_readGroup {result : Except StoreError (Option Group)}
    (h : w.readGroup key = (v, result)) :
    v.groups = w.groups ∧ ∀ g, result = .ok g → g = w.groups.group? key := by
  unfold readGroup askStore at h
  cases hfault : w.storeFaults.next .group with
  | mk fault rest =>
    rw [hfault] at h
    cases fault with
    | some e =>
      cases h
      exact ⟨rfl, fun g hg => by cases hg⟩
    | none =>
      cases h
      exact ⟨rfl, fun g hg => by cases hg; rfl⟩

theorem of_removeMessages {ids : List Uuid} {why : Removal} {result : Except StoreError Unit}
    (h : w.removeMessages key ids why = (v, result)) :
    (∃ e, result = .error e ∧ v.groups = w.groups) ∨
      result = .ok () ∧ ∃ now, v.groups = w.groups.remove key ids now := by
  unfold removeMessages askStore at h
  cases hfault : w.storeFaults.next .remove with
  | mk fault rest =>
    rw [hfault] at h
    cases fault with
    | some e =>
      cases h
      exact Or.inl ⟨e, rfl, rfl⟩
    | none =>
      refine Or.inr ?_
      dsimp only at h
      split at h
      · next hnone =>
        have hfind : w.groups.groups.find? key = none := Option.map_eq_none_iff.mp hnone
        cases h
        refine ⟨rfl, (w.stamp).1, ?_⟩
        rw [GroupStore.remove, hfind]
        rfl
      · cases h
        exact ⟨rfl, _, rfl⟩

theorem Spared.refl (w : World κ) : w.Spared spared w := fun _ _ => rfl

theorem Spared.of_groups (h : v.groups = w.groups) : w.Spared spared v := by
  intro k _
  rw [h]

theorem Spared.trans (h : u.Spared spared v) (h' : v.Spared spared w) : u.Spared spared w :=
  fun k hk => (h' k hk).trans (h k hk)

end World

/-- What a reconciliation of the group of a key did with the groups of the spared keys: it tidied
the group, or failed and did nothing. -/
structure Reconciled (r : Reconciler) (key : CorrelationKey) (spared : CorrelationKey → Prop)
    (w v : World κ) (result : Except HandlerError Nat) : Prop where
  others : ∀ other, spared other → other ≠ key → v.groups.group? other = w.groups.group? other
  tidied : ∀ n, result = .ok n → Tidied r key w.groups v.groups n
  untouched : ∀ e, result = .error e → v.groups.group? key = w.groups.group? key

section
variable {r : Reconciler} {key : CorrelationKey} {spared : CorrelationKey → Prop} {u v w : World κ}
  {result : Except HandlerError Nat} {e : HandlerError}

theorem Reconciled.amid (hkey : spared key) (h : Reconciled r key spared w v result)
    (hu : v.Spared spared u) : Reconciled r key spared w u result where
  others other hother hne := (hu other hother).trans (h.others other hother hne)
  tidied n hn := (h.tidied n hn).congr (hu key hkey)
  untouched e he := (hu key hkey).trans (h.untouched e he)

/-- Nothing was done to the group either. -/
theorem Reconciled.leaves (h : Reconciled r key spared w v result)
    (hsame : v.groups.group? key = w.groups.group? key) : w.Spared spared v := by
  intro k hk
  by_cases hne : k = key
  · rw [hne]
    exact hsame
  · exact h.others k hk hne

theorem Reconciled.of_spared (hkey : spared key) (h : w.Spared spared v) :
    Reconciled r key spared w v (.error e) where
  others other hother _ := h other hother
  tidied n hn := by cases hn
  untouched _ _ := h key hkey

theorem Reconciled.of_kept (hkey : spared key) (hneat : w.groups.Neat key)
    (h : w.Spared spared v) (hkept : ∀ m ∈ w.groups.messages key, r.keeps m = true) :
    Reconciled r key spared w v (.ok 0) where
  others other hother _ := h other hother
  tidied n hn := by
    cases hn
    exact .of_kept hneat hkept (h key hkey)
  untouched e he := by cases he

end

namespace Reconciliation

variable {r : Reconciler} {key : CorrelationKey} {spared : CorrelationKey → Prop} {w v : World κ}

/-- What the work on a group knows of the world in which it began. -/
def Knows (r : Reconciler) (key : CorrelationKey) (spared : CorrelationKey → Prop) (w v : World κ) :
    Stage → Prop
  | .read => w.Spared spared v
  | .purge ids =>
    w.Spared spared v ∧ ∃ g, w.groups.group? key = some g ∧ ids = r.stale g ∧ ids ≠ []

theorem Knows.amid (st : Stage) (h : Knows r key spared w v st) {u : World κ}
    (hu : v.Spared spared u) : Knows r key spared w u st := by
  cases st with
  | read => exact World.Spared.trans h hu
  | purge ids => exact ⟨h.1.trans hu, h.2⟩

theorem step_reconciles (hkey : spared key) (hneat : w.groups.Neat key) (v : World κ) (st : Stage)
    (h : Knows r key spared w v st) :
    (step r key v st).Ensures (fun v st => Knows r key spared w v st)
      fun v result => Reconciled r key spared w v result := by
  cases st with
  | read =>
    have hspared (u : World κ) (hu : u.groups = v.groups) : w.Spared spared u :=
      World.Spared.trans h (.of_groups hu)
    simp only [step]
    split <;> rename_i heq <;> obtain ⟨hgroups, hread⟩ := World.of_readGroup heq
    · exact .of_spared hkey (hspared _ hgroups)
    · have hnone : w.groups.group? key = none := (h key hkey).symm.trans (hread _ rfl).symm
      refine .of_kept hkey hneat (hspared _ hgroups) fun m hm => ?_
      rw [GroupStore.messages_of_group?_none hnone] at hm
      cases hm
    · rename_i u g
      have hg : w.groups.group? key = some g := (h key hkey).symm.trans (hread _ rfl).symm
      split
      · next hempty =>
        refine .of_kept hkey hneat (hspared _ hgroups) fun m hm => ?_
        rw [← (GroupStore.of_group? hg).2] at hm
        have hfilter := List.map_eq_nil_iff.mp (List.isEmpty_iff.mp hempty)
        simpa using List.filter_eq_nil_iff.mp hfilter m hm
      · next hsome =>
        exact ⟨hspared _ hgroups, g, hg, rfl, fun hnil => hsome (List.isEmpty_iff.mpr hnil)⟩
  | purge ids =>
    obtain ⟨hsame, g, hg, rfl, hstale⟩ := h
    simp only [step]
    split <;> rename_i heq
    · obtain ⟨e, he, hgroups⟩ | ⟨hok, -⟩ := World.of_removeMessages heq
      · exact .of_spared hkey (hsame.trans (.of_groups hgroups))
      · cases hok
    · rename_i u
      obtain ⟨e, he, -⟩ | ⟨-, now, hgroups⟩ := World.of_removeMessages heq
      · cases he
      · refine ⟨fun other hother hne => ?_, fun n hn => ?_, fun e he => by cases he⟩
        · show u.groups.group? other = _
          rw [hgroups, GroupStore.group?_remove_of_ne _ hne]
          exact hsame other hother
        · cases hn
          show Tidied r key w.groups u.groups _
          rw [hgroups]
          exact .of_remove hneat hg (hsame key hkey) hstale now

/-- Inside the lock, in a world whose stores do not fail, the work comes to a good end. -/
theorem completes (hfaults : v.storeFaults = []) :
    Completes (step r key) (World.Undisturbed spared)
      (fun _ result => ∃ n, result = .ok n) v .read := by
  have hread := World.readGroup_eq hfaults key
  cases hg : v.groups.group? key with
  | none =>
    rw [hg] at hread
    exact .ends (by simp only [step, hread]; rfl) ⟨0, rfl⟩
  | some g =>
    rw [hg] at hread
    by_cases hstale : (r.stale g).isEmpty = true
    · exact .ends (by simp only [step, hread, hstale, if_true]; rfl) ⟨0, rfl⟩
    · refine .steps (v := v.record (.asked .group)) (t := .purge (r.stale g))
        (by simp only [step, hread, hstale]; rfl) fun u hu => ?_
      have hask := World.askStore_eq (w := u) (hu.faultless.trans hfaults) .remove
      have hremove : ∃ x, u.removeMessages key (r.stale g) .cancelled = (x, .ok ()) := by
        rw [World.removeMessages, hask]
        dsimp only
        split <;> exact ⟨_, rfl⟩
      obtain ⟨x, hremove⟩ := hremove
      exact .ends (by simp only [step, hremove]; rfl) ⟨_, rfl⟩

end Reconciliation

namespace Chain

variable {r : Reconciler} {key : CorrelationKey} {spared : CorrelationKey → Prop} {u v w : World κ}
  {result : Except HandlerError Nat}

/-- How far a reconciliation got, which began in a world with a neat group. -/
abbrev Reconciles (r : Reconciler) (key : CorrelationKey) (spared : CorrelationKey → Prop)
    (w v : World κ) (g : Guarded Reconciliation.Stage (Except HandlerError Nat)) : Prop :=
  g.Within (w.Spared spared) (Reconciliation.Knows r key spared w) (Reconciled r key spared w) v

theorem reconcileStep_reconciles (hkey : spared key) (hneat : w.groups.Neat key) (v : World κ)
    (g : Guarded Reconciliation.Stage (Except HandlerError Nat))
    (hg : Reconciles r key spared w v g) :
    (reconcileStep r key v g).Ensures (fun v g => Reconciles r key spared w v g)
      fun v result => Reconciled r key spared w v result := by
  have hspared (v u : World κ) (hu : u.groups = v.groups) (h : w.Spared spared v) :
      w.Spared spared u := h.trans (.of_groups hu)
  have hreconciled (v u : World κ) (result : Except HandlerError Nat) (hu : u.groups = v.groups)
      (h : Reconciled r key spared w v result) : Reconciled r key spared w u result :=
    h.amid hkey (.of_groups hu)
  rw [reconcileStep, Progress.ensures_map]
  refine (Guarded.step_within hspared hreconciled (fun v h => h)
    (Reconciliation.step_reconciles hkey hneat) g hg).mono (fun v g h => h) fun v entry h => ?_
  cases entry with
  | ran result => exact h
  | skipped | refused => exact .of_spared hkey h

theorem Reconciles.amid (hkey : spared key) (v u : World κ)
    (g : Guarded Reconciliation.Stage (Except HandlerError Nat)) (hu : v.Spared spared u)
    (hg : Reconciles r key spared w v g) : Reconciles r key spared w u g := by
  cases g with
  | asking | lining | queued | givingUp => exact World.Spared.trans hg hu
  | inside t st => exact Reconciliation.Knows.amid st hg hu
  | leaving t result => exact Reconciled.amid hkey hg hu

/-- Every reconciliation that comes to its end, whatever the locks and the stores do. -/
theorem reconciled_of_runs (hkey : spared key) (hneat : w.groups.Neat key)
    (h : Runs (reconcileStep r key) (World.Spared spared) w .asking v result) :
    Reconciled r key spared w v result :=
  h.ensures (I := Reconciles r key spared w) (reconcileStep_reconciles hkey hneat)
    (fun v u g hu hg => Reconciles.amid hkey v u g hu hg) (World.Spared.refl w)

/-- With its lock to be had and the stores at work, a reconciliation comes to a good end. -/
theorem completes_reconcileStep (hkey : spared key) (hneat : w.groups.Neat key)
    (hready : w.Ready key) :
    Completes (reconcileStep r key)
      (World.Undisturbed spared)
      (fun v result => (∃ n, result = .ok n) ∧ Reconciled r key spared w v result) w .asking := by
  obtain ⟨d, hgranted⟩ : ∃ d, w.desk.request key.lockKey (Patience.ofTimeout r.lockTimeout) =
      (d, .granted w.desk.issued) := by
    refine (Desk.request_calm hready.lowered _ _).resolve_right fun hbusy => hbusy.1 ?_
    exact Option.isNone_iff_eq_none.mp hready.free
  have hinside : Completes (Guarded.step key.lockKey (Patience.ofTimeout r.lockTimeout)
      Reconciliation.Stage.read (Reconciliation.step (κ := κ) r key))
      (World.Undisturbed spared)
      (fun _ entry => ∃ result, entry = .ran result ∧ ∃ n, result = .ok n) w .asking := by
    refine .steps (v := Guarded.enter (Guarded.withDesk w d) key.lockKey w.desk.issued 0)
      (t := .inside w.desk.issued .read) (by simp only [Guarded.step, hgranted]; rfl) fun u hu => ?_
    have hfaults : u.storeFaults = [] := hu.faultless.trans hready.faultless
    exact Guarded.completes_inside _ (Reconciliation.completes hfaults)
  have hsettled : Completes (reconcileStep r key)
      (World.Undisturbed spared)
      (fun _ result => ∃ n, result = .ok n) w .asking := by
    refine Completes.map (hinside.mono fun v entry hentry => ?_)
    obtain ⟨result, rfl, hn⟩ := hentry
    exact hn
  exact hsettled.ensures (reconcileStep_reconciles hkey hneat)
    (fun v u g hu hg => Reconciles.amid hkey v u g hu.groups hg) (World.Spared.refl w)

/-- After a reconciliation another one finds nothing to do. -/
theorem reconciled_again {n : Nat} (h : Reconciled r key spared w u (.ok n))
    (h' : Reconciled r key spared u v result) :
    u.Spared spared v ∧ ∀ n', result = .ok n' → n' = 0 := by
  cases result with
  | ok n' =>
    obtain ⟨hzero, hsame⟩ := (h.tidied n rfl).again (h'.tidied n' rfl)
    exact ⟨h'.leaves hsame, fun k hk => by cases hk; exact hzero⟩
  | error e => exact ⟨h'.leaves (h'.untouched e rfl), fun k hk => by cases hk⟩

/-! ## The advice -/

/-- What becomes of a message that meets the advice.  One that cancels nothing is handed on at once,
and the advice does nothing to the world.  A cancellation is reconciled, and handed on if that went
well; else the advice fails. -/
inductive Advised (carrier : Carrier κ) (core : Core) (r : Reconciler) (m : EventMessage)
    (rest : List Advice) (frames : List Frame) :
    List (World κ × World κ) → Slot Call (Except HandlerError Unit) → Prop
  | here :
      Advised carrier core r m rest frames [] (.running ⟨.enter m (.reconcile r :: rest), frames⟩)
  | passed {u ps slot} (concerns : r.concerns m = false)
      (next : Walk (Chain.step carrier core) u ⟨.enter m rest, frames⟩ ps slot) :
      Advised carrier core r m rest frames ((u, u) :: ps) slot
  | uncorrelated {u e ps slot} (concerns : r.concerns m = true)
      (correlation : r.correlation m.headers = .error e)
      (next : Walk (Chain.step carrier core) u ⟨.leave (.error (.correlation e)), frames⟩ ps slot) :
      Advised carrier core r m rest frames ((u, u) :: ps) slot
  | reconciling {u key ps g} (concerns : r.concerns m = true)
      (correlation : r.correlation m.headers = .ok key)
      (work : Walk (reconcileStep r key) u .asking ps (.running g)) :
      Advised carrier core r m rest frames ((u, u) :: ps)
        (.running ⟨.reconciling r key m rest g, frames⟩)
  | succeeded {u key ps x v n qs slot} (concerns : r.concerns m = true)
      (correlation : r.correlation m.headers = .ok key)
      (work : Walk (reconcileStep r key) u .asking (ps ++ [(x, v)]) (.finished (.ok n)))
      (next : Walk (Chain.step carrier core) v ⟨.enter m rest, frames⟩ qs slot) :
      Advised carrier core r m rest frames ((u, u) :: ps ++ (x, v) :: qs) slot
  | failed {u key ps x v e qs slot} (concerns : r.concerns m = true)
      (correlation : r.correlation m.headers = .ok key)
      (work : Walk (reconcileStep r key) u .asking (ps ++ [(x, v)]) (.finished (.error e)))
      (next : Walk (Chain.step carrier core) v ⟨.leave (.error e), frames⟩ qs slot) :
      Advised carrier core r m rest frames ((u, u) :: ps ++ (x, v) :: qs) slot

/-- Where a call goes on after its reconciliation. -/
def afterwards (m : EventMessage) (rest : List Advice) (frames : List Frame) :
    Except HandlerError Nat → Call
  | .ok _ => ⟨.enter m rest, frames⟩
  | .error e => ⟨.leave (.error e), frames⟩

section
variable {carrier : Carrier κ} {core : Core} {m : EventMessage} {rest : List Advice}
  {frames : List Frame} {ps : List (World κ × World κ)}
  {slot : Slot Call (Except HandlerError Unit)}

/-- A call walks through its reconciliation first. -/
theorem walk_reconciling {g : Guarded Reconciliation.Stage (Except HandlerError Nat)}
    (h : Walk (Chain.step carrier core) w ⟨.reconciling r key m rest g, frames⟩ ps slot) :
    (∃ g', Walk (reconcileStep r key) w g ps (.running g') ∧
        slot = .running ⟨.reconciling r key m rest g', frames⟩) ∨
      ∃ qs x v result qs', Walk (reconcileStep r key) w g (qs ++ [(x, v)]) (.finished result) ∧
        Walk (Chain.step carrier core) v (afterwards m rest frames result) qs' slot ∧
        ps = qs ++ (x, v) :: qs' := by
  generalize hcall : (⟨.reconciling r key m rest g, frames⟩ : Call) = call at h
  induction h generalizing g with
  | here =>
    subst hcall
    exact Or.inl ⟨g, .here, rfl⟩
  | amid later ih =>
    obtain ⟨g', hwalk, hslot⟩ | ⟨qs, x, v, result, qs', hwalk, hnext, hps⟩ := ih hcall
    · exact Or.inl ⟨g', .amid hwalk, hslot⟩
    · exact Or.inr ⟨qs, x, v, result, qs', .amid hwalk, hnext, hps⟩
  | @steps w call v t ps slot next later ih =>
    subst hcall
    cases hstep : reconcileStep r key w g with
    | waits wake =>
      simp only [step, hstep] at next
      cases next
    | ends x result =>
      have hnext : some (x, afterwards m rest frames result) = some (v, t) := by
        rw [← next]
        simp only [step, hstep]
        cases result <;> rfl
      obtain ⟨rfl, rfl⟩ := Prod.mk.inj (Option.some.inj hnext)
      exact Or.inr ⟨[], w, x, result, ps, .ends hstep, later, rfl⟩
    | goes x g' | pauses x g' | resumes x g' =>
      simp only [step, hstep] at next
      cases next
      have hgoes : (reconcileStep r key w g).next? = some (x, g') := by
        rw [hstep]
        rfl
      obtain ⟨g'', hwalk, hslot⟩ | ⟨qs, y, z, result, qs', hwalk, hnext, rfl⟩ := ih rfl
      · exact Or.inl ⟨g'', .steps hgoes hwalk, hslot⟩
      · exact Or.inr ⟨(w, x) :: qs, y, z, result, qs', .steps hgoes hwalk, hnext, rfl⟩
  | @ends w call v result last =>
    subst hcall
    cases (eq_leave_of_ends last).1

/-- Every call that meets the advice, whatever others do to the world meanwhile. -/
theorem advised_of_walk
    (h : Walk (Chain.step carrier core) w ⟨.enter m (.reconcile r :: rest), frames⟩ ps slot) :
    Advised carrier core r m rest frames ps slot := by
  obtain ⟨rfl, rfl⟩ | ⟨u, v, t, later, hnext, hlater, rfl⟩ | ⟨u, v, result, hlast, -, -⟩ :=
    h.begins
  · exact .here
  · have hnext : some (u, cancelStep r m rest frames) = some (v, t) := hnext
    obtain ⟨rfl, rfl⟩ := Prod.mk.inj (Option.some.inj hnext)
    cases hconcerns : r.concerns m with
    | false =>
      rw [cancelStep, hconcerns, if_neg Bool.false_ne_true] at hlater
      exact .passed hconcerns hlater
    | true =>
      rw [cancelStep, hconcerns, if_pos rfl] at hlater
      cases hcorrelation : r.correlation m.headers with
      | error e =>
        rw [hcorrelation] at hlater
        exact .uncorrelated hconcerns hcorrelation hlater
      | ok key =>
        rw [hcorrelation] at hlater
        obtain ⟨g, hwalk, rfl⟩ | ⟨qs, x, v, result, qs', hwalk, hnext, rfl⟩ :=
          walk_reconciling hlater
        · exact .reconciling hconcerns hcorrelation hwalk
        · cases result with
          | ok n => exact .succeeded hconcerns hcorrelation hwalk hnext
          | error e => exact .failed hconcerns hcorrelation hwalk hnext
  · cases (eq_leave_of_ends hlast).1

end

/-- A reconciliation of a group whose messages have distinct identities, while others leave alone
the groups that they spare, that group among them.  If it has a good end, it tells how many messages were not kept, those that are
kept stay in their order, an emptied group is gone, and no other group is touched, nor any stamp if
there was nothing to take out; if it fails, nothing is touched.  It has a good end if its lock is to
be had and the stores do not fail.  Another one afterwards takes out nothing and touches nothing.
The advice hands a cancellation on once it was reconciled, and not if that failed, and any other
message at once. -/
theorem reconciliation_tidies (r : Reconciler) (spared : CorrelationKey → Prop)
    (hkey : spared key) (hpeopled : w.groups.Peopled)
    (hids : ((w.groups.messages key).map Message.id).Nodup) :
    (∀ v result, Runs (reconcileStep r key) (World.Spared spared) w .asking v result →
      Reconciled r key spared w v result) ∧
    (w.Ready key → Completes (reconcileStep r key) (World.Undisturbed spared)
      (fun v result => (∃ n, result = .ok n) ∧ Reconciled r key spared w v result) w .asking) ∧
    (∀ u n, Reconciled r key spared w u (.ok n) →
      (∀ v result, Runs (reconcileStep r key) (World.Spared spared) u .asking v result →
        u.Spared spared v ∧ ∀ n', result = .ok n' → n' = 0) ∧
      (u.Ready key → Completes (reconcileStep r key) (World.Undisturbed spared)
        (fun v result => result = .ok 0 ∧ u.Spared spared v) u .asking)) ∧
    ∀ (carrier : Carrier κ) (core : Core) (m : EventMessage) (rest : List Advice)
      (frames : List Frame) (u : World κ) (ps : List (World κ × World κ))
      (slot : Slot Call (Except HandlerError Unit)),
      Walk (Chain.step carrier core) u ⟨.enter m (.reconcile r :: rest), frames⟩ ps slot →
        Advised carrier core r m rest frames ps slot := by
  have hneat : w.groups.Neat key := .of_peopled hpeopled hids
  refine ⟨fun v result h => reconciled_of_runs hkey hneat h,
    completes_reconcileStep hkey hneat, fun u n hu => ?_,
    fun carrier core m rest frames u ps slot h => advised_of_walk h⟩
  have hneat' : u.groups.Neat key := (hu.tidied n rfl).neat hneat
  constructor
  · intro v result h
    exact reconciled_again hu (reconciled_of_runs hkey hneat' h)
  · intro hready
    refine (completes_reconcileStep hkey hneat' hready).mono fun v result hend => ?_
    obtain ⟨⟨n', rfl⟩, hagain⟩ := hend
    obtain ⟨hspared, hzero⟩ := reconciled_again hu hagain
    exact ⟨congrArg Except.ok (hzero n' rfl), hspared⟩

/-- A registration stands between two payments when its subscription is cancelled. -/
theorem reconciliation_tidies_of_registration :
    Completes (reconcileStep (.default {} none) "order-paid:42") (World.Undisturbed fun _ => True)
      (fun v result => result = .ok 1 ∧
        v.groups.messages "order-paid:42" = [paidOrder 1 .sent, paidOrder 2 .sent])
      (World.paidOrders [paidOrder 1 .sent, paidOrder 5 .startDeployed, paidOrder 2 .sent])
      .asking := by
  let pending := [paidOrder 1 .sent, paidOrder 5 .startDeployed, paidOrder 2 .sent]
  have hpeopled : (World.paidOrders pending).groups.Peopled :=
    World.peopled_paidOrders (List.cons_ne_nil _ _)
  have hids : (((World.paidOrders pending).groups.messages "order-paid:42").map
      Message.id).Nodup := by decide +kernel
  have hready : (World.paidOrders pending).Ready "order-paid:42" := ⟨rfl, rfl, rfl⟩
  obtain ⟨-, hends, -⟩ := reconciliation_tidies (.default {} none) (fun _ => True) trivial
    hpeopled hids
  refine (hends hready).mono fun v result hend => ?_
  obtain ⟨⟨n, rfl⟩, hreconciled⟩ := hend
  have htidied := hreconciled.tidied n rfl
  refine ⟨congrArg Except.ok (htidied.count.trans ?_), htidied.messages.trans ?_⟩
  · decide +kernel
  · rfl

end Chain
end Rendezvous
