/-
The memory of claims forgets the oldest keys first.

The memory keeps its values in a map and the order of its keys in a queue, and every call changes
both.  Seen from outside it is one list of keys with their values, the oldest key first: a new key
goes to the end and pushes the oldest ones out, a known one keeps its place (`Recollection`).  A
memory holds such a list if its queue has the keys of the list, each once, and its map the values
(`Holds`).  Each call answers as the list does and leaves a memory that holds what the list became,
so whatever calls are made, the two give the same answers (`recalls_after`).
-/
import Mathlib.Data.List.DropRight
import Rendezvous.Proofs.Claims
import Rendezvous.Proofs.Group.Replay

namespace Rendezvous

namespace ClaimStore

/-! ## Calls -/

inductive Call where
  | putIfAbsent (key value : String)
  | put (key value : String)
  | get (key : String)
  | remove (key : String)

inductive Answer where
  | done
  | value (found : Option String)
deriving DecidableEq

/-- What a call makes of the memory, and its answer. -/
def perform (s : ClaimStore) : Call → ClaimStore × Answer
  | .putIfAbsent key value => ((s.putIfAbsent key value).1, .value (s.putIfAbsent key value).2)
  | .put key value => (s.put key value, .done)
  | .get key => (s, .value (s.get? key))
  | .remove key => ((s.remove key).1, .value (s.remove key).2)

/-- What some calls make of `s`, one after the other, and their answers. -/
def replay {σ : Type} (perform : σ → Call → σ × Answer) (s : σ) : List Call → σ × List Answer
  | [] => (s, [])
  | c :: rest =>
    let (s, answer) := perform s c
    let (s, answers) := replay perform s rest
    (s, answer :: answers)

/-! ## The list that the memory is -/

/-- Keys with their values, in the order in which the keys came. -/
abbrev Recollection := List (String × String)

namespace Recollection

def keys (l : Recollection) : List String := l.map Prod.fst

/-- The value of a known key, in its place. -/
def overwrite (key value : String) (l : Recollection) : Recollection :=
  l.map fun e => if e.1 = key then (key, value) else e

/-- A known key keeps its place.  A new one goes to the end, and no more than `room` entries are
kept, the newest ones. -/
def put (room : Nat) (key value : String) (l : Recollection) : Recollection :=
  if (l.lookup key).isSome then l.overwrite key value else (l ++ [(key, value)]).rtake room

def forget (key : String) (l : Recollection) : Recollection := l.filter fun e => e.1 ≠ key

def perform (room : Nat) (l : Recollection) : Call → Recollection × Answer
  | .putIfAbsent key value =>
    (if (l.lookup key).isSome then l else l.put room key value, .value (l.lookup key))
  | .put key value => (l.put room key value, .done)
  | .get key => (l, .value (l.lookup key))
  | .remove key => (l.forget key, .value (l.lookup key))

/-- What some calls make of the empty list, and their answers. -/
def replay (room : Nat) (calls : List Call) : Recollection × List Answer :=
  ClaimStore.replay (perform room) [] calls

variable {l : Recollection}

theorem isSome_lookup_iff (l : Recollection) (key : String) :
    (l.lookup key).isSome = true ↔ key ∈ l.keys := by
  induction l with
  | nil => simp [keys]
  | cons e l ih =>
    obtain ⟨k, v⟩ := e
    rw [List.lookup_cons]
    by_cases hk : key = k
    · simp [hk, keys]
    · have hb : (key == k) = false := by simp [hk]
      simp only [hb, ih]
      simp [keys, hk]

theorem lookup_of_not_mem {key : String} (h : key ∉ l.keys) : l.lookup key = none := by
  rw [← isSome_lookup_iff] at h
  exact Option.not_isSome_iff_eq_none.mp h

theorem keys_overwrite (key value : String) (l : Recollection) :
    (l.overwrite key value).keys = l.keys := by
  rw [overwrite, keys, List.map_map]
  refine List.map_congr_left fun e _ => ?_
  show (if e.1 = key then (key, value) else e).1 = e.1
  split
  · next hk => exact hk.symm
  · rfl

theorem lookup_overwrite (key value : String) (l : Recollection) (other : String) :
    (l.overwrite key value).lookup other =
      if other = key ∧ key ∈ l.keys then some value else l.lookup other := by
  induction l with
  | nil => simp [overwrite, keys]
  | cons e l ih =>
    obtain ⟨k, v⟩ := e
    show List.lookup other
      ((if k = key then (key, value) else (k, v)) :: overwrite key value l) = _
    by_cases hk : k = key
    · subst hk
      by_cases ho : other = k
      · simp [ho, keys]
      · have hb : (other == k) = false := by simp [ho]
        simp only [if_true, List.lookup_cons, hb, ih]
        simp [ho]
    · rw [if_neg hk, List.lookup_cons, List.lookup_cons]
      by_cases ho : other = k
      · have hne : other ≠ key := fun e => hk (ho ▸ e)
        simp [ho, hk]
      · have hb : (other == k) = false := by simp [ho]
        have hkey : key ∈ keys ((k, v) :: l) ↔ key ∈ keys l := by
          simp [keys, Ne.symm hk]
        simp only [hb, ih, hkey]

theorem keys_forget (key : String) (l : Recollection) :
    (l.forget key).keys = l.keys.filter (· ≠ key) := by
  rw [forget, keys, keys, List.filter_map]
  rfl

theorem lookup_forget (key : String) (l : Recollection) (other : String) :
    (l.forget key).lookup other = if other = key then none else l.lookup other := by
  induction l with
  | nil => simp [forget]
  | cons e l ih =>
    obtain ⟨k, v⟩ := e
    rw [forget, List.filter_cons, List.lookup_cons]
    by_cases hk : k = key
    · have hdrop : decide ((k, v).1 ≠ key) = false := by simp [hk]
      rw [hdrop, if_neg Bool.false_ne_true]
      refine ih.trans ?_
      by_cases ho : other = key
      · rw [if_pos ho, if_pos ho]
      · have hb : (other == k) = false := by simp [hk, ho]
        rw [if_neg ho, if_neg ho, hb]
    · have hkeep : decide ((k, v).1 ≠ key) = true := by simp [hk]
      rw [hkeep, if_pos rfl, List.lookup_cons]
      by_cases ho : other = k
      · have hne : other ≠ key := fun e => hk (ho ▸ e)
        simp [ho, hk]
      · have hb : (other == k) = false := by simp [ho]
        simp only [hb]
        exact ih

/-- What lies in front of the newest entries is not looked up any more. -/
theorem lookup_drop (hl : l.keys.Nodup) (n : Nat) (key : String) :
    List.lookup key (l.drop n) = if key ∈ l.keys.take n then none else l.lookup key := by
  have hsplit : l.lookup key = (List.lookup key (l.take n)).or (List.lookup key (l.drop n)) := by
    rw [← List.lookup_append, List.take_append_drop]
  have htake : l.keys.take n = keys (l.take n) := (List.map_take ..).symm
  have hdrop : l.keys.drop n = keys (l.drop n) := (List.map_drop ..).symm
  rw [← List.take_append_drop n l.keys, htake, hdrop] at hl
  rw [htake]
  split
  · next hold =>
    refine lookup_of_not_mem fun hnew => ?_
    exact (List.nodup_append.mp hl).2.2 key hold key hnew rfl
  · next hold =>
    rw [hsplit, lookup_of_not_mem hold, Option.none_or]

/-- A key that was just stored is found: the entry at the end is the last one to be dropped. -/
theorem lookup_put_self {room : Nat} (hroom : 1 ≤ room) (key value : String) (l : Recollection) :
    (l.put room key value).lookup key = some value := by
  rw [put]
  split
  · next hknown =>
    rw [lookup_overwrite, if_pos ⟨rfl, (isSome_lookup_iff l key).mp hknown⟩]
  · next hnew =>
    obtain ⟨n, rfl⟩ : ∃ n, room = n + 1 := ⟨room - 1, by omega⟩
    have hkept : key ∉ keys (l.rtake n) := by
      intro h
      refine hnew ((isSome_lookup_iff l key).mpr ?_)
      exact ((List.drop_sublist (l.length - n) l).map Prod.fst).subset h
    rw [List.rtake_concat_succ, List.lookup_append, lookup_of_not_mem hkept]
    simp

end Recollection

/-! ## Memories that hold a list -/

/-- The queue of the memory has the keys of the list, each once, and its map the values; there is
room for all of them, and for one at least. -/
structure Holds (s : ClaimStore) (l : Recollection) : Prop where
  order : s.order = l.keys
  values : ∀ key, s.get? key = l.lookup key
  nodup : l.keys.Nodup
  room : l.length ≤ s.capacity
  positive : 1 ≤ s.capacity

variable {s : ClaimStore} {l : Recollection}

theorem Holds.ofCapacity (capacity : Nat) : (ofCapacity capacity).Holds [] :=
  ⟨rfl, fun _ => rfl, List.nodup_nil, Nat.zero_le _, Nat.le_max_right capacity 1⟩

/-- Evicting keeps the newest keys of the queue, and takes the others out of the map. -/
theorem evict_eq (capacity : Nat) (values : Dict String) (order : List String) :
    (evict capacity values order).2 = order.rtake capacity ∧
      ∀ key, (evict capacity values order).1.find? key =
        if key ∈ order.take (order.length - capacity) then none else values.find? key := by
  induction order generalizing values with
  | nil => simp [evict]
  | cons oldest rest ih =>
    rw [evict]
    split
    · next hfits =>
      have hnothing : (oldest :: rest).length - capacity = 0 := Nat.sub_eq_zero_of_le hfits
      rw [List.rtake, hnothing]
      simp
    · next hfull =>
      have hone : (oldest :: rest).length - capacity = rest.length - capacity + 1 := by
        rw [List.length_cons] at hfull ⊢
        omega
      obtain ⟨horder, hvalues⟩ := ih (values.erase oldest)
      refine ⟨?_, fun key => ?_⟩
      · rw [horder, List.rtake, List.rtake, hone, List.drop_succ_cons]
      · rw [hvalues, hone, List.take_succ_cons, Dict.find?_erase]
        by_cases hk : key = oldest
        · simp [hk]
        · simp [hk]

theorem Holds.put (hs : s.Holds l) (key value : String) :
    (s.put key value).Holds (l.put s.capacity key value) := by
  have hknown : (s.get? key).isSome = true ↔ key ∈ l.keys := by
    rw [hs.values, Recollection.isSome_lookup_iff]
  rw [ClaimStore.put, Recollection.put, ← hs.values]
  by_cases hsome : (s.get? key).isSome = true
  · rw [if_pos hsome, if_pos hsome]
    -- a known key: the queue is as long as it was, so nothing is evicted
    have hfits : s.order.length ≤ s.capacity := by
      rw [hs.order, Recollection.keys, List.length_map]
      exact hs.room
    rw [evict_of_le hfits]
    refine ⟨?_, fun other => ?_, ?_, ?_, hs.positive⟩
    · rw [Recollection.keys_overwrite]
      exact hs.order
    · rw [Recollection.lookup_overwrite, ← hs.values]
      show (s.values.insert key value).find? other = _
      rw [Dict.find?_insert]
      by_cases ho : other = key
      · rw [if_pos ho, if_pos ⟨ho, hknown.mp hsome⟩]
      · rw [if_neg ho, if_neg fun h => ho h.1]
        rfl
    · rw [Recollection.keys_overwrite]
      exact hs.nodup
    · show (l.overwrite key value).length ≤ s.capacity
      rw [Recollection.overwrite, List.length_map]
      exact hs.room
  · rw [if_neg hsome, if_neg hsome]
    have hnew : key ∉ l.keys := fun h => hsome (hknown.mpr h)
    have hkeys : s.order ++ [key] = Recollection.keys (l ++ [(key, value)]) := by
      rw [hs.order, Recollection.keys, Recollection.keys, List.map_append]
      rfl
    have hnodup : (Recollection.keys (l ++ [(key, value)])).Nodup := by
      rw [← hkeys, hs.order]
      refine List.nodup_append.mpr ⟨hs.nodup, List.nodup_singleton key, fun a ha b hb => ?_⟩
      rw [List.mem_singleton.mp hb]
      exact fun h => hnew (h ▸ ha)
    have hlength : (s.order ++ [key]).length = (l ++ [(key, value)]).length := by
      rw [hkeys, Recollection.keys, List.length_map]
    obtain ⟨horder, hvalues⟩ :=
      evict_eq s.capacity (s.values.insert key value) (s.order ++ [key])
    have hkept : Recollection.keys ((l ++ [(key, value)]).rtake s.capacity) =
        (s.order ++ [key]).rtake s.capacity := by
      rw [List.rtake, List.rtake, hlength, hkeys]
      exact List.map_drop ..
    refine ⟨horder.trans hkept.symm, fun other => ?_, ?_, ?_, hs.positive⟩
    · show (evict s.capacity (s.values.insert key value) (s.order ++ [key])).1.find? other = _
      rw [hvalues, List.rtake, Recollection.lookup_drop hnodup, hlength, hkeys, Dict.find?_insert,
        List.lookup_append, ← hs.values]
      by_cases ho : other = key
      · subst ho
        have habsent : s.get? other = none := by
          rw [hs.values]
          exact Recollection.lookup_of_not_mem hnew
        simp [habsent]
      · have hb : (other == key) = false := by simp [ho]
        simp [ho, hb, List.lookup_cons, get?]
    · rw [hkept]
      exact (hkeys ▸ hnodup).sublist (List.drop_sublist ..)
    · show ((l ++ [(key, value)]).rtake s.capacity).length ≤ s.capacity
      rw [List.rtake, List.length_drop]
      omega

theorem Holds.putIfAbsent (hs : s.Holds l) (key value : String) :
    (s.putIfAbsent key value).1.Holds
        (if (l.lookup key).isSome then l else l.put s.capacity key value) ∧
      (s.putIfAbsent key value).2 = l.lookup key := by
  rw [← hs.values, ClaimStore.putIfAbsent]
  cases hget : s.get? key with
  | some found => exact ⟨hs, rfl⟩
  | none => exact ⟨hs.put key value, rfl⟩

theorem Holds.remove (hs : s.Holds l) (key : String) :
    (s.remove key).1.Holds (l.forget key) ∧ (s.remove key).2 = l.lookup key := by
  have hforget : ∀ other, (if other = key then none else s.get? other) =
      List.lookup other (l.forget key) := by
    intro other
    rw [Recollection.lookup_forget, hs.values]
  have hnodup : (l.forget key).keys.Nodup := by
    rw [Recollection.keys_forget]
    exact hs.nodup.filter _
  have hroom : (l.forget key).length ≤ s.capacity :=
    Nat.le_trans (List.length_filter_le _ l) hs.room
  rw [← hs.values, ClaimStore.remove]
  cases hget : s.get? key with
  | some found =>
    refine ⟨⟨?_, fun other => ?_, hnodup, hroom, hs.positive⟩, rfl⟩
    · rw [Recollection.keys_forget, ← hs.order]
    · rw [← hforget]
      exact Dict.find?_erase s.values key other
  | none =>
    have hnew : key ∉ l.keys := by
      rw [← Recollection.isSome_lookup_iff, ← hs.values, hget]
      exact Bool.false_ne_true
    refine ⟨⟨?_, fun other => ?_, hnodup, hroom, hs.positive⟩, rfl⟩
    · rw [Recollection.keys_forget, hs.order]
      refine (List.filter_eq_self.mpr fun k hk => ?_).symm
      exact decide_eq_true fun h : k = key => hnew (h ▸ hk)
    · rw [← hforget]
      by_cases ho : other = key
      · rw [if_pos ho, ho]
        exact hget
      · rw [if_neg ho]

theorem capacity_perform (s : ClaimStore) (c : Call) : (s.perform c).1.capacity = s.capacity := by
  cases c with
  | put | get => rfl
  | putIfAbsent key value =>
    simp only [perform, putIfAbsent]
    split <;> rfl
  | remove key =>
    simp only [perform, remove]
    split <;> rfl

/-- A call answers as the list does, and leaves a memory that holds what the list became. -/
theorem Holds.perform (hs : s.Holds l) (c : Call) :
    (s.perform c).1.Holds (l.perform s.capacity c).1 ∧
      (s.perform c).2 = (l.perform s.capacity c).2 := by
  cases c with
  | putIfAbsent key value =>
    obtain ⟨hholds, hanswer⟩ := hs.putIfAbsent key value
    exact ⟨hholds, congrArg Answer.value hanswer⟩
  | put key value => exact ⟨hs.put key value, rfl⟩
  | get key => exact ⟨hs, congrArg Answer.value (hs.values key)⟩
  | remove key =>
    obtain ⟨hholds, hanswer⟩ := hs.remove key
    exact ⟨hholds, congrArg Answer.value hanswer⟩

/-- The induction is on the calls that are still to come. -/
theorem Holds.replay (hs : s.Holds l) (calls : List Call) :
    (replay ClaimStore.perform s calls).1.Holds
        (ClaimStore.replay (Recollection.perform s.capacity) l calls).1 ∧
      (ClaimStore.replay ClaimStore.perform s calls).2 =
        (ClaimStore.replay (Recollection.perform s.capacity) l calls).2 ∧
      (ClaimStore.replay ClaimStore.perform s calls).1.capacity = s.capacity := by
  induction calls generalizing s l with
  | nil => exact ⟨hs, rfl, rfl⟩
  | cons c rest ih =>
    obtain ⟨hholds, hanswer⟩ := hs.perform c
    obtain ⟨hholds', hanswers, hcapacity⟩ := ih hholds
    rw [capacity_perform] at hholds' hanswers hcapacity
    exact ⟨hholds', List.cons_eq_cons.mpr ⟨hanswer, hanswers⟩, hcapacity⟩

/-! ## The memory after any calls -/

/-- A memory is a list of keys with their values, the oldest key first: its queue has the keys, each
once, its map the same ones with the values, and there are no more than fit.  What the next call
does is told by the queue.  A new key goes to its end, and as many of the oldest keys as are too
many go from its front; a known key stays where it is, with the value it has unless it is put;
a key that is removed makes room for another.  A key that was stored is found. -/
structure Recalls (room : Nat) (l : Recollection) (s : ClaimStore) : Prop where
  queue : s.order = l.keys
  values : ∀ key, s.get? key = l.lookup key
  once : s.order.Nodup
  same : s.values.names = s.order.toFinset
  bounded : s.order.length ≤ room
  fresh : ∀ key value, s.get? key = none →
    (s.put key value).order = s.order.drop (s.order.length + 1 - room) ++ [key]
  known : ∀ key value, s.get? key ≠ none → (s.put key value).order = s.order
  steady : ∀ key value found, s.get? key = some found → s.putIfAbsent key value = (s, some found)
  freed : ∀ key, s.get? key ≠ none →
    (s.remove key).1.get? key = none ∧ (s.remove key).1.order.length + 1 = s.order.length
  readable : ∀ key value, (s.put key value).get? key = some value ∧
    (s.putIfAbsent key value).1.get? key = some ((s.get? key).getD value)

theorem Holds.recalls (hs : s.Holds l) : s.Recalls s.capacity l := by
  have honce : s.order.Nodup := hs.order ▸ hs.nodup
  have hknown (key : String) : s.get? key ≠ none ↔ key ∈ s.order := by
    rw [hs.order, ← Recollection.isSome_lookup_iff, ← hs.values, Option.isSome_iff_ne_none]
  have hbounded : s.order.length ≤ s.capacity := by
    rw [hs.order, Recollection.keys, List.length_map]
    exact hs.room
  refine ⟨hs.order, hs.values, honce, ?_, hbounded, fun key value hnew => ?_,
    fun key value h => ?_, fun key value found h => ?_, fun key h => ⟨?_, ?_⟩,
    fun key value => ⟨?_, ?_⟩⟩
  · ext key
    rw [Dict.mem_names, List.mem_toFinset]
    exact hknown key
  · have hput : (s.put key value).order = (s.order ++ [key]).rtake s.capacity := by
      rw [ClaimStore.put, hnew]
      exact (evict_eq ..).1
    have hle : s.order.length + 1 - s.capacity ≤ s.order.length := by
      have := hs.positive
      omega
    rw [hput, List.rtake, List.length_append, List.length_singleton,
      List.drop_append_of_le_length hle]
  · have hsome : (s.get? key).isSome = true := Option.isSome_iff_ne_none.mpr h
    rw [ClaimStore.put, if_pos hsome, evict_of_le hbounded]
  · rw [ClaimStore.putIfAbsent, h]
  · rw [(hs.remove key).1.values, Recollection.lookup_forget, if_pos rfl]
  · have hmem : key ∈ s.order := (hknown key).mp h
    have herase : (s.remove key).1.order = s.order.erase key := by
      rw [(hs.remove key).1.order, Recollection.keys_forget, ← hs.order, honce.erase_eq_filter]
      exact List.filter_congr fun k _ => by by_cases hk : k = key <;> simp [hk]
    rw [herase, List.length_erase_of_mem hmem]
    exact Nat.sub_add_cancel (List.length_pos_of_mem hmem)
  · rw [(hs.put key value).values, Recollection.lookup_put_self hs.positive]
  · rw [(hs.putIfAbsent key value).1.values, hs.values]
    cases hl : l.lookup key with
    | none => exact Recollection.lookup_put_self hs.positive key value l
    | some found => exact hl

/-- Whatever calls are made of a memory, it answers as the list does, and is that list after them. -/
theorem recalls_after (capacity : Nat) (calls : List Call) :
    (replay perform (ofCapacity capacity) calls).2 =
        (Recollection.replay (max capacity 1) calls).2 ∧
      (replay perform (ofCapacity capacity) calls).1.Recalls (max capacity 1)
        (Recollection.replay (max capacity 1) calls).1 := by
  obtain ⟨hholds, hanswers, hcapacity⟩ := (Holds.ofCapacity capacity).replay calls
  have hrecalls := hholds.recalls
  rw [hcapacity] at hrecalls
  exact ⟨hanswers, hrecalls⟩

/-- At capacity two a new key pushes out the oldest one; a key that was overwritten is as old as it
was, and one that was removed comes back as the newest. -/
example : (replay perform (ofCapacity 2)
    [.put "a" "1", .put "b" "2", .put "a" "3", .put "c" "4", .get "a", .remove "b",
      .putIfAbsent "c" "5", .put "b" "6", .get "c"]).2 =
    [.done, .done, .done, .done, .value none, .value (some "2"), .value (some "4"), .done,
      .value (some "4")] := by
  decide +kernel

end ClaimStore
end Rendezvous
