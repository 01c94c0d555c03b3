/-
What the memory of claims remembers.

As long as no more identities are claimed than the memory has room for, nothing is forgotten, and
the memory is a set of identities: `put` adds one, `remove` takes one out, and neither touches
another (`ClaimStore.Roomy`).  Beyond that the oldest claims are forgotten, but a new one is always
known (`ClaimStore.Sane`).
-/
import Mathlib.Data.List.Dedup
import Mathlib.Data.List.Perm.Subperm
import Rendezvous.Flow.World
import Rendezvous.Proofs.Identity

namespace Rendezvous

namespace ClaimStore

/-- The memory has room for all known identities, and keeps claims of them only. -/
structure Roomy (known : List Uuid) (s : ClaimStore) : Prop where
  nodup : s.order.Nodup
  mem : ∀ key, (s.get? key).isSome = true ↔ key ∈ s.order
  origin : ∀ key ∈ s.order, ∃ i ∈ known, i.text = key
  room : known.length ≤ s.capacity

variable {known : List Uuid} {s : ClaimStore} {i : Uuid} {value : String}

def claimed (s : ClaimStore) (i : Uuid) : Bool := (s.get? i.text).isSome

theorem Roomy.ofCapacity {n : Nat} (h : known.length ≤ n) : (ofCapacity n).Roomy known :=
  ⟨List.nodup_nil, by simp [ClaimStore.ofCapacity, get?, Dict.find?_empty],
    fun _ h => (by cases h), Nat.le_trans h (Nat.le_max_left n 1)⟩

theorem evict_of_le {capacity : Nat} {values : Dict String} {order : List String}
    (h : order.length ≤ capacity) : evict capacity values order = (values, order) := by
  cases order with
  | nil => rfl
  | cons oldest rest => rw [evict, if_pos h]

/-- A new claim of a known identity finds room. -/
theorem Roomy.put_eq (hs : s.Roomy known) (hi : i ∈ known) (hnew : s.claimed i = false) :
    s.put i.text value = ⟨s.values.insert i.text value, s.order ++ [i.text], s.capacity⟩ := by
  have hnew' : (s.get? i.text).isSome = false := hnew
  have habsent : i.text ∉ s.order := fun h => by simp [(hs.mem _).mpr h] at hnew'
  have hlen : (i.text :: s.order).length ≤ (known.map Uuid.text).length := by
    refine (List.subperm_of_subset (List.nodup_cons.mpr ⟨habsent, hs.nodup⟩) ?_).length_le
    intro key hkey
    rcases List.mem_cons.mp hkey with rfl | hkey
    · exact List.mem_map_of_mem hi
    · obtain ⟨j, hj, rfl⟩ := hs.origin key hkey
      exact List.mem_map_of_mem hj
  have hroom : (s.order ++ [i.text]).length ≤ s.capacity := by
    have := hs.room
    rw [List.length_map, List.length_cons] at hlen
    rw [List.length_append, List.length_singleton]
    omega
  rw [put, hnew']
  simp only [Bool.false_eq_true, if_false, evict_of_le hroom]

theorem Roomy.claimed_put (hs : s.Roomy known) (hi : i ∈ known) (hnew : s.claimed i = false)
    (j : Uuid) : (s.put i.text value).claimed j = (decide (j = i) || s.claimed j) := by
  rw [hs.put_eq hi hnew, claimed, get?, Dict.find?_insert]
  by_cases hj : j = i
  · rw [if_pos (hj ▸ rfl)]
    simp [hj]
  · rw [if_neg fun h => hj (Uuid.text_injective h)]
    simp [hj, claimed, get?]

theorem Roomy.put (hs : s.Roomy known) (hi : i ∈ known) (hnew : s.claimed i = false) :
    (s.put i.text value).Roomy known := by
  have hnew' : (s.get? i.text).isSome = false := hnew
  have habsent : i.text ∉ s.order := fun h => by simp [(hs.mem _).mpr h] at hnew'
  rw [hs.put_eq hi hnew]
  refine ⟨?_, fun key => ?_, fun key hkey => ?_, hs.room⟩
  · refine List.nodup_append.mpr ⟨hs.nodup, List.nodup_singleton _, fun a ha b hb => ?_⟩
    rintro rfl
    rw [List.mem_singleton.mp hb] at ha
    exact habsent ha
  · rw [get?, Dict.find?_insert, List.mem_append, List.mem_singleton, ← hs.mem key]
    by_cases hk : key = i.text
    · simp [hk]
    · simp [hk, get?]
  · rcases List.mem_append.mp hkey with hkey | hkey
    · exact hs.origin key hkey
    · exact ⟨i, hi, (List.mem_singleton.mp hkey).symm⟩

theorem claimed_remove (s : ClaimStore) (i j : Uuid) :
    (s.remove i.text).1.claimed j = (!decide (j = i) && s.claimed j) := by
  unfold remove
  cases h : s.get? i.text with
  | none =>
    by_cases hj : j = i
    · subst hj
      simp [claimed, h]
    · simp [hj]
  | some existing =>
    show ((s.values.erase i.text).find? j.text).isSome = _
    rw [Dict.find?_erase]
    by_cases hj : j = i
    · rw [if_pos (hj ▸ rfl)]
      simp [hj]
    · rw [if_neg fun e => hj (Uuid.text_injective e)]
      simp [hj, claimed, get?]

theorem Roomy.remove (hs : s.Roomy known) (i : Uuid) : (s.remove i.text).1.Roomy known := by
  unfold ClaimStore.remove
  cases h : s.get? i.text with
  | none => exact hs
  | some existing =>
    refine ⟨hs.nodup.filter _, fun key => ?_,
      fun key hkey => hs.origin key (List.mem_filter.mp hkey).1, hs.room⟩
    show ((s.values.erase i.text).find? key).isSome = true ↔ key ∈ s.order.filter (· ≠ i.text)
    rw [Dict.find?_erase, List.mem_filter, ← hs.mem key]
    by_cases hk : key = i.text
    · simp [hk]
    · simp [hk, get?]

theorem putIfAbsent_of_claimed (value : String) (h : s.claimed i = true) :
    ∃ found, s.putIfAbsent i.text value = (s, some found) := by
  obtain ⟨found, hfound⟩ := Option.isSome_iff_exists.mp h
  exact ⟨found, by rw [putIfAbsent, hfound]⟩

theorem putIfAbsent_of_not_claimed (h : s.claimed i = false) :
    s.putIfAbsent i.text value = (s.put i.text value, none) := by
  have hnone : s.get? i.text = none := by simpa [claimed] using h
  rw [putIfAbsent, hnone]

/-! ## Claims beyond the capacity -/

/-- The keys in line are those that are known, each once, and there is room for one.  This holds of
every store that was in use, however many claims it forgot. -/
structure Sane (s : ClaimStore) : Prop where
  nodup : s.order.Nodup
  mem : ∀ key, (s.get? key).isSome = true ↔ key ∈ s.order
  room : 1 ≤ s.capacity

theorem Sane.ofCapacity (n : Nat) : (ofCapacity n).Sane :=
  ⟨List.nodup_nil, by simp [ClaimStore.ofCapacity, get?, Dict.find?_empty], Nat.le_max_right n 1⟩

/-- The oldest keys are forgotten until there is room, and the last one is not among them. -/
theorem evict_spec {capacity : Nat} {values : Dict String} {older : List String} {newest : String}
    (hroom : 1 ≤ capacity) (hnodup : (older ++ [newest]).Nodup)
    (hmem : ∀ key, (values.find? key).isSome = true ↔ key ∈ older ++ [newest]) :
    (evict capacity values (older ++ [newest])).2.Nodup ∧
      newest ∈ (evict capacity values (older ++ [newest])).2 ∧
      ∀ key, ((evict capacity values (older ++ [newest])).1.find? key).isSome = true ↔
        key ∈ (evict capacity values (older ++ [newest])).2 := by
  induction older generalizing values with
  | nil =>
    rw [List.nil_append, evict_of_le hroom]
    exact ⟨hnodup, List.mem_singleton_self newest, hmem⟩
  | cons oldest older ih =>
    rw [List.cons_append] at hnodup hmem
    rw [List.cons_append, evict]
    split
    · exact ⟨hnodup, List.mem_cons_of_mem _ (List.mem_append_right _ (by simp)), hmem⟩
    · obtain ⟨hnew, hrest⟩ := List.nodup_cons.mp hnodup
      refine ih hrest fun key => ?_
      rw [Dict.find?_erase]
      by_cases hk : key = oldest
      · rw [if_pos hk, hk]
        exact iff_of_false (fun h => by cases h) hnew
      · rw [if_neg hk, hmem, List.mem_cons]
        exact or_iff_right hk

/-- A new claim is known, whatever was forgotten for it. -/
theorem Sane.put (hs : s.Sane) (hnew : s.claimed i = false) :
    (s.put i.text value).Sane ∧ (s.put i.text value).claimed i = true := by
  have hnew' : (s.get? i.text).isSome = false := hnew
  have habsent : i.text ∉ s.order := by
    intro h
    rw [(hs.mem _).mpr h] at hnew'
    cases hnew'
  have hput : s.put i.text value =
      ⟨(evict s.capacity (s.values.insert i.text value) (s.order ++ [i.text])).1,
        (evict s.capacity (s.values.insert i.text value) (s.order ++ [i.text])).2, s.capacity⟩ := by
    rw [ClaimStore.put, hnew', if_neg Bool.false_ne_true]
  have hnodup : (s.order ++ [i.text]).Nodup := by
    simp only [List.nodup_append, List.nodup_singleton, List.mem_singleton]
    refine ⟨hs.nodup, trivial, fun a ha b hb hab => habsent ?_⟩
    rw [← hb, ← hab]
    exact ha
  have hmem (key : String) : ((s.values.insert i.text value).find? key).isSome = true ↔
      key ∈ s.order ++ [i.text] := by
    rw [Dict.find?_insert, List.mem_append, List.mem_singleton, ← hs.mem key]
    by_cases hk : key = i.text
    · simp [hk]
    · simp [hk, get?]
  obtain ⟨hnodup', hnewest, hmem'⟩ := evict_spec hs.room hnodup hmem
  rw [hput]
  exact ⟨⟨hnodup', hmem', hs.room⟩, (hmem' i.text).mpr hnewest⟩

theorem Sane.remove (hs : s.Sane) (i : Uuid) : (s.remove i.text).1.Sane := by
  unfold ClaimStore.remove
  cases h : s.get? i.text with
  | none => exact hs
  | some existing =>
    refine ⟨hs.nodup.filter _, fun key => ?_, hs.room⟩
    show ((s.values.erase i.text).find? key).isSome = true ↔ key ∈ s.order.filter (· ≠ i.text)
    rw [Dict.find?_erase, List.mem_filter, ← hs.mem key]
    by_cases hk : key = i.text
    · simp [hk]
    · simp [hk, get?]

end ClaimStore

namespace World

variable {κ : Type} {w : World κ}

theorem askClaims_eq (hf : w.claimFaults = []) (call : ClaimCall) :
    w.askClaims call = (w, none) := by
  obtain ⟨⟩ := w
  obtain rfl := hf
  rfl

theorem putClaimIfAbsent_eq (hf : w.claimFaults = []) (key value : String) :
    w.putClaimIfAbsent key value =
      ({ w with claims := (w.claims.putIfAbsent key value).1 },
        .ok (w.claims.putIfAbsent key value).2) := by
  rw [putClaimIfAbsent, askClaims_eq hf]

theorem removeClaim_eq (hf : w.claimFaults = []) (key : String) :
    (w.removeClaim key).1 = { w with claims := (w.claims.remove key).1 } := by
  rw [removeClaim, askClaims_eq hf]

end World
end Rendezvous
