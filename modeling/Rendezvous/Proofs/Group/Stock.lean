/-
How many messages a store of groups holds.

A store holds the messages of all its groups.  The number is a sum over the entries of a dictionary,
and so are the sums of the labelled totals: putting a value at a name changes a sum by that value
and the one it replaces (`Dict.sumOf_insert`), and erasing a name by the one that goes
(`Dict.sumOf_erase`).  An append adds one message to the store, and a removal takes as many out of
it as it takes out of its group.
-/
import Mathlib.Data.List.Nodup
import Mathlib.Data.List.Perm.Basic
import Rendezvous.Metrics.Basic
import Rendezvous.Proofs.Group.Store

namespace Rendezvous

/-! ## Sums over dictionaries -/

namespace Dict

variable {α : Type}

def sumOf (f : α → Nat) (d : Dict α) : Nat := d.entries.foldr (fun e n => f e.2 + n) 0

/-- What a name adds to a sum. -/
def part (f : α → Nat) (d : Dict α) (name : String) : Nat := ((d.find? name).map f).getD 0

theorem sumOf_insert (f : α → Nat) (d : Dict α) (name : String) (value : α) :
    (d.insert name value).sumOf f + d.part f name = d.sumOf f + f value := by
  obtain ⟨es, hordered⟩ := d
  simp only [sumOf, part, insert, find?]
  induction es with
  | nil => simp [Entries.insert, Entries.find?]
  | cons head rest ih =>
    obtain ⟨k, v⟩ := head
    obtain ⟨hhead, hrest⟩ := List.pairwise_cons.mp hordered
    have ih := ih hrest
    rw [Entries.insert, Entries.find?]
    by_cases hk : name = k
    · simp only [hk, if_true, List.foldr_cons, Option.map_some, Option.getD_some]
      omega
    · by_cases hlt : name < k
      · -- the names are in order, so a name in front of the first one has no value yet
        have hnone : Entries.find? name rest = none :=
          Entries.find?_eq_none_of_lt fun e he => String.lt_trans hlt (hhead e he)
        simp only [hk, hlt, hnone, if_true, if_false, List.foldr_cons,
          Option.map_none, Option.getD_none]
        omega
      · simp only [hk, hlt, if_false, List.foldr_cons]
        omega

theorem sumOf_erase (f : α → Nat) (d : Dict α) (name : String) :
    (d.erase name).sumOf f + d.part f name = d.sumOf f := by
  obtain ⟨es, hordered⟩ := d
  simp only [sumOf, part, erase, find?]
  clear hordered
  induction es with
  | nil => simp [Entries.erase, Entries.find?]
  | cons head rest ih =>
    obtain ⟨k, v⟩ := head
    rw [Entries.erase, Entries.find?]
    by_cases hk : name = k
    · simp only [hk, if_true, List.foldr_cons, Option.map_some, Option.getD_some]
      omega
    · simp only [hk, if_false, List.foldr_cons]
      omega

end Dict

namespace Metrics

theorem sum_eq (d : Dict Nat) : sum d = d.sumOf id := rfl

/-- One more under one label is one more in all. -/
theorem sum_bump (d : Dict Nat) (label : String) : sum (bump d label) = sum d + 1 := by
  have h := d.sumOf_insert id label ((d.find? label).getD 0 + 1)
  rw [Dict.part, Option.map_id] at h
  rw [sum_eq, sum_eq, bump]
  simp only [id_eq] at h
  omega

theorem getD_find?_bump (d : Dict Nat) (label other : String) :
    ((bump d label).find? other).getD 0 =
      (d.find? other).getD 0 + if other = label then 1 else 0 := by
  rw [bump, Dict.find?_insert]
  by_cases ho : other = label
  · simp [ho]
  · simp [ho]

end Metrics

/-! ## Messages in all groups -/

namespace GroupStore

/-- The number of messages in all groups. -/
def stored (s : GroupStore) : Nat := s.groups.sumOf fun g => g.messages.length

theorem part_eq (s : GroupStore) (key : CorrelationKey) :
    s.groups.part (fun g => g.messages.length) key = (s.messages key).length := by
  rw [Dict.part, messages]
  cases s.groups.find? key <;> rfl

theorem stored_add (s : GroupStore) (key : CorrelationKey) (m : EventMessage) (now : Stamp) :
    (s.add key m now).1.stored = s.stored + 1 := by
  simp only [stored, add]
  cases hg : s.groups.find? key with
  | none =>
    have h := s.groups.sumOf_insert (fun g => g.messages.length) key ⟨[m], now, now⟩
    rw [Dict.part, hg] at h
    simpa using h
  | some g =>
    have h := s.groups.sumOf_insert (fun g => g.messages.length) key
      { g with messages := g.messages ++ [m], modified := now }
    rw [Dict.part, hg] at h
    simp only [Option.map_some, Option.getD_some, List.length_append, List.length_singleton] at h
    show (s.groups.insert key { g with messages := g.messages ++ [m], modified := now }).sumOf _ = _
    omega

/-- A store loses as many messages as the group does. -/
theorem stored_remove (s : GroupStore) (key : CorrelationKey) (ids : List Uuid) (now : Stamp) :
    (s.remove key ids now).stored + (s.messages key).length =
      s.stored + (without ids (s.messages key)).length := by
  rw [remove]
  cases hg : s.groups.find? key with
  | none =>
    have hnil : s.messages key = [] := by rw [messages, hg]
    rw [hnil]
    rfl
  | some g =>
    have hms : s.messages key = g.messages := by rw [messages, hg]
    have hpart := s.part_eq key
    rw [hms] at hpart ⊢
    show (if (without ids g.messages).isEmpty then _
      else if (without ids g.messages).length = g.messages.length then s
      else ⟨s.groups.insert key { g with messages := without ids g.messages, modified := now }⟩ :
        GroupStore).stored + _ = _
    by_cases hempty : (without ids g.messages).isEmpty = true
    · have h := s.groups.sumOf_erase (fun g => g.messages.length) key
      rw [if_pos hempty, List.isEmpty_iff.mp hempty, ← hpart]
      simpa [stored] using h
    · rw [if_neg hempty]
      by_cases hlen : (without ids g.messages).length = g.messages.length
      · rw [if_pos hlen, hlen]
      · have h := s.groups.sumOf_insert (fun g => g.messages.length) key
          { g with messages := without ids g.messages, modified := now }
        rw [if_neg hlen, ← hpart]
        simpa [stored] using h

end GroupStore

/-- Messages that are told apart by their identities go one by one. -/
theorem length_without {ids : List Uuid} {ms : List EventMessage} (hids : ids.Nodup)
    (hms : (ms.map Message.id).Nodup) (hsub : ids ⊆ ms.map Message.id) :
    (without ids ms).length + ids.length = ms.length := by
  have hgone : ((ms.filter fun m => ids.contains m.id).map Message.id).Perm ids := by
    refine (List.perm_ext_iff_of_nodup ?_ hids).mpr fun id => ?_
    · exact hms.sublist (List.filter_sublist.map _)
    · simp only [List.mem_map, List.mem_filter, List.contains_iff_mem]
      constructor
      · rintro ⟨m, ⟨-, hid⟩, rfl⟩
        exact hid
      · intro hid
        obtain ⟨m, hm, rfl⟩ := List.mem_map.mp (hsub hid)
        exact ⟨m, ⟨hm, hid⟩, rfl⟩
  have hlength := hgone.length_eq
  rw [List.length_map] at hlength
  rw [← hlength, without, Nat.add_comm]
  exact (List.length_eq_length_filter_add _).symm

end Rendezvous
