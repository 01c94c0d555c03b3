/-
What the store of groups keeps.

Seen through `GroupStore.messages`, the store is a function from keys to lists of messages:
`add` puts a message at the end of one list, `remove` filters one list, and an emptied group is
the empty list.  The stamps and the number of groups are not seen this way, and no proof about
the order of work needs them.  What a removal makes of one group, its stamps included, is told by
`Group.after?`.
-/
import Rendezvous.Group.Store

namespace Rendezvous

def without (ids : List Uuid) (ms : List EventMessage) : List EventMessage :=
  ms.filter fun m => !ids.contains m.id

theorem mem_without {ids : List Uuid} {ms : List EventMessage} {m : EventMessage} :
    m ∈ without ids ms ↔ m ∈ ms ∧ m.id ∉ ids := by
  simp [without]

theorem without_sublist (ids : List Uuid) (ms : List EventMessage) :
    (without ids ms).Sublist ms :=
  List.filter_sublist

theorem without_nil (ms : List EventMessage) : without [] ms = ms := by
  simp [without]

/-- Taking out a message that is there leaves fewer. -/
theorem length_without_lt {ids : List Uuid} {ms : List EventMessage} {m : EventMessage}
    (hm : m ∈ ms) (hid : m.id ∈ ids) : (without ids ms).length < ms.length :=
  List.length_filter_lt_length_iff_exists.mpr ⟨m, hm, by simpa using hid⟩

/-- What is left of a group when messages are taken out: no group, the same one if there is none of
them in it, or one that was changed now. -/
def Group.after? (g : Group) (ids : List Uuid) (now : Stamp) : Option Group :=
  if (without ids g.messages).isEmpty then none
  else if (without ids g.messages).length = g.messages.length then some g
  else some { g with messages := without ids g.messages, modified := now }

namespace GroupStore

variable {s : GroupStore} {key other : CorrelationKey}

/-- A group that is there shows its key and its messages. -/
theorem of_group? {g : Group} (h : s.group? key = some g) :
    g.key = key ∧ g.messages = s.messages key := by
  obtain ⟨stored, hs, rfl⟩ := Option.map_eq_some_iff.mp h
  refine ⟨rfl, ?_⟩
  rw [messages, hs]
  rfl

theorem messages_of_group?_none (h : s.group? key = none) : s.messages key = [] := by
  rw [messages, Option.map_eq_none_iff.mp h]

theorem messages_add (s : GroupStore) (key other : CorrelationKey) (m : EventMessage)
    (now : Stamp) : (s.add key m now).1.messages other =
      if other = key then s.messages key ++ [m] else s.messages other := by
  simp only [messages, add, Dict.find?_insert]
  by_cases ho : other = key
  · rw [if_pos ho, if_pos ho]
    cases s.groups.find? key <;> rfl
  · rw [if_neg ho, if_neg ho]

theorem messages_snd_add (s : GroupStore) (key : CorrelationKey) (m : EventMessage)
    (now : Stamp) : (s.add key m now).2.messages = s.messages key ++ [m] := by
  show (snapshot key _).messages = _
  rw [messages]
  cases s.groups.find? key <;> rfl

theorem messages_remove (s : GroupStore) (key other : CorrelationKey) (ids : List Uuid)
    (now : Stamp) : (s.remove key ids now).messages other =
      if other = key then without ids (s.messages key) else s.messages other := by
  unfold remove
  cases hg : s.groups.find? key with
  | none =>
    have hnil : s.messages key = [] := by rw [messages, hg]
    by_cases ho : other = key
    · rw [if_pos ho, ho, hnil]
      rfl
    · rw [if_neg ho]
  | some g =>
    have hms : s.messages key = g.messages := by rw [messages, hg]
    rw [hms]
    show (if (without ids g.messages).isEmpty then _
      else if (without ids g.messages).length = g.messages.length then s
      else ⟨s.groups.insert key { g with messages := without ids g.messages, modified := now }⟩ :
        GroupStore).messages other = _
    by_cases hempty : (without ids g.messages).isEmpty = true
    · rw [if_pos hempty, List.isEmpty_iff.mp hempty]
      simp only [messages, Dict.find?_erase]
      by_cases ho : other = key
      · rw [if_pos ho, if_pos ho]
      · rw [if_neg ho, if_neg ho]
    · rw [if_neg hempty]
      by_cases hlen : (without ids g.messages).length = g.messages.length
      · -- nothing was taken out, and the store stays as it is
        rw [if_pos hlen, (without_sublist ids g.messages).eq_of_length hlen]
        by_cases ho : other = key
        · rw [if_pos ho, ho, hms]
        · rw [if_neg ho]
      · rw [if_neg hlen]
        simp only [messages, Dict.find?_insert]
        by_cases ho : other = key
        · rw [if_pos ho, if_pos ho]
        · rw [if_neg ho, if_neg ho]

theorem group?_add_self (s : GroupStore) (key : CorrelationKey) (m : EventMessage) (now : Stamp) :
    (s.add key m now).1.group? key = some (s.add key m now).2 := by
  unfold group? add
  rw [Dict.find?_insert_self]
  rfl

theorem group?_add_of_ne (s : GroupStore) (h : other ≠ key) (m : EventMessage) (now : Stamp) :
    (s.add key m now).1.group? other = s.group? other := by
  unfold group? add
  rw [Dict.find?_insert, if_neg h]

theorem group?_remove_of_ne (s : GroupStore) (h : other ≠ key) (ids : List Uuid) (now : Stamp) :
    (s.remove key ids now).group? other = s.group? other := by
  unfold remove group?
  split
  · rfl
  · dsimp only
    split
    · rw [Dict.find?_erase, if_neg h]
    · split
      · rfl
      · rw [Dict.find?_insert, if_neg h]

theorem group?_remove_self (s : GroupStore) (key : CorrelationKey) (ids : List Uuid) (now : Stamp) :
    (s.remove key ids now).group? key = (s.group? key).bind fun g => g.after? ids now := by
  unfold group? remove
  cases hs : s.groups.find? key with
  | none =>
    dsimp only
    rw [hs]
    rfl
  | some g =>
    show (GroupStore.groups (if (without ids g.messages).isEmpty then _
      else if (without ids g.messages).length = g.messages.length then s
      else ⟨s.groups.insert key { g with messages := without ids g.messages, modified := now }⟩)
        |>.find? key).map (snapshot key) =
      if (without ids g.messages).isEmpty then none
      else if (without ids g.messages).length = g.messages.length then some (snapshot key g)
      else some { snapshot key g with messages := without ids g.messages, modified := now }
    split
    · rw [Dict.find?_erase, if_pos rfl]
      rfl
    · split
      · rw [hs]
        rfl
      · rw [Dict.find?_insert_self]
        rfl

end GroupStore
end Rendezvous
