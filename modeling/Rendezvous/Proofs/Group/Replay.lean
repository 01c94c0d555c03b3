/-
The store of groups holds what a replay of its calls computes.

A call turns the pending messages of its own key into others (`Call.effect`), and those of a key
after some calls are a fold over them (`contents`).  The store is that finite map: there is a group
exactly for the keys that have messages, and it shows them.  Its stamps are read off the calls too.
The one is the reading of the call that opened the group, since when it never was empty, and the
other that of the last call that changed it (`Chronicled`).

The proof is an induction over the calls.  A call lets a group rest, opens it, changes it or closes
it (`Shift`), and each of these carries the chronicle on.
-/
import Mathlib.Data.Finset.Card
import Rendezvous.Proofs.Group.Store

namespace Rendezvous

/-- The names that have a value. -/
def Dict.names {α : Type} (d : Dict α) : Finset String := (d.entries.map Prod.fst).toFinset

theorem Dict.mem_names {α : Type} {d : Dict α} {name : String} :
    name ∈ d.names ↔ d.find? name ≠ none := by
  rw [names, List.mem_toFinset, List.mem_map]
  constructor
  · rintro ⟨⟨_, value⟩, hmem, rfl⟩
    have hfound : d.find? _ = some value := Entries.find?_eq_some_of_mem d.ordered hmem
    rw [hfound]
    exact Option.some_ne_none value
  · intro hfound
    obtain ⟨value, hvalue⟩ := Option.ne_none_iff_exists'.mp hfound
    exact ⟨(name, value), Entries.mem_of_find?_eq_some hvalue, rfl⟩

theorem Dict.card_names {α : Type} (d : Dict α) : d.names.card = d.size := by
  have hnodup : (d.entries.map Prod.fst).Nodup := by
    refine List.pairwise_map.mpr (List.Pairwise.imp ?_ d.ordered)
    intro e e' hlt heq
    exact String.lt_irrefl e'.1 (heq ▸ hlt)
  rw [names, List.toFinset_card_of_nodup hnodup, List.length_map, size]

namespace GroupStore

/-! ## Calls -/

/-- A call on the store.  Those that may change a group carry the reading of the clock. -/
inductive Call where
  | add (key : CorrelationKey) (message : EventMessage) (now : Stamp)
  | remove (key : CorrelationKey) (ids : List Uuid) (now : Stamp)
  | drop (key : CorrelationKey)
  | read (key : CorrelationKey)
  | count

inductive Answer where
  | done
  | group (found : Option Group)
  | number (n : Nat)

/-- What a call makes of the store, and its answer. -/
def perform (s : GroupStore) : Call → GroupStore × Answer
  | .add key m now => ((s.add key m now).1, .group (some (s.add key m now).2))
  | .remove key ids now => (s.remove key ids now, .done)
  | .drop key => (s.drop key, .done)
  | .read key => (s, .group (s.group? key))
  | .count => (s, .number s.count)

/-- The store after some calls, from the empty one on. -/
def after (calls : List Call) : GroupStore := calls.foldl (fun s c => (s.perform c).1) empty

namespace Call

def reading? : Call → Option Stamp
  | add _ _ now | remove _ _ now => some now
  | drop _ | read _ | count => none

/-- The key whose group a call is about. -/
def key? : Call → Option CorrelationKey
  | add key _ _ | remove key _ _ | drop key | read key => some key
  | count => none

/-- What a call makes of the pending messages of a key. -/
def effect (key : CorrelationKey) (ms : List EventMessage) : Call → List EventMessage
  | add k m _ => if k = key then ms ++ [m] else ms
  | remove k ids _ => if k = key then without ids ms else ms
  | drop k => if k = key then [] else ms
  | read _ | count => ms

end Call

/-- The pending messages of a key after some calls. -/
def contents (key : CorrelationKey) (calls : List Call) : List EventMessage :=
  calls.foldl (Call.effect key) []

/-- The call was made after earlier ones, and what was the case then has been since. -/
def Since (calls earlier : List Call) (c : Call) (P : List Call → Prop) : Prop :=
  ∃ later, calls = earlier ++ c :: later ∧ ∀ l, l <+: later → P (earlier ++ c :: l)

/-- A group is what the calls made of it: it has their messages, it is as old as the call that
opened it, and its last change is that of the last call that changed it. -/
structure Chronicled (calls : List Call) (key : CorrelationKey) (g : Group) : Prop where
  named : g.key = key
  messages : g.messages = contents key calls
  pending : contents key calls ≠ []
  created : ∃ earlier m, contents key earlier = [] ∧
    Since calls earlier (.add key m g.created) fun past => contents key past ≠ []
  modified : ∃ earlier c, c.reading? = some g.modified ∧
    contents key earlier ≠ contents key calls ∧
    Since calls earlier c fun past => contents key past = contents key calls
  ordered : g.created.le g.modified = true

/-- The store is the finite map of the contents, and so it stays with each further call: an append
answers with the whole group, a call touches no key but its own, and what changes no contents
changes nothing. -/
structure Refines (calls : List Call) (s : GroupStore) : Prop where
  absent : ∀ key, s.group? key = none ↔ contents key calls = []
  present : ∀ key g, s.group? key = some g → Chronicled calls key g
  counted : ∃ keys : Finset CorrelationKey, (∀ key, key ∈ keys ↔ contents key calls ≠ []) ∧
    s.count = keys.card
  appended : ∀ key m now, ∃ g, (s.perform (.add key m now)).2 = .group (some g) ∧
    (s.perform (.add key m now)).1.group? key = some g ∧ g.messages = contents key calls ++ [m]
  apart : ∀ c key, c.key? ≠ some key → (s.perform c).1.group? key = s.group? key
  idle : ∀ c, (∀ key, c.effect key (contents key calls) = contents key calls) →
    (s.perform c).1 = s

variable {calls earlier : List Call} {c d : Call} {key : CorrelationKey} {g : Group}
  {s : GroupStore} {P : List Call → Prop}

theorem contents_concat (key : CorrelationKey) (calls : List Call) (c : Call) :
    contents key (calls ++ [c]) = c.effect key (contents key calls) :=
  List.foldl_concat ..

theorem after_concat (calls : List Call) (c : Call) :
    after (calls ++ [c]) = ((after calls).perform c).1 :=
  List.foldl_concat ..

/-! ## What a call does to a group -/

/-- The pending messages of a group, none if there is no group. -/
def pending : Option Group → List EventMessage
  | some g => g.messages
  | none => []

theorem messages_eq_pending (s : GroupStore) (key : CorrelationKey) :
    s.messages key = pending (s.group? key) := by
  unfold messages group?
  cases s.groups.find? key <;> rfl

/-- A call lets the group of a key rest, opens it, changes it or closes it. -/
inductive Shift (key : CorrelationKey) (c : Call) : Option Group → Option Group → Prop
  | rests {found : Option Group} (same : c.effect key (pending found) = pending found) :
      Shift key c found found
  | opens {m : EventMessage} {now : Stamp} (call : c = .add key m now) :
      Shift key c none (some ⟨key, [m], now, now⟩)
  | changes {g : Group} {ms : List EventMessage} {now : Stamp} (reading : c.reading? = some now)
      (effect : c.effect key g.messages = ms) (other : ms ≠ g.messages) (left : ms ≠ []) :
      Shift key c (some g) (some { g with messages := ms, modified := now })
  | closes {g : Group} (nothing : c.effect key g.messages = []) : Shift key c (some g) none

theorem shift_add (s : GroupStore) (key k : CorrelationKey) (m : EventMessage) (now : Stamp) :
    Shift key (.add k m now) (s.group? key) ((s.add k m now).1.group? key) := by
  by_cases hk : k = key
  · subst hk
    unfold group? add
    rw [Dict.find?_insert_self]
    cases s.groups.find? k with
    | none => exact .opens rfl
    | some g =>
      have hne : g.messages ++ [m] ≠ g.messages := by simp
      have hleft : g.messages ++ [m] ≠ [] := by simp
      exact .changes (g := snapshot k g) rfl (if_pos rfl) hne hleft
  · rw [group?_add_of_ne s (Ne.symm hk)]
    exact .rests (if_neg hk)

theorem shift_remove (s : GroupStore) (key k : CorrelationKey) (ids : List Uuid) (now : Stamp) :
    Shift key (.remove k ids now) (s.group? key) ((s.remove k ids now).group? key) := by
  by_cases hk : k = key
  · subst hk
    rw [group?_remove_self]
    cases s.group? k with
    | none => exact .rests (if_pos rfl)
    | some g =>
      have heffect : (Call.remove k ids now).effect k g.messages = without ids g.messages :=
        if_pos rfl
      rw [Option.bind_some, Group.after?]
      split
      · next hempty => exact .closes (heffect.trans (List.isEmpty_iff.mp hempty))
      · next hleft =>
        split
        · next hlength =>
          exact .rests (heffect.trans ((without_sublist ids g.messages).eq_of_length hlength))
        · next hlength =>
          exact .changes rfl heffect (fun hsame => hlength (congrArg List.length hsame))
            (fun hnil => hleft (List.isEmpty_iff.mpr hnil))
  · rw [group?_remove_of_ne s (Ne.symm hk)]
    exact .rests (if_neg hk)

theorem shift_drop (s : GroupStore) (key k : CorrelationKey) :
    Shift key (.drop k) (s.group? key) ((s.drop k).group? key) := by
  unfold drop group?
  rw [Dict.find?_erase]
  by_cases hk : k = key
  · subst hk
    rw [if_pos rfl]
    cases s.groups.find? k with
    | none => exact .rests (if_pos rfl)
    | some g => exact .closes (if_pos rfl)
  · rw [if_neg (Ne.symm hk)]
    exact .rests (if_neg hk)

theorem shift_perform (s : GroupStore) (key : CorrelationKey) (c : Call) :
    Shift key c (s.group? key) ((s.perform c).1.group? key) := by
  cases c with
  | add k m now => exact shift_add s key k m now
  | remove k ids now => exact shift_remove s key k ids now
  | drop k => exact shift_drop s key k
  | read k => exact .rests rfl
  | count => exact .rests rfl

/-! ## The chronicle of a group -/

theorem Since.start (h : P (earlier ++ [c])) : Since (earlier ++ [c]) earlier c P := by
  refine ⟨[], rfl, fun l hl => ?_⟩
  rw [List.prefix_nil.mp hl]
  exact h

theorem Since.concat (h : Since calls earlier c P) (hd : P (calls ++ [d])) :
    Since (calls ++ [d]) earlier c P := by
  obtain ⟨later, rfl, hsince⟩ := h
  refine ⟨later ++ [d], List.append_assoc .., fun l hl => ?_⟩
  rcases List.prefix_concat_iff.mp hl with rfl | hl
  · rw [List.append_assoc, List.cons_append] at hd
    exact hd
  · exact hsince l hl

/-- The readings of the clock that some calls carry. -/
def readings (calls : List Call) : List Stamp := calls.filterMap Call.reading?

theorem Since.mem_readings (h : Since calls earlier c P) {now : Stamp}
    (hc : c.reading? = some now) : now ∈ readings calls := by
  obtain ⟨later, rfl, -⟩ := h
  exact List.mem_filterMap.mpr ⟨c, List.mem_append_right _ List.mem_cons_self, hc⟩

theorem Chronicled.rests (h : Chronicled calls key g)
    (hsame : contents key (calls ++ [c]) = contents key calls) :
    Chronicled (calls ++ [c]) key g := by
  obtain ⟨earlier, m, hnil, hopened⟩ := h.created
  obtain ⟨earlier', d, hreading, hother, hchanged⟩ := h.modified
  refine ⟨h.named, hsame ▸ h.messages, hsame ▸ h.pending, ⟨earlier, m, hnil, ?_⟩,
    ⟨earlier', d, hreading, hsame ▸ hother, ?_⟩, h.ordered⟩
  · exact hopened.concat (hsame ▸ h.pending)
  · rw [hsame]
    exact hchanged.concat hsame

theorem Chronicled.opens {m : EventMessage} {now : Stamp} (hnil : contents key calls = []) :
    Chronicled (calls ++ [.add key m now]) key ⟨key, [m], now, now⟩ := by
  have hcontents : contents key (calls ++ [.add key m now]) = [m] := by
    rw [contents_concat, hnil]
    exact if_pos rfl
  have hne : contents key (calls ++ [.add key m now]) ≠ [] := hcontents ▸ List.cons_ne_nil m []
  exact ⟨rfl, hcontents.symm, hne, ⟨calls, m, hnil, .start hne⟩,
    ⟨calls, .add key m now, rfl, hnil ▸ hne.symm, .start rfl⟩, now.le_refl⟩

theorem Chronicled.changes (h : Chronicled calls key g) {now : Stamp} {ms : List EventMessage}
    (hclock : ∀ s ∈ readings calls, s.le now = true) (hreading : c.reading? = some now)
    (heffect : contents key (calls ++ [c]) = ms) (hother : ms ≠ g.messages) (hleft : ms ≠ []) :
    Chronicled (calls ++ [c]) key { g with messages := ms, modified := now } := by
  obtain ⟨earlier, m, hnil, hopened⟩ := h.created
  exact ⟨h.named, heffect.symm, heffect ▸ hleft,
    ⟨earlier, m, hnil, hopened.concat (heffect ▸ hleft)⟩,
    ⟨calls, c, hreading, heffect ▸ h.messages ▸ hother.symm, .start rfl⟩,
    hclock _ (hopened.mem_readings rfl)⟩

/-- A group is there if it has messages, and then it is what the calls made of it. -/
def Accounts (calls : List Call) (key : CorrelationKey) : Option Group → Prop
  | none => contents key calls = []
  | some g => Chronicled calls key g

theorem Accounts.pending_eq {found : Option Group} (h : Accounts calls key found) :
    pending found = contents key calls := by
  cases found with
  | none => exact Eq.symm h
  | some g => exact h.messages

theorem Accounts.concat {found found' : Option Group}
    (hclock : ∀ now, c.reading? = some now → ∀ s ∈ readings calls, s.le now = true)
    (h : Accounts calls key found) (hshift : Shift key c found found') :
    Accounts (calls ++ [c]) key found' := by
  have hcontents := contents_concat key calls c
  rw [← h.pending_eq] at hcontents
  cases hshift with
  | rests hsame =>
    have hsame' := (hcontents.trans hsame).trans h.pending_eq
    cases found with
    | none => exact hsame'.trans h
    | some g => exact Chronicled.rests h hsame'
  | opens hcall =>
    subst hcall
    exact Chronicled.opens h
  | changes hreading heffect hother hleft =>
    exact Chronicled.changes h (hclock _ hreading) hreading (hcontents.trans heffect) hother hleft
  | closes hnothing => exact hcontents.trans hnothing

/-- The induction is on the calls, from the last one on. -/
theorem accounts_after (hclock : (readings calls).Pairwise fun s t => s.le t = true)
    (key : CorrelationKey) : Accounts calls key ((after calls).group? key) := by
  induction calls using List.reverseRecOn with
  | nil => rfl
  | append_singleton calls c ih =>
    rw [readings, List.filterMap_append] at hclock
    obtain ⟨hbefore, -, hlast⟩ := List.pairwise_append.mp hclock
    rw [after_concat]
    refine (ih hbefore).concat (fun now hnow s hs => ?_) (shift_perform _ key c)
    exact hlast s hs now (List.mem_filterMap.mpr ⟨c, List.mem_singleton_self c, hnow⟩)

/-! ## The store as a finite map -/

theorem ext_group? {s' : GroupStore} (h : ∀ key, s'.group? key = s.group? key) : s' = s := by
  obtain ⟨groups⟩ := s
  obtain ⟨groups'⟩ := s'
  refine congrArg GroupStore.mk (Dict.ext_find? fun key => ?_)
  have hinjective : Function.Injective (snapshot key) := by
    rintro ⟨messages, created, modified⟩ ⟨messages', created', modified'⟩ hsnapshot
    obtain ⟨-, rfl, rfl, rfl⟩ := Group.mk.inj hsnapshot
    rfl
  exact Option.map_injective hinjective (h key)

theorem effect_of_ne (h : c.key? ≠ some key) (ms : List EventMessage) : c.effect key ms = ms := by
  cases c with
  | add k m now => exact if_neg fun hk => h (congrArg some hk)
  | remove k ids now => exact if_neg fun hk => h (congrArg some hk)
  | drop k => exact if_neg fun hk => h (congrArg some hk)
  | read k => rfl
  | count => rfl

/-- A call that changes no contents lets the group rest. -/
theorem Accounts.idle {found found' : Option Group} (h : Accounts calls key found)
    (hshift : Shift key c found found')
    (hsame : c.effect key (contents key calls) = contents key calls) : found' = found := by
  rw [← h.pending_eq] at hsame
  cases hshift with
  | rests => rfl
  | opens hcall =>
    subst hcall
    have hadded : [] ++ [_] = [] := (if_pos rfl).symm.trans hsame
    cases hadded
  | changes _ heffect hother _ => exact absurd (heffect.symm.trans hsame) hother
  | closes hnothing => exact absurd (h.messages.symm.trans (hsame.symm.trans hnothing)) h.pending

theorem Accounts.eq_none_iff {found : Option Group} (h : Accounts calls key found) :
    found = none ↔ contents key calls = [] := by
  cases found with
  | none => exact iff_of_true rfl h
  | some g => exact iff_of_false (Option.some_ne_none g) h.pending

/-- Whatever calls are made of the store, with a clock that never goes back, it is the finite map of
the messages that are pending after them. -/
theorem refines_after (hclock : (readings calls).Pairwise fun s t => s.le t = true) :
    Refines calls (after calls) := by
  have haccounts := accounts_after hclock
  have hmessages (key : CorrelationKey) : (after calls).messages key = contents key calls :=
    (messages_eq_pending _ key).trans (haccounts key).pending_eq
  refine ⟨fun key => (haccounts key).eq_none_iff, fun key g hg => ?_,
    ⟨(after calls).groups.names, fun key => ?_, (Dict.card_names _).symm⟩, fun key m now => ?_,
    fun c key hc => ?_, fun c hidle => ?_⟩
  · have hchronicled : Accounts calls key (some g) := hg ▸ haccounts key
    exact hchronicled
  · rw [Dict.mem_names, ne_eq, ne_eq, ← (haccounts key).eq_none_iff, group?,
      Option.map_eq_none_iff]
  · exact ⟨_, rfl, group?_add_self _ key m now, hmessages key ▸ messages_snd_add _ key m now⟩
  · exact (haccounts key).idle (shift_perform _ key c) (effect_of_ne hc _)
  · exact ext_group? fun key => (haccounts key).idle (shift_perform _ key c) (hidle key)

/-- A group is emptied and opened again, then a removal finds nothing, and a message is added. -/
def reopening : List Call :=
  let message (id : Nat) : EventMessage := ⟨Uuid.ofNat id, Headers.none, { name := "order-paid" }⟩
  [.add "order-paid:42" (message 1) ⟨1, 0⟩, .remove "order-paid:42" [Uuid.ofNat 1] ⟨2, 0⟩,
    .add "order-paid:42" (message 2) ⟨3, 0⟩, .add "order-paid:43" (message 3) ⟨4, 0⟩,
    .add "order-paid:42" (message 4) ⟨4, 5⟩, .remove "order-paid:42" [Uuid.ofNat 1] ⟨6, 0⟩,
    .drop "order-paid:43", .read "order-paid:42"]

theorem refines_after_of_reopening :
    Refines reopening (after reopening) ∧
      ((after reopening).group? "order-paid:42").map (fun g => (g.size, g.created, g.modified)) =
        some (2, ⟨3, 0⟩, ⟨4, 5⟩) ∧ (after reopening).count = 1 :=
  ⟨refines_after (by decide), by decide +kernel, by decide +kernel⟩

end GroupStore
end Rendezvous
