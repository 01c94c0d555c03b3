/-
Messages under other header names.

A renaming gives every header another name and leaves the header of the identity alone.  Header
maps, messages, outputs and groups are renamed by their headers; identities, bodies, stamps and
keys stay.  Reading and writing a header agrees with renaming (`Headers.text?_rename`,
`Headers.putText_rename`), and so everything does that is made of readings and writings: keys and
types of messages, whether a group is ready, and what it releases.
-/
import Mathlib.Data.List.Nodup
import Rendezvous.Proofs.Group.Yield

namespace Rendezvous

/-- Other names for headers: no two headers get one name, and the identity stays where it is. -/
structure Renaming where
  map : String → String
  injective : Function.Injective map
  id : map Headers.idName = Headers.idName

/-! ## Dictionaries -/

namespace Dict

variable {α β : Type}

def rename (f : Renaming) (d : Dict α) : Dict α :=
  ofList (d.entries.map fun e => (f.map e.1, e.2))

def mapValues (g : α → β) (d : Dict α) : Dict β :=
  ⟨d.entries.map fun e => (e.1, g e.2), by
    rw [Entries.Ordered, List.pairwise_map]
    exact d.ordered⟩

theorem find?_foldl_insert {es : List (String × α)} {name : String} (d : Dict α)
    (h : ∀ e ∈ es, e.1 ≠ name) :
    (es.foldl (fun d e => d.insert e.1 e.2) d).find? name = d.find? name := by
  induction es generalizing d with
  | nil => rfl
  | cons e es ih =>
    obtain ⟨hne, hrest⟩ := List.forall_mem_cons.mp h
    rw [List.foldl_cons, ih _ hrest, find?_insert, if_neg (Ne.symm hne)]

theorem find?_foldl_insert_of_mem {es : List (String × α)} {name : String} {value : α}
    (d : Dict α) (hnodup : (es.map Prod.fst).Nodup) (hmem : (name, value) ∈ es) :
    (es.foldl (fun d e => d.insert e.1 e.2) d).find? name = some value := by
  induction es generalizing d with
  | nil => exact absurd hmem List.not_mem_nil
  | cons e es ih =>
    rw [List.map_cons, List.nodup_cons] at hnodup
    rcases List.mem_cons.mp hmem with rfl | hmem
    · have hfresh : ∀ e ∈ es, e.1 ≠ name := fun e he heq =>
        hnodup.1 (List.mem_map.mpr ⟨e, he, heq⟩)
      rw [List.foldl_cons, find?_foldl_insert _ hfresh, find?_insert_self]
    · exact ih _ hnodup.2 hmem

variable (f : Renaming) (d : Dict α)

theorem nodup_names_rename : ((d.entries.map fun e => (f.map e.1, e.2)).map Prod.fst).Nodup := by
  have hnames : (d.entries.map Prod.fst).Nodup := by
    refine List.Pairwise.map _ (fun a b hab heq => ?_) d.ordered
    exact String.lt_irrefl _ (heq ▸ hab)
  have hmap : (d.entries.map fun e => (f.map e.1, e.2)).map Prod.fst =
      (d.entries.map Prod.fst).map f.map := by
    rw [List.map_map, List.map_map]
    rfl
  rw [hmap]
  exact List.Nodup.map f.injective hnames

theorem find?_rename (name : String) : (d.rename f).find? (f.map name) = d.find? name := by
  cases hfind : d.find? name with
  | some value =>
    refine find?_foldl_insert_of_mem _ (d.nodup_names_rename f) ?_
    exact List.mem_map.mpr ⟨(name, value), Entries.mem_of_find?_eq_some hfind, rfl⟩
  | none =>
    refine find?_foldl_insert _ fun e he heq => ?_
    obtain ⟨⟨k, v⟩, hmem, rfl⟩ := List.mem_map.mp he
    obtain rfl := f.injective heq
    have hsome : d.find? k = some v := Entries.find?_eq_some_of_mem d.ordered hmem
    rw [hfind] at hsome
    cases hsome

theorem find?_rename_of_forall {name : String} (h : ∀ k, f.map k ≠ name) :
    (d.rename f).find? name = none := by
  refine find?_foldl_insert _ fun e he => ?_
  obtain ⟨⟨k, v⟩, -, rfl⟩ := List.mem_map.mp he
  exact h k

theorem insert_rename (name : String) (value : α) :
    (d.insert name value).rename f = (d.rename f).insert (f.map name) value := by
  refine ext_find? fun other => ?_
  by_cases hrange : ∃ k, f.map k = other
  · obtain ⟨k, rfl⟩ := hrange
    rw [find?_rename, find?_insert, find?_insert, find?_rename]
    simp only [f.injective.eq_iff]
  · have hnone : ∀ k, f.map k ≠ other := fun k hk => hrange ⟨k, hk⟩
    rw [find?_rename_of_forall _ _ hnone, find?_insert, if_neg (Ne.symm (hnone name)),
      find?_rename_of_forall _ _ hnone]

variable (g : α → β)

theorem find?_mapValues (name : String) :
    (d.mapValues g).find? name = (d.find? name).map g := by
  have hentries (es : List (String × α)) :
      Entries.find? name (es.map fun e => (e.1, g e.2)) = (Entries.find? name es).map g := by
    induction es with
    | nil => rfl
    | cons e es ih =>
      rw [List.map_cons, Entries.find?, Entries.find?]
      split
      · rfl
      · exact ih
  exact hentries d.entries

theorem insert_mapValues (name : String) (value : α) :
    (d.insert name value).mapValues g = (d.mapValues g).insert name (g value) := by
  refine ext_find? fun other => ?_
  rw [find?_mapValues, find?_insert, find?_insert, find?_mapValues]
  split <;> rfl

theorem erase_mapValues (name : String) :
    (d.erase name).mapValues g = (d.mapValues g).erase name := by
  refine ext_find? fun other => ?_
  rw [find?_mapValues, find?_erase, find?_erase, find?_mapValues]
  split <;> rfl

end Dict

/-! ## Headers and messages -/

variable (f : Renaming)

namespace Headers

variable (h : Headers) (name value : String)

theorem text?_rename : Headers.text? (h.rename f) (f.map name) = h.text? name := by
  rw [text?, text?, Dict.find?_rename]

theorem present_rename : Headers.present (h.rename f) (f.map name) = h.present name := by
  rw [present, present, Dict.find?_rename]

theorem putText_rename :
    (h.putText name value).rename f = Headers.putText (h.rename f) (f.map name) value :=
  Dict.insert_rename f h name _

theorem putText?_rename (value : Option String) :
    (h.putText? name value).rename f = Headers.putText? (h.rename f) (f.map name) value := by
  cases value with
  | none => rfl
  | some value => exact putText_rename f h name value

end Headers

namespace Message

variable {π : Type}

def rename (f : Renaming) (m : Message π) : Message π := { m with headers := m.headers.rename f }

variable (m : Message π)

theorem id_rename : (m.rename f).id = m.id := rfl

theorem text?_rename (name : String) :
    (m.rename f).headers.text? (f.map name) = m.headers.text? name :=
  Headers.text?_rename f m.headers name

theorem withText_rename (name value : String) :
    (m.withText name value).rename f = (m.rename f).withText (f.map name) value :=
  congrArg (fun h => Message.mk m.id h m.payload) (Headers.putText_rename f m.headers name value)

theorem assemble_rename (id : Uuid) (headers : Headers) (payload : π) :
    (assemble id headers payload).rename f = assemble id (headers.rename f) payload := by
  rw [assemble, assemble, rename, Headers.putText_rename, f.id]

theorem eventType?_rename (header : String) :
    (m.rename f).eventType? (f.map header) = m.eventType? header := m.text?_rename f header

end Message

/-! ## Groups and outputs -/

def Release.rename (f : Renaming) (r : Release) : Release :=
  { r with message := r.message.rename f }

namespace Group

def rename (f : Renaming) (g : Group) : Group :=
  { g with messages := g.messages.map (Message.rename f) }

variable (g : Group)

theorem contains_rename (id : Uuid) : (g.rename f).contains id = g.contains id := by
  rw [contains, contains, rename, List.any_map]
  rfl

theorem first?_rename (header : String) (type : EventType) :
    (g.rename f).first? (f.map header) type = (g.first? header type).map (Message.rename f) := by
  rw [first?, first?, rename, List.find?_map]
  refine congrArg (Option.map _) (congrArg (List.find? · g.messages) (funext fun m => ?_))
  rw [Function.comp_apply, Message.eventType?_rename]

end Group

namespace Release

variable (names : HeaderNames)

theorem output_rename (key : CorrelationKey) (kind : CommandKind) (body : Bytes)
    (subscriber : EventMessage) (consumed : List Uuid) :
    (output names key kind body subscriber consumed).rename f =
      output (names.map f.map) key kind body (subscriber.rename f) consumed := by
  unfold output rename HeaderNames.map
  dsimp only
  rw [Message.assemble_rename, Headers.putText?_rename, Headers.putText_rename,
    Headers.putText_rename, Headers.putText_rename, Message.text?_rename]
  rfl

/-- A group yields the same output under any names. -/
theorem ofGroup?_rename (g : Group) :
    ofGroup? (names.map f.map) (g.rename f) = (ofGroup? names g).map (rename f) := by
  have hfirst (header : String) (type : EventType) := Group.first?_rename f g header type
  unfold ofGroup?
  simp only [HeaderNames.map, hfirst]
  cases g.first? names.eventType .sent with
  | none => rfl
  | some sent =>
    cases g.first? names.eventType .waiting with
    | some waiting => exact congrArg some (output_rename f names _ _ _ _ _).symm
    | none =>
      cases g.first? names.eventType .startDeployed with
      | some deployed => exact congrArg some (output_rename f names _ _ _ _ _).symm
      | none => rfl

/-- A group is ready under any names. -/
theorem ready_rename (g : Group) : ready (names.map f.map) (g.rename f) = ready names g := by
  simp only [ready, HeaderNames.map, Group.first?_rename, Option.isSome_map]

end Release

/-! ## The store of groups -/

def StoredGroup.rename (f : Renaming) (g : StoredGroup) : StoredGroup :=
  { g with messages := g.messages.map (Message.rename f) }

namespace GroupStore

def rename (f : Renaming) (s : GroupStore) : GroupStore :=
  ⟨s.groups.mapValues (StoredGroup.rename f)⟩

variable (s : GroupStore) (key : CorrelationKey) (now : Stamp)

theorem group?_rename : (s.rename f).group? key = (s.group? key).map (Group.rename f) := by
  rw [group?, group?, rename, Dict.find?_mapValues, Option.map_map, Option.map_map]
  rfl

theorem add_rename (m : EventMessage) : (s.rename f).add key (m.rename f) now =
    ((s.add key m now).1.rename f, (s.add key m now).2.rename f) := by
  unfold add rename
  dsimp only
  rw [Dict.find?_mapValues]
  cases s.groups.find? key with
  | none =>
    refine Prod.ext (congrArg GroupStore.mk ?_) rfl
    exact (Dict.insert_mapValues s.groups (StoredGroup.rename f) key ⟨[m], now, now⟩).symm
  | some g =>
    have hgroup : (⟨(g.rename f).messages ++ [m.rename f], (g.rename f).created, now⟩ :
        StoredGroup) = StoredGroup.rename f ⟨g.messages ++ [m], g.created, now⟩ := by
      unfold StoredGroup.rename
      rw [List.map_append]
      rfl
    refine Prod.ext (congrArg GroupStore.mk ?_) ?_
    · exact (congrArg _ hgroup).trans
        (Dict.insert_mapValues s.groups (StoredGroup.rename f) key _).symm
    · exact congrArg (snapshot key) hgroup

theorem remove_rename (ids : List Uuid) :
    (s.rename f).remove key ids now = (s.remove key ids now).rename f := by
  unfold remove
  rw [show (s.rename f).groups.find? key = (s.groups.find? key).map (StoredGroup.rename f) from
    Dict.find?_mapValues _ _ _]
  cases s.groups.find? key with
  | none => rfl
  | some g =>
    have hkept : (g.rename f).messages.filter (fun m => !ids.contains m.id) =
        (g.messages.filter fun m => !ids.contains m.id).map (Message.rename f) := by
      rw [StoredGroup.rename, List.filter_map]
      rfl
    simp only [Option.map_some, hkept, List.isEmpty_map, List.length_map]
    have hlength : (g.rename f).messages.length = g.messages.length := List.length_map _
    rw [hlength]
    split
    · exact congrArg GroupStore.mk (Dict.erase_mapValues _ _ _).symm
    · split
      · rfl
      · exact congrArg GroupStore.mk
          (Dict.insert_mapValues s.groups (StoredGroup.rename f) key ⟨_, g.created, now⟩).symm

end GroupStore

/-! ## Failures -/

def CorrelationError.rename (f : Renaming) : CorrelationError → CorrelationError
  | .missingHeader name => .missingHeader (f.map name)

def HandlerError.rename (f : Renaming) : HandlerError → HandlerError
  | .correlation cause => .correlation (cause.rename f)
  | e => e

def FlowError.rename (f : Renaming) : FlowError → FlowError
  | .correlation cause => .correlation (cause.rename f)
  | .handler cause => .handler (cause.rename f)
  | e => e

theorem Correlation.ofEvent_rename (names : HeaderNames) (h : Headers) :
    ofEvent (names.map f.map) (h.rename f) =
      (ofEvent names h).mapError (CorrelationError.rename f) := by
  simp only [ofEvent, HeaderNames.map, Headers.text?_rename]
  cases h.text? names.messageName <;> rfl

theorem Correlation.ofHeader_rename (names : HeaderNames) (h : Headers) :
    ofHeader (names.map f.map) (h.rename f) =
      (ofHeader names h).mapError (CorrelationError.rename f) := by
  simp only [ofHeader, HeaderNames.map, Headers.text?_rename]
  cases h.text? names.correlationId <;> rfl

end Rendezvous
