/-
Records that were written are read back.

A field reads its value back as a change of the record (`Field.Writes`).  An object whose members
are the values of all fields in their order (`Written`) is read as the record that these changes
make of the defaults, unless it is nested deeper than the allowance (`Written.readRecord`).
-/
import Rendezvous.Message.Payload
import Rendezvous.Proofs.Json.Value

namespace Rendezvous
namespace Json

variable {ρ : Type}

theorem length_le_length_octets (cs : List Char) : cs.length ≤ (Text.octets cs).length := by
  induction cs with
  | nil => exact Nat.le_refl 0
  | cons c cs ih =>
    have hpos : 0 < (String.utf8EncodeChar c).length :=
      List.length_pos_iff.mpr (Text.utf8EncodeChar_ne_nil c)
    rw [Text.octets_cons, List.length_append, List.length_cons]
    omega

theorem le_stepsFor (cs : List Char) (rest : Bytes) :
    cs.length ≤ stepsFor (Text.octets cs ++ rest) := by
  have := length_le_length_octets cs
  rw [stepsFor, List.length_append]
  omega

/-! ## Fields -/

/-- The field reads the written value as this change of the record. -/
def Field.Writes (field : Field ρ) (v : Json) (put : ρ → ρ) : Prop :=
  ∀ {allowed : Nat} {rest : Bytes}, 1 ≤ allowed → Closed rest →
    field.read allowed (Text.octets (chars v) ++ rest) = within v.depth allowed (put, rest)

theorem readTextAs_quote (wanted s : String) (rest : Bytes) :
    readTextAs wanted (Text.octets (quote s) ++ rest) = .ok (s, rest) := by
  rw [octets_quote]
  exact readText_escape s rest

theorem Field.text_writes (name : String) (required : Bool) (put : String → ρ → ρ) (s : String) :
    (Field.text name required put).Writes (.str s) (put s) := by
  intro allowed rest hallowed hrest
  show (readTextAs "a string" (Text.octets (quote s) ++ rest)).map _ = _
  rw [readTextAs_quote]
  exact ok_eq_within hallowed _

theorem readOptionalText_quote (s : String) (rest : Bytes) :
    readOptionalText (Text.octets (quote s) ++ rest) = .ok (some s, rest) := by
  have hread := readTextAs_quote "a string" s rest
  rw [octets_quote] at hread ⊢
  show Except.bind (readTextAs "a string" _) _ = _
  rw [hread]
  rfl

theorem Field.optionalText_writes (name : String) (put : Option String → ρ → ρ)
    (s : Option String) : (Field.optionalText name put).Writes (.ofText? s) (put s) := by
  intro allowed rest hallowed hrest
  cases s with
  | none => exact ok_eq_within hallowed _
  | some s =>
    show (readOptionalText (Text.octets (quote s) ++ rest)).map _ = _
    rw [readOptionalText_quote]
    exact ok_eq_within hallowed _

theorem readDict_ofDict {d : Dict Json} (hd : (ofDict d).Tidy) (allowed : Nat) (rest : Bytes) :
    readDict allowed (Text.octets (chars (ofDict d)) ++ rest) =
      within (ofDict d).depth allowed (d, rest) := by
  obtain ⟨ordered, all⟩ : Entries.Ordered d.entries ∧ TidyMembers d.entries := by
    cases hd with
    | obj ordered all => exact ⟨ordered, all⟩
  have hlist : Dict.ofList d.entries = d :=
    Dict.ext_find? fun name => congrArg (Entries.find? name) (Dict.entries_ofList ordered)
  rw [ofDict, chars_obj, octets_ascii (by decide)]
  refine nested_within fun hin => bind_within_ok
    (readMembers_bodyChars all ordered (le_stepsFor _ rest) hin) ?_
  show Except.ok (Dict.ofList d.entries, rest) = _
  rw [hlist]

theorem Field.dict_writes (name : String) (put : Dict Json → ρ → ρ) {d : Dict Json}
    (hd : (ofDict d).Tidy) : (Field.dict name put).Writes (.ofDict d) (put d) := by
  intro allowed rest hallowed hrest
  show (readDict allowed _).map _ = _
  rw [readDict_ofDict hd, within, within]
  split <;> rfl

/-! ## Objects -/

/-- The members hold values of the fields in their order, which make this change together. -/
inductive Written : List (Field ρ) → List (String × Json) → (ρ → ρ) → Prop where
  | nil : Written [] [] id
  | cons {field : Field ρ} {fields : List (Field ρ)} {v : Json} {ms : List (String × Json)}
      {put puts : ρ → ρ} (head : field.Writes v put) (tail : Written fields ms puts) :
      Written (field :: fields) ((field.name, v) :: ms) (puts ∘ put)

theorem find?_name {all : List (Field ρ)} (hnames : (all.map Field.name).Nodup) {field : Field ρ}
    (hmem : field ∈ all) : (all.find? fun f => f.name == field.name) = some field := by
  induction all with
  | nil => cases hmem
  | cons f fs ih =>
    rw [List.map_cons, List.nodup_cons] at hnames
    rcases List.mem_cons.mp hmem with rfl | hmem
    · exact List.find?_cons_of_pos (beq_self_eq_true _)
    · have hne : (f.name == field.name) = false :=
        beq_eq_false_iff_ne.mpr fun h => hnames.1 (h ▸ List.mem_map_of_mem hmem)
      rw [List.find?_cons_of_neg (by rw [hne]; exact Bool.false_ne_true), ih hnames.2 hmem]

variable {all fields : List (Field ρ)} {ms : List (String × Json)} {put puts : ρ → ρ}
variable {allowed steps : Nat} {first : Bool} {seen : List String} {acc : ρ} {b rest : Bytes}

/-- One member of a record is read, and its field is seen. -/
theorem readNamed_cons {field : Field ρ} {v : Json} (hnames : (all.map Field.name).Nodup)
    (hmem : field ∈ all) (hfresh : field.name ∉ seen) (hallowed : 1 ≤ allowed)
    (hwrites : field.Writes v put)
    (htail : readNamed all allowed steps false (field.name :: seen) (put acc)
        (Text.octets (bodyChars false ms) ++ rest) =
      within (depthMembers ms) allowed (puts (put acc), rest)) :
    readNamed all allowed (steps + 1) first seen acc
        (Text.octets (bodyChars first ((field.name, v) :: ms)) ++ rest) =
      within (depthMembers ((field.name, v) :: ms)) allowed ((puts ∘ put) acc, rest) := by
  have hseen : seen.contains field.name = false := by
    rw [List.contains_eq_mem, decide_eq_false hfresh]
  rw [readNamed, nextKey_bodyChars]
  show Except.bind (readText _) _ = _
  rw [readText_escape]
  dsimp only [Except.bind]
  rw [find?_name hnames hmem]
  show (if seen.contains field.name = true then _ else Except.bind (field.read allowed _) _) = _
  rw [hseen, if_neg Bool.false_ne_true]
  exact bind_within (hwrites hallowed (closed_bodyChars ms rest)) htail

/-- The object ends where all fields were seen. -/
theorem readNamed_nil (hseen : ∀ field ∈ all, field.name ∈ seen) (hallowed : 1 ≤ allowed) :
    readNamed all allowed (steps + 1) first seen acc (0x7d :: rest) =
      within 0 allowed (acc, rest) := by
  have hnone : (all.find? fun f => f.required && !seen.contains f.name) = none := by
    refine List.find?_eq_none.mpr fun f hf => ?_
    rw [List.contains_eq_mem, decide_eq_true (hseen f hf), Bool.not_true, Bool.and_false]
    exact Bool.false_ne_true
  have hnext : nextKey first (0x7d :: rest) = .ok none := rfl
  rw [readNamed, hnext]
  dsimp only [bind, Except.bind]
  rw [hnone]
  exact ok_eq_within hallowed _

/-- Of the fields of a record these are left: no member was read for them, and one was for all
others. -/
structure Left (all fields : List (Field ρ)) (seen : List String) : Prop where
  sub : ∀ field ∈ fields, field ∈ all
  fresh : ∀ field ∈ fields, field.name ∉ seen
  nodup : (fields.map Field.name).Nodup
  others : ∀ field ∈ all, field ∈ fields ∨ field.name ∈ seen

theorem Left.start (hnames : (all.map Field.name).Nodup) : Left all all [] :=
  ⟨fun _ hf => hf, fun _ _ => List.not_mem_nil, hnames, fun _ hf => Or.inl hf⟩

theorem Left.next {field : Field ρ} (h : Left all (field :: fields) seen) :
    Left all fields (field.name :: seen) := by
  have hnodup := List.nodup_cons.mp (List.map_cons ▸ h.nodup)
  refine ⟨fun f hf => h.sub f (List.mem_cons_of_mem _ hf), fun f hf hmem => ?_, hnodup.2,
    fun f hf => ?_⟩
  · rcases List.mem_cons.mp hmem with hname | hmem
    · exact hnodup.1 (hname ▸ List.mem_map_of_mem hf)
    · exact h.fresh f (List.mem_cons_of_mem _ hf) hmem
  · rcases h.others f hf with hmem | hmem
    · rcases List.mem_cons.mp hmem with rfl | hmem
      · exact Or.inr List.mem_cons_self
      · exact Or.inl hmem
    · exact Or.inr (List.mem_cons_of_mem _ hmem)

/-- The members of the fields that are left change the record in their order. -/
theorem Written.readNamed (h : Written fields ms puts) (hnames : (all.map Field.name).Nodup)
    (hleft : Left all fields seen) (hsteps : (bodyChars first ms).length ≤ steps)
    (hallowed : 1 ≤ allowed) :
    readNamed all allowed steps first seen acc (Text.octets (bodyChars first ms) ++ rest) =
      within (depthMembers ms) allowed (puts acc, rest) := by
  induction h generalizing first seen acc steps with
  | nil =>
    obtain ⟨steps, rfl⟩ := exists_succ Nat.zero_lt_one hsteps
    have hseen : ∀ field ∈ all, field.name ∈ seen := fun f hf =>
      (hleft.others f hf).resolve_left List.not_mem_nil
    exact readNamed_nil hseen hallowed
  | @cons field fields v ms put puts head tail ih =>
    obtain ⟨steps, rfl⟩ := exists_succ (length_bodyChars_pos first _) hsteps
    have hlen := length_bodyChars_cons first field.name v ms
    exact readNamed_cons hnames (hleft.sub _ List.mem_cons_self)
      (hleft.fresh _ List.mem_cons_self) hallowed head (ih hleft.next (by omega))

/-- A written record is read back if it is not nested deeper than allowed. -/
theorem Written.readRecord (h : Written fields ms puts) (hnames : (fields.map Field.name).Nodup)
    (record : String) (start : ρ) :
    readRecord record fields start allowed (Text.octets (chars (.obj ms)) ++ rest) =
      within (Json.obj ms).depth allowed (puts start, rest) := by
  rw [chars_obj, octets_ascii (by decide)]
  exact nested_within fun hin => h.readNamed hnames (Left.start hnames) (le_stepsFor _ rest) hin

/-- A record is decoded from its text unless it is nested too deep. -/
theorem Written.readWhole (h : Written fields ms puts) (hnames : (fields.map Field.name).Nodup)
    (record : String) (start : ρ) :
    readWhole (Json.readRecord record fields start) (Json.obj ms).bytes =
      if (Json.obj ms).depth < allowance then .ok (puts start) else .error .tooDeep := by
  have hread : Json.readRecord record fields start allowance (Text.octets (chars (.obj ms)) ++ []) =
      within (Json.obj ms).depth allowance (puts start, []) := h.readRecord hnames record start
  rw [List.append_nil] at hread
  rw [Json.readWhole, Json.bytes, hread, within]
  split <;> rfl

end Json
end Rendezvous
