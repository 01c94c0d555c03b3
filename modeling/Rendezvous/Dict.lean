/-
Finite maps from names.

Headers, variables and objects are maps whose keys are texts.  `Dict` keeps its entries in
increasing order of the names, one entry a name, so two dictionaries are equal exactly when
they answer every lookup alike (`Dict.ext_find?`).  The list functions of `Entries` do the work;
objects inside a value use them without the wrapper.
-/
namespace Rendezvous

variable {α β : Type}

namespace Entries

def find? (name : String) : List (String × α) → Option α
  | [] => none
  | (k, v) :: rest => if name = k then some v else find? name rest

/-- Put a value at a name, in place of the one there. -/
def insert (name : String) (value : α) : List (String × α) → List (String × α)
  | [] => [(name, value)]
  | (k, v) :: rest =>
    if name = k then (name, value) :: rest
    else if name < k then (name, value) :: (k, v) :: rest
    else (k, v) :: insert name value rest

def erase (name : String) : List (String × α) → List (String × α)
  | [] => []
  | (k, v) :: rest => if name = k then rest else (k, v) :: erase name rest

def Ordered (es : List (String × α)) : Prop :=
  es.Pairwise fun a b => a.1 < b.1

theorem mem_insert {name : String} {value : α} {es : List (String × α)} {e : String × α}
    (h : e ∈ insert name value es) : e = (name, value) ∨ e ∈ es := by
  induction es with
  | nil => simpa [insert] using h
  | cons head rest ih =>
    obtain ⟨k, v⟩ := head
    simp only [insert] at h
    split at h
    · rcases List.mem_cons.mp h with h | h
      · exact Or.inl h
      · exact Or.inr (List.mem_cons_of_mem _ h)
    · split at h
      · rcases List.mem_cons.mp h with h | h
        · exact Or.inl h
        · exact Or.inr h
      · rcases List.mem_cons.mp h with h | h
        · exact Or.inr (h ▸ List.mem_cons_self)
        · rcases ih h with h | h
          · exact Or.inl h
          · exact Or.inr (List.mem_cons_of_mem _ h)

theorem mem_of_mem_erase {name : String} {es : List (String × α)} {e : String × α}
    (h : e ∈ erase name es) : e ∈ es := by
  induction es with
  | nil => exact h
  | cons head rest ih =>
    obtain ⟨k, v⟩ := head
    simp only [erase] at h
    split at h
    · exact List.mem_cons_of_mem _ h
    · rcases List.mem_cons.mp h with h | h
      · exact h ▸ List.mem_cons_self
      · exact List.mem_cons_of_mem _ (ih h)

theorem ordered_insert {name : String} {value : α} {es : List (String × α)}
    (h : Ordered es) : Ordered (insert name value es) := by
  induction es with
  | nil => exact List.pairwise_singleton _ _
  | cons head rest ih =>
    obtain ⟨k, v⟩ := head
    obtain ⟨hhead, hrest⟩ := List.pairwise_cons.mp h
    simp only [insert]
    split
    · next he => exact List.pairwise_cons.mpr ⟨fun e he' => he ▸ hhead e he', hrest⟩
    · next hne =>
      split
      · next hlt =>
        refine List.pairwise_cons.mpr ⟨fun e he => ?_, h⟩
        rcases List.mem_cons.mp he with he | he
        · exact he ▸ hlt
        · exact String.lt_trans hlt (hhead e he)
      · next hge =>
        refine List.pairwise_cons.mpr ⟨fun e he => ?_, ih hrest⟩
        rcases mem_insert he with he | he
        · subst he
          rcases Std.lt_trichotomy name k with hlt | heq | hgt
          · exact absurd hlt hge
          · exact absurd heq hne
          · exact hgt
        · exact hhead e he

theorem ordered_erase {name : String} {es : List (String × α)} (h : Ordered es) :
    Ordered (erase name es) := by
  induction es with
  | nil => exact h
  | cons head rest ih =>
    obtain ⟨k, v⟩ := head
    obtain ⟨hhead, hrest⟩ := List.pairwise_cons.mp h
    simp only [erase]
    split
    · exact hrest
    · exact List.pairwise_cons.mpr ⟨fun e he => hhead e (mem_of_mem_erase he), ih hrest⟩

theorem find?_eq_none_of_lt {name : String} {es : List (String × α)}
    (h : ∀ e ∈ es, name < e.1) : find? name es = none := by
  induction es with
  | nil => rfl
  | cons head rest ih =>
    obtain ⟨k, v⟩ := head
    have hk : name < k := h (k, v) List.mem_cons_self
    have hne : name ≠ k := fun e => String.lt_irrefl name (e ▸ hk)
    simp only [find?, if_neg hne]
    exact ih fun e he => h e (List.mem_cons_of_mem _ he)

theorem find?_insert (name other : String) (value : α) (es : List (String × α)) :
    find? other (insert name value es) = if other = name then some value else find? other es := by
  induction es with
  | nil => rfl
  | cons head rest ih =>
    obtain ⟨k, v⟩ := head
    simp only [insert]
    split
    · next he =>
      subst he
      simp only [find?]
      split <;> rfl
    · next hne =>
      split
      · simp only [find?]
      · simp only [find?, ih]
        by_cases hk : other = k
        · have hn : other ≠ name := fun e => hne (e ▸ hk)
          rw [if_pos hk, if_neg hn, if_pos hk]
        · simp [hk]

theorem find?_erase (name other : String) {es : List (String × α)} (h : Ordered es) :
    find? other (erase name es) = if other = name then none else find? other es := by
  induction es with
  | nil => simp [erase, find?]
  | cons head rest ih =>
    obtain ⟨k, v⟩ := head
    obtain ⟨hhead, hrest⟩ := List.pairwise_cons.mp h
    simp only [erase]
    split
    · next he =>
      subst he
      by_cases ho : other = name
      · subst ho
        simp [find?_eq_none_of_lt hhead]
      · simp [find?, ho]
    · next hne =>
      simp only [find?, ih hrest]
      by_cases hk : other = k
      · subst hk
        have hn : other ≠ name := fun e => hne (Eq.symm e)
        simp [hn]
      · simp [hk]

theorem eq_of_find?_eq {es fs : List (String × α)} (he : Ordered es) (hf : Ordered fs)
    (h : ∀ name, find? name es = find? name fs) : es = fs := by
  induction es generalizing fs with
  | nil =>
    cases fs with
    | nil => rfl
    | cons head rest => simpa [find?] using h head.1
  | cons head rest ih =>
    obtain ⟨k, v⟩ := head
    obtain ⟨hhead, hrest⟩ := List.pairwise_cons.mp he
    cases fs with
    | nil => simpa [find?] using h k
    | cons head' rest' =>
      obtain ⟨k', v'⟩ := head'
      obtain ⟨hhead', hrest'⟩ := List.pairwise_cons.mp hf
      have hkk : k = k' := by
        rcases Std.lt_trichotomy k k' with hlt | heq | hgt
        · have hnone : find? k ((k', v') :: rest') = none :=
            find?_eq_none_of_lt fun e he' => by
              rcases List.mem_cons.mp he' with he' | he'
              · exact he' ▸ hlt
              · exact String.lt_trans hlt (hhead' e he')
          have := h k
          rw [hnone] at this
          simp [find?] at this
        · exact heq
        · have hnone : find? k' ((k, v) :: rest) = none :=
            find?_eq_none_of_lt fun e he' => by
              rcases List.mem_cons.mp he' with he' | he'
              · exact he' ▸ hgt
              · exact String.lt_trans hgt (hhead e he')
          have := h k'
          rw [hnone] at this
          simp [find?] at this
      subst hkk
      have hv : v = v' := by simpa [find?] using h k
      subst hv
      have hrr : rest = rest' := by
        refine ih hrest hrest' fun name => ?_
        by_cases hn : name = k
        · subst hn
          rw [find?_eq_none_of_lt hhead, find?_eq_none_of_lt hhead']
        · simpa [find?, hn] using h name
      rw [hrr]

theorem find?_eq_some_of_mem {name : String} {value : α} {es : List (String × α)}
    (h : Ordered es) (hmem : (name, value) ∈ es) : find? name es = some value := by
  induction es with
  | nil => cases hmem
  | cons head rest ih =>
    obtain ⟨k, v⟩ := head
    obtain ⟨hhead, hrest⟩ := List.pairwise_cons.mp h
    rcases List.mem_cons.mp hmem with he | hmem
    · obtain ⟨rfl, rfl⟩ := Prod.mk.inj he
      exact if_pos rfl
    · have hne : name ≠ k := fun e => String.lt_irrefl k (e ▸ hhead _ hmem)
      rw [find?, if_neg hne, ih hrest hmem]

theorem mem_of_find?_eq_some {name : String} {value : α} {es : List (String × α)}
    (h : find? name es = some value) : (name, value) ∈ es := by
  induction es with
  | nil => cases h
  | cons head rest ih =>
    obtain ⟨k, v⟩ := head
    by_cases hk : name = k
    · rw [find?, if_pos hk] at h
      obtain rfl := Option.some.inj h
      exact hk ▸ List.mem_cons_self
    · rw [find?, if_neg hk] at h
      exact List.mem_cons_of_mem _ (ih h)

/-- A name behind all others is put at the end. -/
theorem insert_of_forall_lt {name : String} (value : α) {es : List (String × α)}
    (h : ∀ e ∈ es, e.1 < name) : insert name value es = es ++ [(name, value)] := by
  induction es with
  | nil => rfl
  | cons head rest ih =>
    obtain ⟨k, v⟩ := head
    have hk : k < name := h (k, v) List.mem_cons_self
    have hne : name ≠ k := fun e => String.lt_irrefl k (e ▸ hk)
    have hge : ¬name < k := fun hlt => String.lt_irrefl k (String.lt_trans hk hlt)
    rw [insert, if_neg hne, if_neg hge, ih fun e he => h e (List.mem_cons_of_mem _ he)]
    rfl

/-- A name in front of all others is put in front. -/
theorem insert_of_forall_gt {name : String} (value : α) {es : List (String × α)}
    (h : ∀ e ∈ es, name < e.1) : insert name value es = (name, value) :: es := by
  cases es with
  | nil => rfl
  | cons head rest =>
    obtain ⟨k, v⟩ := head
    have hk : name < k := h (k, v) List.mem_cons_self
    have hne : name ≠ k := fun e => String.lt_irrefl k (e ▸ hk)
    rw [insert, if_neg hne, if_pos hk]

end Entries

/-- A finite map from names, its entries in increasing order of the names. -/
structure Dict (α : Type) where
  entries : List (String × α)
  ordered : Entries.Ordered entries

namespace Dict

def empty : Dict α := ⟨[], List.Pairwise.nil⟩

instance : EmptyCollection (Dict α) := ⟨empty⟩
instance : Inhabited (Dict α) := ⟨empty⟩

def find? (d : Dict α) (name : String) : Option α := Entries.find? name d.entries

/-- Put a value at a name, in place of the one there. -/
def insert (d : Dict α) (name : String) (value : α) : Dict α :=
  ⟨Entries.insert name value d.entries, Entries.ordered_insert d.ordered⟩

def erase (d : Dict α) (name : String) : Dict α :=
  ⟨Entries.erase name d.entries, Entries.ordered_erase d.ordered⟩

/-- The map of a list of entries; of two entries with one name the later counts. -/
def ofList (es : List (String × α)) : Dict α :=
  es.foldl (fun d e => d.insert e.1 e.2) empty

def size (d : Dict α) : Nat := d.entries.length

def merge (d other : Dict α) : Dict α :=
  other.entries.foldl (fun acc e => acc.insert e.1 e.2) d

theorem find?_empty (name : String) : (empty : Dict α).find? name = none := rfl

theorem find?_insert (d : Dict α) (name other : String) (value : α) :
    (d.insert name value).find? other = if other = name then some value else d.find? other :=
  Entries.find?_insert name other value d.entries

theorem find?_insert_self (d : Dict α) (name : String) (value : α) :
    (d.insert name value).find? name = some value := by
  rw [find?_insert, if_pos rfl]

theorem find?_erase (d : Dict α) (name other : String) :
    (d.erase name).find? other = if other = name then none else d.find? other :=
  Entries.find?_erase name other d.ordered

theorem ext_find? {d e : Dict α} (h : ∀ name, d.find? name = e.find? name) : d = e := by
  obtain ⟨ds, hd⟩ := d
  obtain ⟨es, he⟩ := e
  have hde : ds = es := Entries.eq_of_find?_eq hd he h
  subst hde
  rfl

theorem insert_of_find? {d : Dict α} {name : String} {value : α}
    (h : d.find? name = some value) : d.insert name value = d := by
  refine ext_find? fun other => ?_
  rw [find?_insert]
  split
  · next ho => rw [ho, h]
  · rfl

theorem mem_foldl_insert {d : Dict α} {es : List (String × α)} {e : String × α}
    (h : e ∈ (es.foldl (fun d e => d.insert e.1 e.2) d).entries) : e ∈ d.entries ∨ e ∈ es := by
  induction es generalizing d with
  | nil => exact Or.inl h
  | cons head rest ih =>
    rcases ih h with h | h
    · rcases Entries.mem_insert h with h | h
      · exact Or.inr (h ▸ List.mem_cons_self)
      · exact Or.inl h
    · exact Or.inr (List.mem_cons_of_mem _ h)

theorem mem_of_mem_ofList {es : List (String × α)} {e : String × α}
    (h : e ∈ (ofList es).entries) : e ∈ es := by
  rcases mem_foldl_insert h with h | h
  · cases h
  · exact h

theorem foldl_insert_of_ordered {d : Dict α} {es : List (String × α)}
    (h : Entries.Ordered (d.entries ++ es)) :
    (es.foldl (fun d e => d.insert e.1 e.2) d).entries = d.entries ++ es := by
  induction es generalizing d with
  | nil => exact (List.append_nil _).symm
  | cons head rest ih =>
    have hlast : ∀ e ∈ d.entries, e.1 < head.1 := fun e he =>
      (List.pairwise_append.mp h).2.2 e he head List.mem_cons_self
    have hinsert : (d.insert head.1 head.2).entries = d.entries ++ [head] :=
      Entries.insert_of_forall_lt head.2 hlast
    have hsplit : d.entries ++ head :: rest = (d.insert head.1 head.2).entries ++ rest := by
      rw [hinsert, List.append_assoc, List.singleton_append]
    rw [hsplit] at h
    rw [List.foldl_cons, ih h, hsplit]

/-- Entries that are in order are kept as they are. -/
theorem entries_ofList {es : List (String × α)} (h : Entries.Ordered es) :
    (ofList es).entries = es :=
  foldl_insert_of_ordered h

end Dict
end Rendezvous
