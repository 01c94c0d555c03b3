/-
When two header maps are given the same correlation key.

A key is the name of the message, and behind a colon the correlation key if it is read as a text.
Nothing marks where the name ends, so a name with a colon can take in the first part of a
correlation key: `a` with `b:c` and `a:b` with `c` are given one key.  And a correlation key that is
no text is not read, so the key does not tell it from another such value or from none.  There is no
third way: every other two header maps with one key are of one conversation
(`same_key_iff`).
-/
import Rendezvous.Correlation

namespace Rendezvous

namespace Correlation

/-! ## Keys as texts -/

/-- What a key has behind the name. -/
def behindName : Option String → String
  | some key => ":" ++ key
  | none => ""

theorem keyOf_eq_append (name : String) (key? : Option String) :
    keyOf name key? = name ++ behindName key? := by
  cases key? with
  | none => exact String.append_empty.symm
  | some key => exact String.append_assoc

theorem behindName_injective {key? key?' : Option String}
    (h : behindName key? = behindName key?') : key? = key?' := by
  cases key? with
  | none =>
    cases key?' with
    | none => rfl
    | some key' => simp [behindName, ← String.toList_inj] at h
  | some key =>
    cases key?' with
    | none => simp [behindName, ← String.toList_inj] at h
    | some key' => exact congrArg some ((String.append_right_inj _).mp h)

/-- The second name goes on with a colon and a text that the first correlation key begins with, and
the rest of both is the same. -/
def TakesIn (name : String) (key? : Option String) (name' : String) (key?' : Option String) :
    Prop :=
  ∃ part, name' = name ++ ":" ++ part ∧ key? = some (keyOf part key?')

theorem TakesIn.keyOf_eq {name name' : String} {key? key?' : Option String}
    (h : TakesIn name key? name' key?') : keyOf name key? = keyOf name' key?' := by
  obtain ⟨part, rfl, rfl⟩ := h
  show name ++ ":" ++ keyOf part key?' = keyOf (name ++ ":" ++ part) key?'
  rw [keyOf_eq_append, keyOf_eq_append]
  exact String.append_assoc.symm

theorem TakesIn.name_ne {name name' : String} {key? key?' : Option String}
    (h : TakesIn name key? name' key?') : name ≠ name' := by
  obtain ⟨part, rfl, -⟩ := h
  intro he
  have hlength := congrArg String.length he
  rw [String.length_append, String.length_append] at hlength
  have hcolon : (":" : String).length = 1 := rfl
  omega

/-- A name that is longer than another one with the same key takes in a part of its correlation
key. -/
theorem takesIn_of_keyOf_eq {name name' more : String} {key? key?' : Option String}
    (hname : name' = name ++ more) (hmore : more ≠ "")
    (h : keyOf name key? = keyOf name' key?') : TakesIn name key? name' key?' := by
  subst hname
  have hbehind : behindName key? = more ++ behindName key?' := by
    rw [keyOf_eq_append, keyOf_eq_append, String.append_assoc] at h
    exact (String.append_right_inj name).mp h
  cases key? with
  | none =>
    have hempty : more = "" := by
      have := congrArg String.length hbehind
      rw [String.length_append] at this
      exact String.length_eq_zero_iff.mp (by change 0 = _ at this; omega)
    exact absurd hempty hmore
  | some key =>
    -- what the name goes on with begins with the colon
    have hlist : ':' :: key.toList = more.toList ++ (behindName key?').toList := by
      have := congrArg String.toList hbehind
      rwa [behindName, String.toList_append, String.toList_append] at this
    cases hm : more.toList with
    | nil => exact absurd (String.toList_injective (hm.trans rfl)) hmore
    | cons c cs =>
      rw [hm] at hlist
      obtain ⟨rfl, hkey⟩ := List.cons.inj hlist
      refine ⟨String.ofList cs, ?_, ?_⟩
      · have : more = ":" ++ String.ofList cs := by
          refine String.toList_injective ?_
          rw [hm, String.toList_append]
          simp
        rw [this, String.append_assoc]
      · refine congrArg some (String.toList_injective ?_)
        rw [keyOf_eq_append, String.toList_append, String.toList_ofList]
        exact hkey

theorem keyOf_eq_iff {name name' : String} {key? key?' : Option String} :
    keyOf name key? = keyOf name' key?' ↔ name = name' ∧ key? = key?' ∨
      TakesIn name key? name' key?' ∨ TakesIn name' key?' name key? := by
  constructor
  · intro h
    have hlist : name.toList ++ (behindName key?).toList =
        name'.toList ++ (behindName key?').toList := by
      rw [← String.toList_append, ← String.toList_append, ← keyOf_eq_append, ← keyOf_eq_append, h]
    by_cases hname : name = name'
    · refine Or.inl ⟨hname, ?_⟩
      rw [hname, keyOf_eq_append, keyOf_eq_append] at h
      exact behindName_injective ((String.append_right_inj _).mp h)
    · -- one of the names is longer
      have hmore {a b : String} {cs : List Char} (hb : b.toList = a.toList ++ cs) (hne : a ≠ b) :
          b = a ++ String.ofList cs ∧ String.ofList cs ≠ "" := by
        have hb' : b = a ++ String.ofList cs := by
          refine String.toList_injective ?_
          rw [hb, String.toList_append, String.toList_ofList]
        refine ⟨hb', fun hempty => hne ?_⟩
        rw [hb', hempty, String.append_empty]
      rcases List.append_eq_append_iff.mp hlist with ⟨cs, hcs, -⟩ | ⟨cs, hcs, -⟩
      · obtain ⟨hb, hne⟩ := hmore hcs hname
        exact Or.inr (Or.inl (takesIn_of_keyOf_eq hb hne h))
      · obtain ⟨hb, hne⟩ := hmore hcs (Ne.symm hname)
        exact Or.inr (Or.inr (takesIn_of_keyOf_eq hb hne h.symm))
  · rintro (⟨rfl, rfl⟩ | h | h)
    · rfl
    · exact h.keyOf_eq
    · exact h.keyOf_eq.symm

end Correlation

/-! ## Conversations -/

/-- The value of a header; one that is null counts as absent. -/
def Headers.value? (h : Headers) (name : String) : Option Json :=
  (h.find? name).filter fun v => !v.isNull

theorem Headers.text?_eq (h : Headers) (name : String) :
    h.text? name = (h.value? name).bind Json.str? := by
  unfold text? value?
  cases h.find? name with
  | none => rfl
  | some v => cases v <;> rfl

theorem Headers.value?_of_text? {h : Headers} {name s : String} (ht : h.text? name = some s) :
    h.value? name = some (.str s) := by
  rw [text?_eq] at ht
  cases hv : h.value? name with
  | none => simp [hv] at ht
  | some v =>
    rw [hv] at ht
    cases v <;> simp_all [Json.str?]

/-- Values that are told apart by nothing that is read of them are no texts. -/
theorem Headers.text?_eq_none {h h' : Headers} {name : String}
    (ht : h.text? name = h'.text? name) (hv : h.value? name ≠ h'.value? name) :
    h.text? name = .none := by
  cases hs : h.text? name with
  | none => rfl
  | some s =>
    exact absurd ((value?_of_text? hs).trans (value?_of_text? (ht.symm.trans hs)).symm) hv

variable {names : HeaderNames} {h h' : Headers} {key key' : CorrelationKey}

/-- The headers name the same message, and have the same correlation key or none. -/
structure SameConversation (names : HeaderNames) (h h' : Headers) : Prop where
  name : h.text? names.messageName = h'.text? names.messageName
  key : h.value? names.correlationKey = h'.value? names.correlationKey

/-- Headers of two conversations that nothing in their key tells apart. -/
inductive Confused (names : HeaderNames) (h h' : Headers) : Prop
  /-- a name takes in a part of the correlation key of the other -/
  | overlap {name name' : String} (name_eq : h.text? names.messageName = some name)
      (name_eq' : h'.text? names.messageName = some name')
      (takesIn :
        Correlation.TakesIn name (h.text? names.correlationKey) name'
            (h'.text? names.correlationKey) ∨
          Correlation.TakesIn name' (h'.text? names.correlationKey) name
            (h.text? names.correlationKey)) : Confused names h h'
  /-- the correlation keys differ, and neither is read -/
  | unread (name : h.text? names.messageName = h'.text? names.messageName)
      (noText : h.text? names.correlationKey = none)
      (noText' : h'.text? names.correlationKey = none)
      (differ : h.value? names.correlationKey ≠ h'.value? names.correlationKey) :
      Confused names h h'

theorem Confused.not_same (hc : Confused names h h') : ¬SameConversation names h h' := by
  intro hs
  cases hc with
  | overlap hname hname' htakes =>
    have he := Option.some.inj (hname.symm.trans (hs.name.trans hname'))
    rcases htakes with ht | ht
    · exact ht.name_ne he
    · exact ht.name_ne he.symm
  | unread hname hnone hnone' hdiffer => exact hdiffer hs.key

theorem Correlation.ofEvent_eq_ok_iff : ofEvent names h = .ok key ↔
    ∃ name, h.text? names.messageName = some name ∧
      keyOf name (h.text? names.correlationKey) = key := by
  unfold ofEvent
  cases h.text? names.messageName with
  | none => simp
  | some name => simp

/-- Two header maps are given the same key exactly if they are of one conversation or confused, and
none are both. -/
theorem same_key_iff (hkey : Correlation.ofEvent names h = .ok key)
    (hkey' : Correlation.ofEvent names h' = .ok key') :
    (key = key' ↔ SameConversation names h h' ∨ Confused names h h') ∧
      (Confused names h h' → ¬SameConversation names h h') := by
  obtain ⟨name, hname, rfl⟩ := Correlation.ofEvent_eq_ok_iff.mp hkey
  obtain ⟨name', hname', rfl⟩ := Correlation.ofEvent_eq_ok_iff.mp hkey'
  refine ⟨?_, Confused.not_same⟩
  rw [Correlation.keyOf_eq_iff]
  constructor
  · rintro (⟨rfl, htext⟩ | htakes)
    · by_cases hvalue : h.value? names.correlationKey = h'.value? names.correlationKey
      · exact Or.inl ⟨hname.trans hname'.symm, hvalue⟩
      · have hnone := Headers.text?_eq_none htext hvalue
        exact Or.inr (.unread (hname.trans hname'.symm) hnone (htext.symm.trans hnone) hvalue)
    · exact Or.inr (.overlap hname hname' htakes)
  · rintro (hs | hc)
    · refine Or.inl ⟨Option.some.inj (hname.symm.trans (hs.name.trans hname')), ?_⟩
      rw [Headers.text?_eq, Headers.text?_eq, hs.key]
    · cases hc with
      | overlap hn hn' htakes =>
        obtain rfl := Option.some.inj (hn.symm.trans hname)
        obtain rfl := Option.some.inj (hn'.symm.trans hname')
        exact Or.inr htakes
      | unread hn hnone hnone' hdiffer =>
        refine Or.inl ⟨Option.some.inj (hname.symm.trans (hn.trans hname')), ?_⟩
        rw [hnone, hnone']

/-- Headers with a name and a correlation key. -/
def eventHeaders (name : String) (key : Json) : Headers :=
  (Headers.none.putText "messageEventName" name).insert "messageEventCorrelationKey" key

/-- A name that takes in what the other correlation key begins with. -/
theorem same_key_of_colon :
    Correlation.ofEvent {} (eventHeaders "order" (.str "paid:42")) = .ok "order:paid:42" ∧
      Correlation.ofEvent {} (eventHeaders "order:paid" (.str "42")) = .ok "order:paid:42" ∧
      (SameConversation {} (eventHeaders "order" (.str "paid:42"))
          (eventHeaders "order:paid" (.str "42")) ∨
        Confused {} (eventHeaders "order" (.str "paid:42"))
          (eventHeaders "order:paid" (.str "42"))) := by
  have hkey : Correlation.ofEvent {} (eventHeaders "order" (.str "paid:42")) =
      .ok "order:paid:42" := rfl
  have hkey' : Correlation.ofEvent {} (eventHeaders "order:paid" (.str "42")) =
      .ok "order:paid:42" := rfl
  exact ⟨hkey, hkey', (same_key_iff hkey hkey').1.mp rfl⟩

/-- One key does not always mean one conversation. -/
theorem not_always_same_conversation :
    ¬∀ (names : HeaderNames) (h h' : Headers) (key : CorrelationKey),
      Correlation.ofEvent names h = .ok key → Correlation.ofEvent names h' = .ok key →
        SameConversation names h h' := by
  intro hall
  have hs := hall {} (eventHeaders "order" (.str "paid:42")) (eventHeaders "order:paid" (.str "42"))
    "order:paid:42" rfl rfl
  exact absurd hs.name (by decide +kernel)

end Rendezvous
