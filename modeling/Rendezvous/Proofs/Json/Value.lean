/-
Values that were written are read back.

A tidy value is read from its compact text as the value it was, unless it is nested deeper than the
allowance, which is a problem of its own (`readValue_chars`).  What a reader makes of a value thus
depends on its depth alone (`within`).
-/
import Rendezvous.Proofs.Json.Lexeme

namespace Rendezvous
namespace Json

variable {α : Type}

/-- What is read of something written, by how deep it is nested and the allowance. -/
def within (deep allowed : Nat) (r : α × Bytes) : Except Problem (α × Bytes) :=
  if deep < allowed then .ok r else .error .tooDeep

theorem within_of_lt {deep allowed : Nat} (h : deep < allowed) (r : α × Bytes) :
    within deep allowed r = .ok r := if_pos h

/-! ## What a written value begins with -/

/-- An octet that a value may begin with. -/
def Opens (o : UInt8) : Prop := isSpace o = false ∧ o ≠ 0x5d ∧ o ≠ 0x2c

theorem opens_of_isDigit {o : UInt8} (h : isDigit o = true) : Opens o := by
  refine ⟨?_, ?_, ?_⟩
  · cases hspace : isSpace o with
    | false => rfl
    | true =>
      simp only [isSpace, Bool.or_eq_true, beq_iff_eq] at hspace
      rcases hspace with ((rfl | rfl) | rfl) | rfl <;> revert h <;> decide
  · rintro rfl
    revert h
    decide
  · rintro rfl
    revert h
    decide

theorem skipSpace_cons {o : UInt8} (h : isSpace o = false) (b : Bytes) :
    skipSpace (o :: b) = o :: b := by
  rw [skipSpace, List.dropWhile_cons, h]
  rfl

theorem octets_digits (n : Nat) : ∃ o os,
    Text.octets (Nat.toDigits 10 n) = o :: os ∧ isDigit o = true := by
  obtain ⟨c, cs, hcs, -⟩ := toDigits_head n
  have hc : c ∈ Nat.toDigits 10 n := hcs ▸ List.mem_cons_self
  obtain ⟨hascii, hdigit, -⟩ :=
    octet_of_isDigit (Text.isDigit_of_mem_toDigits hc)
  exact ⟨ascii c, Text.octets cs, by rw [hcs, octets_ascii hascii], hdigit⟩

theorem octets_chars {v : Json} (hv : v.Tidy) : ∃ o os,
    Text.octets (chars v) = o :: os ∧ Opens o := by
  cases hv with
  | null => exact ⟨_, _, rfl, by decide, by decide, by decide⟩
  | bool b => cases b <;> exact ⟨_, _, rfl, by decide, by decide, by decide⟩
  | int n low high =>
    cases n with
    | ofNat n =>
      obtain ⟨o, os, h, hdigit⟩ := octets_digits n
      exact ⟨o, os, h, opens_of_isDigit hdigit⟩
    | negSucc n => exact ⟨_, _, octets_ascii (by decide) _, by decide, by decide, by decide⟩
  | str s => exact ⟨_, _, octets_ascii (by decide) _, by decide, by decide, by decide⟩
  | @arr items all =>
    cases items <;> exact ⟨_, _, octets_ascii (by decide) _, by decide, by decide, by decide⟩
  | @obj members ordered all =>
    cases members <;> exact ⟨_, _, octets_ascii (by decide) _, by decide, by decide, by decide⟩

/-! ## Scalars -/

variable {steps : Nat} {rest : Bytes}

theorem readValue_digits {n : Nat} (hn : n ≤ maxWord) (hrest : Closed rest) (allowed : Nat) :
    readValue (steps + 1) allowed (Text.octets (Nat.toDigits 10 n) ++ rest) =
      .ok (.int n, rest) := by
  obtain ⟨o, os, hoctets, hdigit⟩ := octets_digits n
  have hread := readNumber_digits hn hrest false
  rw [hoctets, List.cons_append] at hread ⊢
  rw [readValue, skipSpace_cons (opens_of_isDigit hdigit).1]
  split
  all_goals
    next heq =>
      cases heq <;> first
        | exact absurd hdigit (by decide)
        | rw [if_pos hdigit]; exact hread

theorem readValue_int {n : Int} (low : minInt ≤ n) (high : n ≤ maxInt) (hrest : Closed rest)
    (allowed : Nat) :
    readValue (steps + 1) allowed (Text.octets (intChars n) ++ rest) = .ok (.int n, rest) := by
  cases n with
  | ofNat n =>
    have hn : n ≤ maxWord := by
      have : (n : Int) ≤ 18446744073709551615 := high
      unfold maxWord
      omega
    exact readValue_digits hn hrest allowed
  | negSucc n =>
    have hlow : -9223372036854775808 ≤ Int.negSucc n := low
    have hword : n + 1 ≤ maxWord := by
      unfold maxWord
      omega
    rw [intChars, octets_ascii (by decide)]
    show readNumber true (Text.octets (Nat.toDigits 10 (n + 1)) ++ rest) = _
    rw [readNumber_digits hword hrest, signedInt, if_pos rfl, if_neg (by omega)]
    rfl

theorem readValue_str (s : String) (rest : Bytes) (allowed : Nat) :
    readValue (steps + 1) allowed (Text.octets (quote s) ++ rest) = .ok (.str s, rest) := by
  rw [octets_quote]
  show Except.bind (readText _) _ = _
  rw [readText_escape]
  rfl

/-! ## Items and members -/

variable {allowed : Nat} {v : Json} {b start mid : Bytes}

/-- What is read in two parts is as deep as the deeper one. -/
theorem bind_within {β : Type} {x : Except Problem (α × Bytes)}
    {f : α × Bytes → Except Problem (β × Bytes)} {a c : Nat} {r : α × Bytes} {s : β × Bytes}
    (hx : x = within a allowed r) (hf : f r = within c allowed s) :
    x >>= f = within (max a c) allowed s := by
  rw [hx]
  by_cases ha : a < allowed
  · rw [within_of_lt ha]
    show f r = _
    rw [hf, within, within]
    split <;> split <;> first | rfl | omega
  · rw [within, within, if_neg ha, if_neg (by omega)]
    rfl

theorem bind_within_ok {β : Type} {x : Except Problem (α × Bytes)}
    {f : α × Bytes → Except Problem (β × Bytes)} {a : Nat} {r : α × Bytes} {s : β × Bytes}
    (hx : x = within a allowed r) (hf : f r = .ok s) : x >>= f = within a allowed s := by
  rw [hx, within, within]
  split
  · exact hf
  · rfl

/-- A bracket takes one from the allowance. -/
theorem nested_within {x : Except Problem (α × Bytes)} {inner : Nat} {r : α × Bytes}
    (hx : 1 ≤ allowed - 1 → x = within inner (allowed - 1) r) :
    (if allowed ≤ 1 then .error .tooDeep else x) = within (inner + 1) allowed r := by
  by_cases hallowed : allowed ≤ 1
  · rw [if_pos hallowed, within, if_neg (by omega)]
  · rw [if_neg hallowed, hx (by omega), within, within]
    split <;> split <;> first | rfl | omega

theorem ok_eq_within (hallowed : 1 ≤ allowed) (r : α × Bytes) : .ok r = within 0 allowed r :=
  (within_of_lt hallowed r).symm

theorem readItems_cons {first : Bool} {vs : List Json}
    (hnext : nextItem first b = .ok (some start))
    (hhead : readValue steps allowed start = within v.depth allowed (v, mid))
    (htail : readItems steps allowed false mid = within (depthItems vs) allowed (vs, rest)) :
    readItems (steps + 1) allowed first b =
      within (depthItems (v :: vs)) allowed (v :: vs, rest) := by
  rw [readItems, hnext]
  exact bind_within hhead (bind_within_ok htail rfl)

theorem addMember_of_lt {k : String} {ms : List (String × Json)} (h : ∀ e ∈ ms, k < e.1) :
    addMember k v ms = (k, v) :: ms := by
  rw [addMember, Entries.find?_eq_none_of_lt h]
  exact Entries.insert_of_forall_gt v h

theorem readMembers_cons {first : Bool} {k : String} {ms : List (String × Json)}
    (hordered : Entries.Ordered ((k, v) :: ms))
    (hnext : nextKey first b = .ok (some (Text.octets (escape k.toList) ++ 0x22 :: 0x3a :: start)))
    (hhead : readValue steps allowed start = within v.depth allowed (v, mid))
    (htail : readMembers steps allowed false mid = within (depthMembers ms) allowed (ms, rest)) :
    readMembers (steps + 1) allowed first b =
      within (depthMembers ((k, v) :: ms)) allowed ((k, v) :: ms, rest) := by
  have hadd : addMember k v ms = (k, v) :: ms :=
    addMember_of_lt (List.pairwise_cons.mp hordered).1
  rw [readMembers, hnext]
  show Except.bind (readText _) _ = _
  rw [readText_escape]
  show Except.bind (readValue steps allowed start) _ = _
  refine bind_within hhead (bind_within_ok htail ?_)
  show Except.ok (addMember k v ms, rest) = _
  rw [hadd]

/-! ## Whole values -/

theorem octets_bracket {c : Char} (hc : c.toNat < 128) (cs ds : List Char) (rest : Bytes) :
    Text.octets (c :: cs ++ ds) ++ rest =
      ascii c :: (Text.octets cs ++ (Text.octets ds ++ rest)) := by
  rw [List.cons_append, octets_ascii hc, List.cons_append, Text.octets_append, List.append_assoc]

/-- The members of an object from its first or from a later one on, and the brace that closes
it. -/
def bodyChars (first : Bool) : List (String × Json) → List Char
  | [] => ['\x7d']
  | (k, v) :: ms => (if first then [] else [',']) ++ quote k ++ ':' :: chars v ++ memberChars ms

theorem chars_obj (ms : List (String × Json)) : chars (.obj ms) = '\x7b' :: bodyChars true ms := by
  cases ms <;> rfl

theorem memberChars_eq (ms : List (String × Json)) : memberChars ms = bodyChars false ms := by
  cases ms <;> rfl

theorem length_bodyChars_cons (first : Bool) (k : String) (v : Json) (ms : List (String × Json)) :
    (chars v).length + (bodyChars false ms).length + 1 ≤
      (bodyChars first ((k, v) :: ms)).length := by
  rw [← memberChars_eq]
  simp only [bodyChars, List.length_append, List.length_cons]
  omega

theorem length_bodyChars_pos (first : Bool) (ms : List (String × Json)) :
    0 < (bodyChars first ms).length := by
  cases ms with
  | nil => exact Nat.zero_lt_one
  | cons m ms => exact Nat.lt_of_lt_of_le (Nat.succ_pos _) (length_bodyChars_cons first m.1 m.2 ms)

theorem nextKey_bodyChars (first : Bool) (k : String) (v : Json) (ms : List (String × Json))
    (rest : Bytes) :
    nextKey first (Text.octets (bodyChars first ((k, v) :: ms)) ++ rest) =
      .ok (some (Text.octets (escape k.toList) ++ 0x22 :: 0x3a ::
        (Text.octets (chars v) ++ (Text.octets (bodyChars false ms) ++ rest)))) := by
  have hkey : Text.octets (quote k ++ ':' :: chars v ++ memberChars ms) ++ rest =
      0x22 :: (Text.octets (escape k.toList) ++ 0x22 :: 0x3a ::
        (Text.octets (chars v) ++ (Text.octets (bodyChars false ms) ++ rest))) := by
    rw [Text.octets_append, List.append_assoc, Text.octets_append, List.append_assoc,
      octets_quote, octets_ascii (by decide), memberChars_eq]
    rfl
  cases first with
  | true =>
    show nextKey true (Text.octets (quote k ++ ':' :: chars v ++ memberChars ms) ++ rest) = _
    rw [hkey]
    rfl
  | false =>
    show nextKey false
      (Text.octets (',' :: (quote k ++ ':' :: chars v ++ memberChars ms)) ++ rest) = _
    rw [octets_ascii (by decide), List.cons_append, hkey]
    rfl

theorem closed_itemChars (vs : List Json) (rest : Bytes) :
    Closed (Text.octets (itemChars vs) ++ rest) := by
  cases vs with
  | nil => exact closed_cons (by decide) _
  | cons v vs =>
    rw [itemChars, octets_bracket (by decide)]
    exact closed_cons (by decide) _

theorem closed_bodyChars (ms : List (String × Json)) (rest : Bytes) :
    Closed (Text.octets (bodyChars false ms) ++ rest) := by
  cases ms with
  | nil => exact closed_cons (by decide) _
  | cons m ms =>
    show Closed (Text.octets (',' :: (quote m.1 ++ ':' :: chars m.2 ++ memberChars ms)) ++ rest)
    rw [octets_ascii (by decide)]
    exact closed_cons (by decide) _

theorem nextItem_first {v : Json} (hv : v.Tidy) (b : Bytes) :
    nextItem true (Text.octets (chars v) ++ b) = .ok (some (Text.octets (chars v) ++ b)) := by
  obtain ⟨o, os, hoctets, hspace, hbracket, hcomma⟩ := octets_chars hv
  rw [hoctets, List.cons_append, nextItem, skipSpace_cons hspace]
  split
  · next heq => cases heq
  · next heq => exact absurd (List.cons.inj heq).1 hbracket
  · next heq => exact absurd (List.cons.inj heq).1 hcomma
  · next heq =>
    cases heq
    rfl

theorem nextItem_comma {v : Json} (hv : v.Tidy) (b : Bytes) :
    nextItem false (0x2c :: (Text.octets (chars v) ++ b)) =
      .ok (some (Text.octets (chars v) ++ b)) := by
  obtain ⟨o, os, hoctets, hspace, hbracket, -⟩ := octets_chars hv
  rw [hoctets, List.cons_append, nextItem, skipSpace_cons (by decide)]
  split
  · next heq => cases heq
  · next heq => exact absurd (List.cons.inj heq).1 (by decide)
  · next heq =>
    cases heq
    rw [if_neg Bool.false_ne_true, skipSpace_cons hspace]
    split
    · next heq => cases heq
    · next heq => exact absurd (List.cons.inj heq).1 hbracket
    · next heq =>
      cases heq
      rfl
  · next hcomma heq => exact absurd (List.cons.inj heq).1.symm hcomma

theorem length_chars_pos {v : Json} (hv : v.Tidy) : 0 < (chars v).length := by
  obtain ⟨o, os, hoctets, -⟩ := octets_chars hv
  refine List.length_pos_iff.mpr fun h => ?_
  rw [h] at hoctets
  cases hoctets

theorem length_itemChars_pos (vs : List Json) : 0 < (itemChars vs).length := by
  cases vs <;> exact Nat.succ_pos _

theorem exists_succ {n steps : Nat} (hpos : 0 < n) (h : n ≤ steps) : ∃ k, steps = k + 1 :=
  ⟨steps - 1, by omega⟩

-- The recursion is on the derivation that what was written is tidy.  Every step is paid for by a
-- character at least, so the length of the text bounds the steps.
mutual
/-- A written value is read back if it is not nested deeper than allowed. -/
theorem readValue_chars {v : Json} (hv : v.Tidy) {steps allowed : Nat} {rest : Bytes}
    (hsteps : (chars v).length ≤ steps) (hallowed : 1 ≤ allowed) (hrest : Closed rest) :
    readValue steps allowed (Text.octets (chars v) ++ rest) = within v.depth allowed (v, rest) := by
  obtain ⟨steps, rfl⟩ := exists_succ (length_chars_pos hv) hsteps
  cases hv with
  | null => exact ok_eq_within hallowed _
  | bool b => cases b <;> exact ok_eq_within hallowed _
  | int n low high => exact (readValue_int low high hrest allowed).trans (ok_eq_within hallowed _)
  | str s => exact (readValue_str s rest allowed).trans (ok_eq_within hallowed _)
  | arr all =>
    cases all with
    | nil =>
      obtain ⟨steps, rfl⟩ := exists_succ Nat.zero_lt_one (Nat.le_of_succ_le_succ hsteps)
      exact nested_within fun hin => bind_within_ok (ok_eq_within hin ([], rest)) rfl
    | @cons v vs head tail =>
      rw [chars, List.cons_append, List.length_cons, List.length_append] at hsteps
      have hv := length_chars_pos head
      have hvs := length_itemChars_pos vs
      obtain ⟨steps, rfl⟩ : ∃ k, steps = k + 1 := ⟨steps - 1, by omega⟩
      rw [chars, octets_bracket (by decide)]
      exact nested_within fun hin => bind_within_ok (readItems_cons (nextItem_first head _)
        (readValue_chars head (by omega) hin (closed_itemChars vs rest))
        (readItems_chars tail (by omega) hin)) rfl
  | @obj members ordered all =>
    rw [chars_obj] at hsteps ⊢
    rw [octets_ascii (by decide)]
    exact nested_within fun hin => bind_within_ok
      (readMembers_bodyChars all ordered (Nat.le_of_succ_le_succ hsteps) hin) rfl

theorem readItems_chars {vs : List Json} (hvs : TidyItems vs) {steps allowed : Nat} {rest : Bytes}
    (hsteps : (itemChars vs).length ≤ steps) (hallowed : 1 ≤ allowed) :
    readItems steps allowed false (Text.octets (itemChars vs) ++ rest) =
      within (depthItems vs) allowed (vs, rest) := by
  obtain ⟨steps, rfl⟩ := exists_succ (length_itemChars_pos vs) hsteps
  cases hvs with
  | nil => exact ok_eq_within hallowed _
  | @cons v vs head tail =>
    rw [itemChars, List.cons_append, List.length_cons, List.length_append] at hsteps
    rw [itemChars, octets_bracket (by decide)]
    exact readItems_cons (nextItem_comma head _)
      (readValue_chars head (by omega) hallowed (closed_itemChars vs rest))
      (readItems_chars tail (by omega) hallowed)

theorem readMembers_bodyChars {ms : List (String × Json)} (hms : TidyMembers ms)
    (hordered : Entries.Ordered ms) {steps allowed : Nat} {first : Bool} {rest : Bytes}
    (hsteps : (bodyChars first ms).length ≤ steps) (hallowed : 1 ≤ allowed) :
    readMembers steps allowed first (Text.octets (bodyChars first ms) ++ rest) =
      within (depthMembers ms) allowed (ms, rest) := by
  obtain ⟨steps, rfl⟩ := exists_succ (length_bodyChars_pos first ms) hsteps
  cases hms with
  | nil => cases first <;> exact ok_eq_within hallowed _
  | @cons k v ms head tail =>
    have hlen := length_bodyChars_cons first k v ms
    exact readMembers_cons hordered (nextKey_bodyChars first k v ms rest)
      (readValue_chars head (by omega) hallowed (closed_bodyChars ms rest))
      (readMembers_bodyChars tail (List.Pairwise.of_cons hordered) (by omega) hallowed)
end

end Json
end Rendezvous
