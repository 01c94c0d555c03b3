/-
The spellings of an identity.

An identity can be spelled in four ways, and in each of them in any letter case: by its digits, in
its printed form, in its printed form in braces, and as a resource name.  Exactly these texts are
read as that identity (`Uuid.parse?_eq_some_iff`).  Reading takes no notice of the letter case, and
what was read can be written again from the number and the sizes of the groups, so both directions
go digit by digit and group by group.
-/
import Rendezvous.Proofs.Identity

namespace Rendezvous

namespace Hex

/-! ## Digits in any letter case -/

/-- What holds of the upper-case letters and of all characters that are their own lower case holds
of every character. -/
theorem toLower_induction {P : Char → Prop} (upper : ∀ k < 26, P (Char.ofNat (65 + k)))
    (other : ∀ c : Char, c.toLower = c → P c) (c : Char) : P c := by
  by_cases h : 65 ≤ c.toNat ∧ c.toNat ≤ 90
  · have hc := upper (c.toNat - 65) (by omega)
    rwa [Nat.add_sub_cancel' h.1, Char.ofNat_toNat] at hc
  · exact other c (dif_neg h)

theorem value?_toLower (c : Char) : value? c.toLower = value? c := by
  induction c using toLower_induction with
  | upper k hk => exact (by decide : ∀ k < 26,
      value? (Char.ofNat (65 + k)).toLower = value? (Char.ofNat (65 + k))) k hk
  | other c h => rw [h]

/-- What is no lower-case letter comes from itself only. -/
theorem toLower_eq_iff {c d : Char} (hd : d.toNat < 97 ∨ 122 < d.toNat) (hown : d.toLower = d) :
    c.toLower = d ↔ c = d := by
  refine ⟨fun h => ?_, fun h => h ▸ hown⟩
  induction c using toLower_induction with
  | upper k hk =>
    have hletter := (by decide : ∀ k < 26, (Char.ofNat (65 + k)).toLower.toNat = 97 + k) k hk
    rw [h] at hletter
    omega
  | other c hc => exact hc.symm.trans h

/-- Characters in a row that become the digits from `first` on. -/
theorem toLower_of_between {c : Char} (low first : Nat) {size : Nat}
    (hrow : ∀ k < size, (Char.ofNat (low + k)).toLower = digit (first + k))
    (hlow : low ≤ c.toNat) (hhigh : c.toNat < low + size) :
    c.toLower = digit (first + (c.toNat - low)) := by
  have hc := hrow (c.toNat - low) (by omega)
  rwa [Nat.add_sub_cancel' hlow, Char.ofNat_toNat] at hc

/-- A digit that is read is below sixteen, and is in lower case the digit that is written. -/
theorem value?_eq_some {c : Char} {v : Nat} (h : value? c = some v) :
    v < 16 ∧ c.toLower = digit v := by
  unfold value? at h
  split at h
  next hrange =>
    have hhigh : c.toNat ≤ 57 := hrange.2
    have hdigit := toLower_of_between 48 0 (by decide : ∀ k < 10, _) hrange.1 (by omega)
    rw [Nat.zero_add] at hdigit
    exact Option.some.inj h ▸ ⟨by omega, hdigit⟩
  next =>
    split at h
    next hrange =>
      have hlow : 97 ≤ c.toNat := hrange.1
      have hhigh : c.toNat ≤ 102 := hrange.2
      have hdigit := toLower_of_between 97 10 (by decide : ∀ k < 6, _) hlow (by omega)
      have hv : 10 + (c.toNat - 97) = v := by have := Option.some.inj h; omega
      exact hv ▸ ⟨by omega, hdigit⟩
    next =>
      split at h
      next hrange =>
        have hlow : 65 ≤ c.toNat := hrange.1
        have hhigh : c.toNat ≤ 70 := hrange.2
        have hdigit := toLower_of_between 65 10 (by decide : ∀ k < 6, _) hlow (by omega)
        have hv : 10 + (c.toNat - 65) = v := by have := Option.some.inj h; omega
        exact hv ▸ ⟨by omega, hdigit⟩
      next => cases h

theorem number?_toLower (acc : Nat) (cs : List Char) :
    number? acc (cs.map Char.toLower) = number? acc cs := by
  induction cs generalizing acc with
  | nil => rfl
  | cons c cs ih => simp only [List.map_cons, number?, value?_toLower, ih]

/-- What was read is written with the same digits, in lower case. -/
theorem number?_eq_some_iff {cs : List Char} {n : Nat} :
    number? 0 cs = some n ↔ n < 16 ^ cs.length ∧ cs.map Char.toLower = digits cs.length n := by
  constructor
  · intro h
    induction cs using List.reverseRecOn generalizing n with
    | nil =>
      obtain rfl : 0 = n := Option.some.inj h
      exact ⟨Nat.one_pos, rfl⟩
    | append_singleton cs c ih =>
      rw [number?_append] at h
      obtain ⟨m, hm, hlast⟩ := Option.bind_eq_some_iff.mp h
      obtain ⟨v, hv, rfl⟩ := Option.map_eq_some_iff.mp hlast
      obtain ⟨hlt, hdigit⟩ := value?_eq_some hv
      obtain ⟨hbound, hdigits⟩ := ih hm
      have hdiv : (16 * m + v) / 16 = m := by omega
      have hmod : (16 * m + v) % 16 = v := by omega
      rw [List.length_append, List.length_singleton, List.map_append, hdigits, digits, hdiv, hmod,
        List.map_singleton, hdigit]
      exact ⟨by rw [Nat.pow_succ]; omega, rfl⟩
  · rintro ⟨hbound, hdigits⟩
    rw [← number?_toLower, hdigits, number?_digits, Nat.zero_mul, Nat.zero_add,
      Nat.mod_eq_of_lt hbound]

/-- The digits that are written. -/
def lowerDigits : List Char :=
  ['0', '1', '2', '3', '4', '5', '6', '7', '8', '9', 'a', 'b', 'c', 'd', 'e', 'f']

theorem mem_lowerDigits {c : Char} : c ∈ lowerDigits ↔ ∃ v < 16, digit v = c := by
  have hrow : lowerDigits = (List.range 16).map digit := by decide
  simp only [hrow, List.mem_map, List.mem_range]

theorem mem_lowerDigits_of_mem_digits {width n : Nat} {c : Char} (h : c ∈ digits width n) :
    c ∈ lowerDigits := by
  induction width generalizing n with
  | zero => cases h
  | succ width ih =>
    rw [digits, List.mem_append, List.mem_singleton] at h
    rcases h with h | rfl
    · exact ih h
    · exact mem_lowerDigits.mpr ⟨n % 16, Nat.mod_lt n (by decide), rfl⟩

theorem toLower_digit : ∀ v < 16, (digit v).toLower = digit v := by decide

theorem exists_number? {cs : List Char} (h : ∀ c ∈ cs, c ∈ lowerDigits) (acc : Nat) :
    ∃ n, number? acc cs = some n := by
  induction cs generalizing acc with
  | nil => exact ⟨acc, rfl⟩
  | cons c cs ih =>
    obtain ⟨hc, hcs⟩ := List.forall_mem_cons.mp h
    obtain ⟨v, hv, rfl⟩ := mem_lowerDigits.mp hc
    rw [number?, value?_digit v hv, Option.bind_some]
    exact ih hcs _

/-- Digits in lower case are what is written of their number. -/
theorem eq_digits {cs : List Char} (h : ∀ c ∈ cs, c ∈ lowerDigits) :
    ∃ n < 16 ^ cs.length, cs = digits cs.length n := by
  obtain ⟨n, hn⟩ := exists_number? h 0
  obtain ⟨hbound, hdigits⟩ := number?_eq_some_iff.mp hn
  have hlower : cs.map Char.toLower = cs := by
    refine (List.map_congr_left fun c hc => ?_).trans (List.map_id cs)
    obtain ⟨v, hv, rfl⟩ := mem_lowerDigits.mp (h c hc)
    exact toLower_digit v hv
  exact ⟨n, hbound, hlower.symm.trans hdigits⟩

end Hex

namespace Uuid

/-! ## Hyphens -/

theorem map_hyphenate {f : Char → Char} (hf : f '-' = '-') (ns : List Nat) (cs : List Char) :
    (hyphenate ns cs).map f = hyphenate ns (cs.map f) := by
  induction ns generalizing cs with
  | nil => rfl
  | cons n ns ih =>
    cases ns with
    | nil => rfl
    | cons n' ns =>
      rw [hyphenate_cons, hyphenate_cons, List.map_append, List.map_cons, ih, hf, List.map_take,
        List.map_drop]

theorem unhyphenate_eq_some_cons {n n' : Nat} {ns : List Nat} {cs ds : List Char} :
    unhyphenate (n :: n' :: ns) cs = some ds ↔
      ∃ rest ds', cs.drop n = '-' :: rest ∧ unhyphenate (n' :: ns) rest = some ds' ∧
        cs.take n ++ ds' = ds := by
  rw [unhyphenate]
  · split
    next rest hdrop => simp [hdrop]
    next hother =>
      refine iff_of_false (by simp) ?_
      rintro ⟨rest, -, hdrop, -⟩
      exact hother rest hdrop
  · exact List.cons_ne_nil _ _

/-- A spelling whose digits were found is those digits with hyphens between them. -/
theorem eq_hyphenate {ns : List Nat} {cs ds : List Char} (h : unhyphenate ns cs = some ds) :
    cs = hyphenate ns ds := by
  induction ns generalizing cs ds with
  | nil => exact Option.some.inj h
  | cons n ns ih =>
    cases ns with
    | nil =>
      rw [unhyphenate] at h
      split at h
      · exact Option.some.inj h
      · cases h
    | cons n' ns =>
      obtain ⟨rest, ds', hdrop, hrest, rfl⟩ := unhyphenate_eq_some_cons.mp h
      have htake : (cs.take n).length = n := by
        have hlen := congrArg List.length hdrop
        rw [List.length_drop, List.length_cons] at hlen
        rw [List.length_take]
        omega
      rw [hyphenate_cons, List.take_left' htake, List.drop_left' htake, ← ih hrest, ← hdrop,
        List.take_append_drop]

/-- Where the hyphens are does not depend on the letter case. -/
theorem unhyphenate_map {f : Char → Char} (hf : ∀ c, f c = '-' ↔ c = '-') (ns : List Nat)
    (cs : List Char) : unhyphenate ns (cs.map f) = (unhyphenate ns cs).map (List.map f) := by
  induction ns generalizing cs with
  | nil => rfl
  | cons n ns ih =>
    cases ns with
    | nil =>
      rw [unhyphenate, unhyphenate, List.length_map]
      split <;> rfl
    | cons n' ns =>
      refine Option.ext fun ds => ?_
      rw [unhyphenate_eq_some_cons, Option.map_eq_some_iff, ← List.map_drop, ← List.map_take]
      constructor
      · rintro ⟨rest, ds', hdrop, hrest, rfl⟩
        obtain ⟨c, rest, hcs, hc, rfl⟩ := List.map_eq_cons_iff.mp hdrop
        rw [ih, Option.map_eq_some_iff] at hrest
        obtain ⟨ds', hrest, rfl⟩ := hrest
        rw [(hf c).mp hc] at hcs
        exact ⟨_, unhyphenate_eq_some_cons.mpr ⟨rest, ds', hcs, hrest, rfl⟩, List.map_append⟩
      · rintro ⟨ds, hds, rfl⟩
        obtain ⟨rest, ds', hcs, hrest, rfl⟩ := unhyphenate_eq_some_cons.mp hds
        refine ⟨rest.map f, ds'.map f, ?_, ?_, List.map_append.symm⟩
        · rw [hcs, List.map_cons, (hf '-').mpr rfl]
        · rw [ih, hrest, Option.map_some]

/-! ## What is read as an identity -/

theorem ofDigits?_eq_some_iff {cs : List Char} {u : Uuid} :
    ofDigits? cs = some u ↔ cs.map Char.toLower = Hex.digits 32 u.value := by
  unfold ofDigits?
  constructor
  · intro h
    split at h
    next hlen =>
      obtain ⟨n, hn, rfl⟩ := Option.map_eq_some_iff.mp h
      obtain ⟨hbound, hdigits⟩ := Hex.number?_eq_some_iff.mp hn
      rw [hlen] at hbound hdigits
      have hvalue : (ofNat n).value = n := Nat.mod_eq_of_lt hbound
      rw [hdigits, hvalue]
    next => cases h
  · intro h
    have hlen : cs.length = 32 := by
      rw [← List.length_map (f := Char.toLower), h, Hex.length_digits]
    have hnumber : Hex.number? 0 cs = some u.value :=
      Hex.number?_eq_some_iff.mpr (by rw [hlen]; exact ⟨u.bounded, h⟩)
    rw [if_pos hlen, hnumber, Option.map_some, ofNat_value]

theorem toLower_hyphen (c : Char) : c.toLower = '-' ↔ c = '-' :=
  Hex.toLower_eq_iff (Or.inl (by decide)) rfl

theorem ofHyphenated?_eq_some_iff {cs : List Char} {u : Uuid} :
    ofHyphenated? cs = some u ↔ cs.map Char.toLower = u.chars := by
  rw [ofHyphenated?, Option.bind_eq_some_iff]
  constructor
  · rintro ⟨ds, hds, hu⟩
    rw [eq_hyphenate hds, map_hyphenate rfl, ofDigits?_eq_some_iff.mp hu, chars]
  · intro h
    have hdigits : unhyphenate groups (cs.map Char.toLower) = some (Hex.digits 32 u.value) := by
      rw [h, chars]
      exact unhyphenate_hyphenate (Hex.length_digits 32 u.value)
    rw [unhyphenate_map toLower_hyphen, Option.map_eq_some_iff] at hdigits
    obtain ⟨ds, hds, hlower⟩ := hdigits
    exact ⟨ds, hds, ofDigits?_eq_some_iff.mpr hlower⟩

/-- The ways to spell an identity in lower case: its digits, its printed form, that in braces, and
that as a resource name. -/
def spellings (u : Uuid) : List (List Char) :=
  [Hex.digits 32 u.value, u.chars, '\x7b' :: u.chars ++ ['\x7d'], urnMark ++ u.chars]

/-- A text that is one of the spellings of an identity once it is put in lower case. -/
def Spelled (u : Uuid) (s : String) : Prop := s.toList.map Char.toLower ∈ u.spellings

instance (u : Uuid) (s : String) : Decidable (u.Spelled s) :=
  inferInstanceAs (Decidable (_ ∈ u.spellings))

theorem mem_spellings {u : Uuid} {cs : List Char} :
    cs ∈ u.spellings ↔ cs = Hex.digits 32 u.value ∨ cs = u.chars ∨
      cs = '\x7b' :: u.chars ++ ['\x7d'] ∨ cs = urnMark ++ u.chars := by
  simp only [spellings, List.mem_cons, List.not_mem_nil, or_false]

theorem eq_of_braced {cs : List Char} (hlen : cs.length = 38) (hopen : cs.head? = some '\x7b')
    (hclose : cs.getLast? = some '\x7d') : cs = '\x7b' :: (cs.drop 1).dropLast ++ ['\x7d'] := by
  obtain ⟨rest, rfl⟩ := List.head?_eq_some_iff.mp hopen
  have hne : rest ≠ [] := by
    rintro rfl
    cases hlen
  rw [List.getLast?_cons_of_ne_nil hne] at hclose
  rw [List.drop_succ_cons, List.drop_zero, List.cons_append, List.dropLast_append_getLast? _ hclose]

theorem braced_of_toLower {cs inner : List Char}
    (h : cs.map Char.toLower = '\x7b' :: inner ++ ['\x7d']) :
    ∃ mid, cs = '\x7b' :: mid ++ ['\x7d'] ∧ mid.map Char.toLower = inner := by
  obtain ⟨front, back, rfl, hfront, hback⟩ := List.map_eq_append_iff.mp h
  obtain ⟨c, mid, rfl, hc, hmid⟩ := List.map_eq_cons_iff.mp hfront
  obtain ⟨d, rfl, hd⟩ := List.map_eq_singleton_iff.mp hback
  rw [Hex.toLower_eq_iff (Or.inr (by decide)) rfl] at hc hd
  exact ⟨mid, by rw [hc, hd], hmid⟩

theorem spelled_of_parse? {s : String} {u : Uuid} (h : parse? s = some u) : u.Spelled s := by
  unfold parse? at h
  unfold Spelled
  rw [mem_spellings]
  generalize s.toList = cs at h
  dsimp only at h
  split at h
  next => exact Or.inl (ofDigits?_eq_some_iff.mp h)
  next =>
  split at h
  next => exact Or.inr (Or.inl (ofHyphenated?_eq_some_iff.mp h))
  next =>
  split at h
  next hlen =>
    split at h
    next hbraces =>
      refine Or.inr (Or.inr (Or.inl ?_))
      rw [eq_of_braced hlen hbraces.1 hbraces.2, List.map_append, List.map_cons,
        ofHyphenated?_eq_some_iff.mp h]
      rfl
    next => cases h
  next =>
  split at h
  next hlen =>
    split at h
    next hmark =>
      refine Or.inr (Or.inr (Or.inr ?_))
      rw [← ofHyphenated?_eq_some_iff.mp h, ← hmark, ← List.map_append, List.take_append_drop]
    next => cases h
  next => cases h

/-- Each way to spell an identity has a length of its own, which tells how the text is read. -/
theorem parse?_of_spelled {s : String} {u : Uuid} (h : u.Spelled s) : parse? s = some u := by
  unfold parse?
  unfold Spelled at h
  rw [mem_spellings] at h
  generalize s.toList = cs at h
  have hlen (n : Nat) (hn : (cs.map Char.toLower).length = n) : cs.length = n := by
    rwa [List.length_map] at hn
  rcases h with h | h | h | h
  · have h32 := hlen 32 (by rw [h, Hex.length_digits])
    rw [if_pos h32, ofDigits?_eq_some_iff.mpr h]
  · have h36 := hlen 36 (by rw [h, length_chars])
    simp only [h36, Nat.reduceEqDiff, if_false, if_true]
    exact ofHyphenated?_eq_some_iff.mpr h
  · have h38 := hlen 38 (by rw [h, List.length_append, List.length_cons, length_chars]; rfl)
    obtain ⟨mid, rfl, hmid⟩ := braced_of_toLower h
    have hinner : (('\x7b' :: mid ++ ['\x7d']).drop 1).dropLast = mid := List.dropLast_concat
    simp only [h38, hinner, Nat.reduceEqDiff, if_false, if_true]
    rw [if_pos ⟨rfl, List.getLast?_concat⟩, ofHyphenated?_eq_some_iff.mpr hmid]
  · have h45 := hlen 45 (by rw [h, List.length_append, length_chars]; rfl)
    obtain ⟨mark, cs, rfl, hmark, hcs⟩ := List.map_eq_append_iff.mp h
    have hmarked : mark.length = 9 := by rw [← List.length_map (f := Char.toLower), hmark]; rfl
    simp only [h45, List.take_left' hmarked, List.drop_left' hmarked, hmark, Nat.reduceEqDiff,
      if_false, if_true]
    exact ofHyphenated?_eq_some_iff.mpr hcs

/-- A text is read as an identity exactly if it is one of its spellings, in any letter case. -/
theorem parse?_eq_some_iff {s : String} {u : Uuid} : parse? s = some u ↔ u.Spelled s :=
  ⟨spelled_of_parse?, parse?_of_spelled⟩

/-! ## The printed form -/

/-- Five groups of digits in lower case, of eight, four, four, four and twelve, with hyphens between
them. -/
def Printed (s : String) : Prop :=
  ∃ parts : List (List Char), parts.map List.length = groups ∧
    (∀ part ∈ parts, ∀ c ∈ part, c ∈ Hex.lowerDigits) ∧ s.toList = ['-'].intercalate parts

theorem hyphenate_flatten (parts : List (List Char)) :
    hyphenate (parts.map List.length) parts.flatten = ['-'].intercalate parts := by
  induction parts with
  | nil => rfl
  | cons part parts ih =>
    cases parts with
    | nil => rfl
    | cons part' parts =>
      rw [List.map_cons, List.map_cons, hyphenate_cons, ← List.map_cons, List.flatten_cons,
        List.take_left, List.drop_left, ih]
      rfl

/-- The printed forms are the texts of identities. -/
theorem printed_iff {s : String} : Printed s ↔ ∃ u : Uuid, s = u.text := by
  constructor
  · rintro ⟨parts, hsizes, hlower, hs⟩
    have hlen : parts.flatten.length = 32 := by
      rw [List.length_flatten, hsizes]
      rfl
    have hdigit : ∀ c ∈ parts.flatten, c ∈ Hex.lowerDigits := by
      intro c hc
      obtain ⟨part, hpart, hc⟩ := List.mem_flatten.mp hc
      exact hlower part hpart c hc
    obtain ⟨n, hn, hdigits⟩ := Hex.eq_digits hdigit
    rw [hlen] at hn hdigits
    refine ⟨⟨n, hn⟩, String.toList_inj.mp ?_⟩
    rw [hs, ← hyphenate_flatten, hsizes, hdigits, text, String.toList_ofList, chars]
  · rintro ⟨u, rfl⟩
    have hlen : (Hex.digits 32 u.value).length = groups.sum := Hex.length_digits 32 u.value
    have hsizes : (groups.splitLengths (Hex.digits 32 u.value)).map List.length = groups :=
      List.map_splitLengths_length _ _ hlen.ge
    have hflat : (groups.splitLengths (Hex.digits 32 u.value)).flatten = Hex.digits 32 u.value :=
      List.flatten_splitLengths _ _ hlen.le
    refine ⟨groups.splitLengths (Hex.digits 32 u.value), hsizes, fun part hpart c hc => ?_, ?_⟩
    · exact Hex.mem_lowerDigits_of_mem_digits
        (hflat ▸ List.mem_flatten.mpr ⟨part, hpart, hc⟩)
    · rw [← hyphenate_flatten, hsizes, hflat, text, String.toList_ofList, chars]

end Uuid
end Rendezvous
