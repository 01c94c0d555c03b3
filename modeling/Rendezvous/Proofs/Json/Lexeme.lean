/-
Lexemes that were written are read back.

What is written inside quotation marks is read as the text that it was made from, and a whole
number in range is read as that number, whatever follows that is no part of it.
-/
import Rendezvous.Json.Reader
import Rendezvous.Proofs.Text

namespace Rendezvous
namespace Json

/-! ## Octets of characters -/

theorem octets_ascii {c : Char} (h : c.toNat < 128) (cs : List Char) :
    Text.octets (c :: cs) = ascii c :: Text.octets cs := by
  have hle : c.val.toNat ≤ 127 := by
    have hv : c.val.toNat < 128 := h
    omega
  rw [Text.octets_cons, String.utf8EncodeChar, if_pos hle]
  rfl

theorem ascii_injective {c d : Char} (hc : c.toNat < 128) (hd : d.toNat < 128)
    (h : ascii c = ascii d) : c = d := by
  have hval : c.toNat = d.toNat := by
    have := congrArg UInt8.toNat h
    rw [ascii, ascii, UInt8.toNat_ofNat', UInt8.toNat_ofNat'] at this
    omega
  exact Char.ext (UInt32.toNat_inj.mp hval)

/-- An octet that stands for itself inside quotation marks. -/
def Plain (o : UInt8) : Prop := o ≠ 0x22 ∧ o ≠ 0x5c ∧ ¬o < 0x20

theorem plain_ofNat {n : Nat} (hn : n < 256) (hquote : n ≠ 0x22) (hescape : n ≠ 0x5c)
    (hcontrol : 0x20 ≤ n) : Plain (UInt8.ofNat n) := by
  have hval : (UInt8.ofNat n).toNat = n := by rw [UInt8.toNat_ofNat', Nat.mod_eq_of_lt hn]
  refine ⟨fun h => hquote ?_, fun h => hescape ?_, fun h => ?_⟩
  · rw [← hval, h]
    rfl
  · rw [← hval, h]
    rfl
  · have hlt : (UInt8.ofNat n).toNat < 0x20 := UInt8.lt_iff_toNat_lt.mp h
    omega

/-- The octets of a character that is not escaped. -/
theorem plain_of_mem_utf8 {c : Char} (hquote : c ≠ '"') (hescape : c ≠ '\\')
    (hcontrol : ¬c.toNat < 0x20) : ∀ o ∈ String.utf8EncodeChar c, Plain o := by
  have hval (d : Char) (h : c ≠ d) : c.val.toNat ≠ d.val.toNat := fun e =>
    h (Char.ext (UInt32.toNat_inj.mp e))
  have hq : c.val.toNat ≠ 0x22 := hval '"' hquote
  have he : c.val.toNat ≠ 0x5c := hval '\\' hescape
  have hc : ¬c.val.toNat < 0x20 := hcontrol
  simp only [String.utf8EncodeChar]
  intro o ho
  repeat' split at ho
  all_goals
    simp only [List.mem_cons, List.not_mem_nil, or_false] at ho
  · exact ho ▸ plain_ofNat (by omega) hq he (by omega)
  · rcases ho with rfl | rfl <;> exact plain_ofNat (by omega) (by omega) (by omega) (by omega)
  · rcases ho with rfl | rfl | rfl <;>
      exact plain_ofNat (by omega) (by omega) (by omega) (by omega)
  · rcases ho with rfl | rfl | rfl | rfl <;>
      exact plain_ofNat (by omega) (by omega) (by omega) (by omega)

/-! ## Texts -/

theorem before_before (a b : Bytes) (r : Read Bytes) :
    before a (before b r) = before (a ++ b) r := by
  cases r with
  | error p => rfl
  | ok r => rw [before, before, before, List.append_assoc]

theorem textOctets_plain {o : UInt8} (h : Plain o) (rest : Bytes) :
    textOctets (o :: rest) = before [o] (textOctets rest) := by
  obtain ⟨hquote, hescape, hcontrol⟩ := h
  simp [textOctets, hescape, hcontrol]

theorem textOctets_plains {os : Bytes} (h : ∀ o ∈ os, Plain o) (rest : Bytes) :
    textOctets (os ++ rest) = before os (textOctets rest) := by
  induction os with
  | nil =>
    show textOctets rest = _
    cases textOctets rest <;> rfl
  | cons o os ih =>
    rw [List.cons_append, textOctets_plain (h o List.mem_cons_self),
      ih fun o' ho => h o' (List.mem_cons_of_mem _ ho), before_before]
    rfl

/-- The digits of a control, and what they are read as. -/
theorem hexUnit?_control : ∀ n < 0x20,
    Text.octets (Hex.digits 4 n) =
        [0x30, 0x30, ascii (Hex.digit (n / 16)), ascii (Hex.digit (n % 16))] ∧
      hexUnit? 0x30 0x30 (ascii (Hex.digit (n / 16))) (ascii (Hex.digit (n % 16))) = some n := by
  decide

theorem textOctets_control {c : Char} (h : c.toNat < 0x20) (rest : Bytes) :
    textOctets (Text.octets (['\\', 'u'] ++ Hex.digits 4 c.toNat) ++ rest) =
      before (String.utf8EncodeChar c) (textOctets rest) := by
  obtain ⟨hoctets, hunit⟩ := hexUnit?_control c.toNat h
  have hlow : isLowSurrogate c.toNat = false := by
    simp only [isLowSurrogate, Bool.and_eq_false_iff, decide_eq_false_iff_not]
    omega
  have hhigh : isHighSurrogate c.toNat = false := by
    simp only [isHighSurrogate, Bool.and_eq_false_iff, decide_eq_false_iff_not]
    omega
  rw [Text.octets_append, hoctets]
  show textOctets (0x5c :: 0x75 :: 0x30 :: 0x30 :: _ :: _ :: rest) = _
  simp only [textOctets, hunit, hlow, hhigh, Bool.false_eq_true, if_false, codePointOctets,
    Char.ofNat_toNat]

/-- A written character is read back. -/
theorem textOctets_escapeChar (c : Char) (rest : Bytes) :
    textOctets (Text.octets (escapeChar c) ++ rest) =
      before (String.utf8EncodeChar c) (textOctets rest) := by
  unfold escapeChar
  split
  · rfl
  · rfl
  · rfl
  · rfl
  · rfl
  · rfl
  · rfl
  · next hquote hescape _ _ _ _ _ =>
    split
    · next hcontrol => exact textOctets_control hcontrol rest
    · next hcontrol =>
      rw [Text.octets_cons, Text.octets_nil, List.append_nil]
      exact textOctets_plains (plain_of_mem_utf8 hquote hescape hcontrol) rest

/-- A written text is read back up to the quotation mark behind it. -/
theorem textOctets_escape (cs : List Char) (rest : Bytes) :
    textOctets (Text.octets (escape cs) ++ 0x22 :: rest) = .ok (Text.octets cs, rest) := by
  induction cs with
  | nil => rfl
  | cons c cs ih =>
    have hescape : escape (c :: cs) = escapeChar c ++ escape cs := List.flatMap_cons
    rw [hescape, Text.octets_append, List.append_assoc, textOctets_escapeChar, ih,
      Text.octets_cons]
    rfl

theorem readText_escape (s : String) (rest : Bytes) :
    readText (Text.octets (escape s.toList) ++ 0x22 :: rest) = .ok (s, rest) := by
  have hback : Text.ofBytes? (Text.octets s.toList) = some s := Text.ofBytes?_toBytes s
  rw [readText, textOctets_escape]
  dsimp only
  rw [hback]

theorem octets_quote (s : String) (rest : Bytes) :
    Text.octets (quote s) ++ rest = 0x22 :: (Text.octets (escape s.toList) ++ 0x22 :: rest) := by
  rw [quote, List.cons_append, octets_ascii (by decide), Text.octets_append, List.cons_append,
    List.append_assoc]
  rfl

/-! ## Numbers -/

/-- What may follow a value: nothing, a comma or a closing bracket. -/
def Closed (rest : Bytes) : Prop :=
  ∀ o os, rest = o :: os → o = 0x2c ∨ o = 0x5d ∨ o = 0x7d

theorem closed_cons {o : UInt8} (h : o = 0x2c ∨ o = 0x5d ∨ o = 0x7d) (rest : Bytes) :
    Closed (o :: rest) := fun _ _ he => (List.cons.inj he).1 ▸ h

theorem Closed.isDigit_head {rest : Bytes} (h : Closed rest) :
    ∀ o os, rest = o :: os → isDigit o = false := by
  intro o os he
  rcases h o os he with rfl | rfl | rfl <;> decide

/-- Digits are those of numbers below ten. -/
theorem octet_of_isDigit {c : Char} (h : c.isDigit = true) :
    c.toNat < 128 ∧ isDigit (ascii c) = true ∧ digitValue (ascii c) = c.toNat - '0'.toNat := by
  obtain ⟨hlow, hhigh⟩ := Char.isDigit_iff_toNat.mp h
  have hlow : 48 ≤ c.toNat := hlow
  have hhigh : c.toNat ≤ 57 := hhigh
  have hval : (ascii c).toNat = c.toNat := by
    rw [ascii, UInt8.toNat_ofNat']
    omega
  refine ⟨by omega, ?_, ?_⟩
  · simp only [isDigit, Bool.and_eq_true, decide_eq_true_eq, UInt8.le_iff_toNat_le, hval]
    exact ⟨hlow, hhigh⟩
  · rw [digitValue, hval]
    rfl

theorem le_ofDigitChars (cs : List Char) (n : Nat) : n ≤ Nat.ofDigitChars 10 cs n := by
  induction cs generalizing n with
  | nil => exact Nat.le_refl n
  | cons c cs ih =>
    rw [Nat.ofDigitChars_cons]
    have := ih (10 * n + (c.toNat - '0'.toNat))
    omega

/-- All digits are taken while the number that they spell fits. -/
theorem takeDigits_octets {cs : List Char} {n taken : Nat} {rest : Bytes}
    (hdigits : ∀ c ∈ cs, c.isDigit = true) (hfits : Nat.ofDigitChars 10 cs n ≤ maxWord)
    (hrest : ∀ o os, rest = o :: os → isDigit o = false) :
    takeDigits n taken (Text.octets cs ++ rest) =
      (Nat.ofDigitChars 10 cs n, taken + cs.length, rest) := by
  induction cs generalizing n taken with
  | nil =>
    rw [Text.octets_nil, List.nil_append]
    cases rest with
    | nil => rfl
    | cons o os =>
      rw [takeDigits, hrest o os rfl, Bool.false_and, if_neg (by decide)]
      rfl
  | cons c cs ih =>
    obtain ⟨hascii, hdigit, hvalue⟩ := octet_of_isDigit (hdigits c List.mem_cons_self)
    rw [Nat.ofDigitChars_cons] at hfits ⊢
    have hnext : n * 10 + digitValue (ascii c) = 10 * n + (c.toNat - '0'.toNat) := by
      rw [hvalue, Nat.mul_comm]
    have hle : 10 * n + (c.toNat - '0'.toNat) ≤ maxWord :=
      Nat.le_trans (le_ofDigitChars cs _) hfits
    rw [octets_ascii hascii, List.cons_append, takeDigits, hnext, hdigit,
      if_pos (by rw [Bool.true_and]; exact decide_eq_true hle),
      ih (fun d hd => hdigits d (List.mem_cons_of_mem _ hd)) hfits, List.length_cons]
    congr 2
    omega

theorem toDigits_head (n : Nat) : ∃ c cs, Nat.toDigits 10 n = c :: cs ∧ (n ≠ 0 → c ≠ '0') := by
  induction n using Nat.strongRecOn with
  | ind n ih =>
    rw [Nat.toDigits_eq_if (by decide)]
    by_cases hlt : n < 10
    · rw [if_pos hlt]
      refine ⟨_, [], rfl, fun hne => ?_⟩
      have hall : ∀ k < 10, k ≠ 0 → Nat.digitChar k ≠ '0' := by decide
      exact hall n hlt hne
    · rw [if_neg hlt]
      obtain ⟨c, cs, hcs, hc⟩ := ih (n / 10) (by omega)
      exact ⟨c, cs ++ [(n % 10).digitChar], by rw [hcs]; rfl, fun _ => hc (by omega)⟩

theorem readTail_closed {rest : Bytes} (h : Closed rest) (negative : Bool) (n : Nat) :
    readTail negative n rest = .ok (signedInt negative n, rest) := by
  cases rest with
  | nil => rfl
  | cons o os => rcases h o os rfl with rfl | rfl | rfl <;> rfl

theorem dropDigits_closed {rest : Bytes} (h : Closed rest) : dropDigits rest = (0, rest) := by
  cases rest with
  | nil => rfl
  | cons o os =>
    rw [dropDigits, List.takeWhile_cons, List.dropWhile_cons, h.isDigit_head o os rfl]
    rfl

/-- A written number is read back. -/
theorem readNumber_digits {n : Nat} {rest : Bytes} (hn : n ≤ maxWord) (hrest : Closed rest)
    (negative : Bool) :
    readNumber negative (Text.octets (Nat.toDigits 10 n) ++ rest) =
      .ok (signedInt negative n, rest) := by
  by_cases hzero : n = 0
  · subst hzero
    show readNumber negative (0x30 :: rest) = _
    cases rest with
    | nil => exact readTail_closed hrest negative 0
    | cons o os =>
      rw [readNumber]
      simp only [hrest.isDigit_head o os rfl, Bool.false_eq_true, if_false]
      exact readTail_closed hrest negative 0
  · obtain ⟨c, cs, hcs, hc⟩ := toDigits_head n
    have hdigits : ∀ d ∈ Nat.toDigits 10 n, d.isDigit = true := fun d hd =>
      Text.isDigit_of_mem_toDigits hd
    have hvalue : Nat.ofDigitChars 10 (Nat.toDigits 10 n) 0 = n := Nat.ofDigitChars_ten_toDigits
    have htake : takeDigits 0 0 (Text.octets (Nat.toDigits 10 n) ++ rest) = _ :=
      takeDigits_octets hdigits (by rw [hvalue]; exact hn) hrest.isDigit_head
    obtain ⟨hascii, hdigit, -⟩ :=
      octet_of_isDigit (hdigits c (by rw [hcs]; exact List.mem_cons_self))
    have hne : ascii c ≠ 0x30 := fun h =>
      hc hzero (ascii_injective hascii (d := '0') (by decide) h)
    rw [hvalue] at htake
    rw [hcs, octets_ascii hascii, List.cons_append] at htake ⊢
    rw [readNumber]
    · simp only [hdigit, if_true, htake, dropDigits_closed hrest]
      exact readTail_closed hrest negative n
    · exact hne

end Json
end Rendezvous
