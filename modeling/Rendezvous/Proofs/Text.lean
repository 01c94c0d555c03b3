/-
Texts and their octets.

A text is read back from its octets, and octets are ordered as the texts are that they spell:
UTF-8 keeps the order of the code points.  A whole number is read back from its digits.
-/
import Rendezvous.Text.Bytes

namespace Rendezvous
namespace Text

theorem ofBytes?_octets (cs : List Char) : ofBytes? (octets cs) = some (String.ofList cs) := by
  have h : (octets cs).toByteArray = (String.ofList cs).toByteArray := rfl
  unfold ofBytes? String.fromUTF8?
  rw [h, dif_pos (String.ofList cs).isValidUTF8]
  rfl

theorem ofBytes?_toBytes (s : String) : ofBytes? (toBytes s) = some s := by
  rw [toBytes, ofBytes?_octets, String.ofList_toList]

theorem octets_injective {cs ds : List Char} (h : octets cs = octets ds) : cs = ds := by
  have hread := congrArg ofBytes? h
  rw [ofBytes?_octets, ofBytes?_octets] at hread
  exact String.ofList_injective (Option.some.inj hread)

/-! ## Digits of whole numbers -/

theorem isDigit_of_mem_toDigits {n : Nat} {c : Char} (h : c ∈ Nat.toDigits 10 n) :
    c.isDigit = true :=
  Nat.isDigit_of_mem_toDigits (by decide) (by decide) h

theorem toDigits_injective {m n : Nat} (h : Nat.toDigits 10 m = Nat.toDigits 10 n) : m = n := by
  have hread := congrArg (Nat.ofDigitChars 10 · 0) h
  simpa only [Nat.ofDigitChars_ten_toDigits] using hread

/-! ## The order of texts -/

theorem utf8EncodeChar_ne_nil (c : Char) : String.utf8EncodeChar c ≠ [] := by
  simp only [String.utf8EncodeChar]
  split
  · simp
  · split
    · simp
    · split <;> simp

theorem ofNat_lt_iff {a b : Nat} (ha : a < 256) (hb : b < 256) :
    UInt8.ofNat a < UInt8.ofNat b ↔ a < b :=
  UInt8.ofNat_lt_iff_lt ha hb

theorem ofNat_eq_iff {a b : Nat} (ha : a < 256) (hb : b < 256) :
    UInt8.ofNat a = UInt8.ofNat b ↔ a = b := by
  rw [← UInt8.toNat_inj, UInt8.toNat_ofNat', UInt8.toNat_ofNat', Nat.mod_eq_of_lt ha,
    Nat.mod_eq_of_lt hb]

/-- Of two characters the lesser has the lesser octets, and they differ before either ends. -/
theorem utf8EncodeChar_lt {c d : Char} (h : c < d) (x y : Bytes) :
    String.utf8EncodeChar c ++ x < String.utf8EncodeChar d ++ y := by
  have hcd : c.val.toNat < d.val.toNat := h
  have hc : c.val.toNat < 1114112 := by
    rcases c.valid with hv | hv <;> omega
  have hd : d.val.toNat < 1114112 := by
    rcases d.valid with hv | hv <;> omega
  have hstep (n : Nat) : n / 4096 = n / 64 / 64 ∧ n / 262144 = n / 64 / 64 / 64 := by omega
  simp only [String.utf8EncodeChar, hstep]
  generalize c.val.toNat = v at hcd hc
  generalize d.val.toNat = w at hcd hd
  -- one case for each pair of lengths
  repeat' split
  all_goals
    simp (disch := omega) only [List.cons_append, List.nil_append, List.cons_lt_cons_iff,
      ofNat_lt_iff, ofNat_eq_iff]
  all_goals omega

theorem octets_lt {cs ds : List Char} (h : cs < ds) : octets cs < octets ds := by
  induction h with
  | @nil d ds =>
    rw [octets_cons]
    cases hd : String.utf8EncodeChar d with
    | nil => exact absurd hd (utf8EncodeChar_ne_nil d)
    | cons o os => exact .nil
  | @rel c cs d ds hcd =>
    rw [octets_cons, octets_cons]
    exact utf8EncodeChar_lt hcd _ _
  | @cons c cs ds h ih =>
    rw [octets_cons, octets_cons]
    exact List.append_left_lt ih

theorem toBytes_lt {s t : String} (h : s < t) : toBytes s < toBytes t :=
  octets_lt h

end Text
end Rendezvous
