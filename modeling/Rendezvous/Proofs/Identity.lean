/-
The printed form of an identity.

Claims are kept by the printed form of an identity, so the memory of what was let in is only as
good as that form.  It spells all 128 bits in hexadecimal, and the hyphens stand in fixed places:
an identity is read back from it (`Uuid.parse?_text`), so the form tells identities apart.
-/
import Mathlib
import Rendezvous.Identity.Uuid

namespace Rendezvous

namespace Hex

theorem value?_digit : ∀ a < 16, value? (digit a) = some a := by decide

theorem number?_append (acc : Nat) (cs : List Char) (c : Char) :
    number? acc (cs ++ [c]) =
      (number? acc cs).bind fun n => (value? c).map fun v => 16 * n + v := by
  induction cs generalizing acc with
  | nil =>
    show (value? c).bind (fun v => some (16 * acc + v)) = _
    cases value? c <;> rfl
  | cons d cs ih =>
    show (value? d).bind (fun v => number? (16 * acc + v) (cs ++ [c])) = _
    cases hd : value? d with
    | none => simp [number?, hd]
    | some v =>
      simp only [Option.bind_some, number?, hd]
      exact ih _

/-- The digits of a width spell what a number leaves over beyond that width. -/
theorem number?_digits (acc width n : Nat) :
    number? acc (digits width n) = some (acc * 16 ^ width + n % 16 ^ width) := by
  induction width generalizing n with
  | zero => simp [digits, number?, Nat.mod_one]
  | succ width ih =>
    have hdigit := value?_digit (n % 16) (Nat.mod_lt _ (by decide))
    rw [digits, number?_append, ih, hdigit, Option.bind_some, Option.map_some, Nat.pow_succ,
      Nat.mul_comm (16 ^ width) 16, Nat.mod_mul]
    congr 1
    rw [Nat.mul_add, ← Nat.mul_assoc, Nat.mul_comm 16 acc, Nat.mul_assoc]
    omega

end Hex

namespace Uuid

theorem hyphenate_cons (n n' : Nat) (ns : List Nat) (cs : List Char) :
    hyphenate (n :: n' :: ns) cs = cs.take n ++ '-' :: hyphenate (n' :: ns) (cs.drop n) := rfl

theorem length_hyphenate {ns : List Nat} {cs : List Char} (hlen : cs.length = ns.sum) :
    (hyphenate ns cs).length = cs.length + (ns.length - 1) := by
  induction ns generalizing cs with
  | nil => rfl
  | cons n ns ih =>
    cases ns with
    | nil => rfl
    | cons n' ns =>
      have hsum : cs.length = n + (n' :: ns).sum := by rw [hlen, List.sum_cons]
      have hdrop : (cs.drop n).length = (n' :: ns).sum := by
        rw [List.length_drop]
        omega
      rw [hyphenate_cons, List.length_append, List.length_cons, ih hdrop, List.length_take,
        List.length_drop]
      simp only [List.length_cons]
      omega

/-- The digits are found again between the hyphens. -/
theorem unhyphenate_hyphenate {ns : List Nat} {cs : List Char} (hlen : cs.length = ns.sum) :
    unhyphenate ns (hyphenate ns cs) = some cs := by
  induction ns generalizing cs with
  | nil => rfl
  | cons n ns ih =>
    cases ns with
    | nil =>
      have hn : cs.length = n := by simpa using hlen
      rw [hyphenate, unhyphenate, if_pos hn]
    | cons n' ns =>
      have hsum : cs.length = n + (n' :: ns).sum := by rw [hlen, List.sum_cons]
      have htake : (cs.take n).length = n := by
        rw [List.length_take]
        omega
      have hdrop : (cs.drop n).length = (n' :: ns).sum := by
        rw [List.length_drop]
        omega
      rw [hyphenate_cons, unhyphenate, List.drop_left' htake]
      · simp only
        rw [ih hdrop, Option.map_some, List.take_left' htake, List.take_append_drop]
      · exact List.cons_ne_nil _ _

theorem length_chars (u : Uuid) : u.chars.length = 36 := by
  rw [chars, length_hyphenate (Hex.length_digits 32 u.value), Hex.length_digits]
  rfl

theorem ofNat_value (u : Uuid) : ofNat u.value = u := by
  obtain ⟨value, bounded⟩ := u
  simp only [ofNat, Nat.mod_eq_of_lt bounded]

/-- An identity is read back from its printed form. -/
theorem parse?_text (u : Uuid) : parse? u.text = some u := by
  have hdigits : (Hex.digits 32 u.value).length = groups.sum := Hex.length_digits 32 u.value
  have hmod : u.value % 16 ^ 32 = u.value := Nat.mod_eq_of_lt u.bounded
  have hvalue : ofDigits? (Hex.digits 32 u.value) = some u := by
    rw [ofDigits?, if_pos (Hex.length_digits 32 u.value), Hex.number?_digits, Option.map_some,
      hmod, Nat.zero_mul, Nat.zero_add, ofNat_value]
  have hread : ofHyphenated? u.chars = some u := by
    rw [ofHyphenated?, chars, unhyphenate_hyphenate hdigits, Option.bind_some, hvalue]
  rw [parse?, text, String.toList_ofList]
  simp only [length_chars, hread]
  rfl

theorem text_injective {u v : Uuid} (h : u.text = v.text) : u = v :=
  Option.some.inj (by rw [← parse?_text u, h, parse?_text])

end Uuid
end Rendezvous
