/-
Identities that are made from names.

A record without an identity of its own is given one that is made from the name of its position, and
an output one that is made from the printed forms of what it consumes.  Both names can be taken apart
again.  A position is read from the right: the numbers behind the last two slashes have none of their
own, whatever the topic has.  Printed forms are all of one length, so nothing is needed between them.
Hence only a collision, two names with one identity, could confuse two positions
(`Position.records_told_apart`) or two outputs (`Release.outputs_told_apart`).
-/
import Rendezvous.Proofs.Group.Growth
import Rendezvous.Proofs.Identity
import Rendezvous.Proofs.Text
import Rendezvous.Transport.Record

namespace Rendezvous

namespace Uuid

variable {space : Uuid} {a b : Bytes}

/-- Two names of a namespace that have one identity.  There are more names than identities, so some
names do; what follows asks it only of the two names at hand that they do not. -/
def Collide (space : Uuid) (a b : Bytes) : Prop := a ≠ b ∧ ofName space a = ofName space b

instance (space : Uuid) (a b : Bytes) : Decidable (space.Collide a b) :=
  inferInstanceAs (Decidable (_ ∧ _))

theorem ofName_eq_iff (h : ¬space.Collide a b) : ofName space a = ofName space b ↔ a = b := by
  refine ⟨fun heq => ?_, congrArg _⟩
  by_contra hne
  exact h ⟨hne, heq⟩

end Uuid

/-! ## Whole numbers -/

namespace Json

theorem sign_notMem_toDigits (n : Nat) : '-' ∉ Nat.toDigits 10 n := fun h =>
  absurd (Text.isDigit_of_mem_toDigits h) (by decide)

/-- A number is read back from its sign and its digits. -/
theorem intChars_injective : Function.Injective intChars := by
  intro m n h
  cases m with
  | ofNat m =>
    cases n with
    | ofNat n => exact congrArg Int.ofNat (Text.toDigits_injective h)
    | negSucc n =>
      have hsign : '-' ∈ intChars (.ofNat m) := h ▸ List.mem_cons_self
      exact absurd hsign (sign_notMem_toDigits m)
  | negSucc m =>
    cases n with
    | ofNat n =>
      have hsign : '-' ∈ intChars (.ofNat n) := h ▸ List.mem_cons_self
      exact absurd hsign (sign_notMem_toDigits n)
    | negSucc n =>
      have hsucc := Text.toDigits_injective (List.cons.inj h).2
      exact congrArg Int.negSucc (Nat.succ.inj hsucc)

theorem slash_notMem_intChars (n : Int) : '/' ∉ intChars n := by
  intro h
  cases n with
  | ofNat n => exact absurd (Text.isDigit_of_mem_toDigits h) (by decide)
  | negSucc n =>
    rcases List.mem_cons.mp h with hsign | hdigit
    · exact absurd hsign (by decide)
    · exact absurd (Text.isDigit_of_mem_toDigits hdigit) (by decide)

end Json

/-! ## Positions -/

section Separator

variable {α : Type} {separator : α} {front front' back back' : List α}

theorem more_eq_nil_of_separator {more : List α}
    (h : separator :: back = more ++ separator :: back') (hback : separator ∉ back) : more = [] := by
  cases more with
  | nil => rfl
  | cons a more =>
    have hrest : back = more ++ separator :: back' := (List.cons.inj h).2
    exact absurd (hrest ▸ List.mem_append_right more List.mem_cons_self) hback

/-- Two lists are cut at the same place by a separator that neither has behind it. -/
theorem eq_of_last_separator (h : front ++ separator :: back = front' ++ separator :: back')
    (hback : separator ∉ back) (hback' : separator ∉ back') : front = front' ∧ back = back' := by
  have hfront : front = front' := by
    rcases List.append_eq_append_iff.mp h with ⟨more, hmore, hrest⟩ | ⟨more, hmore, hrest⟩
    · rw [hmore, more_eq_nil_of_separator hrest hback, List.append_nil]
    · rw [hmore, more_eq_nil_of_separator hrest hback', List.append_nil]
  subst hfront
  exact ⟨rfl, (List.cons.inj (List.append_cancel_left h)).2⟩

end Separator

/-- No valid identity is among the headers. -/
def Headers.Anonymous (h : Headers) : Prop := (h.text? idName).bind Uuid.parse? = .none

instance (h : Headers) : Decidable h.Anonymous := inferInstanceAs (Decidable (_ = _))

namespace Position

/-- The topic may have slashes, so the name is read from its end. -/
theorem name_injective : Function.Injective name := by
  intro p q h
  obtain ⟨hfront, hoffset⟩ := eq_of_last_separator h (Json.slash_notMem_intChars _)
    (Json.slash_notMem_intChars _)
  obtain ⟨htopic, hpartition⟩ := eq_of_last_separator hfront (Json.slash_notMem_intChars _)
    (Json.slash_notMem_intChars _)
  obtain ⟨topic, partition, offset⟩ := p
  obtain rfl : topic = q.topic := String.toList_inj.mp (List.append_cancel_left htopic)
  obtain rfl : partition = q.partition := Json.intChars_injective hpartition
  obtain rfl : offset = q.offset := Json.intChars_injective hoffset
  rfl

theorem octets_name_inj {p q : Position} : Text.octets p.name = Text.octets q.name ↔ p = q :=
  ⟨fun h => name_injective (Text.octets_injective h), fun h => by rw [h]⟩

theorem id_message {h : Headers} (hid : h.Anonymous) (p : Position) (body : Option Bytes) :
    (p.message h body).id = p.identity := by
  show ((h.text? Headers.idName).bind Uuid.parse?).getD p.identity = p.identity
  rw [hid, Option.getD_none]

/-- Positions are the same if their names are, octet by octet.  Two records without a valid identity
are read as messages of one identity exactly if they stand at one position, whatever else is among
their headers and in their bodies, unless the names of their positions collide. -/
theorem records_told_apart (p q : Position) :
    (Text.octets p.name = Text.octets q.name → p = q) ∧
      ∀ (h h' : Headers) (body body' : Option Bytes), h.Anonymous → h'.Anonymous →
        ¬Uuid.urlSpace.Collide (Text.octets p.name) (Text.octets q.name) →
          ((p.message h body).id = (q.message h' body').id ↔ p = q) := by
  refine ⟨octets_name_inj.mp, fun h h' body body' hid hid' hapart => ?_⟩
  rw [id_message hid, id_message hid', identity, identity, Uuid.ofName_eq_iff hapart,
    octets_name_inj]

/-- A topic with a slash and a digit in it, and a header that is no identity. -/
theorem records_told_apart_of_slash :
    let p : Position := ⟨"events/1", 2, -3⟩
    let q : Position := ⟨"events", 1, 2⟩
    let h := Headers.none.putText Headers.idName "order-paid"
    h.Anonymous ∧ Headers.none.Anonymous ∧
      ¬Uuid.urlSpace.Collide (Text.octets p.name) (Text.octets q.name) ∧
      (p.message h none).id ≠ (q.message Headers.none (some [1])).id := by
  intro p q h
  have hid : h.Anonymous := by decide +kernel
  have hid' : Headers.none.Anonymous := by decide +kernel
  have hapart : ¬Uuid.urlSpace.Collide (Text.octets p.name) (Text.octets q.name) := by
    decide +kernel
  have hne : p ≠ q := by decide
  exact ⟨hid, hid', hapart,
    fun he => hne (((records_told_apart p q).2 h _ none _ hid hid' hapart).mp he)⟩

end Position

/-! ## Outputs -/

namespace Uuid

theorem chars_injective : Function.Injective chars := fun _ _ h =>
  text_injective (congrArg String.ofList h)

end Uuid

namespace Release

theorem seed_cons_ne_nil (u : Uuid) (us : List Uuid) : seed (u :: us) ≠ [] := by
  intro h
  have hlen := congrArg List.length h
  rw [seed, List.flatMap_cons, List.length_append, Uuid.length_chars, List.length_nil] at hlen
  omega

/-- Printed forms are taken from the seed one by one, as all have one length. -/
theorem seed_injective : Function.Injective seed := by
  intro us vs h
  induction us generalizing vs with
  | nil =>
    cases vs with
    | nil => rfl
    | cons v vs => exact absurd h.symm (seed_cons_ne_nil v vs)
  | cons u us ih =>
    cases vs with
    | nil => exact absurd h (seed_cons_ne_nil u us)
    | cons v vs =>
      have hlen : u.chars.length = v.chars.length := u.length_chars.trans v.length_chars.symm
      obtain ⟨hfirst, hrest⟩ := List.append_inj h hlen
      rw [Uuid.chars_injective hfirst, ih hrest]

theorem octets_seed_inj {us vs : List Uuid} :
    Text.octets (seed us) = Text.octets (seed vs) ↔ us = vs :=
  ⟨fun h => seed_injective (Text.octets_injective h), fun h => by rw [h]⟩

/-- The identity of an output is made from what it consumes, and from nothing else. -/
theorem id_message {names : HeaderNames} {g : Group} {r : Release}
    (h : processor names g = .ok (some r)) : r.message.id = identity r.consumed := by
  obtain ⟨sent, -, ⟨waiting, -, rfl⟩ | ⟨-, deployed, -, rfl⟩⟩ :=
    of?_eq_some_iff.mp (processor_eq_some_iff.mp h)
  · rfl
  · rfl

/-- Lists of identities are the same if the seeds made of them are.  Two outputs, of whatever groups,
have one identity exactly if they consume the same messages in the same order, unless their seeds
collide. -/
theorem outputs_told_apart (names names' : HeaderNames) (g g' : Group) :
    (∀ us vs : List Uuid, seed us = seed vs → us = vs) ∧
      ∀ r r', processor names g = .ok (some r) → processor names' g' = .ok (some r') →
        ¬Uuid.oidSpace.Collide (Text.octets (seed r.consumed)) (Text.octets (seed r'.consumed)) →
          (r.message.id = r'.message.id ↔ r.consumed = r'.consumed) := by
  refine ⟨fun us vs h => seed_injective h, fun r r' hr hr' hapart => ?_⟩
  rw [id_message hr, id_message hr', identity, identity, Uuid.ofName_eq_iff hapart,
    octets_seed_inj]

/-- A payment that starts a process, and the same payment delivered to an execution of another
order. -/
theorem outputs_told_apart_of_payment :
    let launched := launch {} "order-paid:42" (paidOrder 5 .startDeployed) (paidOrder 1 .sent)
    let delivered := delivery {} "order-paid:43" (paidOrder 1 .sent) (paidOrder 4 .waiting)
    processor {} ⟨"order-paid:42", [paidOrder 5 .startDeployed, paidOrder 1 .sent],
        Stamp.start2025, Stamp.start2025⟩ = .ok (some launched) ∧
      processor {} ⟨"order-paid:43", [paidOrder 1 .sent, paidOrder 4 .waiting],
        Stamp.start2025, Stamp.start2025⟩ = .ok (some delivered) ∧
      ¬Uuid.oidSpace.Collide (Text.octets (seed launched.consumed))
        (Text.octets (seed delivered.consumed)) ∧
      launched.message.id ≠ delivered.message.id := by
  intro launched delivered
  have hlaunched : processor {} ⟨"order-paid:42", [paidOrder 5 .startDeployed, paidOrder 1 .sent],
      Stamp.start2025, Stamp.start2025⟩ = .ok (some launched) :=
    processor_eq_some_iff.mpr (of?_eq_some_iff_made.mpr
      ⟨paidOrder 1 .sent, rfl, .inr ⟨rfl, paidOrder 5 .startDeployed, rfl, rfl⟩⟩)
  have hdelivered : processor {} ⟨"order-paid:43", [paidOrder 1 .sent, paidOrder 4 .waiting],
      Stamp.start2025, Stamp.start2025⟩ = .ok (some delivered) :=
    processor_eq_some_iff.mpr (of?_eq_some_iff_made.mpr
      ⟨paidOrder 1 .sent, rfl, .inl ⟨paidOrder 4 .waiting, rfl, rfl⟩⟩)
  have hapart : ¬Uuid.oidSpace.Collide (Text.octets (seed launched.consumed))
      (Text.octets (seed delivered.consumed)) := by decide +kernel
  have hne : launched.consumed ≠ delivered.consumed := by decide
  exact ⟨hlaunched, hdelivered, hapart, fun he =>
    hne (((outputs_told_apart {} {} _ _).2 _ _ hlaunched hdelivered hapart).mp he)⟩

end Release
end Rendezvous
