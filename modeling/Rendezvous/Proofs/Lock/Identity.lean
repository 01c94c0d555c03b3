/-
The identity of a lock.

A conversation is locked by its lock key, the printed form of an identity, and in a shared database
by a number that is folded from the same identity.  The printed form is read back as that identity,
so a lock key is its own lock key and has the number of the key it was made from; and as spelling is
forgotten when a key is read, all spellings of one identity have one lock key.  The locks of one
process go by the text they are asked for, whatever it spells (`Desk.oneLock_iff`): there a key and
its lock key are one lock exactly if the key is a printed form (`lock_identity_canonical`).
-/
import Rendezvous.Correlation
import Rendezvous.Proofs.Lock.Custody
import Rendezvous.Proofs.Spelling

namespace Rendezvous

namespace CorrelationKey

variable {key : CorrelationKey} {u : Uuid}

/-- A lock key stands for the identity it was printed from. -/
theorem identity_lockKey (key : CorrelationKey) : identity (lockKey key) = identity key := by
  rw [identity, lockKey, Uuid.parse?_text, Option.getD_some]

theorem lockKey_lockKey (key : CorrelationKey) : lockKey (lockKey key) = lockKey key :=
  congrArg Uuid.text (identity_lockKey key)

theorem advisoryId_lockKey (key : CorrelationKey) : advisoryId (lockKey key) = advisoryId key :=
  congrArg Uuid.fold (identity_lockKey key)

theorem printed_lockKey (key : CorrelationKey) : Uuid.Printed (lockKey key) :=
  Uuid.printed_iff.mpr ⟨identity key, rfl⟩

/-- The lock key of a spelling is the printed form of what it spells. -/
theorem lockKey_of_spelled (h : u.Spelled key) : lockKey key = u.text := by
  rw [lockKey, identity, Uuid.parse?_eq_some_iff.mpr h, Option.getD_some]

/-- Keys that are their own lock keys are the printed forms. -/
theorem lockKey_eq_self_iff : lockKey key = key ↔ Uuid.Printed key := by
  constructor
  · intro h
    rw [← h]
    exact printed_lockKey key
  · intro h
    obtain ⟨u, rfl⟩ := Uuid.printed_iff.mp h
    rw [lockKey, identity, Uuid.parse?_text, Option.getD_some]

end CorrelationKey

/-! ## The locks of one process -/

namespace Desk

/-- Who holds the lock of the first text keeps everyone out of the lock of the second. -/
def OneLock (key key' : String) : Prop :=
  ∀ (d : Desk) (t : Ticket), d.table.holds key t = true → (d.request key' .never).2 = .busy

/-- A request that does not wait is refused exactly if the lock is held. -/
theorem request_never_eq_busy_iff {d : Desk} {key : String} :
    (d.request key .never).2 = .busy ↔ ∃ t, (d.table.lock key).holder = some t := by
  have hlock : (d.table.obtain key).lock key = d.table.lock key := (d.change_obtain key).self
  simp only [request, Patience.heeds, Bool.false_and, Bool.false_eq_true, if_false,
    LockTable.isFree, hlock]
  cases (d.table.lock key).holder with
  | none => simp
  | some t => simp

theorem oneLock_iff {key key' : String} : OneLock key key' ↔ key' = key := by
  constructor
  · intro h
    have hgrant := empty.change_grant key
    have hholds : (empty.grant key).1.table.holds key empty.issued = true := by
      rw [LockTable.holds, hgrant.self]
      exact decide_eq_true rfl
    obtain ⟨t, ht⟩ := request_never_eq_busy_iff.mp (h _ _ hholds)
    by_contra hne
    rw [hgrant.other hne] at ht
    cases ht
  · rintro rfl d t hholds
    exact request_never_eq_busy_iff.mpr ⟨t, of_decide_eq_true hholds⟩

end Desk

/-- A lock key is its own lock key and a printed form.  The texts that spell an identity, in any
letter case, are those that are read as it, and all of them have one lock key.  The number in a
shared database is the same for a key and its lock key.  In one process a key and its lock key are
one lock exactly if the key is a printed form, and two lock keys, one made from the other, always
are. -/
theorem lock_identity_canonical (key : CorrelationKey) :
    CorrelationKey.lockKey key.lockKey = key.lockKey ∧
      Uuid.Printed key.lockKey ∧
      (∀ u : Uuid, Uuid.parse? key = some u ↔ u.Spelled key) ∧
      (∀ (u : Uuid) (key' : CorrelationKey), u.Spelled key → u.Spelled key' →
        key'.lockKey = key.lockKey) ∧
      CorrelationKey.advisoryId key.lockKey = key.advisoryId ∧
      (Desk.OneLock key key.lockKey ↔ Uuid.Printed key) ∧
      Desk.OneLock key.lockKey (CorrelationKey.lockKey key.lockKey) := by
  refine ⟨key.lockKey_lockKey, key.printed_lockKey, fun u => Uuid.parse?_eq_some_iff,
    fun u key' hkey hkey' => ?_, key.advisoryId_lockKey, ?_,
    Desk.oneLock_iff.mpr key.lockKey_lockKey⟩
  · rw [CorrelationKey.lockKey_of_spelled hkey, CorrelationKey.lockKey_of_spelled hkey']
  · rw [Desk.oneLock_iff, CorrelationKey.lockKey_eq_self_iff]

/-- An identity in braces and as a resource name, in mixed letter case. -/
theorem lock_identity_canonical_of_spellings :
    (Uuid.ofNat 0x6f1c1a538a4e4f559a0b1d2c3e4f5a6b).Spelled
        "\x7b6F1C1A53-8a4e-4F55-9a0b-1D2C3E4F5A6B\x7d" ∧
      (Uuid.ofNat 0x6f1c1a538a4e4f559a0b1d2c3e4f5a6b).Spelled
        "URN:uuid:6f1c1a53-8A4E-4f55-9A0B-1d2c3e4f5a6b" ∧
      CorrelationKey.lockKey "URN:uuid:6f1c1a53-8A4E-4f55-9A0B-1d2c3e4f5a6b" =
        CorrelationKey.lockKey "\x7b6F1C1A53-8a4e-4F55-9a0b-1D2C3E4F5A6B\x7d" := by
  have hbraced : (Uuid.ofNat 0x6f1c1a538a4e4f559a0b1d2c3e4f5a6b).Spelled
      "\x7b6F1C1A53-8a4e-4F55-9a0b-1D2C3E4F5A6B\x7d" := by decide +kernel
  have hname : (Uuid.ofNat 0x6f1c1a538a4e4f559a0b1d2c3e4f5a6b).Spelled
      "URN:uuid:6f1c1a53-8A4E-4f55-9A0B-1d2c3e4f5a6b" := by decide +kernel
  exact ⟨hbraced, hname, (lock_identity_canonical _).2.2.2.1 _ _ hbraced hname⟩

/-- In one process a key and its lock key are not always one lock. -/
theorem not_always_one_lock : ¬∀ key : CorrelationKey, Desk.OneLock key key.lockKey := by
  intro h
  have hholds : ((Desk.empty.grant "order-paid:42").1.table.holds "order-paid:42" 0) = true := rfl
  exact absurd (h "order-paid:42" _ 0 hholds) (by decide +kernel)

end Rendezvous
