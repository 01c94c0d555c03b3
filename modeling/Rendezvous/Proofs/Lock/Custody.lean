/-
Who has which lock.

A party stands away from the locks, in the queue of one, or inside.  A dealing is what one step
of a party may do at the desk: nothing, take a free lock, line up, go inside once the lock was
handed over, or leave.  `Custody` relates the desk to where all parties stand: every lock that
is held and every place in a queue belongs to exactly one party, and who is inside holds the
lock.  It is kept by every dealing (`Custody.deal`), and it gives mutual exclusion
(`Custody.exclusive`) and that a party in a queue holds nothing (`Custody.not_holder`).
-/
import Rendezvous.Lock.Desk

namespace Rendezvous

/-- Where a party stands towards the locks. -/
inductive Post where
  | away
  | queued (key : String) (ticket : Ticket)
  | inside (key : String) (ticket : Ticket)
deriving DecidableEq

/-- The lock a party has to do with, and its ticket for it. -/
def Post.ticket? : Post → Option (String × Ticket)
  | away => none
  | queued key t => some (key, t)
  | inside key t => some (key, t)

/-- The desk changed at one lock only. -/
structure Desk.Change (d d' : Desk) (key : String) (l : KeyLock) (issued : Nat) : Prop where
  lock : ∀ other, d'.table.lock other = if other = key then l else d.table.lock other
  issued : d'.issued = issued
  raised : d'.raised = d.raised

/-- What a step of a party may do at the desk. -/
inductive Dealing (d : Desk) : Post → Desk → Post → Prop
  | rest {d' p} (key) (change : d.Change d' key (d.table.lock key) d.issued) : Dealing d p d' p
  | take {d' p} (key) (free : (d.table.lock key).holder = none)
      (change : d.Change d' key ⟨some d.issued, (d.table.lock key).queue⟩ (d.issued + 1))
      (post : p = .queued key d.issued ∨ p = .inside key d.issued) : Dealing d .away d' p
  | line {d'} (key)
      (change : d.Change d' key
        ⟨(d.table.lock key).holder, (d.table.lock key).queue ++ [d.issued]⟩ (d.issued + 1)) :
      Dealing d .away d' (.queued key d.issued)
  | enter {d' key t} (handed : (d.table.lock key).holder = some t)
      (change : d.Change d' key (d.table.lock key) d.issued) :
      Dealing d (.queued key t) d' (.inside key t)
  | leave {d' p key t} (post : p.ticket? = some (key, t))
      (change : d.Change d' key ((d.table.lock key).forget t) d.issued) : Dealing d p d' .away

theorem Dealing.raised {d d' : Desk} {p p' : Post} (h : Dealing d p d' p') :
    d'.raised = d.raised := by
  cases h with
  | rest key change => exact change.raised
  | take key free change post => exact change.raised
  | line key change => exact change.raised
  | enter handed change => exact change.raised
  | leave post change => exact change.raised

/-! ## The operations of the desk as changes -/

namespace Desk

theorem change_rfl (d : Desk) (key : String) : d.Change d key (d.table.lock key) d.issued :=
  ⟨fun _ => by split <;> simp_all, rfl, rfl⟩

theorem change_grant (d : Desk) (key : String) :
    d.Change (d.grant key).1 key ⟨some d.issued, (d.table.lock key).queue⟩ (d.issued + 1) :=
  ⟨fun _ => LockTable.lock_update _ _ _ _, rfl, rfl⟩

theorem change_obtain (d : Desk) (key : String) :
    d.Change { d with table := d.table.obtain key } key (d.table.lock key) d.issued :=
  ⟨fun _ => LockTable.lock_update _ _ _ _, rfl, rfl⟩

theorem change_leave (d : Desk) (key : String) (t : Ticket) :
    d.Change (d.leave key t) key ((d.table.lock key).forget t) d.issued :=
  ⟨fun _ => LockTable.lock_update _ _ _ _, rfl, rfl⟩

theorem change_enqueue (d : Desk) (key : String) :
    d.Change { d with table := d.table.enqueue key d.issued, issued := d.issued + 1 } key
      ⟨(d.table.lock key).holder, (d.table.lock key).queue ++ [d.issued]⟩ (d.issued + 1) :=
  ⟨fun _ => LockTable.lock_update _ _ _ _, rfl, rfl⟩

theorem Change.trans {d d' d'' : Desk} {key : String} {l l' : KeyLock} {n n' : Nat}
    (h : d.Change d' key l n) (h' : d'.Change d'' key l' n') : d.Change d'' key l' n' := by
  refine ⟨fun other => ?_, h'.issued, h'.raised.trans h.raised⟩
  rw [h'.lock, h.lock]
  split <;> rfl

theorem Change.self {d d' : Desk} {key : String} {l : KeyLock} {n : Nat}
    (h : d.Change d' key l n) : d'.table.lock key = l := by
  rw [h.lock, if_pos rfl]

theorem Change.other {d d' : Desk} {key other : String} {l : KeyLock} {n : Nat}
    (h : d.Change d' key l n) (ho : other ≠ key) : d'.table.lock other = d.table.lock other := by
  rw [h.lock, if_neg ho]

/-- A change that puts back what was there. -/
theorem Change.same {d d' : Desk} {key : String} {n : Nat}
    (h : d.Change d' key (d.table.lock key) n) (other : String) :
    d'.table.lock other = d.table.lock other := by
  rw [h.lock]
  split
  · next ho => rw [ho]
  · rfl

end Desk

/-! ## A lock and its queue -/

namespace KeyLock

/-- No ticket stands twice at the lock. -/
structure Proper (l : KeyLock) : Prop where
  single : ∀ t, l.holder = some t → t ∉ l.queue
  nodup : l.queue.Nodup

variable {l : KeyLock} {t u : Ticket}

theorem forget_of_holder (h : l.holder = some t) : l.forget t = l.pass := if_pos h

theorem forget_of_ne (h : l.holder ≠ some t) :
    l.forget t = ⟨l.holder, l.queue.filter (· ≠ t)⟩ := if_neg h

/-- Who waits after a ticket was forgotten waited before, and with another ticket. -/
theorem mem_queue_forget (hl : l.Proper) (h : u ∈ (l.forget t).queue) :
    u ∈ l.queue ∧ u ≠ t := by
  by_cases hh : l.holder = some t
  · rw [forget_of_holder hh, pass] at h
    cases hq : l.queue with
    | nil => rw [hq] at h; cases h
    | cons next rest =>
      rw [hq] at h
      have hu : u ∈ l.queue := hq ▸ List.mem_cons_of_mem _ h
      refine ⟨hq ▸ hu, ?_⟩
      rintro rfl
      exact hl.single u hh hu
  · rw [forget_of_ne hh] at h
    simpa using h

/-- Who holds the lock after a ticket was forgotten stood at it before, with another ticket. -/
theorem holder_forget (hl : l.Proper) (h : (l.forget t).holder = some u) :
    (l.holder = some u ∨ u ∈ l.queue) ∧ u ≠ t := by
  by_cases hh : l.holder = some t
  · rw [forget_of_holder hh, pass] at h
    cases hq : l.queue with
    | nil => rw [hq] at h; cases h
    | cons next rest =>
      rw [hq] at h
      obtain rfl : next = u := Option.some.inj h
      have hu : next ∈ l.queue := hq ▸ List.mem_cons_self
      refine ⟨Or.inr List.mem_cons_self, ?_⟩
      rintro rfl
      exact hl.single next hh hu
  · rw [forget_of_ne hh] at h
    refine ⟨Or.inl h, ?_⟩
    rintro rfl
    exact hh h

theorem holder_forget_of_ne (hut : u ≠ t) (h : l.holder = some u) :
    (l.forget t).holder = some u := by
  rw [forget_of_ne]
  · exact h
  · rw [h]
    exact fun e => hut (Option.some.inj e)

theorem stays_of_mem_queue (hut : u ≠ t) (h : u ∈ l.queue) :
    (l.forget t).holder = some u ∨ u ∈ (l.forget t).queue := by
  by_cases hh : l.holder = some t
  · rw [forget_of_holder hh, pass]
    cases hq : l.queue with
    | nil => rw [hq] at h; cases h
    | cons next rest =>
      rw [hq] at h
      rcases List.mem_cons.mp h with rfl | h
      · exact Or.inl rfl
      · exact Or.inr h
  · rw [forget_of_ne hh]
    exact Or.inr (by simpa using ⟨h, hut⟩)

theorem Proper.forget (hl : l.Proper) (t : Ticket) : (l.forget t).Proper := by
  by_cases hh : l.holder = some t
  · rw [forget_of_holder hh, pass]
    cases hq : l.queue with
    | nil => exact ⟨fun _ _ => List.not_mem_nil, List.nodup_nil⟩
    | cons next rest =>
      have hn := hl.nodup
      rw [hq] at hn
      obtain ⟨hnext, hrest⟩ := List.nodup_cons.mp hn
      exact ⟨fun u hu => Option.some.inj hu ▸ hnext, hrest⟩
  · rw [forget_of_ne hh]
    exact ⟨fun u hu hm => hl.single u hu (List.mem_filter.mp hm).1, hl.nodup.filter _⟩

end KeyLock

/-! ## Custody -/

/-- The desk and the places of the parties agree. -/
structure Custody (d : Desk) (post : Nat → Post) : Prop where
  held : ∀ {key t}, (d.table.lock key).holder = some t → ∃ i, (post i).ticket? = some (key, t)
  lined : ∀ {key t}, t ∈ (d.table.lock key).queue → ∃ i, post i = .queued key t
  inside : ∀ {i key t}, post i = .inside key t → (d.table.lock key).holder = some t
  queued : ∀ {i key t}, post i = .queued key t →
    (d.table.lock key).holder = some t ∨ t ∈ (d.table.lock key).queue
  issued : ∀ {i key t}, (post i).ticket? = some (key, t) → t < d.issued
  apart : ∀ {i j key key' t}, (post i).ticket? = some (key, t) →
    (post j).ticket? = some (key', t) → i = j
  proper : ∀ key, (d.table.lock key).Proper

namespace Custody

variable {d d' : Desk} {post : Nat → Post}

theorem start : Custody Desk.empty fun _ => .away := by
  have hlock (key : String) : Desk.empty.table.lock key = KeyLock.free := rfl
  have hproper : KeyLock.free.Proper := ⟨fun _ _ => List.not_mem_nil, List.nodup_nil⟩
  refine ⟨?_, ?_, ?_, ?_, ?_, ?_, fun key => hlock key ▸ hproper⟩ <;>
    simp [hlock, KeyLock.free, Post.ticket?]

/-- At most one party is inside a lock. -/
theorem exclusive (h : Custody d post) {i j : Nat} {key : String} {t t' : Ticket}
    (hi : post i = .inside key t) (hj : post j = .inside key t') : i = j := by
  have ht : t = t' := Option.some.inj ((h.inside hi).symm.trans (h.inside hj))
  subst ht
  have hti : (post i).ticket? = some (key, t) := by rw [hi]; rfl
  have htj : (post j).ticket? = some (key, t) := by rw [hj]; rfl
  exact h.apart hti htj

/-- Custody is about the locks and the tickets, not about the interrupt. -/
theorem congr (h : Custody d post) (ht : d'.table = d.table) (hi : d'.issued = d.issued) :
    Custody d' post := by
  obtain ⟨table, raised, issued⟩ := d
  obtain ⟨table', raised', issued'⟩ := d'
  obtain rfl : table' = table := ht
  obtain rfl : issued' = issued := hi
  exact ⟨h.held, h.lined, h.inside, h.queued, h.issued, h.apart, h.proper⟩

/-! ## Dealings keep custody -/

section
variable {post' : Nat → Post} {i : Nat} {key : String}

/-- A step that leaves the locks as they are, by a party that keeps its place. -/
theorem rest (h : Custody d post) (hd : d.Change d' key (d.table.lock key) d.issued)
    (hp : ∀ j, post' j = post j) : Custody d' post' := by
  have hpost : post' = post := funext hp
  subst hpost
  constructor
  · intro k t; rw [hd.same]; exact h.held
  · intro k t; rw [hd.same]; exact h.lined
  · intro j k t; rw [hd.same]; exact h.inside
  · intro j k t; rw [hd.same]; exact h.queued
  · intro j k t; rw [hd.issued]; exact h.issued
  · exact h.apart
  · intro k; rw [hd.same]; exact h.proper k

/-- A party that was handed its lock goes inside. -/
theorem enter (h : Custody d post) {t : Ticket} (hi : post i = .queued key t)
    (hh : (d.table.lock key).holder = some t)
    (hd : d.Change d' key (d.table.lock key) d.issued)
    (hp : ∀ j, post' j = if j = i then .inside key t else post j) : Custody d' post' := by
  have htick : ∀ j, (post' j).ticket? = (post j).ticket? := by
    intro j
    rw [hp]
    split
    · next hj => rw [hj, hi]; rfl
    · rfl
  constructor
  · intro k u; rw [hd.same]; simp only [htick]; exact h.held
  · intro k u
    rw [hd.same]
    intro hu
    obtain ⟨j, hj⟩ := h.lined hu
    refine ⟨j, ?_⟩
    rw [hp, if_neg, hj]
    rintro rfl
    rw [hi] at hj
    obtain ⟨rfl, rfl⟩ : key = k ∧ t = u := by simpa using hj
    exact (h.proper _).single _ hh hu
  · intro j k u hj
    rw [hd.same]
    rw [hp] at hj
    split at hj
    · obtain ⟨rfl, rfl⟩ : key = k ∧ t = u := by simpa using hj
      exact hh
    · exact h.inside hj
  · intro j k u hj
    rw [hd.same]
    rw [hp] at hj
    split at hj
    · cases hj
    · exact h.queued hj
  · intro j k u; rw [hd.issued, htick]; exact h.issued
  · intro j j' k k' u; rw [htick, htick]; exact h.apart
  · intro k; rw [hd.same]; exact h.proper k

/-- A new ticket is nobody else's. -/
theorem fresh (h : Custody d post) {j : Nat} {k : String} :
    (post j).ticket? ≠ some (k, d.issued) :=
  fun hj => Nat.lt_irrefl _ (h.issued hj)

theorem fresh_queue (h : Custody d post) (k : String) :
    d.issued ∉ (d.table.lock k).queue := by
  intro hq
  obtain ⟨j, hj⟩ := h.lined hq
  exact h.fresh (j := j) (k := k) (by rw [hj]; rfl)

theorem fresh_holder (h : Custody d post) (k : String) :
    (d.table.lock k).holder ≠ some d.issued := by
  intro hh
  obtain ⟨j, hj⟩ := h.held hh
  exact h.fresh hj

/-- A party that stood away takes a free lock with a new ticket. -/
theorem take (h : Custody d post) (hi : post i = .away)
    (hfree : (d.table.lock key).holder = none) {p : Post}
    (hp' : p = .queued key d.issued ∨ p = .inside key d.issued)
    (hd : d.Change d' key ⟨some d.issued, (d.table.lock key).queue⟩ (d.issued + 1))
    (hp : ∀ j, post' j = if j = i then p else post j) : Custody d' post' := by
  have ht : p.ticket? = some (key, d.issued) := by rcases hp' with rfl | rfl <;> rfl
  have hq (k : String) : (d'.table.lock k).queue = (d.table.lock k).queue := by
    rw [hd.lock]
    split
    · next hk => rw [hk]
    · rfl
  have hold {k : String} {t : Ticket} : (d'.table.lock k).holder = some t ↔
      (k = key ∧ t = d.issued) ∨ (d.table.lock k).holder = some t := by
    rw [hd.lock]
    split
    · next hk => subst hk; simp [hfree, eq_comm]
    · next hk => simp [hk]
  constructor
  · intro k t hh
    rcases hold.mp hh with ⟨rfl, rfl⟩ | hh
    · exact ⟨i, by rw [hp, if_pos rfl, ht]⟩
    · obtain ⟨j, hj⟩ := h.held hh
      refine ⟨j, ?_⟩
      rw [hp, if_neg, hj]
      rintro rfl
      rw [hi] at hj
      cases hj
  · intro k t hm
    rw [hq] at hm
    obtain ⟨j, hj⟩ := h.lined hm
    refine ⟨j, ?_⟩
    rw [hp, if_neg, hj]
    rintro rfl
    rw [hi] at hj
    cases hj
  · intro j k t hj
    rw [hp] at hj
    split at hj
    · rw [hj] at ht
      obtain ⟨rfl, rfl⟩ : k = key ∧ t = d.issued := by simpa [Post.ticket?] using ht
      exact hold.mpr (Or.inl ⟨rfl, rfl⟩)
    · exact hold.mpr (Or.inr (h.inside hj))
  · intro j k t hj
    rw [hp] at hj
    split at hj
    · rw [hj] at ht
      obtain ⟨rfl, rfl⟩ : k = key ∧ t = d.issued := by simpa [Post.ticket?] using ht
      exact Or.inl (hold.mpr (Or.inl ⟨rfl, rfl⟩))
    · rw [hq]
      exact (h.queued hj).imp (fun hh => hold.mpr (Or.inr hh)) id
  · intro j k t hj
    rw [hd.issued]
    rw [hp] at hj
    split at hj
    · rw [ht] at hj
      obtain ⟨-, rfl⟩ : key = k ∧ d.issued = t := by simpa using hj
      exact Nat.lt_succ_self _
    · exact Nat.lt_succ_of_lt (h.issued hj)
  · intro j j' k k' t hj hj'
    rw [hp] at hj hj'
    split at hj <;> split at hj'
    · next e e' => rw [e, e']
    · rw [ht] at hj
      obtain ⟨-, rfl⟩ : key = k ∧ d.issued = t := by simpa using hj
      exact absurd hj' h.fresh
    · rw [ht] at hj'
      obtain ⟨-, rfl⟩ : key = k' ∧ d.issued = t := by simpa using hj'
      exact absurd hj h.fresh
    · exact h.apart hj hj'
  · intro k
    refine ⟨fun t hh => ?_, hq k ▸ (h.proper k).nodup⟩
    rw [hq]
    rcases hold.mp hh with ⟨rfl, rfl⟩ | hh
    · exact h.fresh_queue _
    · exact (h.proper k).single t hh

/-- A party that stood away lines up with a new ticket. -/
theorem line (h : Custody d post) (hi : post i = .away)
    (hd : d.Change d' key
      ⟨(d.table.lock key).holder, (d.table.lock key).queue ++ [d.issued]⟩ (d.issued + 1))
    (hp : ∀ j, post' j = if j = i then .queued key d.issued else post j) :
    Custody d' post' := by
  have hh (k : String) : (d'.table.lock k).holder = (d.table.lock k).holder := by
    rw [hd.lock]
    split
    · next hk => rw [hk]
    · rfl
  have hq {k : String} {t : Ticket} : t ∈ (d'.table.lock k).queue ↔
      (k = key ∧ t = d.issued) ∨ t ∈ (d.table.lock k).queue := by
    rw [hd.lock]
    split
    · next hk => subst hk; simp [or_comm]
    · next hk => simp [hk]
  have hne {j : Nat} {k : String} {t : Ticket} (hj : (post j).ticket? = some (k, t)) : j ≠ i := by
    rintro rfl
    rw [hi] at hj
    cases hj
  constructor
  · intro k t hk
    rw [hh] at hk
    obtain ⟨j, hj⟩ := h.held hk
    exact ⟨j, by rw [hp, if_neg (hne hj), hj]⟩
  · intro k t hm
    rcases hq.mp hm with ⟨rfl, rfl⟩ | hm
    · exact ⟨i, by rw [hp, if_pos rfl]⟩
    · obtain ⟨j, hj⟩ := h.lined hm
      exact ⟨j, by rw [hp, if_neg (hne (k := k) (t := t) (by rw [hj]; rfl)), hj]⟩
  · intro j k t hj
    rw [hh]
    rw [hp] at hj
    split at hj
    · cases hj
    · exact h.inside hj
  · intro j k t hj
    rw [hh]
    rw [hp] at hj
    split at hj
    · obtain ⟨rfl, rfl⟩ : key = k ∧ d.issued = t := by simpa using hj
      exact Or.inr (hq.mpr (Or.inl ⟨rfl, rfl⟩))
    · exact (h.queued hj).imp id fun hm => hq.mpr (Or.inr hm)
  · intro j k t hj
    rw [hd.issued]
    rw [hp] at hj
    split at hj
    · obtain ⟨-, rfl⟩ : key = k ∧ d.issued = t := by simpa [Post.ticket?] using hj
      exact Nat.lt_succ_self _
    · exact Nat.lt_succ_of_lt (h.issued hj)
  · intro j j' k k' t hj hj'
    rw [hp] at hj hj'
    split at hj <;> split at hj'
    · next e e' => rw [e, e']
    · obtain ⟨-, rfl⟩ : key = k ∧ d.issued = t := by simpa [Post.ticket?] using hj
      exact absurd hj' h.fresh
    · obtain ⟨-, rfl⟩ : key = k' ∧ d.issued = t := by simpa [Post.ticket?] using hj'
      exact absurd hj h.fresh
    · exact h.apart hj hj'
  · intro k
    refine ⟨fun t hk hm => ?_, ?_⟩
    · rw [hh] at hk
      rcases hq.mp hm with ⟨rfl, rfl⟩ | hm
      · exact h.fresh_holder _ hk
      · exact (h.proper k).single t hk hm
    · rw [hd.lock]
      split
      · refine List.nodup_append.mpr ⟨(h.proper key).nodup, by simp, fun a ha b hb => ?_⟩
        rintro rfl
        rw [List.mem_singleton.mp hb] at ha
        exact h.fresh_queue _ ha
      · exact (h.proper k).nodup

/-- A party gives up its lock or its place in the queue. -/
theorem leave (h : Custody d post) {t : Ticket} (hi : (post i).ticket? = some (key, t))
    (hd : d.Change d' key ((d.table.lock key).forget t) d.issued)
    (hp : ∀ j, post' j = if j = i then .away else post j) : Custody d' post' := by
  have hother {j : Nat} {k : String} {u : Ticket} (hj : (post j).ticket? = some (k, u))
      (hu : u ≠ t) : post' j = post j := by
    rw [hp, if_neg]
    rintro rfl
    rw [hi] at hj
    exact hu (Prod.mk.inj (Option.some.inj hj)).2.symm
  have hne {j : Nat} {k : String} {u : Ticket} (hj : (post' j).ticket? = some (k, u)) :
      (post j).ticket? = some (k, u) ∧ post' j = post j ∧ u ≠ t := by
    rw [hp] at hj ⊢
    split at hj
    · cases hj
    · next hji =>
      rw [if_neg hji]
      refine ⟨hj, rfl, ?_⟩
      rintro rfl
      exact hji (h.apart hj hi)
  have hqueue {k : String} {u : Ticket} (hu : u ∈ (d'.table.lock k).queue) :
      u ∈ (d.table.lock k).queue ∧ u ≠ t := by
    rw [hd.lock] at hu
    split at hu
    · next hk => exact hk ▸ KeyLock.mem_queue_forget (h.proper key) hu
    · next hk =>
      refine ⟨hu, ?_⟩
      rintro rfl
      obtain ⟨j, hj⟩ := h.lined hu
      have htj : (post j).ticket? = some (k, u) := by rw [hj]; rfl
      have hji : j = i := h.apart htj hi
      rw [← hji, hj] at hi
      exact hk (Prod.mk.inj (Option.some.inj hi)).1
  constructor
  · intro k u hu
    have hstood : ((d.table.lock k).holder = some u ∨ u ∈ (d.table.lock k).queue) ∧ u ≠ t := by
      rw [hd.lock] at hu
      split at hu
      · next hk => exact hk ▸ KeyLock.holder_forget (h.proper key) hu
      · next hk =>
        refine ⟨Or.inl hu, ?_⟩
        rintro rfl
        obtain ⟨j, hj⟩ := h.held hu
        rw [h.apart hj hi, hi] at hj
        exact hk (Prod.mk.inj (Option.some.inj hj)).1.symm
    obtain ⟨hstood, hut⟩ := hstood
    have howner : ∃ j, (post j).ticket? = some (k, u) := by
      rcases hstood with hu | hu
      · exact h.held hu
      · obtain ⟨j, hj⟩ := h.lined hu
        exact ⟨j, by rw [hj]; rfl⟩
    obtain ⟨j, hj⟩ := howner
    exact ⟨j, by rw [hother hj hut, hj]⟩
  · intro k u hu
    obtain ⟨hu, hut⟩ := hqueue hu
    obtain ⟨j, hj⟩ := h.lined hu
    exact ⟨j, by rw [hother (k := k) (u := u) (by rw [hj]; rfl) hut, hj]⟩
  · intro j k u hj
    obtain ⟨-, hsame, hut⟩ := hne (j := j) (k := k) (u := u) (by rw [hj]; rfl)
    have hh := h.inside (hsame ▸ hj)
    rw [hd.lock]
    split
    · next hk => exact KeyLock.holder_forget_of_ne hut (hk ▸ hh)
    · exact hh
  · intro j k u hj
    obtain ⟨-, hsame, hut⟩ := hne (j := j) (k := k) (u := u) (by rw [hj]; rfl)
    have hstood := h.queued (hsame ▸ hj)
    rw [hd.lock]
    split
    · next hk =>
      subst hk
      rcases hstood with hu | hu
      · exact Or.inl (KeyLock.holder_forget_of_ne hut hu)
      · exact KeyLock.stays_of_mem_queue hut hu
    · exact hstood
  · intro j k u hj
    rw [hd.issued]
    exact h.issued (hne hj).1
  · intro j j' k k' u hj hj'
    exact h.apart (hne hj).1 (hne hj').1
  · intro k
    rw [hd.lock]
    split
    · exact (h.proper key).forget t
    · exact h.proper k

theorem deal (h : Custody d post) {p : Post} (hd : Dealing d (post i) d' p)
    (hp : ∀ j, post' j = if j = i then p else post j) : Custody d' post' := by
  generalize hq : post i = q at hd
  cases hd with
  | rest key change =>
    refine h.rest change fun j => ?_
    rw [hp]
    split
    · next hj => rw [hj, hq]
    · rfl
  | take key free change place => exact h.take hq free place change hp
  | line key change => exact h.line hq change hp
  | enter handed change => exact h.enter hq handed change hp
  | leave place change => exact h.leave (hq ▸ place) change hp

end

end Custody
end Rendezvous
