/-
The history of a world, and what it says about the groups.

The journal tells more than the state does: it keeps what was appended, accepted and removed, and
which calls of the handlers failed.  These entries are the deeds, and the history of a world is
the list of its deeds, newest first.  `page` reads off the history what it says about one key,
namely the messages that are pending and the release that was accepted but whose messages are
still there.  A history is lawful if every deed was legal when it was done: a message is appended
only if it is not there, an output is accepted only if the pending messages yield it, and messages
are removed only after an accepted output consumed them or as the registrations of a cancelled
subscription.

A world is faithful if its groups are what its history says and its history is lawful.  Claims
about what happened to a message are then claims about lawful lists of deeds.
-/
import Mathlib.Data.List.Nodup
import Rendezvous.Flow.World
import Rendezvous.Proofs.Group.Yield

namespace Rendezvous

/-- An entry of the journal that groups or claims depend on. -/
inductive Deed where
  | append (key : CorrelationKey) (message : EventMessage)
  | accept (key : CorrelationKey) (release : Release)
  | remove (key : CorrelationKey) (ids : List Uuid) (why : Removal)
  | settle (id : Uuid) (success : Bool)

def Event.deed? : Event → Option Deed
  | .appended key m => some (.append key m)
  | .accepted key r => some (.accept key r)
  | .removed key ids why => some (.remove key ids why)
  | .settled id success => some (.settle id success)
  | _ => none

/-- The deeds in the journal, newest first. -/
def World.history {κ : Type} (w : World κ) : List Deed := w.journal.filterMap Event.deed?

def Deed.key? : Deed → Option CorrelationKey
  | append key _ => some key
  | accept key _ => some key
  | remove key _ _ => some key
  | settle .. => none

/-- What a history says about one key: the pending messages, and the accepted release whose
messages are still to be removed. -/
structure Page where
  messages : List EventMessage
  due : Option Release

def Page.blank : Page := ⟨[], none⟩

def page (key : CorrelationKey) : List Deed → Page
  | [] => .blank
  | .append k m :: h =>
    if k = key then ⟨(page key h).messages ++ [m], (page key h).due⟩ else page key h
  | .accept k r :: h => if k = key then ⟨(page key h).messages, some r⟩ else page key h
  | .remove k ids _ :: h =>
    if k = key then ⟨without ids (page key h).messages, none⟩ else page key h
  | .settle .. :: h => page key h

/-- Whether a message belongs to the group of a key: its correlation id says so, and it is of an
aggregated type. -/
def Pertains (names : HeaderNames) (key : CorrelationKey) (m : EventMessage) : Prop :=
  m.headers.text? names.correlationId = some key ∧ m.isAggregated names = true

/-- Whether a deed may be done after a history. -/
def Deed.Legal (names : HeaderNames) (h : List Deed) : Deed → Prop
  | append key m => (page key h).due = none ∧ (∀ o ∈ (page key h).messages, o.id ≠ m.id) ∧
      Pertains names key m
  | accept key r => (page key h).due = none ∧
      Release.of? names key (page key h).messages = some r
  | remove key ids .released => ∃ r, (page key h).due = some r ∧ ids = r.consumed
  | remove key ids .cancelled => (page key h).due = none ∧
      ids = stale names (page key h).messages
  | settle .. => True

/-- Every deed was legal when it was done. -/
def Lawful (names : HeaderNames) : List Deed → Prop
  | [] => True
  | d :: h => d.Legal names h ∧ Lawful names h

variable {names : HeaderNames} {key : CorrelationKey} {h : List Deed}

/-! ## Pages -/

theorem page_append (key : CorrelationKey) (m : EventMessage) (h : List Deed) :
    page key (.append key m :: h) = ⟨(page key h).messages ++ [m], (page key h).due⟩ := if_pos rfl

theorem page_accept (key : CorrelationKey) (r : Release) (h : List Deed) :
    page key (.accept key r :: h) = ⟨(page key h).messages, some r⟩ := if_pos rfl

theorem page_remove (key : CorrelationKey) (ids : List Uuid) (why : Removal) (h : List Deed) :
    page key (.remove key ids why :: h) = ⟨without ids (page key h).messages, none⟩ := if_pos rfl

/-- A deed for another key leaves a page as it is. -/
theorem page_cons_of_ne {d : Deed} (hd : d.key? ≠ some key) : page key (d :: h) = page key h := by
  have hne {k : CorrelationKey} (hk : some k ≠ some key) : k ≠ key := fun e => hk (e ▸ rfl)
  cases d with
  | append k m => exact if_neg (hne hd)
  | accept k r => exact if_neg (hne hd)
  | remove k ids why => exact if_neg (hne hd)
  | settle id success => rfl

/-- What is pending was appended lately, or was pending before. -/
theorem append_mem_or_pending {newer older : List Deed} {m : EventMessage}
    (hm : m ∈ (page key (newer ++ older)).messages) :
    Deed.append key m ∈ newer ∨ m ∈ (page key older).messages := by
  induction newer with
  | nil => exact Or.inr hm
  | cons d newer ih =>
    rw [List.cons_append] at hm
    by_cases hd : d.key? = some key
    · cases d with
      | append k o =>
        obtain rfl : k = key := Option.some.inj hd
        rw [page_append] at hm
        rcases List.mem_append.mp hm with hm | hm
        · exact (ih hm).imp_left (List.mem_cons_of_mem _)
        · exact Or.inl (List.mem_singleton.mp hm ▸ List.mem_cons_self)
      | accept k r =>
        obtain rfl : k = key := Option.some.inj hd
        rw [page_accept] at hm
        exact (ih hm).imp_left (List.mem_cons_of_mem _)
      | remove k ids why =>
        obtain rfl : k = key := Option.some.inj hd
        rw [page_remove] at hm
        exact (ih (mem_without.mp hm).1).imp_left (List.mem_cons_of_mem _)
      | settle => cases hd
    · rw [page_cons_of_ne hd] at hm
      exact (ih hm).imp_left (List.mem_cons_of_mem _)

theorem append_mem_of_pending {m : EventMessage} (hm : m ∈ (page key h).messages) :
    Deed.append key m ∈ h := by
  rw [← List.append_nil h] at hm
  exact (append_mem_or_pending hm).resolve_right fun h => by cases h

/-! ## Lawful histories -/

theorem Lawful.of_append {newer older : List Deed} (hl : Lawful names (newer ++ older)) :
    Lawful names older := by
  induction newer with
  | nil => exact hl
  | cons d newer ih => exact ih hl.2

theorem Lawful.pertains (hl : Lawful names h) {m : EventMessage} (hm : Deed.append key m ∈ h) :
    Pertains names key m := by
  induction h with
  | nil => cases hm
  | cons d h ih =>
    rcases List.mem_cons.mp hm with rfl | hm
    · exact hl.1.2.2
    · exact ih hl.2 hm

theorem Lawful.nodup (hl : Lawful names h) (key : CorrelationKey) :
    ((page key h).messages.map Message.id).Nodup := by
  induction h with
  | nil => exact List.nodup_nil
  | cons d h ih =>
    obtain ⟨hd, hl⟩ := hl
    by_cases hk : d.key? = some key
    · cases d with
      | append k m =>
        obtain rfl : k = key := Option.some.inj hk
        rw [page_append, List.map_append]
        refine List.nodup_append.mpr ⟨ih hl, List.nodup_singleton _, fun a ha b hb => ?_⟩
        obtain ⟨o, ho, rfl⟩ := List.mem_map.mp ha
        rw [List.mem_singleton.mp hb]
        exact hd.2.1 o ho
      | accept k r =>
        obtain rfl : k = key := Option.some.inj hk
        rw [page_accept]
        exact ih hl
      | remove k ids why =>
        obtain rfl : k = key := Option.some.inj hk
        rw [page_remove]
        exact (ih hl).sublist ((without_sublist ids _).map Message.id)
      | settle => cases hk
    · rw [page_cons_of_ne hk]
      exact ih hl

theorem Lawful.eq_of_id (hl : Lawful names h) {m o : EventMessage}
    (hm : m ∈ (page key h).messages) (ho : o ∈ (page key h).messages) (hid : m.id = o.id) :
    m = o :=
  List.inj_on_of_nodup_map (hl.nodup key) hm ho hid

/-- A cancellation takes out the registrations and nothing else. -/
theorem Lawful.without_stale (hl : Lawful names h) (key : CorrelationKey) :
    without (stale names (page key h).messages) (page key h).messages =
      (page key h).messages.filter fun m => !m.isOf names .startDeployed := by
  refine List.filter_congr fun m hm => ?_
  congr 1
  rw [Bool.eq_iff_iff, List.contains_iff_mem, mem_stale]
  constructor
  · rintro ⟨o, ho, hstart, hid⟩
    exact hl.eq_of_id ho hm hid ▸ hstart
  · exact fun hstart => ⟨m, hm, hstart, rfl⟩

/-! ## Faithful worlds -/

variable {κ : Type}

/-- The groups are what the history says, and the history is lawful; no failure of the store is
to come. -/
structure Faithful (names : HeaderNames) (w : World κ) : Prop where
  faultless : w.storeFaults = []
  pages : ∀ key, w.groups.messages key = (page key w.history).messages
  lawful : Lawful names w.history

/-- A history that is the same, or longer by a deed that was legal and of a kind. -/
def Grows (names : HeaderNames) (may : Deed → Prop) (h h' : List Deed) : Prop :=
  h' = h ∨ ∃ d, h' = d :: h ∧ may d ∧ d.Legal names h

/-- Deeds that are all for other keys leave the page of a key. -/
theorem Grows.page_eq {may : Deed → Prop} {h' : List Deed} (hg : Grows names may h h')
    (hmay : ∀ d, may d → d.key? ≠ some key) : page key h' = page key h := by
  obtain rfl | ⟨d, rfl, hd, -⟩ := hg
  · rfl
  · exact page_cons_of_ne (hmay d hd)

namespace Faithful

variable {w w' : World κ}

theorem start (names : HeaderNames) (channel : κ) (clock : Clock) (claims : ClaimStore)
    (letters : DeadLetterQueue) : Faithful names (World.start channel clock claims letters) :=
  ⟨rfl, fun _ => rfl, trivial⟩

/-- Nothing is done to the groups, and the history stays. -/
theorem congr (hw : Faithful names w) (hf : w'.storeFaults = w.storeFaults)
    (hg : w'.groups = w.groups) (hh : w'.history = w.history) : Faithful names w' :=
  ⟨hf ▸ hw.faultless, fun key => by rw [hg, hh]; exact hw.pages key, hh ▸ hw.lawful⟩

/-- A deed is done, and the groups follow it. -/
theorem deed (hw : Faithful names w) {d : Deed} (hf : w'.storeFaults = w.storeFaults)
    (hh : w'.history = d :: w.history) (hd : d.Legal names w.history)
    (hg : ∀ key, w'.groups.messages key = (page key (d :: w.history)).messages) :
    Faithful names w' :=
  ⟨hf ▸ hw.faultless, fun key => by rw [hh]; exact hg key, hh ▸ ⟨hd, hw.lawful⟩⟩

end Faithful
end Rendezvous
