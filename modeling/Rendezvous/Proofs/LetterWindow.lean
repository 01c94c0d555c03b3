/-
The queue of dead letters is a window over the messages that were pushed.

Write down every message that is pushed, with the reason it gives and the reading of the clock
that its own push takes, and cross out all of them when the queue is drained (`Tally`).  The queue
shows the end of that list, as much of it as fits: a full queue drops one letter before it takes
the next, so the two stay in step (`Shows.perform`).

A letter stays where it is until there is no room behind it or the queue is drained, whichever comes
first (`lies_iff`).  Such a condition never comes back once it failed, so there is one call at which
the letter goes, and that call says what became of it (`window_after`).
-/
import Mathlib.Data.List.DropRight
import Rendezvous.Flow.World

namespace Rendezvous

namespace DeadLetterQueue

variable {κ : Type}

/-! ## Calls -/

/-- A call on the queue, or that its clock comes to stand somewhere else. -/
inductive Call where
  | push (message : RawMessage)
  | send (message : RawMessage)
  | peek
  | drain
  | pass (clock : Clock)

inductive Answer where
  | done
  | sent (result : Except ChannelError Unit)
  | head (found : Option DeadLetter)
  | all (letters : List DeadLetter)

/-- What a call makes of the world, and its answer. -/
def perform (w : World κ) : Call → World κ × Answer
  | .push m => (w.bury m, .done)
  | .send m => ((w.offer m).1, .sent (w.offer m).2)
  | .peek => (w, .head w.letters.peek?)
  | .drain => (w.drainLetters.1, .all w.drainLetters.2)
  | .pass clock => ({ w with clock := clock }, .done)

/-- The world after some calls. -/
def after (w : World κ) (calls : List Call) : World κ := calls.foldl (fun w c => (perform w c).1) w

namespace Call

def message? : Call → Option RawMessage
  | push m | send m => some m
  | peek | drain | pass _ => none

def isPush (c : Call) : Bool := c.message?.isSome

end Call

/-- The number of messages that some calls push. -/
def pushes (calls : List Call) : Nat := calls.countP Call.isPush

/-! ## What was pushed -/

/-- The letter of a message: it is as it was pushed, with the text of its error header if it has
one there, and with the next reading of the clock. -/
def letter (header : String) (clock : Clock) (m : RawMessage) : DeadLetter where
  message := m
  reason :=
    match m.headers.find? header with
    | some (.str text) => text
    | _ => "discarded"
  failedAt := clock.tick.1

/-- Where the clock stands, and the letters that were pushed since the queue was drained. -/
structure Tally where
  clock : Clock
  letters : List DeadLetter

namespace Tally

def note (header : String) (t : Tally) : Call → Tally
  | .push m | .send m => ⟨t.clock.tick.2, t.letters ++ [letter header t.clock m]⟩
  | .peek => t
  | .drain => { t with letters := [] }
  | .pass clock => { t with clock := clock }

def notes (header : String) (t : Tally) (calls : List Call) : Tally := calls.foldl (note header) t

theorem note_of_message {header : String} {t : Tally} {c : Call} {m : RawMessage}
    (h : c.message? = some m) :
    t.note header c = ⟨t.clock.tick.2, t.letters ++ [letter header t.clock m]⟩ := by
  cases c <;> simp_all [Call.message?, note]

theorem notes_append (header : String) (t : Tally) (l l' : List Call) :
    t.notes header (l ++ l') = (t.notes header l).notes header l' :=
  List.foldl_append ..

/-- The list grows by one letter a push, unless it is crossed out. -/
theorem length_notes_le (header : String) (t : Tally) (calls : List Call) :
    (t.notes header calls).letters.length ≤ t.letters.length + pushes calls := by
  induction calls generalizing t with
  | nil => exact Nat.le_refl _
  | cons c rest ih =>
    have hrest := ih (t.note header c)
    have hstep : (t.note header c).letters.length ≤
        t.letters.length + if c.isPush then 1 else 0 := by
      cases c <;> simp [note, Call.isPush, Call.message?]
    rw [pushes, List.countP_cons]
    rw [pushes] at hrest
    show ((t.note header c).notes header rest).letters.length ≤ _
    omega

theorem length_notes_of_drain (header : String) (t : Tally) {calls : List Call}
    (h : .drain ∈ calls) : (t.notes header calls).letters.length ≤ pushes calls := by
  obtain ⟨before, rest, rfl⟩ := List.append_of_mem h
  have hrest := length_notes_le header ((t.notes header before).note header .drain) rest
  have hpushes : pushes (before ++ Call.drain :: rest) = pushes before + pushes rest := by
    simp [pushes, Call.isPush, Call.message?]
  rw [notes_append, hpushes]
  refine Nat.le_trans hrest ?_
  show 0 + pushes rest ≤ _
  omega

theorem notes_of_no_drain (header : String) (t : Tally) {calls : List Call}
    (h : .drain ∉ calls) :
    ∃ newer, (t.notes header calls).letters = t.letters ++ newer ∧ newer.length = pushes calls := by
  induction calls generalizing t with
  | nil => exact ⟨[], by simp [notes], rfl⟩
  | cons c rest ih =>
    rw [List.mem_cons, not_or] at h
    obtain ⟨newer, hnotes, hlength⟩ := ih (t.note header c) h.2
    have hstep : ∃ written, (t.note header c).letters = t.letters ++ written ∧
        written.length = if c.isPush then 1 else 0 := by
      cases c with
      | push m | send m => exact ⟨_, rfl, rfl⟩
      | peek | pass clock => exact ⟨[], by simp [note], rfl⟩
      | drain => exact absurd rfl h.1
    obtain ⟨written, hwritten, hone⟩ := hstep
    refine ⟨written ++ newer, ?_, ?_⟩
    · show ((t.note header c).notes header rest).letters = _
      rw [hnotes, hwritten, List.append_assoc]
    · rw [List.length_append, hone, hlength, pushes, pushes, List.countP_cons, Nat.add_comm]

end Tally

/-! ## Worlds that show a tally -/

/-- The queue of the world is the end of the list, as much of it as there is room for, and the
clocks stand alike. -/
structure Shows (room : Nat) (header : String) (w : World κ) (t : Tally) : Prop where
  letters : w.letters = ⟨t.letters.rtake room, room, header⟩
  clock : w.clock = t.clock
  faultless : w.letterFaults = []
  positive : 1 ≤ room

variable {room : Nat} {header : String} {w : World κ} {t : Tally}

theorem reasonOf_eq (header : String) (clock : Clock) (m : RawMessage) :
    reasonOf header m = (letter header clock m).reason := by
  rw [reasonOf, Headers.text?, letter]
  cases m.headers.find? header with
  | none => rfl
  | some value => cases value <;> rfl

/-- A letter is added to the end of the list and to the queue; if the queue was full, the letter in
front of the others is no longer shown. -/
theorem push_rtake (hroom : 1 ≤ room) (letters : List DeadLetter) (clock : Clock)
    (m : RawMessage) :
    push ⟨letters.rtake room, room, header⟩ m clock.tick.1 =
      ⟨(letters ++ [letter header clock m]).rtake room, room, header⟩ := by
  obtain ⟨n, rfl⟩ : ∃ n, room = n + 1 := ⟨room - 1, by omega⟩
  have hkept : (if (⟨letters.rtake (n + 1), n + 1, header⟩ : DeadLetterQueue).isFull
      then (letters.rtake (n + 1)).drop 1 else letters.rtake (n + 1)) = letters.rtake n := by
    simp only [isFull, List.rtake, List.length_drop, List.drop_drop, decide_eq_true_eq]
    split
    · congr 1
      omega
    · rw [Nat.sub_eq_zero_of_le (by omega), Nat.sub_eq_zero_of_le (by omega)]
  rw [push, hkept, List.rtake_concat_succ, reasonOf_eq header clock m]
  rfl

/-- Pushing takes the next reading of the clock, and nothing else that the queue depends on. -/
theorem bury_letters (w : World κ) (m : RawMessage) :
    (w.bury m).letters = w.letters.push m w.clock.tick.1 ∧
      (w.bury m).clock = w.clock.tick.2 ∧ (w.bury m).letterFaults = w.letterFaults := by
  unfold World.bury World.stamp
  by_cases hfull : w.letters.isFull <;> simp [hfull, World.count]

theorem Shows.bury (h : Shows room header w t) (m : RawMessage) :
    Shows room header (w.bury m) ⟨t.clock.tick.2, t.letters ++ [letter header t.clock m]⟩ := by
  obtain ⟨hletters, hclock, hfaults⟩ := bury_letters w m
  constructor
  · rw [hletters, h.letters, h.clock, push_rtake h.positive]
  · rw [hclock, h.clock]
  · rw [hfaults, h.faultless]
  · exact h.positive

/-- A message that is sent is pushed. -/
theorem Shows.offer (h : Shows room header w t) (m : RawMessage) :
    Shows room header (w.offer m).1 ⟨t.clock.tick.2, t.letters ++ [letter header t.clock m]⟩ ∧
      (w.offer m).2 = .ok () := by
  have hrecorded : Shows room header { w.record (.offered w.now m) with letterFaults := [] } t :=
    ⟨h.letters, h.clock, rfl, h.positive⟩
  simp only [World.offer, h.faultless, Faults.next, and_true]
  exact hrecorded.bury m

theorem Shows.perform (h : Shows room header w t) (c : Call) :
    Shows room header (perform w c).1 (t.note header c) := by
  cases c with
  | push m => exact h.bury m
  | send m => exact (h.offer m).1
  | peek => exact h
  | drain =>
    refine ⟨?_, h.clock, h.faultless, h.positive⟩
    show { w.letters with entries := [] } = _
    rw [h.letters]
    simp [Tally.note]
  | pass clock => exact ⟨h.letters, rfl, h.faultless, h.positive⟩

theorem Shows.after (h : Shows room header w t) (calls : List Call) :
    Shows room header (after w calls) (t.notes header calls) := by
  induction calls generalizing w t with
  | nil => exact h
  | cons c rest ih => exact ih (h.perform c)

/-! ## The fate of a letter -/

/-- After `later` calls, a letter that was the last one in `w` lies in the queue: there are as many
letters behind it as were pushed since. -/
def Lies (w : World κ) (l : DeadLetter) (later : List Call) : Prop :=
  ∃ older newer, (after w later).letters.entries = older ++ l :: newer ∧
    newer.length = pushes later

/-- The letter goes at a call after `mid`: it lies in the queue before that call, but not after. -/
structure Goes (w : World κ) (l : DeadLetter) (later mid : List Call) (c : Call) : Prop where
  made : mid ++ [c] <+: later
  lay : Lies w l mid
  gone : ¬Lies w l (mid ++ [c])

inductive Fate where
  | queued
  | drained
  | dropped

/-- What became of a letter that was the last one in `w`: it still lies in the queue; or there is
one drain that found it there; or there is one push that found it there in a full queue and after
which it was gone. -/
def Fate.Meets (w : World κ) (l : DeadLetter) (later : List Call) : Fate → Prop
  | queued => Lies w l later
  | drained => ∃! mid, mid ++ [.drain] <+: later ∧ Lies w l mid
  | dropped => ∃! mid, ∃ c, Goes w l later mid c ∧ c.isPush ∧ (after w mid).letters.isFull

section

variable {l : DeadLetter} {older : List DeadLetter} {later mid : List Call}

/-- A letter lies in the queue until it is drained or there is no room behind it. -/
theorem Shows.lies_iff (h : Shows room header w t) (hlast : t.letters = older ++ [l])
    (later : List Call) : Lies w l later ↔ .drain ∉ later ∧ pushes later < room := by
  have hentries : (DeadLetterQueue.after w later).letters.entries =
      (t.notes header later).letters.rtake room := by
    rw [(h.after later).letters]
  rw [Lies, hentries]
  constructor
  · intro ⟨front, newer, hshown, hnewer⟩
    have hlength := congrArg List.length hshown
    simp only [List.rtake, List.length_drop, List.length_append, List.length_cons] at hlength
    constructor
    · intro hdrain
      have := t.length_notes_of_drain header hdrain
      omega
    · omega
  · intro ⟨hdrain, hroom⟩
    obtain ⟨newer, hnotes, hnewer⟩ := t.notes_of_no_drain header hdrain
    refine ⟨older.rtake (room - newer.length - 1), newer, ?_, hnewer⟩
    rw [hnotes, hlast, List.rtake, List.rtake, List.append_assoc, List.singleton_append]
    have hle : (older ++ l :: newer).length - room ≤ older.length := by
      simp only [List.length_append, List.length_cons]
      omega
    rw [List.drop_append_of_le_length hle]
    congr 2
    simp only [List.length_append, List.length_cons]
    omega

/-- Once a letter is gone it does not come back. -/
theorem Shows.lies_of_prefix (h : Shows room header w t) (hlast : t.letters = older ++ [l])
    (hle : mid <+: later) (hlies : Lies w l later) : Lies w l mid := by
  rw [h.lies_iff hlast] at hlies ⊢
  obtain ⟨hdrain, hroom⟩ := hlies
  have hfewer : pushes mid ≤ pushes later := hle.sublist.countP_le
  exact ⟨fun hmem => hdrain (hle.subset hmem), Nat.lt_of_le_of_lt hfewer hroom⟩

theorem exists_goes (hnil : Lies w l []) (hgone : ¬Lies w l later) :
    ∃ mid c, Goes w l later mid c := by
  induction later using List.reverseRecOn with
  | nil => exact absurd hnil hgone
  | append_singleton later c ih =>
    by_cases hlies : Lies w l later
    · exact ⟨later, c, List.prefix_rfl, hlies, hgone⟩
    · obtain ⟨mid, c', hgoes⟩ := ih hlies
      exact ⟨mid, c', hgoes.made.trans (List.prefix_append later [c]), hgoes.lay, hgoes.gone⟩

/-- A drain takes every letter. -/
theorem Shows.goes_of_drain (h : Shows room header w t) (hlast : t.letters = older ++ [l])
    (hmade : mid ++ [.drain] <+: later) (hlies : Lies w l mid) : Goes w l later mid .drain := by
  refine ⟨hmade, hlies, ?_⟩
  rw [h.lies_iff hlast]
  simp

/-- Other than a drain, only a push on a full queue takes a letter. -/
theorem Shows.full_of_goes (h : Shows room header w t) (hlast : t.letters = older ++ [l])
    {c : Call} (hgoes : Goes w l later mid c) (hc : c ≠ .drain) :
    c.isPush ∧ (DeadLetterQueue.after w mid).letters.isFull := by
  obtain ⟨hdrain, hroom⟩ := (h.lies_iff hlast mid).mp hgoes.lay
  have hgone := hgoes.gone
  rw [h.lies_iff hlast] at hgone
  have hkept : .drain ∉ mid ++ [c] := by simp [hdrain, Ne.symm hc]
  have hmore : room ≤ pushes (mid ++ [c]) := Nat.le_of_not_lt fun hless => hgone ⟨hkept, hless⟩
  rw [pushes, List.countP_append, List.countP_singleton, ← pushes] at hmore
  have hpush : c.isPush = true := by
    by_contra hpush
    rw [if_neg hpush] at hmore
    omega
  obtain ⟨front, newer, hentries, hnewer⟩ := hgoes.lay
  have hsize : (DeadLetterQueue.after w mid).letters.maxSize = room := by
    rw [(h.after mid).letters]
  refine ⟨hpush, ?_⟩
  rw [if_pos hpush] at hmore
  rw [isFull, decide_eq_true_eq, hentries, hsize]
  simp
  omega

/-- There is only one call at which a letter goes. -/
theorem Shows.goes_once (h : Shows room header w t) (hlast : t.letters = older ++ [l])
    {mid' : List Call} {c c' : Call} (hgoes : Goes w l later mid c)
    (hgoes' : Goes w l later mid' c') : mid = mid' ∧ c = c' := by
  have hle {mid mid' : List Call} {c c' : Call} (hgoes : Goes w l later mid c)
      (hgoes' : Goes w l later mid' c') : mid'.length ≤ mid.length := by
    by_contra hless
    have hprefix : mid ++ [c] <+: mid' := by
      apply List.prefix_of_prefix_length_le hgoes.made
      · exact (List.prefix_append mid' [c']).trans hgoes'.made
      · simp
        omega
    exact hgoes.gone (h.lies_of_prefix hlast hprefix hgoes'.lay)
  have hlength : (mid ++ [c]).length = (mid' ++ [c']).length := by
    have := hle hgoes hgoes'
    have := hle hgoes' hgoes
    simp
    omega
  have heq : mid ++ [c] = mid' ++ [c'] :=
    (List.prefix_of_prefix_length_le hgoes.made hgoes'.made hlength.le).eq_of_length hlength
  simpa using heq

/-- A letter that was pushed has one fate. -/
theorem Shows.existsUnique_fate (h : Shows room header w t) (hlast : t.letters = older ++ [l])
    (later : List Call) : ∃! fate : Fate, fate.Meets w l later := by
  by_cases hlies : Lies w l later
  · -- what goes at some call does not lie in the queue at the end
    have hstays (mid : List Call) (c : Call) : ¬Goes w l later mid c := fun hgoes =>
      hgoes.gone (h.lies_of_prefix hlast hgoes.made hlies)
    refine ⟨.queued, hlies, fun fate hfate => ?_⟩
    cases fate with
    | queued => rfl
    | drained =>
      obtain ⟨mid, hmid, -⟩ := hfate
      exact absurd (h.goes_of_drain hlast hmid.1 hmid.2) (hstays mid .drain)
    | dropped =>
      obtain ⟨mid, ⟨c, hgoes, -⟩, -⟩ := hfate
      exact absurd hgoes (hstays mid c)
  · have hnil : Lies w l [] := by
      rw [h.lies_iff hlast]
      exact ⟨List.not_mem_nil, h.positive⟩
    obtain ⟨mid, c, hgoes⟩ := exists_goes hnil hlies
    by_cases hc : c = .drain
    · subst hc
      refine ⟨.drained, ⟨mid, ⟨hgoes.made, hgoes.lay⟩, fun mid' hmid' => ?_⟩, fun fate hfate => ?_⟩
      · exact (h.goes_once hlast (h.goes_of_drain hlast hmid'.1 hmid'.2) hgoes).1
      · cases fate with
        | queued => exact absurd hfate hlies
        | drained => rfl
        | dropped =>
          obtain ⟨mid', ⟨c', hgoes', hpush, -⟩, -⟩ := hfate
          rw [(h.goes_once hlast hgoes' hgoes).2] at hpush
          exact absurd hpush (by decide)
    · have hfull := h.full_of_goes hlast hgoes hc
      refine ⟨.dropped, ⟨mid, ⟨c, hgoes, hfull⟩, fun mid' hmid' => ?_⟩, fun fate hfate => ?_⟩
      · obtain ⟨c', hgoes', -⟩ := hmid'
        exact (h.goes_once hlast hgoes' hgoes).1
      · cases fate with
        | queued => exact absurd hfate hlies
        | drained =>
          obtain ⟨mid', hmid', -⟩ := hfate
          have hgoes' := h.goes_of_drain hlast hmid'.1 hmid'.2
          exact absurd (h.goes_once hlast hgoes hgoes').2 hc
        | dropped => rfl

end

/-! ## The queue after any calls -/

/-- The queue has the newest letters of the tally, as many as there is room for, the oldest first.
It shows the first of them and changes nothing by that; a drain hands out all of them and leaves
none; a message that is sent is taken. -/
structure Windowed (size : Nat) (t : Tally) (w : World κ) : Prop where
  queue : w.letters.entries = t.letters.rtake (max size 1)
  length : w.letters.entries.length = min t.letters.length (max size 1)
  peek : perform w .peek = (w, .head (t.letters.rtake (max size 1)).head?)
  drain : (perform w .drain).2 = .all (t.letters.rtake (max size 1)) ∧
    (perform w .drain).1.letters.entries = []
  send : ∀ m, (perform w (.send m)).2 = .sent (.ok ())

theorem Shows.windowed {size : Nat} (h : Shows (max size 1) header w t) : Windowed size t w := by
  have hqueue : w.letters.entries = t.letters.rtake (max size 1) := by rw [h.letters]
  constructor
  · exact hqueue
  · rw [hqueue, List.rtake, List.length_drop]
    omega
  · show (w, Answer.head w.letters.entries.head?) = _
    rw [hqueue]
  · show Answer.all w.letters.entries = _ ∧ _
    rw [hqueue]
    exact ⟨rfl, rfl⟩
  · intro m
    exact congrArg Answer.sent (h.offer m).2

/-- Whatever calls are made of a queue, it is the window over the letters that were pushed since it
was drained, and each letter that was pushed is still there, or was drained once, or was dropped. -/
theorem window_after (channel : κ) (clock : Clock) (claims : ClaimStore) (size : Nat)
    (header : String) (calls : List Call) :
    let w := World.start channel clock claims (ofSize size header)
    let t : Tally := ⟨clock, []⟩
    Windowed size (t.notes header calls) (after w calls) ∧
      ∀ before c later m, calls = before ++ c :: later → c.message? = some m →
        ∃! fate : Fate, fate.Meets (after w (before ++ [c]))
          (letter header (t.notes header before).clock m) later := by
  intro w t
  have hstart : Shows (max size 1) header w t :=
    ⟨by simp [w, t, World.start, ofSize], rfl, rfl, Nat.le_max_right size 1⟩
  refine ⟨(hstart.after calls).windowed, fun before c later m _ hm => ?_⟩
  have hlast : (t.notes header (before ++ [c])).letters =
      (t.notes header before).letters ++ [letter header (t.notes header before).clock m] := by
    rw [Tally.notes_append]
    exact congrArg Tally.letters (Tally.note_of_message hm)
  exact (hstart.after (before ++ [c])).existsUnique_fate hlast later

/-- Two messages in a queue for one: the first is pushed, and the second one is sent. -/
theorem window_after_second_letter :
    let m : RawMessage := ⟨.nil, Headers.none.putText "errorMessage" "late", []⟩
    let m' : RawMessage := ⟨.nil, Headers.none, []⟩
    let clock : Clock := ⟨Stamp.start2025, 1⟩
    let w := World.start () clock (ClaimStore.ofCapacity 1) (ofSize 1 "errorMessage")
    let calls : List Call := [.push m, .send m', .peek]
    calls = [] ++ .push m :: [.send m', .peek] ∧ (Call.push m).message? = some m ∧
      Windowed 1 ((Tally.mk clock []).notes "errorMessage" calls) (after w calls) ∧
      ∃! fate : Fate, fate.Meets (after w [.push m]) ⟨m, "late", ⟨1735689601, 0⟩⟩
        [.send m', .peek] := by
  intro m m' clock w calls
  obtain ⟨hwindow, hfate⟩ :=
    window_after () clock (ClaimStore.ofCapacity 1) 1 "errorMessage" calls
  exact ⟨rfl, rfl, hwindow, hfate [] (.push m) [.send m', .peek] m rfl rfl⟩

end DeadLetterQueue
end Rendezvous
