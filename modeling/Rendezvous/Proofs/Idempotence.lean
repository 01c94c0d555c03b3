/-
What a receiver lets through.

Deliveries reach a receiver one after another, and behind it stand handlers of any behaviour that
leave the claims alone.  As long as there is room for the claims of all messages, the claims and the
deliveries so far tell the same: a message is claimed exactly if a delivery of it was handled
(`Delivers.kept`).  So the handlers are called for a message until they handled it once, and never
again (`called_until_handled`).
-/
import Rendezvous.Flow.Chain
import Rendezvous.Proofs.Claims

namespace Rendezvous

variable {κ : Type}

namespace World

/-- Nothing was done to the claims. -/
structure SameClaims (w v : World κ) : Prop where
  claims : v.claims = w.claims
  claimFaults : v.claimFaults = w.claimFaults

end World

/-- Handlers of any behaviour and state: the worlds and outcomes that a message which meets them may
lead to.  They leave the claims alone. -/
structure Handlers (κ : Type) where
  lead : World κ → EventMessage → World κ → Except HandlerError Unit → Prop
  sameClaims : ∀ {w m v outcome}, lead w m v outcome → w.SameClaims v

/-- What became of a delivery of a message: the outcome of the handlers, if they were called, and
that of the delivery. -/
structure Delivery where
  id : Uuid
  called : Option (Except HandlerError Unit)
  outcome : Except HandlerError Unit

namespace Chain

/-- A message meets a receiver, which turns it away or lets it in to the handlers, and in the end
learns their outcome. -/
inductive Delivers (handlers : Handlers κ) (stamping : Stamping) (rest : List Advice)
    (w : World κ) (m : EventMessage) : Delivery → World κ → Prop
  | turnedAway {outcome : Except HandlerError Unit}
      (claim : (claimStep w stamping m rest []).2 = ⟨.leave outcome, []⟩) :
      Delivers handlers stamping rest w m ⟨m.id, none, outcome⟩ (claimStep w stamping m rest []).1
  | letIn {v : World κ} {outcome : Except HandlerError Unit}
      (claim : (claimStep w stamping m rest []).2 = ⟨.enter m rest, [.claimed m.id]⟩)
      (lead : handlers.lead (claimStep w stamping m rest []).1 m v outcome) :
      Delivers handlers stamping rest w m ⟨m.id, some outcome, outcome⟩
        (leaveFrame v outcome (.claimed m.id))

/-- Messages are delivered one after another.  Between the deliveries others do what they like, but
for the claims. -/
inductive DeliversAll (handlers : Handlers κ) (stamping : Stamping) (rest : List Advice) :
    World κ → List EventMessage → List Delivery → World κ → Prop
  | nil {w : World κ} : DeliversAll handlers stamping rest w [] [] w
  | amid {w v u : World κ} {ms : List EventMessage} {log : List Delivery} (same : w.SameClaims v)
      (later : DeliversAll handlers stamping rest v ms log u) :
      DeliversAll handlers stamping rest w ms log u
  | cons {w v u : World κ} {m : EventMessage} {ms : List EventMessage} {d : Delivery}
      {log : List Delivery} (first : Delivers handlers stamping rest w m d v)
      (later : DeliversAll handlers stamping rest v ms log u) :
      DeliversAll handlers stamping rest w (m :: ms) (d :: log) u

end Chain

/-- Some delivery of the message came to a good end. -/
def Handled (log : List Delivery) (i : Uuid) : Prop := ∃ d ∈ log, d.id = i ∧ d.outcome = .ok ()

/-- The outcome of the last call of the handlers for a message. -/
def lastCall (log : List Delivery) (i : Uuid) : Option (Except HandlerError Unit) :=
  ((log.filter fun d => d.id = i).filterMap Delivery.called).getLast?

/-- The handlers are called for a delivery exactly if no earlier one of its message was handled.
The outcome of the delivery is theirs, and good if they were not called. -/
structure Owed (earlier : List Delivery) (d : Delivery) : Prop where
  called : d.called.isSome = true ↔ ¬ Handled earlier d.id
  outcome : d.outcome = d.called.getD (.ok ())

/-- The claims tell which messages were handled, and so do the last calls of the handlers. -/
structure Kept (known : List Uuid) (log : List Delivery) (w : World κ) : Prop where
  faultless : w.claimFaults = []
  roomy : w.claims.Roomy known
  claimed : ∀ i, w.claims.claimed i = true ↔ Handled log i
  last : ∀ i, lastCall log i = some (.ok ()) ↔ Handled log i
  owed : ∀ earlier d later, log = earlier ++ d :: later → Owed earlier d

variable {handlers : Handlers κ} {stamping : Stamping} {rest : List Advice} {w v u : World κ}
  {m : EventMessage} {ms : List EventMessage} {d : Delivery} {log past : List Delivery}
  {known : List Uuid} {i : Uuid}

/-! ## The log of the deliveries -/

theorem handled_append_singleton :
    Handled (log ++ [d]) i ↔ Handled log i ∨ (d.id = i ∧ d.outcome = .ok ()) := by
  simp only [Handled, List.mem_append, List.mem_singleton, or_and_right, exists_or, exists_eq_left]

theorem lastCall_append_of_ne (h : d.id ≠ i) : lastCall (log ++ [d]) i = lastCall log i := by
  have hnone : [d].filter (fun d => d.id = i) = [] := by
    rw [List.filter_singleton, decide_eq_false h, cond_false]
  rw [lastCall, List.filter_append, hnone, List.append_nil]
  rfl

theorem lastCall_append_of_not_called (h : d.called = none) :
    lastCall (log ++ [d]) i = lastCall log i := by
  by_cases hi : d.id = i
  · have hone : [d].filter (fun d => d.id = i) = [d] := by
      rw [List.filter_singleton, decide_eq_true hi, cond_true]
    rw [lastCall, List.filter_append, hone, List.filterMap_append, List.filterMap_cons_none h,
      List.filterMap_nil, List.append_nil]
    rfl
  · exact lastCall_append_of_ne hi

theorem lastCall_append_of_called {outcome : Except HandlerError Unit} (hi : d.id = i)
    (h : d.called = some outcome) : lastCall (log ++ [d]) i = some outcome := by
  have hone : [d].filter (fun d => d.id = i) = [d] := by
    rw [List.filter_singleton, decide_eq_true hi, cond_true]
  rw [lastCall, List.filter_append, hone, List.filterMap_append, List.filterMap_cons_some h,
    List.filterMap_nil, List.getLast?_concat]

/-- The last delivery of a log, and those before. -/
theorem owed_append_singleton (hlog : ∀ earlier d later, log = earlier ++ d :: later →
    Owed earlier d) (hd : Owed log d) :
    ∀ earlier d' later, log ++ [d] = earlier ++ d' :: later → Owed earlier d' := by
  intro earlier d' later hsplit
  rcases List.eq_nil_or_concat later with rfl | ⟨later, last, rfl⟩
  · obtain ⟨rfl, hlast⟩ := List.append_inj' hsplit rfl
    rw [← List.singleton_inj.mp hlast]
    exact hd
  · have hsplit' : log ++ [d] = (earlier ++ d' :: later) ++ [last] := by
      rw [hsplit]
      simp
    exact hlog earlier d' later (List.append_inj' hsplit' rfl).1

/-! ## What the claims tell -/

namespace Kept

theorem start {c : Nat} (hclaims : w.claims = .ofCapacity c) (hfaults : w.claimFaults = [])
    (hroom : known.length ≤ c) : Kept known [] w where
  faultless := hfaults
  roomy := hclaims ▸ .ofCapacity hroom
  claimed i := by
    rw [hclaims]
    refine iff_of_false ?_ ?_
    · simp [ClaimStore.claimed, ClaimStore.get?, ClaimStore.ofCapacity, Dict.find?_empty]
    · rintro ⟨d, hd, -⟩
      cases hd
  last i := by
    refine iff_of_false ?_ ?_
    · intro h
      cases h
    · rintro ⟨d, hd, -⟩
      cases hd
  owed earlier d later h := by simp at h

theorem amid (h : Kept known log w) (hsame : w.SameClaims v) : Kept known log v :=
  ⟨hsame.claimFaults.trans h.faultless, hsame.claims ▸ h.roomy, hsame.claims ▸ h.claimed, h.last,
    h.owed⟩

/-- A message that was handled is delivered again. -/
theorem turnedAway (h : Kept known log w) (hsame : w.SameClaims v) (hi : Handled log i) :
    Kept known (log ++ [⟨i, none, .ok ()⟩]) v := by
  have hhandled (j : Uuid) : Handled (log ++ [⟨i, none, .ok ()⟩]) j ↔ Handled log j := by
    rw [handled_append_singleton]
    refine or_iff_left_of_imp ?_
    rintro ⟨rfl, -⟩
    exact hi
  have hv := h.amid hsame
  refine ⟨hv.faultless, hv.roomy, fun j => ?_, fun j => ?_, ?_⟩
  · rw [hhandled]
    exact hv.claimed j
  · rw [hhandled, lastCall_append_of_not_called rfl]
    exact hv.last j
  · exact owed_append_singleton h.owed ⟨iff_of_false Bool.false_ne_true (not_not_intro hi), rfl⟩

/-- The handlers were called for a message and handled it. -/
theorem handled (h : Kept known log w) (hknown : i ∈ known) (hfree : w.claims.claimed i = false)
    {value : String} (hfaults : v.claimFaults = [])
    (hclaims : v.claims = w.claims.put i.text value) :
    Kept known (log ++ [⟨i, some (.ok ()), .ok ()⟩]) v := by
  have hnot : ¬ Handled log i := fun hi => by simp [(h.claimed i).mpr hi] at hfree
  have hhandled (j : Uuid) :
      Handled (log ++ [⟨i, some (.ok ()), .ok ()⟩]) j ↔ j = i ∨ Handled log j := by
    rw [handled_append_singleton, or_comm]
    simp [eq_comm]
  refine ⟨hfaults, hclaims ▸ h.roomy.put hknown hfree, fun j => ?_, fun j => ?_, ?_⟩
  · rw [hclaims, h.roomy.claimed_put hknown hfree, hhandled, ← h.claimed]
    simp
  · rw [hhandled]
    by_cases hj : j = i
    · rw [lastCall_append_of_called hj.symm rfl]
      exact iff_of_true rfl (Or.inl hj)
    · rw [lastCall_append_of_ne (Ne.symm hj), h.last]
      exact (or_iff_right hj).symm
  · exact owed_append_singleton h.owed ⟨iff_of_true rfl hnot, rfl⟩

/-- The handlers were called for a message and failed. -/
theorem failed (h : Kept known log w) (hknown : i ∈ known) (hfree : w.claims.claimed i = false)
    {value : String} {e : HandlerError} (hfaults : v.claimFaults = [])
    (hclaims : v.claims = ((w.claims.put i.text value).remove i.text).1) :
    Kept known (log ++ [⟨i, some (.error e), .error e⟩]) v := by
  have hnot : ¬ Handled log i := fun hi => by simp [(h.claimed i).mpr hi] at hfree
  have hhandled (j : Uuid) :
      Handled (log ++ [⟨i, some (.error e), .error e⟩]) j ↔ Handled log j := by
    rw [handled_append_singleton]
    refine or_iff_left_of_imp ?_
    rintro ⟨-, herror⟩
    cases herror
  refine ⟨hfaults, hclaims ▸ (h.roomy.put hknown hfree).remove i, fun j => ?_, fun j => ?_, ?_⟩
  · rw [hclaims, ClaimStore.claimed_remove, h.roomy.claimed_put hknown hfree, hhandled,
      ← h.claimed]
    by_cases hj : j = i
    · simp [hj, hfree]
    · simp [hj]
  · rw [hhandled]
    by_cases hj : j = i
    · rw [lastCall_append_of_called hj.symm rfl, hj]
      exact iff_of_false (fun h => by cases h) hnot
    · rw [lastCall_append_of_ne (Ne.symm hj), h.last]
  · exact owed_append_singleton h.owed ⟨iff_of_true rfl hnot, rfl⟩

/-- The keys that are claimed are the texts of the messages that were handled. -/
theorem claimed_iff (h : Kept known log w) (key : String) :
    (w.claims.get? key).isSome = true ↔
      ∃ i : Uuid, i.text = key ∧ lastCall log i = some (.ok ()) := by
  constructor
  · intro hkey
    obtain ⟨i, -, rfl⟩ := h.roomy.origin key ((h.roomy.mem key).mp hkey)
    exact ⟨i, rfl, (h.last i).mpr ((h.claimed i).mp hkey)⟩
  · rintro ⟨i, rfl, hlast⟩
    exact (h.claimed i).mpr ((h.last i).mp hlast)

end Kept

/-! ## One delivery -/

namespace Chain

theorem stampOf_sameClaims (w : World κ) (stamping : Stamping) :
    w.SameClaims (stampOf w stamping).2 := by
  cases stamping <;> exact ⟨rfl, rfl⟩

/-- A message that is claimed is turned away as if it were handled. -/
theorem claimStep_of_claimed (hfaults : w.claimFaults = []) (stamping : Stamping)
    (rest : List Advice) (frames : List Frame) (h : w.claims.claimed m.id = true) :
    (claimStep w stamping m rest frames).2 = ⟨.leave (.ok ()), frames⟩ ∧
      w.SameClaims (claimStep w stamping m rest frames).1 := by
  have hstamp := stampOf_sameClaims w stamping
  obtain ⟨found, hfound⟩ := ClaimStore.putIfAbsent_of_claimed (stampOf w stamping).1.text h
  have hput := World.putClaimIfAbsent_eq (hstamp.claimFaults.trans hfaults) m.id.text
    (stampOf w stamping).1.text
  rw [hstamp.claims, hfound] at hput
  simp only [claimStep, hput]
  exact ⟨trivial, rfl, hstamp.claimFaults⟩

/-- A message that is not claimed is claimed, and let in. -/
theorem claimStep_of_not_claimed (hfaults : w.claimFaults = []) (stamping : Stamping)
    (rest : List Advice) (frames : List Frame) (h : w.claims.claimed m.id = false) :
    (claimStep w stamping m rest frames).2 = ⟨.enter m rest, .claimed m.id :: frames⟩ ∧
      (claimStep w stamping m rest frames).1.claimFaults = [] ∧
      ∃ value, (claimStep w stamping m rest frames).1.claims = w.claims.put m.id.text value := by
  have hstamp := stampOf_sameClaims w stamping
  have hput := World.putClaimIfAbsent_eq (hstamp.claimFaults.trans hfaults) m.id.text
    (stampOf w stamping).1.text
  rw [hstamp.claims, ClaimStore.putIfAbsent_of_not_claimed h] at hput
  simp only [claimStep, hput]
  exact ⟨trivial, hstamp.claimFaults.trans hfaults, _, rfl⟩

/-- Only a bad outcome withdraws the claim. -/
theorem leaveFrame_claimed (hfaults : w.claimFaults = []) (outcome : Except HandlerError Unit)
    (i : Uuid) : (leaveFrame w outcome (.claimed i)).claimFaults = [] ∧
      (leaveFrame w outcome (.claimed i)).claims =
        match outcome with
        | .ok () => w.claims
        | .error _ => (w.claims.remove i.text).1 := by
  have hrecord (success : Bool) : (w.record (.settled i success)).claimFaults = [] := hfaults
  cases outcome with
  | ok => exact ⟨hfaults, rfl⟩
  | error e =>
    simp only [leaveFrame, succeeded, Bool.false_eq_true, if_false,
      World.removeClaim_eq (hrecord false)]
    exact ⟨hfaults, rfl⟩

/-- A receiver either turns a message away or lets it in. -/
theorem claimStep_cases (w : World κ) (stamping : Stamping) (m : EventMessage)
    (rest : List Advice) (frames : List Frame) :
    (∃ outcome, (claimStep w stamping m rest frames).2 = ⟨.leave outcome, frames⟩) ∨
      (claimStep w stamping m rest frames).2 = ⟨.enter m rest, .claimed m.id :: frames⟩ := by
  simp only [claimStep]
  split
  · exact Or.inl ⟨_, rfl⟩
  · exact Or.inl ⟨_, rfl⟩
  · exact Or.inr rfl

/-- One more delivery. -/
theorem Delivers.kept (hkept : Kept known log w) (hknown : m.id ∈ known)
    (h : Delivers handlers stamping rest w m d v) :
    d.id = m.id ∧ Kept known (log ++ [d]) v := by
  cases hc : w.claims.claimed m.id with
  | true =>
    obtain ⟨haway, hsame⟩ := claimStep_of_claimed hkept.faultless stamping rest [] hc
    have hhandled : Handled log m.id := (hkept.claimed m.id).mp hc
    cases h with
    | letIn claim =>
      rw [haway] at claim
      cases claim
    | turnedAway claim =>
      rw [haway] at claim
      obtain rfl : Except.ok () = _ := Stage.leave.inj (congrArg Call.stage claim)
      exact ⟨rfl, hkept.turnedAway hsame hhandled⟩
  | false =>
    obtain ⟨hin, hfaults, value, hput⟩ :=
      claimStep_of_not_claimed hkept.faultless stamping rest [] hc
    cases h with
    | turnedAway claim =>
      rw [hin] at claim
      cases claim
    | @letIn v outcome claim lead =>
      have hsame := handlers.sameClaims lead
      obtain ⟨hfaults', hclaims⟩ :=
        leaveFrame_claimed (hsame.claimFaults.trans hfaults) outcome m.id
      rw [hsame.claims, hput] at hclaims
      refine ⟨rfl, ?_⟩
      cases outcome with
      | ok => exact hkept.handled hknown hc hfaults' hclaims
      | error e => exact hkept.failed hknown hc hfaults' hclaims

/-- A delivery comes to its end if the handlers do. -/
theorem exists_delivers (hlead : ∀ u m, ∃ v outcome, handlers.lead u m v outcome)
    (stamping : Stamping) (rest : List Advice) (w : World κ) (m : EventMessage) :
    ∃ d v, Delivers handlers stamping rest w m d v := by
  obtain ⟨outcome, haway⟩ | hin := claimStep_cases w stamping m rest []
  · exact ⟨_, _, .turnedAway haway⟩
  · obtain ⟨v, outcome, hled⟩ := hlead (claimStep w stamping m rest []).1 m
    exact ⟨_, _, .letIn hin hled⟩

/-! ## All deliveries -/

/-- What one delivery leaves of the claims and the log, the next one finds. -/
theorem DeliversAll.kept (h : DeliversAll handlers stamping rest w ms log v)
    (hkept : Kept known past w) (hknown : ∀ m ∈ ms, m.id ∈ known) :
    log.map Delivery.id = ms.map Message.id ∧ Kept known (past ++ log) v := by
  induction h generalizing past with
  | nil =>
    rw [List.append_nil]
    exact ⟨rfl, hkept⟩
  | amid same later ih => exact ih (hkept.amid same) hknown
  | cons first later ih =>
    obtain ⟨hm, hms⟩ := List.forall_mem_cons.mp hknown
    obtain ⟨hid, hfirst⟩ := first.kept hkept hm
    obtain ⟨hids, hlater⟩ := ih hfirst hms
    rw [List.append_assoc, List.singleton_append] at hlater
    exact ⟨by rw [List.map_cons, List.map_cons, hid, hids], hlater⟩

theorem exists_deliversAll (hlead : ∀ u m, ∃ v outcome, handlers.lead u m v outcome)
    (stamping : Stamping) (rest : List Advice) (w : World κ) (ms : List EventMessage) :
    ∃ log v, DeliversAll handlers stamping rest w ms log v := by
  induction ms generalizing w with
  | nil => exact ⟨[], w, .nil⟩
  | cons m ms ih =>
    obtain ⟨d, v, hfirst⟩ := exists_delivers hlead stamping rest w m
    obtain ⟨log, u, hlater⟩ := ih v
    exact ⟨d :: log, u, .cons hfirst hlater⟩

/-- Deliveries of no more messages than there is room for claims, one after another, to handlers of
any behaviour.  They come to their end if the handlers do.  The handlers are called for a delivery
exactly if no earlier one of its message was handled, and its outcome is theirs, and good if they
were not called.  In the end the messages are claimed for which the last call of the handlers had a
good outcome, and nothing else is. -/
theorem called_until_handled (handlers : Handlers κ) (stamping : Stamping) (rest : List Advice)
    {w : World κ} {ms : List EventMessage} {c : Nat} (hclaims : w.claims = .ofCapacity c)
    (hfaults : w.claimFaults = []) (hroom : (ms.map Message.id).dedup.length ≤ c) :
    ((∀ u m, ∃ v outcome, handlers.lead u m v outcome) →
      ∃ log v, DeliversAll handlers stamping rest w ms log v) ∧
    ∀ log v, DeliversAll handlers stamping rest w ms log v →
      log.map Delivery.id = ms.map Message.id ∧
      (∀ earlier d later, log = earlier ++ d :: later → Owed earlier d) ∧
      ∀ key, (v.claims.get? key).isSome = true ↔
        ∃ i : Uuid, i.text = key ∧ lastCall log i = some (.ok ()) := by
  refine ⟨fun hlead => exists_deliversAll hlead stamping rest w ms, ?_⟩
  intro log v h
  have hknown : ∀ m ∈ ms, m.id ∈ (ms.map Message.id).dedup := by
    intro m hm
    exact List.mem_dedup.mpr (List.mem_map_of_mem hm)
  obtain ⟨hids, hkept⟩ := h.kept (.start hclaims hfaults hroom) hknown
  exact ⟨hids, hkept.owed, hkept.claimed_iff⟩

/-- Handlers that fail as often as their channel counts. -/
def wavering : Handlers Nat where
  lead w _ v outcome :=
    (w.channel = 0 ∧ v = w ∧ outcome = .ok ()) ∨
      (w.channel ≠ 0 ∧ v = { w with channel := w.channel - 1 } ∧
        outcome = .error (.encode "not yet"))
  sameClaims := by
    rintro w m v outcome (⟨-, rfl, -⟩ | ⟨-, rfl, -⟩) <;> exact ⟨rfl, rfl⟩

/-- Two messages are delivered to handlers that fail once, with room for two claims. -/
theorem called_until_handled_of_wavering :
    let m (n : Nat) : EventMessage := ⟨Uuid.ofNat n, Headers.none, { name := "order-paid" }⟩
    let w : World Nat := .start 1 ⟨Stamp.start2025, 1⟩ (.ofCapacity 2) (.ofSize 10 "errors")
    ∃ log v, DeliversAll wavering .ticking [] w [m 1, m 2, m 1, m 1, m 2] log v ∧
      (∀ earlier d later, log = earlier ++ d :: later → Owed earlier d) ∧
      ∀ key, (v.claims.get? key).isSome = true ↔
        ∃ i : Uuid, i.text = key ∧ lastCall log i = some (.ok ()) := by
  intro m w
  have hroom : ([m 1, m 2, m 1, m 1, m 2].map Message.id).dedup.length ≤ 2 := by decide +kernel
  obtain ⟨hends, hall⟩ := called_until_handled wavering .ticking [] (w := w) rfl rfl hroom
  have hlead : ∀ u m, ∃ v outcome, wavering.lead u m v outcome := by
    intro u m
    by_cases h : u.channel = 0
    · exact ⟨_, _, Or.inl ⟨h, rfl, rfl⟩⟩
    · exact ⟨_, _, Or.inr ⟨h, rfl, rfl⟩⟩
  obtain ⟨log, v, hlog⟩ := hends hlead
  exact ⟨log, v, hlog, (hall log v hlog).2⟩

end Chain
end Rendezvous
