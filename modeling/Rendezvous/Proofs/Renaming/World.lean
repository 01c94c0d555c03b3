/-
Worlds under other header names.

Two worlds are alike under a renaming if they differ by header names only: their groups and the
messages in their journals are renamed, their channels correspond, and time, locks, claims and
failures to come are the same.  What they counted plays no part.  A dead letter may differ a bit
more.  The reason why a message without a name is rejected quotes the header that is missing, and so
that name, too, is another one (`Message.Turned`).

Every call on a world answers alike in worlds that are alike, and leaves worlds that are alike.
-/
import Mathlib.Data.List.Forall2
import Rendezvous.Proofs.History
import Rendezvous.Proofs.Renaming.Message

namespace Rendezvous

variable {κ κ' : Type}

/-! ## What is alike -/

/-- The reason why a message without a name is rejected. -/
def HeaderNames.reason (names : HeaderNames) : String :=
  (CorrelationError.missingHeader names.messageName).message

/-- A message that is offered to the error channel, and what is offered under other names. -/
inductive Message.Turned (f : Renaming) (names : HeaderNames) : RawMessage → RawMessage → Prop
  | plain (m : RawMessage) : Turned f names m (m.rename f)
  /-- the reason quotes a name -/
  | unnamed (m : RawMessage) : Turned f names (m.withText names.error names.reason)
      ((m.rename f).withText (f.map names.error) (names.map f.map).reason)

/-- A dead letter, and its like under other names. -/
structure DeadLetter.Alike (f : Renaming) (names : HeaderNames) (l l' : DeadLetter) : Prop where
  message : l.message.Turned f names l'.message
  reason : l'.reason = l.reason ∨ l.reason = names.reason ∧ l'.reason = (names.map f.map).reason
  failedAt : l'.failedAt = l.failedAt

/-- Something that happened, and what happened under other names. -/
inductive Event.Alike (f : Renaming) (names : HeaderNames) : Event → Event → Prop
  | asked (call : StoreCall) : Alike f names (.asked call) (.asked call)
  | appended (key : CorrelationKey) (m : EventMessage) :
      Alike f names (.appended key m) (.appended key (m.rename f))
  | removed (key : CorrelationKey) (ids : List Uuid) (why : Removal) :
      Alike f names (.removed key ids why) (.removed key ids why)
  | attempted (time : Nat) (m : RawMessage) :
      Alike f names (.attempted time m) (.attempted time (m.rename f))
  | accepted (key : CorrelationKey) (r : Release) :
      Alike f names (.accepted key r) (.accepted key (r.rename f))
  | offered (time : Nat) {m m' : RawMessage} (turned : m.Turned f names m') :
      Alike f names (.offered time m) (.offered time m')
  | settled (id : Uuid) (success : Bool) : Alike f names (.settled id success) (.settled id success)
  | entered (key : String) (ticket : Ticket) :
      Alike f names (.entered key ticket) (.entered key ticket)
  | left (key : String) (ticket : Ticket) : Alike f names (.left key ticket) (.left key ticket)
  | noted (text : String) : Alike f names (.noted text) (.noted text)

structure DeadLetterQueue.Alike (f : Renaming) (names : HeaderNames) (q q' : DeadLetterQueue) :
    Prop where
  entries : List.Forall₂ (DeadLetter.Alike f names) q.entries q'.entries
  maxSize : q'.maxSize = q.maxSize
  errorHeader : q.errorHeader = names.error
  errorHeader' : q'.errorHeader = f.map names.error

/-- Worlds that differ by header names, and by what they counted. -/
structure World.Alike (f : Renaming) (names : HeaderNames) (R : κ → κ' → Prop) (w : World κ)
    (w' : World κ') : Prop where
  now : w'.now = w.now
  desk : w'.desk = w.desk
  clock : w'.clock = w.clock
  groups : w'.groups = w.groups.rename f
  storeFaults : w'.storeFaults = w.storeFaults
  claims : w'.claims = w.claims
  claimFaults : w'.claimFaults = w.claimFaults
  letters : w.letters.Alike f names w'.letters
  letterFaults : w'.letterFaults = w.letterFaults
  channel : R w.channel w'.channel
  journal : List.Forall₂ (Event.Alike f names) w.journal w'.journal

/-- A world whose stores and whose error channel fail as they are told. -/
def World.failing (w : World κ) (storeFaults : Faults StoreCall StoreError)
    (claimFaults : Faults ClaimCall StoreError) (letterFaults : Faults Unit ChannelError) :
    World κ :=
  { w with storeFaults := storeFaults, claimFaults := claimFaults, letterFaults := letterFaults }

/-- Channels that take no notice of header names: in states that correspond, a message and the
renamed one take as long and get the same answer. -/
structure Carrier.Alike (f : Renaming) (R : κ → κ' → Prop) (carrier : Carrier κ)
    (carrier' : Carrier κ') : Prop where
  delay : ∀ {c c'}, R c c' → (carrier'.delay c').2 = (carrier.delay c).2 ∧
    R (carrier.delay c).1 (carrier'.delay c').1
  send : ∀ {c c'} (m : RawMessage), R c c' →
    (carrier'.send c' (m.rename f)).2 = (carrier.send c m).2 ∧
      R (carrier.send c m).1 (carrier'.send c' (m.rename f)).1

variable {f : Renaming} {names : HeaderNames} {R : κ → κ' → Prop} {w : World κ} {w' : World κ'}

/-! ## Dead letters -/

theorem DeadLetter.alike_of_turned {m m' : RawMessage} (h : m.Turned f names m') (now : Stamp) :
    DeadLetter.Alike f names ⟨m, DeadLetterQueue.reasonOf names.error m, now⟩
      ⟨m', DeadLetterQueue.reasonOf (f.map names.error) m', now⟩ := by
  refine ⟨h, ?_, rfl⟩
  cases h with
  | plain m =>
    refine Or.inl ?_
    show (Headers.text? (m.headers.rename f) (f.map names.error)).getD _ = _
    rw [Headers.text?_rename]
    rfl
  | unnamed m =>
    refine Or.inr ⟨?_, ?_⟩
    · show (Headers.text? (m.headers.putText names.error names.reason) names.error).getD _ = _
      rw [Headers.text?_putText, if_pos rfl]
      rfl
    · show (Headers.text? (Headers.putText _ (f.map names.error) _) (f.map names.error)).getD _ = _
      rw [Headers.text?_putText, if_pos rfl]
      rfl

namespace DeadLetterQueue.Alike

variable {q q' : DeadLetterQueue}

theorem ofSize (f : Renaming) (names : HeaderNames) (n : Nat) :
    (DeadLetterQueue.ofSize n names.error).Alike f names
      (.ofSize n (names.map f.map).error) := ⟨.nil, rfl, rfl, rfl⟩

theorem isFull (h : q.Alike f names q') : q'.isFull = q.isFull := by
  rw [DeadLetterQueue.isFull, DeadLetterQueue.isFull, h.maxSize, ← h.entries.length_eq]

theorem push (h : q.Alike f names q') {m m' : RawMessage} (hm : m.Turned f names m')
    (now : Stamp) : (q.push m now).Alike f names (q'.push m' now) := by
  refine ⟨?_, h.maxSize, h.errorHeader, h.errorHeader'⟩
  have hkept : List.Forall₂ (DeadLetter.Alike f names)
      (if q.isFull = true then q.entries.drop 1 else q.entries)
      (if q'.isFull = true then q'.entries.drop 1 else q'.entries) := by
    rw [h.isFull]
    split
    · exact List.forall₂_drop 1 h.entries
    · exact h.entries
  have hletter : DeadLetter.Alike f names ⟨m, reasonOf q.errorHeader m, now⟩
      ⟨m', reasonOf q'.errorHeader m', now⟩ := by
    rw [h.errorHeader, h.errorHeader']
    exact DeadLetter.alike_of_turned hm now
  exact List.rel_append hkept (.cons hletter .nil)

end DeadLetterQueue.Alike

/-! ## Calls -/

namespace World.Alike

theorem record (h : w.Alike f names R w') {e e' : Event} (he : e.Alike f names e') :
    (w.record e).Alike f names R (w'.record e') :=
  { h with journal := .cons he h.journal }

theorem setTime (h : w.Alike f names R w') (now : Nat) :
    (w.setTime now).Alike f names R (w'.setTime now) := { h with now := rfl }

/-- What is counted plays no part. -/
theorem counted (h : w.Alike f names R w') (metrics metrics' : Metrics) :
    ({ w with metrics := metrics } : World κ).Alike f names R { w' with metrics := metrics' } :=
  { h with }

theorem withDesk (h : w.Alike f names R w') (d : Desk) :
    ({ w with desk := d } : World κ).Alike f names R { w' with desk := d } := { h with desk := rfl }

theorem withChannel (h : w.Alike f names R w') {c : κ} {c' : κ'} (hc : R c c') :
    ({ w with channel := c } : World κ).Alike f names R { w' with channel := c' } :=
  { h with channel := hc }

theorem stamp (h : w.Alike f names R w') : w'.stamp.1 = w.stamp.1 ∧
    w.stamp.2.Alike f names R w'.stamp.2 :=
  ⟨congrArg (fun clock => clock.tick.1) h.clock,
    { h with clock := congrArg (fun clock => clock.tick.2) h.clock }⟩

theorem askStore (h : w.Alike f names R w') (call : StoreCall) :
    ∃ v v' fault, w.askStore call = (v, fault) ∧ w'.askStore call = (v', fault) ∧
      v.Alike f names R v' := by
  have hfaults : w'.storeFaults.next call = w.storeFaults.next call := by rw [h.storeFaults]
  refine ⟨_, _, _, rfl, Prod.ext rfl (congrArg Prod.fst hfaults), ?_⟩
  exact { h.record (.asked call) with storeFaults := congrArg Prod.snd hfaults }

theorem askClaims (h : w.Alike f names R w') (call : ClaimCall) :
    ∃ v v' fault, w.askClaims call = (v, fault) ∧ w'.askClaims call = (v', fault) ∧
      v.Alike f names R v' := by
  have hfaults : w'.claimFaults.next call = w.claimFaults.next call := by rw [h.claimFaults]
  refine ⟨_, _, _, rfl, Prod.ext rfl (congrArg Prod.fst hfaults), ?_⟩
  exact { h with claimFaults := congrArg Prod.snd hfaults }

theorem readGroup (h : w.Alike f names R w') (key : CorrelationKey) :
    ∃ v v' r, w.readGroup key = (v, r) ∧
      w'.readGroup key = (v', r.map (Option.map (Group.rename f))) ∧ v.Alike f names R v' := by
  obtain ⟨v, v', fault, hask, hask', hv⟩ := h.askStore .group
  rw [World.readGroup, World.readGroup, hask, hask']
  cases fault with
  | some e => exact ⟨v, v', .error e, rfl, rfl, hv⟩
  | none =>
    refine ⟨v, v', .ok (v.groups.group? key), rfl, Prod.ext rfl (congrArg Except.ok ?_), hv⟩
    rw [hv.groups, GroupStore.group?_rename]

theorem appendMessage (h : w.Alike f names R w') (key : CorrelationKey) (m : EventMessage) :
    ∃ v v' r, w.appendMessage key m = (v, r) ∧
      w'.appendMessage key (m.rename f) = (v', r.map (Group.rename f)) ∧
      v.Alike f names R v' := by
  obtain ⟨v, v', fault, hask, hask', hv⟩ := h.askStore .add
  rw [World.appendMessage, World.appendMessage, hask, hask']
  cases fault with
  | some e => exact ⟨v, v', .error e, rfl, rfl, hv⟩
  | none =>
    obtain ⟨hnow, hstamp⟩ := hv.stamp
    have hadd : v'.stamp.2.groups.add key (m.rename f) v'.stamp.1 =
        ((v.stamp.2.groups.add key m v.stamp.1).1.rename f,
          (v.stamp.2.groups.add key m v.stamp.1).2.rename f) := by
      rw [hnow, hstamp.groups, GroupStore.add_rename]
    refine ⟨_, _, .ok (v.stamp.2.groups.add key m v.stamp.1).2, rfl,
      Prod.ext rfl (congrArg (fun added => Except.ok added.2) hadd), ?_⟩
    have hgroups : ({ v.stamp.2 with groups := (v.stamp.2.groups.add key m v.stamp.1).1 } :
        World κ).Alike f names R
        { v'.stamp.2 with groups := (v'.stamp.2.groups.add key (m.rename f) v'.stamp.1).1 } :=
      { hstamp with groups := congrArg Prod.fst hadd }
    exact (hgroups.counted _ _).record (.appended key m)

theorem removeMessages (h : w.Alike f names R w') (key : CorrelationKey) (ids : List Uuid)
    (why : Removal) : ∃ v v' r, w.removeMessages key ids why = (v, r) ∧
      w'.removeMessages key ids why = (v', r) ∧ v.Alike f names R v' := by
  obtain ⟨v, v', fault, hask, hask', hv⟩ := h.askStore .remove
  rw [World.removeMessages, World.removeMessages, hask, hask']
  cases fault with
  | some e => exact ⟨v, v', .error e, rfl, rfl, hv⟩
  | none =>
    obtain ⟨hnow, hstamp⟩ := hv.stamp
    have hgroup : v'.stamp.2.groups.group? key =
        (v.stamp.2.groups.group? key).map (Group.rename f) := by
      rw [hstamp.groups, GroupStore.group?_rename]
    dsimp only
    rw [hgroup]
    cases v.stamp.2.groups.group? key with
    | none => exact ⟨_, _, _, rfl, rfl, hstamp⟩
    | some g =>
      refine ⟨_, _, _, rfl, rfl, ?_⟩
      have hgroups : ({ v.stamp.2 with
            groups := v.stamp.2.groups.remove key ids v.stamp.1 } : World κ).Alike f names R
          { v'.stamp.2 with groups := v'.stamp.2.groups.remove key ids v'.stamp.1 } := by
        refine { hstamp with groups := ?_ }
        show v'.stamp.2.groups.remove key ids v'.stamp.1 = _
        rw [hnow, hstamp.groups, GroupStore.remove_rename]
      exact (hgroups.counted _ _).record (.removed key ids why)

theorem putClaimIfAbsent (h : w.Alike f names R w') (id value : String) :
    ∃ v v' r, w.putClaimIfAbsent id value = (v, r) ∧ w'.putClaimIfAbsent id value = (v', r) ∧
      v.Alike f names R v' := by
  obtain ⟨v, v', fault, hask, hask', hv⟩ := h.askClaims .putIfAbsent
  rw [World.putClaimIfAbsent, World.putClaimIfAbsent, hask, hask']
  cases fault with
  | some e => exact ⟨v, v', .error e, rfl, rfl, hv⟩
  | none =>
    have hput : v'.claims.putIfAbsent id value = v.claims.putIfAbsent id value := by rw [hv.claims]
    refine ⟨_, _, _, rfl, Prod.ext rfl (congrArg (fun put => Except.ok put.2) hput), ?_⟩
    exact { hv with claims := congrArg Prod.fst hput }

theorem removeClaim (h : w.Alike f names R w') (id : String) :
    (w.removeClaim id).1.Alike f names R (w'.removeClaim id).1 := by
  obtain ⟨v, v', fault, hask, hask', hv⟩ := h.askClaims .remove
  rw [World.removeClaim, World.removeClaim, hask, hask']
  cases fault with
  | some e => exact hv
  | none =>
    exact { hv with claims := congrArg (fun claims => (ClaimStore.remove claims id).1) hv.claims }

theorem pushed (h : w.Alike f names R w') {m m' : RawMessage} (hm : m.Turned f names m')
    (now : Stamp) (metrics metrics' : Metrics) :
    ({ w with letters := w.letters.push m now, metrics := metrics } : World κ).Alike f names R
      { w' with letters := w'.letters.push m' now, metrics := metrics' } :=
  { h with letters := h.letters.push hm now }

theorem bury (h : w.Alike f names R w') {m m' : RawMessage} (hm : m.Turned f names m') :
    (w.bury m).Alike f names R (w'.bury m') := by
  obtain ⟨hnow, hstamp⟩ := h.stamp
  have hdropped : (if w.stamp.2.letters.isFull = true then w.stamp.2.count .deadLettersDropped
        else w.stamp.2).Alike f names R
      (if w'.stamp.2.letters.isFull = true then w'.stamp.2.count .deadLettersDropped
        else w'.stamp.2) := by
    rw [hstamp.letters.isFull]
    split
    · exact hstamp.counted _ _
    · exact hstamp
  unfold World.bury
  dsimp only
  rw [hnow]
  exact hdropped.pushed hm _ _ _

theorem offer (h : w.Alike f names R w') {m m' : RawMessage} (hm : m.Turned f names m') :
    ∃ v v' r, w.offer m = (v, r) ∧ w'.offer m' = (v', r) ∧ v.Alike f names R v' := by
  have hnext : w'.letterFaults.next () = w.letterFaults.next () :=
    congrArg (Faults.next ()) h.letterFaults
  have hoffered : ({ w.record (.offered w.now m) with
        letterFaults := (w.letterFaults.next ()).2 } : World κ).Alike f names R
      { w'.record (.offered w'.now m') with letterFaults := (w'.letterFaults.next ()).2 } := by
    rw [hnext, h.now]
    exact { h.record (.offered w.now hm) with letterFaults := rfl }
  unfold World.offer
  dsimp only
  rw [hnext] at hoffered ⊢
  cases (w.letterFaults.next ()).1 with
  | some e => exact ⟨_, _, _, rfl, rfl, hoffered⟩
  | none => exact ⟨_, _, _, rfl, rfl, hoffered.bury hm⟩

theorem failing (h : w.Alike f names R w') (storeFaults : Faults StoreCall StoreError)
    (claimFaults : Faults ClaimCall StoreError) (letterFaults : Faults Unit ChannelError) :
    (w.failing storeFaults claimFaults letterFaults).Alike f names R
      (w'.failing storeFaults claimFaults letterFaults) :=
  { h with storeFaults := rfl, claimFaults := rfl, letterFaults := rfl }

/-- Worlds that were started alike. -/
theorem start (f : Renaming) (names : HeaderNames) {channel : κ} {channel' : κ'}
    (hchannel : R channel channel') (clock : Clock) (claims : ClaimStore) (size : Nat) :
    (World.start channel clock claims (.ofSize size names.error)).Alike f names R
      (World.start channel' clock claims (.ofSize size (names.map f.map).error)) :=
  ⟨rfl, rfl, rfl, rfl, rfl, rfl, rfl, .ofSize f names size, rfl, hchannel, .nil⟩

end World.Alike
end Rendezvous
