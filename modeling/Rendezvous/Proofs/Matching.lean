/-
Which side comes first does not matter.

Messages are sent under a key, and executions wait for them or definitions register.  However the
two streams interleave, what becomes of them is told by the streams alone: the messages are
delivered to the executions in their order, and the rest of the longer stream stays pending, or
every message starts a process of the oldest registration (`arrival_order_irrelevant`).

The outputs are written down as they travel, with their headers and the members of their commands
(`Release.delivery`, `Release.launch`), and these are the ones that a group yields
(`Release.of?_eq_some_iff_made`).

Between calls a group holds one side only, or registrations only.  So what the messages of the two
sides that came so far have come to is a function of the two streams (`Account.matched`,
`Account.started`), and the next message of either stream makes of it what the function says of the
longer stream (`Combines`).  An induction on the interleaving carries this through a run.
-/
import Rendezvous.Proofs.Outcome
import Rendezvous.Proofs.Serial

namespace Rendezvous

/-- A list that takes turns between two lists and keeps the order of each. -/
inductive Interleaves {α : Type} : List α → List α → List α → Prop
  | nil : Interleaves [] [] []
  | left {a as bs cs} (rest : Interleaves as bs cs) : Interleaves (a :: as) bs (a :: cs)
  | right {b as bs cs} (rest : Interleaves as bs cs) : Interleaves as (b :: bs) (b :: cs)

/-! ## Outputs -/

theorem Json.ofText?_eq_elim (s : Option String) : ofText? s = s.elim .null .str := by
  cases s <;> rfl

namespace Release

/-- What a command tells of the message that was sent. -/
def told (sent : EventPayload) : List (String × Json) :=
  [("name", .str sent.name), ("correlationKey", sent.correlationKey.elim .null .str),
    ("businessKey", sent.businessKey.elim .null .str), ("variables", .obj sent.vars.entries)]

/-- The headers of an output: its key, the kind of its command, the name of the message that the
subscriber is about, the service of the subscriber if it names one, and the identity.  Where two of
the names coincide, the later header stands. -/
def labels (names : HeaderNames) (key : CorrelationKey) (kind : String) (subscriber : EventMessage)
    (id : Uuid) : Headers :=
  let about := ((Headers.none.insert names.correlationId (.str key)).insert names.payloadType
    (.str kind)).insert names.messageName (.str subscriber.payload.name)
  let addressed :=
    match subscriber.headers.find? names.serviceFullName with
    | some (.str service) => about.insert names.destination (.str service)
    | _ => about
  addressed.insert "id" (.str id.text)

/-- The output that delivers a sent message to a waiting execution: a receive command that tells
what was sent and names the execution.  Its identity is made from those of the two messages. -/
def delivery (names : HeaderNames) (key : CorrelationKey) (sent waiting : EventMessage) : Release :=
  let id := Uuid.ofName Uuid.oidSpace (Text.toBytes (sent.id.text ++ waiting.id.text))
  let execution := waiting.payload.executionId.elim .null .str
  ⟨⟨id, labels names key "ReceiveMessagePayload" waiting id,
    Json.bytes (.obj (told sent.payload ++ [("executionId", execution)]))⟩, [sent.id, waiting.id]⟩

/-- The output that starts a process of a registration from a sent message: a start command that
tells what was sent.  Its identity is made from that of the sent message. -/
def launch (names : HeaderNames) (key : CorrelationKey) (deployed sent : EventMessage) : Release :=
  let id := Uuid.ofName Uuid.oidSpace (Text.toBytes sent.id.text)
  ⟨⟨id, labels names key "StartMessagePayload" deployed id, Json.bytes (.obj (told sent.payload))⟩,
    [sent.id]⟩

section
variable {names : HeaderNames} {key : CorrelationKey} {ms : List EventMessage} {r : Release}

theorem identity_pair (u v : Uuid) :
    identity [u, v] = Uuid.ofName Uuid.oidSpace (Text.toBytes (u.text ++ v.text)) := by
  rw [identity, seed, Text.toBytes, String.toList_append, Uuid.text, Uuid.text,
    String.toList_ofList, String.toList_ofList, List.flatMap_cons, List.flatMap_singleton]

theorem identity_singleton (u : Uuid) :
    identity [u] = Uuid.ofName Uuid.oidSpace (Text.toBytes u.text) := by
  rw [identity, seed, Text.toBytes, Uuid.text, String.toList_ofList, List.flatMap_singleton]

theorem output_eq (names : HeaderNames) (key : CorrelationKey) (kind : CommandKind) (body : Bytes)
    (subscriber : EventMessage) (consumed : List Uuid) :
    output names key kind body subscriber consumed =
      ⟨⟨identity consumed, labels names key kind.text subscriber (identity consumed), body⟩,
        consumed⟩ := by
  simp only [output, Message.assemble, labels, Headers.text?, Headers.putText]
  cases subscriber.headers.find? names.serviceFullName with
  | none => rfl
  | some value => cases value <;> rfl

theorem output_receive (names : HeaderNames) (key : CorrelationKey) (sent waiting : EventMessage) :
    output names key .receive (receiveCommand sent.payload waiting.payload).encode waiting
      [sent.id, waiting.id] = delivery names key sent waiting := by
  have hbody : (receiveCommand sent.payload waiting.payload).encode =
      Json.bytes (.obj (told sent.payload ++
        [("executionId", waiting.payload.executionId.elim .null .str)])) := by
    simp only [ReceiveCommand.encode, ReceiveCommand.toJson, Json.ofText?_eq_elim]
    rfl
  rw [output_eq, identity_pair, hbody, delivery]
  rfl

theorem output_start (names : HeaderNames) (key : CorrelationKey) (deployed sent : EventMessage) :
    output names key .start (startCommand sent.payload).encode deployed [sent.id] =
      launch names key deployed sent := by
  have hbody : (startCommand sent.payload).encode = Json.bytes (.obj (told sent.payload)) := by
    simp only [StartCommand.encode, StartCommand.toJson, Json.ofText?_eq_elim]
    rfl
  rw [output_eq, identity_singleton, hbody, launch]
  rfl

/-- A group yields the oldest sent message, delivered to the oldest execution that waits or, if none
does, started as a process of the oldest registration. -/
theorem of?_eq_some_iff_made : of? names key ms = some r ↔
    ∃ sent, ms.find? (Message.isOf names .sent) = some sent ∧
      ((∃ waiting, ms.find? (Message.isOf names .waiting) = some waiting ∧
          r = delivery names key sent waiting) ∨
        (ms.find? (Message.isOf names .waiting) = none ∧
          ∃ deployed, ms.find? (Message.isOf names .startDeployed) = some deployed ∧
            r = launch names key deployed sent)) := by
  simp only [of?_eq_some_iff, output_receive, output_start]

end

end Release

/-! ## Two sides -/

/-- The messages of two sides, the sent ones and others of a type, told apart by their
identities. -/
structure Sides (names : HeaderNames) (type : EventType) (sent others : List EventMessage) :
    Prop where
  allSent : ∀ m ∈ sent, m.isOf names .sent = true
  allOthers : ∀ m ∈ others, m.isOf names type = true
  nodup : ((sent ++ others).map Message.id).Nodup

section
variable {names : HeaderNames} {key : CorrelationKey} {type : EventType} {m x y : EventMessage}
  {ms front rest sent sent' waiting deployed others others' : List EventMessage} {a : Account}

theorem Message.isOf_of_ne {t u : EventType} (htu : t.text ≠ u.text) (h : m.isOf names t = true) :
    m.isOf names u = false :=
  Bool.eq_false_iff.mpr fun hu => htu (Message.isOf_unique h hu)

namespace Sides

theorem not_sent (h : Sides names type sent others) (htype : type.text ≠ EventType.sent.text) :
    ∀ m ∈ others, m.isOf names .sent = false :=
  fun m hm => Message.isOf_of_ne htype (h.allOthers m hm)

theorem not_others (h : Sides names type sent others) (htype : type.text ≠ EventType.sent.text) :
    ∀ m ∈ sent, m.isOf names type = false :=
  fun m hm => Message.isOf_of_ne (Ne.symm htype) (h.allSent m hm)

/-- The newest sent message is told apart from all others. -/
theorem fresh_sent (h : Sides names type (sent ++ [m]) others) :
    ∀ o ∈ sent ++ others, o.id ≠ m.id := by
  intro o ho hid
  have hperm : (sent ++ [m] ++ others).Perm (m :: (sent ++ others)) := by
    rw [List.append_assoc]
    exact List.perm_middle
  have hnodup := (hperm.map Message.id).nodup_iff.mp h.nodup
  exact (List.nodup_cons.mp hnodup).1 (hid ▸ List.mem_map_of_mem ho)

theorem fresh_others (h : Sides names type sent (others ++ [m])) :
    ∀ o ∈ sent ++ others, o.id ≠ m.id := by
  intro o ho hid
  have hperm : (sent ++ (others ++ [m])).Perm (m :: (sent ++ others)) := by
    rw [← List.append_assoc]
    exact List.perm_append_singleton m _
  have hnodup := (hperm.map Message.id).nodup_iff.mp h.nodup
  exact (List.nodup_cons.mp hnodup).1 (hid ▸ List.mem_map_of_mem ho)

theorem mono (h : Sides names type sent others) (hsent : sent'.Sublist sent)
    (hothers : others'.Sublist others) : Sides names type sent' others' :=
  ⟨fun m hm => h.allSent m (hsent.subset hm), fun m hm => h.allOthers m (hothers.subset hm),
    h.nodup.sublist ((hsent.append hothers).map Message.id)⟩

theorem settled_sent (h : Sides names type sent others) : Settled names sent :=
  Or.inr fun m hm => ⟨Message.isOf_of_ne (by decide) (h.allSent m hm),
    Message.isOf_of_ne (by decide) (h.allSent m hm)⟩

theorem settled_others (h : Sides names type sent others)
    (htype : type.text ≠ EventType.sent.text) : Settled names others :=
  Or.inl (h.not_sent htype)

end Sides

/-! ## Releases of two sides -/

theorem Account.join_of_fresh (h : ∀ o ∈ a.messages, o.id ≠ m.id) : a.join m = a.append m := by
  refine if_neg fun hany => ?_
  obtain ⟨o, ho, hid⟩ := List.any_eq_true.mp hany
  exact h o ho (of_decide_eq_true hid)

theorem find?_isOf_eq_none (h : ∀ o ∈ ms, o.isOf names type = false) :
    ms.find? (Message.isOf names type) = none :=
  List.find?_eq_none.mpr fun o ho => by rw [h o ho]; exact Bool.false_ne_true

/-- The oldest message of a type, behind messages that are not of it. -/
theorem find?_isOf (hfront : ∀ o ∈ front, o.isOf names type = false)
    (hm : m.isOf names type = true) (rest : List EventMessage) :
    (front ++ m :: rest).find? (Message.isOf names type) = some m := by
  rw [List.find?_append, find?_isOf_eq_none hfront, List.find?_cons_of_pos hm]
  rfl

/-- Messages behind another are told apart from it. -/
theorem ne_of_nodup_cons (h : (ms.map Message.id).Nodup) (hsub : (x :: rest).Sublist ms) :
    ∀ o ∈ rest, o.id ≠ x.id :=
  fun _ ho hid => (List.nodup_cons.mp (h.sublist (hsub.map _))).1 (hid ▸ List.mem_map_of_mem ho)

theorem without_append (ids : List Uuid) (ms ms' : List EventMessage) :
    without ids (ms ++ ms') = without ids ms ++ without ids ms' :=
  List.filter_append ms ms'

theorem without_cons_of_mem {ids : List Uuid} (hx : x.id ∈ ids) (ms : List EventMessage) :
    without ids (x :: ms) = without ids ms :=
  List.filter_cons_of_neg (by simpa using hx)

theorem without_eq_self {ids : List Uuid} (h : ∀ o ∈ ms, o.id ∉ ids) : without ids ms = ms :=
  List.filter_eq_self.mpr fun o ho => by simpa using h o ho

theorem without_first (hrest : ∀ o ∈ rest, o.id ≠ x.id) : without [x.id] (x :: rest) = rest := by
  rw [without_cons_of_mem (List.mem_singleton_self _), without_eq_self]
  simpa using hrest

theorem without_last (hfront : ∀ o ∈ front, o.id ≠ x.id) :
    without [x.id] (front ++ [x]) = front := by
  have hkeep : without [x.id] front = front := without_eq_self (by simpa using hfront)
  rw [without_append, hkeep, without_cons_of_mem (List.mem_singleton_self _)]
  exact List.append_nil front

/-- Taking out the first and the last message leaves those between them. -/
theorem without_ends {ids : List Uuid} (hx : x.id ∈ ids) (hy : y.id ∈ ids)
    (hrest : ∀ o ∈ rest, o.id ∉ ids) : without ids (x :: (rest ++ [y])) = rest := by
  rw [without_cons_of_mem hx, without_append, without_eq_self hrest, without_cons_of_mem hy]
  exact List.append_nil rest

variable (names key) in
/-- The loop of releases over a channel that accepts everything. -/
def Account.release (a : Account) : Account × Except HandlerError Unit :=
  a.serve names (fun _ => .ok ()) key

theorem Account.release_of_settled (h : Settled names a.messages) :
    a.release names key = (a, .ok ()) :=
  Account.serve_of_none (Release.of?_eq_none_iff.mpr h)

/-- One output is released, and what is left is settled. -/
theorem Account.release_once {r : Release} (hr : Release.of? names key a.messages = some r)
    (hrest : without r.consumed a.messages = rest) (hsettled : Settled names rest) :
    a.release names key = (⟨a.outputs ++ [r], rest⟩, .ok ()) := by
  have hafter : a.after r = ⟨a.outputs ++ [r], rest⟩ := congrArg (Account.mk _) hrest
  rw [release, Account.serve_of_accepted hr rfl, hafter]
  exact release_of_settled hsettled

/-! ## Messages and executions -/

variable (names key) in
/-- What sent messages and waiting executions come to: they are paired in their order, and the rest
of the longer side is pending. -/
def Account.matched (sent waiting : List EventMessage) : Account :=
  ⟨List.zipWith (Release.delivery names key) sent waiting,
    sent.drop waiting.length ++ waiting.drop sent.length⟩

namespace Account

theorem matched_append_sent (h : front.length = waiting.length) :
    matched names key (front ++ rest) waiting =
      ⟨List.zipWith (Release.delivery names key) front waiting, rest⟩ := by
  have hpaired : List.zipWith (Release.delivery names key) (front ++ rest) (waiting ++ []) =
      List.zipWith (Release.delivery names key) front waiting ++
        List.zipWith (Release.delivery names key) rest [] := List.zipWith_append h
  have hwaiting : waiting.drop (front ++ rest).length = [] := by
    refine List.drop_eq_nil_of_le ?_
    rw [List.length_append, h]
    exact Nat.le_add_right _ _
  rw [List.append_nil, List.zipWith_nil_right, List.append_nil] at hpaired
  rw [matched, hpaired, hwaiting, ← h, List.drop_left, List.append_nil]

theorem matched_append_waiting (h : sent.length = front.length) :
    matched names key sent (front ++ rest) =
      ⟨List.zipWith (Release.delivery names key) sent front, rest⟩ := by
  have hpaired : List.zipWith (Release.delivery names key) (sent ++ []) (front ++ rest) =
      List.zipWith (Release.delivery names key) sent front ++
        List.zipWith (Release.delivery names key) [] rest := List.zipWith_append h
  have hsent : sent.drop (front ++ rest).length = [] := by
    refine List.drop_eq_nil_of_le ?_
    rw [List.length_append, h]
    exact Nat.le_add_right _ _
  rw [List.append_nil, List.zipWith_nil_left, List.append_nil] at hpaired
  rw [matched, hpaired, hsent, h, List.drop_left, List.nil_append]

/-- One more execution receives the next sent message. -/
theorem matched_meets_sent (h : front.length = waiting.length) :
    matched names key (front ++ x :: rest) (waiting ++ [m]) =
      ⟨List.zipWith (Release.delivery names key) front waiting ++
        [Release.delivery names key x m], rest⟩ := by
  have hlength : (front ++ [x]).length = (waiting ++ [m]).length := by simp [h]
  rw [List.append_cons, matched_append_sent hlength, List.zipWith_append h]
  rfl

/-- One more sent message is delivered to the next execution. -/
theorem matched_meets_waiting (h : sent.length = front.length) :
    matched names key (sent ++ [m]) (front ++ x :: rest) =
      ⟨List.zipWith (Release.delivery names key) sent front ++ [Release.delivery names key m x],
        rest⟩ := by
  have hlength : (sent ++ [m]).length = (front ++ [x]).length := by simp [h]
  rw [List.append_cons front, matched_append_waiting hlength, List.zipWith_append h]
  rfl

/-- A list goes on behind as many messages as another has, or is not longer than it. -/
theorem exists_append_cons_or_le (ms others : List EventMessage) :
    (∃ front m rest, ms = front ++ m :: rest ∧ front.length = others.length) ∨
      ∃ front rest, others = front ++ rest ∧ front.length = ms.length := by
  by_cases hlt : others.length < ms.length
  · refine Or.inl ⟨ms.take others.length, ms[others.length], ms.drop (others.length + 1), ?_, ?_⟩
    · rw [← List.drop_eq_getElem_cons hlt, List.take_append_drop]
    · rw [List.length_take, Nat.min_eq_left (Nat.le_of_lt hlt)]
  · refine Or.inr ⟨others.take ms.length, others.drop ms.length, ?_, ?_⟩
    · exact (List.take_append_drop _ _).symm
    · rw [List.length_take, Nat.min_eq_left (Nat.le_of_not_lt hlt)]

theorem mem_matched {o : EventMessage} (ho : o ∈ (matched names key sent waiting).messages) :
    o ∈ sent ++ waiting := by
  rcases List.mem_append.mp ho with ho | ho
  · exact List.mem_append_left _ (List.mem_of_mem_drop ho)
  · exact List.mem_append_right _ (List.mem_of_mem_drop ho)

/-- A sent message is delivered to the oldest execution that waits, or stays pending. -/
theorem release_matched_sent (h : Sides names .waiting (sent ++ [m]) waiting) :
    ((matched names key sent waiting).join m).release names key =
      (matched names key (sent ++ [m]) waiting, .ok ()) := by
  have hfresh := h.fresh_sent
  have hm : m.isOf names .sent = true := h.allSent m (by simp)
  have hnot := h.not_sent (by decide)
  rw [join_of_fresh fun o ho => hfresh o (mem_matched ho)]
  rcases exists_append_cons_or_le waiting sent with ⟨front, w, rest, rfl, hlen⟩ |
    ⟨front, rest, rfl, hlen⟩
  · have hw : w.isOf names .waiting = true := h.allOthers w (by simp)
    have hwrest : ∀ o ∈ w :: rest, o.isOf names .sent = false :=
      fun o ho => hnot o (List.mem_append_right _ ho)
    have hr : Release.of? names key (w :: (rest ++ [m])) =
        some (Release.delivery names key m w) :=
      Release.of?_eq_some_iff_made.mpr ⟨m, find?_isOf hwrest hm [],
        Or.inl ⟨w, List.find?_cons_of_pos hw, rfl⟩⟩
    have hapart : ∀ o ∈ rest, o.id ∉ [m.id, w.id] := by
      intro o ho
      have hne : o.id ≠ m.id := hfresh o (by simp [ho])
      have hne' : o.id ≠ w.id := ne_of_nodup_cons h.nodup
        ((List.sublist_append_right front _).trans (List.sublist_append_right _ _)) o ho
      simp [hne, hne']
    have hsettled : Settled names rest := Or.inl fun o ho => hwrest o (List.mem_cons_of_mem _ ho)
    have hrest : without [m.id, w.id] (w :: (rest ++ [m])) = rest :=
      without_ends (by simp) (by simp) hapart
    rw [matched_meets_waiting hlen.symm, matched_append_waiting hlen.symm]
    exact release_once hr hrest hsettled
  · rw [List.append_assoc, matched_append_sent hlen, matched_append_sent hlen]
    refine release_of_settled (h.settled_sent.mono fun o ho => ?_)
    rw [List.append_assoc]
    exact List.mem_append_right _ ho

/-- An execution receives the oldest sent message, or stays pending. -/
theorem release_matched_waiting (h : Sides names .waiting sent (waiting ++ [m])) :
    ((matched names key sent waiting).join m).release names key =
      (matched names key sent (waiting ++ [m]), .ok ()) := by
  have hfresh := h.fresh_others
  have hm : m.isOf names .waiting = true := h.allOthers m (by simp)
  have hnot := h.not_others (by decide)
  rw [join_of_fresh fun o ho => hfresh o (mem_matched ho)]
  rcases exists_append_cons_or_le sent waiting with ⟨front, s, rest, rfl, hlen⟩ |
    ⟨front, rest, rfl, hlen⟩
  · have hs : s.isOf names .sent = true := h.allSent s (by simp)
    have hsrest : ∀ o ∈ s :: rest, o.isOf names .waiting = false :=
      fun o ho => hnot o (List.mem_append_right _ ho)
    have hr : Release.of? names key (s :: (rest ++ [m])) =
        some (Release.delivery names key s m) :=
      Release.of?_eq_some_iff_made.mpr ⟨s, List.find?_cons_of_pos hs,
        Or.inl ⟨m, find?_isOf hsrest hm [], rfl⟩⟩
    have hapart : ∀ o ∈ rest, o.id ∉ [s.id, m.id] := by
      intro o ho
      have hne : o.id ≠ m.id := hfresh o (by simp [ho])
      have hne' : o.id ≠ s.id := ne_of_nodup_cons h.nodup
        ((List.sublist_append_right front _).trans (List.sublist_append_left _ _)) o ho
      simp [hne, hne']
    have hsettled : Settled names rest := h.settled_sent.mono fun o ho => by simp [ho]
    have hrest : without [s.id, m.id] (s :: (rest ++ [m])) = rest :=
      without_ends (by simp) (by simp) hapart
    rw [matched_meets_sent hlen, matched_append_sent hlen]
    exact release_once hr hrest hsettled
  · rw [List.append_assoc, matched_append_waiting hlen.symm, matched_append_waiting hlen.symm]
    refine release_of_settled ((h.settled_others (by decide)).mono fun o ho => ?_)
    rw [List.append_assoc]
    exact List.mem_append_right _ ho

end Account

/-! ## Messages and registrations -/

variable (names key) in
/-- What sent messages and registrations come to: every message starts a process of the oldest
registration, and the registrations stay. -/
def Account.started (sent : List EventMessage) : List EventMessage → Account
  | [] => ⟨[], sent⟩
  | d :: deployed => ⟨sent.map (Release.launch names key d), d :: deployed⟩

namespace Account

theorem mem_started {o : EventMessage} (ho : o ∈ (started names key sent deployed).messages) :
    o ∈ sent ++ deployed := by
  cases deployed with
  | nil => exact List.mem_append_left _ ho
  | cons d deployed => exact List.mem_append_right _ ho

/-- A sent message starts a process of the oldest registration, or stays pending. -/
theorem release_started_sent (h : Sides names .startDeployed (sent ++ [m]) deployed) :
    ((started names key sent deployed).join m).release names key =
      (started names key (sent ++ [m]) deployed, .ok ()) := by
  have hfresh := h.fresh_sent
  have hm : m.isOf names .sent = true := h.allSent m (by simp)
  rw [join_of_fresh fun o ho => hfresh o (mem_started ho)]
  cases deployed with
  | nil => exact release_of_settled h.settled_sent
  | cons d deployed =>
    have hd : d.isOf names .startDeployed = true := h.allOthers d List.mem_cons_self
    have hnone : ∀ o ∈ d :: (deployed ++ [m]), o.isOf names .waiting = false := by
      intro o ho
      rcases List.mem_append.mp (List.cons_append ▸ ho) with ho | ho
      · exact Message.isOf_of_ne (by decide) (h.allOthers o ho)
      · exact List.mem_singleton.mp ho ▸ Message.isOf_of_ne (by decide) hm
    have hr : Release.of? names key (d :: (deployed ++ [m])) =
        some (Release.launch names key d m) :=
      Release.of?_eq_some_iff_made.mpr ⟨m, find?_isOf (h.not_sent (by decide)) hm [],
        Or.inr ⟨find?_isOf_eq_none hnone, d, List.find?_cons_of_pos hd, rfl⟩⟩
    have hrest : without [m.id] (d :: deployed ++ [m]) = d :: deployed :=
      without_last fun o ho => hfresh o (List.mem_append_right _ ho)
    have hnext : started names key (sent ++ [m]) (d :: deployed) =
        ⟨sent.map (Release.launch names key d) ++ [Release.launch names key d m],
          d :: deployed⟩ := by
      rw [started, List.map_append]
      rfl
    rw [hnext]
    exact release_once hr hrest (h.settled_others (by decide))

/-- The first registration takes all messages that were sent, in their order. -/
theorem release_all {d : EventMessage} (h : Sides names .startDeployed sent [d])
    (outputs : List Release) :
    (⟨outputs, sent ++ [d]⟩ : Account).release names key =
      (⟨outputs ++ sent.map (Release.launch names key d), [d]⟩, .ok ()) := by
  have hd : d.isOf names .startDeployed = true := h.allOthers d List.mem_cons_self
  induction sent generalizing outputs with
  | nil =>
    rw [List.map_nil, List.append_nil]
    exact release_of_settled (h.settled_others (by decide))
  | cons s sent ih =>
    have hs : s.isOf names .sent = true := h.allSent s List.mem_cons_self
    have hnone : ∀ o ∈ s :: (sent ++ [d]), o.isOf names .waiting = false := by
      intro o ho
      rcases List.mem_append.mp (List.cons_append ▸ ho) with ho | ho
      · exact Message.isOf_of_ne (by decide) (h.allSent o ho)
      · exact List.mem_singleton.mp ho ▸ Message.isOf_of_ne (by decide) hd
    have hr : Release.of? names key (s :: (sent ++ [d])) =
        some (Release.launch names key d s) :=
      Release.of?_eq_some_iff_made.mpr ⟨s, List.find?_cons_of_pos hs,
        Or.inr ⟨find?_isOf_eq_none hnone, d, find?_isOf (h.not_others (by decide)) hd [], rfl⟩⟩
    have hrest : without [s.id] (s :: (sent ++ [d])) = sent ++ [d] :=
      without_first fun o ho => ne_of_nodup_cons h.nodup (List.Sublist.refl _) o ho
    have hafter : (⟨outputs, s :: (sent ++ [d])⟩ : Account).after (Release.launch names key d s) =
        ⟨outputs ++ [Release.launch names key d s], sent ++ [d]⟩ := congrArg (mk _) hrest
    have hsides : Sides names .startDeployed sent [d] :=
      ⟨fun o ho => h.allSent o (List.mem_cons_of_mem _ ho), h.allOthers,
        (List.nodup_cons.mp h.nodup).2⟩
    rw [List.cons_append, release, serve_of_accepted hr rfl, hafter, List.map_cons]
    rw [← release, ih hsides, List.append_assoc]
    rfl

/-- A registration takes all messages that were sent if it is the first, or joins the others. -/
theorem release_started_deployed (h : Sides names .startDeployed sent (deployed ++ [m])) :
    ((started names key sent deployed).join m).release names key =
      (started names key sent (deployed ++ [m]), .ok ()) := by
  rw [join_of_fresh fun o ho => h.fresh_others o (mem_started ho)]
  cases deployed with
  | nil => exact release_all h []
  | cons d deployed => exact release_of_settled (h.settled_others (by decide))

end Account

variable (names key type) in
/-- What two sides come to, whatever the order in which their messages join. -/
structure Combines (combine : List EventMessage → List EventMessage → Account) : Prop where
  empty : combine [] [] = ⟨[], []⟩
  joinSent : ∀ {sent others m}, Sides names type (sent ++ [m]) others →
    ((combine sent others).join m).release names key = (combine (sent ++ [m]) others, .ok ())
  joinOther : ∀ {sent others m}, Sides names type sent (others ++ [m]) →
    ((combine sent others).join m).release names key = (combine sent (others ++ [m]), .ok ())

theorem Combines.matched : Combines names key .waiting (Account.matched names key) :=
  ⟨rfl, Account.release_matched_sent, Account.release_matched_waiting⟩

theorem Combines.started : Combines names key .startDeployed (Account.started names key) :=
  ⟨rfl, Account.release_started_sent, Account.release_started_deployed⟩

end

/-! ## Runs of two sides -/

/-- A message of a type that has a key and can be decoded. -/
structure FlowSettings.Brings (settings : FlowSettings) (key : CorrelationKey) (type : EventType)
    (m : RawMessage) (e : EventMessage) : Prop where
  derived : settings.flow.derive m = .ok key
  typed : m.headers.text? settings.names.eventType = some type.text
  decoded : Flow.decode (m.withText settings.names.correlationId key) = .ok e

section
variable {κ : Type} {settings : FlowSettings} {key : CorrelationKey} {type : EventType}
  {m : RawMessage} {e : EventMessage} {carrier : Carrier κ} {w v : World κ} {a a' : Account}
  {result : Except FlowError FlowOutcome} {results : List (Except FlowError FlowOutcome)}
  {combine : List EventMessage → List EventMessage → Account} {sent others : List EventMessage}

namespace FlowSettings.Brings

/-- The handlers take such a message. -/
theorem route (h : settings.Brings key type m e) : settings.flow.route m = .accept e := by
  have hfilter : settings.flow.filter m = true := by
    obtain ⟨value, hvalue, htext⟩ := Option.bind_eq_some_iff.mp h.typed
    show m.headers.present settings.names.eventType = true
    rw [Headers.present, hvalue]
    cases value with
    | null => cases htext
    | _ => rfl
  rw [Flow.route, if_pos hfilter, h.derived]
  dsimp only
  rw [show settings.flow.names = settings.names from rfl, h.decoded]

theorem key_eq (h : settings.Brings key type m e) (hnames : settings.names.Legible) :
    e.headers.text? settings.names.correlationId = some key :=
  Flow.key_of_derive (f := settings.flow) hnames h.route h.derived

theorem isOf (h : settings.Brings key type m e) (hnames : settings.names.Legible) :
    e.isOf settings.names type = true :=
  decide_eq_true
    ((Flow.eventType_of_route (f := settings.flow) hnames h.route).trans h.typed)

theorem isAggregated (h : settings.Brings key type m e) (hnames : settings.names.Legible)
    (htype : type.isAggregated = true) : e.isAggregated settings.names = true := by
  have hof := h.isOf hnames
  cases type with
  | startDeployed => exact Message.isAggregated_iff.mpr (Or.inl hof)
  | waiting => exact Message.isAggregated_iff.mpr (Or.inr (Or.inl hof))
  | sent => exact Message.isAggregated_iff.mpr (Or.inr (Or.inr hof))
  | received | cancelled | other => cases htype

end FlowSettings.Brings

/-- A message that was not claimed joins its group, and the loop of releases does the rest. -/
theorem Alone.joins (hadvices : settings.advices = []) (hnames : settings.names.Legible)
    (haccepts : ∀ channel m, (carrier.send channel m).2 = .ok ())
    (hm : settings.Brings key type m e) (htype : type.isAggregated = true)
    (hfree : w.claims.claimed e.id = false) (hw : Serene settings w)
    (haccount : account (fun _ => true) key w.history = a)
    (hrelease : (a.join e).release settings.names key = (a', .ok ()))
    (h : Alone carrier settings.flow w (.arrived m) v result) :
    Serene settings v ∧ account (fun _ => true) key v.history = a' ∧ result = .ok .handled ∧
      ∀ id, v.claims.claimed id = true → id = e.id ∨ w.claims.claimed id = true := by
  have hverdict : ∀ channel m, (carrier.send channel m).2 = (fun _ => .ok ()) m := haccepts
  obtain ⟨hv, hhandled⟩ := h.handled hadvices hverdict hm.route (hm.key_eq hnames) hw
  cases hhandled with
  | repeats once claimed claims same =>
    rw [hfree] at claimed
    cases claimed
  | @serves outcome leaves own others =>
    have hserved : (account (fun _ => true) key v.history, outcome) = (a', .ok ()) := by
      rw [own _ rfl, World.served, Plan.start_of_aggregated (hm.isAggregated hnames htype),
        haccount]
      exact hrelease
    obtain ⟨rfl, rfl⟩ := Prod.mk.inj hserved
    refine ⟨hv, rfl, rfl, fun id hid => ?_⟩
    generalize v.claims = now at leaves hid
    cases leaves with
    | off never => exact Or.inr hid
    | settles value once free => exact ClaimStore.claimed_of_put hid

/-- A serene world in which the messages of two sides have come to what the sides come to, and no
other message was claimed. -/
structure World.ComesTo (w : World κ) (settings : FlowSettings) (key : CorrelationKey)
    (combine : List EventMessage → List EventMessage → Account)
    (sent others : List EventMessage) : Prop where
  serene : Serene settings w
  account : account (fun _ => true) key w.history = combine sent others
  claims : ∀ id, w.claims.claimed id = true → ∃ o ∈ sent ++ others, o.id = id

/-- A message that is told apart from those of the sides is not claimed. -/
theorem World.ComesTo.free (hw : w.ComesTo settings key combine sent others)
    (hfresh : ∀ o ∈ sent ++ others, o.id ≠ e.id) : w.claims.claimed e.id = false := by
  refine Bool.eq_false_iff.mpr fun hclaimed => ?_
  obtain ⟨o, ho, hid⟩ := hw.claims e.id hclaimed
  exact hfresh o ho hid

/-- The next message of the sent side. -/
theorem Alone.comesTo_sent (hadvices : settings.advices = []) (hnames : settings.names.Legible)
    (haccepts : ∀ channel m, (carrier.send channel m).2 = .ok ())
    (hcombines : Combines settings.names key type combine)
    (hm : settings.Brings key .sent m e)
    (hsides : Sides settings.names type (sent ++ [e]) others)
    (hw : w.ComesTo settings key combine sent others)
    (h : Alone carrier settings.flow w (.arrived m) v result) :
    v.ComesTo settings key combine (sent ++ [e]) others ∧ result = .ok .handled := by
  obtain ⟨hv, haccount, hresult, hgrown⟩ := h.joins hadvices hnames haccepts hm rfl
    (hw.free hsides.fresh_sent) hw.serene hw.account (hcombines.joinSent hsides)
  refine ⟨⟨hv, haccount, fun id hid => ?_⟩, hresult⟩
  rcases hgrown id hid with rfl | hid
  · exact ⟨e, by simp, rfl⟩
  · obtain ⟨o, ho, hid⟩ := hw.claims id hid
    exact ⟨o, by simpa [or_assoc, or_left_comm] using Or.inr (List.mem_append.mp ho), hid⟩

/-- The next message of the other side. -/
theorem Alone.comesTo_other (hadvices : settings.advices = []) (hnames : settings.names.Legible)
    (haccepts : ∀ channel m, (carrier.send channel m).2 = .ok ())
    (htype : type.isAggregated = true) (hcombines : Combines settings.names key type combine)
    (hm : settings.Brings key type m e)
    (hsides : Sides settings.names type sent (others ++ [e]))
    (hw : w.ComesTo settings key combine sent others)
    (h : Alone carrier settings.flow w (.arrived m) v result) :
    v.ComesTo settings key combine sent (others ++ [e]) ∧ result = .ok .handled := by
  obtain ⟨hv, haccount, hresult, hgrown⟩ := h.joins hadvices hnames haccepts hm htype
    (hw.free hsides.fresh_others) hw.serene hw.account (hcombines.joinOther hsides)
  refine ⟨⟨hv, haccount, fun id hid => ?_⟩, hresult⟩
  rw [← List.append_assoc]
  rcases hgrown id hid with rfl | hid
  · exact ⟨e, List.mem_append_right _ (List.mem_singleton_self e), rfl⟩
  · obtain ⟨o, ho, hid⟩ := hw.claims id hid
    exact ⟨o, List.mem_append_left _ ho, hid⟩

/-- The messages of two sides, sent one after the other in any order that keeps that of each side,
come to what the sides come to. -/
theorem Serially.comesTo (hadvices : settings.advices = []) (hnames : settings.names.Legible)
    (haccepts : ∀ channel m, (carrier.send channel m).2 = .ok ())
    (htype : type.isAggregated = true) (hcombines : Combines settings.names key type combine)
    {S O ms : List RawMessage} (hms : Interleaves S O ms) {sent' others' : List EventMessage}
    (hS : List.Forall₂ (settings.Brings key .sent) S sent')
    (hO : List.Forall₂ (settings.Brings key type) O others')
    (hsides : Sides settings.names type (sent ++ sent') (others ++ others'))
    (hw : w.ComesTo settings key combine sent others)
    (h : Serially carrier settings.flow w ms v results) :
    v.ComesTo settings key combine (sent ++ sent') (others ++ others') ∧
      ∀ r ∈ results, r = .ok .handled := by
  induction hms generalizing sent others sent' others' w results with
  | nil =>
    cases hS
    cases hO
    cases h
    rw [List.append_nil, List.append_nil]
    exact ⟨hw, fun r hr => by cases hr⟩
  | left hrest ih =>
    cases hS with
    | cons hm hS =>
    cases h with
    | cons first rest =>
    rw [List.append_cons] at hsides ⊢
    have hnow := hsides.mono (List.sublist_append_left _ _) (List.sublist_append_left _ _)
    obtain ⟨hv, rfl⟩ := first.comesTo_sent hadvices hnames haccepts hcombines hm hnow hw
    obtain ⟨hu, hresults⟩ := ih hS hO hsides hv rest
    exact ⟨hu, List.forall_mem_cons.mpr ⟨rfl, hresults⟩⟩
  | right hrest ih =>
    cases hO with
    | cons hm hO =>
    cases h with
    | cons first rest =>
    rw [List.append_cons others] at hsides ⊢
    have hnow := hsides.mono (List.sublist_append_left _ _) (List.sublist_append_left _ _)
    obtain ⟨hv, rfl⟩ := first.comesTo_other hadvices hnames haccepts htype hcombines hm hnow hw
    obtain ⟨hu, hresults⟩ := ih hS hO hsides hv rest
    exact ⟨hu, List.forall_mem_cons.mpr ⟨rfl, hresults⟩⟩

end

/-! ## Order of arrival -/

/-- Messages can be sent one after the other from empty stores, with any room for claims, and
however they are, they are handled, and the accepted outputs and what is pending under a key are
those of an account. -/
def FlowSettings.Yields {κ : Type} (settings : FlowSettings) (carrier : Carrier κ)
    (key : CorrelationKey) (ms : List RawMessage) (a : Account) : Prop :=
  ∀ channel clock capacity letters,
    (∃ v results, Serially carrier settings.flow
      (.start channel clock (.ofCapacity capacity) letters) ms v results) ∧
    ∀ v results, Serially carrier settings.flow
        (.start channel clock (.ofCapacity capacity) letters) ms v results →
      (∀ r ∈ results, r = .ok .handled) ∧ outputs (fun _ => true) v.history = a.outputs ∧
        v.groups.messages key = a.messages

section
variable {κ : Type} {settings : FlowSettings} {key : CorrelationKey} {type : EventType}
  {carrier : Carrier κ} {w : World κ} {sent others : List EventMessage}
  {combine : List EventMessage → List EventMessage → Account} {S O ms : List RawMessage}

theorem Interleaves.perm {α : Type} {as bs cs : List α} (h : Interleaves as bs cs) :
    cs.Perm (as ++ bs) := by
  induction h with
  | nil => exact .nil
  | left rest ih => exact ih.cons _
  | right rest ih => exact (ih.cons _).trans List.perm_middle.symm

/-- Messages can be sent one after the other. -/
theorem Serene.exists_serially (hadvices : settings.advices = [])
    {verdict : RawMessage → Except ChannelError Unit}
    (hverdict : ∀ channel m, (carrier.send channel m).2 = verdict m) (hw : Serene settings w)
    (ms : List RawMessage) : ∃ v results, Serially carrier settings.flow w ms v results := by
  induction ms generalizing w with
  | nil => exact ⟨w, [], .nil⟩
  | cons m ms ih =>
    obtain ⟨v, result, first⟩ : Returns carrier settings.flow w (.arrived m) :=
      returns_arrived hadvices hw.calm.quiet hw.calm.raised m
    obtain ⟨u, results, rest⟩ := ih (first.serene hadvices hverdict hw)
    exact ⟨u, result :: results, .cons first rest⟩

theorem FlowSettings.map_id_of_brings (h : List.Forall₂ (settings.Brings key type) S sent) :
    sent.map Message.id = S.map Message.id := by
  induction h with
  | nil => rfl
  | cons hm _ ih => exact congrArg₂ _ (Flow.id_of_route hm.route) ih

theorem FlowSettings.isOf_of_brings (hnames : settings.names.Legible)
    (h : List.Forall₂ (settings.Brings key type) S sent) :
    ∀ e ∈ sent, e.isOf settings.names type = true := by
  induction h with
  | nil => exact fun e he => by cases he
  | cons hm _ ih => exact List.forall_mem_cons.mpr ⟨hm.isOf hnames, ih⟩

/-- What two sides come to, they come to in every order. -/
theorem Combines.yields (hadvices : settings.advices = []) (hnames : settings.names.Legible)
    (haccepts : ∀ channel m, (carrier.send channel m).2 = .ok ())
    (htype : type.isAggregated = true) (hcombines : Combines settings.names key type combine)
    (hms : Interleaves S O ms) (hids : (ms.map Message.id).Nodup)
    (hS : List.Forall₂ (settings.Brings key .sent) S sent)
    (hO : List.Forall₂ (settings.Brings key type) O others) :
    settings.Yields carrier key ms (combine sent others) := by
  intro channel clock capacity letters
  have hverdict : ∀ channel m, (carrier.send channel m).2 = (fun _ => .ok ()) m := haccepts
  have hstart := Serene.start settings channel clock capacity letters
  refine ⟨hstart.exists_serially hadvices hverdict ms, fun v results h => ?_⟩
  have hnodup : ((sent ++ others).map Message.id).Nodup := by
    rw [List.map_append, FlowSettings.map_id_of_brings hS, FlowSettings.map_id_of_brings hO,
      ← List.map_append]
    exact (hms.perm.map Message.id).nodup_iff.mp hids
  have hsides : Sides settings.names type ([] ++ sent) ([] ++ others) :=
    ⟨FlowSettings.isOf_of_brings hnames hS, FlowSettings.isOf_of_brings hnames hO, hnodup⟩
  have hempty : (World.start channel clock (.ofCapacity capacity) letters).ComesTo settings key
      combine [] [] := by
    refine ⟨hstart, hcombines.empty.symm, fun id hid => ?_⟩
    rw [show (World.start channel clock (.ofCapacity capacity) letters).claims.claimed id = false
      from congrArg Option.isSome (Dict.find?_empty _)] at hid
    cases hid
  obtain ⟨hv, hresults⟩ := h.comesTo hadvices hnames haccepts htype hcombines hms hS hO hsides
    hempty
  have haccount : account (fun _ => true) key v.history = combine sent others := hv.account
  refine ⟨hresults, congrArg Account.outputs haccount, ?_⟩
  rw [hv.serene.calm.quiet.faithful.pages]
  exact congrArg Account.messages haccount

end

/-- A message whose key and type are known and whose body can be decoded. -/
theorem FlowSettings.exists_brings {settings : FlowSettings} {key : CorrelationKey}
    {type : EventType} {m : RawMessage} (hderived : settings.flow.derive m = .ok key)
    (htyped : m.headers.text? settings.names.eventType = some type.text)
    (hdecodes : (EventPayload.decode m.payload).isOk = true) :
    ∃ e, settings.Brings key type m e ∧ e.id = m.id := by
  cases hpayload : EventPayload.decode m.payload with
  | error problem =>
    rw [hpayload] at hdecodes
    cases hdecodes
  | ok payload =>
    refine ⟨Message.assemble m.id (m.withText settings.names.correlationId key).headers payload,
      ⟨hderived, htyped, ?_⟩, rfl⟩
    rw [Flow.decode, show (m.withText settings.names.correlationId key).payload = m.payload from
      rfl, hpayload]
    rfl

/-- A message about the payment whose body can be decoded. -/
theorem exists_brings_orderPaid (id : Nat) (type : EventType) {body : String}
    (hbody : (EventPayload.decode (Text.toBytes body)).isOk = true) :
    ∃ e, FlowSettings.Brings {} "order-paid:42" type (orderPaid id type body) e ∧
      e.id = .ofNat id := by
  have htext (name : String) : (orderPaid id type body).headers.text? name =
      if name = Headers.idName then some (Uuid.ofNat id).text
      else if name = "messageEventCorrelationKey" then some "42"
      else if name = "messageEventName" then some "order-paid"
      else if name = "eventType" then some type.text else none := by
    unfold orderPaid Message.assemble
    simp only [Headers.text?_putText]
    rfl
  have hname : (orderPaid id type body).headers.text? "messageEventName" = some "order-paid" :=
    htext _
  have hkey : (orderPaid id type body).headers.text? "messageEventCorrelationKey" = some "42" :=
    htext _
  refine FlowSettings.exists_brings ?_ (htext _) hbody
  show Correlation.ofEvent {} (orderPaid id type body).headers = _
  rw [Correlation.ofEvent, hname, hkey]
  rfl

/-- Messages of one key, told apart by their identities, over a channel that accepts everything.
Sent messages and waiting executions, in whatever order that keeps the order of either side, are
paired in their order, and the rest of the longer side is pending.  And with one registration at
least, in whatever order, every sent message starts a process of the oldest registration, and the
registrations are pending. -/
theorem arrival_order_irrelevant {κ : Type} {settings : FlowSettings}
    (hadvices : settings.advices = []) (hnames : settings.names.Legible) {carrier : Carrier κ}
    (haccepts : ∀ channel m, (carrier.send channel m).2 = .ok ()) {key : CorrelationKey}
    {S : List RawMessage} {sent : List EventMessage}
    (hS : List.Forall₂ (settings.Brings key .sent) S sent) :
    (∀ W waiting ms, List.Forall₂ (settings.Brings key .waiting) W waiting →
      Interleaves S W ms → (ms.map Message.id).Nodup →
      settings.Yields carrier key ms
        ⟨List.zipWith (Release.delivery settings.names key) sent waiting,
          sent.drop waiting.length ++ waiting.drop sent.length⟩) ∧
    ∀ D first deployed ms, List.Forall₂ (settings.Brings key .startDeployed) D (first :: deployed) →
      Interleaves S D ms → (ms.map Message.id).Nodup →
      settings.Yields carrier key ms
        ⟨sent.map (Release.launch settings.names key first), first :: deployed⟩ := by
  constructor
  · intro W waiting ms hW hms hids
    exact Combines.yields hadvices hnames haccepts rfl .matched hms hids hS hW
  · intro D first deployed ms hD hms hids
    exact Combines.yields hadvices hnames haccepts rfl .started hms hids hS hD

/-- An execution waits before two payments are made, and two processes are deployed between them. -/
theorem arrival_order_irrelevant_of_orders : ∃ sent₁ sent₂ waiting deployed₁ deployed₂,
    [sent₁, sent₂, waiting, deployed₁, deployed₂].map Message.id = [1, 2, 3, 4, 5].map Uuid.ofNat ∧
    FlowSettings.Yields {} Carrier.taker "order-paid:42"
      [orderAwaited 3, orderSent 1, orderSent 2]
      ⟨[Release.delivery {} "order-paid:42" sent₁ waiting], [sent₂]⟩ ∧
    FlowSettings.Yields {} Carrier.taker "order-paid:42"
      [orderSent 1, orderDeployed 4, orderSent 2, orderDeployed 5]
      ⟨[Release.launch {} "order-paid:42" deployed₁ sent₁,
        Release.launch {} "order-paid:42" deployed₁ sent₂], [deployed₁, deployed₂]⟩ := by
  let settings : FlowSettings := {}
  obtain ⟨sent₁, h₁, hid₁⟩ : ∃ e, settings.Brings "order-paid:42" .sent (orderSent 1) e ∧ _ :=
    exists_brings_orderPaid 1 .sent (by decide +kernel)
  obtain ⟨sent₂, h₂, hid₂⟩ : ∃ e, settings.Brings "order-paid:42" .sent (orderSent 2) e ∧ _ :=
    exists_brings_orderPaid 2 .sent (by decide +kernel)
  obtain ⟨waiting, h₃, hid₃⟩ :
      ∃ e, settings.Brings "order-paid:42" .waiting (orderAwaited 3) e ∧ _ :=
    exists_brings_orderPaid 3 .waiting (by decide +kernel)
  obtain ⟨deployed₁, h₄, hid₄⟩ :
      ∃ e, settings.Brings "order-paid:42" .startDeployed (orderDeployed 4) e ∧ _ :=
    exists_brings_orderPaid 4 .startDeployed (by decide +kernel)
  obtain ⟨deployed₂, h₅, hid₅⟩ :
      ∃ e, settings.Brings "order-paid:42" .startDeployed (orderDeployed 5) e ∧ _ :=
    exists_brings_orderPaid 5 .startDeployed (by decide +kernel)
  have haccepts : ∀ channel m, (Carrier.taker.send channel m).2 = .ok () := fun _ _ => rfl
  have hyields := arrival_order_irrelevant (rfl : settings.advices = [])
    HeaderNames.legible_default haccepts (.cons h₁ (.cons h₂ .nil))
  have hids : ([orderAwaited 3, orderSent 1, orderSent 2].map Message.id).Nodup := by
    decide +kernel
  have hids' : ([orderSent 1, orderDeployed 4, orderSent 2, orderDeployed 5].map
      Message.id).Nodup := by
    decide +kernel
  refine ⟨sent₁, sent₂, waiting, deployed₁, deployed₂, ?_, ?_, ?_⟩
  · simp only [List.map_cons, List.map_nil, hid₁, hid₂, hid₃, hid₄, hid₅]
  · exact hyields.1 _ _ _ (.cons h₃ .nil) (.right (.left (.left .nil))) hids
  · exact hyields.2 _ _ _ _ (.cons h₄ (.cons h₅ .nil))
      (.left (.right (.left (.right .nil)))) hids'

end Rendezvous
