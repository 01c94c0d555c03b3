/-
The command that is released is the one that is executed.

A command is carried out by the calls of a process engine, whatever their answers are
(`ProcessEngine.send`); recording the calls changes nothing else (`ProcessEngine.send_recording`).
The kind and the body of an output survive their way through header and text, so the calls are
those of the messages that were paired (`ProcessEngine.send_released`).
-/
import Rendezvous.Engine.Command
import Rendezvous.Proofs.Group.Yield
import Rendezvous.Proofs.Payload

namespace Rendezvous

/-! ## Process engines -/

/-- What a process engine does to its state and answers when it is called. -/
structure ProcessEngine (ε : Type) where
  isWaiting : ε → String → ε × Except EngineError Bool
  trigger : ε → String → Variables → ε × Except EngineError Unit
  start : ε → String → Option String → Variables → ε × Except EngineError Unit

/-- A call of a process engine. -/
inductive ProcessEngine.Call where
  | isWaiting (execution : String)
  | trigger (execution : String) (vars : Variables)
  | start (message : String) (businessKey : Option String) (vars : Variables)

def Engine.process : ProcessEngine Engine := ⟨Engine.isWaiting, Engine.trigger, Engine.start⟩

namespace ProcessEngine

variable {ε : Type} (p : ProcessEngine ε)

/-- Carries out a command: what is left of it is done with the answers to the calls before. -/
def perform (e : ε) : Command → ε × Except ChannelError Unit
  | .ask execution vars =>
    match p.isWaiting e execution with
    | (e, .error err) => (e, .error (Command.refusal err))
    | (e, .ok false) => (e, .ok ())
    | (e, .ok true) =>
      let (e, r) := p.trigger e execution vars
      (e, Command.outcome r)
  | .trigger execution vars =>
    let (e, r) := p.trigger e execution vars
    (e, Command.outcome r)
  | .start message businessKey vars =>
    let (e, r) := p.start e message businessKey vars
    (e, Command.outcome r)

def send (names : HeaderNames) (e : ε) (m : RawMessage) : ε × Except ChannelError Unit :=
  match Command.ofMessage names m with
  | .error err => (e, .error err)
  | .ok c => p.perform e c

/-- The engine with a record of its calls. -/
def recording : ProcessEngine (ε × List Call) where
  isWaiting s execution :=
    let (e, r) := p.isWaiting s.1 execution
    ((e, s.2 ++ [.isWaiting execution]), r)
  trigger s execution vars :=
    let (e, r) := p.trigger s.1 execution vars
    ((e, s.2 ++ [.trigger execution vars]), r)
  start s message businessKey vars :=
    let (e, r) := p.start s.1 message businessKey vars
    ((e, s.2 ++ [.start message businessKey vars]), r)

theorem perform_recording (e : ε) (calls : List Call) (c : Command) :
    ((p.recording.perform (e, calls) c).1.1, (p.recording.perform (e, calls) c).2) =
      p.perform e c := by
  cases c with
  | ask execution vars =>
    rcases h : p.isWaiting e execution with ⟨e', err | waits⟩
    · simp only [perform, recording, h]
    · cases waits <;> simp only [perform, recording, h]
  | trigger execution vars => rfl
  | start message businessKey vars => rfl

/-- A record of the calls changes neither the engine nor the outcome. -/
theorem send_recording (names : HeaderNames) (e : ε) (calls : List Call) (m : RawMessage) :
    ((p.recording.send names (e, calls) m).1.1, (p.recording.send names (e, calls) m).2) =
      p.send names e m := by
  cases h : Command.ofMessage names m with
  | error err => simp only [send, h]
  | ok c => simpa only [send, h] using p.perform_recording e calls c

end ProcessEngine

theorem Command.run_eq (e : Engine) (c : Command) : c.run e = Engine.process.perform e c := by
  have htrigger (e : Engine) (x : String) (vars : Variables) :
      (Command.trigger x vars).run e = Engine.process.perform e (.trigger x vars) := by
    rw [run]
    rfl
  cases c with
  | ask execution vars =>
    rw [run]
    simp only [ProcessEngine.perform, Engine.process, step]
    rcases e.isWaiting execution with ⟨e', err | waits⟩
    · rfl
    · cases waits with
      | false => rfl
      | true => exact htrigger e' execution vars
  | trigger execution vars => exact htrigger e execution vars
  | start message businessKey vars =>
    rw [run]
    rfl

/-- The engine of the library is one that commands are carried out by. -/
theorem Engine.send_eq (names : HeaderNames) (e : Engine) (m : RawMessage) :
    e.send names m = Engine.process.send names e m := by
  cases h : Command.ofMessage names m with
  | error err => simp only [Engine.send, ProcessEngine.send, h]
  | ok c => simpa only [Engine.send, ProcessEngine.send, h] using Command.run_eq e c

/-! ## Outcomes -/

theorem Command.refusal_ne_serialization (err : EngineError) (reason : String) :
    refusal err ≠ .serialization reason := by
  cases err <;> exact fun h => by cases h

theorem Command.outcome_ne_serialization (r : Except EngineError Unit) (reason : String) :
    outcome r ≠ .error (.serialization reason) := by
  rcases r with err | _
  · exact fun h => refusal_ne_serialization err reason (Except.error.inj h)
  · exact fun h => by cases h

theorem Command.ofReceive_ne_serialization (c : ReceiveCommand) (reason : String) :
    ofReceive c ≠ .error (.serialization reason) := by
  unfold ofReceive
  split <;> exact fun h => by cases h

/-! ## Outputs as commands -/

section Output

variable {names : HeaderNames} {key : CorrelationKey} {subscriber : EventMessage} {ids : List Uuid}

theorem CommandKind.ofText?_text (kind : CommandKind) : ofText? kind.text = some kind := by
  cases kind <;> decide

/-- The header of the kind is that of the output unless another header was written over it. -/
theorem Release.kind_output
    (hnames : names.payloadType ∉ [names.messageName, names.destination, Headers.idName])
    (kind : CommandKind) (body : Bytes) :
    ((output names key kind body subscriber ids).message.headers.text? names.payloadType).bind
      CommandKind.ofText? = some kind := by
  simp only [List.mem_cons, List.not_mem_nil, or_false, not_or] at hnames
  obtain ⟨hname, hdestination, hid⟩ := hnames
  have hkind (h : Headers) :
      ((h.putText names.payloadType kind.text).putText names.messageName
        subscriber.payload.name).text? names.payloadType = some kind.text := by
    rw [Headers.text?_putText, if_neg hname, Headers.text?_putText, if_pos rfl]
  suffices h : (output names key kind body subscriber ids).message.headers.text?
      names.payloadType = some kind.text by
    rw [h, Option.bind_some, CommandKind.ofText?_text]
  show (Headers.putText (Headers.putText? _ names.destination _) Headers.idName _).text? _ = _
  rw [Headers.text?_putText, if_neg hid]
  cases subscriber.headers.text? names.serviceFullName with
  | none => exact hkind _
  | some s =>
    rw [Headers.putText?, Headers.text?_putText, if_neg hdestination]
    exact hkind _

/-- A receive command arrives as it was released. -/
theorem Command.ofMessage_receive
    (hnames : names.payloadType ∉ [names.messageName, names.destination, Headers.idName])
    {c : ReceiveCommand} (hvars : (Json.ofDict c.vars).Tidy) (hdepth : c.toJson.depth ≤ 127) :
    ofMessage names (Release.output names key .receive c.encode subscriber ids).message =
      ofReceive c := by
  have hdecode : ReceiveCommand.decode
      (Release.output names key .receive c.encode subscriber ids).message.payload = .ok c := by
    show ReceiveCommand.decode c.encode = .ok c
    rw [ReceiveCommand.decode_encode hvars, if_pos hdepth]
  rw [ofMessage, Release.kind_output hnames]
  dsimp only
  rw [hdecode]

/-- A start command arrives as it was released. -/
theorem Command.ofMessage_start
    (hnames : names.payloadType ∉ [names.messageName, names.destination, Headers.idName])
    {c : StartCommand} (hvars : (Json.ofDict c.vars).Tidy) (hdepth : c.toJson.depth ≤ 127) :
    ofMessage names (Release.output names key .start c.encode subscriber ids).message =
      .ok (.start c.name c.businessKey c.vars) := by
  have hdecode : StartCommand.decode
      (Release.output names key .start c.encode subscriber ids).message.payload = .ok c := by
    show StartCommand.decode c.encode = .ok c
    rw [StartCommand.decode_encode hvars, if_pos hdepth]
  rw [ofMessage, Release.kind_output hnames]
  dsimp only
  rw [hdecode]

end Output

namespace ProcessEngine

variable {ε : Type} (p : ProcessEngine ε) {names : HeaderNames} {m : RawMessage}

theorem perform_ne_serialization (e : ε) (c : Command) (reason : String) :
    (p.perform e c).2 ≠ .error (.serialization reason) := by
  cases c with
  | ask execution vars =>
    rcases h : p.isWaiting e execution with ⟨e', err | waits⟩
    · simp only [perform, h]
      exact fun he => Command.refusal_ne_serialization err reason (Except.error.inj he)
    · cases waits with
      | false => simp only [perform, h, ne_eq, reduceCtorEq, not_false_eq_true]
      | true =>
        simp only [perform, h]
        exact Command.outcome_ne_serialization _ reason
  | trigger execution vars => exact Command.outcome_ne_serialization _ reason
  | start message businessKey vars => exact Command.outcome_ne_serialization _ reason

theorem send_ne_serialization (e : ε)
    (hm : ∀ reason, Command.ofMessage names m ≠ .error (.serialization reason)) (reason : String) :
    (p.send names e m).2 ≠ .error (.serialization reason) := by
  cases h : Command.ofMessage names m with
  | error err =>
    simp only [send, h]
    exact fun he => hm reason (h.trans (congrArg Except.error (Except.error.inj he)))
  | ok c =>
    simp only [send, h]
    exact p.perform_ne_serialization e c reason

/-- What a receive command makes of an engine: one call or two, or none without an execution. -/
theorem send_receive {c : ReceiveCommand} (h : Command.ofMessage names m = Command.ofReceive c)
    (e : ε) : p.recording.send names (e, []) m =
      match c.executionId with
      | some execution =>
        match p.isWaiting e execution with
        | (e, .error err) => ((e, [.isWaiting execution]), .error (Command.refusal err))
        | (e, .ok false) => ((e, [.isWaiting execution]), .ok ())
        | (e, .ok true) =>
          let (e, answer) := p.trigger e execution c.vars
          ((e, [.isWaiting execution, .trigger execution c.vars]), Command.outcome answer)
      | none =>
        ((e, []), .error (.rejected
          ("receive command for message '" ++ c.name ++ "' has no execution id"))) := by
  cases hx : c.executionId with
  | none => simp only [send, h, Command.ofReceive, hx]
  | some execution =>
    rcases hw : p.isWaiting e execution with ⟨e', err | waits⟩
    · simp only [send, h, Command.ofReceive, hx, perform, recording, hw, List.nil_append]
    · cases waits <;>
        simp only [send, h, Command.ofReceive, hx, perform, recording, hw, List.nil_append,
          List.singleton_append]

/-- What a released output makes of an engine: the calls of the messages that were paired. -/
theorem send_released {g : Group} {r : Release}
    (hnames : names.payloadType ∉ [names.messageName, names.destination, Headers.idName])
    (hr : Release.ofGroup? names g = some r)
    (hvars : ∀ m ∈ g.messages, (Json.ofDict m.payload.vars).Tidy ∧ m.payload.toJson.depth ≤ 127)
    (e : ε) :
    (∃ sent, g.first? names.eventType .sent = some sent ∧
      p.recording.send names (e, []) r.message =
        match g.first? names.eventType .waiting with
        | some waiting =>
          match waiting.payload.executionId with
          | some execution =>
            match p.isWaiting e execution with
            | (e, .error err) => ((e, [.isWaiting execution]), .error (Command.refusal err))
            | (e, .ok false) => ((e, [.isWaiting execution]), .ok ())
            | (e, .ok true) =>
              let (e, answer) := p.trigger e execution sent.payload.vars
              ((e, [.isWaiting execution, .trigger execution sent.payload.vars]),
                Command.outcome answer)
          | none =>
            ((e, []), .error (.rejected
              ("receive command for message '" ++ sent.payload.name ++ "' has no execution id")))
        | none =>
          let (e, answer) :=
            p.start e sent.payload.name sent.payload.businessKey sent.payload.vars
          ((e, [.start sent.payload.name sent.payload.businessKey sent.payload.vars]),
            Command.outcome answer)) ∧
    ∀ reason, (p.recording.send names (e, []) r.message).2 ≠ .error (.serialization reason) := by
  rw [Release.ofGroup?_eq, Release.of?_eq_some_iff] at hr
  obtain ⟨sent, hsent, hr⟩ := hr
  obtain ⟨htidy, hdepth⟩ := hvars sent (List.mem_of_find?_eq_some hsent)
  rw [EventPayload.depth_toJson] at hdepth
  rcases hr with ⟨waiting, hwaiting, rfl⟩ | ⟨hwaiting, deployed, -, rfl⟩
  · have hcommand : Command.ofMessage names (Release.output names g.key .receive
        (Release.receiveCommand sent.payload waiting.payload).encode waiting
        [sent.id, waiting.id]).message = _ :=
      Command.ofMessage_receive hnames htidy (by rw [ReceiveCommand.depth_toJson]; exact hdepth)
    refine ⟨⟨sent, hsent, ?_⟩, p.recording.send_ne_serialization (e, []) ?_⟩
    · rw [Release.first?_eq, hwaiting]
      exact p.send_receive hcommand e
    · rw [hcommand]
      exact Command.ofReceive_ne_serialization _
  · have hcommand : Command.ofMessage names (Release.output names g.key .start
        (Release.startCommand sent.payload).encode deployed [sent.id]).message = _ :=
      Command.ofMessage_start hnames htidy (by rw [StartCommand.depth_toJson]; exact hdepth)
    refine ⟨⟨sent, hsent, ?_⟩, p.recording.send_ne_serialization (e, []) ?_⟩
    · rw [Release.first?_eq, hwaiting]
      simp only [send, hcommand]
      rfl
    · rw [hcommand]
      exact fun _ h => by cases h

/-! ## An execution that waits -/

def waitingMessage : EventMessage :=
  ⟨Uuid.ofNat 1, Headers.none.putText "eventType" EventType.waiting.text,
    { name := "näme", executionId := some "execution" }⟩

/-- A sent message with variables as deep as they may be. -/
def sentMessage : EventMessage :=
  ⟨Uuid.ofNat 2, Headers.none.putText "eventType" EventType.sent.text, deepEvent 125⟩

def pair : Group := ⟨"näme", [waitingMessage, sentMessage], Stamp.start2025, Stamp.start2025⟩

theorem send_released_pair : ∃ r, Release.ofGroup? {} pair = some r ∧
    (Engine.process.recording.send {} (Engine.empty.wait "execution", []) r.message).1.2 =
      [.isWaiting "execution", .trigger "execution" (deepVariables 125)] := by
  have hr : Release.ofGroup? {} pair = some _ :=
    Release.of?_eq_some_iff.mpr ⟨sentMessage, rfl, .inl ⟨waitingMessage, rfl, rfl⟩⟩
  have hvars : ∀ m ∈ pair.messages,
      (Json.ofDict m.payload.vars).Tidy ∧ m.payload.toJson.depth ≤ 127 := by
    intro m hm
    simp only [pair, List.mem_cons, List.not_mem_nil, or_false] at hm
    rcases hm with rfl | rfl
    · exact ⟨.obj (Dict.ordered _) .nil, by decide⟩
    · refine ⟨tidy_deepVariables 125, ?_⟩
      rw [EventPayload.depth_toJson]
      exact Nat.le_of_eq (congrArg (· + 1) (depth_deepVariables 125))
  refine ⟨_, hr, ?_⟩
  obtain ⟨⟨sent, hsent, hsend⟩, -⟩ :=
    send_released Engine.process (by decide) hr hvars (Engine.empty.wait "execution")
  obtain rfl : sentMessage = sent := Option.some.inj hsent
  rw [hsend]
  rfl

end ProcessEngine

end Rendezvous
