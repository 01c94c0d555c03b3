/-
Commands on their way to a process engine.

A message is read as a command by its payload-type header.  A receive command first asks
whether its execution still waits, and does nothing if it does not; a start command is one call.
Each call is a step of its own, so that the calls of several commands may interleave.
-/
import Rendezvous.Engine.Basic
import Rendezvous.Message.Names

namespace Rendezvous

/-- What a command has still to do. -/
inductive Command where
  /-- ask whether the execution waits -/
  | ask (execution : String) (vars : Variables)
  /-- trigger the execution -/
  | trigger (execution : String) (vars : Variables)
  /-- start an instance -/
  | start (message : String) (businessKey : Option String) (vars : Variables)

/-- What follows a step of a command. -/
inductive Command.Next where
  | go (command : Command)
  | done (outcome : Except ChannelError Unit)

namespace Command

/-- The failure of a channel that an engine's failure amounts to: what is missing stays
missing, everything else may pass. -/
def refusal : EngineError → ChannelError
  | .other reason => .transport ("Engine error: " ++ reason)
  | err => .rejected err.message

def ofReceive (c : ReceiveCommand) : Except ChannelError Command :=
  match c.executionId with
  | some execution => .ok (.ask execution c.vars)
  | none =>
    .error (.rejected ("receive command for message '" ++ c.name ++ "' has no execution id"))

def ofMessage (names : HeaderNames) (m : RawMessage) : Except ChannelError Command :=
  match (m.headers.text? names.payloadType).bind CommandKind.ofText? with
  | none => .error (.rejected ("missing or unknown '" ++ names.payloadType ++ "' header"))
  | some .receive =>
    match ReceiveCommand.decode m.payload with
    | .error p => .error (.serialization p.message)
    | .ok c => ofReceive c
  | some .start =>
    match StartCommand.decode m.payload with
    | .error p => .error (.serialization p.message)
    | .ok c => .ok (.start c.name c.businessKey c.vars)

def outcome : Except EngineError Unit → Except ChannelError Unit
  | .ok () => .ok ()
  | .error err => .error (refusal err)

def step (e : Engine) : Command → Engine × Next
  | ask execution vars =>
    match e.isWaiting execution with
    | (e, .error err) => (e, .done (.error (refusal err)))
    | (e, .ok false) => (e, .done (.ok ()))
    | (e, .ok true) => (e, .go (.trigger execution vars))
  | trigger execution vars =>
    let (e, r) := e.trigger execution vars
    (e, .done (outcome r))
  | start message businessKey vars =>
    let (e, r) := e.start message businessKey vars
    (e, .done (outcome r))

/-- The number of calls that may follow the next one. -/
def callsLeft : Command → Nat
  | ask .. => 1
  | _ => 0

theorem callsLeft_lt_of_step {e e' : Engine} {c c' : Command} (h : c.step e = (e', .go c')) :
    c'.callsLeft < c.callsLeft := by
  cases c with
  | ask execution vars =>
    simp only [step] at h
    split at h
    · simp at h
    · simp at h
    · simp only [Prod.mk.injEq, Next.go.injEq] at h
      rw [← h.2]
      simp [callsLeft]
  | trigger execution vars => simp [step] at h
  | start message businessKey vars => simp [step] at h

def run (e : Engine) (c : Command) : Engine × Except ChannelError Unit :=
  match _h : c.step e with
  | (e, .done r) => (e, r)
  | (e, .go c') => run e c'
termination_by c.callsLeft
decreasing_by exact callsLeft_lt_of_step _h

end Command

def Engine.send (names : HeaderNames) (e : Engine) (m : RawMessage) :
    Engine × Except ChannelError Unit :=
  match Command.ofMessage names m with
  | .error err => (e, .error err)
  | .ok c => c.run e

end Rendezvous
