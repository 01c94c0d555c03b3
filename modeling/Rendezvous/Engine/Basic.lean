/-
A process engine, as far as commands are concerned.

An execution waits for a message until it is triggered once.  A message starts an instance only
if it was subscribed to.  During an outage triggers and starts fail and change nothing.
-/
import Rendezvous.Message.Payload
import Rendezvous.Failure
import Rendezvous.Faults

namespace Rendezvous

/-- An instance that a message started. -/
structure Instance where
  id : String
  message : String
  businessKey : Option String
  vars : Variables

inductive EngineCall where
  | isWaiting
  | trigger
  | start
deriving DecidableEq, Repr

/-- The executions that wait, the messages that start instances, what happened so far, how many
calls an outage will fail, and the failures scripted in front of the engine. -/
structure Engine where
  waiting : List String
  startable : List String
  triggered : List (String × Variables)
  started : List Instance
  outages : Nat
  faults : Faults EngineCall EngineError

namespace Engine

def empty : Engine := ⟨[], [], [], [], 0, []⟩

instance : Inhabited Engine := ⟨empty⟩

def wait (e : Engine) (execution : String) : Engine :=
  if e.waiting.contains execution then e else { e with waiting := execution :: e.waiting }

def subscribe (e : Engine) (message : String) : Engine :=
  if e.startable.contains message then e else { e with startable := message :: e.startable }

/-- The next triggers or starts fail.  They are counted in a word of 64 bits. -/
def failNext (e : Engine) (n : Nat) : Engine :=
  { e with outages := (e.outages + n) % 0x10000000000000000 }

/-- Takes the scripted failure of a call. -/
def fault (e : Engine) (call : EngineCall) : Engine × Option EngineError :=
  let (found, rest) := e.faults.next call
  ({ e with faults := rest }, found)

def isWaiting (e : Engine) (execution : String) : Engine × Except EngineError Bool :=
  match e.fault .isWaiting with
  | (e, some err) => (e, .error err)
  | (e, none) => (e, .ok (e.waiting.contains execution))

def unavailable : EngineError := .other "engine unavailable"

def trigger (e : Engine) (execution : String) (vars : Variables) :
    Engine × Except EngineError Unit :=
  match e.fault .trigger with
  | (e, some err) => (e, .error err)
  | (e, none) =>
    if 0 < e.outages then ({ e with outages := e.outages - 1 }, .error unavailable)
    else if e.waiting.contains execution then
      ({ e with
          waiting := e.waiting.filter (· ≠ execution)
          triggered := e.triggered ++ [(execution, vars)] }, .ok ())
    else (e, .error (.executionNotFound execution))

/-- The identity of the instance started after `n` others. -/
def instanceId (n : Nat) : String := "instance-" ++ toString (n + 1)

/-- Starts an instance by a message that is subscribed to. -/
def start (e : Engine) (message : String) (businessKey : Option String) (vars : Variables) :
    Engine × Except EngineError Unit :=
  match e.fault .start with
  | (e, some err) => (e, .error err)
  | (e, none) =>
    if 0 < e.outages then ({ e with outages := e.outages - 1 }, .error unavailable)
    else if e.startable.contains message then
      ({ e with
          started :=
            e.started ++ [⟨instanceId e.started.length, message, businessKey, vars⟩] },
        .ok ())
    else (e, .error (.noStartSubscription message))

end Engine
end Rendezvous
