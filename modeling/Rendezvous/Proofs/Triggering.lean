/-
Commands take effect at most once.

Messages are sent to an engine, as many at once as there are, while executions come to wait, messages
are subscribed to, and outages begin.  Each call of the engine is one step, so between the question
whether an execution waits and its trigger anything may happen.  What keeps an execution from being
triggered twice is the engine's list of those that wait: a trigger takes its execution off that list
(`Turn`), and only a registration puts it there, so that what is triggered and what still waits are
no more than the registrations (`owed_run`).

A mission remembers what the engine was before and after each of its steps.  Steps that ask or fail
change nothing, and the one that succeeds is the last one (`Stands`); so what happened to the engine
is what the missions did, each its own part (`atMostOnce_run`).
-/
import Mathlib.Data.List.Nodup
import Rendezvous.Engine.Command
import Rendezvous.Proofs.Text

namespace Rendezvous

namespace Engine

/-! ## Missions -/

/-- A message on its way: what it has still to do, and of each step so far the engine that it found
and the one that it left. -/
structure Mission where
  message : RawMessage
  state : Command.Next
  steps : List (Engine × Engine)

namespace Mission

def begin (names : HeaderNames) (m : RawMessage) : Mission :=
  match Command.ofMessage names m with
  | .error cause => ⟨m, .done (.error cause), []⟩
  | .ok c => ⟨m, .go c, []⟩

/-- The next call that the mission makes of the engine. -/
def step (d : Mission) (e : Engine) : Engine × Mission :=
  match d.state with
  | .go c =>
    ((c.step e).1,
      { d with state := (c.step e).2, steps := d.steps ++ [(e, (c.step e).1)] })
  | .done _ => (e, d)

/-- The triggers that were recorded in the steps of the mission. -/
def triggers (d : Mission) : List (String × Variables) :=
  d.steps.flatMap fun s => s.2.triggered.drop s.1.triggered.length

/-- The instances that were started in the steps of the mission. -/
def instances (d : Mission) : List Instance :=
  d.steps.flatMap fun s => s.2.started.drop s.1.started.length

end Mission

/-- An engine and the missions of the messages that were sent to it. -/
structure Office where
  engine : Engine
  missions : List Mission

inductive Move where
  | send (message : RawMessage)
  /-- the next step of a mission -/
  | step (mission : Nat)
  | wait (execution : String)
  | subscribe (message : String)
  | failNext (n : Nat)

namespace Move

def message? : Move → Option RawMessage
  | send m => some m
  | step _ | wait _ | subscribe _ | failNext _ => none

/-- The move registers the execution. -/
def registers (x : String) : Move → Bool
  | wait y => y == x
  | send _ | step _ | subscribe _ | failNext _ => false

end Move

namespace Office

def move (names : HeaderNames) (o : Office) : Move → Office
  | .send m => { o with missions := o.missions ++ [Mission.begin names m] }
  | .step i =>
    match o.missions[i]? with
    | some d => ⟨(d.step o.engine).1, o.missions.set i (d.step o.engine).2⟩
    | none => o
  | .wait x => { o with engine := o.engine.wait x }
  | .subscribe name => { o with engine := o.engine.subscribe name }
  | .failNext n => { o with engine := o.engine.failNext n }

/-- The office after some moves. -/
def run (names : HeaderNames) (o : Office) (moves : List Move) : Office :=
  moves.foldl (move names) o

end Office

/-! ## What a step can do -/

/-- The executions that wait are the same, and no more happened. -/
structure Same (e e' : Engine) : Prop where
  waiting : e'.waiting = e.waiting
  triggered : e'.triggered = e.triggered
  started : e'.started = e.started

/-- What a step of a command makes of an engine, and what follows it. -/
inductive Turn (e e' : Engine) : Command → Command.Next → Prop
  | waits {x vars} (same : Same e e') : Turn e e' (.ask x vars) (.go (.trigger x vars))
  | late {x vars} (same : Same e e') : Turn e e' (.ask x vars) (.done (.ok ()))
  | fails {c cause} (same : Same e e') : Turn e e' c (.done (.error cause))
  | triggers {x vars} (mem : x ∈ e.waiting) (waiting : e'.waiting = e.waiting.filter (· ≠ x))
      (triggered : e'.triggered = e.triggered ++ [(x, vars)]) (started : e'.started = e.started) :
      Turn e e' (.trigger x vars) (.done (.ok ()))
  | starts {name key vars} (waiting : e'.waiting = e.waiting) (triggered : e'.triggered = e.triggered)
      (started : e'.started = e.started ++ [⟨instanceId e.started.length, name, key, vars⟩]) :
      Turn e e' (.start name key vars) (.done (.ok ()))

theorem isWaiting_turn (e : Engine) (x : String) (vars : Variables) :
    Turn e (Command.step e (.ask x vars)).1 (.ask x vars) (Command.step e (.ask x vars)).2 := by
  simp only [Command.step, isWaiting, fault]
  cases (e.faults.next .isWaiting).1 with
  | some cause => exact .fails ⟨rfl, rfl, rfl⟩
  | none =>
    cases hmem : e.waiting.contains x with
    | true =>
      simp only [hmem]
      exact .waits ⟨rfl, rfl, rfl⟩
    | false =>
      simp only [hmem]
      exact .late ⟨rfl, rfl, rfl⟩

theorem trigger_turn (e : Engine) (x : String) (vars : Variables) :
    Turn e (Command.step e (.trigger x vars)).1 (.trigger x vars)
      (Command.step e (.trigger x vars)).2 := by
  simp only [Command.step, trigger, fault]
  cases (e.faults.next .trigger).1 with
  | some cause => exact .fails ⟨rfl, rfl, rfl⟩
  | none =>
    by_cases hout : 0 < e.outages
    · simp only [hout, if_true]
      exact .fails ⟨rfl, rfl, rfl⟩
    · by_cases hmem : e.waiting.contains x = true
      · simp only [hout, hmem, if_true, if_false]
        exact .triggers (by simpa using hmem) rfl rfl rfl
      · simp only [hout, hmem, if_false]
        exact .fails ⟨rfl, rfl, rfl⟩

theorem start_turn (e : Engine) (name : String) (key : Option String) (vars : Variables) :
    Turn e (Command.step e (.start name key vars)).1 (.start name key vars)
      (Command.step e (.start name key vars)).2 := by
  simp only [Command.step, start, fault]
  cases (e.faults.next .start).1 with
  | some cause => exact .fails ⟨rfl, rfl, rfl⟩
  | none =>
    by_cases hout : 0 < e.outages
    · simp only [hout, if_true]
      exact .fails ⟨rfl, rfl, rfl⟩
    · by_cases hmem : e.startable.contains name = true
      · simp only [hout, hmem, if_true, if_false]
        exact .starts rfl rfl rfl
      · simp only [hout, hmem, if_false]
        exact .fails ⟨rfl, rfl, rfl⟩

theorem turn_of_step (e : Engine) (c : Command) : Turn e (c.step e).1 c (c.step e).2 := by
  cases c with
  | ask x vars => exact isWaiting_turn e x vars
  | trigger x vars => exact trigger_turn e x vars
  | start name key vars => exact start_turn e name key vars

/-- Every step adds to the record of what happened, at its end. -/
theorem Turn.appends {e e' : Engine} {c : Command} {next : Command.Next} (h : Turn e e' c next) :
    e'.triggered = e.triggered ++ e'.triggered.drop e.triggered.length ∧
      e'.started = e.started ++ e'.started.drop e.started.length := by
  cases h with
  | waits same | late same | fails same => simp [same.triggered, same.started]
  | triggers _ _ triggered started => simp [triggered, started]
  | starts _ triggered started => simp [triggered, started]

/-! ## Executions are triggered as often as they come to wait -/

/-- How often an execution was triggered, and once more if it waits. -/
def owed (x : String) (e : Engine) : Nat :=
  e.triggered.countP (·.1 == x) + if x ∈ e.waiting then 1 else 0

theorem Turn.owed_le {e e' : Engine} {c : Command} {next : Command.Next} (h : Turn e e' c next)
    (x : String) : owed x e' ≤ owed x e := by
  cases h with
  | waits same | late same | fails same => simp [owed, same.triggered, same.waiting]
  | starts waiting triggered _ => simp [owed, triggered, waiting]
  | @triggers y vars mem waiting triggered _ =>
    rw [owed, owed, triggered, waiting, List.countP_append]
    by_cases hy : y = x
    · -- the execution no longer waits, and that pays for the trigger
      subst hy
      simp [mem]
    · simp [hy, Ne.symm hy]

theorem owed_wait (x y : String) (e : Engine) :
    owed x (e.wait y) ≤ owed x e + if y == x then 1 else 0 := by
  rw [wait]
  split
  · omega
  · by_cases hy : y = x
    · simp only [owed, hy, beq_self_eq_true, if_true, List.mem_cons, true_or]
      omega
    · simp [owed, hy, Ne.symm hy]

namespace Office

variable (names : HeaderNames)

theorem owed_move (o : Office) (v : Move) (x : String) :
    owed x (o.move names v).engine ≤ owed x o.engine + if v.registers x then 1 else 0 := by
  cases v with
  | send m => simp [move]
  | step i =>
    simp only [move]
    split
    · next d hd =>
      simp only [Mission.step]
      split
      · next c hc =>
        have := (turn_of_step o.engine c).owed_le x
        simp only [Move.registers]
        omega
      · simp
    · simp
  | wait y => exact owed_wait x y o.engine
  | subscribe name =>
    have hsame : owed x (o.engine.subscribe name) = owed x o.engine := by
      rw [subscribe]
      split <;> rfl
    simp only [move, hsame]
    omega
  | failNext n => exact Nat.le_add_right _ _

theorem owed_run (o : Office) (moves : List Move) (x : String) :
    owed x (o.run names moves).engine ≤ owed x o.engine + moves.countP (Move.registers x) := by
  induction moves generalizing o with
  | nil => exact Nat.le_refl _
  | cons v rest ih =>
    have hfirst := owed_move names o v x
    have hrest := ih (o.move names v)
    rw [List.countP_cons]
    show owed x ((o.move names v).run names rest).engine ≤ _
    omega

end Office

/-! ## What missions do -/

/-- The message is read as a command to trigger the execution with the values. -/
def Receives (names : HeaderNames) (m : RawMessage) (x : String) (vars : Variables) : Prop :=
  (m.headers.text? names.payloadType).bind CommandKind.ofText? = some .receive ∧
    ∃ c, ReceiveCommand.decode m.payload = .ok c ∧ c.executionId = some x ∧ c.vars = vars

/-- The message is read as a command to start an instance. -/
def Starts (names : HeaderNames) (m : RawMessage) (name : String) (key : Option String)
    (vars : Variables) : Prop :=
  (m.headers.text? names.payloadType).bind CommandKind.ofText? = some .start ∧
    ∃ c, StartCommand.decode m.payload = .ok c ∧
      c.name = name ∧ c.businessKey = key ∧ c.vars = vars

/-- A message is either a command of one of the two kinds, or is refused. -/
inductive Reading (names : HeaderNames) (m : RawMessage) : Except ChannelError Command → Prop
  | receive {x vars} (h : Receives names m x vars) : Reading names m (.ok (.ask x vars))
  | start {name key vars} (h : Starts names m name key vars) :
      Reading names m (.ok (.start name key vars))
  | refused {cause} (h : ∀ name key vars, ¬Starts names m name key vars) :
      Reading names m (.error cause)

theorem reading_ofMessage (names : HeaderNames) (m : RawMessage) :
    Reading names m (Command.ofMessage names m) := by
  rw [Command.ofMessage]
  cases hkind : (m.headers.text? names.payloadType).bind CommandKind.ofText? with
  | none => exact .refused fun _ _ _ h => by simp [Starts, hkind] at h
  | some kind =>
    cases kind with
    | receive =>
      have hno (name : String) (key : Option String) (vars : Variables) :
          ¬Starts names m name key vars := fun h => by simp [Starts, hkind] at h
      cases hdecode : ReceiveCommand.decode m.payload with
      | error p => exact .refused hno
      | ok c =>
        simp only [Command.ofReceive]
        cases hx : c.executionId with
        | none => exact .refused hno
        | some x => exact .receive ⟨hkind, c, hdecode, hx, rfl⟩
    | start =>
      cases hdecode : StartCommand.decode m.payload with
      | error p => exact .refused fun _ _ _ h => by simp [Starts, hdecode] at h
      | ok c => exact .start ⟨hkind, c, hdecode, rfl, rfl, rfl⟩

theorem Starts.unique {m : RawMessage} {name name' : String} {key key' : Option String}
    {vars vars' : Variables} (h : Starts names m name key vars)
    (h' : Starts names m name' key' vars') : name = name' ∧ key = key' ∧ vars = vars' := by
  obtain ⟨-, c, hc, rfl, rfl, rfl⟩ := h
  obtain ⟨-, c', hc', rfl, rfl, rfl⟩ := h'
  rw [hc] at hc'
  cases hc'
  exact ⟨rfl, rfl, rfl⟩

theorem Receives.not_starts {m : RawMessage} {x name : String} {key : Option String}
    {vars vars' : Variables} (h : Receives names m x vars) : ¬Starts names m name key vars' := by
  intro h'
  have hkind := h.1.symm.trans h'.1
  cases hkind

namespace Mission

variable {names : HeaderNames} {d : Mission}

/-- No step of the mission changed anything. -/
def Idle (d : Mission) : Prop := ∀ s ∈ d.steps, s.1.Same s.2

theorem Idle.triggers_eq (h : d.Idle) : d.triggers = [] := by
  rw [triggers, List.flatMap_eq_nil_iff]
  intro s hs
  simp [(h s hs).triggered]

theorem Idle.instances_eq (h : d.Idle) : d.instances = [] := by
  rw [instances, List.flatMap_eq_nil_iff]
  intro s hs
  simp [(h s hs).started]

/-- Where a mission stands: it has done nothing yet, or is about to trigger its execution, or is
done, and then it failed, or came too late, or had its effect. -/
inductive Stands (names : HeaderNames) (d : Mission) : Prop
  | fresh (h : d = begin names d.message)
  | asked {x vars} (read : Receives names d.message x vars) (state : d.state = .go (.trigger x vars))
      (idle : d.Idle)
  | failed {cause} (state : d.state = .done (.error cause)) (idle : d.Idle)
  | late {x vars} (read : Receives names d.message x vars) (state : d.state = .done (.ok ()))
      (idle : d.Idle)
  | triggered {x vars} (read : Receives names d.message x vars) (state : d.state = .done (.ok ()))
      (triggers : d.triggers = [(x, vars)]) (instances : d.instances = [])
  | started {name key vars} (id : String) (read : Starts names d.message name key vars)
      (state : d.state = .done (.ok ())) (triggers : d.triggers = [])
      (instances : d.instances = [⟨id, name, key, vars⟩])

theorem message_begin (names : HeaderNames) (m : RawMessage) : (begin names m).message = m := by
  rw [begin]
  split <;> rfl

theorem idle_begin (names : HeaderNames) (m : RawMessage) : (begin names m).Idle := by
  rw [begin]
  split <;> exact fun s hs => absurd hs List.not_mem_nil

theorem step_of_done {r : Except ChannelError Unit} (h : d.state = .done r) (e : Engine) :
    d.step e = (e, d) := by
  rw [step, h]

/-- The mission after a step that found the one engine and left the other. -/
def advance (d : Mission) (e e' : Engine) (next : Command.Next) : Mission :=
  { d with state := next, steps := d.steps ++ [(e, e')] }

theorem step_of_go {c : Command} (h : d.state = .go c) (e : Engine) :
    d.step e = ((c.step e).1, d.advance e (c.step e).1 (c.step e).2) := by
  rw [step, h]
  rfl

section

variable {e e' : Engine} {c : Command} {next : Command.Next}

theorem Idle.advance (h : d.Idle) (same : e.Same e') : (d.advance e e' next).Idle := by
  intro s hs
  rcases List.mem_append.mp hs with hs | hs
  · exact h s hs
  · rw [List.mem_singleton.mp hs]
    exact same

theorem triggers_advance (d : Mission) (e e' : Engine) (next : Command.Next) :
    (d.advance e e' next).triggers =
      d.triggers ++ e'.triggered.drop e.triggered.length := by
  rw [triggers, triggers, advance, List.flatMap_append, List.flatMap_singleton]

theorem instances_advance (d : Mission) (e e' : Engine) (next : Command.Next) :
    (d.advance e e' next).instances = d.instances ++ e'.started.drop e.started.length := by
  rw [instances, instances, advance, List.flatMap_append, List.flatMap_singleton]

theorem Stands.advance_ask {x : String} {vars : Variables} (idle : d.Idle)
    (read : Receives names d.message x vars) (h : Turn e e' (.ask x vars) next) :
    (d.advance e e' next).Stands names := by
  cases h with
  | waits same => exact .asked read rfl (idle.advance same)
  | late same => exact .late read rfl (idle.advance same)
  | fails same => exact .failed rfl (idle.advance same)

theorem Stands.advance_trigger {x : String} {vars : Variables} (idle : d.Idle)
    (read : Receives names d.message x vars) (h : Turn e e' (.trigger x vars) next) :
    (d.advance e e' next).Stands names := by
  cases h with
  | fails same => exact .failed rfl (idle.advance same)
  | triggers mem waiting triggered started =>
    refine .triggered read rfl ?_ ?_
    · rw [triggers_advance, idle.triggers_eq, triggered]
      simp
    · rw [instances_advance, idle.instances_eq, started]
      simp

theorem Stands.advance_start {name : String} {key : Option String} {vars : Variables}
    (idle : d.Idle) (read : Starts names d.message name key vars)
    (h : Turn e e' (.start name key vars) next) : (d.advance e e' next).Stands names := by
  cases h with
  | fails same => exact .failed rfl (idle.advance same)
  | starts waiting triggered started =>
    refine .started (instanceId e.started.length) read rfl ?_ ?_
    · rw [triggers_advance, idle.triggers_eq, triggered]
      simp
    · rw [instances_advance, idle.instances_eq, started]
      simp

end

/-- The mission of a message that is not a command is over before its first step; a command goes
through the steps that it has. -/
theorem Stands.step (h : d.Stands names) (e : Engine) : (d.step e).2.Stands names := by
  have hturn (c : Command) := turn_of_step e c
  cases h with
  | fresh h =>
    have hidle : d.Idle := h ▸ idle_begin names d.message
    have hread := reading_ofMessage names d.message
    cases hcommand : Command.ofMessage names d.message with
    | error cause =>
      have hstate : d.state = .done (.error cause) := by rw [h, begin, hcommand]
      rw [step_of_done hstate]
      exact .fresh h
    | ok c =>
      have hstate : d.state = .go c := by rw [h, begin, hcommand]
      rw [hcommand] at hread
      rw [step_of_go hstate]
      cases hread with
      | receive read => exact .advance_ask hidle read (hturn _)
      | start read => exact .advance_start hidle read (hturn _)
  | asked read state idle =>
    rw [step_of_go state]
    exact .advance_trigger idle read (hturn _)
  | failed state idle =>
    rw [step_of_done state]
    exact .failed state idle
  | late read state idle =>
    rw [step_of_done state]
    exact .late read state idle
  | triggered read state triggers instances =>
    rw [step_of_done state]
    exact .triggered read state triggers instances
  | started id read state triggers instances =>
    rw [step_of_done state]
    exact .started id read state triggers instances

theorem message_step (d : Mission) (e : Engine) : (d.step e).2.message = d.message := by
  rw [step]
  split <;> rfl

/-- What happens to the engine in a step is put down with the mission. -/
theorem step_appends (d : Mission) (e : Engine) :
    ∃ triggered started, (d.step e).1.triggered = e.triggered ++ triggered ∧
      (d.step e).2.triggers = d.triggers ++ triggered ∧
      (d.step e).1.started = e.started ++ started ∧
      (d.step e).2.instances = d.instances ++ started := by
  cases hstate : d.state with
  | go c =>
    obtain ⟨htriggered, hstarted⟩ := (turn_of_step e c).appends
    rw [step_of_go hstate]
    exact ⟨_, _, htriggered, triggers_advance .., hstarted, instances_advance ..⟩
  | done r =>
    rw [step_of_done hstate]
    exact ⟨[], [], by simp⟩

/-- What a mission has done so far is what its message says, at most once; one that failed has done
nothing, and one that started an instance has started that. -/
structure Faithful (names : HeaderNames) (d : Mission) : Prop where
  triggers : d.triggers = [] ∨
    ∃ x vars, Receives names d.message x vars ∧ d.triggers = [(x, vars)] ∧ d.instances = []
  instances : d.instances = [] ∨
    ∃ id name key vars, Starts names d.message name key vars ∧ d.triggers = [] ∧
      d.instances = [⟨id, name, key, vars⟩]
  started : ∀ name key vars, Starts names d.message name key vars → d.state = .done (.ok ()) →
    ∃ id, d.instances = [⟨id, name, key, vars⟩]
  failed : ∀ cause, d.state = .done (.error cause) → d.Idle

theorem Idle.faithful (h : d.Idle)
    (hbare : d.state = .done (.ok ()) → ∀ name key vars, ¬Starts names d.message name key vars) :
    d.Faithful names :=
  ⟨.inl h.triggers_eq, .inl h.instances_eq, fun name key vars read hstate =>
    absurd read (hbare hstate name key vars), fun _ _ => h⟩

theorem Stands.faithful (h : d.Stands names) : d.Faithful names := by
  cases h with
  | fresh h =>
    have hidle : d.Idle := h ▸ idle_begin names d.message
    apply hidle.faithful
    intro hstate
    rw [h, begin] at hstate
    split at hstate <;> simp at hstate
  | asked read state idle =>
    apply idle.faithful
    intro hstate
    simp [state] at hstate
  | failed state idle =>
    apply idle.faithful
    intro hstate
    simp [state] at hstate
  | late read state idle =>
    apply idle.faithful
    intro _ name key vars
    exact read.not_starts
  | triggered read state triggers instances =>
    constructor
    · exact .inr ⟨_, _, read, triggers, instances⟩
    · exact .inl instances
    · intro name key vars read'
      exact absurd read' read.not_starts
    · intro cause hstate
      simp [state] at hstate
  | started id read state triggers instances =>
    constructor
    · exact .inl triggers
    · exact .inr ⟨id, _, _, _, read, triggers, instances⟩
    · intro name key vars read' _
      obtain ⟨rfl, rfl, rfl⟩ := read.unique read'
      exact ⟨id, instances⟩
    · intro cause hstate
      simp [state] at hstate

end Mission

/-! ## Runs -/

/-- Missions stand somewhere, what happened to the engine is what they did, and the instances are
numbered in the order in which they were started. -/
structure Office.Accounted (names : HeaderNames) (o : Office) : Prop where
  stands : ∀ d ∈ o.missions, d.Stands names
  triggered : o.engine.triggered.Perm (o.missions.flatMap Mission.triggers)
  started : o.engine.started.Perm (o.missions.flatMap Mission.instances)
  numbered : o.engine.started.map Instance.id =
    (List.range o.engine.started.length).map instanceId

/-- What one element adds to is added to the whole, but for the order. -/
theorem perm_flatMap_set {α β : Type} {f : α → List β} {l : List α} {i : Nat} {a b : α}
    {more : List β} (ha : l[i]? = some a) (hb : f b = f a ++ more) :
    (l.flatMap f ++ more).Perm ((l.set i b).flatMap f) := by
  obtain ⟨hi, rfl⟩ := List.getElem?_eq_some_iff.mp ha
  have hsplit : l.flatMap f = (l.take i).flatMap f ++ (f l[i] ++ (l.drop (i + 1)).flatMap f) := by
    rw [← List.flatMap_cons, List.getElem_cons_drop, ← List.flatMap_append, List.take_append_drop]
  rw [List.set_eq_take_append_cons_drop, if_pos hi, List.flatMap_append, List.flatMap_cons, hb,
    hsplit, List.append_assoc, List.append_assoc, List.append_assoc]
  refine List.Perm.append_left _ (List.Perm.append_left _ ?_)
  exact List.perm_append_comm

theorem instanceId_injective : Function.Injective instanceId := by
  intro n n' h
  rw [instanceId, instanceId, String.append_right_inj, Nat.toString_eq_ofList_toDigits,
    Nat.toString_eq_ofList_toDigits, String.ofList_inj] at h
  exact Nat.succ.inj (Text.toDigits_injective h)

/-- What a step of a command starts is numbered on. -/
theorem Turn.numbered {e e' : Engine} {c : Command} {next : Command.Next} (h : Turn e e' c next)
    (he : e.started.map Instance.id = (List.range e.started.length).map instanceId) :
    e'.started.map Instance.id = (List.range e'.started.length).map instanceId := by
  cases h with
  | waits same | late same | fails same => rw [same.started, he]
  | triggers _ _ _ started => rw [started, he]
  | starts _ _ started =>
    rw [started, List.map_append, he, List.length_append, List.length_singleton, List.range_succ,
      List.map_append]
    rfl

namespace Office

variable {names : HeaderNames} {o : Office}

theorem Accounted.send (h : o.Accounted names) (m : RawMessage) :
    (o.move names (.send m)).Accounted names := by
  have hidle := Mission.idle_begin names m
  constructor
  · intro d hd
    rcases List.mem_append.mp hd with hd | hd
    · exact h.stands d hd
    · rw [List.mem_singleton.mp hd]
      exact .fresh (by rw [Mission.message_begin])
  · simpa [move, hidle.triggers_eq] using h.triggered
  · simpa [move, hidle.instances_eq] using h.started
  · exact h.numbered

theorem Accounted.step (h : o.Accounted names) (i : Nat) :
    (o.move names (.step i)).Accounted names := by
  simp only [move]
  split
  · next d hd =>
    have hmem : d ∈ o.missions := List.mem_of_getElem? hd
    obtain ⟨triggered, started, htriggered, htriggers, hstarted, hinstances⟩ :=
      d.step_appends o.engine
    constructor
    · intro d' hd'
      rcases List.mem_or_eq_of_mem_set hd' with hd' | rfl
      · exact h.stands d' hd'
      · exact (h.stands d hmem).step o.engine
    · simp only [htriggered]
      exact (h.triggered.append_right triggered).trans (perm_flatMap_set hd htriggers)
    · simp only [hstarted]
      exact (h.started.append_right started).trans (perm_flatMap_set hd hinstances)
    · cases hstate : d.state with
      | go c =>
        rw [Mission.step_of_go hstate]
        exact (turn_of_step o.engine c).numbered h.numbered
      | done r =>
        rw [Mission.step_of_done hstate]
        exact h.numbered
  · exact h

/-- Executions that come to wait, subscriptions and outages leave what happened alone. -/
theorem Accounted.alike (h : o.Accounted names) {e : Engine}
    (htriggered : e.triggered = o.engine.triggered) (hstarted : e.started = o.engine.started) :
    (Office.mk e o.missions).Accounted names :=
  ⟨h.stands, htriggered ▸ h.triggered, hstarted ▸ h.started, hstarted ▸ h.numbered⟩

theorem Accounted.move (h : o.Accounted names) (v : Move) : (o.move names v).Accounted names := by
  cases v with
  | send m => exact h.send m
  | step i => exact h.step i
  | wait x =>
    apply h.alike <;>
    · rw [Engine.wait]
      split <;> rfl
  | subscribe name =>
    apply h.alike <;>
    · rw [Engine.subscribe]
      split <;> rfl
  | failNext n => exact h.alike rfl rfl

theorem Accounted.run (h : o.Accounted names) (moves : List Move) :
    (o.run names moves).Accounted names := by
  induction moves generalizing o with
  | nil => exact h
  | cons v rest ih => exact ih (h.move v)

theorem messages_move (names : HeaderNames) (o : Office) (v : Move) :
    (o.move names v).missions.map Mission.message =
      o.missions.map Mission.message ++ v.message?.toList := by
  cases v with
  | send m => simp [Office.move, Move.message?, Mission.message_begin]
  | step i =>
    simp only [Office.move, Move.message?, Option.toList_none, List.append_nil]
    split
    · next d hd =>
      obtain ⟨hi, rfl⟩ := List.getElem?_eq_some_iff.mp hd
      have hi' : i < (o.missions.map Mission.message).length := by simpa using hi
      have hmessage : o.missions[i].message = (o.missions.map Mission.message)[i] := by
        rw [List.getElem_map]
      rw [List.map_set, Mission.message_step, hmessage, List.set_getElem_self]
    · rfl
  | wait | subscribe | failNext => simp [Office.move, Move.message?]

theorem messages_run (names : HeaderNames) (o : Office) (moves : List Move) :
    (o.run names moves).missions.map Mission.message =
      o.missions.map Mission.message ++ moves.filterMap Move.message? := by
  induction moves generalizing o with
  | nil => simp [Office.run]
  | cons v rest ih =>
    show ((o.move names v).run names rest).missions.map Mission.message = _
    rw [ih, messages_move, List.append_assoc]
    cases hv : v.message? with
    | none => simp [hv]
    | some m => simp [hv]

end Office

/-- No execution was triggered more often than it came to wait, nor without a command that was sent
for it and has the values.  What happened to the engine is what the missions did, each faithful to
one of the messages that were sent, and no two of the instances that were started are called the
same. -/
structure AtMostOnce (names : HeaderNames) (moves : List Move) (o : Office) : Prop where
  sent : o.missions.map Mission.message = moves.filterMap Move.message?
  bounded : ∀ x, o.engine.triggered.countP (·.1 == x) ≤ moves.countP (Move.registers x)
  commanded : ∀ x vars, (x, vars) ∈ o.engine.triggered →
    ∃ d ∈ o.missions, Receives names d.message x vars ∧ d.triggers = [(x, vars)]
  triggered : o.engine.triggered.Perm (o.missions.flatMap Mission.triggers)
  started : o.engine.started.Perm (o.missions.flatMap Mission.instances)
  faithful : ∀ d ∈ o.missions, d.Faithful names
  distinct : (o.engine.started.map Instance.id).Nodup

/-- However the steps of the missions interleave with each other and with what else is asked of the
engine, and whichever of its calls fail, commands take effect at most once. -/
theorem atMostOnce_run (names : HeaderNames) (script : Faults EngineCall EngineError)
    (moves : List Move) :
    AtMostOnce names moves
      (Office.run names ⟨{ Engine.empty with faults := script }, []⟩ moves) := by
  let o : Office := ⟨{ Engine.empty with faults := script }, []⟩
  have hstart : o.Accounted names :=
    ⟨fun d hd => absurd hd List.not_mem_nil, .nil, .nil, rfl⟩
  have h := hstart.run moves
  show AtMostOnce names moves (o.run names moves)
  constructor
  · simpa [o] using o.messages_run names moves
  · intro x
    have howed := o.owed_run names moves x
    have hnone : owed x o.engine = 0 := rfl
    rw [hnone, owed] at howed
    omega
  · intro x vars hx
    obtain ⟨d, hd, hmem⟩ := List.mem_flatMap.mp (h.triggered.subset hx)
    rcases (h.stands d hd).faithful.triggers with hnone | ⟨y, vars', read, hone, -⟩
    · simp [hnone] at hmem
    · rw [hone, List.mem_singleton] at hmem
      cases hmem
      exact ⟨d, hd, read, hone⟩
  · exact h.triggered
  · exact h.started
  · exact fun d hd => (h.stands d hd).faithful
  · rw [h.numbered]
    exact List.Nodup.map instanceId_injective List.nodup_range

end Engine
end Rendezvous
