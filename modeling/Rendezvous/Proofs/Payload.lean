/-
Payloads that were written are read back.

Whether a payload is read back depends on how deep its variables are nested, and on nothing else
that a text or a whole number in range could hold (`payload_round_trip`).  What is nested too deep
is refused as such.
-/
import Rendezvous.Proofs.Json.Record

namespace Rendezvous

open Json

theorem lt_allowance_iff (n : Nat) : n < allowance ↔ n ≤ 127 := by
  unfold allowance
  omega

/-! ## Depth -/

theorem depth_ofText? (s : Option String) : (ofText? s).depth = 0 := by
  cases s <;> rfl

/-- Only variables are nested. -/
theorem EventPayload.depth_toJson (p : EventPayload) :
    p.toJson.depth = (ofDict p.vars).depth + 1 := by
  simp [toJson, depth, depthMembers, depth_ofText?]

theorem ReceiveCommand.depth_toJson (c : ReceiveCommand) :
    c.toJson.depth = (ofDict c.vars).depth + 1 := by
  simp [toJson, depth, depthMembers, depth_ofText?]

theorem StartCommand.depth_toJson (c : StartCommand) :
    c.toJson.depth = (ofDict c.vars).depth + 1 := by
  simp [toJson, depth, depthMembers, depth_ofText?]

/-! ## Round trips -/

theorem EventPayload.decode_encode {p : EventPayload} (hp : (ofDict p.vars).Tidy) :
    decode p.encode = if p.toJson.depth ≤ 127 then .ok p else .error .tooDeep := by
  have hwritten : Written fields _ _ :=
    .cons (Field.optionalText_writes "id" _ p.id) <|
    .cons (Field.text_writes "name" true _ p.name) <|
    .cons (Field.optionalText_writes "correlationKey" _ p.correlationKey) <|
    .cons (Field.optionalText_writes "businessKey" _ p.businessKey) <|
    .cons (Field.dict_writes "variables" _ hp) <|
    .cons (Field.optionalText_writes "executionId" _ p.executionId) .nil
  simp only [← lt_allowance_iff]
  exact hwritten.readWhole (by decide) "MessageEventPayload" { name := "" }

theorem ReceiveCommand.decode_encode {c : ReceiveCommand} (hc : (ofDict c.vars).Tidy) :
    decode c.encode = if c.toJson.depth ≤ 127 then .ok c else .error .tooDeep := by
  have hwritten : Written fields _ _ :=
    .cons (Field.text_writes "name" true _ c.name) <|
    .cons (Field.optionalText_writes "correlationKey" _ c.correlationKey) <|
    .cons (Field.optionalText_writes "businessKey" _ c.businessKey) <|
    .cons (Field.dict_writes "variables" _ hc) <|
    .cons (Field.optionalText_writes "executionId" _ c.executionId) .nil
  simp only [← lt_allowance_iff]
  exact hwritten.readWhole (by decide) "ReceiveMessagePayload" { name := "" }

theorem StartCommand.decode_encode {c : StartCommand} (hc : (ofDict c.vars).Tidy) :
    decode c.encode = if c.toJson.depth ≤ 127 then .ok c else .error .tooDeep := by
  have hwritten : Written fields _ _ :=
    .cons (Field.text_writes "name" true _ c.name) <|
    .cons (Field.optionalText_writes "correlationKey" _ c.correlationKey) <|
    .cons (Field.optionalText_writes "businessKey" _ c.businessKey) <|
    .cons (Field.dict_writes "variables" _ hc) .nil
  simp only [← lt_allowance_iff]
  exact hwritten.readWhole (by decide) "StartMessagePayload" { name := "" }

/-- A payload of any kind is read back from its text exactly when brackets are nested at most 127
deep in it. -/
theorem payload_round_trip :
    (∀ p : EventPayload, (ofDict p.vars).Tidy → EventPayload.decode p.encode =
      if p.toJson.depth ≤ 127 then .ok p else .error .tooDeep) ∧
    (∀ c : ReceiveCommand, (ofDict c.vars).Tidy → ReceiveCommand.decode c.encode =
      if c.toJson.depth ≤ 127 then .ok c else .error .tooDeep) ∧
    ∀ c : StartCommand, (ofDict c.vars).Tidy → StartCommand.decode c.encode =
      if c.toJson.depth ≤ 127 then .ok c else .error .tooDeep :=
  ⟨fun _ => EventPayload.decode_encode, fun _ => ReceiveCommand.decode_encode,
    fun _ => StartCommand.decode_encode⟩

example : (StartCommand.toJson { name := "a\n", businessKey := some "ü" }).text =
    "\x7b\"name\":\"a\\n\",\"correlationKey\":null,\"businessKey\":\"ü\"," ++
      "\"variables\":\x7b\x7d\x7d" := by
  decide

/-! ## Deep variables -/

/-- A value inside of so many brackets. -/
def nested (v : Json) : Nat → Json
  | 0 => v
  | n + 1 => .arr [nested v n]

theorem tidy_nested {v : Json} (hv : v.Tidy) (n : Nat) : (nested v n).Tidy := by
  induction n with
  | zero => exact hv
  | succ n ih => exact .arr (.cons ih .nil)

theorem depth_nested (v : Json) (n : Nat) : (nested v n).depth = v.depth + n := by
  induction n with
  | zero => rfl
  | succ n ih =>
    show max (nested v n).depth 0 + 1 = _
    omega

/-- Variables at the limits of whole numbers, and a text with escapes inside of `n` brackets. -/
def deepVariables (n : Nat) : Variables :=
  ⟨[("", .int minInt), ("a\"b", .int maxInt), ("ü\x01", nested (.str "\\\n\x1f😀") n)],
    List.pairwise_map (f := Prod.fst).mp
      (by decide : ["", "a\"b", "ü\x01"].Pairwise (· < ·))⟩

theorem tidy_deepVariables (n : Nat) : (ofDict (deepVariables n)).Tidy :=
  .obj (deepVariables n).ordered <|
    .cons (.int _ (by decide) (by decide)) <| .cons (.int _ (by decide) (by decide)) <|
    .cons (tidy_nested (.str _) n) .nil

theorem depth_deepVariables (n : Nat) : (ofDict (deepVariables n)).depth = n + 1 := by
  show max 0 (max 0 (max (nested _ n).depth 0)) + 1 = _
  rw [depth_nested]
  show max 0 (max 0 (max (0 + n) 0)) + 1 = _
  omega

def deepEvent (n : Nat) : EventPayload :=
  { id := some "\"\x00", name := "näme", vars := deepVariables n, executionId := some "" }

def deepReceive (n : Nat) : ReceiveCommand :=
  { name := "näme", correlationKey := some "\t", vars := deepVariables n }

def deepStart (n : Nat) : StartCommand :=
  { name := "", businessKey := some "\\u0041", vars := deepVariables n }

/-- The last depth that is read back, and the first one that is refused. -/
theorem payload_round_trip_deep :
    (EventPayload.decode (deepEvent 125).encode = .ok (deepEvent 125) ∧
      EventPayload.decode (deepEvent 126).encode = .error .tooDeep) ∧
    (ReceiveCommand.decode (deepReceive 125).encode = .ok (deepReceive 125) ∧
      ReceiveCommand.decode (deepReceive 126).encode = .error .tooDeep) ∧
    StartCommand.decode (deepStart 125).encode = .ok (deepStart 125) ∧
      StartCommand.decode (deepStart 126).encode = .error .tooDeep := by
  have hdepth (n : Nat) : (ofDict (deepVariables n)).depth + 1 = n + 2 :=
    congrArg (· + 1) (depth_deepVariables n)
  have hevent (n : Nat) := payload_round_trip.1 (deepEvent n) (tidy_deepVariables n)
  have hreceive (n : Nat) := payload_round_trip.2.1 (deepReceive n) (tidy_deepVariables n)
  have hstart (n : Nat) := payload_round_trip.2.2 (deepStart n) (tidy_deepVariables n)
  simp only [(EventPayload.depth_toJson (deepEvent _)).trans (hdepth _)] at hevent
  simp only [(ReceiveCommand.depth_toJson (deepReceive _)).trans (hdepth _)] at hreceive
  simp only [(StartCommand.depth_toJson (deepStart _)).trans (hdepth _)] at hstart
  exact ⟨⟨hevent 125, hevent 126⟩, ⟨hreceive 125, hreceive 126⟩, hstart 125, hstart 126⟩

end Rendezvous
