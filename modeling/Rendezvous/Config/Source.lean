/-
Where a configuration comes from.

A settings file has a table for each section.  Missing settings keep their defaults, unknown
ones are ignored, and a section may also be the array of its values in order.  Afterwards some
settings are overridden by variables of the environment.
-/
import Rendezvous.Config.Validation
import Rendezvous.Toml.Document

namespace Rendezvous

inductive ConfigError where
  /-- the file cannot be read -/
  | unreadable (path reason : String)
  /-- the file is malformed -/
  | malformed
  /-- the value of a variable is malformed -/
  | invalidValue (name value : String)
  /-- a setting is out of range -/
  | invalid (fault : ConfigFault)
deriving DecidableEq, Repr

def ConfigError.message : ConfigError → String
  | unreadable path reason =>
    "Failed to read configuration file '" ++ path ++ "': " ++ reason
  | malformed => "Failed to parse configuration"
  | invalidValue name value => "Invalid value '" ++ value ++ "' for " ++ name
  | invalid fault => "Configuration validation failed: " ++ fault.message

/-- A setting of a section: its name, and how a value changes the section. -/
structure Setting (ρ : Type) where
  name : String
  put : Toml → ρ → Option ρ

namespace Setting

variable {ρ : Type}

def text (name : String) (put : String → ρ → ρ) : Setting ρ :=
  ⟨name, fun v r => match v with
    | .str s => some (put s r)
    | _ => none⟩

def flag (name : String) (put : Bool → ρ → ρ) : Setting ρ :=
  ⟨name, fun v r => match v with
    | .bool b => some (put b r)
    | _ => none⟩

def natural (name : String) (bound : Nat) (put : Nat → ρ → ρ) : Setting ρ :=
  ⟨name, fun v r => match v with
    | .int n => if 0 ≤ n ∧ n < bound then some (put n.toNat r) else none
    | _ => none⟩

/-- A real number, which may be written as a whole one. -/
def real (name : String) (put : Float → ρ → ρ) : Setting ρ :=
  ⟨name, fun v r => match v with
    | .real x => some (put x r)
    | .int n => some (put (Float.ofInt n) r)
    | _ => none⟩

/-- The largest number of 32 bits, plus one. -/
def bound32 : Nat := 0x100000000

/-- The largest number of 64 bits, plus one. -/
def bound64 : Nat := 0x10000000000000000

def readNamed (settings : List (Setting ρ)) (members : List (String × Toml)) (r : ρ) : Option ρ :=
  settings.foldlM
    (fun r s => match members.lookup s.name with
      | some v => s.put v r
      | none => some r) r

/-- Reads settings in order. -/
def readRow : List (Setting ρ) → List Toml → ρ → Option ρ
  | s :: settings, v :: vs, r => (s.put v r).bind (readRow settings vs)
  | _, _, r => some r

def nested (name : String) {σ : Type} (settings : List (Setting σ)) (get : ρ → σ)
    (set : σ → ρ → ρ) : Setting ρ :=
  ⟨name, fun v r =>
    (match v with
      | .table members => readNamed settings members (get r)
      | .arr items => readRow settings items (get r)
      | .date => some (get r)
      | _ => none).map fun s => set s r⟩

end Setting

namespace Config

def headerSettings : List (Setting HeaderNames) :=
  [.text "event_type" fun s n => { n with eventType := s },
   .text "correlation_id" fun s n => { n with correlationId := s },
   .text "message_name" fun s n => { n with messageName := s },
   .text "correlation_key" fun s n => { n with correlationKey := s },
   .text "business_key" fun s n => { n with businessKey := s },
   .text "service_full_name" fun s n => { n with serviceFullName := s },
   .text "destination" fun s n => { n with destination := s },
   .text "payload_type" fun s n => { n with payloadType := s },
   .text "error" fun s n => { n with error := s }]

def lockSettings : List (Setting LockSettings) :=
  [.natural "timeout_ms" Setting.bound64 fun n s => { s with timeout := some n }]

def dispatchSettings : List (Setting DispatchSettings) :=
  [.natural "max_retries" Setting.bound64 fun n s => { s with maxRetries := n },
   .natural "initial_delay_ms" Setting.bound64 fun n s => { s with initialDelay := n },
   .natural "max_delay_ms" Setting.bound64 fun n s => { s with maxDelay := n },
   .real "multiplier" fun x s => { s with multiplier := x }]

def idempotencySettings : List (Setting IdempotencySettings) :=
  [.flag "enabled" fun b s => { s with enabled := b },
   .natural "capacity" Setting.bound64 fun n s => { s with capacity := n }]

def deadLetterSettings : List (Setting DeadLetterSettings) :=
  [.natural "max_size" Setting.bound64 fun n s => { s with maxSize := n }]

def transportSettings : List (Setting TransportSettings) :=
  [.text "brokers" fun t s => { s with brokers := t },
   .text "input_topic" fun t s => { s with inputTopic := t },
   .text "output_topic" fun t s => { s with outputTopic := t },
   .text "error_topic" fun t s => { s with errorTopic := some t },
   .text "consumer_group" fun t s => { s with consumerGroup := t },
   .natural "concurrency" Setting.bound64 fun n s => { s with concurrency := n }]

def storeSettings : List (Setting StoreSettings) :=
  [.text "postgres_url" fun t s => { s with postgresUrl := some t },
   .natural "max_connections" Setting.bound32 fun n s => { s with maxConnections := n },
   .natural "lock_poll_interval_ms" Setting.bound64 fun n s => { s with lockPollInterval := n }]

/-- The settings of logging and metrics. -/
def observabilitySettings : List (Setting ObservabilitySettings) :=
  [.text "log_filter" fun t s => { s with logFilter := t },
   .flag "metrics_enabled" fun b s => { s with metricsEnabled := b }]

def sections : List (Setting Config) :=
  [.nested "headers" headerSettings Config.headers fun s c => { c with headers := s },
   .nested "lock" lockSettings Config.lock fun s c => { c with lock := s },
   .nested "dispatch" dispatchSettings Config.dispatch fun s c => { c with dispatch := s },
   .nested "idempotency" idempotencySettings Config.idempotency
    fun s c => { c with idempotency := s },
   .nested "dead_letter" deadLetterSettings Config.deadLetter
    fun s c => { c with deadLetter := s },
   .nested "transport" transportSettings Config.transport fun s c => { c with transport := s },
   .nested "store" storeSettings Config.store fun s c => { c with store := s },
   .nested "observability" observabilitySettings Config.observability
    fun s c => { c with observability := s }]

def ofText (s : String) : Except ConfigError Config :=
  match (Toml.read s).bind fun members => Setting.readNamed sections members {} with
  | some c => .ok c
  | none => .error .malformed

/-! ## Overrides -/

abbrev Environment := Dict String

/-- The variable that names the settings file. -/
def pathVariable : String := "MESSAGE_CONNECTOR_CONFIG"

/-- A natural number of 64 bits, with blanks around it and a plus sign in front allowed. -/
def readNatural (s : String) : Option Nat :=
  let ds :=
    match Text.trimmed s with
    | '+' :: ds => ds
    | ds => ds
  if ds.isEmpty || !(ds.all fun c => '0' ≤ c && c ≤ '9') then none
  else
    let n := Toml.numberOf 10 ds
    if n < Setting.bound64 then some n else none

/-- Changes a configuration by a variable, if it is there. -/
def overrideBy (env : Environment) (var : String) (put : String → Config → Except ConfigError Config)
    (c : Config) : Except ConfigError Config :=
  match env.find? var with
  | some value => put value c
  | none => .ok c

def overrideTransport (env : Environment) (var : String)
    (put : String → TransportSettings → TransportSettings) :
    Config → Except ConfigError Config :=
  overrideBy env var fun value c => .ok { c with transport := put value c.transport }

/-- Changes a configuration by the variables of the environment. -/
def override (env : Environment) (c : Config) : Except ConfigError Config := do
  let c ← overrideTransport env "MESSAGE_CONNECTOR_BROKERS" (fun v t => { t with brokers := v }) c
  let c ← overrideTransport env "MESSAGE_CONNECTOR_INPUT_TOPIC"
    (fun v t => { t with inputTopic := v }) c
  let c ← overrideTransport env "MESSAGE_CONNECTOR_OUTPUT_TOPIC"
    (fun v t => { t with outputTopic := v }) c
  let c ← overrideTransport env "MESSAGE_CONNECTOR_ERROR_TOPIC"
    (fun v t => { t with errorTopic := some v }) c
  let c ← overrideTransport env "MESSAGE_CONNECTOR_CONSUMER_GROUP"
    (fun v t => { t with consumerGroup := v }) c
  let timeoutVariable := "MESSAGE_CONNECTOR_LOCK_TIMEOUT_MS"
  let c ← overrideBy env timeoutVariable (fun v c =>
    match readNatural v with
    | some n => .ok { c with lock := { timeout := some n } }
    | none => .error (.invalidValue timeoutVariable v)) c
  let c ← overrideBy env "MESSAGE_CONNECTOR_POSTGRES_URL"
    (fun v c => .ok { c with store := { c.store with postgresUrl := some v } }) c
  overrideBy env "MESSAGE_CONNECTOR_LOG"
    (fun v c => .ok { c with observability := { c.observability with logFilter := v } }) c

def validate (c : Config) : Except ConfigError Unit :=
  match c.fault? with
  | some fault => .error (.invalid fault)
  | none => .ok ()

/-- The configuration of an environment; `readFile` gives the text of a file, or the reason why
it cannot be read. -/
def load (readFile : String → Except String String) (env : Environment) :
    Except ConfigError Config := do
  let c ←
    match env.find? pathVariable with
    | none => .ok {}
    | some path =>
      match readFile path with
      | .error reason => .error (.unreadable path reason)
      | .ok text => ofText text
  let c ← override env c
  validate c
  return c

end Config
end Rendezvous
