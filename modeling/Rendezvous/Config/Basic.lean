/-
The configuration of a connector.

Every section has defaults, so that no configuration at all is a working one.
-/
import Rendezvous.Message.Names
import Rendezvous.Retry

namespace Rendezvous

/-- How long to wait for locks, in milliseconds; without a timeout for as long as it takes. -/
structure LockSettings where
  timeout : Option Nat := none

/-- How outputs are dispatched; delays are in milliseconds. -/
structure DispatchSettings where
  maxRetries : Nat := 3
  initialDelay : Nat := 100
  maxDelay : Nat := 5000
  multiplier : Float := 2.0

/-- Whether redelivered messages are dropped, and how many identities are remembered. -/
structure IdempotencySettings where
  enabled : Bool := true
  capacity : Nat := 100000

/-- How many dead letters are kept. -/
structure DeadLetterSettings where
  maxSize : Nat := 1000

/-- The broker, its topics, and how they are consumed. -/
structure TransportSettings where
  brokers : String := "localhost:9092"
  inputTopic : String := "message-events"
  outputTopic : String := "message-commands"
  errorTopic : Option String := none
  consumerGroup : String := "message-connector"
  concurrency : Nat := 16

/-- Where groups and locks are kept; without a database in memory. -/
structure StoreSettings where
  postgresUrl : Option String := none
  maxConnections : Nat := 20
  lockPollInterval : Nat := 100

/-- Logging and metrics. -/
structure ObservabilitySettings where
  logFilter : String := "info"
  metricsEnabled : Bool := true

structure Config where
  headers : HeaderNames := {}
  lock : LockSettings := {}
  dispatch : DispatchSettings := {}
  idempotency : IdempotencySettings := {}
  deadLetter : DeadLetterSettings := {}
  transport : TransportSettings := {}
  store : StoreSettings := {}
  observability : ObservabilitySettings := {}

def DispatchSettings.policy (d : DispatchSettings) : RetryPolicy :=
  ⟨d.maxRetries, d.initialDelay, d.maxDelay, d.multiplier⟩

/-- Whether groups and locks are kept in a database. -/
def StoreSettings.isPersistent (s : StoreSettings) : Bool := s.postgresUrl.isSome

def Config.toJson (c : Config) : Json :=
  let nat (n : Nat) : Json := .int n
  .obj
    [("headers", c.headers.toJson),
      ("lock", .obj [("timeout_ms", (c.lock.timeout.map nat).getD .null)]),
      ("dispatch",
        .obj [("max_retries", nat c.dispatch.maxRetries),
          ("initial_delay_ms", nat c.dispatch.initialDelay),
          ("max_delay_ms", nat c.dispatch.maxDelay), ("multiplier", .real c.dispatch.multiplier)]),
      ("idempotency",
        .obj [("enabled", .bool c.idempotency.enabled), ("capacity", nat c.idempotency.capacity)]),
      ("dead_letter", .obj [("max_size", nat c.deadLetter.maxSize)]),
      ("transport",
        .obj [("brokers", .str c.transport.brokers), ("input_topic", .str c.transport.inputTopic),
          ("output_topic", .str c.transport.outputTopic),
          ("error_topic", .ofText? c.transport.errorTopic),
          ("consumer_group", .str c.transport.consumerGroup),
          ("concurrency", nat c.transport.concurrency)]),
      ("store",
        .obj [("postgres_url", .ofText? c.store.postgresUrl),
          ("max_connections", nat c.store.maxConnections),
          ("lock_poll_interval_ms", nat c.store.lockPollInterval)]),
      ("observability",
        .obj [("log_filter", .str c.observability.logFilter),
          ("metrics_enabled", .bool c.observability.metricsEnabled)])]

end Rendezvous
