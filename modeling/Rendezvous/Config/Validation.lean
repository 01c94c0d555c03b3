/-
What makes a configuration valid.

The settings are looked at in a fixed order, and the first fault is the one that is reported.
-/
import Rendezvous.Config.Basic
import Rendezvous.Text.Blank

namespace Rendezvous

inductive ConfigFault where
  | emptyHeader (field : String)
  | multiplierTooSmall
  | delaysReversed
  | noCapacity
  | noDeadLetters
  | emptyBrokers
  | emptyTopics
  | noConcurrency
  | emptyUrl
  | noConnections
deriving DecidableEq, Repr

def ConfigFault.message : ConfigFault → String
  | emptyHeader field => field ++ " cannot be empty"
  | multiplierTooSmall => "dispatch.multiplier must be >= 1.0"
  | delaysReversed => "dispatch.max_delay_ms must be >= dispatch.initial_delay_ms"
  | noCapacity => "idempotency.capacity must be > 0"
  | noDeadLetters => "dead_letter.max_size must be > 0"
  | emptyBrokers => "transport.brokers cannot be empty"
  | emptyTopics => "transport topics cannot be empty"
  | noConcurrency => "transport.concurrency must be > 0"
  | emptyUrl => "store.postgres_url cannot be empty"
  | noConnections => "store.max_connections and store.lock_poll_interval_ms must be > 0"

namespace Config

/-- The header names that must not be blank, with the fields they stand in. -/
def requiredHeaders (n : HeaderNames) : List (String × String) :=
  [("headers.event_type", n.eventType), ("headers.correlation_id", n.correlationId),
    ("headers.message_name", n.messageName), ("headers.correlation_key", n.correlationKey),
    ("headers.payload_type", n.payloadType)]

def headerFault? (n : HeaderNames) : Option ConfigFault :=
  ((requiredHeaders n).find? fun e => Text.isVoid e.2).map fun e => .emptyHeader e.1

def dispatchFault? (d : DispatchSettings) : Option ConfigFault :=
  if d.multiplier < 1.0 || !Decimal.isFinite d.multiplier then some .multiplierTooSmall
  else if d.maxDelay < d.initialDelay then some .delaysReversed
  else none

def transportFault? (t : TransportSettings) : Option ConfigFault :=
  if Text.isVoid t.brokers then some .emptyBrokers
  else if Text.isVoid t.inputTopic || Text.isVoid t.outputTopic then some .emptyTopics
  else if t.concurrency = 0 then some .noConcurrency
  else none

def storeFault? (s : StoreSettings) : Option ConfigFault :=
  if s.postgresUrl.any Text.isVoid then some .emptyUrl
  else if s.maxConnections = 0 || s.lockPollInterval = 0 then some .noConnections
  else none

def fault? (c : Config) : Option ConfigFault :=
  (headerFault? c.headers)
    |>.or (dispatchFault? c.dispatch)
    |>.or (if c.idempotency.enabled && c.idempotency.capacity = 0 then some .noCapacity else none)
    |>.or (if c.deadLetter.maxSize = 0 then some .noDeadLetters else none)
    |>.or (transportFault? c.transport)
    |>.or (storeFault? c.store)

end Config
end Rendezvous
