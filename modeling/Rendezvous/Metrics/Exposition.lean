/-
The written form of metrics, for a monitoring system to collect.

Each metric has a name, a kind and a text that describes it.  A line of the written form holds
a name, labels in braces, and a value; timings are written as the numbers of samples that do
not exceed the bounds of buckets, with their sum in seconds.
-/
import Rendezvous.Metrics.Basic
import Rendezvous.Decimal.Layout

namespace Rendezvous

/-- What a metric is called and what it says. -/
structure Description where
  name : String
  kind : String
  text : String

namespace Total

/-- All totals without a label. -/
def all : List Total :=
  [received, discarded, decodeErrors, correlationErrors, lockUnavailable, lockInterrupted,
    dispatchFailures, duplicates, cancelledRemoved, retries, retriesExhausted, deadLettersDropped]

def description : Total → Description
  | received =>
    ⟨"messages_received_total", "counter", "Total number of messages entering the connector flow"⟩
  | discarded =>
    ⟨"messages_discarded_total", "counter",
      "Messages without an event type, sent to the error channel"⟩
  | decodeErrors =>
    ⟨"decode_errors_total", "counter", "Messages whose payload could not be decoded"⟩
  | correlationErrors =>
    ⟨"correlation_errors_total", "counter", "Messages that could not be correlated"⟩
  | lockUnavailable =>
    ⟨"lock_unavailable_total", "counter",
      "Operations skipped because the lock was not acquired in time"⟩
  | lockInterrupted =>
    ⟨"lock_interrupted_total", "counter", "Lock waits ended by an interrupt"⟩
  | dispatchFailures =>
    ⟨"dispatch_failures_total", "counter", "Released outputs that could not be dispatched"⟩
  | duplicates =>
    ⟨"duplicates_total", "counter", "Redelivered messages dropped by the idempotent receiver"⟩
  | cancelledRemoved =>
    ⟨"subscription_cancelled_removed_total", "counter",
      "Start-message registrations removed after a subscription was cancelled"⟩
  | retries => ⟨"retry_attempts_total", "counter", "Dispatch retry attempts"⟩
  | retriesExhausted =>
    ⟨"retry_exhausted_total", "counter", "Dispatches that failed after all retries"⟩
  | deadLettersDropped =>
    ⟨"dead_letters_dropped_total", "counter",
      "Dead letters dropped because the queue was full"⟩

end Total

def Gauge.description : Gauge → Description
  | .groups => ⟨"message_groups", "gauge", "Message groups currently pending"⟩
  | .deadLetters =>
    ⟨"dead_letter_queue_size", "gauge", "Messages currently held in the dead-letter queue"⟩

def Timing.description : Timing → Description
  | .handled =>
    ⟨"handle_duration_seconds", "histogram", "Time spent handling a decoded message"⟩
  | .lockWait =>
    ⟨"lock_wait_duration_seconds", "histogram", "Time spent waiting for a correlation lock"⟩

namespace Metrics

/-- What stands in front of every name. -/
def family : String := "message_connector_"

def aggregatedDescription : Description :=
  ⟨"messages_aggregated_total", "counter", "Messages appended to a message group"⟩

/-- The label of the messages appended to groups. -/
def aggregatedLabel : String := "event_type"

def releasedDescription : Description :=
  ⟨"groups_released_total", "counter", "Outputs released from message groups"⟩

def releasedLabel : String := "payload_type"

def descriptions : List Description :=
  Total.all.map Total.description
    ++ [Timing.handled.description, Timing.lockWait.description, Gauge.groups.description,
      Gauge.deadLetters.description, aggregatedDescription, releasedDescription]

/-- A total as it is shown: it starts again from zero after the largest number of 64 bits. -/
def shownTotal (n : Nat) : Nat := n % 0x10000000000000000

/-- A gauge as it is shown: it is kept as a real number of double precision, and shown as the
whole number of 64 bits with a sign that is nearest. -/
def shownGauge (n : Nat) : Nat :=
  min (UInt64.ofNat n).toFloat.toUInt64.toNat 0x7fffffffffffffff

/-- Everything that was touched with its value, a timing with its number of samples. -/
def summary (m : Metrics) : List (String × Nat) :=
  let labelled (d : Description) (label : String) (values : Dict Nat) : List (String × Nat) :=
    values.entries.map fun e => (d.name ++ "\x7b" ++ label ++ "=" ++ e.1 ++ "\x7d", e.2)
  m.totals.map (fun e => (e.1.description.name, shownTotal e.2))
    ++ m.gauges.map (fun e => (e.1.description.name, shownGauge e.2))
    ++ m.timings.map (fun e => (e.1.description.name, e.2.length))
    ++ labelled aggregatedDescription aggregatedLabel m.aggregated
    ++ labelled releasedDescription releasedLabel m.released

/-! ## Lines -/

/-- The value of a label inside quotation marks.  A backslash in front of a backslash or a
quotation mark counts as an escape that is already there; `held` says that one was seen. -/
def labelChars : Bool → List Char → List Char
  | held, [] => if held then ['\\', '\\'] else []
  | held, c :: cs =>
    match c with
    | '\n' => '\\' :: 'n' :: labelChars held cs
    | '"' => '\\' :: '"' :: labelChars false cs
    | '\\' => if held then '\\' :: '\\' :: labelChars false cs else labelChars true cs
    | c => if held then '\\' :: '\\' :: c :: labelChars false cs else c :: labelChars false cs

def labelText (label value : String) : String :=
  "\x7b" ++ label ++ "=\"" ++ String.ofList (labelChars false value.toList) ++ "\"\x7d"

/-- Real numbers are always written with a plain point. -/
def realLayout : Decimal.Layout := ⟨fun _ => true, "", ""⟩

def realText (x : Float) : String := realLayout.write x

def seconds (millis : Nat) : Float :=
  (UInt64.ofNat (millis / 1000)).toFloat
    + (UInt64.ofNat (millis % 1000 * 1000000)).toFloat / 1000000000.0

/-- The bounds of the buckets, in seconds. -/
def bounds : List Float :=
  [0.0005, 0.001, 0.005, 0.01, 0.025, 0.05, 0.1, 0.25, 0.5, 1.0, 5.0, 30.0]

/-- How many samples are gathered before they are added up. -/
def gathered : Nat := 64

/-- The samples in the order they were gathered, in lots of equal size but for the last. -/
def lots (values : List Float) : List (List Float) :=
  (List.range ((values.length + gathered - 1) / gathered)).map fun i =>
    (values.drop (i * gathered)).take gathered

/-- The sum of samples.  Each lot is added up on its own, and the sums from the newest lot to the
oldest, which decides how they are rounded. -/
def sumOf (values : List Float) : Float :=
  (lots values).foldr (fun lot sum => sum + lot.foldl (· + ·) 0.0) 0.0

def introduction (d : Description) : List String :=
  ["# HELP " ++ family ++ d.name ++ " " ++ d.text, "# TYPE " ++ family ++ d.name ++ " " ++ d.kind]

def timingLines (d : Description) (millis : List Nat) : List String :=
  let values := millis.map seconds
  let name := family ++ d.name
  let bucket (bound : String) (n : Nat) : String :=
    name ++ "_bucket" ++ labelText "le" bound ++ " " ++ toString n
  introduction d
    ++ bounds.map (fun b => bucket (realText b) (values.filter fun v => v ≤ b).length)
    ++ [bucket "+Inf" values.length,
      name ++ "_sum " ++ realText (sumOf values),
      name ++ "_count " ++ toString values.length]

def labelledLines (d : Description) (label : String) (values : Dict Nat) : List String :=
  if values.entries.isEmpty then []
  else
    introduction d
      ++ values.entries.map fun e =>
        family ++ d.name ++ labelText label e.1 ++ " " ++ toString e.2

def lines (m : Metrics) : List String :=
  m.totals.flatMap (fun e =>
      introduction e.1.description
        ++ [family ++ e.1.description.name ++ " " ++ toString (shownTotal e.2)])
    ++ m.gauges.flatMap (fun e =>
      introduction e.1.description
        ++ [family ++ e.1.description.name ++ " " ++ realText (UInt64.ofNat e.2).toFloat])
    ++ m.timings.flatMap (fun e => timingLines e.1.description e.2)
    ++ labelledLines aggregatedDescription aggregatedLabel m.aggregated
    ++ labelledLines releasedDescription releasedLabel m.released

end Metrics

/-! ## Exporters -/

/-- What writes the metrics of a process, if it has the handle of the recorder. -/
structure Exporter where
  handle : Bool := false
deriving DecidableEq, Repr

/-- An exporter after its installation, whether the process has a recorder then, and whether the
call succeeded. -/
structure Installation where
  exporter : Exporter
  recorded : Bool
  succeeded : Bool
deriving DecidableEq, Repr

namespace Exporter

/-- Installs a recorder in the process.  A recorder that is there already stays, and the exporter is
left without the handle; the call succeeds all the same. -/
def install (e : Exporter) (recorded : Bool) : Installation :=
  ⟨if recorded then e else ⟨true⟩, true, true⟩

def render? (e : Exporter) (m : Metrics) : Option (List String) :=
  if e.handle then some m.lines else none

end Exporter
end Rendezvous
