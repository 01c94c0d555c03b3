/-
Publishing messages.

A message goes to the topic its destination header names, if it names one and routing is on,
and else to the default topic.  Its correlation id is the key of the record, so that all
commands of a conversation are kept in order.
-/
import Rendezvous.Failure
import Rendezvous.Message.Names
import Rendezvous.Transport.ClientSetting
import Rendezvous.Transport.Record

namespace Rendezvous

/-- How messages are published; the timeout is in milliseconds. -/
structure Publisher where
  names : HeaderNames := {}
  defaultTopic : String := "message-commands"
  routes : Bool := true
  acks : String := "all"
  compression : String := "none"
  timeout : Nat := 5000

namespace Publisher

def topicFor (p : Publisher) (m : RawMessage) : String :=
  if p.routes then
    match m.headers.text? p.names.destination with
    | some topic => if topic.isEmpty then p.defaultTopic else topic
    | none => p.defaultTopic
  else p.defaultTopic

def keyFor (p : Publisher) (m : RawMessage) : String :=
  (m.headers.text? p.names.correlationId).getD ""

/-! ## What a broker client takes -/

/-- The number of acknowledgements that is waited for: all, or a number in range. -/
def acksAccepted (acks : String) : Bool :=
  ClientSetting.takesNumber (-1) 1000 ["all"] acks

def compressions : List String := ["none", "gzip", "snappy", "lz4"]

def maxTimeout : Int := 2147483647

def isAccepted (p : Publisher) : Bool :=
  ClientSetting.isHanded p.acks && acksAccepted p.acks && ClientSetting.isHanded p.compression
    && ClientSetting.takesName compressions p.compression
    && ClientSetting.takesNumber 0 maxTimeout [] (toString p.timeout)

def noBrokers : ChannelError := .connectionFailed "Brokers not configured"

/-! ## Publishing -/

/-- The number of octets that a length takes when it is written. -/
def lengthSize (n : Nat) : Nat → Nat
  | 0 => 1
  | fuel + 1 => if n < 64 then 1 else 1 + lengthSize (n / 128) fuel

def headerSize (name : String) (value : Bytes) : Nat :=
  let n := name.utf8ByteSize
  lengthSize n 9 + n + lengthSize value.length 9 + value.length

/-- The most octets that a record needs besides its key, headers and payload. -/
def overhead : Nat := 36

/-- The most octets of a record. -/
def maxSize : Nat := 1000000

/-- The number of octets of the record of a message. -/
def recordSize (p : Publisher) (m : RawMessage) : Nat :=
  let headers :=
    (RecordHeaders.ofHeaders m.headers).foldr (fun e n => headerSize e.1 (e.2.getD []) + n) 0
  overhead + (p.keyFor m).utf8ByteSize + headers + m.payload.length

/-- What comes of publishing a message to a broker that does not answer. -/
def publishUnanswered (p : Publisher) (m : RawMessage) : ChannelError :=
  let reason :=
    if maxSize < p.recordSize m then
      "MessageSizeTooLarge (Broker: Message size too large)"
    else "MessageTimedOut (Local: Message timed out)"
  .sendFailed (p.topicFor m) ("Message production error: " ++ reason)

end Publisher
end Rendezvous
