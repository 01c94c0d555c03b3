/-
The names of the headers.

Producers and consumers agree on header names by configuration, so the names are data.  The
defaults are those that process engines publish under.
-/
import Rendezvous.Message.Basic
import Rendezvous.Message.Payload

namespace Rendezvous

structure HeaderNames where
  /-- the type of the event -/
  eventType : String := "eventType"
  /-- the correlation key, written before decoding -/
  correlationId : String := "correlationId"
  /-- the name of the message -/
  messageName : String := "messageEventName"
  /-- the correlation key of the message -/
  correlationKey : String := "messageEventCorrelationKey"
  /-- the business key -/
  businessKey : String := "messageEventBusinessKey"
  /-- the service that published the event -/
  serviceFullName : String := "serviceFullName"
  /-- where an output goes -/
  destination : String := "destination"
  /-- the kind of command an output carries -/
  payloadType : String := "messagePayloadType"
  /-- why a message was rejected -/
  error : String := "errorMessage"
deriving DecidableEq, Repr

namespace HeaderNames

instance : Inhabited HeaderNames := ⟨{}⟩

/-- The fields in their order. -/
def fields : List (Json.Field HeaderNames) :=
  [.text "event_type" false fun s n => { n with eventType := s },
   .text "correlation_id" false fun s n => { n with correlationId := s },
   .text "message_name" false fun s n => { n with messageName := s },
   .text "correlation_key" false fun s n => { n with correlationKey := s },
   .text "business_key" false fun s n => { n with businessKey := s },
   .text "service_full_name" false fun s n => { n with serviceFullName := s },
   .text "destination" false fun s n => { n with destination := s },
   .text "payload_type" false fun s n => { n with payloadType := s },
   .text "error" false fun s n => { n with error := s }]

def toJson (n : HeaderNames) : Json :=
  .obj [("event_type", .str n.eventType), ("correlation_id", .str n.correlationId),
    ("message_name", .str n.messageName), ("correlation_key", .str n.correlationKey),
    ("business_key", .str n.businessKey), ("service_full_name", .str n.serviceFullName),
    ("destination", .str n.destination), ("payload_type", .str n.payloadType),
    ("error", .str n.error)]

/-- Reads names; absent ones keep their defaults. -/
def decode (b : Bytes) : Except Json.Problem HeaderNames :=
  Json.readWhole (Json.readRecord "HeaderNames" fields {}) b

def map (f : String → String) (n : HeaderNames) : HeaderNames :=
  ⟨f n.eventType, f n.correlationId, f n.messageName, f n.correlationKey, f n.businessKey,
    f n.serviceFullName, f n.destination, f n.payloadType, f n.error⟩

/-- Writes the business key, the correlation key and the name of an event as headers. -/
def appendEvent {π : Type} (n : HeaderNames) (d : Draft π) (p : EventPayload) : Draft π :=
  ((d.text? n.businessKey p.businessKey).text? n.correlationKey p.correlationKey).text
    n.messageName p.name

end HeaderNames

abbrev EventMessage := Message EventPayload

end Rendezvous
