/-
A service that publishes events, the way a process engine does.

The body of an event is its payload, and the headers repeat what messages are correlated by.
-/
import Rendezvous.Correlation
import Rendezvous.Message.EventType

namespace Rendezvous

/-- A service: the header names it writes, and its full name. -/
structure Service where
  names : HeaderNames := {}
  fullName : String := "orders.order-service"

namespace Service

/-- The payload of a message with an optional correlation key. -/
def payload (name : String) (key : Option String) : EventPayload :=
  { name := name, correlationKey := key }

def describe {π : Type} (s : Service) (d : Draft π) (type : EventType) (p : EventPayload) :
    Draft π :=
  ((s.names.appendEvent d p).text s.names.eventType type.text).text s.names.serviceFullName
    s.fullName

def event (s : Service) (type : EventType) (p : EventPayload) : Draft Bytes :=
  s.describe { payload := p.encode } type p

def sent (s : Service) (name : String) (key : Option String) : Draft Bytes :=
  s.event .sent (payload name key)

def waiting (s : Service) (name : String) (key : Option String) (execution : String) :
    Draft Bytes :=
  s.event .waiting { payload name key with executionId := some execution }

def startDeployed (s : Service) (name : String) (key : Option String) : Draft Bytes :=
  s.event .startDeployed (payload name key)

def cancelled (s : Service) (name : String) (key : Option String) : Draft Bytes :=
  s.event .cancelled (payload name key)

/-- An event as the handlers get it: decoded, and with its correlation id. -/
def decoded (s : Service) (type : EventType) (p : EventPayload) : Draft EventPayload :=
  (s.describe { payload := p } type p).text s.names.correlationId
    (Correlation.keyOf p.name p.correlationKey)

end Service
end Rendezvous
