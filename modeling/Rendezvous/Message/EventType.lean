/-
The types of events.

A type is read from the event-type header.  Types that are not known keep their text, so that
writing a type gives back what was read.
-/
namespace Rendezvous

/-- What happened to a message or to a subscription. -/
inductive EventType where
  /-- a start event subscribed to a message was deployed -/
  | startDeployed
  /-- an execution waits for a message -/
  | waiting
  /-- a message was sent -/
  | sent
  /-- a waiting execution received its message -/
  | received
  /-- a subscription no longer listens -/
  | cancelled
  /-- any other event -/
  | other (name : String)
deriving DecidableEq, Repr

namespace EventType

def text : EventType → String
  | startDeployed => "START_MESSAGE_DEPLOYED"
  | waiting => "MESSAGE_WAITING"
  | sent => "MESSAGE_SENT"
  | received => "MESSAGE_RECEIVED"
  | cancelled => "MESSAGE_SUBSCRIPTION_CANCELLED"
  | other name => name

def ofText (s : String) : EventType :=
  if s = "START_MESSAGE_DEPLOYED" then startDeployed
  else if s = "MESSAGE_WAITING" then waiting
  else if s = "MESSAGE_SENT" then sent
  else if s = "MESSAGE_RECEIVED" then received
  else if s = "MESSAGE_SUBSCRIPTION_CANCELLED" then cancelled
  else other s

def isAggregated : EventType → Bool
  | startDeployed | waiting | sent => true
  | _ => false

theorem text_ofText (s : String) : (ofText s).text = s := by
  simp only [ofText]
  repeat' split
  all_goals simp_all [text]

end EventType
end Rendezvous
