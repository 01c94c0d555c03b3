/-
Groups: the pending messages of a conversation, oldest first.
-/
import Rendezvous.Message.Names
import Rendezvous.Message.EventType
import Rendezvous.Correlation
import Rendezvous.Time.Stamp

namespace Rendezvous

/-- The pending messages of a conversation. -/
structure Group where
  key : CorrelationKey
  messages : List EventMessage
  created : Stamp
  modified : Stamp

def Message.eventType? {π : Type} (m : Message π) (header : String) : Option String :=
  m.headers.text? header

namespace Group

def size (g : Group) : Nat := g.messages.length

def isEmpty (g : Group) : Bool := g.messages.isEmpty

/-- Whether a message of this identity is in the group. -/
def contains (g : Group) (id : Uuid) : Bool := g.messages.any fun m => m.id = id

def ofType (g : Group) (header : String) (type : EventType) : List EventMessage :=
  g.messages.filter fun m => m.eventType? header = some type.text

def first? (g : Group) (header : String) (type : EventType) : Option EventMessage :=
  g.messages.find? fun m => m.eventType? header = some type.text

end Group
end Rendezvous
