/-
Simple rules, processors and advices to put in the place of the standard ones.
-/
import Rendezvous.Flow.Chain

namespace Rendezvous

namespace ReleaseRule

def always : ReleaseRule := fun _ => true

def never : ReleaseRule := fun _ => false

def ofSize (n : Nat) : ReleaseRule := fun g => n ≤ g.size

end ReleaseRule

namespace GroupProcessor

/-- An output that lists the names of the messages and consumes those chosen. -/
def listing (consumes : Group → List Uuid) : GroupProcessor := fun g =>
  let names := String.intercalate "," (g.messages.map fun m => m.payload.name)
  .ok (some ⟨Message.assemble Uuid.nil Headers.none (Text.toBytes names), consumes g⟩)

def all : GroupProcessor := listing fun g => g.messages.map Message.id

def oldest : GroupProcessor := listing fun g => (g.messages.take 1).map Message.id

def idle : GroupProcessor := listing fun _ => []

def silent : GroupProcessor := fun _ => .ok none

def failing : GroupProcessor := fun _ => .error (.encode "scripted")

end GroupProcessor

namespace Interceptor

def failing (name : String) (e : HandlerError) : Interceptor := ⟨name, fun _ => .error e⟩

def stopping (name : String) : Interceptor := ⟨name, fun _ => .ok none⟩

def putting (name : String) (headers : Headers) : Interceptor :=
  ⟨name, fun m => .ok (some { m with headers := m.headers.merge headers })⟩

end Interceptor

namespace Reconciler

/-- Keeps nothing, everything, or the messages of one name. -/
def keeping (choice : String) (m : EventMessage) : Bool :=
  if choice = "none" then false
  else if choice = "all" then true
  else m.payload.name = choice

end Reconciler
end Rendezvous
