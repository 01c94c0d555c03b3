/-
Messages: an identity, headers and a payload.

Headers map names to data values; a header whose value is null counts as absent.  A message is
built from a draft: its identity is the one that was set, else the one a valid `id` header
spells, else a fresh one, and the `id` header always agrees with it in the end.  Fresh
identities come from a `Supply`, so that building stays a function.
-/
import Rendezvous.Json.Value
import Rendezvous.Identity.Uuid

namespace Rendezvous

abbrev Headers := Dict Json

namespace Headers

def none : Headers := Dict.empty

/-- The name of the header that carries the identity. -/
def idName : String := "id"

/-- The value of a header that is a text. -/
def text? (h : Headers) (name : String) : Option String := (h.find? name).bind Json.str?

/-- Whether a header is there and not null. -/
def present (h : Headers) (name : String) : Bool :=
  match h.find? name with
  | .some v => !v.isNull
  | .none => false

def putText (h : Headers) (name : String) (s : String) : Headers := h.insert name (.str s)

def putText? (h : Headers) (name : String) : Option String → Headers
  | .some s => h.putText name s
  | .none => h

theorem text?_putText (h : Headers) (name s name' : String) :
    (h.putText name s).text? name' = if name' = name then some s else h.text? name' := by
  unfold text? putText
  rw [Dict.find?_insert]
  split <;> rfl

end Headers

structure Message (π : Type) where
  id : Uuid
  headers : Headers
  payload : π

/-- A message as it travels: its payload is not decoded. -/
abbrev RawMessage := Message Bytes

/-- Fresh identities, and how many of them were drawn. -/
structure Supply where
  source : Nat → Uuid
  drawn : Nat

def Supply.draw (s : Supply) : Uuid × Supply := (s.source s.drawn, { s with drawn := s.drawn + 1 })

/-- A message being built. -/
structure Draft (π : Type) where
  payload : π
  id : Option Uuid := none
  headers : Headers := Headers.none

namespace Message

variable {π ρ : Type}

def withHeader (m : Message π) (name : String) (value : Json) : Message π :=
  { m with headers := m.headers.insert name value }

/-- The message with a header put that is a text. -/
def withText (m : Message π) (name : String) (s : String) : Message π :=
  m.withHeader name (.str s)

def mapPayload (m : Message π) (f : π → ρ) : Message ρ := ⟨m.id, m.headers, f m.payload⟩

def assemble (id : Uuid) (headers : Headers) (payload : π) : Message π :=
  ⟨id, headers.putText Headers.idName id.text, payload⟩

end Message

namespace Draft

variable {π : Type}

/-- The identity a draft settles on by itself. -/
def ownId? (d : Draft π) : Option Uuid :=
  d.id.or ((d.headers.text? Headers.idName).bind Uuid.parse?)

def withId (d : Draft π) (id : Uuid) : Draft π := { d with id := some id }

def header (d : Draft π) (name : String) (value : Json) : Draft π :=
  { d with headers := d.headers.insert name value }

def text (d : Draft π) (name : String) (s : String) : Draft π := d.header name (.str s)

/-- Puts a header that is a text, if there is one. -/
def text? (d : Draft π) (name : String) (s : Option String) : Draft π :=
  { d with headers := d.headers.putText? name s }

def copy (d : Draft π) (headers : Headers) : Draft π :=
  { d with headers := d.headers.merge headers }

def build (d : Draft π) (s : Supply) : Message π × Supply :=
  match d.ownId? with
  | some id => (Message.assemble id d.headers d.payload, s)
  | none =>
    let (id, s) := s.draw
    (Message.assemble id d.headers d.payload, s)

end Draft
end Rendezvous
