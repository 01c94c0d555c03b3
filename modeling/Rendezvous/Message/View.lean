/-
Messages as data values, for logs and for those who look from outside.
-/
import Rendezvous.Json.Access
import Rendezvous.Message.Names

namespace Rendezvous

/-- Octets: their text if they are one, else an object with their hexadecimal digits. -/
def Json.ofBytes (b : Bytes) : Json :=
  match Text.ofBytes? b with
  | some s => .str s
  | none => .obj [("hex", .str (Hex.ofBytes b))]

def Json.ofRaw (m : RawMessage) : Json :=
  .obj [("body", .ofBytes m.payload), ("headers", .ofDict m.headers), ("id", .str m.id.text)]

/-- A decoded message; its payload is shown as text. -/
def Json.ofEvent (m : EventMessage) : Json :=
  .obj [("headers", .ofDict m.headers), ("id", .str m.id.text),
    ("payload", .str m.payload.toJson.text)]

end Rendezvous
