/-
What can be seen of a bench, as data values.

A step shows what it did, and the stores as they are after it.  What is empty is left out.
-/
import Rendezvous.Message.View
import Rendezvous.Simulation.Bench

namespace Rendezvous
namespace Json

/-- A point in time, in whole seconds since the start of 2025. -/
def ofStamp (s : Stamp) : Json := .int (s.secondsSince Stamp.start2025)

def ofLetter (l : DeadLetter) : Json :=
  .obj [("at", .ofStamp l.failedAt), ("message", .ofRaw l.message), ("reason", .str l.reason)]

def ofEventType (header : String) (m : EventMessage) : Json := .ofText? (m.eventType? header)

def ofGroup (header : String) (g : StoredGroup) : Json :=
  .obj
    [("created", .ofStamp g.created),
      ("messages", .list (fun m => .arr [.str m.id.text, ofEventType header m]) g.messages),
      ("modified", .ofStamp g.modified)]

def ofEngine (e : Engine) : List (String × Json) :=
  [("started", .list (fun (i : Instance) =>
      .obj [("business_key", .ofText? i.businessKey), ("instance", .str i.id),
        ("name", .str i.message), ("variables", .ofDict i.vars)]) e.started),
    ("triggered", .list (fun t => .arr [.str t.1, .ofDict t.2]) e.triggered)]

def countMember (name : String) (n : Nat) : List (String × Json) :=
  if n = 0 then [] else [(name, .ofNat n)]

def listMember (name : String) (items : List Json) : List (String × Json) :=
  if items.isEmpty then [] else [(name, .arr items)]

def dictMember (name : String) (members : List (String × Json)) : List (String × Json) :=
  if members.isEmpty then [] else [(name, .obj members)]

def ofStoreCall : StoreCall → Json
  | .group => .str "group"
  | .add => .str "add"
  | .remove => .str "remove"
  | .removeGroup => .str "remove_group"

def ofReport (r : Report) : List (String × Json) :=
  countMember "t" r.took
    ++ listMember "attempts" (r.attempts.map Json.ofNat)
    ++ listMember "error_attempts" (r.offers.map Json.ofNat)
    ++ listMember "out" (r.accepted.map Json.ofRaw)
    ++ listMember "log" (r.notes.map Json.str)
    ++ listMember "store_calls" (r.storeCalls.map ofStoreCall)

/-- The members that show the stores; `claim` shows the value of a claim. -/
def ofStores (header : String) (claim : String → Json) (w : World Outlet) :
    List (String × Json) :=
  countMember "dead" w.letters.size
    ++ dictMember "groups" (w.groups.groups.entries.map fun e => (e.1, ofGroup header e.2))
    ++ countMember "count" w.groups.count
    ++ dictMember "claims" (w.claims.values.entries.map fun e => (e.1, claim e.2))
    ++ countMember "claim_count" w.claims.size

end Json
end Rendezvous
