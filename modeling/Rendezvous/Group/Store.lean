/-
The store of groups.

A group comes into being with its first message and is gone with its last.  The store maps the
key of a conversation to its group; no operation looks at the group of another key.
-/
import Rendezvous.Group.Basic

namespace Rendezvous

/-- A group as it is kept: its key is the name it is kept under. -/
structure StoredGroup where
  messages : List EventMessage
  created : Stamp
  modified : Stamp

/-- The groups by their keys. -/
structure GroupStore where
  groups : Dict StoredGroup

namespace GroupStore

def empty : GroupStore := ⟨Dict.empty⟩

instance : Inhabited GroupStore := ⟨empty⟩

/-- A kept group with its key. -/
def snapshot (key : CorrelationKey) (g : StoredGroup) : Group :=
  ⟨key, g.messages, g.created, g.modified⟩

def group? (s : GroupStore) (key : CorrelationKey) : Option Group :=
  (s.groups.find? key).map (snapshot key)

def messages (s : GroupStore) (key : CorrelationKey) : List EventMessage :=
  match s.groups.find? key with
  | some g => g.messages
  | none => []

def count (s : GroupStore) : Nat := s.groups.size

def add (s : GroupStore) (key : CorrelationKey) (m : EventMessage) (now : Stamp) :
    GroupStore × Group :=
  let g : StoredGroup :=
    match s.groups.find? key with
    | some g => { g with messages := g.messages ++ [m], modified := now }
    | none => ⟨[m], now, now⟩
  (⟨s.groups.insert key g⟩, snapshot key g)

/-- Takes out the messages of the given identities; an emptied group is deleted. -/
def remove (s : GroupStore) (key : CorrelationKey) (ids : List Uuid) (now : Stamp) :
    GroupStore :=
  match s.groups.find? key with
  | none => s
  | some g =>
    let kept := g.messages.filter fun m => !ids.contains m.id
    if kept.isEmpty then ⟨s.groups.erase key⟩
    else if kept.length = g.messages.length then s
    else ⟨s.groups.insert key { g with messages := kept, modified := now }⟩

def drop (s : GroupStore) (key : CorrelationKey) : GroupStore := ⟨s.groups.erase key⟩

end GroupStore
end Rendezvous
