/-
Claims: a bounded memory of keys, for the detection of duplicates.

Values are kept by key, and the keys are queued in the order they were first stored.  When a
new key exceeds the capacity, the oldest keys are forgotten.
-/
import Rendezvous.Dict

namespace Rendezvous

/-- The values by key, the keys in the order of their arrival, and how many keys are kept. -/
structure ClaimStore where
  values : Dict String
  order : List String
  capacity : Nat

namespace ClaimStore

/-- The number of keys kept unless configured otherwise. -/
def defaultCapacity : Nat := 100000

def ofCapacity (n : Nat) : ClaimStore := ⟨Dict.empty, [], max n 1⟩

instance : Inhabited ClaimStore := ⟨ofCapacity defaultCapacity⟩

/-- Forgets the oldest keys until no more than `capacity` are left. -/
def evict (capacity : Nat) (values : Dict String) : List String → Dict String × List String
  | [] => (values, [])
  | oldest :: rest =>
    if (oldest :: rest).length ≤ capacity then (values, oldest :: rest)
    else evict capacity (values.erase oldest) rest

def get? (s : ClaimStore) (key : String) : Option String := s.values.find? key

/-- Stores a value; a key that is known keeps its place. -/
def put (s : ClaimStore) (key value : String) : ClaimStore :=
  let order := if (s.get? key).isSome then s.order else s.order ++ [key]
  let (values, order) := evict s.capacity (s.values.insert key value) order
  ⟨values, order, s.capacity⟩

/-- Stores a value unless the key is known; answers with the value that was there. -/
def putIfAbsent (s : ClaimStore) (key value : String) : ClaimStore × Option String :=
  match s.get? key with
  | some existing => (s, some existing)
  | none => (s.put key value, none)

/-- Forgets a key; answers with its value. -/
def remove (s : ClaimStore) (key : String) : ClaimStore × Option String :=
  match s.get? key with
  | some existing => (⟨s.values.erase key, s.order.filter (· ≠ key), s.capacity⟩, some existing)
  | none => (s, none)

def size (s : ClaimStore) : Nat := s.values.size

end ClaimStore
end Rendezvous
