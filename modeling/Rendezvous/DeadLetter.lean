/-
Dead letters: the queue of messages that cannot be processed.

The queue keeps the newest messages up to its size, oldest first, each with the reason its
error header gives and the time it arrived.
-/
import Rendezvous.Message.Basic
import Rendezvous.Time.Stamp

namespace Rendezvous

/-- A message that could not be processed. -/
structure DeadLetter where
  message : RawMessage
  reason : String
  failedAt : Stamp

/-- The queue, the most it holds, and the name of the error header. -/
structure DeadLetterQueue where
  entries : List DeadLetter
  maxSize : Nat
  errorHeader : String

namespace DeadLetterQueue

/-- The size of a queue unless configured otherwise. -/
def defaultSize : Nat := 1000

def ofSize (n : Nat) (errorHeader : String) : DeadLetterQueue := ⟨[], max n 1, errorHeader⟩

/-- The reason a message gives for its failure. -/
def reasonOf (errorHeader : String) (m : RawMessage) : String :=
  (m.headers.text? errorHeader).getD "discarded"

def isFull (q : DeadLetterQueue) : Bool := q.maxSize ≤ q.entries.length

/-- Adds a message, dropping the oldest of a full queue. -/
def push (q : DeadLetterQueue) (m : RawMessage) (now : Stamp) : DeadLetterQueue :=
  let kept := if q.isFull then q.entries.drop 1 else q.entries
  { q with entries := kept ++ [⟨m, reasonOf q.errorHeader m, now⟩] }

def peek? (q : DeadLetterQueue) : Option DeadLetter := q.entries.head?

def drain (q : DeadLetterQueue) : List DeadLetter × DeadLetterQueue :=
  (q.entries, { q with entries := [] })

def size (q : DeadLetterQueue) : Nat := q.entries.length

end DeadLetterQueue
end Rendezvous
