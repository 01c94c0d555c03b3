/-
The clock that stamps groups and dead letters.

Each reading first moves the clock by its step, so no two readings agree unless the step is
zero.
-/
import Rendezvous.Time.Stamp

namespace Rendezvous

/-- A clock that moves by a step at each reading. -/
structure Clock where
  now : Stamp
  step : Int
deriving Repr

def Clock.tick (c : Clock) : Stamp × Clock :=
  let now := c.now.later c.step
  (now, { c with now := now })

end Rendezvous
