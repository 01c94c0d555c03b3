/-
Scripted failures.

A script lists, in order, what shall happen to the next calls: a failure, or nothing.  A call
takes the first entry meant for it; once the script has none left, calls go through.
-/
namespace Rendezvous

/-- For each call to come, which one it is and how it fails, if it does. -/
abbrev Faults (α ε : Type) := List (α × Option ε)

namespace Faults

variable {α ε : Type} [DecidableEq α]

/-- The failure of the next call, and the script that is left. -/
def next (call : α) : Faults α ε → Option ε × Faults α ε
  | [] => (none, [])
  | (c, fault) :: rest =>
    if c = call then (fault, rest)
    else
      let (found, rest) := next call rest
      (found, (c, fault) :: rest)

def append (s : Faults α ε) (call : α) (faults : List (Option ε)) : Faults α ε :=
  s ++ faults.map fun fault => (call, fault)

end Faults
end Rendezvous
