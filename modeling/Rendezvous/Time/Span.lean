/-
Lengths of time.

A span is a whole number of nanoseconds.  It is written in the largest of the units second,
millisecond, microsecond and nanosecond of which it holds at least one, with a fraction that
has no zeros at its end.
-/
namespace Rendezvous

/-- A length of time. -/
structure Span where
  nanos : Nat
deriving DecidableEq, Repr

namespace Span

def ofMillis (n : Nat) : Span := ⟨n * 1000000⟩

def ofParts (secs nanos : Nat) : Span := ⟨secs * 1000000000 + nanos⟩

/-- The `width` digits of a fraction, without zeros at the end. -/
def fraction (width n : Nat) : List Char :=
  let ds := Nat.toDigits 10 n
  let padded := List.replicate (width - ds.length) '0' ++ ds
  (padded.reverse.dropWhile (· == '0')).reverse

/-- A number of units, the unit being `10 ^ width` nanoseconds. -/
def inUnit (width n : Nat) (unit : String) : String :=
  let whole := toString (n / Nat.pow 10 width)
  let part := fraction width (n % Nat.pow 10 width)
  if n % Nat.pow 10 width = 0 then whole ++ unit else whole ++ "." ++ String.ofList part ++ unit

def text (s : Span) : String :=
  if 1000000000 ≤ s.nanos then inUnit 9 s.nanos "s"
  else if 1000000 ≤ s.nanos then inUnit 6 s.nanos "ms"
  else if 1000 ≤ s.nanos then inUnit 3 s.nanos "µs"
  else inUnit 0 s.nanos "ns"

end Span
end Rendezvous
