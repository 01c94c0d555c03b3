/-
The fewest decimal digits that read back.

A finite double is `m * 2 ^ q`, and the reals that round to it form an interval around it whose
ends count when `m` is even.  `Decimal.shortest` looks for the shortest decimal in that
interval, and among the shortest for the one nearest to the double.  All comparisons are made
between natural numbers, so nothing is rounded on the way.
-/
namespace Rendezvous
namespace Decimal

/-- The number `significand * 10 ^ exponent`. -/
structure Scaled where
  significand : Nat
  exponent : Int
deriving DecidableEq, Repr

/-- A positive double, `significand * 2 ^ exponent`; `boundary` holds at a power of two, where
the double below is half as far away as the one above. -/
structure Binary where
  significand : Nat
  exponent : Int
  boundary : Bool

/-- The weight of the leading bit in the significand of a double. -/
def leadingBit : Nat := 0x10000000000000

/-- The number of exponents of doubles. -/
def exponents : Nat := 0x800

/-- The parts of the magnitude of a finite double given by its bits. -/
def Binary.ofBits (bits : Nat) : Binary :=
  let fraction : Nat := bits % leadingBit
  let biased : Nat := bits / leadingBit % exponents
  if biased = 0 then ⟨fraction, -1074, false⟩
  else ⟨leadingBit + fraction, (biased : Int) - 1075, fraction == 0 && biased != 1⟩

/-- The interval that rounds to a double and the double itself, over one denominator: each
number is a numerator over `scale`. -/
structure Rounding where
  low : Nat
  mid : Nat
  high : Nat
  scale : Nat
  closed : Bool

/-- The interval of reals that round to a double. -/
def Binary.rounding (b : Binary) : Rounding :=
  let up := Nat.pow 2 b.exponent.toNat
  let down := Nat.pow 2 (-b.exponent).toNat
  let mid := 4 * b.significand * up
  let below := if b.boundary then up else 2 * up
  ⟨mid - below, mid, mid + 2 * up, 4 * down, b.significand % 2 == 0⟩

/-- Whether `d * 10 ^ e` rounds to the double. -/
def Rounding.contains (r : Rounding) (d : Nat) (e : Int) : Bool :=
  let n := d * Nat.pow 10 e.toNat * r.scale
  let k := Nat.pow 10 (-e).toNat
  if r.closed then r.low * k ≤ n && n ≤ r.high * k else r.low * k < n && n < r.high * k

/-- The integer part of the double over `10 ^ e`. -/
def Rounding.floor (r : Rounding) (e : Int) : Nat :=
  r.mid * Nat.pow 10 (-e).toNat / (r.scale * Nat.pow 10 e.toNat)

/-- Twice the distance of `d * 10 ^ e` below the double, against one step of the grid: the
nearer of `d` and `d + 1`, an even digit at a tie. -/
def Rounding.nearer (r : Rounding) (d : Nat) (e : Int) : Nat :=
  let step := r.scale * Nat.pow 10 e.toNat
  let rest := r.mid * Nat.pow 10 (-e).toNat - d * step
  if 2 * rest < step then d
  else if step < 2 * rest then d + 1
  else if d % 2 = 0 then d else d + 1

/-- A number on the grid of `10 ^ e` that rounds to the double, if there is one. -/
def Rounding.onGrid? (r : Rounding) (e : Int) : Option Nat :=
  let d := r.floor e
  match r.contains d e, r.contains (d + 1) e with
  | true, true => some (r.nearer d e)
  | true, false => some d
  | false, true => some (d + 1)
  | false, false => none

/-- Tries ever finer grids, at most `tries` of them. -/
def Rounding.search (r : Rounding) (e : Int) : Nat → Scaled
  | 0 => ⟨r.floor e, e⟩
  | tries + 1 =>
    match r.onGrid? e with
    | some d => ⟨d, e⟩
    | none => r.search (e - 1) tries

/-- Moves the zeros at the end of a significand into the exponent. -/
def Scaled.strip (tries : Nat) (s : Scaled) : Scaled :=
  match tries with
  | 0 => s
  | tries + 1 =>
    if s.significand % 10 = 0 then Scaled.strip tries ⟨s.significand / 10, s.exponent + 1⟩ else s

/-- The exponent of the coarsest grid worth trying: one above the leading digit. -/
def Rounding.coarsest (r : Rounding) : Int :=
  (Nat.log2 (r.high / r.scale + 1) * 30103 / 100000 : Nat) + 2
    - (if r.high < r.scale then (Nat.log2 (r.scale / r.high + 1) * 30103 / 100000 : Nat) else 0)

/-- The shortest decimal that rounds to the positive double given by its bits. -/
def shortest (bits : Nat) : Scaled :=
  let r := (Binary.ofBits bits).rounding
  (r.search r.coarsest 24).strip 20

end Decimal
end Rendezvous
