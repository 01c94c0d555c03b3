/-
How a double is written.

The digits come from `Decimal.shortest`; a `Layout` fixes the rest: which magnitudes are written
with a plain point, whether an integral number keeps a digit behind the point, and what stands in
front of a positive exponent.
-/
import Rendezvous.Decimal.Shortest

namespace Rendezvous
namespace Decimal

/-- A way to write finite doubles. -/
structure Layout where
  /-- the exponents of the leading digit that are written with a plain point -/
  plain : Int → Bool
  /-- what follows the digits of an integral number in plain notation -/
  integralTail : String
  /-- what stands in front of a positive exponent -/
  raised : String

def digitsOf (n : Nat) : List Char := Nat.toDigits 10 n

/-- Digits with the point behind the first `k`. -/
def pointAfter (k : Nat) (ds : List Char) : List Char :=
  ds.take k ++ '.' :: ds.drop k

def Layout.positive (l : Layout) (s : Scaled) : List Char :=
  let ds := digitsOf s.significand
  let lead : Int := s.exponent + ds.length - 1
  if l.plain lead then
    if 0 ≤ s.exponent then
      ds ++ List.replicate s.exponent.toNat '0' ++ l.integralTail.toList
    else if 0 ≤ lead then pointAfter (lead + 1).toNat ds
    else '0' :: '.' :: List.replicate (-lead - 1).toNat '0' ++ ds
  else
    let mantissa := if ds.length ≤ 1 then ds else pointAfter 1 ds
    mantissa ++ 'e' :: (if 0 < lead then l.raised.toList else []) ++ (toString lead).toList

/-- The weight of the sign in the bits of a double. -/
def signBit : Nat := 0x8000000000000000

def Layout.write (l : Layout) (x : Float) : String :=
  let bits := x.toBits.toNat
  let magnitude := bits % signBit
  let sign := if bits / signBit = 1 then ['-'] else []
  let body := if magnitude = 0 then '0' :: l.integralTail.toList else l.positive (shortest magnitude)
  String.ofList (sign ++ body)

/-- A double that is neither infinite nor no number. -/
def isFinite (x : Float) : Bool :=
  x.toBits.toNat / leadingBit % exponents != exponents - 1

/-! ## Reading -/

/-- The double nearest to `10 ^ n`. -/
def powerOfTen (n : Nat) : Float := Float.ofScientific 1 false n

/-- The double nearest to `significand * 10 ^ exponent`. -/
def nearest (significand : Nat) (exponent : Int) : Float :=
  Float.ofScientific significand (decide (exponent < 0)) exponent.natAbs

end Decimal
end Rendezvous
