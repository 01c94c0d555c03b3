/-
Points in time.

A stamp counts seconds from the start of 1970 in universal time, with a fraction in
nanoseconds.  A fraction of a whole second or more stands for a leap second, the one after the
last second of a minute.  The written form is that of the Internet date and time format: a year
beyond 9999 or before 0 carries a sign, and the fraction has three, six or nine digits as needed.
-/
namespace Rendezvous

/-- A point in time. -/
structure Stamp where
  seconds : Int
  nanos : Nat
deriving DecidableEq, Repr

namespace Stamp

def start2025 : Stamp := ⟨1735689600, 0⟩

def perSecond : Nat := 1000000000

def isLeap (s : Stamp) : Bool := perSecond ≤ s.nanos

/-- A stamp later by whole seconds.  A leap second is left to the second after it on the way
forward, and to the second before it on the way back, which is as long away. -/
def later (s : Stamp) (seconds : Int) : Stamp :=
  if s.isLeap && seconds ≠ 0 then
    ⟨s.seconds + seconds + (if seconds < 0 then 1 else 0), s.nanos - perSecond⟩
  else ⟨s.seconds + seconds, s.nanos⟩

def total (s : Stamp) : Int := s.seconds * perSecond + s.nanos

/-- The whole seconds from one stamp to another, negative if that is the earlier one.  A second
that is not over does not count. -/
def secondsSince (s start : Stamp) : Int := (s.total - start.total).tdiv perSecond

instance : Inhabited Stamp := ⟨start2025⟩

def le (s t : Stamp) : Bool :=
  s.seconds < t.seconds || (s.seconds == t.seconds && s.nanos ≤ t.nanos)

theorem le_refl (s : Stamp) : s.le s = true := by
  simp [le]

/-- A day of the Gregorian calendar. -/
structure Date where
  year : Int
  month : Nat
  day : Nat

/-- The date of a day counted from the start of 1970: eras of 400 years that begin in March, so
that the day added in leap years comes last. -/
def Date.ofDays (days : Int) : Date :=
  let z := days + 719468
  let era := z.fdiv 146097
  let doe := (z - era * 146097).toNat
  let yoe := (doe - doe / 1460 + doe / 36524 - doe / 146096) / 365
  let doy := doe - (365 * yoe + yoe / 4 - yoe / 100)
  let mp := (5 * doy + 2) / 153
  let day := doy - (153 * mp + 2) / 5 + 1
  let month := if mp < 10 then mp + 3 else mp - 9
  let year : Int := yoe + era * 400
  ⟨if month ≤ 2 then year + 1 else year, month, day⟩

/-- A number with zeros in front up to a width. -/
def padded (width n : Nat) : String :=
  let ds := Nat.toDigits 10 n
  String.ofList (List.replicate (width - ds.length) '0' ++ ds)

def yearText (y : Int) : String :=
  if 0 ≤ y ∧ y ≤ 9999 then padded 4 y.toNat
  else (if y < 0 then "-" else "+") ++ padded 4 y.natAbs

def fractionText (nanos : Nat) : String :=
  if nanos = 0 then ""
  else if nanos % 1000000 = 0 then "." ++ padded 3 (nanos / 1000000)
  else if nanos % 1000 = 0 then "." ++ padded 6 (nanos / 1000)
  else "." ++ padded 9 nanos

def text (s : Stamp) : String :=
  let date := Date.ofDays (s.seconds.fdiv 86400)
  let second := (s.seconds.fmod 86400).toNat
  let leap := if s.isLeap then 1 else 0
  yearText date.year ++ "-" ++ padded 2 date.month ++ "-" ++ padded 2 date.day ++ "T"
    ++ padded 2 (second / 3600) ++ ":" ++ padded 2 (second / 60 % 60) ++ ":"
    ++ padded 2 (second % 60 + leap) ++ fractionText (s.nanos % perSecond) ++ "+00:00"

end Stamp
end Rendezvous
