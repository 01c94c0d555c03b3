/-
Retrying with growing delays.

A policy bounds the number of retries and the delays between them.  A delay is computed in
doubles: the initial delay times a power of the growth factor, no more than the cap, cut to
whole milliseconds.
-/
import Rendezvous.Failure

namespace Rendezvous

/-- How often to retry and how long to wait; times are in milliseconds. -/
structure RetryPolicy where
  maxRetries : Nat := 3
  initialDelay : Nat := 100
  maxDelay : Nat := 5000
  multiplier : Float := 2.0

namespace RetryPolicy

/-- A power by repeated squaring; `bits` bounds the size of the exponent. -/
def power (result base : Float) (exponent : Nat) : Nat → Float
  | 0 => result
  | bits + 1 =>
    let result := if exponent % 2 = 1 then result * base else result
    if exponent / 2 = 0 then result
    else power result (base * base) (exponent / 2) bits

/-- The largest exponent that is used. -/
def maxExponent : Nat := 2147483647

/-- The lesser of two doubles; one that is no number loses. -/
def lesser (x y : Float) : Float :=
  if x.isNaN then y else if y.isNaN then x else if y < x then y else x

/-- The delay before the retry of this number, counted from zero. -/
def delay (p : RetryPolicy) (attempt : Nat) : Nat :=
  let grown := (UInt64.ofNat p.initialDelay).toFloat
    * power 1.0 p.multiplier (min attempt maxExponent) 32
  let capped := lesser grown (UInt64.ofNat p.maxDelay).toFloat
  if capped.isNaN then 0 else capped.toUInt64.toNat

/-- The longest sleep, thirty years. -/
def longestSleep : Nat := 946080000000

/-- How long a timer sleeps that is set to a delay. -/
def slept (delay : Nat) : Nat := min delay longestSleep

/-- How long is slept before the retry of this number. -/
def sleep (p : RetryPolicy) (attempt : Nat) : Nat := slept (p.delay attempt)

/-- Whether a failed attempt of this number, counted from zero, is followed by another. -/
def retries (p : RetryPolicy) (retryable : Bool) (attempt : Nat) : Bool :=
  retryable && attempt < p.maxRetries

end RetryPolicy

/-! ## Running an operation -/

namespace Retry

/-- What a run did: how often it called the operation, the delays to which it set the timer in
between, and the outcome of the last call. -/
structure Trace (ε α : Type) where
  calls : Nat
  delays : List Nat
  outcome : Except ε α

def Trace.sleeps {ε α : Type} (t : Trace ε α) : List Nat := t.delays.map RetryPolicy.slept

/-- When the calls were made, the first at zero. -/
def Trace.times {ε α : Type} (t : Trace ε α) : List Nat :=
  t.sleeps.foldl (fun times sleep => times ++ [times.getLastD 0 + sleep]) [0]

/-- Calls an operation whose outcomes are given by number until it succeeds, fails for good, or
has no retries left; `left` is the number of retries that remain. -/
def run {ε α : Type} (p : RetryPolicy) (retryable : ε → Bool) (outcome : Nat → Except ε α)
    (attempt : Nat) : Nat → Trace ε α
  | 0 => ⟨1, [], outcome attempt⟩
  | left + 1 =>
    match outcome attempt with
    | .ok a => ⟨1, [], .ok a⟩
    | .error e =>
      if retryable e then
        let rest := run p retryable outcome (attempt + 1) left
        ⟨rest.calls + 1, p.delay attempt :: rest.delays, rest.outcome⟩
      else ⟨1, [], .error e⟩

end Retry
end Rendezvous
