/-
What is counted.

Every part of the connector counts what it does.  A total only grows, a gauge shows the last
value it was set to, and a timing collects lengths of time, in milliseconds.  Two totals are
kept by label: the messages appended to groups by event type, and the outputs released by kind
of command.  What was never touched is not shown.
-/
import Rendezvous.Dict

namespace Rendezvous

/-- The totals without a label. -/
inductive Total where
  | received
  | discarded
  | decodeErrors
  | correlationErrors
  | lockUnavailable
  | lockInterrupted
  | dispatchFailures
  | duplicates
  | cancelledRemoved
  | retries
  | retriesExhausted
  | deadLettersDropped
deriving DecidableEq, Repr

inductive Gauge where
  | groups
  | deadLetters
deriving DecidableEq, Repr

inductive Timing where
  | handled
  | lockWait
deriving DecidableEq, Repr

/-- The values of everything that was touched. -/
structure Metrics where
  totals : List (Total × Nat)
  gauges : List (Gauge × Nat)
  timings : List (Timing × List Nat)
  aggregated : Dict Nat
  released : Dict Nat

namespace Metrics

/-- Nothing was touched. -/
def none : Metrics := ⟨[], [], [], Dict.empty, Dict.empty⟩

instance : Inhabited Metrics := ⟨none⟩

/-- Changes the value of a key, which has `start` before it is there. -/
def adjust {α β : Type} [DecidableEq α] (k : α) (start : β) (f : β → β) :
    List (α × β) → List (α × β)
  | [] => [(k, f start)]
  | (k', v) :: rest => if k' = k then (k', f v) :: rest else (k', v) :: adjust k start f rest

def total (m : Metrics) (t : Total) : Nat := (m.totals.lookup t).getD 0

def gauge? (m : Metrics) (g : Gauge) : Option Nat := m.gauges.lookup g

/-- The lengths of time of a timing, oldest first. -/
def samples (m : Metrics) (t : Timing) : List Nat := (m.timings.lookup t).getD []

/-- The sum of the values of a labelled total. -/
def sum (d : Dict Nat) : Nat := d.entries.foldr (fun e n => e.2 + n) 0

def add (m : Metrics) (t : Total) (n : Nat) : Metrics :=
  { m with totals := adjust t 0 (· + n) m.totals }

def count (m : Metrics) (t : Total) : Metrics := m.add t 1

def set (m : Metrics) (g : Gauge) (n : Nat) : Metrics :=
  { m with gauges := adjust g 0 (fun _ => n) m.gauges }

def time (m : Metrics) (t : Timing) (millis : Nat) : Metrics :=
  { m with timings := adjust t [] (· ++ [millis]) m.timings }

def bump (d : Dict Nat) (label : String) : Dict Nat :=
  d.insert label ((d.find? label).getD 0 + 1)

def countAggregated (m : Metrics) (eventType : String) : Metrics :=
  { m with aggregated := bump m.aggregated eventType }

def countReleased (m : Metrics) (payloadType : String) : Metrics :=
  { m with released := bump m.released payloadType }

theorem lookup_adjust {α β : Type} [DecidableEq α] (k k' : α) (start : β) (f : β → β)
    (es : List (α × β)) :
    (adjust k start f es).lookup k' =
      if k' = k then some (f ((es.lookup k).getD start)) else es.lookup k' := by
  induction es with
  | nil =>
    by_cases h : k' = k
    · simp [adjust, h]
    · have hb : (k' == k) = false := by simp [h]
      simp [adjust, List.lookup_cons, h, hb]
  | cons head rest ih =>
    obtain ⟨l, v⟩ := head
    by_cases hl : l = k
    · subst hl
      by_cases h : k' = l
      · simp [adjust, h]
      · have hb : (k' == l) = false := by simp [h]
        simp [adjust, List.lookup_cons, h, hb]
    · have hk : k ≠ l := fun e => hl (Eq.symm e)
      have hbk : (k == l) = false := by simp [hk]
      by_cases h : k' = l
      · have hl' : l ≠ k := hl
        subst h
        simp [adjust, hl']
      · have hb : (k' == l) = false := by simp [h]
        simp only [adjust, if_neg hl, List.lookup_cons, hb, hbk, ih]

theorem total_add (m : Metrics) (t t' : Total) (n : Nat) :
    (m.add t n).total t' = if t' = t then m.total t + n else m.total t' := by
  simp only [total, add, lookup_adjust]
  split <;> rfl

end Metrics
end Rendezvous
