/-
The standard flow.

Around the aggregator stand, outermost first, the idempotent receiver if it is on, the
cancellation advice, and the advices of the user.
-/
import Rendezvous.Config.Basic
import Rendezvous.Flow.Basic

namespace Rendezvous

/-- What a standard flow is made from; the timeout is in milliseconds. -/
structure FlowSettings where
  names : HeaderNames := {}
  retry : RetryPolicy := {}
  lockTimeout : Option Nat := none
  idempotent : Bool := true
  stamping : Stamping := .fixed Stamp.start2025
  advices : List Advice := []

namespace FlowSettings

def ofConfig (c : Config) : FlowSettings :=
  { names := c.headers, retry := c.dispatch.policy, lockTimeout := c.lock.timeout,
    idempotent := c.idempotency.enabled }

def chainAdvices (s : FlowSettings) : List Advice :=
  (if s.idempotent then [.once s.stamping] else [])
    ++ .reconcile (Reconciler.default s.names s.lockTimeout) :: s.advices

def flow (s : FlowSettings) : Flow :=
  ⟨s.names, ⟨s.chainAdvices, .aggregate (Aggregator.default s.names s.retry s.lockTimeout)⟩⟩

end FlowSettings
end Rendezvous
