/-
Ways to disturb the surroundings of a flow.

Failures are scripted call by call, and outputs are delayed attempt by attempt.
-/
import Rendezvous.Simulation.Outlet

namespace Rendezvous

namespace Outlet

def failNext (o : Outlet) (faults : List (Option ChannelError)) : Outlet :=
  { o with faults := o.faults.append () faults }

def delayNext (o : Outlet) (millis : List Nat) : Outlet :=
  { o with latencies := o.latencies ++ millis }

end Outlet

/-- The next calls of an engine meet these failures. -/
def Engine.failCalls (e : Engine) (call : EngineCall) (faults : List (Option EngineError)) :
    Engine :=
  { e with faults := e.faults.append call faults }

namespace World

def mapOutlet (w : World Outlet) (f : Outlet → Outlet) : World Outlet :=
  { w with channel := f w.channel }

/-- The next calls of the group store meet these failures. -/
def failStore (w : World Outlet) (call : StoreCall) (faults : List (Option StoreError)) :
    World Outlet :=
  { w with storeFaults := w.storeFaults.append call faults }

/-- The next calls of the claim store meet these failures. -/
def failClaims (w : World Outlet) (call : ClaimCall) (faults : List (Option StoreError)) :
    World Outlet :=
  { w with claimFaults := w.claimFaults.append call faults }

/-- The next messages to the error channel meet these failures. -/
def failLetters (w : World Outlet) (faults : List (Option ChannelError)) : World Outlet :=
  { w with letterFaults := w.letterFaults.append () faults }

/-- The next messages to a recording handler meet these failures. -/
def failHandlers (w : World Outlet) (faults : List (Option HandlerError)) : World Outlet :=
  { w with handlerFaults := w.handlerFaults.append () faults }

def interrupt (w : World Outlet) : World Outlet := { w with desk := w.desk.interrupt }

def clearInterrupt (w : World Outlet) : World Outlet := { w with desk := w.desk.clear }

def setClock (w : World Outlet) (now : Stamp) : World Outlet :=
  { w with clock := { w.clock with now := now } }

end World
end Rendezvous
