import AgentDesk.Liveness.Probe
import AgentDesk.Session.Error
import AgentDesk.Wire.Request

/-! The controller of the one session that a console can have. -/
namespace AgentDesk.Session

inductive State where
  | disconnected
  /-- A start request is under way. -/
  | connecting
  | connected
  deriving DecidableEq, Repr

/-- What an action came to. -/
inductive Outcome where
  | connected
  | disconnected
  /-- Another action was under way; nothing was done. -/
  | suppressed
  deriving DecidableEq, Repr

/-- Whether an action is under way. -/
inductive Gate where
  | idle
  | inFlight
  deriving DecidableEq, Repr

/-- The gate taken, if it is free. -/
def Gate.acquire? : Gate → Option Gate
  | idle => some inFlight
  | inFlight => none

/-- `session` is what the session was started with; an adopted one has none. `probe` is the handle of the probe that
was started for it, and `probes` counts those that ever were. -/
structure Controller where
  pingIntervalMs : Nat
  state : State := .disconnected
  gate : Gate := .idle
  session : Option Wire.Params := none
  probe : Option Liveness.Handle := none
  probes : Nat := 0
  deriving DecidableEq, Repr

namespace Controller

def isLoading (c : Controller) : Bool := c.gate = .inFlight

/-- A session runs for the channel; the handle of its probe takes the place of any other. -/
def markConnected (c : Controller) (channel : String) : Controller :=
  { c with
    state := .connected
    probe := some ⟨c.probes, channel⟩
    probes := c.probes + 1 }

/-- No session runs any more; the handle of the probe goes with it. -/
def tearDown (c : Controller) : Controller :=
  { c with state := .disconnected, session := none, probe := none }

def release (c : Controller) : Controller := { c with gate := .idle }

end Controller

end AgentDesk.Session
