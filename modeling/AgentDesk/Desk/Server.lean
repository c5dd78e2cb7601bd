import AgentDesk.Liveness.Probe
import AgentDesk.Session.Stage

/-!
The agent server as a console meets it: what it answers to each kind of request, after which delay, and which
kinds it keeps waiting.
-/
namespace AgentDesk.Desk

/-- Who waits for something: an action by its number, or a probe by its serial. -/
inductive Caller where
  | task (number : Nat)
  | probe (serial : Nat)
  deriving DecidableEq, Repr

/-- An answer and how long it takes; no time at all is no wait. -/
structure Script where
  answer : Session.Answer := .ok .ok
  delayMs : Nat := 0

structure Server where
  start : Script := {}
  stop : Script := {}
  ping : Script := {}
  /-- The kinds of request that are kept waiting. -/
  holds : List Wire.RequestKind := []
  /-- The requests kept waiting, in the order in which they came. -/
  kept : List (Wire.RequestKind × Caller) := []

namespace Server

def script (s : Server) : Wire.RequestKind → Script
  | .start => s.start
  | .stop => s.stop
  | .ping => s.ping

def setScript (s : Server) (kind : Wire.RequestKind) (script : Script) : Server :=
  match kind with
  | .start => { s with start := script }
  | .stop => { s with stop := script }
  | .ping => { s with ping := script }

def keeps (s : Server) (kind : Wire.RequestKind) : Bool := s.holds.contains kind

def hold (s : Server) (kind : Wire.RequestKind) : Server :=
  if s.keeps kind then s else { s with holds := kind :: s.holds }

/-- Keeps no more requests of a kind; those kept so far come out in their order. -/
def release (s : Server) (kind : Wire.RequestKind) : Server × List Caller :=
  ({ s with
     holds := s.holds.filter (· ≠ kind)
     kept := s.kept.filter (·.1 ≠ kind) },
   (s.kept.filter (·.1 = kind)).map (·.2))

end Server

end AgentDesk.Desk
