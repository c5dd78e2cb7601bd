/-!
The liveness probe of a session: a ping on a fixed period, one at a time. A tick that is due at `d` and picked
up at `t` sets the next one to `d + period` if `t` is within the tolerance of `d`, and to `t + period` if it is
later, so that a late answer moves the schedule and never causes a burst. What a ping is answered is not looked
at.

Instants and periods are whole milliseconds, as the interval of the settings is: there is no period here of a
fraction of a millisecond, and nothing happens between two of them.
-/
namespace AgentDesk

/-- How far a request has got at the agent server. -/
inductive Progress where
  /-- Not sent yet. -/
  | ready
  /-- Received, and kept waiting. -/
  | held
  /-- The answer is to be looked up. -/
  | heard
  /-- The answer takes its time. -/
  | delayed
  /-- The time is over: the answer is to be looked up once more. -/
  | answering
  deriving DecidableEq, Repr

/-- What becomes of a waiting request when its wait is over. -/
def Progress.woken : Progress → Progress
  | held => heard
  | delayed => answering
  | p => p

namespace Liveness

def shortestPeriodMs : Nat := 100

/-- An hour. -/
def longestPeriodMs : Nat := 3600000

/-- Ticks picked up this late still keep the schedule. -/
def toleranceMs : Nat := 5

def clampPeriod (ms : Nat) : Nat := max shortestPeriodMs (min ms longestPeriodMs)

/-- When the tick after one that was due at `due` and picked up at `now` is due. -/
def nextDue (period due now : Nat) : Nat :=
  if now ≤ due + toleranceMs then due + period else now + period

inductive Phase where
  /-- Started, its schedule not set yet. -/
  | fresh
  | waiting (due : Nat)
  /-- A ping is under way; the tick after it is due at `next`. -/
  | pinging (next : Nat) (progress : Progress)
  deriving DecidableEq, Repr

/-- What is kept of a probe by whoever started it: to let go of it stops the probe. `serial` tells the probe from
those before and after it. -/
structure Handle where
  serial : Nat
  channel : String
  deriving DecidableEq, Repr

/-- A probe that runs. -/
structure Probe where
  serial : Nat
  channel : String
  periodMs : Nat
  phase : Phase
  deriving DecidableEq, Repr

def Probe.handle (p : Probe) : Handle := ⟨p.serial, p.channel⟩

/-- The probe that a new handle is for; its period is clamped. -/
def Probe.start (handle : Handle) (periodMs : Nat) : Probe :=
  ⟨handle.serial, handle.channel, clampPeriod periodMs, .fresh⟩

/-- The probe once what it waits for has come. -/
def Probe.woken (p : Probe) : Probe :=
  match p.phase with
  | .pinging next progress => { p with phase := .pinging next progress.woken }
  | _ => p

/-- Picks up the tick that was due at `due`. -/
def Probe.tick (p : Probe) (due now : Nat) : Probe :=
  { p with phase := .pinging (nextDue p.periodMs due now) .ready }

theorem shortest_le_clampPeriod (ms : Nat) : shortestPeriodMs ≤ clampPeriod ms := by
  unfold clampPeriod; omega

theorem clampPeriod_le_longest (ms : Nat) : clampPeriod ms ≤ longestPeriodMs := by
  unfold clampPeriod shortestPeriodMs longestPeriodMs; omega

/-- Within the bounds the period is what was asked for. -/
theorem clampPeriod_eq {ms : Nat} (h : ms ≤ longestPeriodMs) : clampPeriod ms = max ms shortestPeriodMs := by
  unfold clampPeriod; omega

end Liveness

end AgentDesk
