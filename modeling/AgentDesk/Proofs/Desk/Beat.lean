import AgentDesk.Desk.Turn

/-! # One move of the probe

All that a move of the probe can do to a desk is said here once (`stepProbe_beat`): how far it gets in its schedule,
what it asks of the server, and whether it can go on. -/
namespace AgentDesk.Desk
open Liveness

/-- The answer to a ping that has got so far is at hand. -/
def Server.isReady (s : Server) : Progress → Bool
  | .heard => s.ping.delayMs = 0
  | .answering => true
  | _ => false

/-- What one move does to a probe, and whether it can go on. -/
inductive Beat (d : Desk) (p : Probe) : Desk × Bool → Prop
  | sets (fresh : p.phase = .fresh) : Beat d p (d.awaitTick p (d.clock + p.periodMs), false)
  | early {due : Nat} (waits : p.phase = .waiting due) (later : d.clock < due) : Beat d p (d, false)
  | ticks {due : Nat} (waits : p.phase = .waiting due) (past : due ≤ d.clock) :
      Beat d p (d.setProbe (p.tick due d.clock), true)
  | kept {next : Nat} (sends : p.phase = .pinging next .ready) (keeps : d.server.keeps .ping = true) :
      Beat d p
        (setProbe
          { d with
            calls := d.calls ++ [.ping p.channel]
            server := { d.server with kept := d.server.kept ++ [(.ping, .probe p.serial)] } }
          { p with phase := .pinging next .held }, false)
  | heard {next : Nat} (sends : p.phase = .pinging next .ready) (lets : d.server.keeps .ping = false) :
      Beat d p
        (setProbe { d with calls := d.calls ++ [.ping p.channel] } { p with phase := .pinging next .heard }, true)
  | delayed {next : Nat} (hears : p.phase = .pinging next .heard) (slow : d.server.ping.delayMs ≠ 0) :
      Beat d p
        (setProbe (d.startTimer d.server.ping.delayMs (.probe p.serial)) { p with phase := .pinging next .delayed },
          false)
  | bides {next : Nat} {progress : Progress} (pings : p.phase = .pinging next progress)
      (stays : progress = .held ∨ progress = .delayed) : Beat d p (d.setProbe p, false)
  | answered {next : Nat} {progress : Progress} (pings : p.phase = .pinging next progress)
      (ready : d.server.isReady progress = true) (later : d.clock < next) : Beat d p (d.awaitTick p next, false)
  | late {next : Nat} {progress : Progress} (pings : p.phase = .pinging next progress)
      (ready : d.server.isReady progress = true) (past : next ≤ d.clock) :
      Beat d p (d.setProbe (p.tick next d.clock), true)

theorem stepProbe_beat (d : Desk) (p : Probe) : Beat d p (d.stepProbe p) := by
  cases hphase : p.phase with
  | fresh =>
    simp only [stepProbe, hphase]
    exact .sets hphase
  | waiting due =>
    simp only [stepProbe, hphase]
    split
    · next hdue => exact .ticks hphase hdue
    · next hdue => exact .early hphase (Nat.lt_of_not_le hdue)
  | pinging next progress =>
    simp only [stepProbe, hphase]
    have htake (ready : d.server.isReady progress = true) :
        Beat d p
          (if next ≤ d.clock then (d.setProbe (p.tick next d.clock), true) else (d.awaitTick p next, false)) := by
      split
      · next hnext => exact .late hphase ready hnext
      · next hnext => exact .answered hphase ready (Nat.lt_of_not_le hnext)
    cases progress with
    | ready =>
      cases hkeeps : d.server.keeps .ping with
      | true =>
        simp only [converse, Wire.Request.kind, hkeeps, if_true]
        exact .kept hphase hkeeps
      | false =>
        simp only [converse, Wire.Request.kind, hkeeps, Bool.false_eq_true, if_false]
        exact .heard hphase hkeeps
    | heard =>
      by_cases hslow : d.server.ping.delayMs = 0
      · simp only [converse, Wire.Request.kind, Server.script, hslow, if_true]
        exact htake (decide_eq_true hslow)
      · simp only [converse, Wire.Request.kind, Server.script, hslow, if_false]
        exact .delayed hphase hslow
    | answering => exact htake rfl
    | held =>
      have hsame : { p with phase := .pinging next .held } = p := by rw [← hphase]
      simp only [converse, hsame]
      exact .bides hphase (.inl rfl)
    | delayed =>
      have hsame : { p with phase := .pinging next .delayed } = p := by rw [← hphase]
      simp only [converse, hsame]
      exact .bides hphase (.inr rfl)

end AgentDesk.Desk
