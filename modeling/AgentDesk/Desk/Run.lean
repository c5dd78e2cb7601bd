import AgentDesk.Desk.Turn
import AgentDesk.Settings.Basic

/-!
A desk from outside: what its keeper can do, and how it goes on by itself. Every operation ends when nobody can
go on; time passes in `advance` only, from one timer to the next.
-/
namespace AgentDesk.Desk

/-- Turns until nobody can go on. -/
def turns : Nat → Desk → Desk
  | 0, d => d
  | n + 1, d =>
    match d.ready with
    | [] => d
    | caller :: rest => turns n (turn { d with ready := rest } caller)

/-- More turns than there can be without time passing: an action has one for each of its stages and may start a
probe, and a probe has two. -/
def turnBound (d : Desk) : Nat := d.ready.length + 16 * d.tasks.length + 16

def settle (d : Desk) : Desk := turns d.turnBound d

/-- The next instant at which a timer is due. -/
def nextDue? (d : Desk) : Option Nat := (d.timers.map (·.due)).min?

/-- Moves the clock to an instant and wakes all whose timers are due by then, in the order in which they asked. -/
def strike (d : Desk) (instant : Nat) : Desk :=
  let due := d.timers.filter (·.due ≤ instant)
  wakeAll { d with clock := max d.clock instant, timers := d.timers.filter (¬ ·.due ≤ instant) }
    (due.map (·.caller))

/-- Lets time pass up to an instant; no two strikes are at the same instant. -/
def advanceTo : Nat → Nat → Desk → Desk
  | 0, _, d => d
  | strikes + 1, target, d =>
    match d.nextDue? with
    | some due =>
      if due ≤ target then advanceTo strikes target ((d.strike due).settle)
      else { d with clock := target }
    | none => { d with clock := target }

def advance (d : Desk) (ms : Nat) : Desk := advanceTo (ms + 2) (d.clock + ms) d

/-- Begins an action; it has its first turn when the desk settles. -/
def begin (d : Desk) (errand : Errand) (command : Session.Command) : Desk :=
  { d with
    tasks := d.tasks ++ [⟨d.begun, errand, .begun command⟩]
    ready := d.ready ++ [.task d.begun]
    begun := d.begun + 1 }

/-- Changes the store from outside. -/
def dispatch (d : Desk) (action : Store.Action) : Desk := { d with store := d.store.dispatch action }

def setServer (d : Desk) (server : Server) : Desk := { d with server := server }

def hold (d : Desk) (kind : Wire.RequestKind) : Desk := { d with server := d.server.hold kind }

def release (d : Desk) (kind : Wire.RequestKind) : Desk :=
  let (server, callers) := d.server.release kind
  wakeAll { d with server := server } callers

/-- Keeps everybody else from the store. -/
def lockStore (d : Desk) : Desk := { d with lock := d.lock.close }

def unlockStore (d : Desk) : Desk := d.passLock d.lock.reopen

/-- The latest action under a name that is not over. -/
def pending? (d : Desk) (name : String) : Option Task :=
  (d.tasks.filter (·.errand = .command name)).getLast?

/-- Drops an action where it waits: it gives back the gate and its place in any queue, and leaves everything
else as it is. -/
def abort (d : Desk) (name : String) : Desk :=
  match d.pending? name with
  | none => d
  | some t =>
    let d :=
      { d with
        tasks := d.tasks.filter (·.number ≠ t.number)
        controller := if t.holdsGate then d.controller.release else d.controller
        server := { d.server with kept := d.server.kept.filter (·.2 ≠ Caller.task t.number) } }
    d.passLock (d.lock.withdraw t.number)

/-- Stops the probe, wherever it waits: nobody keeps its handle any more. -/
def stopProbe (d : Desk) : Desk := d.setController { d.controller with probe := none }

/-- Forgets what has happened so far, but not what is the case. -/
def clearReport (d : Desk) : Desk := { d with calls := [], finished := [] }

/-- The desk that checked settings describe. -/
def ofSettings (s : Settings) : Except Settings.Error Desk := do
  s.check
  let language ← s.language?
  let voice ← s.voice?
  return { controller := { pingIntervalMs := s.pingIntervalMs }, store := s.initialStore language voice }

/-- A desk with nothing but a probe, just started. -/
def ofProbe (channel : String) (periodMs : Nat) : Desk :=
  let idle : Session.Controller := { pingIntervalMs := periodMs }
  setController { controller := idle, store := {} } (idle.markConnected channel)

end AgentDesk.Desk
