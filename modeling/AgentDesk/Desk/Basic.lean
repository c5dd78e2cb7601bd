import AgentDesk.Desk.Server
import AgentDesk.Desk.StoreLock

/-!
A desk: all of a console that runs. Its actions and probes take turns on one thread; who can go on waits in one
queue for the next turn. Time passes only when nobody can go on.

A probe runs by itself, like an action. What the controller has of it is a handle, and a probe whose handle is
dropped is aborted (`setController`).
-/
namespace AgentDesk

namespace Desk

/-- Whether somebody at the store waits for it, or is in. -/
inductive Access where
  | ready
  | queued
  | admitted
  deriving DecidableEq, Repr

def Access.woken : Access → Access
  | queued => admitted
  | a => a

/-- Where an action stands. -/
inductive Position where
  | begun (command : Session.Command)
  | reading (r : Session.Reading) (access : Access)
  | writing (w : Session.Writing) (access : Access)
  | calling (request : Wire.Request) (progress : Progress)
  deriving DecidableEq, Repr

/-- At the start of a stage. -/
def Position.ofStage : Session.Stage → Position
  | .reading r => .reading r .ready
  | .writing w => .writing w .ready
  | .calling request => .calling request .ready

def Position.stage? : Position → Option Session.Stage
  | begun _ => none
  | reading r _ => some (.reading r)
  | writing w _ => some (.writing w)
  | calling request _ => some (.calling request)

def Position.woken : Position → Position
  | reading r a => .reading r a.woken
  | writing w a => .writing w a.woken
  | calling request p => .calling request p.woken
  | p => p

/-- Who asked for an action, and so what is done with its result. -/
inductive Errand where
  /-- Its result is kept under the name. -/
  | command (name : String)
  /-- The window's button: an error that nobody was told of becomes a toast. -/
  | button
  /-- The window's look for a running session: nobody asks what it came to. -/
  | lookout
  deriving DecidableEq, Repr

structure Task where
  number : Nat
  errand : Errand
  position : Position
  deriving DecidableEq, Repr

/-- The gate is held from the first stage on. -/
def Task.holdsGate (t : Task) : Bool :=
  match t.position.stage? with
  | some s => s.holdsGate
  | none => false

/-- When somebody asked to be woken. -/
structure Timer where
  due : Nat
  caller : Caller
  deriving DecidableEq, Repr

end Desk

open Desk

/-- `ready` holds who can go on, in the order of their turns, and `timers` those who wait for a time, in the
order in which they asked. `calls` and `finished` tell what happened since they were last cleared. -/
structure Desk where
  controller : Session.Controller
  store : Store
  server : Server := {}
  lock : StoreLock := {}
  clock : Nat := 0
  tasks : List Task := []
  /-- The probes that run. -/
  probes : List Liveness.Probe := []
  ready : List Caller := []
  timers : List Timer := []
  begun : Nat := 0
  calls : List Wire.Request := []
  finished : List (String × Session.Result) := []

namespace Desk

/-- The probe that a serial number stands for, if it runs. -/
def probe? (d : Desk) (serial : Nat) : Option Liveness.Probe := d.probes.find? (·.serial = serial)

/-- Whether the probe that the controller has the handle of runs. -/
def isLive (d : Desk) : Bool := d.controller.probe.any fun h => (d.probe? h.serial).isSome

end Desk

end AgentDesk
