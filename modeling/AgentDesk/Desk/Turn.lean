import AgentDesk.Desk.Basic

/-!
A turn: somebody who can go on goes on until there is something to wait for. `stepTask` and `stepProbe` are the
single moves of a turn, each of which changes the desk once; a turn is a bounded number of them.
-/
namespace AgentDesk.Desk

/-! ### Waking -/

/-- Gives somebody a turn, now that the wait is over. -/
def wake (d : Desk) (caller : Caller) : Desk :=
  match caller with
  | .task n =>
    { d with
      tasks := d.tasks.map fun t => if t.number = n then { t with position := t.position.woken } else t
      ready := d.ready ++ [caller] }
  | .probe s =>
    { d with
      probes := d.probes.map fun p => if p.serial = s then p.woken else p
      ready := d.ready ++ [caller] }

def wakeAll (d : Desk) (callers : List Caller) : Desk := callers.foldl wake d

/-- The lock after somebody has left it; those who are let in get a turn. -/
def passLock (d : Desk) (r : StoreLock × List Visit) : Desk :=
  wakeAll { d with lock := r.1 } (r.2.map fun v => Caller.task v.visitor)

def startTimer (d : Desk) (ms : Nat) (caller : Caller) : Desk :=
  { d with timers := d.timers ++ [⟨d.clock + ms, caller⟩] }

/-! ### Requests -/

/-- What a caller does after a move of a request: wait, move on, or take the answer. -/
inductive Turn where
  | wait (progress : Progress)
  | move (progress : Progress)
  | take (answer : Session.Answer)

/-- One move of a request at the server. It is noted when it arrives; its answer is looked up when it is no
longer held, and once more when its delay is over. -/
def converse (d : Desk) (caller : Caller) (request : Wire.Request) (progress : Progress) : Desk × Turn :=
  match progress with
  | .ready =>
    let d := { d with calls := d.calls ++ [request] }
    if d.server.keeps request.kind then
      ({ d with server := { d.server with kept := d.server.kept ++ [(request.kind, caller)] } }, .wait .held)
    else (d, .move .heard)
  | .heard =>
    let script := d.server.script request.kind
    if script.delayMs = 0 then (d, .take script.answer)
    else (d.startTimer script.delayMs caller, .wait .delayed)
  | .answering => (d, .take (d.server.script request.kind).answer)
  | .held => (d, .wait .held)
  | .delayed => (d, .wait .delayed)

/-! ### Actions -/

/-- The probe of a handle that is dropped is aborted, wherever it waits. -/
def abortProbe (d : Desk) : Option Liveness.Handle → Desk
  | some h => { d with probes := d.probes.filter (·.serial ≠ h.serial) }
  | none => d

/-- The probe of a new handle runs from now on, and gets its first turn. -/
def spawnProbe (d : Desk) : Option Liveness.Handle → Desk
  | some h =>
    { d with
      probes := d.probes ++ [.start h d.controller.pingIntervalMs]
      ready := d.ready ++ [.probe h.serial] }
  | none => d

/-- A controller that has another handle than before has dropped the one that it had, and what it has instead is new. -/
def setController (d : Desk) (c : Session.Controller) : Desk :=
  if c.probe = d.controller.probe then { d with controller := c }
  else spawnProbe { d.abortProbe d.controller.probe with controller := c } c.probe

/-- Puts an action aside until it is woken. -/
def park (d : Desk) (t : Task) : Desk := { d with tasks := d.tasks ++ [t] }

/-- Does with a result what the errand asks for. -/
def conclude (d : Desk) (t : Task) (r : Session.Result) : Desk × Option Task :=
  match t.errand, r with
  | .command name, r => ({ d with finished := d.finished ++ [(name, r)] }, none)
  | .button, .outcome (.error (.api e)) =>
    (d, some { t with position := .writing (.toast e.message) .ready })
  | _, _ => (d, none)

/-- Takes an action to its next stage. -/
def follow (d : Desk) (t : Task) (next : Session.Controller × Session.Next) : Desk × Option Task :=
  let d := d.setController next.1
  match next.2 with
  | .go stage => (d, some { t with position := .ofStage stage })
  | .done r => d.conclude t r
  | .closed => (d, none)

def enqueueAt (d : Desk) (t : Task) (purpose : Purpose) (position : Position) : Desk × Option Task :=
  (park { d with lock := d.lock.enqueue ⟨t.number, purpose⟩ } { t with position := position }, none)

def look (d : Desk) (t : Task) (r : Session.Reading) : Desk × Option Task :=
  d.follow t (r.resume d.controller d.store)

def change (d : Desk) (t : Task) (w : Session.Writing) : Desk × Option Task :=
  follow { d with store := d.store.dispatch w.action } t (w.resume d.controller)

/-- One move of an action: `none` when it waits or is over. Who has been let into the store looks or changes,
and leaves before going on. -/
def stepTask (d : Desk) (t : Task) : Desk × Option Task :=
  match t.position with
  | .begun command => d.follow t (command.begin d.controller)
  | .reading r .ready =>
    if d.lock.admits .read then d.look t r else d.enqueueAt t .read (.reading r .queued)
  | .reading r .admitted =>
    let seen := r.resume d.controller d.store
    (d.passLock (d.lock.leave t.number)).follow t seen
  | .writing w .ready =>
    if d.lock.admits .write then d.change t w else d.enqueueAt t .write (.writing w .queued)
  | .writing w .admitted =>
    let d := { d with store := d.store.dispatch w.action }
    (d.passLock (d.lock.leave t.number)).follow t (w.resume d.controller)
  | .calling request progress =>
    match d.converse (.task t.number) request progress with
    | (d, .wait p) => (d.park { t with position := .calling request p }, none)
    | (d, .move p) => (d, some { t with position := .calling request p })
    | (d, .take answer) => d.follow t (Session.resumeCall d.controller request answer)
  | .reading r .queued => (d.park { t with position := .reading r .queued }, none)
  | .writing w .queued => (d.park { t with position := .writing w .queued }, none)

/-- Moves of an action until it waits or is over. -/
def runTask : Nat → Desk → Task → Desk
  | 0, d, t => d.park t
  | moves + 1, d, t =>
    match d.stepTask t with
    | (d, none) => d
    | (d, some t) => runTask moves d t

/-- More moves than an action has: at most eight stages, a request among them in three moves. -/
def taskMoves : Nat := 24

/-! ### Probes -/

def setProbe (d : Desk) (p : Liveness.Probe) : Desk :=
  { d with probes := d.probes.map fun q => if q.serial = p.serial then p else q }

/-- Waits for a tick. -/
def awaitTick (d : Desk) (p : Liveness.Probe) (due : Nat) : Desk :=
  setProbe { d with timers := d.timers ++ [⟨due, .probe p.serial⟩] } { p with phase := .waiting due }

/-- One move of a probe, and whether it can go on. A tick that is already due when a ping is answered is
picked up at once. -/
def stepProbe (d : Desk) (p : Liveness.Probe) : Desk × Bool :=
  match p.phase with
  | .fresh => (d.awaitTick p (d.clock + p.periodMs), false)
  | .waiting due => if due ≤ d.clock then (d.setProbe (p.tick due d.clock), true) else (d, false)
  | .pinging next progress =>
    match d.converse (.probe p.serial) (.ping p.channel) progress with
    | (d, .wait q) => (d.setProbe { p with phase := .pinging next q }, false)
    | (d, .move q) => (d.setProbe { p with phase := .pinging next q }, true)
    | (d, .take _) =>
      if next ≤ d.clock then (d.setProbe (p.tick next d.clock), true)
      else (d.awaitTick p next, false)

def runProbe : Nat → Nat → Desk → Desk
  | 0, _, d => d
  | moves + 1, serial, d =>
    match d.probe? serial with
    | some p =>
      match d.stepProbe p with
      | (d, true) => runProbe moves serial d
      | (d, false) => d
    | none => d

/-- More moves than a probe has in a turn: a late answer, one ping at once, and the wait for the next tick. -/
def probeMoves : Nat := 12

/-! ### Turns -/

/-- A turn of somebody; who is gone has none. -/
def turn (d : Desk) (caller : Caller) : Desk :=
  match caller with
  | .task n =>
    match d.tasks.find? (·.number = n) with
    | some t => runTask taskMoves { d with tasks := d.tasks.filter (·.number ≠ n) } t
    | none => d
  | .probe serial => runProbe probeMoves serial d

end AgentDesk.Desk
