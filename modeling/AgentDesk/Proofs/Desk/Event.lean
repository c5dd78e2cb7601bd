import AgentDesk.Desk.Run

/-! # Runs of a desk, event by event

An event is the least that can happen at a desk: somebody makes one move, or the keeper does one thing. A run is
any list of events, so whoever waits may be given a move at any time and in any order, and every answer of the
agent server may change between two moves. What a turn, a settling or a lapse of time does is a run of such
events (`Settle`). An action is never dropped halfway here.

A toggle reads the state before it has the gate. Where it looks and goes on at once, both are one move; a `glance` is
the look alone, after which anything may happen before the move that acts on what was seen.

Each event leaves at most one occurrence on the record; `Opening.after` keeps the record beside the desk. -/
namespace AgentDesk.Desk
open Session

/-- What others than the controller do to the store: they never tell whether a session is active. -/
structure Edit where
  action : Store.Action
  apart : ∀ connected, action ≠ .setAgentConnected connected

inductive Event where
  | begin (errand : Errand) (command : Command)
  | edit (edit : Edit)
  /-- An action makes a move; one that has nothing to go on with stays where it is. -/
  | move (number : Nat)
  /-- A toggle that has begun looks at the state, and comes no further. -/
  | glance (number : Nat)
  /-- A running probe makes a move. -/
  | probe (serial : Nat)
  | script (kind : Wire.RequestKind) (script : Script)
  | hold (kind : Wire.RequestKind)
  | release (kind : Wire.RequestKind)
  | lock
  | unlock
  | strike (instant : Nat)
  /-- Time passes and wakes nobody. -/
  | pass (instant : Nat)
  /-- The first of those who can go on is called up. -/
  | call
  /-- What has happened so far is reported and forgotten. -/
  | report

/-- An action that can go on is put aside all the same: its next move is an event of its own. -/
def putBack : Desk × Option Task → Desk
  | (d, none) => d
  | (d, some t) => d.park t

def task? (d : Desk) (number : Nat) : Option Task := d.tasks.find? (·.number = number)

theorem number_of_task? {d : Desk} {number : Nat} {t : Task} (h : d.task? number = some t) : t.number = number := by
  simpa using List.find?_some h

theorem serial_of_probe? {d : Desk} {serial : Nat} {p : Liveness.Probe} (h : d.probe? serial = some p) :
    p.serial = serial := by
  simpa using List.find?_some h

/-- The desk while one of its actions moves. -/
def without (d : Desk) (number : Nat) : Desk := { d with tasks := d.tasks.filter (·.number ≠ number) }

def moveTask (d : Desk) (number : Nat) : Desk :=
  match d.task? number with
  | some t => putBack ((d.without number).stepTask t)
  | none => d

/-- What a toggle is to do, by the state it finds. -/
def choose (c : Controller) : Command → Command
  | .toggle => if c.state = .connected then .disconnect else .connect
  | command => command

/-- To look and to go on at once is to go on. -/
theorem begin_choose (c : Controller) (command : Command) : (choose c command).begin c = command.begin c := by
  cases command with
  | toggle =>
    by_cases connected : c.state = .connected
    · simp only [choose, Command.begin, if_pos connected]
    · simp only [choose, Command.begin, if_neg connected]
  | _ => rfl

/-- What was chosen before the session came or went is not done: with the gate in hand the state is looked at again. -/
theorem begin_choose_of_stale {seen c : Controller} (stale : ¬ (seen.state = .connected ↔ c.state = .connected)) :
    ∃ outcome, (choose seen .toggle).begin c = (c, .done (.outcome (.ok outcome))) := by
  by_cases connected : seen.state = .connected
  · have gone : c.state ≠ .connected := fun h => stale (iff_of_true connected h)
    simp only [choose, if_pos connected, Command.begin, Command.beginDisconnect]
    split
    · exact ⟨_, rfl⟩
    · exact ⟨_, if_pos gone⟩
  · have come : c.state = .connected := Decidable.not_not.mp fun h => stale (iff_of_false connected h)
    simp only [choose, if_neg connected, Command.begin, Command.beginConnect]
    split
    · exact ⟨_, rfl⟩
    · exact ⟨_, if_pos come⟩

theorem choose_eq_check_iff {c : Controller} {command : Command} : choose c command = .check ↔ command = .check := by
  cases command with
  | toggle =>
    simp only [choose]
    split <;> simp
  | _ => simp [choose]

/-- Whoever has begun, with the choice made that a toggle has to make. -/
def Position.chosen (c : Controller) : Position → Position
  | begun command => .begun (choose c command)
  | p => p

def glance (d : Desk) (number : Nat) : Desk :=
  { d with
    tasks := d.tasks.map fun t =>
      if t.number = number then { t with position := t.position.chosen d.controller } else t }

def moveProbe (d : Desk) (serial : Nat) : Desk :=
  match d.probe? serial with
  | some p => (d.stepProbe p).1
  | none => d

def perform (d : Desk) : Event → Desk
  | .begin errand command => d.begin errand command
  | .edit e => d.dispatch e.action
  | .move number => d.moveTask number
  | .glance number => d.glance number
  | .probe serial => d.moveProbe serial
  | .script kind script => d.setServer (d.server.setScript kind script)
  | .hold kind => d.hold kind
  | .release kind => d.release kind
  | .lock => d.lockStore
  | .unlock => d.unlockStore
  | .strike instant => d.strike instant
  | .pass instant => { d with clock := instant }
  | .call => { d with ready := d.ready.tail }
  | .report => d.clearReport

/-! ## The record -/

/-- What lets an action go on. -/
inductive Cause where
  | begins (command : Command)
  /-- It is let in to look into the store. -/
  | looks (r : Reading)
  /-- It is let in to change the store. -/
  | changes (w : Writing)
  | hears (request : Wire.Request) (answer : Answer)

namespace Cause

/-- Where an action goes from there. -/
def next (c : Controller) (s : Store) : Cause → Controller × Next
  | begins command => command.begin c
  | looks r => r.resume c s
  | changes w => w.resume c
  | hears request answer => resumeCall c request answer

def store (s : Store) : Cause → Store
  | changes w => s.dispatch w.action
  | _ => s

end Cause

inductive Occurrence where
  | begun (number : Nat) (errand : Errand) (command : Command)
  | edited (action : Store.Action)
  | sent (caller : Caller) (request : Wire.Request)
  | resumed (number : Nat) (cause : Cause) (next : Next)

/-- What a move lets an action go on with, if anything. -/
def cause? (d : Desk) (t : Task) : Option Cause :=
  match t.position with
  | .begun command => some (.begins command)
  | .reading r .ready => if d.lock.admits .read then some (.looks r) else none
  | .reading r .admitted => some (.looks r)
  | .writing w .ready => if d.lock.admits .write then some (.changes w) else none
  | .writing w .admitted => some (.changes w)
  | .calling request .heard =>
    let script := d.server.script request.kind
    if script.delayMs = 0 then some (.hears request script.answer) else none
  | .calling request .answering => some (.hears request (d.server.script request.kind).answer)
  | _ => none

def occursTo (d : Desk) (t : Task) : Option Occurrence :=
  match t.position with
  | .calling request .ready => some (.sent (.task t.number) request)
  | _ => (d.cause? t).map fun cause => .resumed t.number cause (cause.next d.controller d.store).2

def occursToProbe (p : Liveness.Probe) : Option Occurrence :=
  match p.phase with
  | .pinging _ .ready => some (.sent (.probe p.serial) (.ping p.channel))
  | _ => none

def occurs (d : Desk) : Event → Option Occurrence
  | .begin errand command => some (.begun d.begun errand command)
  | .edit e => some (.edited e.action)
  | .move number => (d.task? number).bind d.occursTo
  | .probe serial => (d.probe? serial).bind occursToProbe
  | _ => none

/-- What an event may be on the record as. -/
inductive Happens (d : Desk) : Event → Occurrence → Prop
  | begun (errand : Errand) (command : Command) : d.Happens (.begin errand command) (.begun d.begun errand command)
  | edited (edit : Edit) : d.Happens (.edit edit) (.edited edit.action)
  | sent (n : Nat) (request : Wire.Request) : d.Happens (.move n) (.sent (.task n) request)
  | resumed (n : Nat) (cause : Cause) : d.Happens (.move n) (.resumed n cause (cause.next d.controller d.store).2)
  | pinged {p : Liveness.Probe} {next : Nat} (running : p ∈ d.probes) (due : p.phase = .pinging next .ready) :
      d.Happens (.probe p.serial) (.sent (.probe p.serial) (.ping p.channel))

theorem happens_of_occurs {d : Desk} {e : Event} {x : Occurrence} (h : d.occurs e = some x) : d.Happens e x := by
  cases e with
  | begin errand command =>
    cases h
    exact .begun errand command
  | edit edit =>
    cases h
    exact .edited edit
  | move n =>
    obtain ⟨t, ht, hx⟩ := Option.bind_eq_some_iff.mp h
    obtain rfl : t.number = n := number_of_task? ht
    unfold occursTo at hx
    split at hx
    · cases hx
      exact .sent t.number _
    · obtain ⟨cause, -, hc⟩ := Option.map_eq_some_iff.mp hx
      cases hc
      exact .resumed t.number cause
  | probe serial =>
    obtain ⟨p, hp, hx⟩ := Option.bind_eq_some_iff.mp h
    obtain rfl : p.serial = serial := serial_of_probe? hp
    unfold occursToProbe at hx
    split at hx
    · next hphase =>
      cases hx
      exact .pinged (List.mem_of_find?_eq_some hp) hphase
    · cases hx
  | _ => cases h

/-- A desk and what has occurred at it. -/
structure Chronicle where
  desk : Desk
  past : List Occurrence := []

def Chronicle.next (r : Chronicle) (e : Event) : Chronicle :=
  ⟨r.desk.perform e, r.past ++ (r.desk.occurs e).toList⟩

/-- How a desk is opened: with any interval and any store, so long as no session is told of. -/
structure Opening where
  pingIntervalMs : Nat
  store : Store
  unconnected : store.agentConnected = false

namespace Opening

def desk (o : Opening) : Desk := { controller := { pingIntervalMs := o.pingIntervalMs }, store := o.store }

def after (o : Opening) (es : List Event) : Chronicle := es.foldl Chronicle.next ⟨o.desk, []⟩

theorem after_snoc (o : Opening) (es : List Event) (e : Event) :
    o.after (es ++ [e]) = (o.after es).next e := by
  simp [after, List.foldl_append]

theorem desk_after (o : Opening) (es : List Event) : (o.after es).desk = es.foldl perform o.desk := by
  suffices ∀ r : Chronicle, (es.foldl Chronicle.next r).desk = es.foldl perform r.desk from this _
  induction es with
  | nil => exact fun _ => rfl
  | cons e es ih => exact fun r => ih (r.next e)

theorem mem_past_of_occurs (o : Opening) (es : List Event) {e : Event} {x : Occurrence}
    (h : (o.after es).desk.occurs e = some x) : x ∈ (o.after (es ++ [e])).past := by
  rw [o.after_snoc, Chronicle.next, h]
  exact List.mem_append_right _ (List.mem_singleton_self x)

/-- What holds of a new desk and survives every event holds after every run. -/
theorem invariant (o : Opening) {P : Chronicle → Prop} (start : P ⟨o.desk, []⟩)
    (step : ∀ r e, P r → P (r.next e)) (es : List Event) : P (o.after es) := by
  suffices ∀ r, P r → P (es.foldl Chronicle.next r) from this _ start
  induction es with
  | nil => exact fun _ h => h
  | cons e es ih => exact fun r h => ih _ (step r e h)

end Opening

/-- A desk where all that a session needs is chosen. -/
def furnished : Opening where
  pingIntervalMs := 3000
  store := { identity := { channel := "room-1" }, selectedId := some "va_openai_azure" }
  unconnected := rfl

/-- An action that nobody interrupts. -/
def alone (n : Nat) (command : Command) (moves : Nat) : List Event :=
  .begin .lookout command :: List.replicate moves (.move n)

end AgentDesk.Desk
