/-!
The lock on the store: any number of readers or one writer. Those who cannot be let in at once wait in one
queue, which is served in order; neighbouring readers are let in together, and nobody passes a waiting writer.
-/
namespace AgentDesk.Desk

inductive Purpose where
  | read
  | write
  deriving DecidableEq, Repr

/-- Who wants the store, and what for. -/
structure Visit where
  visitor : Nat
  purpose : Purpose
  deriving DecidableEq, Repr

/-- `closed` while the console's keeper has the store to himself; `inside` are those let in from the queue who
have not had their turn yet. -/
structure StoreLock where
  closed : Bool := false
  inside : List Visit := []
  queue : List Visit := []
  deriving DecidableEq, Repr

namespace StoreLock

/-- Whether there is room for a visit beside those who are inside. -/
def fitsBeside (inside : List Visit) : Purpose → Bool
  | .read => inside.all (·.purpose = .read)
  | .write => inside.isEmpty

/-- Whether somebody who comes now need not wait. -/
def admits (l : StoreLock) (p : Purpose) : Bool :=
  !l.closed && fitsBeside l.inside p && l.queue.isEmpty

def enqueue (l : StoreLock) (v : Visit) : StoreLock := { l with queue := l.queue ++ [v] }

/-- How many at the front of the queue can be let in beside those who are inside. -/
def room (inside : List Visit) : List Visit → Nat
  | [] => 0
  | v :: rest => if fitsBeside inside v.purpose then room (inside ++ [v]) rest + 1 else 0

/-- The lock after somebody has gone, with those who are let in instead. -/
def afterLeaving (l : StoreLock) : StoreLock × List Visit :=
  if l.closed then (l, [])
  else
    let n := room l.inside l.queue
    ({ l with inside := l.inside ++ l.queue.take n, queue := l.queue.drop n }, l.queue.take n)

/-- Somebody inside goes. -/
def leave (l : StoreLock) (visitor : Nat) : StoreLock × List Visit :=
  afterLeaving { l with inside := l.inside.filter (·.visitor ≠ visitor) }

/-- Somebody gives up, inside or in the queue. -/
def withdraw (l : StoreLock) (visitor : Nat) : StoreLock × List Visit :=
  afterLeaving
    { l with
      inside := l.inside.filter (·.visitor ≠ visitor)
      queue := l.queue.filter (·.visitor ≠ visitor) }

def close (l : StoreLock) : StoreLock := { l with closed := true }

def reopen (l : StoreLock) : StoreLock × List Visit := afterLeaving { l with closed := false }

end StoreLock

end AgentDesk.Desk
