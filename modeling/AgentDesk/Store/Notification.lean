/-!
Toasts and the log that keeps the latest of them.
-/
namespace AgentDesk.Store

inductive Level where
  | success
  | error
  deriving DecidableEq, Repr

/-- When a toast was raised: at a given second since the epoch, or at the moment itself, which only a clock on
the wall could tell. -/
inductive Stamp where
  | given (seconds : Int)
  | raised
  deriving DecidableEq, Repr

structure Notification where
  level : Level
  message : String
  stamp : Stamp := .raised
  deriving DecidableEq, Repr

def Notification.success (message : String) : Notification := ⟨.success, message, .raised⟩

def Notification.error (message : String) : Notification := ⟨.error, message, .raised⟩

/-- Toasts, the oldest first. At most `limit` are kept, all of them if `limit` is 0. -/
structure NotificationLog where
  limit : Nat
  entries : List Notification := []
  deriving DecidableEq, Repr

namespace NotificationLog

def defaultLimit : Nat := 50

/-- Appends a toast; a log that was full loses its oldest one. -/
def push (log : NotificationLog) (n : Notification) : NotificationLog :=
  let entries := log.entries ++ [n]
  if 0 < log.limit ∧ log.limit < entries.length then { log with entries := entries.drop 1 }
  else { log with entries := entries }

def clear (log : NotificationLog) : NotificationLog := { log with entries := [] }

def latest? (log : NotificationLog) : Option Notification := log.entries.getLast?

@[simp] theorem limit_push (log : NotificationLog) (n : Notification) : (log.push n).limit = log.limit := by
  simp only [push]
  split <;> rfl

/-- Only where the log is full, or over its limit, is it no longer than before. -/
theorem length_push (log : NotificationLog) (n : Notification) : (log.push n).entries.length =
    if 0 < log.limit ∧ log.limit ≤ log.entries.length then log.entries.length else log.entries.length + 1 := by
  simp only [push, List.length_append, List.length_singleton, Nat.lt_succ_iff]
  split <;> simp

end NotificationLog

end AgentDesk.Store
