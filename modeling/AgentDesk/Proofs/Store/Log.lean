import AgentDesk.Proofs.Store.History

/-! # Which toasts a log keeps

A log drops one toast at most when one is pushed. That is enough, since it was never over its limit before: what it has
is always the end of what was pushed since it was last cleared, and as much of that as its limit allows (`Keeps`). -/
namespace AgentDesk.Store

namespace NotificationLog

/-- What is done to a log. -/
inductive Change where
  | push (n : Notification)
  | clear
  deriving DecidableEq

def change (log : NotificationLog) : Change → NotificationLog
  | .push n => log.push n
  | .clear => log.clear

def Change.pushed? : Change → Option Notification
  | push n => some n
  | clear => none

/-- The toasts that were pushed after the last clearing, the oldest first: all of them if there was none. -/
def pushedSinceClear (cs : List Change) : List Notification :=
  (cs.rtakeWhile fun c => c.pushed?.isSome).filterMap Change.pushed?

@[simp] theorem pushedSinceClear_nil : pushedSinceClear [] = [] := rfl

@[simp] theorem pushedSinceClear_push (cs : List Change) (n : Notification) :
    pushedSinceClear (cs ++ [.push n]) = pushedSinceClear cs ++ [n] := by
  rw [pushedSinceClear, List.rtakeWhile_concat_pos _ _ _ rfl, List.filterMap_append]
  rfl

@[simp] theorem pushedSinceClear_clear (cs : List Change) : pushedSinceClear (cs ++ [.clear]) = [] := by
  rw [pushedSinceClear, List.rtakeWhile_concat_neg _ _ _ Bool.false_ne_true, List.filterMap_nil]

/-! ## What one change keeps -/

/-- How many of `n` toasts a log has room for. -/
def room (limit n : Nat) : Nat := if limit = 0 then n else min limit n

theorem eq_zero_of_room {limit n : Nat} (h : room limit n = 0) : n = 0 := by
  unfold room at h
  split at h <;> omega

/-- The log has the last of the toasts that were pushed, in their order, as many as there is room for. -/
structure Keeps (limit : Nat) (pushed : List Notification) (log : NotificationLog) : Prop where
  limit_eq : log.limit = limit
  suffix : log.entries <:+ pushed
  count : log.entries.length = room limit pushed.length

namespace Keeps

variable {limit : Nat} {pushed : List Notification} {log : NotificationLog}

theorem empty (limit : Nat) : Keeps limit [] ⟨limit, []⟩ := by
  refine ⟨rfl, List.suffix_rfl, ?_⟩
  simp [room]

theorem clear (h : Keeps limit pushed log) : Keeps limit [] log.clear := by
  rw [NotificationLog.clear, h.limit_eq]
  exact empty limit

theorem push (h : Keeps limit pushed log) (n : Notification) : Keeps limit (pushed ++ [n]) (log.push n) := by
  obtain ⟨hlimit, ⟨older, hpushed⟩, hcount⟩ := h
  have hsuffix : log.entries ++ [n] <:+ pushed ++ [n] := ⟨older, by rw [← List.append_assoc, hpushed]⟩
  refine ⟨(log.limit_push n).trans hlimit, ?_, ?_⟩
  · rw [NotificationLog.push]
    split
    · exact (List.drop_suffix 1 _).trans hsuffix
    · exact hsuffix
  · -- A log that was full was exactly full, so that what it drops for a toast makes room for it.
    rw [length_push, hlimit, List.length_append, List.length_singleton]
    simp only [room] at hcount ⊢
    split at hcount <;> split <;> omega

theorem length_le (h : Keeps limit pushed log) (hlimit : 0 < limit) : log.entries.length ≤ limit := by
  rw [h.count, room, if_neg (by omega)]
  exact Nat.min_le_left _ _

/-- Where something was pushed there is room for the last of it. -/
theorem latest?_eq (h : Keeps limit pushed log) : log.latest? = pushed.getLast? := by
  rw [latest?]
  by_cases hempty : log.entries = []
  · have hnone : pushed = [] := by
      have hcount := h.count
      rw [hempty] at hcount
      exact List.length_eq_zero_iff.1 (eq_zero_of_room hcount.symm)
    rw [hempty, hnone]
  · obtain ⟨older, hpushed⟩ := h.suffix
    rw [← hpushed, List.getLast?_append_of_ne_nil _ hempty]

end Keeps

/-! ## Every history -/

theorem keeps_change {limit : Nat} {cs : List Change} {log : NotificationLog}
    (h : Keeps limit (pushedSinceClear cs) log) (c : Change) :
    Keeps limit (pushedSinceClear (cs ++ [c])) (log.change c) := by
  cases c with
  | push n =>
    rw [pushedSinceClear_push]
    exact h.push n
  | clear =>
    rw [pushedSinceClear_clear]
    exact h.clear

theorem keeps_foldl (limit : Nat) (cs : List Change) :
    Keeps limit (pushedSinceClear cs) (cs.foldl change ⟨limit, []⟩) := by
  induction cs using List.reverseRecOn with
  | nil => exact Keeps.empty limit
  | append_singleton cs c ih =>
    rw [List.foldl_append]
    exact keeps_change ih c

end NotificationLog

open NotificationLog

/-- What an action does to the log, if anything. -/
def Action.change? : Action → Option Change
  | notify n => some (.push n)
  | clearNotifications => some .clear
  | _ => none

/-- Of a history, the log has seen its own changes and nothing else. -/
theorem notifications_after (s : Store) (as : List Action) :
    (s.after as).notifications = (as.filterMap Action.change?).foldl change s.notifications := by
  induction as generalizing s with
  | nil => rfl
  | cons a as ih =>
    rw [after_cons, ih]
    cases a <;> rfl

/-- What a log with this limit has after some toasts were pushed since it was last cleared. -/
structure Retains (limit : Nat) (pushed : List Notification) (log : NotificationLog) : Prop where
  last : log.entries <:+ pushed
  all : limit = 0 → log.entries = pushed
  count : 0 < limit → log.entries.length = min limit pushed.length
  latest : log.latest? = pushed.getLast?
  bounded : 0 < limit → log.entries.length ≤ limit

theorem NotificationLog.Keeps.retains {limit : Nat} {pushed : List Notification} {log : NotificationLog}
    (h : Keeps limit pushed log) : Retains limit pushed log := by
  refine ⟨h.suffix, fun hzero => ?_, fun hlimit => ?_, h.latest?_eq, h.length_le⟩
  · exact h.suffix.eq_of_length (h.count.trans (if_pos hzero))
  · exact h.count.trans (if_neg (by omega))

/-- **A log has the last toasts that were pushed since it was cleared, as many as its limit allows**, or all of them
if it has none; so does the log of a store, whatever else is done to the store in between. -/
theorem retains_last (limit : Nat) :
    (∀ cs : List Change, Retains limit (pushedSinceClear cs) (cs.foldl change ⟨limit, []⟩)) ∧
    ∀ (s : Store) (as : List Action), Retains limit (pushedSinceClear (as.filterMap Action.change?))
      ({ s with notifications := ⟨limit, []⟩ }.after as).notifications := by
  refine ⟨fun cs => (keeps_foldl limit cs).retains, fun s as => ?_⟩
  rw [notifications_after]
  exact (keeps_foldl limit _).retains

end AgentDesk.Store
