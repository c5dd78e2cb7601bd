import AgentDesk.Liveness.Probe

/-! # The timetable of the pings

A tick sets the next one when it is picked up, and it is picked up when it is due or, if the ping before is still under
way, when that is answered. `Timetable` says so of the times at which pings were sent and answered, whatever the answers
and however long they took, and everything else follows: no ping is early (`Timetable.not_early`), none is close to the
one before (`Timetable.apart`), and answers that come in time leave the schedule where it is (`Timetable.no_drift`). -/
namespace AgentDesk.Liveness

theorem nextDue_of_le {period due now : Nat} (h : now ≤ due + toleranceMs) : nextDue period due now = due + period :=
  if_pos h

/-- A tick that was not picked up before it was due is followed by one a period later, at least. -/
theorem le_nextDue (period : Nat) {due now : Nat} (h : due ≤ now) : due + period ≤ nextDue period due now := by
  unfold nextDue
  split
  · exact Nat.le_refl _
  · exact Nat.add_le_add_right h period

/-- However late a tick is picked up, the next is due a period later, but for the tolerance. -/
theorem le_nextDue_add_tolerance (period due now : Nat) : now + period ≤ nextDue period due now + toleranceMs := by
  unfold nextDue
  split <;> omega

/-- A tick that is picked up sets the next one to a time to come. -/
theorem lt_nextDue {period : Nat} (h : toleranceMs < period) (due now : Nat) : now < nextDue period due now := by
  have hlate := le_nextDue_add_tolerance period due now
  omega

/-- A period is longer than the tolerance. -/
theorem tolerance_lt_clampPeriod (ms : Nat) : toleranceMs < clampPeriod ms :=
  Nat.lt_of_lt_of_le (by decide) (shortest_le_clampPeriod ms)

theorem clampPeriod_pos (ms : Nat) : 0 < clampPeriod ms :=
  Nat.lt_of_le_of_lt (Nat.zero_le _) (tolerance_lt_clampPeriod ms)

/-- When the next tick is due, once these were picked up. -/
def dueAfter (period start : Nat) (picked : List Nat) : Nat := picked.foldl (nextDue period) (start + period)

theorem dueAfter_snoc (period start : Nat) (picked : List Nat) (t : Nat) :
    dueAfter period start (picked ++ [t]) = nextDue period (dueAfter period start picked) t := by
  simp only [dueAfter, List.foldl_append, List.foldl_cons, List.foldl_nil]

/-- When the tick of the ping `k` is due, where the first ping is the ping 0. -/
def dueAt (period start : Nat) (sent : List Nat) (k : Nat) : Nat := dueAfter period start (sent.take k)

theorem dueAt_succ {period start : Nat} {sent : List Nat} {k t : Nat} (h : sent[k]? = some t) :
    dueAt period start sent (k + 1) = nextDue period (dueAt period start sent k) t := by
  rw [dueAt, List.take_add_one, h, Option.toList_some, dueAfter_snoc, dueAt]

theorem dueAt_length (period start : Nat) (sent : List Nat) :
    dueAt period start sent sent.length = dueAfter period start sent := by
  rw [dueAt, List.take_length]

theorem dueAt_snoc {period start : Nat} {sent : List Nat} {k : Nat} (t : Nat) (h : k ≤ sent.length) :
    dueAt period start (sent ++ [t]) k = dueAt period start sent k := by
  rw [dueAt, List.take_append_of_le_length h, dueAt]

/-- The times at which pings were sent and answered, of a probe that was started at `start`. -/
structure Timetable (period start : Nat) (sent answered : List Nat) : Prop where
  in_turn : sent.length = answered.length ∨ sent.length = answered.length + 1
  first : ∀ t : Nat, sent[0]? = some t → t = start + period
  /-- A tick is picked up when it is due and the ping before was answered. -/
  next : ∀ k a t : Nat, answered[k]? = some a → sent[k + 1]? = some t → t = max (dueAt period start sent (k + 1)) a
  answer : ∀ k t a : Nat, sent[k]? = some t → answered[k]? = some a → t ≤ a

theorem getElem?_snoc_eq_some {α : Type} {xs : List α} {x y : α} {k : Nat} (h : (xs ++ [x])[k]? = some y) :
    xs[k]? = some y ∨ k = xs.length ∧ y = x := by
  rw [List.getElem?_append] at h
  split at h
  · exact .inl h
  · next hk =>
    obtain ⟨hk', hy⟩ := List.getElem?_eq_some_iff.mp h
    rw [List.length_singleton] at hk'
    rw [List.getElem_singleton] at hy
    exact .inr ⟨by omega, hy.symm⟩

namespace Timetable

variable {period start : Nat} {sent answered : List Nat}

theorem nil (period start : Nat) : Timetable period start [] [] where
  in_turn := .inl rfl
  first := fun _ h => nomatch h
  next := fun _ _ _ h => nomatch h
  answer := fun _ _ _ h => nomatch h

/-- The next ping is sent when its tick is due and the ping before was answered. -/
theorem send (h : Timetable period start sent answered) (heven : sent.length = answered.length) {now : Nat}
    (hnow : now = max (dueAfter period start sent) (answered.getLastD start)) :
    Timetable period start (sent ++ [now]) answered where
  in_turn := by
    right
    rw [List.length_append, List.length_singleton, heven]
  first := by
    intro t ht
    rcases getElem?_snoc_eq_some ht with ht | ⟨hlength, rfl⟩
    · exact h.first t ht
    · obtain rfl : sent = [] := List.length_eq_zero_iff.mp hlength.symm
      obtain rfl : answered = [] := List.length_eq_zero_iff.mp heven.symm
      rw [hnow]
      exact Nat.max_eq_left (Nat.le_add_right _ _)
  next := by
    intro k a t ha ht
    have hk : k < answered.length := (List.getElem?_eq_some_iff.mp ha).1
    rw [dueAt_snoc now (by omega)]
    rcases getElem?_snoc_eq_some ht with ht | ⟨hlength, rfl⟩
    · exact h.next k a t ha ht
    · have hlast : answered.getLastD start = a := by
        rw [List.getLastD_eq_getLast?, List.getLast?_eq_getElem?, show answered.length - 1 = k by omega, ha]
        rfl
      rw [hnow, hlast, hlength, dueAt_length]
  answer := by
    intro k t a ht ha
    rcases getElem?_snoc_eq_some ht with ht | ⟨rfl, -⟩
    · exact h.answer k t a ht ha
    · have hk := (List.getElem?_eq_some_iff.mp ha).1
      omega

/-- A ping that is under way is answered at any time. -/
theorem hear (h : Timetable period start sent answered) (hodd : sent.length = answered.length + 1) {now : Nat}
    (hnow : ∀ t ∈ sent, t ≤ now) : Timetable period start sent (answered ++ [now]) where
  in_turn := by
    left
    rw [List.length_append, List.length_singleton, hodd]
  first := h.first
  next := by
    intro k a t ha ht
    rcases getElem?_snoc_eq_some ha with ha | ⟨rfl, -⟩
    · exact h.next k a t ha ht
    · have hk := (List.getElem?_eq_some_iff.mp ht).1
      omega
  answer := by
    intro k t a ht ha
    rcases getElem?_snoc_eq_some ha with ha | ⟨-, rfl⟩
    · exact h.answer k t a ht ha
    · exact hnow t (List.mem_of_getElem? ht)

/-! ## What follows -/

/-- The ping before one that was sent was answered. -/
theorem exists_answer (h : Timetable period start sent answered) {k t : Nat} (ht : sent[k + 1]? = some t) :
    ∃ a, answered[k]? = some a ∧ t = max (dueAt period start sent (k + 1)) a := by
  have hlength := h.in_turn
  have hk := (List.getElem?_eq_some_iff.mp ht).1
  have ha := List.getElem?_eq_getElem (l := answered) (i := k) (by omega)
  exact ⟨_, ha, h.next k _ t ha ht⟩

theorem due_le (h : Timetable period start sent answered) {k t : Nat} (ht : sent[k]? = some t) :
    dueAt period start sent k ≤ t := by
  cases k with
  | zero => exact Nat.le_of_eq (h.first t ht).symm
  | succ k =>
    obtain ⟨a, -, rfl⟩ := h.exists_answer ht
    exact Nat.le_max_left _ _

/-- The schedule is never early. -/
theorem le_dueAt (h : Timetable period start sent answered) {k : Nat} (hk : k ≤ sent.length) :
    start + (k + 1) * period ≤ dueAt period start sent k := by
  induction k with
  | zero => exact Nat.le_of_eq (by rw [Nat.zero_add, Nat.one_mul]; rfl)
  | succ k ih =>
    have ht := List.getElem?_eq_getElem (l := sent) (i := k) (by omega)
    have hnext := le_nextDue period (h.due_le ht)
    have hdue := ih (by omega)
    rw [dueAt_succ ht, Nat.add_mul (k + 1) 1, Nat.one_mul]
    omega

theorem not_early (h : Timetable period start sent answered) {k t : Nat} (ht : sent[k]? = some t) :
    start + (k + 1) * period ≤ t :=
  Nat.le_trans (h.le_dueAt (Nat.le_of_lt (List.getElem?_eq_some_iff.mp ht).1)) (h.due_le ht)

/-- There are no more pings than periods. -/
theorem length_le (h : Timetable period start sent answered) (hperiod : 0 < period) {now : Nat}
    (hnow : ∀ t ∈ sent, t ≤ now) : sent.length ≤ (now - start) / period := by
  rw [Nat.le_div_iff_mul_le hperiod]
  cases hlength : sent.length with
  | zero =>
    rw [Nat.zero_mul]
    exact Nat.zero_le _
  | succ k =>
    have ht := List.getElem?_eq_getElem (l := sent) (i := k) (by omega)
    have hearly := h.not_early ht
    have hlate := hnow _ (List.mem_of_getElem? ht)
    omega

/-- Pings come one period after another, but for the tolerance: a late answer causes no burst. -/
theorem apart (h : Timetable period start sent answered) {k t t' : Nat} (ht : sent[k]? = some t)
    (ht' : sent[k + 1]? = some t') : t + period ≤ t' + toleranceMs := by
  have hdue := h.due_le ht'
  rw [dueAt_succ ht] at hdue
  have hnext := le_nextDue_add_tolerance period (dueAt period start sent k) t
  omega

/-- So long as each answer comes in time for the next tick, the schedule stays where it was at the start. -/
theorem no_drift (h : Timetable period start sent answered) {n : Nat} (hn : n ≤ sent.length)
    (htime : ∀ k a : Nat, k + 1 < n → answered[k]? = some a → a ≤ dueAt period start sent (k + 1) + toleranceMs) :
    dueAt period start sent n = start + (n + 1) * period := by
  induction n with
  | zero =>
    rw [Nat.zero_add, Nat.one_mul]
    rfl
  | succ n ih =>
    have ht := List.getElem?_eq_getElem (l := sent) (i := n) (by omega)
    have hpicked : sent[n] ≤ dueAt period start sent n + toleranceMs := by
      cases n with
      | zero =>
        rw [h.first _ ht]
        exact Nat.le_add_right _ _
      | succ k =>
        obtain ⟨a, ha, hmax⟩ := h.exists_answer ht
        have hin := htime k a (by omega) ha
        omega
    have hdue := ih (by omega) fun k a hk ha => htime k a (by omega) ha
    rw [dueAt_succ ht, nextDue_of_le hpicked, hdue, Nat.add_mul (n + 1) 1, Nat.one_mul, Nat.add_assoc]

end Timetable

end AgentDesk.Liveness
