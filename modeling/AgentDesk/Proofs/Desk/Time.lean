import AgentDesk.Proofs.Desk.Step

/-! # The clock

A turn takes no time: whatever actions and the probe do, the clock stands still. It moves when timers strike and
when time passes with nobody to wake, and in a run that is `Forward` neither sets it back. -/
namespace AgentDesk.Desk
open Session

/-! ## Moves take no time -/

section Frame

variable (d : Desk)

theorem clock_wakeAll (callers : List Caller) : (d.wakeAll callers).clock = d.clock := by
  induction callers generalizing d with
  | nil => rfl
  | cons caller callers ih =>
    rw [wakeAll_cons, ih]
    cases caller <;> rfl

theorem clock_passLock (r : StoreLock × List Visit) : (d.passLock r).clock = d.clock :=
  clock_wakeAll { d with lock := r.1 } _

theorem clock_conclude (t : Task) (r : Result) : (d.conclude t r).1.clock = d.clock := by
  obtain ⟨n, errand, position⟩ := t
  cases errand <;> rcases r with ((_ | e) | _) | _ <;> rfl

theorem clock_follow (t : Task) (next : Controller × Next) : (d.follow t next).1.clock = d.clock := by
  have hset (c : Controller) : (d.setController c).clock = d.clock := by
    obtain ⟨probes, ready, hd⟩ := setController_frame d c
    rw [hd]
  obtain ⟨c, stage | r | _⟩ := next
  · exact hset c
  · exact (clock_conclude _ t r).trans (hset c)
  · exact hset c

theorem clock_stepTask (t : Task) : (d.stepTask t).1.clock = d.clock := by
  cases hpos : t.position with
  | begun command =>
    simp only [stepTask, hpos]
    exact clock_follow d t _
  | reading r access =>
    cases access with
    | ready =>
      simp only [stepTask, hpos]
      split
      · exact clock_follow d t _
      · rfl
    | queued =>
      simp only [stepTask, hpos]
      rfl
    | admitted =>
      simp only [stepTask, hpos]
      rw [clock_follow, clock_passLock]
  | writing w access =>
    cases access with
    | ready =>
      simp only [stepTask, hpos]
      split
      · exact clock_follow _ t _
      · rfl
    | queued =>
      simp only [stepTask, hpos]
      rfl
    | admitted =>
      simp only [stepTask, hpos]
      rw [clock_follow, clock_passLock]
  | calling request progress =>
    obtain ⟨_, _, _, hframe⟩ := converse_frame d (.task t.number) request progress
    have hclock : (d.converse (.task t.number) request progress).1.clock = d.clock := by rw [hframe]
    simp only [stepTask, hpos]
    generalize d.converse (.task t.number) request progress = r at hclock ⊢
    obtain ⟨d', turn⟩ := r
    cases turn with
    | wait progress => exact hclock
    | move progress => exact hclock
    | take answer => exact (clock_follow d' t _).trans hclock

theorem clock_moveTask (n : Nat) : (d.moveTask n).clock = d.clock := by
  unfold moveTask
  split
  · next t _ =>
    have hstep := clock_stepTask (d.without n) t
    generalize (d.without n).stepTask t = r at hstep ⊢
    obtain ⟨d', _ | t'⟩ := r <;> exact hstep
  · rfl

theorem clock_stepProbe (p : Liveness.Probe) : (d.stepProbe p).1.clock = d.clock := by
  obtain ⟨_, _, _, h | ⟨_, h⟩⟩ := stepProbe_frame d p
  · rw [h]
  · rw [h, setProbe]

theorem clock_moveProbe (serial : Nat) : (d.moveProbe serial).clock = d.clock := by
  unfold moveProbe
  split
  · next p _ => exact clock_stepProbe d p
  · rfl

theorem clock_runTask (moves : Nat) (t : Task) : (runTask moves d t).clock = d.clock := by
  induction moves generalizing d t with
  | zero => rfl
  | succ moves ih =>
    have hstep := clock_stepTask d t
    rw [runTask]
    generalize d.stepTask t = r at hstep ⊢
    obtain ⟨d', _ | t'⟩ := r
    · exact hstep
    · exact (ih d' t').trans hstep

theorem clock_runProbe (moves serial : Nat) : (runProbe moves serial d).clock = d.clock := by
  induction moves generalizing d with
  | zero => rfl
  | succ moves ih =>
    rw [runProbe]
    split
    · next p _ =>
      have hstep := clock_stepProbe d p
      generalize d.stepProbe p = r at hstep ⊢
      obtain ⟨d', more⟩ := r
      cases more with
      | true => exact (ih d').trans hstep
      | false => exact hstep
    · rfl

theorem clock_turn (caller : Caller) : (d.turn caller).clock = d.clock := by
  cases caller with
  | task n =>
    simp only [turn]
    split
    · exact clock_runTask _ _ _
    · rfl
  | probe serial => exact clock_runProbe _ _ _

theorem clock_turns (n : Nat) : (turns n d).clock = d.clock := by
  induction n generalizing d with
  | zero => rfl
  | succ n ih =>
    rw [turns]
    split
    · rfl
    · exact (ih _).trans (clock_turn _ _)

theorem clock_settle : d.settle.clock = d.clock := clock_turns d _

end Frame

/-! ## Runs that go forward -/

/-- An event that does not set the clock back. -/
def OnTime (d : Desk) : Event → Prop
  | .pass instant => d.clock ≤ instant
  | _ => True

/-- None of the events sets the clock back. -/
def Forward (d : Desk) : List Event → Prop
  | [] => True
  | e :: es => d.OnTime e ∧ (d.perform e).Forward es

theorem forward_append {d : Desk} {es fs : List Event} :
    d.Forward (es ++ fs) ↔ d.Forward es ∧ (es.foldl perform d).Forward fs := by
  induction es generalizing d with
  | nil => simp [Forward]
  | cons e es ih => simp only [List.cons_append, Forward, ih, List.foldl_cons, and_assoc]

theorem OnTime.clock_le {d : Desk} {e : Event} (h : d.OnTime e) : d.clock ≤ (d.perform e).clock := by
  cases e with
  | move n => exact Nat.le_of_eq (clock_moveTask d n).symm
  | probe serial => exact Nat.le_of_eq (clock_moveProbe d serial).symm
  | release kind => exact Nat.le_of_eq (clock_wakeAll { d with server := (d.server.release kind).1 } _).symm
  | unlock => exact Nat.le_of_eq (clock_passLock d _).symm
  | strike instant =>
    have hclock : (d.strike instant).clock = max d.clock instant := clock_wakeAll _ _
    simp only [perform, hclock]
    omega
  | pass instant => exact h
  | _ => exact Nat.le_refl _

theorem Opening.forward_snoc (o : Opening) {es : List Event} {e : Event} :
    o.desk.Forward (es ++ [e]) ↔ o.desk.Forward es ∧ (o.after es).desk.OnTime e := by
  rw [forward_append, o.desk_after]
  simp [Forward]

theorem Forward.clock_le {d : Desk} {es : List Event} (h : d.Forward es) : d.clock ≤ (es.foldl perform d).clock := by
  induction es generalizing d with
  | nil => exact Nat.le_refl _
  | cons e es ih => exact Nat.le_trans h.1.clock_le (ih h.2)

end AgentDesk.Desk
