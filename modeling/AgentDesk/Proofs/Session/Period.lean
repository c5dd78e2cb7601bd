import AgentDesk.Proofs.Session.Watch

/-! # With which period a desk's probes tick

What anything that happens at a desk does to its probes is said once (`sequel_undergo`): one that runs afterwards was
started just then with the desk's interval, or it ran before and gets on with its schedule by its own period (`Ticks`).
Here actions may also be dropped halfway. So all probes that a desk ever starts have the one period that its interval
comes to (`Steady`). -/
namespace AgentDesk.Liveness

/-- What may become of a schedule with a period, and when. The first tick is due a period after the schedule is set;
a tick that is picked up sets the next one (`nextDue`), and nothing else does. -/
inductive Ticks (period now : Nat) : Phase → Phase → Prop
  | stays (phase : Phase) : Ticks period now phase phase
  | sets : Ticks period now .fresh (.waiting (now + period))
  | picksUp {due : Nat} (past : due ≤ now) : Ticks period now (.waiting due) (.pinging (nextDue period due now) .ready)
  | asks {next : Nat} {progress progress' : Progress} (sent : progress' ≠ .ready) :
      Ticks period now (.pinging next progress) (.pinging next progress')
  | rests {next : Nat} {progress : Progress} (later : now < next) :
      Ticks period now (.pinging next progress) (.waiting next)
  | catchesUp {next : Nat} {progress : Progress} (past : next ≤ now) :
      Ticks period now (.pinging next progress) (.pinging (nextDue period next now) .ready)

/-- A wait is over, or was not waited. -/
inductive Roused : Phase → Phase → Prop
  | same (phase : Phase) : Roused phase phase
  | woken {next : Nat} {progress progress' : Progress} (sent : progress' ≠ .ready) :
      Roused (.pinging next progress) (.pinging next progress')

theorem Roused.ticks {phase phase' : Phase} (h : Roused phase phase') (period now : Nat) :
    Ticks period now phase phase' := by
  cases h with
  | same => exact .stays _
  | woken sent => exact .asks sent

theorem Roused.trans {phase phase' phase'' : Phase} (h : Roused phase phase') (h' : Roused phase' phase'') :
    Roused phase phase'' := by
  cases h' with
  | same => exact h
  | woken sent =>
    cases h with
    | same => exact .woken sent
    | woken => exact .woken sent

theorem roused_woken (p : Probe) : ∃ phase, Roused p.phase phase ∧ p.woken = { p with phase := phase } := by
  obtain ⟨serial, channel, period, phase⟩ := p
  cases phase with
  | fresh => exact ⟨_, .same _, rfl⟩
  | waiting due => exact ⟨_, .same _, rfl⟩
  | pinging next progress =>
    cases progress with
    | ready => exact ⟨_, .same _, rfl⟩
    | _ => exact ⟨_, .woken (fun h => by cases h), rfl⟩

end AgentDesk.Liveness

namespace AgentDesk.Desk
open Session Liveness

/-! ## What becomes of the probes -/

/-- Where a probe comes from that runs after something has happened. -/
inductive Descent (d d' : Desk) : Probe → Prop
  | started (channel : String) (count : d'.controller.probes = d.controller.probes + 1) :
      Descent d d' (.start ⟨d.controller.probes, channel⟩ d.controller.pingIntervalMs)
  | goesOn {p : Probe} {phase : Phase} (ran : p ∈ d.probes) (ticks : Ticks p.periodMs d.clock p.phase phase) :
      Descent d d' { p with phase := phase }

structure Sequel (d d' : Desk) : Prop where
  interval : d'.controller.pingIntervalMs = d.controller.pingIntervalMs
  count : d.controller.probes ≤ d'.controller.probes
  descent : ∀ p ∈ d'.probes, Descent d d' p

section Sequel

variable {d d' : Desk}

theorem Descent.of_mem {p : Probe} (h : p ∈ d.probes) : Descent d d' p := .goesOn h (.stays p.phase)

theorem Sequel.of_same (hc : SameProbe d.controller d'.controller) (hp : d'.probes = d.probes) : Sequel d d' :=
  ⟨hc.interval, Nat.le_of_eq hc.probes.symm, fun _ h => .of_mem (hp ▸ h)⟩

/-- Where the handle has gone, no probe is left. -/
theorem Sequel.of_gone {c : Controller} (hc : d'.controller = c) (hp : d'.probes = d.probesUnder d'.controller)
    (hinterval : c.pingIntervalMs = d.controller.pingIntervalMs) (hcount : c.probes = d.controller.probes)
    (hnone : c.probe = none) : Sequel d d' := by
  subst hc
  refine ⟨hinterval, Nat.le_of_eq hcount.symm, fun p hmem => ?_⟩
  obtain hran | ⟨-, k, hk, -⟩ := mem_probesUnder (hp ▸ hmem)
  · exact .of_mem hran
  · cases hnone.symm.trans hk

/-- Where there is a new handle, the probe is new. -/
theorem Sequel.of_started {c : Controller} (channel : String) (hc : d'.controller = c)
    (hp : d'.probes = d.probesUnder d'.controller) (hinterval : c.pingIntervalMs = d.controller.pingIntervalMs)
    (hcount : c.probes = d.controller.probes + 1) (hnew : c.probe = some ⟨d.controller.probes, channel⟩) :
    Sequel d d' := by
  subst hc
  refine ⟨hinterval, by omega, fun p hmem => ?_⟩
  obtain hran | ⟨-, k, hk, rfl⟩ := mem_probesUnder (hp ▸ hmem)
  · exact .of_mem hran
  · obtain rfl := Option.some.inj (hnew.symm.trans hk)
    rw [hinterval]
    exact .started channel hcount

/-- What an action that goes on does to the probes. -/
theorem Sequel.of_probeStep {cause : Cause} (hstep : ProbeStep d.controller cause d'.controller)
    (hp : d'.probes = d.probesUnder d'.controller) : Sequel d d' := by
  generalize hc : d'.controller = c' at hstep
  cases hstep with
  | keeps same apart => exact .of_same (hc ▸ same) (hp.trans (probesUnder_of_same (hc ▸ same.probe)))
  | gains same success => exact .of_same (hc ▸ same) (hp.trans (probesUnder_of_same (hc ▸ same.probe)))
  | fails failure => exact .of_gone hc hp rfl rfl rfl
  | starts p => exact .of_started p.channel hc hp rfl rfl rfl
  | adopts channel => exact .of_started channel hc hp rfl rfl rfl
  | stops channel answer => exact .of_gone hc hp rfl rfl rfl

end Sequel

theorem sequel_moveTask {d : Desk} (h : d.Kept) (n : Nat) : Sequel d (d.moveTask n) := by
  have hprobes := h.probes_moveTask n
  rcases moveTask_cases d n with ⟨cause, next, hx⟩ | ⟨hc, -⟩
  · have st := scene_moveTask d n
    rw [hx] at st
    obtain ⟨-, hc, -⟩ := st.of_resumed
    have hstep := cause.probeStep d.controller d.store
    rw [show (cause.next d.controller d.store).1 = (d.moveTask n).controller from hc.symm] at hstep
    exact .of_probeStep hstep hprobes
  · exact .of_same (hc ▸ .refl _) (hprobes.trans (probesUnder_of_same (congrArg Controller.probe hc)))

theorem mem_setProbe {d : Desk} {p q : Probe} (h : p ∈ (d.setProbe q).probes) : p = q ∨ p ∈ d.probes := by
  obtain ⟨p', hp', rfl⟩ := List.mem_map.mp h
  split
  · exact .inl rfl
  · exact .inr hp'

theorem sequel_moveProbe (d : Desk) (serial : Nat) : Sequel d (d.moveProbe serial) := by
  have hc : (d.moveProbe serial).controller = d.controller := congrArg Scene.controller (scene_moveProbe d serial)
  refine ⟨by rw [hc], Nat.le_of_eq (by rw [hc]), fun p' hp' => ?_⟩
  cases hp : d.probe? serial with
  | none =>
    simp only [moveProbe, hp] at hp'
    exact .of_mem hp'
  | some p =>
    have hran : p ∈ d.probes := List.mem_of_find?_eq_some hp
    simp only [moveProbe, hp] at hp'
    have hbeat := stepProbe_beat d p
    generalize d.stepProbe p = result at hbeat hp'
    have hset {q : Probe} {d₁ : Desk} (hp' : p' ∈ (d₁.setProbe q).probes) (hd₁ : d₁.probes = d.probes)
        (hq : Descent d (d.moveProbe serial) q) : Descent d (d.moveProbe serial) p' := by
      obtain rfl | hother := mem_setProbe hp'
      · exact hq
      · exact .of_mem (hd₁ ▸ hother)
    cases hbeat with
    | sets fresh => exact hset hp' rfl (.goesOn hran (fresh ▸ .sets))
    | early waits later => exact .of_mem hp'
    | ticks waits past => exact hset hp' rfl (.goesOn hran (waits ▸ .picksUp past))
    | kept sends keeps => exact hset hp' rfl (.goesOn hran (sends ▸ .asks fun h => by cases h))
    | heard sends lets => exact hset hp' rfl (.goesOn hran (sends ▸ .asks fun h => by cases h))
    | delayed hears slow => exact hset hp' rfl (.goesOn hran (hears ▸ .asks fun h => by cases h))
    | bides pings stays => exact hset hp' rfl (.of_mem hran)
    | answered pings ready later => exact hset hp' rfl (.goesOn hran (pings ▸ .rests later))
    | late pings ready past => exact hset hp' rfl (.goesOn hran (pings ▸ .catchesUp past))

theorem roused_wake (caller : Caller) (d : Desk) {p' : Probe} (h : p' ∈ (d.wake caller).probes) :
    ∃ p ∈ d.probes, ∃ phase, Roused p.phase phase ∧ p' = { p with phase := phase } := by
  cases caller with
  | task n => exact ⟨p', h, p'.phase, .same _, rfl⟩
  | probe serial =>
    obtain ⟨p, hp, rfl⟩ := List.mem_map.mp h
    split
    · obtain ⟨phase, hphase, hwoken⟩ := roused_woken p
      exact ⟨p, hp, phase, hphase, hwoken⟩
    · exact ⟨p, hp, p.phase, .same _, rfl⟩

/-- To wake a probe leaves its schedule alone. -/
theorem roused_wakeAll (callers : List Caller) (d : Desk) {p' : Probe} (h : p' ∈ (d.wakeAll callers).probes) :
    ∃ p ∈ d.probes, ∃ phase, Roused p.phase phase ∧ p' = { p with phase := phase } := by
  induction callers generalizing d with
  | nil => exact ⟨p', h, p'.phase, .same _, rfl⟩
  | cons caller callers ih =>
    obtain ⟨p, hp, phase, hphase, rfl⟩ := ih (d.wake caller) h
    obtain ⟨q, hq, phase', hphase', rfl⟩ := roused_wake caller d hp
    exact ⟨q, hq, phase, hphase'.trans hphase, rfl⟩

/-- Others are woken at a desk where time may have gone on. -/
theorem sequel_wakeAll {d d' : Desk} (callers : List Caller) (hc : d'.controller = d.controller)
    (hp : d'.probes = d.probes) : Sequel d (d'.wakeAll callers) := by
  have hc' : (d'.wakeAll callers).controller = d.controller :=
    (congrArg Scene.controller (scene_wakeAll callers d')).trans hc
  refine ⟨by rw [hc'], Nat.le_of_eq (by rw [hc']), fun p' hp' => ?_⟩
  obtain ⟨p, hran, phase, hphase, rfl⟩ := roused_wakeAll callers d' hp'
  exact .goesOn (hp ▸ hran) (hphase.ticks _ _)

/-! ## Whatever happens -/

/-- What can happen at a desk where actions are also dropped halfway. -/
inductive Stroke where
  | event (e : Event)
  | drop (name : String)

def undergo (d : Desk) : Stroke → Desk
  | .event e => d.perform e
  | .drop name => d.abort name

/-- An action that is dropped gives back the gate. -/
theorem controller_abort (d : Desk) (name : String) :
    (d.abort name).controller = d.controller ∨ (d.abort name).controller = d.controller.release := by
  unfold abort
  split
  · exact .inl rfl
  · next t _ =>
    dsimp only
    rw [show ∀ (d : Desk) r, (d.passLock r).controller = d.controller from
      fun d r => congrArg Scene.controller (scene_passLock d r)]
    cases t.holdsGate with
    | true => exact .inr rfl
    | false => exact .inl rfl

theorem store_abort (d : Desk) (name : String) : (d.abort name).store = d.store := by
  unfold abort
  split
  · rfl
  · exact congrArg Scene.store (scene_passLock _ _)

theorem Numbered.abort {d : Desk} (h : d.Numbered) (name : String) : (d.abort name).Numbered := by
  unfold Desk.abort
  split
  · exact h
  · next t _ =>
    have hless : ((d.tasks.filter (·.number ≠ t.number)).map Task.number).Sublist d.numbers :=
      List.filter_sublist.map _
    have hdropped (r : StoreLock × List Visit) (d' : Desk)
        (htasks : d'.tasks = d.tasks.filter (·.number ≠ t.number)) (hbegun : d'.begun = d.begun) :
        (d'.passLock r).Numbered := by
      obtain ⟨-, hnumbers, hbegun', -⟩ := alike_passLock d' r
      refine ⟨?_, ?_⟩
      · rw [hnumbers, numbers, htasks]
        exact h.distinct.sublist hless
      · rw [hnumbers, hbegun', hbegun, numbers, htasks]
        exact fun n hn => h.given n (hless.subset hn)
    exact hdropped _ _ rfl rfl

theorem Numbered.undergo {d : Desk} (h : d.Numbered) (stroke : Stroke) : (d.undergo stroke).Numbered := by
  cases stroke with
  | event e => exact h.perform e
  | drop name => exact h.abort name

/-- No probe is dropped with an action. -/
theorem probes_abort (d : Desk) (name : String) : (d.abort name).probes = d.probes := by
  unfold abort
  split
  · rfl
  · exact probes_passLock _ _

theorem sameProbe_abort (d : Desk) (name : String) : SameProbe d.controller (d.abort name).controller := by
  obtain hc | hc := controller_abort d name <;> rw [hc] <;> exact ⟨rfl, rfl, rfl⟩

theorem Kept.undergo {d : Desk} (h : d.Kept) (stroke : Stroke) : (d.undergo stroke).Kept := by
  cases stroke with
  | event e => exact h.perform e
  | drop name => exact h.transfer (congrArg (List.map _) (probes_abort d name)) (sameProbe_abort d name).probe

theorem Orderly.undergo {d : Desk} (h : d.Orderly) (stroke : Stroke) : (d.undergo stroke).Orderly :=
  ⟨h.toNumbered.undergo stroke, h.kept.undergo stroke⟩

theorem sequel_undergo {d : Desk} (h : d.Kept) (stroke : Stroke) : Sequel d (d.undergo stroke) := by
  cases stroke with
  | drop name => exact .of_same (sameProbe_abort d name) (probes_abort d name)
  | event e =>
    cases e with
    | move n => exact sequel_moveTask h n
    | probe serial => exact sequel_moveProbe d serial
    | release kind => exact sequel_wakeAll _ rfl rfl
    | unlock => exact sequel_wakeAll _ rfl rfl
    | strike instant => exact sequel_wakeAll _ rfl rfl
    | _ => exact .of_same (.refl _) rfl

/-! ## The one period -/

/-- The interval is still the one that was asked for, and a probe that runs is the controller's and has its period. -/
structure Steady (ms : Nat) (d : Desk) : Prop where
  interval : d.controller.pingIntervalMs = ms
  kept : d.Kept
  probe : ∀ p ∈ d.probes, p.periodMs = clampPeriod ms ∧ p.serial < d.controller.probes

theorem Steady.undergo {ms : Nat} {d : Desk} (h : Steady ms d) (stroke : Stroke) : Steady ms (d.undergo stroke) := by
  have hs := sequel_undergo h.kept stroke
  refine ⟨hs.interval.trans h.interval, h.kept.undergo stroke, fun p' hp' => ?_⟩
  cases hs.descent p' hp' with
  | started channel count => exact ⟨congrArg clampPeriod h.interval, count ▸ Nat.lt_succ_self _⟩
  | goesOn ran ticks =>
    obtain ⟨hperiod, hless⟩ := h.probe _ ran
    exact ⟨hperiod, Nat.lt_of_lt_of_le hless hs.count⟩

theorem Steady.undergoes {ms : Nat} {d : Desk} (h : Steady ms d) (strokes : List Stroke) :
    Steady ms (strokes.foldl Desk.undergo d) := by
  induction strokes generalizing d with
  | nil => exact h
  | cons stroke strokes ih => exact ih (h.undergo stroke)

theorem Opening.steady (o : Opening) (es : List Event) : Steady o.pingIntervalMs (o.after es).desk :=
  o.invariant (P := fun r => Steady o.pingIntervalMs r.desk) ⟨rfl, rfl, nofun⟩ (fun _ e h => h.undergo (.event e)) es

/-- The probe of a desk has a period and keeps to it, whatever happens next; a new one begins without a schedule. -/
structure OnPeriod (period : Nat) (d : Desk) (stroke : Stroke) : Prop where
  one : d.probes = [] ∨ ∃ p, d.probes = [p] ∧ d.controller.probe = some p.handle
  has : ∀ p ∈ d.probes, p.periodMs = period
  starts : ∀ p' ∈ (d.undergo stroke).probes, (∀ p ∈ d.probes, p.serial ≠ p'.serial) →
    p'.periodMs = period ∧ p'.phase = .fresh
  ticks : ∀ p ∈ d.probes, ∀ p' ∈ (d.undergo stroke).probes, p'.serial = p.serial →
    Ticks period d.clock p.phase p'.phase

theorem Steady.onPeriod {ms : Nat} {d : Desk} (h : Steady ms d) (stroke : Stroke) :
    OnPeriod (clampPeriod ms) d stroke := by
  have hs := sequel_undergo h.kept stroke
  refine ⟨?_, fun p hp => (h.probe p hp).1, fun p' hp' hnew => ?_, fun p hp p' hp' hserial => ?_⟩
  · cases hc : d.controller.probe with
    | none => exact .inl (h.kept.none_iff.mpr hc)
    | some k =>
      obtain ⟨p, hp, hk⟩ := h.kept.exists_of_handle hc
      exact .inr ⟨p, hp, congrArg some hk.symm⟩
  · refine ⟨((h.undergo stroke).probe p' hp').1, ?_⟩
    cases hs.descent p' hp' with
    | started channel count => rfl
    | @goesOn p phase ran ticks => exact absurd rfl (hnew p ran)
  · obtain ⟨hperiod, hless⟩ := h.probe p hp
    cases hs.descent p' hp' with
    | started channel count => exact absurd hserial.symm (Nat.ne_of_lt hless)
    | @goesOn q phase ran ticks =>
      have hone := (h.kept.of_mem hp).1
      rw [hone, List.mem_singleton] at ran
      subst ran
      exact hperiod ▸ ticks

end AgentDesk.Desk
