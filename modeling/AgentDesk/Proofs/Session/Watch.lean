import AgentDesk.Proofs.Session.Provenance

/-! # Each session has a probe of its own

A probe is started for every session that is gained, and goes when the session is torn down. So the probes are
numbered as the sessions are, there is none without a session that runs, and the channel that it pings is that of
the session (`Watching`). A probe that has gone never comes back (`Gone`). All this is said of the handle that the
controller has; no probe runs without it (`Kept`). -/
namespace AgentDesk.Desk
open Session Function

/-! ## Sessions that run -/

namespace Occurrence

/-- A stop request is answered, and whatever the answer, the session is torn down. -/
def isTeardown : Occurrence → Bool
  | resumed _ (.hears (.stop _) _) _ => true
  | _ => false

/-- The session that runs after an occurrence. -/
def runs (running : Option Holding) (x : Occurrence) : Option Holding :=
  if x.isTeardown then none else x.gain?.or running

end Occurrence

/-- The session that runs at the end of a record. It is at hand (`held`) until a stop request is sent, and runs until
that is answered. -/
def running (past : List Occurrence) : Option Holding := past.foldl Occurrence.runs none

/-- How many sessions were gained. -/
def gains (past : List Occurrence) : Nat := past.countP (·.gain?.isSome)

theorem running_snoc (past : List Occurrence) (x : Occurrence) : running (past ++ [x]) = x.runs (running past) := by
  simp [running, List.foldl_append]

theorem gains_append (past later : List Occurrence) : gains (past ++ later) = gains past + gains later :=
  List.countP_append

theorem gains_snoc (past : List Occurrence) (x : Occurrence) :
    gains (past ++ [x]) = gains past + if x.gain?.isSome then 1 else 0 := by
  simp [gains, List.countP_append, List.countP_singleton]

/-! ## What a step does to the probe -/

/-- The handle, how many there were before it, and the interval that its probe was asked for. -/
structure SameProbe (c c' : Controller) : Prop where
  probe : c'.probe = c.probe
  probes : c'.probes = c.probes
  interval : c'.pingIntervalMs = c.pingIntervalMs

theorem SameProbe.refl (c : Controller) : SameProbe c c := ⟨rfl, rfl, rfl⟩

/-- What an action that goes on does to the probe: it starts one, or lets it go, or does neither. -/
inductive ProbeStep (c : Controller) : Cause → Controller → Prop
  | keeps {cause : Cause} {c' : Controller} (same : SameProbe c c')
      (apart : ∀ n next, (Occurrence.resumed n cause next).gain? = none ∧
        (Occurrence.resumed n cause next).isTeardown = false) : ProbeStep c cause c'
  | gains {p : Wire.Params} {r : Wire.Response} {c' : Controller} (same : SameProbe c c')
      (success : r.code.isSuccess = true) : ProbeStep c (.hears (.start p) (.ok r)) c'
  | fails {p : Wire.Params} {answer : Answer}
      (failure : ∀ n next, (Occurrence.resumed n (.hears (.start p) answer) next).gain? = none) :
      ProbeStep c (.hears (.start p) answer) c.tearDown
  | starts (p : Wire.Params) : ProbeStep c (.changes (.started p)) (c.markConnected p.channel)
  | adopts (channel : String) : ProbeStep c (.changes (.adopted channel)) (c.markConnected channel).release
  | stops (channel : String) (answer : Answer) : ProbeStep c (.hears (.stop channel) answer) c.tearDown

theorem probeStep_begin (c : Controller) (command : Command) : SameProbe c (command.begin c).1 := by
  have hconnect : SameProbe c (Command.beginConnect c).1 := by
    unfold Command.beginConnect
    split
    · exact ⟨rfl, rfl, rfl⟩
    · split <;> exact ⟨rfl, rfl, rfl⟩
  have hdisconnect : SameProbe c (Command.beginDisconnect c).1 := by
    unfold Command.beginDisconnect
    split
    · exact ⟨rfl, rfl, rfl⟩
    · split <;> exact ⟨rfl, rfl, rfl⟩
  cases command with
  | connect => exact hconnect
  | disconnect => exact hdisconnect
  | toggle =>
    simp only [Command.begin]
    split
    · exact hdisconnect
    · exact hconnect
  | check => exact ⟨rfl, rfl, rfl⟩

theorem probeStep_resume (c : Controller) (s : Store) (r : Reading) : SameProbe c (r.resume c s).1 := by
  cases r with
  | params =>
    simp only [Reading.resume]
    split
    · exact ⟨rfl, rfl, rfl⟩
    · split <;> exact ⟨rfl, rfl, rfl⟩
  | stopChannel => exact ⟨rfl, rfl, rfl⟩
  | pingChannel =>
    simp only [Reading.resume]
    split <;> exact ⟨rfl, rfl, rfl⟩
  | currentChannel pinged =>
    simp only [Reading.resume]
    split <;> exact ⟨rfl, rfl, rfl⟩

theorem Cause.probeStep (cause : Cause) (c : Controller) (s : Store) : ProbeStep c cause (cause.next c s).1 := by
  cases cause with
  | begins command => exact .keeps (probeStep_begin c command) fun _ _ => ⟨rfl, rfl⟩
  | looks r => exact .keeps (probeStep_resume c s r) fun _ _ => ⟨rfl, rfl⟩
  | changes w =>
    cases w with
    | refusal r => exact .keeps ⟨rfl, rfl, rfl⟩ fun _ _ => ⟨rfl, rfl⟩
    | teardown reason => cases reason <;> exact .keeps ⟨rfl, rfl, rfl⟩ fun _ _ => ⟨rfl, rfl⟩
    | started p => exact .starts p
    | announce t => exact .keeps ⟨rfl, rfl, rfl⟩ fun _ _ => ⟨rfl, rfl⟩
    | adopted channel => exact .adopts channel
    | toast text => exact .keeps ⟨rfl, rfl, rfl⟩ fun _ _ => ⟨rfl, rfl⟩
  | hears request answer =>
    cases request with
    | stop channel => cases answer <;> exact .stops channel _
    | ping channel =>
      have hkept : SameProbe c (afterPing c channel answer).1 := by
        by_cases hup : TakesUp c answer
        · rw [afterPing_of_takesUp channel hup]
          exact ⟨rfl, rfl, rfl⟩
        · obtain ⟨adopted, hdone⟩ := afterPing_of_not_takesUp channel hup
          rw [hdone]
          exact ⟨rfl, rfl, rfl⟩
      exact .keeps hkept fun _ _ => ⟨rfl, rfl⟩
    | start p =>
      cases answer with
      | error e => exact .fails fun _ _ => rfl
      | ok r =>
        simp only [Cause.next, resumeCall, afterStart]
        by_cases hr : r.code.isSuccess = true
        · rw [if_pos hr]
          exact .gains ⟨rfl, rfl, rfl⟩ hr
        · rw [if_neg hr]
          refine .fails fun n next => ?_
          simp [Occurrence.gain?, hr]

/-! ## The invariant -/

/-- Which probe there is: that of the session that runs, or none. One is due from the moment a start request is
answered with success until the store is changed. -/
inductive Watching (c : Controller) (past : List Occurrence) : Prop
  | idle (probe : c.probe = none) (none_runs : running past = none) (none_held : held past = none)
      (count : c.probes = gains past)
  | due (session : Holding) (probe : c.probe = none) (runs : running past = some session)
      (at_hand : held past = some session) (count : c.probes + 1 = gains past)
  | watched (session : Holding) (k : Liveness.Handle) (probe : c.probe = some k)
      (runs : running past = some session) (channel : k.channel = session.channel) (serial : k.serial + 1 = gains past)
      (count : c.probes = gains past)

namespace Watching

variable {c c' : Controller} {past past' : List Occurrence}

theorem transfer (h : Watching c past) (hc : SameProbe c c') (hrunning : running past' = running past)
    (hheld : c.probe = none → held past' = held past) (hgains : gains past' = gains past) : Watching c' past' := by
  have hcount := hc.probes
  cases h with
  | idle probe none_runs none_held count =>
    exact .idle (hc.probe.trans probe) (hrunning.trans none_runs) ((hheld probe).trans none_held) (by omega)
  | due session probe runs at_hand count =>
    exact .due session (hc.probe.trans probe) (hrunning.trans runs) ((hheld probe).trans at_hand) (by omega)
  | watched session k probe runs channel serial count =>
    exact .watched session k (hc.probe.trans probe) (hrunning.trans runs) channel (serial.trans hgains.symm) (by omega)

/-- What neither gains nor tears down a session leaves everything as it was; a stop request is sent only while there
is a probe. -/
theorem aside (h : Watching c past) {x : Occurrence} (hc : SameProbe c c') (hgain : x.gain? = none)
    (hteardown : x.isTeardown = false) (hstop : x.isStop = true → c.probe ≠ none) : Watching c' (past ++ [x]) := by
  refine h.transfer hc ?_ (fun hnone => ?_) ?_
  · rw [running_snoc, Occurrence.runs, hteardown, hgain]
    rfl
  · have hx : x.isStop = false := by
      by_contra hx
      exact hstop (Bool.not_eq_false _ ▸ hx) hnone
    rw [held_snoc, Occurrence.carry, hx, hgain]
    rfl
  · rw [gains_snoc, hgain]
    rfl

theorem of_no_probe (h : Watching c past) (hp : c.probe = none) (hh : held past = none) :
    running past = none ∧ c.probes = gains past := by
  cases h with
  | idle probe none_runs none_held count => exact ⟨none_runs, count⟩
  | due session probe runs at_hand count =>
    rw [at_hand] at hh
    cases hh
  | watched session k probe =>
    rw [probe] at hp
    cases hp

theorem of_probe (h : Watching c past) {k : Liveness.Handle} (hk : c.probe = some k) :
    ∃ session, running past = some session ∧ k.channel = session.channel ∧ k.serial + 1 = gains past ∧
      c.probes = gains past := by
  cases h with
  | idle probe => cases probe.symm.trans hk
  | due session probe => cases probe.symm.trans hk
  | watched session k' probe runs channel serial count =>
    cases probe.symm.trans hk
    exact ⟨session, runs, channel, serial, count⟩

end Watching

theorem signs_probe {c : Controller} {s : Store} {state : Session.State} {session : Option Wire.Params} {flag : Bool}
    (h : signs c s = ⟨state, session, none, flag⟩) : c.probe = none := by
  have hpinged : c.probe.map (·.channel) = none := congrArg Signs.pinged h
  simpa using hpinged

theorem signs_probe_up {c : Controller} {s : Store} {session : Holding} (h : signs c s = .up session) :
    ∃ k, c.probe = some k ∧ k.channel = session.channel :=
  Option.map_eq_some_iff.mp (congrArg Signs.pinged h)

section Resumed

variable {c c' : Controller} {past : List Occurrence} (h : Watching c past) (hprobe : c.probe = none)

include h hprobe

/-- With a session at hand and no probe yet, the session's is the next one. -/
theorem Watching.due_of_held {session : Holding} (hheld : held past = some session) :
    running past = some session ∧ c.probes + 1 = gains past := by
  cases h with
  | idle probe none_runs none_held count =>
    rw [hheld] at none_held
    cases none_held
  | watched session k probe =>
    rw [hprobe] at probe
    cases probe
  | due session probe runs at_hand count =>
    rw [hheld] at at_hand
    cases at_hand
    exact ⟨runs, count⟩

theorem Watching.gained (hheld : held past = none) (same : SameProbe c c') {n : Nat} {p : Wire.Params}
    {r : Wire.Response} (success : r.code.isSuccess = true) (next : Next) :
    Watching c' (past ++ [.resumed n (.hears (.start p) (.ok r)) next]) := by
  obtain ⟨-, hcount⟩ := h.of_no_probe hprobe hheld
  have hgain : (Occurrence.resumed n (.hears (.start p) (.ok r)) next).gain? = some ⟨p.channel, some p⟩ :=
    if_pos success
  refine .due ⟨p.channel, some p⟩ (same.probe.trans hprobe) ?_ ?_ ?_
  · rw [running_snoc, Occurrence.runs, hgain]
    rfl
  · rw [held_snoc, Occurrence.carry, hgain]
    rfl
  · rw [gains_snoc, hgain, same.probes, hcount]
    rfl

theorem Watching.started {p : Wire.Params} (hheld : held past = some ⟨p.channel, some p⟩) (n : Nat) (next : Next) :
    Watching (c.markConnected p.channel) (past ++ [.resumed n (.changes (.started p)) next]) := by
  obtain ⟨hruns, hcount⟩ := h.due_of_held hprobe hheld
  have hgains : gains (past ++ [.resumed n (.changes (.started p)) next]) = gains past := gains_snoc _ _
  refine .watched ⟨p.channel, some p⟩ _ rfl ?_ rfl ?_ ?_
  · rw [running_snoc, hruns]
    rfl
  · rw [hgains, ← hcount]
  · rw [hgains, ← hcount]
    rfl

theorem Watching.adopted (hheld : held past = none) (channel : String) (n : Nat) (next : Next) :
    Watching (c.markConnected channel).release (past ++ [.resumed n (.changes (.adopted channel)) next]) := by
  obtain ⟨-, hcount⟩ := h.of_no_probe hprobe hheld
  have hgains : gains (past ++ [.resumed n (.changes (.adopted channel)) next]) = gains past + 1 := gains_snoc _ _
  refine .watched ⟨channel, none⟩ _ rfl ?_ rfl ?_ ?_
  · rw [running_snoc]
    rfl
  · rw [hgains, ← hcount]
  · rw [hgains, ← hcount]
    rfl

end Resumed

theorem Watching.stopped {c : Controller} {past : List Occurrence} (h : Watching c past) {k : Liveness.Handle}
    (hprobe : c.probe = some k) (hheld : held past = none) (n : Nat) (channel : String) (answer : Answer)
    (next : Next) :
    Watching c.tearDown (past ++ [.resumed n (.hears (.stop channel) answer) next]) := by
  obtain ⟨_, -, -, -, hcount⟩ := h.of_probe hprobe
  refine .idle rfl ?_ ?_ ?_
  · rw [running_snoc]
    rfl
  · rw [held_snoc, hheld]
    rfl
  · rw [gains_snoc]
    exact hcount

theorem Watching.resumed {s : Scene} {past : List Occurrence} {n : Nat} {errand : Errand} {cause : Cause}
    (h : Watching s.controller past) (hc : Custody s (held past)) (stood : s.plan n = some (errand, cause.post)) :
    Watching (cause.next s.controller s.store).1
      (past ++ [.resumed n cause (cause.next s.controller s.store).2]) := by
  have hstep := cause.probeStep s.controller s.store
  generalize (cause.next s.controller s.store).1 = c' at hstep ⊢
  generalize (cause.next s.controller s.store).2 = next
  cases hstep with
  | keeps same apart =>
    obtain ⟨hgain, hteardown⟩ := apart n next
    exact h.aside same hgain hteardown fun hstop => by cases hstop
  | gains same success =>
    obtain ⟨-, ⟨hstarting, hnone⟩, -⟩ := hc.holder stood rfl
    exact h.gained (signs_probe hstarting) hnone same success next
  | @fails p answer failure =>
    obtain ⟨-, ⟨hstarting, hnone⟩, -⟩ := hc.holder stood rfl
    have hprobe := signs_probe hstarting
    exact h.aside ⟨hprobe.symm, rfl, rfl⟩ (failure n next) rfl fun hstop => by cases hstop
  | starts p =>
    obtain ⟨-, ⟨hstarted, hheld⟩, -⟩ := hc.holder stood rfl
    exact h.started (signs_probe hstarted) hheld n next
  | adopts channel =>
    obtain ⟨-, ⟨hdown, hnone⟩, -⟩ := hc.holder stood rfl
    exact h.adopted (signs_probe hdown) hnone channel n next
  | stops channel answer =>
    obtain ⟨-, ⟨⟨session, hup⟩, hnone⟩, -⟩ := hc.holder stood rfl
    obtain ⟨k, hk, -⟩ := signs_probe_up hup
    exact h.stopped hk hnone n channel answer next

theorem Watching.step {s s' : Scene} {past : List Occurrence} (h : Watching s.controller past)
    (hc : Custody s (held past)) {x : Option Occurrence} (st : s.Step x s') :
    Watching s'.controller (past ++ x.toList) := by
  cases st with
  | quiet =>
    rw [Option.toList_none, List.append_nil]
    exact h
  | pinged running => exact h.aside (.refl _) rfl rfl nofun
  | edited e => exact h.aside (.refl _) rfl rfl nofun
  | begun fresh errand command => exact h.aside (.refl _) rfl rfl nofun
  | chosen stood =>
    rw [Option.toList_none, List.append_nil]
    exact h
  | @sent n errand request stood =>
    refine h.aside (.refl _) rfl rfl fun hstop => ?_
    cases request with
    | stop channel =>
      obtain ⟨-, ⟨session, hup, -⟩, -⟩ := hc.holder stood rfl
      obtain ⟨k, hk, -⟩ := signs_probe_up hup
      exact hk ▸ Option.some_ne_none k
    | _ => cases hstop
  | resumed cause stood => exact h.resumed hc stood

theorem Opening.watching (o : Opening) (es : List Event) :
    Watching (o.after es).desk.controller (o.after es).past := by
  have h := o.scene_invariant
    (P := fun s past => Custody s (held past) ∧ Watching s.controller past)
    ⟨custody o [], .idle rfl rfl rfl rfl⟩
    (fun s x s' past h st => ⟨h.1.step st, h.2.step h.1 st⟩) es
  exact h.2

/-! ## Probes that have gone -/

/-- There was a probe of that number, and the controller does not have it any more. -/
structure Gone (serial : Nat) (c : Controller) : Prop where
  started : serial < c.probes
  left : ∀ k, c.probe = some k → k.serial ≠ serial

theorem Gone.transfer {serial : Nat} {c c' : Controller} (h : Gone serial c) (hc : SameProbe c c') : Gone serial c' :=
  ⟨hc.probes ▸ h.started, hc.probe ▸ h.left⟩

theorem Gone.step {serial : Nat} {s s' : Scene} {x : Option Occurrence} (h : Gone serial s.controller)
    (st : s.Step x s') : Gone serial s'.controller := by
  cases st with
  | quiet => exact h
  | pinged running => exact h
  | edited e => exact h
  | begun fresh errand command => exact h
  | chosen stood => exact h
  | sent stood => exact h
  | resumed cause stood =>
    have hstep := cause.probeStep s.controller s.store
    have hlater := Nat.lt_succ_of_lt h.started
    have hnew : s.controller.probes ≠ serial := by
      have := h.started
      omega
    generalize (cause.next s.controller s.store).1 = c' at hstep ⊢
    cases hstep with
    | keeps same apart => exact h.transfer same
    | gains same success => exact h.transfer same
    | fails failure => exact ⟨h.started, nofun⟩
    | starts p => exact ⟨hlater, fun k hk => by cases hk; exact hnew⟩
    | adopts channel => exact ⟨hlater, fun k hk => by cases hk; exact hnew⟩
    | stops channel answer => exact ⟨h.started, nofun⟩

theorem Opening.gone_append (o : Opening) (es : List Event) {serial : Nat}
    (h : Gone serial (o.after es).desk.controller) (more : List Event) :
    Gone serial (o.after (es ++ more)).desk.controller := by
  induction more using List.reverseRecOn with
  | nil => rwa [List.append_nil]
  | append_singleton more e ih =>
    rw [← List.append_assoc, o.after_snoc]
    have st := scene_perform (o.orderly (es ++ more)) e
    exact Gone.step ih st

/-! ## What is on the record of a session that runs -/

theorem gains_eq_zero {past : List Occurrence} (h : ∀ x ∈ past, x.gain? = none) : gains past = 0 := by
  refine List.countP_eq_zero.mpr fun x hx => ?_
  rw [h x hx]
  simp

/-- A session that runs after a teardown was gained after it. -/
theorem gains_pos_of_running {past later : List Occurrence} {x : Occurrence} {session : Holding}
    (hx : x.isTeardown = true) (h : running (past ++ x :: later) = some session) : 0 < gains later := by
  induction later using List.reverseRecOn with
  | nil =>
    rw [running_snoc, Occurrence.runs, hx] at h
    cases h
  | append_singleton later y ih =>
    rw [gains_snoc]
    cases hg : y.gain? with
    | some gained => simp
    | none =>
      rw [← List.cons_append, ← List.append_assoc, running_snoc, Occurrence.runs, hg] at h
      split at h
      · cases h
      · exact Nat.lt_of_lt_of_le (ih h) (Nat.le_add_right _ _)

/-- A session is gained while there is no probe. -/
theorem Custody.no_probe_of_gain {s s' : Scene} {held : Option Holding} (h : Custody s held) {x : Occurrence}
    (st : s.Step (some x) s') (hg : x.gain? ≠ none) : s.controller.probe = none := by
  cases st with
  | pinged running => exact absurd rfl hg
  | edited e => exact absurd rfl hg
  | begun fresh errand command => exact absurd rfl hg
  | sent stood => exact absurd rfl hg
  | resumed cause stood =>
    cases cause with
    | begins command => exact absurd rfl hg
    | looks r => exact absurd rfl hg
    | changes w =>
      cases w with
      | adopted channel =>
        obtain ⟨-, ⟨hdown, -⟩, -⟩ := h.holder stood rfl
        exact signs_probe hdown
      | _ => exact absurd rfl hg
    | hears request answer =>
      cases request with
      | start p =>
        obtain ⟨-, ⟨hstarting, -⟩, -⟩ := h.holder stood rfl
        exact signs_probe hstarting
      | _ => exact absurd rfl hg

/-- The probe pings for the session that runs. -/
theorem Watching.ping {s s' : Scene} {past : List Occurrence} (h : Watching s.controller past) {serial : Nat}
    {request : Wire.Request} (st : s.Step (some (.sent (.probe serial) request)) s') :
    ∃ session, running past = some session ∧ request = .ping session.channel ∧ serial + 1 = gains past := by
  cases st with
  | pinged hk =>
    obtain ⟨session, hruns, hchannel, hserial, -⟩ := h.of_probe hk
    exact ⟨session, hruns, by rw [hchannel], hserial⟩

end AgentDesk.Desk
