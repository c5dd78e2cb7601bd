import AgentDesk.Proofs.Desk.Moves

/-! # Probes and their handles

A probe runs by itself, and what the controller has of it is a handle. Nothing in the data of a desk keeps the two
together: a probe is aborted when its handle is dropped and started with a new one (`setController`), and from that it
follows over every event that no probe runs but the controller's (`Kept`). What runs after a move of an action is then
told by the handle alone (`probes_moveTask`). -/
namespace AgentDesk.Desk
open Session Function

/-- The handles that the probes that run were started with. -/
def handles (d : Desk) : List Liveness.Handle := d.probes.map Liveness.Probe.handle

theorem handle_woken (p : Liveness.Probe) : p.woken.handle = p.handle := by
  unfold Liveness.Probe.woken
  split <;> rfl

theorem handles_wake (d : Desk) (caller : Caller) : (d.wake caller).handles = d.handles := by
  cases caller with
  | task n => rfl
  | probe s =>
    simp only [handles, wake, List.map_map]
    congr 1
    funext p
    simp only [comp_apply]
    split
    · exact handle_woken p
    · rfl

theorem handles_wakeAll (callers : List Caller) (d : Desk) : (d.wakeAll callers).handles = d.handles := by
  induction callers generalizing d with
  | nil => rfl
  | cons caller callers ih => rw [wakeAll_cons, ih, handles_wake]

/-- The probe that runs is the one that the controller has the handle of, and there is no other. -/
def Kept (d : Desk) : Prop := d.handles = d.controller.probe.toList

/-- What runs once the controller has changed: the probe that did, unless its handle has gone, and the new one if there
is a new handle. -/
def probesUnder (d : Desk) (c : Controller) : List Liveness.Probe :=
  if c.probe = d.controller.probe then d.probes else (c.probe.map (.start · c.pingIntervalMs)).toList

section Under

variable {d d' : Desk} {c : Controller}

theorem probesUnder_of_same (h : c.probe = d.controller.probe) : d.probesUnder c = d.probes := if_pos h

theorem probesUnder_of_new (h : d.controller.probe = none) {k : Liveness.Handle} (hk : c.probe = some k) :
    d.probesUnder c = [.start k c.pingIntervalMs] := by
  rw [probesUnder, h, hk, if_neg nofun]
  rfl

theorem mem_probesUnder {p : Liveness.Probe} (h : p ∈ d.probesUnder c) :
    p ∈ d.probes ∨ c.probe ≠ d.controller.probe ∧ ∃ k, c.probe = some k ∧ p = .start k c.pingIntervalMs := by
  unfold probesUnder at h
  split at h
  · exact .inl h
  · next hnew =>
    obtain ⟨k, hk, hp⟩ := Option.map_eq_some_iff.mp (Option.mem_toList.mp h)
    exact .inr ⟨hnew, k, hk, hp.symm⟩

theorem probesUnder_congr (hp : d'.probes = d.probes) (hc : d'.controller = d.controller) (c : Controller) :
    d'.probesUnder c = d.probesUnder c := by
  rw [probesUnder, hp, hc, probesUnder]

end Under

section One

variable {d : Desk} {p q : Liveness.Probe}

theorem probe?_of_probes (h : d.probes = [p]) {serial : Nat} (hs : p.serial = serial) : d.probe? serial = some p := by
  simp [probe?, h, hs]

theorem probe?_of_other (h : d.probes = [p]) {serial : Nat} (hs : p.serial ≠ serial) : d.probe? serial = none := by
  simp [probe?, h, hs]

theorem probes_setProbe (h : d.probes = [p]) (hs : p.serial = q.serial) : (d.setProbe q).probes = [q] := by
  simp only [setProbe, h, List.map_singleton, if_pos hs]

theorem probes_wake (h : d.probes = [p]) : (d.wake (.probe p.serial)).probes = [p.woken] := by
  simp only [wake, h, List.map_singleton, if_true]

end One

namespace Kept

variable {d d' : Desk}

theorem transfer (h : d.Kept) (hh : d'.handles = d.handles) (hc : d'.controller.probe = d.controller.probe) :
    d'.Kept := by
  rw [Kept, hh, hc]
  exact h

theorem wakeAll (h : d.Kept) (callers : List Caller) : (d.wakeAll callers).Kept :=
  h.transfer (handles_wakeAll callers d) (congrArg (fun s : Scene => s.controller.probe) (scene_wakeAll callers d))

theorem of_mem (h : d.Kept) {p : Liveness.Probe} (hp : p ∈ d.probes) :
    d.probes = [p] ∧ d.controller.probe = some p.handle := by
  have hmem : p.handle ∈ d.controller.probe.toList := h ▸ List.mem_map_of_mem hp
  obtain hc := Option.mem_toList.mp hmem
  have hone : d.handles = [p.handle] := by rw [h, hc, Option.toList_some]
  obtain ⟨q, hq, -⟩ := List.map_eq_singleton_iff.mp hone
  rw [hq, List.mem_singleton] at hp
  exact ⟨by rw [hq, hp], hc⟩

theorem exists_of_handle (h : d.Kept) {k : Liveness.Handle} (hk : d.controller.probe = some k) :
    ∃ p, d.probes = [p] ∧ p.handle = k := by
  rw [Kept, handles, hk, Option.toList_some] at h
  exact List.map_eq_singleton_iff.mp h

/-- The handle tells what is pinged. -/
theorem channels (h : d.Kept) : d.probes.map (·.channel) = (d.controller.probe.map (·.channel)).toList := by
  have hmap : d.probes.map (·.channel) = d.handles.map (·.channel) := by rw [handles, List.map_map]; rfl
  rw [hmap, h]
  cases d.controller.probe <;> rfl

theorem none_iff (h : d.Kept) : d.probes = [] ↔ d.controller.probe = none := by
  rw [← Option.toList_eq_nil_iff, ← h, handles, List.map_eq_nil_iff]

/-- The probe of the handle that the controller has does run. -/
theorem isLive (h : d.Kept) : d.isLive = d.controller.probe.isSome := by
  unfold Desk.isLive
  cases hc : d.controller.probe with
  | none => rfl
  | some k =>
    obtain ⟨p, hp, rfl⟩ := h.exists_of_handle hc
    have hfound : d.probe? p.handle.serial = some p := probe?_of_probes hp rfl
    simp [hfound]

/-- Of a handle that is dropped the probe is aborted, so that none is left. -/
theorem abortProbe (h : d.Kept) : (d.abortProbe d.controller.probe).probes = [] := by
  cases hc : d.controller.probe with
  | none => exact h.none_iff.mpr hc
  | some k =>
    obtain ⟨p, hp, rfl⟩ := h.exists_of_handle hc
    simp [Desk.abortProbe, hp, Liveness.Probe.handle]

theorem probes_setController (h : d.Kept) (c : Controller) : (d.setController c).probes = d.probesUnder c := by
  unfold Desk.setController probesUnder
  split
  · rfl
  · cases hc : c.probe with
    | none => simp only [spawnProbe, h.abortProbe, Option.map_none, Option.toList_none]
    | some k => simp only [spawnProbe, h.abortProbe, List.nil_append, Option.map_some, Option.toList_some]

theorem handles_probesUnder (h : d.Kept) (c : Controller) :
    (d.probesUnder c).map Liveness.Probe.handle = c.probe.toList := by
  unfold probesUnder
  split
  · next hsame => rw [hsame]; exact h
  · cases c.probe <;> rfl

end Kept

/-! ## Moves -/

theorem probes_follow (d : Desk) (t : Task) (next : Controller × Next) :
    (putBack (d.follow t next)).probes = (d.setController next.1).probes ∧
      (putBack (d.follow t next)).controller = (d.setController next.1).controller := by
  obtain ⟨c, stage | r | _⟩ := next
  · exact ⟨rfl, rfl⟩
  · simp only [follow]
    rcases conclude_cases (d.setController c) t r with ⟨finished, hd, -⟩ | ⟨text, hd, -⟩
    · rw [hd]
      exact ⟨rfl, rfl⟩
    · rw [hd]
      exact ⟨rfl, rfl⟩
  · exact ⟨rfl, rfl⟩

theorem controller_setController (d : Desk) (c : Controller) : (d.setController c).controller = c := by
  obtain ⟨probes, ready, hd⟩ := setController_frame d c
  rw [hd]

namespace Kept

variable {d : Desk}

theorem setController (h : d.Kept) (c : Controller) : (d.setController c).Kept := by
  rw [Kept, handles, h.probes_setController, h.handles_probesUnder, controller_setController]

/-- A move of an action starts and aborts no probe but with its handle. -/
theorem probes_moveTask (h : d.Kept) (n : Nat) : (d.moveTask n).probes = d.probesUnder (d.moveTask n).controller := by
  unfold Desk.moveTask
  split
  · next t _ =>
    cases hc : (d.without n).cause? t with
    | some cause =>
      obtain ⟨-, d', hd, hstep⟩ := stepTask_of_cause hc
      have hcontroller : d'.controller = d.controller := congrArg Scene.controller hd.scene
      have hprobes : d'.probes = d.probes := hd.probes
      have hkept : d'.Kept := h.transfer (congrArg (List.map _) hprobes) (congrArg _ hcontroller)
      obtain ⟨hp, hc'⟩ := probes_follow d' t (cause.next (d.without n).controller (d.without n).store)
      rw [hstep, hp, hc', controller_setController, hkept.probes_setController, probesUnder_congr hprobes hcontroller]
    | none =>
      obtain ⟨d', position, hd, -, hstep⟩ := stepTask_of_wait hc
      have hcontroller : d'.controller = d.controller := congrArg Scene.controller hd.scene
      rw [hstep]
      exact hd.probes.trans (probesUnder_of_same (congrArg Controller.probe hcontroller)).symm
  · rw [probesUnder_of_same rfl]

theorem moveTask (h : d.Kept) (n : Nat) : (d.moveTask n).Kept := by
  rw [Kept, handles, h.probes_moveTask, h.handles_probesUnder]

theorem setProbe (h : d.Kept) {p q : Liveness.Probe} (hq : q ∈ d.probes) (hp : p.handle = q.handle) :
    (d.setProbe p).Kept := by
  obtain ⟨hone, hc⟩ := h.of_mem hq
  have hserial : q.serial = p.serial := congrArg Liveness.Handle.serial hp.symm
  rw [Kept, handles, probes_setProbe hone hserial, List.map_singleton, hp]
  exact hc ▸ rfl

theorem moveProbe (h : d.Kept) (serial : Nat) : (d.moveProbe serial).Kept := by
  unfold Desk.moveProbe
  split
  · next p hp =>
    obtain ⟨server, calls, timers, hd | ⟨phase, hd⟩⟩ := stepProbe_frame d p
    · rw [hd]
      exact h.transfer rfl rfl
    · rw [hd]
      have hd' : Kept { d with server := server, calls := calls, timers := timers } := h
      exact hd'.setProbe (p := { p with phase := phase }) (List.mem_of_find?_eq_some hp) rfl
  · exact h

theorem perform (h : d.Kept) (e : Event) : (d.perform e).Kept := by
  cases e with
  | move n => exact h.moveTask n
  | probe serial => exact h.moveProbe serial
  | release kind =>
    have hserver : Kept { d with server := (d.server.release kind).1 } := h
    exact hserver.wakeAll _
  | unlock =>
    have hlock : Kept { d with lock := d.lock.reopen.1 } := h
    exact hlock.wakeAll _
  | strike instant =>
    have hlater : Kept
        { d with clock := max d.clock instant, timers := d.timers.filter (¬ ·.due ≤ instant) } := h
    exact hlater.wakeAll _
  | _ => exact h.transfer rfl rfl

end Kept

end AgentDesk.Desk
