import AgentDesk.Proofs.Session.Custody

/-! # The controller, its probe and the store agree on the session

Whatever is interleaved, between two actions the three say the same, and while an action waits for the server
they say what that action is about to change. What is said of the probe is said of the probe that runs, not of its
handle alone. -/
namespace AgentDesk.Desk
open Session

structure Consistent (d : Desk) : Prop where
  /-- The gate is held by an action under way and by nothing else. -/
  gate_free : d.controller.gate = .idle ↔ ∀ t ∈ d.tasks, t.holdsGate = false
  not_connecting : d.controller.gate = .idle → d.controller.state ≠ .connecting
  flag : d.controller.gate = .idle → (d.store.agentConnected = true ↔ d.controller.state = .connected)
  live : d.controller.gate = .idle → (d.isLive = true ↔ d.controller.state = .connected)
  /-- No probe runs but the controller's. -/
  kept : d.Kept
  starting : ∀ t ∈ d.tasks, ∀ p progress, t.position = .calling (.start p) progress →
    d.controller.gate = .inFlight ∧ d.controller.state = .connecting ∧ d.controller.probe = none ∧ d.probes = [] ∧
      d.store.agentConnected = false
  stopping : ∀ t ∈ d.tasks, ∀ channel progress, t.position = .calling (.stop channel) progress →
    d.controller.gate = .inFlight ∧ d.controller.state = .connected ∧ d.isLive = true ∧
      d.store.agentConnected = true

theorem Custody.gate_free {d : Desk} {held : Option Holding} (hn : d.Numbered) (h : Custody d.scene held) :
    d.controller.gate = .idle ↔ ∀ t ∈ d.tasks, t.holdsGate = false := by
  cases h with
  | free idle nobody rest =>
    refine ⟨fun _ t ht => ?_, fun _ => idle⟩
    rw [← t.holdsGate_post]
    exact nobody _ _ (hn.plan_of_mem ht)
  | taken n entry inFlight stands holds alone secured =>
    refine ⟨fun hi => ?_, fun hall => ?_⟩
    · change d.controller.gate = .inFlight at inFlight
      rw [hi] at inFlight
      cases inFlight
    · obtain ⟨t, ht, -, rfl⟩ := exists_mem_of_plan stands
      have := hall t ht
      rw [← t.holdsGate_post] at this
      exact absurd holds (by simp [Task.entry, this])

theorem Custody.rest {s : Scene} {held : Option Holding} (h : Custody s held) (hg : s.controller.gate = .idle) :
    AtRest held (signs s.controller s.store) := by
  cases h with
  | free idle nobody rest => exact rest
  | taken n entry inFlight =>
    rw [hg] at inFlight
    cases inFlight

/-- Nothing tells of a session any more. -/
structure Severed (c : Controller) (s : Store) : Prop where
  state : c.state = .disconnected
  session : c.session = none
  probe : c.probe = none
  gate : c.gate = .idle
  flag : s.agentConnected = false

theorem severed_of_down {c : Controller} {s : Store} (idle : c.gate = .idle) (h : signs c s = .down) : Severed c s := by
  simp only [signs, Signs.down, Signs.mk.injEq, Option.map_eq_none_iff] at h
  exact ⟨h.1, h.2.1, h.2.2.1, idle, h.2.2.2⟩

theorem Custody.severed {s : Scene} {held : Option Holding} (h : Custody s held) (idle : s.controller.gate = .idle)
    (apart : s.controller.state ≠ .connected) : Severed s.controller s.store :=
  severed_of_down idle ((h.rest idle).of_not_connected apart).1

/-- Nothing at a desk tells of a session any more, and no probe runs. -/
structure Vacant (d : Desk) : Prop extends Severed d.controller d.store where
  unprobed : d.probes = []

theorem Severed.vacant {d : Desk} (h : Severed d.controller d.store) (hkept : d.Kept) : d.Vacant :=
  ⟨h, hkept.none_iff.mpr h.probe⟩

theorem AtRest.agree {c : Controller} {s : Store} {held : Option Holding} (h : AtRest held (signs c s)) :
    (s.agentConnected = true ↔ c.state = .connected) ∧ (c.probe.isSome = true ↔ c.state = .connected) := by
  rw [← Option.isSome_map (f := fun k : Liveness.Handle => k.channel)]
  rcases h with ⟨h, -⟩ | ⟨h', h, -⟩
  · simp only [signs, Signs.down, Signs.mk.injEq] at h
    simp [h]
  · simp only [signs, Signs.up, Signs.mk.injEq] at h
    simp [h]

theorem Custody.secured {d : Desk} {held : Option Holding} (h : Custody d.scene held) (hn : d.Numbered) {t : Task}
    (ht : t ∈ d.tasks) (hh : t.holdsGate = true) :
    d.controller.gate = .inFlight ∧ Secured held (signs d.controller d.store) t.position.post := by
  rw [← t.holdsGate_post] at hh
  obtain ⟨hg, hs, -⟩ := h.holder (hn.plan_of_mem ht) hh
  exact ⟨hg, hs⟩

theorem secured_start {held : Option Holding} {s : Signs} {p : Wire.Params} {progress : Progress}
    (h : Secured held s (Position.calling (.start p) progress).post) : s = .starting := by
  cases progress <;> exact h.1

theorem secured_stop {held : Option Holding} {s : Signs} {channel : String} {progress : Progress}
    (h : Secured held s (Position.calling (.stop channel) progress).post) : ∃ h, s = .up h := by
  cases progress with
  | ready =>
    obtain ⟨h, hs, -⟩ := h
    exact ⟨h, hs⟩
  | _ => exact h.1

/-- After any events, in any order and with any answers, the state, the store's flag and the probe agree. -/
theorem consistent_after (o : Opening) (es : List Event) : (o.after es).desk.Consistent := by
  have hn := o.numbered es
  have hkept := (o.orderly es).kept
  have h := custody o es
  have hrest (hg : (o.after es).desk.controller.gate = .idle) := h.rest hg
  refine ⟨h.gate_free hn, fun hg => (hrest hg).not_connecting, fun hg => (hrest hg).agree.1,
    fun hg => hkept.isLive ▸ (hrest hg).agree.2, hkept, ?_, ?_⟩
  · intro t ht p progress hpos
    obtain ⟨hg, hs⟩ := h.secured hn ht (by simp only [Task.holdsGate, hpos]; rfl)
    have hsigns := secured_start (hpos ▸ hs)
    simp only [signs, Signs.starting, Signs.mk.injEq, Option.map_eq_none_iff] at hsigns
    exact ⟨hg, hsigns.1, hsigns.2.2.1, hkept.none_iff.mpr hsigns.2.2.1, hsigns.2.2.2⟩
  · intro t ht channel progress hpos
    obtain ⟨hg, hs⟩ := h.secured hn ht (by simp only [Task.holdsGate, hpos]; rfl)
    obtain ⟨s, hsigns⟩ := secured_stop (hpos ▸ hs)
    simp only [signs, Signs.up, Signs.mk.injEq] at hsigns
    refine ⟨hg, hsigns.1, ?_, hsigns.2.2.2⟩
    rw [hkept.isLive, ← Option.isSome_map, hsigns.2.2.1]
    rfl

end AgentDesk.Desk
