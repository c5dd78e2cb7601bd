import AgentDesk.Proofs.Desk.Time
import AgentDesk.Proofs.Liveness.Timetable
import AgentDesk.Proofs.Session.Period

/-! # When and what the probe pings

The schedule of a probe is measured from the moment at which its session was gained: the first tick is due a whole
period later, and each tick after it later still, however late it is picked up (`Paced`). With the one probe that runs
known to be the controller's, and the controller's that of the session that runs, every ping is of that session, at the
channel it was gained for, and at least one period old (`watched_after`). -/
namespace AgentDesk.Desk
open Session

/-! ## The schedule -/

/-- A schedule that is no earlier than one period after a given moment. -/
def PacedFrom (since period now : Nat) : Liveness.Phase → Prop
  | .fresh => True
  | .waiting due => since + period ≤ due
  | .pinging next _ => since + period ≤ now ∧ since + period ≤ next

def Paced (since : Nat) (d : Desk) : Prop :=
  ∀ p ∈ d.probes, PacedFrom since p.periodMs d.clock p.phase

theorem PacedFrom.later {since period now now' : Nat} {phase : Liveness.Phase} (h : PacedFrom since period now phase)
    (hle : now ≤ now') : PacedFrom since period now' phase := by
  cases phase with
  | fresh => trivial
  | waiting due => exact h
  | pinging next progress => exact ⟨Nat.le_trans h.1 hle, h.2⟩

/-- Whatever becomes of a schedule, a tick that is picked up when it is due, or later, sets the next one. -/
theorem PacedFrom.ticks {since period now : Nat} {phase phase' : Liveness.Phase}
    (h : PacedFrom since period now phase) (hle : since ≤ now) (ht : Liveness.Ticks period now phase phase') :
    PacedFrom since period now phase' := by
  have hnext {due : Nat} (hdue : since + period ≤ due) (past : due ≤ now) :
      since + period ≤ Liveness.nextDue period due now :=
    Nat.le_trans (Nat.le_add_right_of_le hdue) (Liveness.le_nextDue period past)
  cases ht with
  | stays => exact h
  | sets => exact Nat.add_le_add_right hle period
  | picksUp past => exact ⟨Nat.le_trans h past, hnext h past⟩
  | asks sent => exact h
  | rests later => exact h.2
  | catchesUp past => exact ⟨Nat.le_trans h.2 past, hnext h.2 past⟩

theorem Paced.perform {since : Nat} {d : Desk} (h : Paced since d) (hkept : d.Kept) (hle : since ≤ d.clock) {e : Event}
    (he : d.OnTime e) : Paced since (d.perform e) := by
  intro p' hp'
  cases (sequel_undergo hkept (.event e)).descent p' hp' with
  | started channel count => trivial
  | goesOn ran ticks => exact ((h _ ran).ticks hle ticks).later he.clock_le

/-! ## Every run -/

/-- A session that runs was gained there, and nothing was gained or torn down since. -/
structure Opening.GainedAt (o : Opening) (es : List Event) (session : Holding) (r : Chronicle) (x : Occurrence) :
    Prop where
  occurs : o.OccursAt es r x
  gain : x.gain? = some session
  since : ∃ after, (o.after es).past = r.past ++ x :: after ∧
    ∀ y ∈ after, y.gain? = none ∧ y.isTeardown = false

theorem Opening.GainedAt.snoc {o : Opening} {es : List Event} {session : Holding} {r : Chronicle} {x : Occurrence}
    (h : o.GainedAt es session r x) {e : Event}
    (hquiet : ∀ y, (o.after es).desk.occurs e = some y → y.gain? = none ∧ y.isTeardown = false) :
    o.GainedAt (es ++ [e]) session r x := by
  obtain ⟨after, hpast, hafter⟩ := h.since
  refine ⟨h.occurs.snoc e, h.gain, after ++ ((o.after es).desk.occurs e).toList, ?_, fun y hy => ?_⟩
  · rw [o.after_snoc, Chronicle.next, hpast, List.append_assoc, List.cons_append]
  · rcases List.mem_append.mp hy with hy | hy
    · exact hafter y hy
    · exact hquiet y (by simpa using hy)

theorem Opening.GainedAt.gains {o : Opening} {es : List Event} {session : Holding} {r : Chronicle} {x : Occurrence}
    (h : o.GainedAt es session r x) : gains (o.after es).past = gains r.past + 1 := by
  obtain ⟨after, hpast, hafter⟩ := h.since
  have hone : Desk.gains (x :: after) = 1 := by
    rw [← List.singleton_append, gains_append, gains_eq_zero fun y hy => (hafter y hy).1]
    simp [Desk.gains, h.gain]
  rw [hpast, gains_append, hone]

/-- A session was gained at some moment, and the probe is paced from there. -/
def Opening.PacedSince (o : Opening) (es : List Event) (session : Holding) : Prop :=
  ∃ r x, o.GainedAt es session r x ∧ r.desk.clock ≤ (o.after es).desk.clock ∧ Paced r.desk.clock (o.after es).desk

theorem Opening.PacedSince.snoc {o : Opening} {es : List Event} {session : Holding} (h : o.PacedSince es session)
    {e : Event} (he : (o.after es).desk.OnTime e)
    (hquiet : ∀ y, (o.after es).desk.occurs e = some y → y.gain? = none ∧ y.isTeardown = false) :
    o.PacedSince (es ++ [e]) session := by
  obtain ⟨r, x, hgained, hclock, hpaced⟩ := h
  refine ⟨r, x, hgained.snoc hquiet, ?_, ?_⟩
  · rw [o.after_snoc]
    exact Nat.le_trans hclock he.clock_le
  · rw [o.after_snoc]
    exact hpaced.perform (o.orderly es).kept hclock he

/-- The schedule of a new session begins when it is gained, as there is no probe yet. -/
theorem Opening.pacedSince_of_gain (o : Opening) (es : List Event) {e : Event} (he : (o.after es).desk.OnTime e)
    {x : Occurrence} (hx : (o.after es).desk.occurs e = some x) {session : Holding} (hgain : x.gain? = some session) :
    o.PacedSince (es ++ [e]) session := by
  have st := scene_perform (o.orderly es) e
  rw [hx] at st
  have hnone : (o.after es).desk.controller.probe = none :=
    (custody o es).no_probe_of_gain st (by rw [hgain]; exact Option.some_ne_none _)
  have hpaced : Paced (o.after es).desk.clock (o.after es).desk := fun p hp => by
    rw [(o.orderly es).kept.none_iff.mpr hnone] at hp
    cases hp
  refine ⟨o.after es, x, ⟨⟨es, e, [], rfl, rfl, hx⟩, hgain, [], ?_, ?_⟩, ?_, ?_⟩
  · rw [o.after_snoc, Chronicle.next, hx, Option.toList_some]
  · intro y hy
    cases hy
  · rw [o.after_snoc]
    exact he.clock_le
  · rw [o.after_snoc]
    exact hpaced.perform (o.orderly es).kept (Nat.le_refl _) he

/-- In a run that goes forward, the probe is paced from the moment at which the session that runs was gained. -/
theorem Opening.paced (o : Opening) (es : List Event) (hf : o.desk.Forward es) (session : Holding)
    (hruns : running (o.after es).past = some session) : o.PacedSince es session := by
  induction es using List.reverseRecOn generalizing session with
  | nil => cases hruns
  | append_singleton es e ih =>
    obtain ⟨hf, he⟩ := o.forward_snoc.mp hf
    rw [o.after_snoc, Chronicle.next] at hruns
    cases hx : (o.after es).desk.occurs e with
    | none =>
      rw [hx, Option.toList_none, List.append_nil] at hruns
      exact (ih hf session hruns).snoc he fun y hy => by rw [hx] at hy; cases hy
    | some x =>
      rw [hx, Option.toList_some, running_snoc, Occurrence.runs] at hruns
      cases hteardown : x.isTeardown with
      | true =>
        rw [hteardown] at hruns
        cases hruns
      | false =>
        rw [hteardown] at hruns
        cases hgain : x.gain? with
        | none =>
          rw [hgain] at hruns
          refine (ih hf session hruns).snoc he fun y hy => ?_
          rw [hx] at hy
          cases hy
          exact ⟨hgain, hteardown⟩
        | some gained =>
          rw [hgain] at hruns
          cases hruns
          exact o.pacedSince_of_gain es he hx hgain

theorem pinging_of_occurs {d : Desk} {e : Event} {serial : Nat} {request : Wire.Request}
    (h : d.occurs e = some (.sent (.probe serial) request)) :
    ∃ p next, p ∈ d.probes ∧ p.serial = serial ∧ p.phase = .pinging next .ready := by
  cases happens_of_occurs h with
  | pinged running due => exact ⟨_, _, running, rfl, due⟩

/-- A probe that was started may still send a ping, in some way for the run to go on. -/
def Opening.Alive (o : Opening) (es : List Event) (serial : Nat) : Prop :=
  serial < (o.after es).desk.controller.probes ∧
    ∃ more e request, (o.after (es ++ more)).desk.occurs e = some (.sent (.probe serial) request)

/-- What is true of the probes at the end of a run: of those that run, not of the handle alone. The probe of a session
has as its number how many sessions were gained before. -/
structure Opening.Watched (o : Opening) (es : List Event) : Prop where
  one_alive : ∀ serial, o.Alive es serial →
    ∃ p, (o.after es).desk.probes = [p] ∧ (o.after es).desk.controller.probe = some p.handle ∧ p.serial = serial
  ping : ∀ e serial request, (o.after es).desk.occurs e = some (.sent (.probe serial) request) →
    ∃ session r x, o.GainedAt es session r x ∧ request = .ping session.channel ∧ serial = gains r.past ∧
      r.desk.clock + Liveness.clampPeriod o.pingIntervalMs ≤ (o.after es).desk.clock
  torn_down : ∀ e n channel answer next,
    (o.after es).desk.occurs e = some (.resumed n (.hears (.stop channel) answer) next) →
      ((o.after es).desk.perform e).controller.probe = none ∧ ((o.after es).desk.perform e).probes = []
  never_again : ∀ before teardown between serial request after,
    (o.after es).past = before ++ teardown :: between ++ .sent (.probe serial) request :: after →
      teardown.isTeardown = true → gains before ≤ serial

/-- After any events in which time does not go back, in any order and with any answers: one probe at most is left to
ping, it pings the session that runs, no earlier than a period after that was gained, and the probe of a session that
was torn down pings no more. -/
theorem watched_after (o : Opening) (es : List Event) (hf : o.desk.Forward es) : o.Watched es := by
  have hwatching := o.watching es
  have hkept := (o.orderly es).kept
  refine ⟨fun serial ⟨hstarted, more, e, request, hx⟩ => ?_, fun e serial request hx => ?_,
    fun e n channel answer next hx => ?_, fun before teardown between serial request after hpast hteardown => ?_⟩
  · by_contra hnone
    have hgone : Gone serial (o.after es).desk.controller :=
      ⟨hstarted, fun k hk hserial => by
        obtain ⟨p, hp, rfl⟩ := hkept.exists_of_handle hk
        exact hnone ⟨p, hp, hk, hserial⟩⟩
    obtain ⟨p, _, hp, hserial, -⟩ := pinging_of_occurs hx
    exact (o.gone_append es hgone more).left _ ((o.orderly (es ++ more)).kept.of_mem hp).2 hserial
  · have st := scene_perform (o.orderly es) e
    rw [hx] at st
    obtain ⟨session, hruns, hrequest, hserial⟩ := hwatching.ping st
    obtain ⟨r, x, hgained, -, hpaced⟩ := o.paced es hf session hruns
    obtain ⟨p, next, hp, -, hphase⟩ := pinging_of_occurs hx
    have hgains := hgained.gains
    have hperiod : p.periodMs = Liveness.clampPeriod o.pingIntervalMs := ((o.steady es).probe p hp).1
    have hnow := hpaced p hp
    rw [hphase] at hnow
    refine ⟨session, r, x, hgained, hrequest, by omega, ?_⟩
    rw [← hperiod]
    exact hnow.1
  · have st := scene_perform (o.orderly es) e
    rw [hx] at st
    obtain ⟨-, hc, -⟩ := st.of_resumed
    have hnone : ((o.after es).desk.perform e).controller.probe = none := by
      cases answer <;> exact congrArg Controller.probe hc
    exact ⟨hnone, ((o.orderly es).perform e).kept.none_iff.mpr hnone⟩
  · have halong := o.along (I := fun s past => Watching s.controller past)
      (P := fun past x => ∀ serial request, x = .sent (.probe serial) request →
        (∃ session, running past = some session) ∧ serial + 1 = gains past)
      o.watching (fun s x s' past h st serial request hx => by
        obtain ⟨session, hruns, -, hserial⟩ := h.ping (hx ▸ st)
        exact ⟨⟨session, hruns⟩, hserial⟩) es
    obtain ⟨⟨session, hruns⟩, hserial⟩ := halong _ _ _ hpast serial request rfl
    have hsince := gains_pos_of_running hteardown hruns
    rw [gains_append, ← List.singleton_append, gains_append] at hserial
    omega

/-! ## The first ping -/

/-- A session is started and its first tick comes. -/
def untilFirstPing : List Event := alone 0 .connect 6 ++ [.probe 0, .strike 3000, .probe 0]

theorem watched_first_ping :
    furnished.Watched untilFirstPing ∧
      (furnished.after untilFirstPing).desk.occurs (.probe 0) = some (.sent (.probe 0) (.ping "room-1")) := by
  have hforward : furnished.desk.Forward untilFirstPing := by
    simp only [untilFirstPing, alone, List.replicate, List.cons_append, List.nil_append, Forward, OnTime, and_self]
  exact ⟨watched_after furnished untilFirstPing hforward, rfl⟩

end AgentDesk.Desk
