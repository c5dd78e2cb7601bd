import AgentDesk.Proofs.Desk.Settle
import AgentDesk.Proofs.Liveness.Timetable

/-! # The pings of a probe that runs

A probe runs at a desk of its own (`launched`), and its moves are written down with their times (`Diary`). Whatever the
server does meanwhile, the probe stands where the timetable of these times has it (`Diary.OnSchedule`). All that is
asked of a run is that time passes only while the probe waits, and a tick is picked up when it is due (`Timely`). -/
namespace AgentDesk

/-- The time may go from `now` to `later` before the probe has its next move. -/
def Liveness.Phase.Lasts (now later : Nat) : Liveness.Phase → Prop
  | waiting due => later ≤ due
  | pinging _ .held => True
  | pinging _ .delayed => True
  | _ => later = now

namespace Desk
open Session Liveness

/-- A desk with nothing but a probe, just started, at any time and with any server. -/
def launched (channel : String) (ms start : Nat) (server : Server) : Desk :=
  { ofProbe channel ms with clock := start, server := { server with kept := [] } }

/-! ## The diary -/

/-- A desk, and the times at which its pings were sent and answered. -/
structure Diary where
  desk : Desk
  sent : List Nat := []
  answered : List Nat := []

/-- The probe whose move it is, if that is the event. -/
def mover? (d : Desk) : Event → Option Probe
  | .probe serial => d.probe? serial
  | _ => none

/-- With its next move a probe takes up the answer to its ping. -/
def Server.answers (s : Server) (p : Probe) : Bool :=
  match p.phase with
  | .pinging _ progress => s.isReady progress
  | _ => false

def Diary.next (r : Diary) (e : Event) : Diary where
  desk := r.desk.perform e
  sent := if (r.desk.mover? e).any fun p => (occursToProbe p).isSome then r.sent ++ [r.desk.clock] else r.sent
  answered := if (r.desk.mover? e).any r.desk.server.answers then r.answered ++ [r.desk.clock] else r.answered

/-- The diary of a run. -/
def Diary.after (r : Diary) (es : List Event) : Diary := es.foldl Diary.next r

theorem Diary.desk_after (r : Diary) (es : List Event) : (r.after es).desk = es.foldl perform r.desk := by
  induction es generalizing r with
  | nil => rfl
  | cons e es ih => exact ih (r.next e)

/-- Nobody from outside has anything to do with the controller, and time passes only while the probe has no move to
make. -/
def Timely (d : Desk) : Event → Prop
  | .begin _ _ => False
  | .report => False
  | .strike instant => ∀ p ∈ d.probes, p.phase.Lasts d.clock (max d.clock instant)
  | .pass instant => d.clock ≤ instant ∧ ∀ p ∈ d.probes, p.phase.Lasts d.clock instant
  | _ => True

/-- Every event of a run is timely. -/
def Punctual (d : Desk) : List Event → Prop
  | [] => True
  | e :: es => d.Timely e ∧ (d.perform e).Punctual es

theorem punctual_append {d : Desk} {es fs : List Event} :
    d.Punctual (es ++ fs) ↔ d.Punctual es ∧ (es.foldl perform d).Punctual fs := by
  induction es generalizing d with
  | nil => simp [Punctual]
  | cons e es ih => simp only [List.cons_append, Punctual, ih, List.foldl_cons, and_assoc]

/-! ## What a run preserves -/

/-- Where the timetable has a probe, once pings were sent and answered at these times. -/
def Stands (period start now : Nat) (sent answered : List Nat) : Phase → Prop
  | .fresh => now = start ∧ sent = [] ∧ answered = []
  | .waiting due => sent.length = answered.length ∧ due = dueAfter period start sent ∧ now ≤ due
  | .pinging next .ready =>
    sent.length = answered.length ∧ next = dueAfter period start (sent ++ [now]) ∧
      now = max (dueAfter period start sent) (answered.getLastD start)
  | .pinging next _ => sent.length = answered.length + 1 ∧ next = dueAfter period start sent

theorem Stands.later {period start now later : Nat} {sent answered : List Nat} {phase : Phase}
    (h : Stands period start now sent answered phase) (hlasts : phase.Lasts now later) :
    Stands period start later sent answered phase := by
  cases phase with
  | fresh =>
    obtain rfl : later = now := hlasts
    exact h
  | waiting due => exact ⟨h.1, h.2.1, hlasts⟩
  | pinging next progress =>
    cases progress with
    | ready =>
      obtain rfl : later = now := hlasts
      exact h
    | _ => exact h

theorem Stands.woken {period start now : Nat} {sent answered : List Nat} {p : Probe}
    (h : Stands period start now sent answered p.phase) : Stands period start now sent answered p.woken.phase := by
  obtain ⟨serial, channel, _, phase⟩ := p
  cases phase with
  | fresh => exact h
  | waiting due => exact h
  | pinging next progress => cases progress <;> exact h

/-- A tick is picked up that was due by now, once the ping before was answered. -/
theorem Stands.tick {start now due : Nat} {sent answered : List Nat} {p : Probe}
    (hlength : sent.length = answered.length) (hdue : due = dueAfter p.periodMs start sent)
    (hnow : now = max due (answered.getLastD start)) :
    Stands p.periodMs start now sent answered (p.tick due now).phase := by
  subst hdue
  exact ⟨hlength, (dueAfter_snoc p.periodMs start sent now).symm, hnow⟩

/-- A ping whose answer is at hand is under way, and has been sent. -/
theorem Stands.of_isReady {period start now next : Nat} {sent answered : List Nat} {server : Server}
    {progress : Progress} (h : Stands period start now sent answered (.pinging next progress)) (serial : Nat)
    (channel : String) (hready : server.isReady progress = true) :
    occursToProbe ⟨serial, channel, period, .pinging next progress⟩ = none ∧
      sent.length = answered.length + 1 ∧ next = dueAfter period start sent := by
  cases progress with
  | ready => cases hready
  | _ => exact ⟨rfl, h⟩

/-- What holds of a diary: the probe runs, it stands where the timetable has it, and its pings are on the record. -/
structure Diary.OnSchedule (channel : String) (ms start : Nat) (r : Diary) : Prop where
  alone : r.desk.tasks = []
  stands : ∃ phase, r.desk.probes = [⟨0, channel, clampPeriod ms, phase⟩] ∧
    Stands (clampPeriod ms) start r.desk.clock r.sent r.answered phase
  calls : r.desk.calls = List.replicate r.sent.length (.ping channel)
  timetable : Timetable (clampPeriod ms) start r.sent r.answered
  started : start ≤ r.desk.clock
  sent_past : ∀ t ∈ r.sent, t ≤ r.desk.clock
  answered_past : ∀ t ∈ r.answered, t ≤ r.desk.clock

namespace Diary.OnSchedule

variable {channel : String} {ms start : Nat} {r : Diary}

/-- Nothing is written down while the probe gets no further in its timetable. -/
theorem transfer (h : OnSchedule channel ms start r) {d : Desk} (htasks : d.tasks = [])
    (hcalls : d.calls = r.desk.calls) (hclock : r.desk.clock ≤ d.clock)
    (hstands : ∃ phase, d.probes = [⟨0, channel, clampPeriod ms, phase⟩] ∧
      Stands (clampPeriod ms) start d.clock r.sent r.answered phase) :
    OnSchedule channel ms start { r with desk := d } where
  alone := htasks
  stands := hstands
  calls := hcalls.trans h.calls
  timetable := h.timetable
  started := Nat.le_trans h.started hclock
  sent_past := fun t ht => Nat.le_trans (h.sent_past t ht) hclock
  answered_past := fun t ht => Nat.le_trans (h.answered_past t ht) hclock

theorem wakeAll (h : OnSchedule channel ms start r) (callers : List Caller) :
    OnSchedule channel ms start { r with desk := r.desk.wakeAll callers } := by
  induction callers generalizing r with
  | nil => exact h
  | cons caller callers ih =>
    rw [wakeAll_cons]
    refine ih (r := { r with desk := r.desk.wake caller }) ?_
    obtain ⟨phase, hp, hstands⟩ := h.stands
    cases caller with
    | task n =>
      have htasks : (r.desk.wake (.task n)).tasks = [] := by simp only [wake, h.alone, List.map_nil]
      exact h.transfer htasks rfl (Nat.le_refl _) ⟨phase, hp, hstands⟩
    | probe serial =>
      refine h.transfer h.alone rfl (Nat.le_refl _) ?_
      simp only [wake, hp, List.map_singleton]
      split
      · have hwoken := hstands.woken (p := ⟨0, channel, clampPeriod ms, phase⟩)
        refine ⟨_, ?_, hwoken⟩
        cases phase <;> rfl
      · exact ⟨phase, rfl, hstands⟩

theorem last_le (h : OnSchedule channel ms start r) : r.answered.getLastD start ≤ r.desk.clock := by
  rw [List.getLastD_eq_getLast?]
  cases hlast : r.answered.getLast? with
  | none => exact h.started
  | some t => exact h.answered_past t (List.mem_of_getLast? hlast)

theorem next_probe {p : Probe} (hp : r.desk.probe? p.serial = some p) :
    r.next (.probe p.serial) =
      { desk := (r.desk.stepProbe p).1
        sent := if (occursToProbe p).isSome then r.sent ++ [r.desk.clock] else r.sent
        answered := if r.desk.server.answers p then r.answered ++ [r.desk.clock] else r.answered } := by
  simp only [Diary.next, perform, moveProbe, mover?, hp, Option.any_some]

/-- A ping is sent. -/
theorem send (h : OnSchedule channel ms start r) {next : Nat}
    (hp : r.desk.probes = [⟨0, channel, clampPeriod ms, .pinging next .ready⟩]) {d : Desk}
    (htasks : d.tasks = r.desk.tasks) (hcalls : d.calls = r.desk.calls ++ [.ping channel])
    (hclock : d.clock = r.desk.clock) {progress : Progress} (hprogress : progress ≠ .ready)
    (hd : d.probes = [⟨0, channel, clampPeriod ms, .pinging next progress⟩]) :
    OnSchedule channel ms start { r with desk := d, sent := r.sent ++ [r.desk.clock] } := by
  obtain ⟨phase, hphase, hstands⟩ := h.stands
  obtain rfl : Phase.pinging next .ready = phase := by simpa using hp.symm.trans hphase
  obtain ⟨heven, hnext, hnow⟩ := hstands
  have hsent : (r.sent ++ [r.desk.clock]).length = r.sent.length + 1 := by simp
  constructor
  case alone => exact htasks.trans h.alone
  case stands =>
    refine ⟨_, hd, ?_⟩
    have hodd : (r.sent ++ [r.desk.clock]).length = r.answered.length + 1 := by rw [hsent, heven]
    cases progress with
    | ready => exact absurd rfl hprogress
    | _ => exact ⟨hodd, hnext⟩
  case calls => rw [hcalls, h.calls, hsent, List.replicate_succ']
  case timetable => exact h.timetable.send heven hnow
  case started =>
    rw [hclock]
    exact h.started
  case sent_past =>
    intro t ht
    rw [hclock]
    rcases List.mem_append.mp ht with ht | ht
    · exact h.sent_past t ht
    · exact Nat.le_of_eq (List.mem_singleton.mp ht)
  case answered_past =>
    intro t ht
    rw [hclock]
    exact h.answered_past t ht

/-- A ping is answered. -/
theorem hear (h : OnSchedule channel ms start r) (hodd : r.sent.length = r.answered.length + 1) {d : Desk}
    (htasks : d.tasks = r.desk.tasks) (hcalls : d.calls = r.desk.calls) (hclock : d.clock = r.desk.clock)
    {phase : Phase} (hd : d.probes = [⟨0, channel, clampPeriod ms, phase⟩])
    (hstands : Stands (clampPeriod ms) start r.desk.clock r.sent (r.answered ++ [r.desk.clock]) phase) :
    OnSchedule channel ms start { r with desk := d, answered := r.answered ++ [r.desk.clock] } := by
  constructor
  case alone => exact htasks.trans h.alone
  case stands =>
    refine ⟨phase, hd, ?_⟩
    rw [hclock]
    exact hstands
  case calls => exact hcalls.trans h.calls
  case timetable => exact h.timetable.hear hodd h.sent_past
  case started =>
    rw [hclock]
    exact h.started
  case sent_past =>
    intro t ht
    rw [hclock]
    exact h.sent_past t ht
  case answered_past =>
    intro t ht
    rw [hclock]
    rcases List.mem_append.mp ht with ht | ht
    · exact h.answered_past t ht
    · exact Nat.le_of_eq (List.mem_singleton.mp ht)

/-- Whatever the probe's move is, it is the one that the timetable has next. -/
theorem probe (h : OnSchedule channel ms start r) (serial : Nat) :
    OnSchedule channel ms start (r.next (.probe serial)) := by
  obtain ⟨phase, hp, hstands⟩ := h.stands
  by_cases hserial : 0 = serial
  case neg =>
    have hnobody : r.desk.probe? serial = none := probe?_of_other hp hserial
    simp only [Diary.next, perform, moveProbe, mover?, hnobody]
    exact h
  subst hserial
  rw [next_probe (p := ⟨0, channel, clampPeriod ms, phase⟩) (probe?_of_probes hp rfl)]
  have hbeat := stepProbe_beat r.desk ⟨0, channel, clampPeriod ms, phase⟩
  generalize r.desk.stepProbe ⟨0, channel, clampPeriod ms, phase⟩ = result at hbeat ⊢
  cases hbeat with
  | sets fresh =>
    obtain rfl : phase = .fresh := fresh
    obtain ⟨hnow, hsent, hanswered⟩ := hstands
    subst hnow
    refine h.transfer h.alone rfl (Nat.le_refl _) ⟨_, probes_setProbe hp rfl, ?_⟩
    rw [hsent, hanswered]
    exact ⟨rfl, rfl, Nat.le_add_right _ _⟩
  | @early due waits later =>
    obtain rfl : phase = .waiting due := waits
    exact h
  | @ticks due waits past =>
    obtain rfl : phase = .waiting due := waits
    obtain ⟨heven, hdue, hnow⟩ := hstands
    -- Time did not pass the tick, so that it is picked up when it is due.
    have hlast := h.last_le
    exact h.transfer h.alone rfl (Nat.le_refl _) ⟨_, probes_setProbe hp rfl, Stands.tick heven hdue (by omega)⟩
  | @kept next sends keeps =>
    obtain rfl : phase = .pinging next .ready := sends
    exact h.send hp rfl rfl rfl (show Progress.held ≠ .ready by decide) (probes_setProbe hp rfl)
  | @heard next sends lets =>
    obtain rfl : phase = .pinging next .ready := sends
    exact h.send hp rfl rfl rfl (show Progress.heard ≠ .ready by decide) (probes_setProbe hp rfl)
  | @delayed next hears slow =>
    obtain rfl : phase = .pinging next .heard := hears
    have hsame : r.desk.server.answers ⟨0, channel, clampPeriod ms, .pinging next .heard⟩ = false := by
      simpa [Server.answers, Server.isReady] using slow
    rw [hsame]
    exact h.transfer h.alone rfl (Nat.le_refl _) ⟨_, probes_setProbe hp rfl, hstands⟩
  | @bides next progress pings stays =>
    obtain rfl : phase = .pinging next progress := pings
    rcases stays with rfl | rfl
    · exact h.transfer h.alone rfl (Nat.le_refl _) ⟨_, probes_setProbe hp rfl, hstands⟩
    · exact h.transfer h.alone rfl (Nat.le_refl _) ⟨_, probes_setProbe hp rfl, hstands⟩
  | @answered next progress pings ready later =>
    obtain rfl : phase = .pinging next progress := pings
    obtain ⟨hquiet, hodd, hnext⟩ := hstands.of_isReady 0 channel ready
    have hanswers : r.desk.server.answers ⟨0, channel, clampPeriod ms, .pinging next progress⟩ = true := ready
    have heven : r.sent.length = (r.answered ++ [r.desk.clock]).length := by simp [hodd]
    rw [hquiet, hanswers]
    exact h.hear hodd rfl rfl rfl (probes_setProbe hp rfl) ⟨heven, hnext, Nat.le_of_lt later⟩
  | @late next progress pings ready past =>
    obtain rfl : phase = .pinging next progress := pings
    obtain ⟨hquiet, hodd, hnext⟩ := hstands.of_isReady 0 channel ready
    have hanswers : r.desk.server.answers ⟨0, channel, clampPeriod ms, .pinging next progress⟩ = true := ready
    have heven : r.sent.length = (r.answered ++ [r.desk.clock]).length := by simp [hodd]
    -- The tick is past already, so that it is the answer that lets the next ping go.
    have hnow : r.desk.clock = max next ((r.answered ++ [r.desk.clock]).getLastD start) := by
      rw [List.getLastD_concat, Nat.max_eq_right past]
    rw [hquiet, hanswers]
    exact h.hear hodd rfl rfl rfl (probes_setProbe hp rfl) (Stands.tick heven hnext hnow)

theorem strike (h : OnSchedule channel ms start r) {instant : Nat} (he : r.desk.Timely (.strike instant)) :
    OnSchedule channel ms start (r.next (.strike instant)) := by
  obtain ⟨phase, hp, hstands⟩ := h.stands
  have hlater := h.transfer
    (d := { r.desk with
      clock := max r.desk.clock instant
      timers := r.desk.timers.filter (¬ ·.due ≤ instant) })
    h.alone rfl (Nat.le_max_left _ _) ⟨phase, hp, hstands.later (he _ (hp ▸ List.mem_singleton_self _))⟩
  exact hlater.wakeAll _

/-- A timely event leaves the probe on schedule. -/
theorem next (h : OnSchedule channel ms start r) {e : Event} (he : r.desk.Timely e) :
    OnSchedule channel ms start (r.next e) := by
  obtain ⟨phase, hp, hstands⟩ := h.stands
  cases e with
  | begin errand command => cases he
  | report => cases he
  | probe serial => exact h.probe serial
  | strike instant => exact h.strike he
  | pass instant =>
    have hlasts : phase.Lasts r.desk.clock instant :=
      he.2 ⟨0, channel, clampPeriod ms, phase⟩ (hp ▸ List.mem_singleton_self _)
    exact h.transfer h.alone rfl he.1 ⟨phase, hp, hstands.later hlasts⟩
  | move n =>
    have hnobody : r.desk.moveTask n = r.desk := by simp [moveTask, task?, h.alone]
    show OnSchedule channel ms start { r with desk := r.desk.moveTask n }
    rw [hnobody]
    exact h
  | glance n =>
    have hnobody : (r.desk.glance n).tasks = [] := by simp [glance, h.alone]
    exact h.transfer hnobody rfl (Nat.le_refl _) ⟨phase, hp, hstands⟩
  | release kind =>
    have hserver := h.transfer (d := { r.desk with server := (r.desk.server.release kind).1 }) h.alone rfl
      (Nat.le_refl _) ⟨phase, hp, hstands⟩
    exact hserver.wakeAll _
  | unlock =>
    have hlock := h.transfer (d := { r.desk with lock := r.desk.lock.reopen.1 }) h.alone rfl (Nat.le_refl _)
      ⟨phase, hp, hstands⟩
    exact hlock.wakeAll _
  | _ => exact h.transfer h.alone rfl (Nat.le_refl _) ⟨phase, hp, hstands⟩

theorem after (h : OnSchedule channel ms start r) {es : List Event} (hes : r.desk.Punctual es) :
    OnSchedule channel ms start (r.after es) := by
  induction es generalizing r with
  | nil => exact h
  | cons e es ih =>
    obtain ⟨he, hes⟩ := hes
    exact ih (h.next he) hes

end Diary.OnSchedule

/-- The schedule of a probe at the end of a run, with the first ping as the ping 0. -/
structure Diary.Scheduled (channel : String) (ms start : Nat) (r : Diary) : Prop where
  /-- Whatever it was answered, the probe runs, and it stands where the pings so far have it. -/
  runs_on : ∃ phase, r.desk.probes = [⟨0, channel, clampPeriod ms, phase⟩] ∧
    Stands (clampPeriod ms) start r.desk.clock r.sent r.answered phase
  handle : r.desk.controller.probe = some ⟨0, channel⟩
  pings : r.desk.calls = List.replicate r.sent.length (.ping channel)
  /-- The first ping is sent when it is due, and each later one when it is due and the one before was answered. -/
  timetable : Timetable (clampPeriod ms) start r.sent r.answered
  not_early : ∀ k t : Nat, r.sent[k]? = some t → start + (k + 1) * clampPeriod ms ≤ t
  count : r.sent.length ≤ (r.desk.clock - start) / clampPeriod ms
  apart : ∀ k t t' : Nat, r.sent[k]? = some t → r.sent[k + 1]? = some t' → t + clampPeriod ms ≤ t' + toleranceMs
  /-- Answers that come in time for the next tick leave the schedule where it was. -/
  no_drift : ∀ n ≤ r.sent.length,
    (∀ k a : Nat, k + 1 < n → r.answered[k]? = some a →
      a ≤ dueAt (clampPeriod ms) start r.sent (k + 1) + toleranceMs) →
    dueAt (clampPeriod ms) start r.sent n = start + (n + 1) * clampPeriod ms
  /-- Once a ping was answered, however it was, the next is sent before it is later than it is due. -/
  goes_on : r.sent.length = r.answered.length →
    r.desk.clock ≤ max (dueAfter (clampPeriod ms) start r.sent) (r.answered.getLastD start)

theorem Stands.le_of_answered {period start now : Nat} {sent answered : List Nat} {phase : Phase}
    (h : Stands period start now sent answered phase) (heven : sent.length = answered.length) :
    now ≤ max (dueAfter period start sent) (answered.getLastD start) := by
  cases phase with
  | fresh =>
    obtain ⟨rfl, rfl, -⟩ := h
    exact Nat.le_trans (Nat.le_add_right _ _) (Nat.le_max_left _ _)
  | waiting due =>
    obtain ⟨-, rfl, hnow⟩ := h
    exact Nat.le_trans hnow (Nat.le_max_left _ _)
  | pinging next progress =>
    cases progress with
    | ready => exact Nat.le_of_eq h.2.2
    | _ =>
      have hodd := h.1
      omega

theorem Diary.OnSchedule.scheduled {channel : String} {ms start : Nat} {r : Diary} (h : r.OnSchedule channel ms start)
    (hkept : r.desk.Kept) : r.Scheduled channel ms start where
  runs_on := h.stands
  handle := by
    obtain ⟨phase, hp, -⟩ := h.stands
    exact (hkept.of_mem (p := ⟨0, channel, clampPeriod ms, phase⟩) (hp ▸ List.mem_singleton_self _)).2
  pings := h.calls
  timetable := h.timetable
  not_early := fun _ _ => h.timetable.not_early
  count := h.timetable.length_le (clampPeriod_pos ms) h.sent_past
  apart := fun _ _ _ => h.timetable.apart
  no_drift := fun _ hn => h.timetable.no_drift hn
  goes_on := by
    intro heven
    obtain ⟨phase, -, hstands⟩ := h.stands
    exact hstands.le_of_answered heven

theorem Kept.diary {r : Diary} (h : r.desk.Kept) (es : List Event) : (r.after es).desk.Kept := by
  induction es generalizing r with
  | nil => exact h
  | cons e es ih => exact ih (r := r.next e) (h.perform e)

/-- A new probe has its whole schedule before it. -/
theorem launched_onSchedule (channel : String) (ms start : Nat) (server : Server) :
    Diary.OnSchedule channel ms start { desk := launched channel ms start server } where
  alone := rfl
  stands := ⟨.fresh, rfl, rfl, rfl, rfl⟩
  calls := rfl
  timetable := .nil _ start
  started := Nat.le_refl start
  sent_past := fun _ h => nomatch h
  answered_past := fun _ h => nomatch h

end Desk

end AgentDesk
