import AgentDesk.Proofs.Liveness.Onward

/-! # One ping a period

A server that answers at once, whatever it answers, is sent one ping a period (`AtOnce`), however the time is split. It
is the last part of what there is to know of the schedule of a probe (`keeps_time`). -/
namespace AgentDesk.Desk
open Session Liveness

/-! ## A server that answers at once -/

/-- The server lets every ping through and answers it, whatever the answer, without delay. -/
structure Server.IsPrompt (s : Server) : Prop where
  lets : s.keeps .ping = false
  at_once : s.ping.delayMs = 0

/-- Nothing is done to the server that keeps a ping waiting. -/
def Treatment.IsPrompt : Treatment → Prop
  | .script .ping s => s.delayMs = 0
  | .hold kind => kind ≠ .ping
  | _ => True

theorem Server.IsPrompt.setScript {s : Server} (h : s.IsPrompt) {kind : Wire.RequestKind} {script : Script}
    (ht : (Treatment.script kind script).IsPrompt) : (s.setScript kind script).IsPrompt := by
  cases kind with
  | ping => exact ⟨h.lets, ht⟩
  | _ => exact ⟨h.lets, h.at_once⟩

theorem Server.IsPrompt.hold {s : Server} (h : s.IsPrompt) {kind : Wire.RequestKind} (hkind : kind ≠ .ping) :
    (s.hold kind).IsPrompt := by
  unfold Server.hold
  split
  · exact h
  · have hlets := h.lets
    refine ⟨?_, h.at_once⟩
    simp only [keeps, List.contains_cons, beq_eq_false_iff_ne.mpr hkind.symm, Bool.false_or]
    exact hlets

theorem Server.IsPrompt.release {s : Server} (h : s.IsPrompt) (kind : Wire.RequestKind) :
    Server.IsPrompt { s with holds := s.holds.filter (· ≠ kind) } := by
  have hlets := h.lets
  refine ⟨?_, h.at_once⟩
  simp only [keeps, List.contains_eq_mem, decide_eq_false_iff_not] at hlets ⊢
  exact fun hmem => hlets (List.mem_of_mem_filter hmem)

/-- After a tick that is picked up when it is due, with a server that answers at once, the probe waits for the next. -/
theorem runProbe_of_prompt {d : Desk} {channel : String} {period : Nat}
    (hp : d.probes = [⟨0, channel, period, .waiting d.clock⟩]) (hserver : d.server.IsPrompt)
    (hperiod : 0 < period) (moves : Nat) :
    runProbe (moves + 3) 0 d =
      awaitTick { d with calls := d.calls ++ [.ping channel] } ⟨0, channel, period, .waiting d.clock⟩
        (d.clock + period) := by
  have hnext : nextDue period d.clock d.clock = d.clock + period := nextDue_of_le (Nat.le_add_right _ _)
  have hlater : ¬ d.clock + period ≤ d.clock := by omega
  simp only [runProbe, probe?, hp, List.find?_cons, decide_true, stepProbe, Nat.le_refl, if_true, Probe.tick, hnext,
    setProbe, List.map_singleton, converse, Wire.Request.kind, hserver.lets, Bool.false_eq_true, if_false,
    Server.script, hserver.at_once, if_neg hlater, awaitTick]

theorem settle_wake_of_prompt {d : Desk} {channel : String} {period : Nat}
    (hp : d.probes = [⟨0, channel, period, .waiting d.clock⟩]) (hready : d.ready = [])
    (hserver : d.server.IsPrompt) (hperiod : 0 < period) :
    (d.wake (.probe 0)).settle =
      awaitTick { d with calls := d.calls ++ [.ping channel] } ⟨0, channel, period, .waiting d.clock⟩
        (d.clock + period) := by
  have hsame : { d.wake (.probe 0) with ready := [] } = d := by
    have hprobes : (d.wake (.probe 0)).probes = d.probes := (probes_wake hp).trans hp.symm
    simp only [wake] at hprobes ⊢
    rw [hprobes, ← hready]
  have hcalled : (d.wake (.probe 0)).ready = [.probe 0] := by simp only [wake, hready, List.nil_append]
  have hturn := runProbe_of_prompt hp hserver hperiod 9
  rw [settle_of_call hcalled, hsame]
  · exact hturn
  · rw [hsame]
    exact (congrArg Desk.ready hturn).trans hready

/-- Every period so far saw one ping, which was answered at once. -/
structure AtOnce (channel : String) (ms start : Nat) (d : Desk) : Prop where
  rests : d.Rests
  server : d.server.IsPrompt
  waits : d.probes = [⟨0, channel, clampPeriod ms, .waiting (start + (d.calls.length + 1) * clampPeriod ms)⟩]
  calls : d.calls = List.replicate d.calls.length (.ping channel)
  since : start + d.calls.length * clampPeriod ms ≤ d.clock

namespace AtOnce

variable {channel : String} {ms start : Nat} {d : Desk}

/-- The desk waits for nothing but the tick after the last ping. -/
theorem awaits (h : AtOnce channel ms start d) :
    d.timers = [⟨start + (d.calls.length + 1) * clampPeriod ms, .probe 0⟩] ∧ d.server.kept = [] ∧
      d.clock < start + (d.calls.length + 1) * clampPeriod ms := by
  obtain ⟨p, hhosts, hawaits⟩ := h.rests
  obtain rfl := List.singleton_inj.mp (h.waits.symm.trans hhosts.probe)
  cases hawaits with
  | tick timers kept later => exact ⟨timers, kept, later⟩

theorem strike (h : AtOnce channel ms start d) {due : Nat} (hdue : d.nextDue? = some due) :
    AtOnce channel ms start (d.strike due).settle := by
  have hrests := (h.rests.strike hdue).1
  obtain ⟨htimers, hlater⟩ := nextDue?_eq_some h.rests hdue
  obtain ⟨hnext, hkept, -⟩ := h.awaits
  rw [htimers] at hnext
  obtain rfl : due = start + (d.calls.length + 1) * clampPeriod ms := by
    cases hnext
    rfl
  have hsettle := settle_wake_of_prompt
    (d := { d with clock := start + (d.calls.length + 1) * clampPeriod ms, timers := [] })
    h.waits h.rests.ready h.server (clampPeriod_pos ms)
  rw [strike_eq_wake htimers hlater, hsettle] at hrests ⊢
  have hlength : (d.calls ++ [Wire.Request.ping channel]).length = d.calls.length + 1 := by simp
  constructor
  case rests => exact hrests
  case server => exact h.server
  case waits =>
    have hdue : start + (d.calls.length + 1) * clampPeriod ms + clampPeriod ms =
        start + ((d.calls ++ [Wire.Request.ping channel]).length + 1) * clampPeriod ms := by
      rw [hlength, Nat.add_mul (d.calls.length + 1) 1, Nat.one_mul, Nat.add_assoc]
    have hone := probes_setProbe h.waits
      (q := ⟨0, channel, clampPeriod ms, .waiting (start + (d.calls.length + 1) * clampPeriod ms + clampPeriod ms)⟩) rfl
    exact hone.trans (congrArg (fun due => [Probe.mk 0 channel (clampPeriod ms) (.waiting due)]) hdue)
  case calls =>
    show d.calls ++ [.ping channel] = List.replicate (d.calls ++ [Wire.Request.ping channel]).length (.ping channel)
    rw [hlength, List.replicate_succ', ← h.calls]
  case since =>
    exact Nat.le_of_eq (congrArg (fun n => start + n * clampPeriod ms) hlength)

theorem treat (h : AtOnce channel ms start d) {t : Treatment} (ht : t.IsPrompt) :
    AtOnce channel ms start (d.treat t) := by
  have hrests := (h.rests.treat t).1
  cases t with
  | script kind script => exact { h with rests := hrests, server := h.server.setScript ht }
  | hold kind => exact { h with rests := hrests, server := h.server.hold ht }
  | release kind =>
    have hkept : ∀ x ∈ d.server.kept, x.1 ≠ kind := by
      rw [h.awaits.2.1]
      nofun
    have hready : (d.release kind).ready = [] := by
      rw [release_of_none hkept]
      exact h.rests.ready
    have htreat : d.treat (.release kind) =
        d.setServer { d.server with holds := d.server.holds.filter (· ≠ kind) } := by
      rw [Desk.treat, settle_of_idle hready, release_of_none hkept]
    rw [htreat] at hrests ⊢
    exact { h with rests := hrests, server := h.server.release kind }
  | advance ms =>
    have hpast := advance_invariant (I := AtOnce channel _ start) (fun _ hd => hd.rests) (fun _ _ hd => hd.strike) ?_
      h ms
    · exact hpast.1
    · intro d' later hd hle hdue
      exact { hd with rests := (hd.rests.pass hle hdue).1, since := Nat.le_trans hd.since hle }

/-- The pings so far are as many as the periods. -/
theorem count (h : AtOnce channel ms start d) : d.calls.length = (d.clock - start) / clampPeriod ms := by
  have hsince := h.since
  obtain ⟨-, -, hlater⟩ := h.awaits
  exact (Nat.div_eq_of_lt_le (by omega) (by omega)).symm

end AtOnce

/-- A new probe has sent no ping, and waits for its first tick. -/
theorem atOnce_launched (channel : String) (ms start : Nat) {server : Server} (hserver : server.IsPrompt) :
    AtOnce channel ms start (launched channel ms start server).settle := by
  have hcalls : (launched channel ms start server).settle.calls = [] := rfl
  constructor
  case rests => exact (rests_launched channel ms start server).1
  case server => exact ⟨hserver.lets, hserver.at_once⟩
  case waits =>
    rw [hcalls, List.length_nil, Nat.zero_add, Nat.one_mul]
    rfl
  case calls => rw [hcalls, List.length_nil, List.replicate_zero]
  case since =>
    rw [hcalls, List.length_nil, Nat.zero_mul]
    exact Nat.le_of_eq (clock_settle (launched channel ms start server)).symm

theorem atOnce_treated {channel : String} {ms start : Nat} {d : Desk} (h : AtOnce channel ms start d)
    {ts : List Treatment} (hts : ∀ t ∈ ts, t.IsPrompt) : AtOnce channel ms start (ts.foldl treat d) := by
  induction ts generalizing d with
  | nil => exact h
  | cons t ts ih =>
    obtain ⟨ht, hts⟩ := List.forall_mem_cons.mp hts
    exact ih (h.treat ht) hts

/-! ## The schedule of a probe -/

/-- How a probe keeps time, at any server and with any period asked for that is a whole number of milliseconds. Delays
and instants are whole milliseconds too: of a time between two of them nothing is said. -/
structure KeepsTime (channel : String) (ms start : Nat) (server : Server) : Prop where
  /-- The pings of every run are on schedule, whatever they are answered and however long it takes. -/
  runs : ∀ es, (launched channel ms start server).Punctual es →
    (Diary.after { desk := launched channel ms start server } es).Scheduled channel ms start
  /-- Whatever is done to the desk, and however the time is split, is such a run. -/
  treated : ∀ ts, (ts.foldl treat (launched channel ms start server).settle).clock = start + elapsed ts ∧
    ∃ es, (launched channel ms start server).Punctual es ∧
      (Diary.after { desk := launched channel ms start server } es).desk =
        ts.foldl treat (launched channel ms start server).settle
  /-- No answer is the last: wherever the probe is, the server lets go what it keeps and time passes, and there is
  another ping. -/
  goes_on : ∀ ts, ∃ more : List Treatment, (∀ t ∈ more, t.IsWait) ∧
    (ts.foldl treat (launched channel ms start server).settle).calls.length <
      ((ts ++ more).foldl treat (launched channel ms start server).settle).calls.length
  /-- With a server that answers at once, failures among the answers, the pings are as many as the whole periods. -/
  at_once : server.IsPrompt → ∀ ts : List Treatment, (∀ t ∈ ts, t.IsPrompt) →
    (ts.foldl treat (launched channel ms start server).settle).calls =
      List.replicate (elapsed ts / clampPeriod ms) (.ping channel)

theorem keeps_time (channel : String) (ms start : Nat) (server : Server) : KeepsTime channel ms start server := by
  obtain ⟨hrests, hruns⟩ := rests_launched channel ms start server
  have hclock (ts : List Treatment) :
      (ts.foldl treat (launched channel ms start server).settle).clock = start + elapsed ts := by
    rw [(hrests.treated ts).2.2, clock_settle]
    rfl
  constructor
  case runs =>
    intro es hes
    have hkept : (launched channel ms start server).Kept := rfl
    exact ((launched_onSchedule channel ms start server).after hes).scheduled (hkept.diary es)
  case treated =>
    intro ts
    obtain ⟨es, hes, hdesk⟩ := hruns.trans (hrests.treated ts).2.1
    exact ⟨hclock ts, es, hes, (Diary.desk_after _ es).trans hdesk⟩
  case goes_on =>
    intro ts
    obtain ⟨more, hmore, hcalls⟩ := (hrests.treated ts).1.exists_ping
    refine ⟨more, hmore, ?_⟩
    rw [List.foldl_append]
    exact hcalls
  case at_once =>
    intro hserver ts hts
    have honce := atOnce_treated (atOnce_launched channel ms start hserver) hts
    have hcount := honce.count
    rw [hclock ts, Nat.add_sub_cancel_left] at hcount
    rw [← hcount]
    exact honce.calls

/-- Pings that all fail, with the shortest period, and the time split where no tick is due. -/
example :
    ([.advance 250, .advance 100].foldl treat
      (launched "room" 0 0 { ping := { answer := .error (.decode "unreachable") } }).settle).calls.length = 3 := rfl

end AgentDesk.Desk
