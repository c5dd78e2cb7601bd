import AgentDesk.Proofs.Liveness.Schedule
import Mathlib.Algebra.GroupWithZero.Nat

/-! # Time passes at the desk of a probe

Between what is done to its desk a probe rests: it waits for its tick, or the server has its ping (`Rests`). From there
the clock goes from one timer to the next, and the probe has its turn at each. So whatever is done, and however the time
is split, is a run in which the probe is punctual (`Rests.treated`). -/
namespace AgentDesk.Desk
open Session Liveness

/-! ## Turns of the probe -/

/-- The probe is all there is at the desk, and nobody is called up. -/
structure Hosts (d : Desk) (p : Probe) : Prop where
  probe : d.probes = [p]
  tasks : d.tasks = []
  ready : d.ready = []
  serial : p.serial = 0
  period : toleranceMs < p.periodMs

/-- What a probe waits for that has no move to make: its tick, the server to let its ping through, or the answer. -/
inductive Awaits (d : Desk) : Phase → Prop
  | tick {due : Nat} (timers : d.timers = [⟨due, .probe 0⟩]) (kept : d.server.kept = []) (later : d.clock < due) :
      Awaits d (.waiting due)
  | release {next : Nat} (timers : d.timers = []) (kept : d.server.kept = [(.ping, .probe 0)]) :
      Awaits d (.pinging next .held)
  | answer {next due : Nat} (timers : d.timers = [⟨due, .probe 0⟩]) (kept : d.server.kept = [])
      (later : d.clock < due) : Awaits d (.pinging next .delayed)

/-- The probe has a move to make. -/
def GoesOn (now : Nat) : Phase → Prop
  | .waiting due => due ≤ now
  | .pinging _ .held => False
  | .pinging _ .delayed => False
  | _ => True

/-- Nobody at the desk can go on. -/
def Rests (d : Desk) : Prop := ∃ p, d.Hosts p ∧ d.Awaits p.phase

/-- The probe is called up, and nothing else is expected at the desk. -/
structure Called (d : Desk) (p : Probe) : Prop extends d.Hosts p where
  timers : d.timers = []
  kept : d.server.kept = []
  goes_on : GoesOn d.clock p.phase

/-- How many moves are left, at most. After a late answer, the tick that is picked up at once sets the next one to a
time to come. -/
def movesLeft (now : Nat) : Phase → Nat
  | .pinging next progress => (if next ≤ now then 4 else 0) + if progress = .ready then 2 else 1
  | _ => 3

theorem movesLeft_tick {p : Probe} (hperiod : toleranceMs < p.periodMs) (due now : Nat) :
    movesLeft now (p.tick due now).phase = 2 := by
  have hnext : ¬ nextDue p.periodMs due now ≤ now := Nat.not_le_of_lt (lt_nextDue hperiod due now)
  simp only [Probe.tick, movesLeft, if_neg hnext, if_true, Nat.zero_add]

/-- What has become of a desk after one of a number of moves: the probe has one move less to make, or it rests. -/
def Progresses (left : Nat) : Desk × Bool → Prop
  | (d, true) => ∃ p, d.Called p ∧ movesLeft d.clock p.phase < left
  | (d, false) => d.Rests

theorem Called.beat {d : Desk} {p : Probe} (h : d.Called p) {result : Desk × Bool} (hbeat : Beat d p result) :
    Progresses (movesLeft d.clock p.phase) result := by
  obtain ⟨⟨hp, htasks, hready, hserial, hperiod⟩, htimers, hkept, hgo⟩ := h
  have hpos : 0 < p.periodMs := Nat.lt_of_le_of_lt (Nat.zero_le _) hperiod
  have hone {q : Probe} (hq : p.serial = q.serial) : (d.setProbe q).probes = [q] := probes_setProbe hp hq
  cases hbeat with
  | sets fresh =>
    refine ⟨_, ⟨hone rfl, htasks, hready, hserial, hperiod⟩, .tick ?_ hkept (Nat.lt_add_of_pos_right hpos)⟩
    simp only [awaitTick, setProbe, htimers, hserial, List.nil_append]
  | early waits later =>
    rw [waits] at hgo
    exact absurd hgo (Nat.not_le_of_lt later)
  | @ticks due waits past =>
    refine ⟨_, ⟨⟨hone rfl, htasks, hready, hserial, hperiod⟩, htimers, hkept, trivial⟩, ?_⟩
    rw [waits]
    exact Nat.lt_of_le_of_lt (Nat.le_of_eq (movesLeft_tick hperiod due d.clock)) (Nat.lt_succ_self 2)
  | kept sends keeps =>
    refine ⟨_, ⟨hone rfl, htasks, hready, hserial, hperiod⟩, .release htimers ?_⟩
    simp only [setProbe, hkept, hserial, List.nil_append]
  | heard sends lets =>
    refine ⟨_, ⟨⟨hone rfl, htasks, hready, hserial, hperiod⟩, htimers, hkept, trivial⟩, ?_⟩
    rw [sends]
    exact Nat.add_lt_add_left (Nat.lt_succ_self 1) _
  | delayed hears slow =>
    have hlater : d.clock < d.clock + d.server.ping.delayMs := Nat.lt_add_of_pos_right (Nat.pos_of_ne_zero slow)
    refine ⟨_, ⟨hone rfl, htasks, hready, hserial, hperiod⟩, .answer ?_ hkept hlater⟩
    simp only [startTimer, setProbe, htimers, hserial, List.nil_append]
  | bides pings stays =>
    rw [pings] at hgo
    rcases stays with rfl | rfl
    · exact hgo.elim
    · exact hgo.elim
  | answered pings ready later =>
    refine ⟨_, ⟨hone rfl, htasks, hready, hserial, hperiod⟩, .tick ?_ hkept later⟩
    simp only [awaitTick, setProbe, htimers, hserial, List.nil_append]
  | @late next progress pings ready past =>
    refine ⟨_, ⟨⟨hone rfl, htasks, hready, hserial, hperiod⟩, htimers, hkept, trivial⟩, ?_⟩
    rw [pings]
    have hleft : 4 < movesLeft d.clock (.pinging next progress) := by
      simp only [movesLeft, if_pos past]
      split <;> omega
    exact Nat.lt_of_le_of_lt (Nat.le_of_eq (movesLeft_tick hperiod next d.clock)) (by omega)

/-- A probe that is called up and has moves enough rests at the end of its turn. -/
theorem Called.rests_runProbe {d : Desk} {p : Probe} (h : d.Called p) {moves : Nat}
    (hmoves : movesLeft d.clock p.phase < moves) : (runProbe moves 0 d).Rests := by
  induction moves generalizing d p with
  | zero => cases hmoves
  | succ moves ih =>
    have hbeat := h.beat (stepProbe_beat d p)
    simp only [runProbe, probe?_of_probes h.probe h.serial]
    generalize d.stepProbe p = result at hbeat ⊢
    obtain ⟨d', more⟩ := result
    cases more with
    | true =>
      obtain ⟨p', hcalled, hleft⟩ := hbeat
      exact ih hcalled (by omega)
    | false => exact hbeat

theorem movesLeft_le (now : Nat) (phase : Phase) : movesLeft now phase ≤ 6 := by
  unfold movesLeft
  split
  · split <;> split <;> omega
  · omega

theorem turns_of_idle {d : Desk} (h : d.ready = []) (n : Nat) : turns n d = d := by
  cases n with
  | zero => rfl
  | succ n => rw [turns, h]

theorem settle_of_idle {d : Desk} (h : d.ready = []) : d.settle = d := turns_of_idle h d.turnBound

theorem Rests.ready {d : Desk} (h : d.Rests) : d.ready = [] := by
  obtain ⟨p, hhosts, -⟩ := h
  exact hhosts.ready

/-- A desk where the probe is called up settles with one turn of the probe. -/
theorem settle_of_call {d : Desk} (hready : d.ready = [.probe 0])
    (hrests : (runProbe probeMoves 0 { d with ready := [] }).ready = []) :
    d.settle = runProbe probeMoves 0 { d with ready := [] } := by
  show turns (d.ready.length + 16 * d.tasks.length + 15 + 1) d = _
  rw [turns, hready]
  exact turns_of_idle hrests _

theorem Called.enough {d : Desk} {p : Probe} (_ : d.Called p) : movesLeft d.clock p.phase < probeMoves :=
  Nat.lt_of_le_of_lt (movesLeft_le _ _) (by decide)

theorem Called.settle {d : Desk} {p : Probe} (h : Called { d with ready := [] } p) (hready : d.ready = [.probe 0]) :
    d.settle = runProbe probeMoves 0 { d with ready := [] } :=
  settle_of_call hready (h.rests_runProbe h.enough).ready

theorem Called.rests_settle {d : Desk} {p : Probe} (h : Called { d with ready := [] } p)
    (hready : d.ready = [.probe 0]) : d.settle.Rests := by
  rw [h.settle hready]
  exact h.rests_runProbe h.enough

/-! ## From one timer to the next -/

/-- Punctual events lead from one desk to the other. -/
def Runs (d d' : Desk) : Prop := ∃ es, d.Punctual es ∧ es.foldl perform d = d'

theorem Runs.refl (d : Desk) : d.Runs d := ⟨[], trivial, rfl⟩

theorem Runs.trans {d d' d'' : Desk} (h : d.Runs d') (h' : d'.Runs d'') : d.Runs d'' := by
  obtain ⟨es, hes, rfl⟩ := h
  obtain ⟨es', hes', rfl⟩ := h'
  exact ⟨es ++ es', punctual_append.mpr ⟨hes, hes'⟩, List.foldl_append⟩

theorem Timely.runs {d : Desk} {e : Event} (h : d.Timely e) : d.Runs (d.perform e) := ⟨[e], ⟨h, trivial⟩, rfl⟩

theorem Moves.runs {d d' : Desk} (h : d.Moves d') : d.Runs d' := by
  obtain ⟨es, hes, rfl⟩ := h
  induction es generalizing d with
  | nil => exact .refl d
  | cons e es ih =>
    obtain ⟨he, hes⟩ := List.forall_mem_cons.mp hes
    have hfirst : d.Runs (d.perform e) := by
      cases e with
      | move n => exact Timely.runs (e := .move n) trivial
      | probe serial => exact Timely.runs (e := .probe serial) trivial
      | call => exact Timely.runs (e := .call) trivial
      | _ => cases he
    exact hfirst.trans (ih hes)

/-- Turns after a timely event take no time. -/
theorem Timely.runs_settle {d : Desk} {e : Event} (h : d.Timely e) (hn : d.Numbered) : d.Runs (d.perform e).settle :=
  h.runs.trans (hn.perform e).moves_settle.runs

/-- Where nobody has a number, all numbers are in order. -/
theorem Rests.numbered {d : Desk} (h : d.Rests) : d.Numbered := by
  obtain ⟨p, hhosts, -⟩ := h
  have hnone : d.numbers = [] := by rw [numbers, hhosts.tasks, List.map_nil]
  exact ⟨hnone ▸ List.nodup_nil, fun n hn => by rw [hnone] at hn; cases hn⟩

/-- What the clock is to go to next from a desk that rests, if there is anything. -/
theorem Rests.timers {d : Desk} (h : d.Rests) :
    d.timers = [] ∨ ∃ due, d.timers = [⟨due, .probe 0⟩] ∧ d.clock < due := by
  obtain ⟨⟨_, _, _, phase⟩, -, hawaits⟩ := h
  cases hawaits with
  | tick timers kept later => exact .inr ⟨_, timers, later⟩
  | release timers kept => exact .inl timers
  | answer timers kept later => exact .inr ⟨_, timers, later⟩

theorem nextDue?_eq_some {d : Desk} {due : Nat} (h : d.Rests) (hdue : d.nextDue? = some due) :
    d.timers = [⟨due, .probe 0⟩] ∧ d.clock < due := by
  rcases h.timers with htimers | ⟨due', htimers, hlater⟩
  · rw [nextDue?, htimers] at hdue
    cases hdue
  · rw [nextDue?, htimers] at hdue
    cases hdue
    exact ⟨htimers, hlater⟩

/-- What is so of a desk that rests, and stays so from one timer to the next and while nothing is due, is so after any
time. -/
theorem advance_invariant {I : Desk → Prop} (hrests : ∀ d, I d → d.Rests)
    (hstrike : ∀ d due, I d → d.nextDue? = some due → I (d.strike due).settle)
    (hpass : ∀ d later, I d → d.clock ≤ later → (∀ due, d.nextDue? = some due → later < due) →
      I { d with clock := later })
    {d : Desk} (h : I d) (ms : Nat) : I (d.advance ms) ∧ (d.advance ms).clock = d.clock + ms := by
  -- No two strikes are at the same instant, so one more than there are instants left is enough.
  suffices ∀ strikes target, ∀ d, I d → d.clock ≤ target → target - d.clock < strikes →
      I (advanceTo strikes target d) ∧ (advanceTo strikes target d).clock = target from
    this (ms + 2) (d.clock + ms) d h (Nat.le_add_right _ _) (by omega)
  intro strikes target
  induction strikes with
  | zero =>
    intro d _ _ hfuel
    cases hfuel
  | succ strikes ih =>
    intro d hd hle hfuel
    rw [advanceTo]
    split
    · next due hdue =>
      split
      · next hin =>
        have hlater := (nextDue?_eq_some (hrests d hd) hdue).2
        have hclock : (d.strike due).settle.clock = max d.clock due := (clock_settle _).trans (clock_wakeAll _ _)
        exact ih _ (hstrike d due hd hdue) (by omega) (by omega)
      · next hout =>
        refine ⟨hpass d target hd hle fun due' hdue' => ?_, rfl⟩
        rw [hdue] at hdue'
        cases hdue'
        exact Nat.lt_of_not_le hout
    · next hnone =>
      refine ⟨hpass d target hd hle fun due' hdue' => ?_, rfl⟩
      rw [hnone] at hdue'
      cases hdue'

/-- A timer that strikes calls up the probe. -/
theorem strike_eq_wake {d : Desk} {due : Nat} (htimers : d.timers = [⟨due, .probe 0⟩]) (hlater : d.clock < due) :
    d.strike due = wake { d with clock := due, timers := [] } (.probe 0) := by
  simp only [Desk.strike, htimers, Nat.max_eq_right (Nat.le_of_lt hlater), List.filter_cons, List.filter_nil,
    Nat.le_refl, decide_true, not_true, decide_false, if_true, if_false, Bool.false_eq_true, List.map_cons,
    List.map_nil, wakeAll_cons]
  rfl

/-- The probe is called up once what it waits for has come. -/
theorem Hosts.called_wake {d : Desk} {p : Probe} (h : d.Hosts p) (htimers : d.timers = []) (hkept : d.server.kept = [])
    (hgo : GoesOn d.clock p.woken.phase) :
    Called { d.wake (.probe 0) with ready := [] } p.woken ∧ (d.wake (.probe 0)).ready = [.probe 0] := by
  have hsame : p.woken.serial = p.serial ∧ p.woken.periodMs = p.periodMs := by
    obtain ⟨_, _, _, phase⟩ := p
    cases phase <;> exact ⟨rfl, rfl⟩
  refine ⟨⟨⟨?_, h.tasks, rfl, hsame.1.trans h.serial, ?_⟩, htimers, hkept, hgo⟩, ?_⟩
  · have hwoken := probes_wake h.probe
    rw [h.serial] at hwoken
    exact hwoken
  · rw [hsame.2]
    exact h.period
  · simp only [wake, h.ready, List.nil_append]

theorem Hosts.called_strike {d : Desk} {p : Probe} (h : d.Hosts p) (hawaits : d.Awaits p.phase) {due : Nat}
    (htimers : d.timers = [⟨due, .probe 0⟩]) (hlater : d.clock < due) :
    Called { d.strike due with ready := [] } p.woken ∧ (d.strike due).ready = [.probe 0] ∧
      p.phase.Lasts d.clock due := by
  have hgo : d.server.kept = [] ∧ GoesOn due p.woken.phase ∧ p.phase.Lasts d.clock due := by
    obtain ⟨_, _, _, phase⟩ := p
    cases hawaits with
    | tick timers kept later =>
      rw [htimers] at timers
      cases timers
      exact ⟨kept, Nat.le_refl due, Nat.le_refl due⟩
    | release timers kept =>
      rw [htimers] at timers
      cases timers
    | answer timers kept later => exact ⟨kept, trivial, trivial⟩
  have hat : Hosts { d with clock := due, timers := [] } p := { h with }
  obtain ⟨hcalled, hready⟩ := hat.called_wake rfl hgo.1 hgo.2.1
  rw [strike_eq_wake htimers hlater]
  exact ⟨hcalled, hready, hgo.2.2⟩

/-- The probe has its turn when its timer strikes. -/
theorem Rests.strike {d : Desk} (h : d.Rests) {due : Nat} (hdue : d.nextDue? = some due) :
    (d.strike due).settle.Rests ∧ d.Runs (d.strike due).settle := by
  obtain ⟨htimers, hlater⟩ := nextDue?_eq_some h hdue
  have hnumbered := h.numbered
  obtain ⟨p, hhosts, hawaits⟩ := h
  obtain ⟨hcalled, hready, hlasts⟩ := hhosts.called_strike hawaits htimers hlater
  have htimely : d.Timely (.strike due) := by
    intro p' hp'
    rw [hhosts.probe, List.mem_singleton] at hp'
    subst hp'
    rw [Nat.max_eq_right (Nat.le_of_lt hlater)]
    exact hlasts
  exact ⟨hcalled.rests_settle hready, htimely.runs_settle hnumbered⟩

/-- While nothing is due, the probe rests on. -/
theorem Rests.pass {d : Desk} (h : d.Rests) {later : Nat} (hle : d.clock ≤ later)
    (hdue : ∀ due, d.nextDue? = some due → later < due) :
    Rests { d with clock := later } ∧ d.Runs { d with clock := later } := by
  obtain ⟨p, hhosts, hawaits⟩ := h
  have hat : Hosts { d with clock := later } p := { hhosts with }
  have htimely : Awaits { d with clock := later } p.phase ∧ p.phase.Lasts d.clock later := by
    obtain ⟨_, _, _, phase⟩ := p
    have hnext {due : Nat} (htimers : d.timers = [⟨due, .probe 0⟩]) : later < due :=
      hdue due (by rw [nextDue?, htimers]; rfl)
    cases hawaits with
    | tick timers kept _ => exact ⟨.tick timers kept (hnext timers), Nat.le_of_lt (hnext timers)⟩
    | release timers kept => exact ⟨.release timers kept, trivial⟩
    | answer timers kept _ => exact ⟨.answer timers kept (hnext timers), trivial⟩
  refine ⟨⟨p, hat, htimely.1⟩, Timely.runs (e := .pass later) ⟨hle, ?_⟩⟩
  intro p' hp'
  rw [hhosts.probe, List.mem_singleton] at hp'
  subst hp'
  exact htimely.2

/-- Whatever time passes, the probe is punctual. -/
theorem Rests.advance {d : Desk} (h : d.Rests) (ms : Nat) :
    ((d.advance ms).Rests ∧ d.Runs (d.advance ms)) ∧ (d.advance ms).clock = d.clock + ms := by
  refine advance_invariant (I := fun d' => d'.Rests ∧ d.Runs d') (fun _ hd => hd.1) ?_ ?_ ⟨h, .refl d⟩ ms
  · intro d' due hd hdue
    obtain ⟨hrests, hruns⟩ := hd.1.strike hdue
    exact ⟨hrests, hd.2.trans hruns⟩
  · intro d' later hd hle hdue
    obtain ⟨hrests, hruns⟩ := hd.1.pass hle hdue
    exact ⟨hrests, hd.2.trans hruns⟩

/-! ## All that is done to the desk -/

/-- What may be done to a desk while its probe runs. -/
inductive Treatment where
  | script (kind : Wire.RequestKind) (script : Script)
  | hold (kind : Wire.RequestKind)
  | release (kind : Wire.RequestKind)
  | advance (ms : Nat)

def treat (d : Desk) : Treatment → Desk
  | .script kind script => d.setServer (d.server.setScript kind script)
  | .hold kind => d.hold kind
  | .release kind => (d.release kind).settle
  | .advance ms => d.advance ms

/-- How much time it takes. -/
def Treatment.lapse : Treatment → Nat
  | advance ms => ms
  | _ => 0

def elapsed (ts : List Treatment) : Nat := (ts.map Treatment.lapse).sum

/-- What is asked of the server changes nothing for a probe that rests, as long as the server keeps what it has. -/
theorem Rests.setServer {d : Desk} (h : d.Rests) (server : Server) (hkept : server.kept = d.server.kept) :
    (d.setServer server).Rests := by
  obtain ⟨p, hhosts, hawaits⟩ := h
  refine ⟨p, { hhosts with }, ?_⟩
  obtain ⟨_, _, _, phase⟩ := p
  cases hawaits with
  | tick timers kept later => exact .tick timers (hkept.trans kept) later
  | release timers kept => exact .release timers (hkept.trans kept)
  | answer timers kept later => exact .answer timers (hkept.trans kept) later

theorem kept_setScript (s : Server) (kind : Wire.RequestKind) (script : Script) :
    (s.setScript kind script).kept = s.kept := by
  cases kind <;> rfl

theorem kept_hold (s : Server) (kind : Wire.RequestKind) : (s.hold kind).kept = s.kept := by
  unfold Server.hold
  split <;> rfl

/-- The desk when a kind of request is released that the server has none of. -/
theorem release_of_none {d : Desk} {kind : Wire.RequestKind} (h : ∀ x ∈ d.server.kept, x.1 ≠ kind) :
    d.release kind = d.setServer { d.server with holds := d.server.holds.filter (· ≠ kind) } := by
  have hstays : d.server.kept.filter (·.1 ≠ kind) = d.server.kept :=
    List.filter_eq_self.mpr fun x hx => decide_eq_true (h x hx)
  have hnone : d.server.kept.filter (·.1 = kind) = [] :=
    List.filter_eq_nil_iff.mpr fun x hx => by simpa using h x hx
  simp only [Desk.release, Server.release, hstays, hnone, List.map_nil]
  rfl

/-- A ping that is released calls up the probe. -/
theorem release_eq_wake {d : Desk} (hkept : d.server.kept = [(.ping, .probe 0)]) :
    d.release .ping =
      wake { d with server := { d.server with holds := d.server.holds.filter (· ≠ .ping), kept := [] } }
        (.probe 0) := by
  simp only [Desk.release, Server.release, hkept]
  rfl

theorem Hosts.called_release {d : Desk} {p : Probe} (h : d.Hosts p) {next : Nat}
    (hphase : p.phase = .pinging next .held) (htimers : d.timers = []) (hkept : d.server.kept = [(.ping, .probe 0)]) :
    Called { d.release .ping with ready := [] } p.woken ∧ (d.release .ping).ready = [.probe 0] := by
  have hgo : GoesOn d.clock p.woken.phase := by
    simp only [Probe.woken, hphase]
    trivial
  have hat : Hosts { d with server := { d.server with holds := d.server.holds.filter (· ≠ .ping), kept := [] } } p :=
    { h with }
  rw [release_eq_wake hkept]
  exact hat.called_wake htimers rfl hgo

theorem Rests.release {d : Desk} (h : d.Rests) (kind : Wire.RequestKind) : (d.release kind).settle.Rests := by
  by_cases hkept : ∀ x ∈ d.server.kept, x.1 ≠ kind
  · have hrests := h.setServer { d.server with holds := d.server.holds.filter (· ≠ kind) } rfl
    rw [release_of_none hkept, settle_of_idle hrests.ready]
    exact hrests
  · obtain ⟨⟨_, _, _, phase⟩, hhosts, hawaits⟩ := h
    have hsome : d.server.kept ≠ [] := by
      rintro hnone
      rw [hnone] at hkept
      exact hkept fun _ hx => nomatch hx
    cases hawaits with
    | tick timers kept _ => exact absurd kept hsome
    | release timers kept =>
      obtain rfl : kind = .ping := by
        rw [kept] at hkept
        simpa [eq_comm] using hkept
      obtain ⟨hcalled, hready⟩ := hhosts.called_release rfl timers kept
      exact hcalled.rests_settle hready
    | answer timers kept _ => exact absurd kept hsome

/-- A probe that rests is punctual whatever is done, and rests again. -/
theorem Rests.treat {d : Desk} (h : d.Rests) (t : Treatment) :
    (d.treat t).Rests ∧ d.Runs (d.treat t) ∧ (d.treat t).clock = d.clock + t.lapse := by
  cases t with
  | script kind script =>
    have hruns := Timely.runs (d := d) (e := .script kind script) trivial
    exact ⟨h.setServer _ (kept_setScript d.server kind script), hruns, rfl⟩
  | hold kind =>
    have hruns := Timely.runs (d := d) (e := .hold kind) trivial
    exact ⟨h.setServer _ (kept_hold d.server kind), hruns, rfl⟩
  | release kind =>
    have hruns := Timely.runs_settle (d := d) (e := .release kind) trivial h.numbered
    exact ⟨h.release kind, hruns, (clock_settle _).trans (clock_wakeAll _ _)⟩
  | advance ms =>
    obtain ⟨⟨hrests, hruns⟩, hclock⟩ := h.advance ms
    exact ⟨hrests, hruns, hclock⟩

/-- A new probe sets its schedule and rests. -/
theorem rests_launched (channel : String) (ms start : Nat) (server : Server) :
    (launched channel ms start server).settle.Rests ∧
      (launched channel ms start server).Runs (launched channel ms start server).settle := by
  have hcalled : Called { launched channel ms start server with ready := [] } (.start ⟨0, channel⟩ ms) :=
    ⟨⟨rfl, rfl, rfl, rfl, tolerance_lt_clampPeriod ms⟩, rfl, rfl, trivial⟩
  have hnumbered : (launched channel ms start server).Numbered := ⟨List.nodup_nil, nofun⟩
  exact ⟨hcalled.rests_settle rfl, hnumbered.moves_settle.runs⟩

theorem Rests.treated {d : Desk} (h : d.Rests) (ts : List Treatment) :
    (ts.foldl Desk.treat d).Rests ∧ d.Runs (ts.foldl Desk.treat d) ∧
      (ts.foldl Desk.treat d).clock = d.clock + elapsed ts := by
  induction ts generalizing d with
  | nil => exact ⟨h, .refl d, rfl⟩
  | cons t ts ih =>
    obtain ⟨hrests, hruns, hclock⟩ := h.treat t
    obtain ⟨hrests', hruns', hclock'⟩ := ih hrests
    refine ⟨hrests', hruns.trans hruns', ?_⟩
    rw [List.foldl_cons, hclock', hclock, elapsed, elapsed, List.map_cons, List.sum_cons, Nat.add_assoc]

end AgentDesk.Desk
