import AgentDesk.Proofs.Desk.Step
import Mathlib.Data.List.Induction

/-! # What the probe is answered is of no account

The server answers the pings of checks and those of the probe from one script, so two runs may differ in that script
from one event to the next. If every action hears the same in both, they differ in nothing else: not in the
controller, the store, the results or the record, and not in who goes on next and when (`indistinct_of_parallel`). -/
namespace AgentDesk.Desk
open Session

/-- The desk with another answer to pings. -/
def answering (d : Desk) (a : Answer) : Desk :=
  { d with server := { d.server with ping := { d.server.ping with answer := a } } }

theorem answering_self (d : Desk) : d.answering d.server.ping.answer = d := rfl

def Turn.answered (answer : Answer) : Turn → Turn
  | .take _ => .take answer
  | turn => turn

/-! ## Each event with another answer -/

section Answer

variable (d : Desk) (a : Answer)

theorem answering_wakeAll (callers : List Caller) :
    (d.answering a).wakeAll callers = (d.wakeAll callers).answering a := by
  induction callers generalizing d with
  | nil => rfl
  | cons caller callers ih =>
    have hwake : (d.answering a).wake caller = (d.wake caller).answering a := by cases caller <;> rfl
    rw [wakeAll_cons, wakeAll_cons, hwake, ih]

theorem answering_passLock (r : StoreLock × List Visit) : (d.answering a).passLock r = (d.passLock r).answering a :=
  answering_wakeAll { d with lock := r.1 } a _

theorem answering_setController (c : Controller) :
    (d.answering a).setController c = (d.setController c).answering a := by
  by_cases h : c.probe = d.controller.probe
  · have h' : c.probe = (d.answering a).controller.probe := h
    rw [setController, setController, if_pos h, if_pos h']
    rfl
  · have h' : c.probe ≠ (d.answering a).controller.probe := h
    have hcontroller : (d.answering a).controller = d.controller := rfl
    rw [setController, setController, if_neg h, if_neg h', hcontroller]
    cases d.controller.probe <;> cases c.probe <;> rfl

theorem answering_conclude (t : Task) (r : Result) :
    (d.answering a).conclude t r = ((d.conclude t r).1.answering a, (d.conclude t r).2) := by
  obtain ⟨n, errand, position⟩ := t
  cases errand <;> rcases r with ((_ | e) | _) | _ <;> rfl

theorem answering_follow (t : Task) (next : Controller × Next) :
    (d.answering a).follow t next = ((d.follow t next).1.answering a, (d.follow t next).2) := by
  obtain ⟨c, stage | r | _⟩ := next <;> simp only [follow, answering_setController, answering_conclude]

theorem answering_delay (kind : Wire.RequestKind) :
    ((d.answering a).server.script kind).delayMs = (d.server.script kind).delayMs := by
  cases kind <;> rfl

/-- A request gets as far with any answer; only what is taken at its end may differ. -/
theorem answering_converse (caller : Caller) (request : Wire.Request) (progress : Progress) :
    (d.answering a).converse caller request progress =
      ((d.converse caller request progress).1.answering a,
        (d.converse caller request progress).2.answered ((d.answering a).server.script request.kind).answer) := by
  cases progress with
  | ready =>
    by_cases h : d.server.keeps request.kind = true
    · have h' : (d.answering a).server.keeps request.kind = true := h
      simp only [converse, if_pos h]
      rw [if_pos h']
      rfl
    · have h' : ¬ (d.answering a).server.keeps request.kind = true := h
      simp only [converse, if_neg h]
      rw [if_neg h']
      rfl
  | heard =>
    by_cases h : (d.server.script request.kind).delayMs = 0
    · simp only [converse, answering_delay, if_pos h]
      rfl
    · simp only [converse, answering_delay, if_neg h]
      rfl
  | answering => rfl
  | held => rfl
  | delayed => rfl

/-- What an action is told by a request it has sent. -/
def heard (d : Desk) (t : Task) : Option Answer :=
  match d.cause? t with
  | some (.hears _ answer) => some answer
  | _ => none

theorem answered_of_heard {t : Task} {request : Wire.Request} {progress : Progress}
    (hpos : t.position = .calling request progress) (h : (d.answering a).heard t = d.heard t) :
    (d.converse (.task t.number) request progress).2.answered ((d.answering a).server.script request.kind).answer =
      (d.converse (.task t.number) request progress).2 := by
  cases progress with
  | ready =>
    simp only [converse]
    split <;> rfl
  | heard =>
    by_cases hnow : (d.server.script request.kind).delayMs = 0
    · simp only [heard, cause?, hpos, answering_delay, if_pos hnow, Option.some.injEq] at h
      simp only [converse, if_pos hnow, Turn.answered, h]
    · simp only [converse, if_neg hnow, Turn.answered]
  | answering =>
    simp only [heard, cause?, hpos, Option.some.injEq] at h
    simp only [converse, Turn.answered, h]
  | held => rfl
  | delayed => rfl

theorem answering_stepTask (t : Task) (h : (d.answering a).heard t = d.heard t) :
    (d.answering a).stepTask t = ((d.stepTask t).1.answering a, (d.stepTask t).2) := by
  cases hpos : t.position with
  | begun command =>
    simp only [stepTask, hpos]
    exact answering_follow d a t _
  | reading r access =>
    cases access with
    | ready =>
      by_cases hin : d.lock.admits .read = true
      · have hin' : (d.answering a).lock.admits .read = true := hin
        simp only [stepTask, hpos, if_pos hin, if_pos hin']
        exact answering_follow d a t _
      · have hin' : ¬ (d.answering a).lock.admits .read = true := hin
        simp only [stepTask, hpos, if_neg hin, if_neg hin']
        rfl
    | queued =>
      simp only [stepTask, hpos]
      rfl
    | admitted =>
      simp only [stepTask, hpos]
      rw [← answering_follow, ← answering_passLock]
      rfl
  | writing w access =>
    cases access with
    | ready =>
      by_cases hin : d.lock.admits .write = true
      · have hin' : (d.answering a).lock.admits .write = true := hin
        simp only [stepTask, hpos, if_pos hin, if_pos hin']
        exact answering_follow { d with store := d.store.dispatch w.action } a t _
      · have hin' : ¬ (d.answering a).lock.admits .write = true := hin
        simp only [stepTask, hpos, if_neg hin, if_neg hin']
        rfl
    | queued =>
      simp only [stepTask, hpos]
      rfl
    | admitted =>
      simp only [stepTask, hpos]
      rw [← answering_follow, ← answering_passLock]
      rfl
  | calling request progress =>
    have hconv := answering_converse d a (.task t.number) request progress
    rw [answered_of_heard d a hpos h] at hconv
    simp only [stepTask, hpos, hconv]
    obtain ⟨d', turn⟩ := d.converse (.task t.number) request progress
    cases turn with
    | wait progress => rfl
    | move progress => rfl
    | take answer => exact answering_follow d' a t _

theorem answering_cause? {t : Task} (h : (d.answering a).heard t = d.heard t) :
    (d.answering a).cause? t = d.cause? t := by
  cases hpos : t.position with
  | calling request progress =>
    cases progress with
    | heard =>
      simp only [cause?, hpos, answering_delay]
      by_cases hnow : (d.server.script request.kind).delayMs = 0
      · simp only [heard, cause?, hpos, answering_delay, if_pos hnow, Option.some.injEq] at h
        rw [if_pos hnow, if_pos hnow, h]
      · rw [if_neg hnow, if_neg hnow]
    | answering =>
      simp only [heard, cause?, hpos, Option.some.injEq] at h
      simp only [cause?, hpos, h]
    | _ => simp only [cause?, hpos]
  | reading r access =>
    cases access <;> simp only [cause?, hpos]
    rfl
  | writing w access =>
    cases access <;> simp only [cause?, hpos]
    rfl
  | begun command => simp only [cause?, hpos]

theorem answering_moveTask (n : Nat) (h : ∀ t, d.task? n = some t → (d.answering a).heard t = d.heard t) :
    (d.answering a).moveTask n = (d.moveTask n).answering a := by
  cases ht : d.task? n with
  | none =>
    have ht' : (d.answering a).task? n = none := ht
    simp only [moveTask, ht, ht']
  | some t =>
    have ht' : (d.answering a).task? n = some t := ht
    have hstep := answering_stepTask (d.without n) a t (h t ht)
    simp only [moveTask, ht, ht']
    change putBack (((d.without n).answering a).stepTask t) = _
    rw [hstep]
    obtain ⟨d', _ | t'⟩ := (d.without n).stepTask t <;> rfl

/-- The probe does not look at what it is answered. -/
theorem answering_stepProbe (p : Liveness.Probe) :
    (d.answering a).stepProbe p = ((d.stepProbe p).1.answering a, (d.stepProbe p).2) := by
  cases hphase : p.phase with
  | fresh =>
    simp only [stepProbe, hphase]
    rfl
  | waiting due =>
    by_cases hdue : due ≤ d.clock
    · have hdue' : due ≤ (d.answering a).clock := hdue
      simp only [stepProbe, hphase, if_pos hdue, if_pos hdue']
      rfl
    · have hdue' : ¬ due ≤ (d.answering a).clock := hdue
      simp only [stepProbe, hphase, if_neg hdue, if_neg hdue']
  | pinging next progress =>
    simp only [stepProbe, hphase, answering_converse]
    obtain ⟨d', turn⟩ := d.converse (.probe p.serial) (.ping p.channel) progress
    cases turn with
    | wait progress => rfl
    | move progress => rfl
    | take answer =>
      simp only [Turn.answered]
      by_cases hnext : next ≤ d'.clock
      · have hnext' : next ≤ (d'.answering a).clock := hnext
        rw [if_pos hnext, if_pos hnext']
        rfl
      · have hnext' : ¬ next ≤ (d'.answering a).clock := hnext
        rw [if_neg hnext, if_neg hnext']
        rfl

theorem answering_moveProbe (serial : Nat) : (d.answering a).moveProbe serial = (d.moveProbe serial).answering a := by
  cases hp : d.probe? serial with
  | none =>
    have hp' : (d.answering a).probe? serial = none := hp
    simp only [moveProbe, hp, hp']
  | some p =>
    have hp' : (d.answering a).probe? serial = some p := hp
    simp only [moveProbe, hp, hp', answering_stepProbe]

end Answer

/-- What an event lets an action hear. -/
def hears (d : Desk) : Event → Option Answer
  | .move n => (d.task? n).bind d.heard
  | _ => none

theorem heard_of_hears {d : Desk} {a : Answer} {n : Nat} (h : (d.answering a).hears (.move n) = d.hears (.move n))
    (t : Task) (ht : d.task? n = some t) : (d.answering a).heard t = d.heard t := by
  have ht' : (d.answering a).task? n = some t := ht
  simpa only [hears, ht, ht', Option.bind_some] using h

/-- An event that lets actions hear the same does the same. -/
theorem answering_perform (d : Desk) (a : Answer) (e : Event) (h : (d.answering a).hears e = d.hears e) :
    ∃ b, (d.answering a).perform e = (d.perform e).answering b := by
  cases e with
  | move n => exact ⟨a, answering_moveTask d a n (heard_of_hears h)⟩
  | probe serial => exact ⟨a, answering_moveProbe d a serial⟩
  | script kind script =>
    cases kind with
    | ping => exact ⟨script.answer, rfl⟩
    | _ => exact ⟨a, rfl⟩
  | hold kind =>
    refine ⟨a, ?_⟩
    simp only [perform, Desk.hold, Server.hold]
    by_cases hk : d.server.keeps kind = true
    · have hk' : (d.answering a).server.keeps kind = true := hk
      rw [if_pos hk, if_pos hk']
    · have hk' : ¬ (d.answering a).server.keeps kind = true := hk
      rw [if_neg hk, if_neg hk']
      rfl
  | release kind =>
    exact ⟨a, answering_wakeAll { d with server := (d.server.release kind).1 } a (d.server.release kind).2⟩
  | unlock => exact ⟨a, answering_passLock d a d.lock.reopen⟩
  | strike instant =>
    have hwake := answering_wakeAll
      { d with clock := max d.clock instant, timers := d.timers.filter (¬ ·.due ≤ instant) } a
      ((d.timers.filter (·.due ≤ instant)).map (·.caller))
    exact ⟨a, hwake⟩
  | _ => exact ⟨a, rfl⟩

theorem answering_occurs (d : Desk) (a : Answer) (e : Event) (h : (d.answering a).hears e = d.hears e) :
    (d.answering a).occurs e = d.occurs e := by
  cases e with
  | move n =>
    cases ht : d.task? n with
    | none =>
      have ht' : (d.answering a).task? n = none := ht
      simp only [occurs, ht, ht', Option.bind_none]
    | some t =>
      have ht' : (d.answering a).task? n = some t := ht
      have hc := answering_cause? d a (heard_of_hears h t ht)
      simp only [occurs, ht, ht', Option.bind_some, occursTo, hc]
      rfl
  | _ => rfl

/-! ## Two runs -/

/-- Two runs with the same events, but for what pings are answered; what an action hears is the same in both. -/
inductive Opening.Parallel (o : Opening) : List Event → List Event → Prop
  | nil : Parallel o [] []
  | same {es fs : List Event} (before : Parallel o es fs) (e : Event)
      (hears : (o.after fs).desk.hears e = (o.after es).desk.hears e) : Parallel o (es ++ [e]) (fs ++ [e])
  | differ {es fs : List Event} (before : Parallel o es fs) (a b : Answer) (delayMs : Nat) :
      Parallel o (es ++ [.script .ping ⟨a, delayMs⟩]) (fs ++ [.script .ping ⟨b, delayMs⟩])

/-- Nothing tells two desks and their records apart but the answer to the next ping. -/
structure Indistinct (r r' : Chronicle) : Prop where
  controller : r'.desk.controller = r.desk.controller
  probes : r'.desk.probes = r.desk.probes
  store : r'.desk.store = r.desk.store
  results : r'.desk.finished = r.desk.finished
  requests : r'.desk.calls = r.desk.calls
  clock : r'.desk.clock = r.desk.clock
  record : r'.past = r.past
  desk : ∃ a, r'.desk = r.desk.answering a

theorem Indistinct.of_answering {r r' : Chronicle} {a : Answer} (hd : r'.desk = r.desk.answering a)
    (hp : r'.past = r.past) : Indistinct r r' := by
  refine ⟨?_, ?_, ?_, ?_, ?_, ?_, hp, a, hd⟩
  all_goals rw [hd]; rfl

theorem Indistinct.next {r r' : Chronicle} (h : Indistinct r r') {e : Event}
    (hears : r'.desk.hears e = r.desk.hears e) :
    Indistinct (r.next e) (r'.next e) := by
  obtain ⟨a, hd⟩ := h.desk
  rw [hd] at hears
  obtain ⟨b, hperform⟩ := answering_perform r.desk a e hears
  have hoccurs := answering_occurs r.desk a e hears
  refine .of_answering (a := b) ?_ ?_
  · simp only [Chronicle.next, hd, hperform]
  · simp only [Chronicle.next, hd, hoccurs, h.record]

theorem Indistinct.script {r r' : Chronicle} (h : Indistinct r r') (a b : Answer) (delayMs : Nat) :
    Indistinct (r.next (.script .ping ⟨a, delayMs⟩)) (r'.next (.script .ping ⟨b, delayMs⟩)) := by
  obtain ⟨c, hd⟩ := h.desk
  refine .of_answering (a := b) ?_ ?_
  · simp only [Chronicle.next, hd]
    rfl
  · simp only [Chronicle.next, h.record]
    rfl

theorem Opening.Parallel.indistinct {o : Opening} {es fs : List Event} (h : o.Parallel es fs) :
    Indistinct (o.after es) (o.after fs) := by
  induction h with
  | nil => exact .of_answering (answering_self _).symm rfl
  | same before e hears ih =>
    rw [o.after_snoc, o.after_snoc]
    exact ih.next hears
  | differ before a b delayMs ih =>
    rw [o.after_snoc, o.after_snoc]
    exact ih.script a b delayMs

theorem Opening.Parallel.length_eq {o : Opening} {es fs : List Event} (h : o.Parallel es fs) :
    fs.length = es.length := by
  induction h with
  | nil => rfl
  | same before e hears ih => simp [ih]
  | differ before a b delayMs ih => simp [ih]

/-- Runs that go side by side have done so from the first event on. -/
theorem Opening.Parallel.take {o : Opening} {es fs : List Event} (h : o.Parallel es fs) (k : Nat) :
    o.Parallel (es.take k) (fs.take k) := by
  induction h with
  | nil => simpa using .nil
  | same before e hears ih =>
    next es fs =>
    have hlen := before.length_eq
    by_cases hk : k ≤ es.length
    · rwa [List.take_append_of_le_length hk, List.take_append_of_le_length (hlen ▸ hk)]
    · rw [List.take_of_length_le (by simp; omega), List.take_of_length_le (by simp; omega)]
      exact before.same e hears
  | differ before a b delayMs ih =>
    next es fs =>
    have hlen := before.length_eq
    by_cases hk : k ≤ es.length
    · rwa [List.take_append_of_le_length hk, List.take_append_of_le_length (hlen ▸ hk)]
    · rw [List.take_of_length_le (by simp; omega), List.take_of_length_le (by simp; omega)]
      exact before.differ a b delayMs

/-- Two runs that differ in nothing but what the probe is answered are the same at every step. -/
theorem indistinct_of_parallel (o : Opening) {es fs : List Event} (h : o.Parallel es fs) (k : Nat) :
    Indistinct (o.after (es.take k)) (o.after (fs.take k)) :=
  (h.take k).indistinct

/-! ## A ping that fails -/

theorem Opening.Parallel.refl (o : Opening) (es : List Event) : o.Parallel es es := by
  induction es using List.reverseRecOn with
  | nil => exact .nil
  | append_singleton es e ih => exact ih.same e rfl

/-- A session is started, its probe pings it, and is given the answer; then the session is stopped. -/
def pingedThenStopped (answer : Answer) : List Event :=
  alone 0 .connect 6 ++ [.probe 0, .strike 3000, .probe 0, .script .ping ⟨answer, 0⟩, .probe 0, .probe 0,
    .begin .lookout .disconnect, .move 1, .move 1, .move 1]

theorem indistinct_of_failed_ping :
    furnished.Parallel (pingedThenStopped (.ok .ok)) (pingedThenStopped (.error (.request "timed out"))) ∧
      Indistinct (furnished.after ((pingedThenStopped (.ok .ok)).take 17))
        (furnished.after ((pingedThenStopped (.error (.request "timed out"))).take 17)) := by
  have hpinged := (Opening.Parallel.refl furnished (alone 0 .connect 6 ++ [.probe 0, .strike 3000, .probe 0])).differ
    (.ok .ok) (.error (.request "timed out")) 0
  have hanswered := (hpinged.same (.probe 0) rfl).same (.probe 0) rfl
  have hstopped := (((hanswered.same (.begin .lookout .disconnect) rfl).same (.move 1) rfl).same (.move 1) rfl).same
    (.move 1) rfl
  exact ⟨hstopped, indistinct_of_parallel furnished hstopped 17⟩

end AgentDesk.Desk
