import AgentDesk.Proofs.Desk.Step
import AgentDesk.Proofs.Session.Spelling
import Mathlib.Data.List.Forall2

/-! # Runs with codes spelled otherwise

A desk whose server gives plain answers goes through the plain form of the same run (`Echoes.perform`): who moves, when
and where to is the same, and so is all that is decided. So two runs in which the same codes are spelled in different
ways differ in nothing but how a refusal's code is shown (`speltAlike_of_respelled`). -/
namespace AgentDesk.Desk
open Session

/-! ## Plain forms -/

def Position.plain : Position → Position
  | writing w access => .writing w.plain access
  | p => p

def Task.plain (t : Task) : Task := { t with position := t.position.plain }

def Script.plain (s : Script) : Script := { s with answer := Answer.plain s.answer }

def Server.plain (s : Server) : Server :=
  { s with start := s.start.plain, stop := s.stop.plain, ping := s.ping.plain }

def Turn.plain : Turn → Turn
  | .take answer => .take (Answer.plain answer)
  | turn => turn

def Event.plain : Event → Event
  | script kind s => .script kind s.plain
  | e => e

def Cause.plain : Cause → Cause
  | changes w => .changes w.plain
  | hears request answer => .hears request (Answer.plain answer)
  | cause => cause

def Occurrence.plain : Occurrence → Occurrence
  | resumed n cause next => .resumed n cause.plain next.plain
  | x => x

/-- The desk in its plain form, with another store. -/
def recoded (d : Desk) (s : Store) : Desk :=
  { d with
    store := s
    server := d.server.plain
    tasks := d.tasks.map Task.plain
    finished := d.finished.map fun f => (f.1, f.2.plain) }

/-- The one desk is the plain form of the other, and their stores differ in the words of toasts at most. -/
def Echoes (d d' : Desk) : Prop := ∃ s, s.wordless = d.store.wordless ∧ d' = d.recoded s

/-- What a move leaves of a desk and of an action echoes what another does. -/
def EchoesMove (r r' : Desk × Option Task) : Prop := Echoes r.1 r'.1 ∧ r'.2 = r.2.map Task.plain

theorem Position.woken_plain (p : Position) : p.plain.woken = p.woken.plain := by
  cases p <;> rfl

/-! ## The parts of a move -/

/-- Where one action is given another position, all are given their plain forms. -/
theorem map_plain_at {f : Position → Position} (hf : ∀ p, f p.plain = (f p).plain) (n : Nat) (tasks : List Task) :
    (tasks.map Task.plain).map (fun t => if t.number = n then { t with position := f t.position } else t) =
      (tasks.map fun t => if t.number = n then { t with position := f t.position } else t).map Task.plain := by
  have htask (t : Task) :
      (if t.plain.number = n then { t.plain with position := f t.plain.position } else t.plain) =
        Task.plain (if t.number = n then { t with position := f t.position } else t) := by
    by_cases hn : t.number = n
    · have hn' : t.plain.number = n := hn
      rw [if_pos hn, if_pos hn']
      simp only [Task.plain, hf]
    · have hn' : t.plain.number ≠ n := hn
      rw [if_neg hn, if_neg hn']
  rw [List.map_map, List.map_map]
  exact List.map_congr_left fun t _ => htask t

theorem recoded_wake (d : Desk) (s : Store) (caller : Caller) :
    (d.recoded s).wake caller = (d.wake caller).recoded s := by
  cases caller with
  | probe serial => rfl
  | task n =>
    simp only [wake, recoded]
    rw [map_plain_at Position.woken_plain]

theorem recoded_glance (d : Desk) (s : Store) (n : Nat) : (d.recoded s).glance n = (d.glance n).recoded s := by
  have hchosen (p : Position) : p.plain.chosen d.controller = (p.chosen d.controller).plain := by
    cases p <;> rfl
  simp only [glance, recoded]
  rw [map_plain_at hchosen]

theorem recoded_wakeAll (d : Desk) (s : Store) (callers : List Caller) :
    (d.recoded s).wakeAll callers = (d.wakeAll callers).recoded s := by
  induction callers generalizing d with
  | nil => rfl
  | cons caller callers ih => rw [wakeAll_cons, wakeAll_cons, recoded_wake, ih]

theorem store_wakeAll (d : Desk) (callers : List Caller) : (d.wakeAll callers).store = d.store :=
  congrArg Scene.store (scene_wakeAll callers d)

namespace Echoes

variable {d d' : Desk}

theorem wakeAll (h : Echoes d d') (callers : List Caller) : Echoes (d.wakeAll callers) (d'.wakeAll callers) := by
  obtain ⟨s, hs, rfl⟩ := h
  exact ⟨s, by rw [store_wakeAll, hs], recoded_wakeAll d s callers⟩

theorem relock (h : Echoes d d') {lock lock' : StoreLock} (hlock : lock' = lock) :
    Echoes { d with lock := lock } { d' with lock := lock' } := by
  obtain ⟨s, hs, rfl⟩ := h
  subst hlock
  exact ⟨s, hs, rfl⟩

theorem passLock (h : Echoes d d') {r r' : StoreLock × List Visit} (hr : r' = r) :
    Echoes (d.passLock r) (d'.passLock r') := by
  subst hr
  exact (h.relock rfl).wakeAll _

theorem dispatch (h : Echoes d d') {a a' : Store.Action} (ha : a'.wordless = a.wordless) :
    Echoes { d with store := d.store.dispatch a } { d' with store := d'.store.dispatch a' } := by
  obtain ⟨s, hs, rfl⟩ := h
  refine ⟨s.dispatch a', ?_, rfl⟩
  rw [Store.wordless_dispatch, Store.wordless_dispatch, ha, hs]

theorem setController (h : Echoes d d') (c : Controller) : Echoes (d.setController c) (d'.setController c) := by
  obtain ⟨s, hs, rfl⟩ := h
  have hcontroller : (d.recoded s).controller = d.controller := rfl
  rw [Desk.setController, Desk.setController, hcontroller]
  split
  · exact ⟨s, hs, rfl⟩
  · cases d.controller.probe <;> cases c.probe <;> exact ⟨s, hs, rfl⟩

theorem park (h : Echoes d d') (t : Task) : Echoes (d.park t) (d'.park t.plain) := by
  obtain ⟨s, hs, rfl⟩ := h
  refine ⟨s, hs, ?_⟩
  simp only [Desk.park, recoded, List.map_append, List.map_cons, List.map_nil]

theorem putBack {r r' : Desk × Option Task} (h : EchoesMove r r') : Echoes (putBack r) (putBack r') := by
  obtain ⟨d, _ | t⟩ := r
  · obtain ⟨d', t'⟩ := r'
    obtain ⟨hd, rfl⟩ := h
    exact hd
  · obtain ⟨d', t'⟩ := r'
    obtain ⟨hd, rfl⟩ := h
    exact hd.park t

theorem conclude (h : Echoes d d') (t : Task) (r : Result) :
    EchoesMove (d.conclude t r) (d'.conclude t.plain r.plain) := by
  obtain ⟨s, hs, rfl⟩ := h
  obtain ⟨n, errand, position⟩ := t
  cases errand with
  | command name =>
    refine ⟨⟨s, hs, ?_⟩, rfl⟩
    simp only [Desk.conclude, recoded, Task.plain, List.map_append, List.map_cons, List.map_nil]
  | button => rcases r with ((refusal | e) | o) | result <;> exact ⟨⟨s, hs, rfl⟩, rfl⟩
  | lookout => rcases r with ((refusal | e) | o) | result <;> exact ⟨⟨s, hs, rfl⟩, rfl⟩

theorem follow (h : Echoes d d') (t : Task) (c : Controller) (next : Next) :
    EchoesMove (d.follow t (c, next)) (d'.follow t.plain (c, next.plain)) := by
  have hc := h.setController c
  cases next with
  | go stage =>
    refine ⟨hc, ?_⟩
    cases stage <;> rfl
  | done r => exact hc.conclude t r
  | closed => exact ⟨hc, rfl⟩

/-- A request gets as far; what is taken at its end is plain. -/
theorem converse (h : Echoes d d') (caller : Caller) (request : Wire.Request) (progress : Progress) :
    Echoes (d.converse caller request progress).1 (d'.converse caller request progress).1 ∧
      (d'.converse caller request progress).2 = (d.converse caller request progress).2.plain := by
  obtain ⟨s, hs, rfl⟩ := h
  have hscript : (d.recoded s).server.script request.kind = (d.server.script request.kind).plain := by
    cases request <;> rfl
  cases progress with
  | ready =>
    by_cases hkeeps : d.server.keeps request.kind = true
    · have hkeeps' : (d.recoded s).server.keeps request.kind = true := hkeeps
      simp only [Desk.converse, if_pos hkeeps]
      rw [if_pos hkeeps']
      exact ⟨⟨s, hs, rfl⟩, rfl⟩
    · have hkeeps' : ¬ (d.recoded s).server.keeps request.kind = true := hkeeps
      simp only [Desk.converse, if_neg hkeeps]
      rw [if_neg hkeeps']
      exact ⟨⟨s, hs, rfl⟩, rfl⟩
  | heard =>
    by_cases hnow : (d.server.script request.kind).delayMs = 0
    · simp only [Desk.converse, hscript, Script.plain, if_pos hnow]
      exact ⟨⟨s, hs, rfl⟩, rfl⟩
    · simp only [Desk.converse, hscript, Script.plain, if_neg hnow]
      exact ⟨⟨s, hs, rfl⟩, rfl⟩
  | answering =>
    simp only [Desk.converse, hscript]
    exact ⟨⟨s, hs, rfl⟩, rfl⟩
  | held => exact ⟨⟨s, hs, rfl⟩, rfl⟩
  | delayed => exact ⟨⟨s, hs, rfl⟩, rfl⟩

/-! ### Moves of an action -/

theorem controller_eq (h : Echoes d d') : d'.controller = d.controller := by
  obtain ⟨s, -, rfl⟩ := h
  rfl

theorem lock_eq (h : Echoes d d') : d'.lock = d.lock := by
  obtain ⟨s, -, rfl⟩ := h
  rfl

theorem resume_eq (h : Echoes d d') (r : Reading) :
    r.resume d'.controller d'.store = r.resume d.controller d.store := by
  obtain ⟨s, hs, rfl⟩ := h
  rw [← Store.resume_wordless d.store, ← hs, Store.resume_wordless]
  rfl

theorem enqueueAt (h : Echoes d d') (t : Task) (purpose : Purpose) (position : Position) :
    EchoesMove (d.enqueueAt t purpose position) (d'.enqueueAt t.plain purpose position.plain) := by
  have hlock : d'.lock.enqueue ⟨t.number, purpose⟩ = d.lock.enqueue ⟨t.number, purpose⟩ := by rw [h.lock_eq]
  exact ⟨(h.relock hlock).park { t with position := position }, rfl⟩

/-- To begin, and to look into the store, is the same in plain form. -/
theorem follow_same (h : Echoes d d') (t : Task) {next next' : Controller × Next} (hnext : next' = next)
    (hplain : next.2.plain = next.2) : EchoesMove (d.follow t next) (d'.follow t.plain next') := by
  have hfollow := h.follow t next.1 next.2
  rw [hplain] at hfollow
  rw [hnext]
  exact hfollow

theorem follow_changed (h : Echoes d d') (t : Task) {c c' : Controller} (hc : c' = c) (w : Writing) :
    EchoesMove (d.follow t (w.resume c)) (d'.follow t.plain (w.plain.resume c')) := by
  rw [hc, writing_plain]
  exact h.follow t (w.resume c).1 (w.resume c).2

theorem follow_heard (h : Echoes d d') (t : Task) {c c' : Controller} (hc : c' = c) (request : Wire.Request)
    (answer : Answer) :
    EchoesMove (d.follow t (resumeCall c request answer))
      (d'.follow t.plain (resumeCall c' request (Answer.plain answer))) := by
  rw [hc, resumeCall_plain]
  exact h.follow t (resumeCall c request answer).1 (resumeCall c request answer).2

theorem stepTask (h : Echoes d d') (t : Task) : EchoesMove (d.stepTask t) (d'.stepTask t.plain) := by
  obtain ⟨n, errand, position⟩ := t
  cases position with
  | begun command =>
    have hbegin : command.begin d'.controller = command.begin d.controller := by rw [h.controller_eq]
    exact h.follow_same ⟨n, errand, .begun command⟩ hbegin (begin_plain _ _)
  | reading r access =>
    have hplain : Task.plain ⟨n, errand, .reading r access⟩ = ⟨n, errand, .reading r access⟩ := rfl
    cases access with
    | ready =>
      simp only [hplain, Desk.stepTask, h.lock_eq]
      split
      · exact h.follow_same ⟨n, errand, .reading r .ready⟩ (h.resume_eq r) (reading_plain _ _ _)
      · exact h.enqueueAt ⟨n, errand, .reading r .ready⟩ .read (.reading r .queued)
    | queued => exact ⟨h.park ⟨n, errand, .reading r .queued⟩, rfl⟩
    | admitted =>
      have hleft := h.passLock (congrArg (StoreLock.leave · n) h.lock_eq)
      exact hleft.follow_same ⟨n, errand, .reading r .admitted⟩ (h.resume_eq r) (reading_plain _ _ _)
  | writing w access =>
    have hplain : Task.plain ⟨n, errand, .writing w access⟩ = ⟨n, errand, .writing w.plain access⟩ := rfl
    have hstore := h.dispatch (Store.wordless_action w)
    cases access with
    | ready =>
      simp only [hplain, Desk.stepTask, h.lock_eq]
      split
      · exact hstore.follow_changed ⟨n, errand, .writing w .ready⟩ h.controller_eq w
      · exact h.enqueueAt ⟨n, errand, .writing w .ready⟩ .write (.writing w .queued)
    | queued => exact ⟨h.park ⟨n, errand, .writing w .queued⟩, rfl⟩
    | admitted =>
      have hleft := hstore.passLock (congrArg (StoreLock.leave · n) h.lock_eq)
      exact hleft.follow_changed ⟨n, errand, .writing w .admitted⟩ h.controller_eq w
  | calling request progress =>
    obtain ⟨hdesk, hturn⟩ := h.converse (.task n) request progress
    have hplain : Task.plain ⟨n, errand, .calling request progress⟩ = ⟨n, errand, .calling request progress⟩ := rfl
    simp only [hplain, Desk.stepTask]
    generalize d.converse (.task n) request progress = r at hdesk hturn ⊢
    generalize d'.converse (.task n) request progress = r' at hdesk hturn ⊢
    obtain ⟨e, turn⟩ := r
    obtain ⟨e', turn'⟩ := r'
    subst hturn
    cases turn with
    | wait progress => exact ⟨hdesk.park ⟨n, errand, .calling request progress⟩, rfl⟩
    | move progress => exact ⟨hdesk, rfl⟩
    | take answer =>
      exact hdesk.follow_heard ⟨n, errand, .calling request progress⟩ hdesk.controller_eq request answer

theorem task?_eq (h : Echoes d d') (n : Nat) : d'.task? n = (d.task? n).map Task.plain := by
  obtain ⟨s, -, rfl⟩ := h
  simp only [task?, recoded, List.find?_map]
  rfl

theorem without (h : Echoes d d') (n : Nat) : Echoes (d.without n) (d'.without n) := by
  obtain ⟨s, hs, rfl⟩ := h
  refine ⟨s, hs, ?_⟩
  simp only [Desk.without, recoded, List.filter_map]
  rfl

theorem moveTask (h : Echoes d d') (n : Nat) : Echoes (d.moveTask n) (d'.moveTask n) := by
  simp only [Desk.moveTask, h.task?_eq]
  cases ht : d.task? n with
  | none => exact h
  | some t => exact putBack ((h.without n).stepTask t)

/-! ### Moves of a probe -/

theorem probe?_eq (h : Echoes d d') (serial : Nat) : d'.probe? serial = d.probe? serial := by
  obtain ⟨s, -, rfl⟩ := h
  rfl

theorem setProbe (h : Echoes d d') (p : Liveness.Probe) : Echoes (d.setProbe p) (d'.setProbe p) := by
  obtain ⟨s, hs, rfl⟩ := h
  exact ⟨s, hs, rfl⟩

theorem awaitTick (h : Echoes d d') (p : Liveness.Probe) (due : Nat) :
    Echoes (d.awaitTick p due) (d'.awaitTick p due) := by
  obtain ⟨s, hs, rfl⟩ := h
  exact ⟨s, hs, rfl⟩

theorem clock_eq (h : Echoes d d') : d'.clock = d.clock := by
  obtain ⟨s, -, rfl⟩ := h
  rfl

theorem stepProbe (h : Echoes d d') (p : Liveness.Probe) : Echoes (d.stepProbe p).1 (d'.stepProbe p).1 := by
  cases hphase : p.phase with
  | fresh =>
    simp only [Desk.stepProbe, hphase, h.clock_eq]
    exact h.awaitTick p _
  | waiting due =>
    simp only [Desk.stepProbe, hphase, h.clock_eq]
    split
    · exact h.setProbe _
    · exact h
  | pinging next progress =>
    obtain ⟨hdesk, hturn⟩ := h.converse (.probe p.serial) (.ping p.channel) progress
    simp only [Desk.stepProbe, hphase]
    generalize d.converse (.probe p.serial) (.ping p.channel) progress = r at hdesk hturn ⊢
    generalize d'.converse (.probe p.serial) (.ping p.channel) progress = r' at hdesk hturn ⊢
    obtain ⟨e, turn⟩ := r
    obtain ⟨e', turn'⟩ := r'
    subst hturn
    cases turn with
    | wait progress => exact hdesk.setProbe _
    | move progress => exact hdesk.setProbe _
    | take answer =>
      have hclock : e'.clock = e.clock := hdesk.clock_eq
      simp only [Turn.plain, hclock]
      split
      · exact hdesk.setProbe _
      · exact hdesk.awaitTick p next

theorem moveProbe (h : Echoes d d') (serial : Nat) : Echoes (d.moveProbe serial) (d'.moveProbe serial) := by
  simp only [Desk.moveProbe, h.probe?_eq]
  cases d.probe? serial with
  | none => exact h
  | some p => exact h.stepProbe p

/-! ### All events -/

theorem perform (h : Echoes d d') (e : Event) : Echoes (d.perform e) (d'.perform e.plain) := by
  cases e with
  | edit e => exact h.dispatch rfl
  | move n => exact h.moveTask n
  | glance n =>
    obtain ⟨s, hs, rfl⟩ := h
    exact ⟨s, hs, recoded_glance d s n⟩
  | probe serial => exact h.moveProbe serial
  | begin errand command =>
    obtain ⟨s, hs, rfl⟩ := h
    refine ⟨s, hs, ?_⟩
    simp only [Event.plain, Desk.perform, Desk.begin, recoded, List.map_append, List.map_cons, List.map_nil]
    rfl
  | script kind script =>
    obtain ⟨s, hs, rfl⟩ := h
    refine ⟨s, hs, ?_⟩
    cases kind <;> rfl
  | hold kind =>
    obtain ⟨s, hs, rfl⟩ := h
    refine ⟨s, hs, ?_⟩
    simp only [Event.plain, Desk.perform, Desk.hold, Server.hold]
    by_cases hkeeps : d.server.keeps kind = true
    · have hkeeps' : (d.recoded s).server.keeps kind = true := hkeeps
      rw [if_pos hkeeps, if_pos hkeeps']
    · have hkeeps' : ¬ (d.recoded s).server.keeps kind = true := hkeeps
      rw [if_neg hkeeps, if_neg hkeeps']
      rfl
  | release kind =>
    obtain ⟨s, hs, rfl⟩ := h
    have hserver : Echoes { d with server := (d.server.release kind).1 }
        { d.recoded s with server := ((d.recoded s).server.release kind).1 } := ⟨s, hs, rfl⟩
    exact hserver.wakeAll (d.server.release kind).2
  | lock => exact h.relock (congrArg StoreLock.close h.lock_eq)
  | unlock => exact h.passLock (congrArg StoreLock.reopen h.lock_eq)
  | strike instant =>
    obtain ⟨s, hs, rfl⟩ := h
    have htimers : Echoes { d with clock := max d.clock instant, timers := d.timers.filter (¬ ·.due ≤ instant) }
        { d.recoded s with
          clock := max d.clock instant, timers := d.timers.filter (¬ ·.due ≤ instant) } := ⟨s, hs, rfl⟩
    exact htimers.wakeAll ((d.timers.filter (·.due ≤ instant)).map (·.caller))
  | pass instant =>
    obtain ⟨s, hs, rfl⟩ := h
    exact ⟨s, hs, rfl⟩
  | call =>
    obtain ⟨s, hs, rfl⟩ := h
    exact ⟨s, hs, rfl⟩
  | report =>
    obtain ⟨s, hs, rfl⟩ := h
    exact ⟨s, hs, rfl⟩

/-! ### The record -/

theorem cause?_eq (h : Echoes d d') (t : Task) : d'.cause? t.plain = (d.cause? t).map Cause.plain := by
  obtain ⟨s, hs, rfl⟩ := h
  obtain ⟨n, errand, position⟩ := t
  cases position with
  | begun command => rfl
  | reading r access =>
    cases access with
    | ready =>
      have hlock : (d.recoded s).lock = d.lock := rfl
      simp only [cause?, Task.plain, Position.plain, hlock]
      split <;> rfl
    | _ => rfl
  | writing w access =>
    cases access with
    | ready =>
      have hlock : (d.recoded s).lock = d.lock := rfl
      simp only [cause?, Task.plain, Position.plain, hlock]
      split <;> rfl
    | _ => rfl
  | calling request progress =>
    have hscript : (d.recoded s).server.script request.kind = (d.server.script request.kind).plain := by
      cases request <;> rfl
    cases progress with
    | heard =>
      simp only [cause?, Task.plain, Position.plain, hscript, Script.plain]
      split <;> rfl
    | answering =>
      simp only [cause?, Task.plain, Position.plain, hscript, Script.plain]
      rfl
    | _ => rfl

theorem next_eq (h : Echoes d d') (cause : Cause) :
    (cause.plain.next d'.controller d'.store).2 = (cause.next d.controller d.store).2.plain := by
  cases cause with
  | begins command =>
    rw [h.controller_eq]
    exact (begin_plain _ command).symm
  | looks r => exact (congrArg Prod.snd (h.resume_eq r)).trans (reading_plain _ _ r).symm
  | changes w =>
    rw [h.controller_eq]
    exact congrArg Prod.snd (writing_plain _ w)
  | hears request answer =>
    rw [h.controller_eq]
    exact congrArg Prod.snd (resumeCall_plain _ request answer)

theorem occursTo_eq (h : Echoes d d') (t : Task) : d'.occursTo t.plain = (d.occursTo t).map Occurrence.plain := by
  have hrest : (d'.cause? t.plain).map (fun cause =>
        Occurrence.resumed t.number cause (cause.next d'.controller d'.store).2) =
      ((d.cause? t).map fun cause =>
        Occurrence.resumed t.number cause (cause.next d.controller d.store).2).map Occurrence.plain := by
    rw [h.cause?_eq]
    cases d.cause? t with
    | none => rfl
    | some cause => exact congrArg (fun next => some (Occurrence.resumed t.number cause.plain next)) (h.next_eq cause)
  obtain ⟨n, errand, position⟩ := t
  cases position with
  | calling request progress =>
    cases progress with
    | ready => rfl
    | _ => exact hrest
  | _ => exact hrest

theorem occurs_eq (h : Echoes d d') (e : Event) : d'.occurs e.plain = (d.occurs e).map Occurrence.plain := by
  cases e with
  | begin errand command =>
    obtain ⟨s, -, rfl⟩ := h
    rfl
  | move n =>
    simp only [Event.plain, occurs, h.task?_eq]
    cases d.task? n with
    | none => rfl
    | some t => exact h.occursTo_eq t
  | probe serial =>
    simp only [Event.plain, occurs, h.probe?_eq]
    cases d.probe? serial with
    | none => rfl
    | some p =>
      simp only [Option.bind_some, occursToProbe]
      split <;> rfl
  | _ => rfl

end Echoes

/-! ## Runs -/

structure EchoesRun (r r' : Chronicle) : Prop where
  desk : Echoes r.desk r'.desk
  past : r'.past = r.past.map Occurrence.plain

theorem EchoesRun.next {r r' : Chronicle} (h : EchoesRun r r') (e : Event) :
    EchoesRun (r.next e) (r'.next e.plain) := by
  refine ⟨h.desk.perform e, ?_⟩
  simp only [Chronicle.next, h.past, h.desk.occurs_eq, List.map_append]
  cases r.desk.occurs e <;> rfl

theorem EchoesRun.foldl {r r' : Chronicle} (h : EchoesRun r r') (es : List Event) :
    EchoesRun (es.foldl Chronicle.next r) ((es.map Event.plain).foldl Chronicle.next r') := by
  induction es generalizing r r' with
  | nil => exact h
  | cons e es ih => exact ih (h.next e)

/-- The plain form of a run. -/
def Opening.plainAfter (o : Opening) (es : List Event) : Chronicle :=
  (es.map Event.plain).foldl Chronicle.next ⟨o.desk.recoded o.store, []⟩

theorem Opening.echoes_after (o : Opening) (es : List Event) : EchoesRun (o.after es) (o.plainAfter es) :=
  EchoesRun.foldl ⟨⟨o.store, rfl, rfl⟩, rfl⟩ es

/-- The same event, but that a code which the server will answer with may be spelled in another way. -/
inductive Event.Respelled : Event → Event → Prop
  | same (e : Event) : Respelled e e
  | script (kind : Wire.RequestKind) {code code' : Wire.ResultCode} (n : Int) (denotes : code.Denotes n)
      (denotes' : code'.Denotes n) (msg : Option String) (data : Option Json.Value) (delayMs : Nat) :
      Respelled (.script kind ⟨.ok ⟨code, msg, data⟩, delayMs⟩) (.script kind ⟨.ok ⟨code', msg, data⟩, delayMs⟩)

theorem Event.Respelled.plain_eq {e f : Event} (h : e.Respelled f) : f.plain = e.plain := by
  cases h with
  | same => rfl
  | script kind n denotes denotes' msg data delayMs =>
    have hmeaning := ((Wire.ResultCode.meaning_eq_iff _ n).2 denotes').trans
      ((Wire.ResultCode.meaning_eq_iff _ n).2 denotes).symm
    simp only [Event.plain, Script.plain, Answer.plain, Except.map, Wire.Response.plain,
      Wire.ResultCode.plain_eq_of_meaning hmeaning]

/-- Two runs that differ at most in how a refusal's code is written, where it is told. -/
structure SpeltAlike (r r' : Chronicle) : Prop where
  controller : r'.desk.controller = r.desk.controller
  probes : r'.desk.probes = r.desk.probes
  requests : r'.desk.calls = r.desk.calls
  clock : r'.desk.clock = r.desk.clock
  lock : r'.desk.lock = r.desk.lock
  ready : r'.desk.ready = r.desk.ready
  timers : r'.desk.timers = r.desk.timers
  tasks : r'.desk.tasks.map Task.plain = r.desk.tasks.map Task.plain
  store : r'.desk.store.wordless = r.desk.store.wordless
  results : List.Forall₂ (fun f f' => f'.1 = f.1 ∧ f.2.SameKind f'.2) r.desk.finished r'.desk.finished
  record : r'.past.map Occurrence.plain = r.past.map Occurrence.plain

theorem speltAlike_of_echoes {r r' s : Chronicle} (h : EchoesRun r s) (h' : EchoesRun r' s) : SpeltAlike r r' := by
  obtain ⟨⟨store, hstore, hdesk⟩, hpast⟩ := h
  obtain ⟨⟨store', hstore', hdesk'⟩, hpast'⟩ := h'
  have hsame : r'.desk.recoded store' = r.desk.recoded store := hdesk'.symm.trans hdesk
  have hfinished : r.desk.finished.map (fun f => (f.1, f.2.plain)) = r'.desk.finished.map fun f => (f.1, f.2.plain) :=
    congrArg Desk.finished hsame.symm
  have hresults : List.Forall₂ (fun f f' => f'.1 = f.1 ∧ f.2.SameKind f'.2) r.desk.finished r'.desk.finished := by
    rw [← List.forall₂_eq_eq_eq, List.forall₂_map_left_iff, List.forall₂_map_right_iff] at hfinished
    refine hfinished.imp fun f f' hf => ?_
    obtain ⟨hname, hresult⟩ := Prod.mk.inj hf
    exact ⟨hname.symm, Result.sameKind_of_plain hresult.symm⟩
  have hwords : store' = store := congrArg Desk.store hsame
  have part {α : Type} (f : Desk → α) : f (r'.desk.recoded store') = f (r.desk.recoded store) := congrArg f hsame
  refine ⟨part Desk.controller, part Desk.probes, part Desk.calls, part Desk.clock, part Desk.lock, part Desk.ready,
    part Desk.timers, part Desk.tasks, ?_, hresults, hpast'.symm.trans hpast⟩
  rw [← hstore', hwords, hstore]

/-- **What a code says does not depend on how it is typed**, nor on blanks around it; and if the codes that a server
answers with are spelled otherwise, no action does anything else or comes to anything else, whenever it is looked at. -/
theorem speltAlike_of_respelled (o : Opening) {es fs : List Event} (h : List.Forall₂ Event.Respelled es fs) (k : Nat) :
    Wire.ResultCode.LooselyRead ∧ SpeltAlike (o.after (es.take k)) (o.after (fs.take k)) := by
  have hplain : (fs.take k).map Event.plain = (es.take k).map Event.plain := by
    rw [← List.forall₂_eq_eq_eq, List.forall₂_map_left_iff, List.forall₂_map_right_iff]
    exact (List.forall₂_take k h).flip.imp fun f e hef => hef.plain_eq
  refine ⟨Wire.ResultCode.looselyRead, speltAlike_of_echoes (o.echoes_after _) ?_⟩
  rw [Opening.plainAfter, ← hplain]
  exact o.echoes_after (fs.take k)

/-- A start request is refused with a code of the server's own. -/
def refusedWith (code : Wire.ResultCode) : List Event :=
  .script .start ⟨.ok ⟨code, some "busy", none⟩, 0⟩ :: .begin (.command "c") .connect :: List.replicate 8 (.move 0)

theorem speltAlike_of_refusals :
    List.Forall₂ Event.Respelled (refusedWith (.number 5)) (refusedWith (.text " 5\t")) ∧
      SpeltAlike (furnished.after ((refusedWith (.number 5)).take 10))
        (furnished.after ((refusedWith (.text " 5\t")).take 10)) ∧
      (furnished.after (refusedWith (.text " 5\t"))).desk.finished =
        [("c", .outcome (.error (.refused (.serviceFailure (.text " 5\t") "busy"))))] := by
  have hscript : Event.Respelled (.script .start ⟨.ok ⟨.number 5, some "busy", none⟩, 0⟩)
      (.script .start ⟨.ok ⟨.text " 5\t", some "busy", none⟩, 0⟩) :=
    .script .start 5 (.inl rfl) (.inr ⟨_, rfl, by decide⟩) _ _ _
  have hruns : List.Forall₂ Event.Respelled (refusedWith (.number 5)) (refusedWith (.text " 5\t")) :=
    .cons hscript (List.forall₂_same.2 fun e _ => .same e)
  exact ⟨hruns, (speltAlike_of_respelled furnished hruns 10).2, rfl⟩

end AgentDesk.Desk
