import AgentDesk.Proofs.Desk.Beat
import AgentDesk.Proofs.Desk.Scene

/-! # Moves as steps of the scene

A move of an action is a step of the scene only if it sends a request or resumes the action (`cause?`); any other move
leaves the scene as it is, and so does all that a probe does by itself. -/
namespace AgentDesk.Desk
open Session Function

/-! ## Desks that differ in how their actions wait -/

def numbers (d : Desk) : List Nat := d.tasks.map Task.number

/-- Who waits for what, and when, is of no account. -/
structure Alike (d d' : Desk) : Prop where
  scene : d'.scene = d.scene
  numbers : d'.numbers = d.numbers
  begun : d'.begun = d.begun
  probes : d'.probes = d.probes

theorem Alike.refl (d : Desk) : Alike d d := ⟨rfl, rfl, rfl, rfl⟩

theorem numbers_wake (d : Desk) (caller : Caller) : (d.wake caller).numbers = d.numbers := by
  cases caller with
  | probe s => rfl
  | task n =>
    simp only [numbers, wake, List.map_map]
    congr 1
    funext t
    simp only [comp_apply]
    split <;> rfl

theorem numbers_wakeAll (callers : List Caller) (d : Desk) :
    (d.wakeAll callers).numbers = d.numbers ∧ (d.wakeAll callers).begun = d.begun := by
  induction callers generalizing d with
  | nil => exact ⟨rfl, rfl⟩
  | cons caller callers ih =>
    obtain ⟨hn, hb⟩ := ih (d.wake caller)
    refine ⟨hn.trans (numbers_wake d caller), hb.trans ?_⟩
    cases caller <;> rfl

/-- Whoever is let into the store is an action. -/
theorem probes_passLock (d : Desk) (r : StoreLock × List Visit) : (d.passLock r).probes = d.probes := by
  obtain ⟨lock, visits⟩ := r
  suffices ∀ d' : Desk, (d'.wakeAll (visits.map fun v => Caller.task v.visitor)).probes = d'.probes from this _
  induction visits with
  | nil => exact fun _ => rfl
  | cons v visits ih => exact fun d' => ih (d'.wake (.task v.visitor))

theorem alike_passLock (d : Desk) (r : StoreLock × List Visit) : Alike d (d.passLock r) := by
  obtain ⟨hn, hb⟩ := numbers_wakeAll (r.2.map fun v => Caller.task v.visitor) { d with lock := r.1 }
  exact ⟨scene_passLock d r, hn, hb, probes_passLock d r⟩

/-- A request concerns the server, its record and the timers. -/
theorem converse_frame (d : Desk) (caller : Caller) (request : Wire.Request) (progress : Progress) :
    ∃ server calls timers, (d.converse caller request progress).1 =
      { d with server := server, calls := calls, timers := timers } := by
  cases progress with
  | ready => simp only [converse]; split <;> exact ⟨_, _, _, rfl⟩
  | heard => simp only [converse]; split <;> exact ⟨_, _, _, rfl⟩
  | answering => exact ⟨_, _, _, rfl⟩
  | held => exact ⟨_, _, _, rfl⟩
  | delayed => exact ⟨_, _, _, rfl⟩

theorem alike_converse (d : Desk) (caller : Caller) (request : Wire.Request) (progress : Progress) :
    Alike d (d.converse caller request progress).1 := by
  obtain ⟨server, calls, timers, h⟩ := converse_frame d caller request progress
  rw [h]
  exact ⟨rfl, rfl, rfl, rfl⟩

/-! ## Moves of an action -/

/-- Where a move that resumes an action leads, in the scene. -/
def Cause.lead (d : Desk) (t : Task) (cause : Cause) : Scene where
  controller := (cause.next d.controller d.store).1
  store := cause.store d.store
  plan := update d.plan t.number (nextEntry t.errand (cause.next d.controller d.store).2)

theorem scene_park {d : Desk} {t : Task} (h : d.plan t.number = none) :
    (d.park t).scene = { d.scene with plan := update d.plan t.number (some t.entry) } := by
  simp only [scene, plan_park h]
  rfl

theorem update_absent {d : Desk} {n : Nat} (h : d.plan n = none) : update d.plan n none = d.plan := by
  rw [← h, update_eq_self]

/-- What is left of an action with its result: nothing but a report, or the toast that it has yet to show. -/
theorem conclude_cases (d : Desk) (t : Task) (r : Result) :
    (∃ finished, putBack (d.conclude t r) = { d with finished := finished } ∧
        nextEntry t.errand (.done r) = none) ∨
      ∃ text, putBack (d.conclude t r) = d.park { t with position := .writing (.toast text) .ready } ∧
        nextEntry t.errand (.done r) = some (t.errand, .within (.writing (.toast text))) := by
  obtain ⟨n, errand, position⟩ := t
  cases errand with
  | button =>
    rcases r with ((e | e) | _) | _
    · exact .inl ⟨_, rfl, rfl⟩
    · exact .inr ⟨e.message, rfl, rfl⟩
    · exact .inl ⟨_, rfl, rfl⟩
    · exact .inl ⟨_, rfl, rfl⟩
  | command name => rcases r with ((_ | e) | _) | _ <;> exact .inl ⟨_, rfl, rfl⟩
  | lookout => rcases r with ((_ | e) | _) | _ <;> exact .inl ⟨_, rfl, rfl⟩

theorem scene_conclude {d : Desk} {t : Task} (h : d.plan t.number = none) (r : Result) :
    (putBack (d.conclude t r)).scene =
      { d.scene with plan := update d.plan t.number (nextEntry t.errand (.done r)) } := by
  rcases conclude_cases d t r with ⟨finished, hd, hn⟩ | ⟨text, hd, hn⟩
  · rw [hd, hn, update_absent h]
    rfl
  · rw [hd, hn]
    exact scene_park h

/-- What a new controller brings with it concerns the probes that run. -/
theorem setController_frame (d : Desk) (c : Controller) :
    ∃ probes ready, d.setController c = { d with controller := c, probes := probes, ready := ready } := by
  unfold setController
  split
  · exact ⟨_, _, rfl⟩
  · cases d.controller.probe <;> cases c.probe <;> exact ⟨_, _, rfl⟩

theorem scene_follow {d : Desk} {t : Task} (h : d.plan t.number = none) (next : Controller × Next) :
    (putBack (d.follow t next)).scene =
      { d.scene with controller := next.1, plan := update d.plan t.number (nextEntry t.errand next.2) } := by
  have hset : (d.setController next.1).scene = { d.scene with controller := next.1 } := by
    obtain ⟨probes, ready, hd⟩ := setController_frame d next.1
    rw [hd]
    rfl
  have hplan : (d.setController next.1).plan = d.plan := congrArg Scene.plan hset
  have habsent : (d.setController next.1).plan t.number = none := by rw [hplan, h]
  obtain ⟨c, next⟩ := next
  cases next with
  | go stage =>
    have hp := scene_park (d := d.setController c) (t := { t with position := .ofStage stage }) habsent
    simp only [follow, putBack, nextEntry]
    rw [hp, hplan, hset, Task.entry, Position.post_ofStage]
  | done r =>
    simp only [follow]
    rw [scene_conclude habsent, hplan, hset]
  | closed =>
    simp only [follow, putBack, nextEntry]
    rw [hset, update_absent h]
    rfl

/-- A move that resumes an action does what the cause asks for and follows where it leads. -/
theorem stepTask_of_cause {d : Desk} {t : Task} {cause : Cause} (hc : d.cause? t = some cause) :
    t.position.post = cause.post ∧ ∃ d', Alike { d with store := cause.store d.store } d' ∧
      d.stepTask t = d'.follow t (cause.next d.controller d.store) := by
  obtain ⟨n, errand, position⟩ := t
  cases position with
  | begun command =>
    cases hc
    exact ⟨rfl, d, .refl _, rfl⟩
  | reading r access =>
    cases access with
    | ready =>
      simp only [cause?] at hc
      split at hc
      · next hin =>
        cases hc
        refine ⟨rfl, d, .refl _, ?_⟩
        simp only [stepTask, if_pos hin]
        rfl
      · cases hc
    | queued => cases hc
    | admitted =>
      cases hc
      exact ⟨rfl, _, alike_passLock d _, rfl⟩
  | writing w access =>
    cases access with
    | ready =>
      simp only [cause?] at hc
      split at hc
      · next hin =>
        cases hc
        refine ⟨rfl, _, .refl _, ?_⟩
        simp only [stepTask, if_pos hin]
        rfl
      · cases hc
    | queued => cases hc
    | admitted =>
      cases hc
      exact ⟨rfl, _, alike_passLock { d with store := d.store.dispatch w.action } _, rfl⟩
  | calling request progress =>
    cases progress with
    | heard =>
      simp only [cause?] at hc
      split at hc
      · next hnow =>
        cases hc
        refine ⟨rfl, d, .refl _, ?_⟩
        simp only [stepTask, converse, if_pos hnow]
        rfl
      · cases hc
    | answering =>
      cases hc
      exact ⟨rfl, d, .refl _, rfl⟩
    | ready => cases hc
    | held => cases hc
    | delayed => cases hc

/-- Any other move puts the action aside again; at most its request has reached the server. -/
theorem stepTask_of_wait {d : Desk} {t : Task} (hc : d.cause? t = none) :
    ∃ d' position, Alike d d' ∧ position.post = t.position.post.sent ∧
      putBack (d.stepTask t) = d'.park { t with position := position } := by
  obtain ⟨n, errand, position⟩ := t
  cases position with
  | begun command => cases hc
  | reading r access =>
    cases access with
    | ready =>
      simp only [cause?] at hc
      split at hc
      · cases hc
      · next hout =>
        refine ⟨{ d with lock := d.lock.enqueue ⟨n, .read⟩ }, .reading r .queued, ⟨rfl, rfl, rfl, rfl⟩, rfl,
          ?_⟩
        simp only [stepTask, if_neg hout]
        rfl
    | queued => exact ⟨d, _, .refl d, rfl, rfl⟩
    | admitted => cases hc
  | writing w access =>
    cases access with
    | ready =>
      simp only [cause?] at hc
      split at hc
      · cases hc
      · next hout =>
        refine ⟨{ d with lock := d.lock.enqueue ⟨n, .write⟩ }, .writing w .queued, ⟨rfl, rfl, rfl, rfl⟩, rfl,
          ?_⟩
        simp only [stepTask, if_neg hout]
        rfl
    | queued => exact ⟨d, _, .refl d, rfl, rfl⟩
    | admitted => cases hc
  | calling request progress =>
    cases progress with
    | ready =>
      have ha := alike_converse d (.task n) request .ready
      by_cases hkept : d.server.keeps request.kind = true
      · refine ⟨_, .calling request .held, ha, rfl, ?_⟩
        simp only [stepTask, converse, if_pos hkept]
        rfl
      · refine ⟨_, .calling request .heard, ha, rfl, ?_⟩
        simp only [stepTask, converse, if_neg hkept]
        rfl
    | heard =>
      simp only [cause?] at hc
      split at hc
      · cases hc
      · next hlate =>
        refine ⟨d.startTimer (d.server.script request.kind).delayMs (.task n), .calling request .delayed,
          ⟨rfl, rfl, rfl, rfl⟩, rfl, ?_⟩
        simp only [stepTask, converse, if_neg hlate]
        rfl
    | answering => cases hc
    | held => exact ⟨d, _, .refl d, rfl, rfl⟩
    | delayed => exact ⟨d, _, .refl d, rfl, rfl⟩

theorem scene_of_cause {d : Desk} {t : Task} {cause : Cause} (h : d.plan t.number = none)
    (hc : d.cause? t = some cause) :
    t.position.post = cause.post ∧ (putBack (d.stepTask t)).scene = cause.lead d t := by
  obtain ⟨hpost, d', hd, hstep⟩ := stepTask_of_cause hc
  have hp : d'.plan = d.plan := congrArg Scene.plan hd.scene
  rw [hstep, scene_follow (by rw [hp, h]), hd.scene, hp]
  exact ⟨hpost, rfl⟩

theorem scene_of_wait {d : Desk} {t : Task} (h : d.plan t.number = none) (hc : d.cause? t = none) :
    (putBack (d.stepTask t)).scene =
      { d.scene with plan := update d.plan t.number (some (t.errand, t.position.post.sent)) } := by
  obtain ⟨d', position, hd, hpost, hstep⟩ := stepTask_of_wait hc
  have hp : d'.plan = d.plan := congrArg Scene.plan hd.scene
  rw [hstep, scene_park (hp ▸ h), hd.scene, hp, Task.entry, hpost]

/-- A move is a step on the record, or leaves the scene as it is. -/
theorem scene_moveTask_cases (d : Desk) (n : Nat) :
    (∃ x, d.occurs (.move n) = some x ∧ d.scene.Step (some x) (d.moveTask n).scene) ∨
      d.occurs (.move n) = none ∧ (d.moveTask n).scene = d.scene := by
  cases ht : d.task? n with
  | none =>
    have hstays : d.moveTask n = d := by simp only [moveTask, ht]
    exact .inr ⟨by simp only [occurs, ht, Option.bind_none], by rw [hstays]⟩
  | some t =>
    have hn : t.number = n := number_of_task? ht
    subst hn
    have hstood : d.plan t.number = some (t.errand, t.position.post) := by simp [plan, ht, Task.entry]
    have hleft : (d.without t.number).plan t.number = none := by rw [plan_without, update_self]
    simp only [occurs, moveTask, ht, Option.bind_some]
    cases hc : d.cause? t with
    | some cause =>
      obtain ⟨hpost, hscene⟩ := scene_of_cause (d := d.without t.number) hleft hc
      have hrec : d.occursTo t = some (.resumed t.number cause (cause.next d.controller d.store).2) := by
        unfold occursTo
        split
        · next h => simp [cause?, h] at hc
        · rw [hc]; rfl
      rw [hrec, hscene, Cause.lead, plan_without, update_idem]
      exact .inl ⟨_, rfl, .resumed cause (hpost ▸ hstood)⟩
    | none =>
      -- Of all waits, only the one for an answer begins with a step: the request reaches the server.
      rw [scene_of_wait (d := d.without t.number) hleft hc, plan_without, update_idem]
      by_cases hready : ∃ request, t.position = .calling request .ready
      · obtain ⟨request, hready⟩ := hready
        rw [hready] at hstood ⊢
        simp only [occursTo, hready]
        exact .inl ⟨_, rfl, .sent hstood⟩
      · have hsent : t.position.post.sent = t.position.post := by
          cases hpos : t.position with
          | calling request progress =>
            cases progress with
            | ready => exact absurd ⟨request, hpos⟩ hready
            | _ => rfl
          | _ => rfl
        have hrec : d.occursTo t = none := by
          unfold occursTo
          split
          · next h => exact absurd ⟨_, h⟩ hready
          · rw [hc]; rfl
        have hsame : update d.plan t.number (some (t.errand, t.position.post)) = d.plan := by
          rw [← hstood, update_eq_self]
        rw [hrec, hsent, hsame]
        exact .inr ⟨rfl, rfl⟩

theorem scene_moveTask (d : Desk) (n : Nat) : d.scene.Step (d.occurs (.move n)) (d.moveTask n).scene := by
  obtain ⟨x, hx, st⟩ | ⟨hx, hsame⟩ := scene_moveTask_cases d n
  · rw [hx]
    exact st
  · rw [hx, hsame]
    exact .quiet

/-- A move of an action resumes it, or leaves the controller and the store alone. -/
theorem moveTask_cases (d : Desk) (n : Nat) :
    (∃ cause next, d.occurs (.move n) = some (.resumed n cause next)) ∨
      ((d.moveTask n).controller = d.controller ∧ (d.moveTask n).store = d.store) := by
  cases ht : d.task? n with
  | none =>
    refine .inr ?_
    simp [moveTask, ht]
  | some t =>
    have hn : t.number = n := number_of_task? ht
    subst hn
    cases hc : d.cause? t with
    | some cause =>
      refine .inl ⟨cause, (cause.next d.controller d.store).2, ?_⟩
      simp only [occurs, ht, Option.bind_some, occursTo]
      split
      · next h => simp [cause?, h] at hc
      · rw [hc]; rfl
    | none =>
      have hleft : (d.without t.number).plan t.number = none := by rw [plan_without, update_self]
      have hscene := scene_of_wait (d := d.without t.number) hleft hc
      refine .inr ?_
      simp only [moveTask, ht]
      exact ⟨congrArg Scene.controller hscene, congrArg Scene.store hscene⟩

/-! ## A look at the state -/

theorem numbers_glance (d : Desk) (n : Nat) : (d.glance n).numbers = d.numbers := by
  simp only [numbers, glance, List.map_map]
  congr 1
  funext t
  simp only [comp_apply]
  split <;> rfl

theorem task?_glance (d : Desk) (n : Nat) :
    (d.glance n).task? =
      update d.task? n ((d.task? n).map fun t => { t with position := t.position.chosen d.controller }) := by
  funext m
  have hnumber : (fun t : Task => decide (t.number = m)) ∘
      (fun t => if t.number = n then { t with position := t.position.chosen d.controller } else t) =
      fun t => decide (t.number = m) := by
    funext t
    simp only [comp_apply]
    split <;> rfl
  simp only [task?, glance, List.find?_map, hnumber]
  by_cases hm : m = n
  · subst hm
    rw [update_self]
    refine Option.map_congr fun t ht => if_pos ?_
    exact number_of_task? ht
  · rw [update_of_ne hm]
    refine (Option.map_congr fun t ht => if_neg ?_).trans Option.map_id'
    rw [number_of_task? (d := d) ht]
    exact hm

theorem scene_glance (d : Desk) (n : Nat) : d.scene.Step none (d.glance n).scene := by
  have hplan : (d.glance n).plan = update d.plan n
      (((d.task? n).map fun t => { t with position := t.position.chosen d.controller }).map Task.entry) := by
    change Option.map Task.entry ∘ (d.glance n).task? = _
    rw [task?_glance, comp_update]
    rfl
  have hsame (h : (d.glance n).plan = d.plan) : d.scene.Step none (d.glance n).scene := by
    refine quiet_of_eq ?_
    simp only [scene, h]
    rfl
  cases ht : d.task? n with
  | none =>
    refine hsame (hplan.trans ?_)
    rw [ht, Option.map_none, Option.map_none]
    exact update_absent (by rw [plan, ht]; rfl)
  | some t =>
    have hstood : d.plan n = some t.entry := by rw [plan, ht]; rfl
    cases hpos : t.position with
    | begun command =>
      have hscene : (d.glance n).scene =
          { d.scene with plan := update d.plan n (some (t.errand, .begun (choose d.controller command))) } := by
        simp only [scene, hplan, ht, Option.map_some, Task.entry, hpos]
        rfl
      rw [hscene]
      refine .chosen (hstood.trans ?_)
      rw [Task.entry, hpos]
      rfl
    | _ =>
      refine hsame (hplan.trans ?_)
      rw [ht, Option.map_some, Option.map_some, ← update_eq_self n d.plan, hstood]
      simp only [Task.entry, hpos, Position.chosen, update_idem]

/-! ## Moves of a probe -/

/-- Whatever a probe does, beside that it only gets on with its schedule. -/
theorem stepProbe_frame (d : Desk) (p : Liveness.Probe) :
    ∃ server calls timers, (d.stepProbe p).1 = { d with server := server, calls := calls, timers := timers } ∨
      ∃ phase, (d.stepProbe p).1 =
        setProbe { d with server := server, calls := calls, timers := timers } { p with phase := phase } := by
  have hbeat := stepProbe_beat d p
  generalize d.stepProbe p = result at hbeat ⊢
  cases hbeat with
  | early waits later => exact ⟨_, _, _, .inl rfl⟩
  | _ => exact ⟨_, _, _, .inr ⟨_, rfl⟩⟩

theorem scene_moveProbe (d : Desk) (serial : Nat) : (d.moveProbe serial).scene = d.scene := by
  unfold moveProbe
  split
  · next p _ => obtain ⟨_, _, _, h | ⟨_, h⟩⟩ := stepProbe_frame d p <;> rw [h] <;> rfl
  · rfl

end AgentDesk.Desk
