import AgentDesk.Proofs.Desk.Handle
import Mathlib.Data.List.Nodup

/-! # Every event is a step of the scene

`scene_perform`, from one lemma for each kind of event. It takes a desk on which the numbers tell the actions apart and
the probes that run are the controller's own (`Orderly`), as they are after every run: a probe is aborted when its
handle is dropped, and started with a new one. -/
namespace AgentDesk.Desk
open Session Function

/-! ## Numbers -/

/-- The numbers of the actions tell them apart, and no later action will have one of them. -/
structure Numbered (d : Desk) : Prop where
  distinct : d.numbers.Nodup
  given : ∀ n ∈ d.numbers, n < d.begun

/-- A move of one action leaves all others on the list and gives no number. -/
def Keeps (n : Nat) (d d' : Desk) : Prop :=
  d'.begun = d.begun ∧ (d'.numbers = d.numbers ∨ d'.numbers = d.numbers ++ [n])

theorem keeps_park (d : Desk) (t : Task) : Keeps t.number d (d.park t) :=
  ⟨rfl, .inr (by simp [numbers, park])⟩

theorem Keeps.of_same {n : Nat} {d d' d'' : Desk} (hn : d'.numbers = d.numbers) (hb : d'.begun = d.begun)
    (h : Keeps n d' d'') : Keeps n d d'' := by
  obtain ⟨hb', hn'⟩ := h
  rw [hn] at hn'
  exact ⟨hb'.trans hb, hn'⟩

theorem keeps_conclude (d : Desk) (t : Task) (r : Result) : Keeps t.number d (putBack (d.conclude t r)) := by
  rcases conclude_cases d t r with ⟨finished, hd, -⟩ | ⟨text, hd, -⟩ <;> rw [hd]
  · exact ⟨rfl, .inl rfl⟩
  · exact keeps_park d { t with position := .writing (.toast text) .ready }

theorem keeps_follow (d : Desk) (t : Task) (next : Controller × Next) :
    Keeps t.number d (putBack (d.follow t next)) := by
  have hset : (d.setController next.1).tasks = d.tasks ∧ (d.setController next.1).begun = d.begun := by
    obtain ⟨probes, ready, hd⟩ := setController_frame d next.1
    rw [hd]
    exact ⟨rfl, rfl⟩
  have hnumbers : (d.setController next.1).numbers = d.numbers := by rw [numbers, numbers, hset.1]
  obtain ⟨c, next⟩ := next
  cases next with
  | go stage => exact (keeps_park _ { t with position := .ofStage stage }).of_same hnumbers hset.2
  | done r => exact (keeps_conclude _ t r).of_same hnumbers hset.2
  | closed => exact ⟨hset.2, .inl hnumbers⟩

theorem keeps_stepTask (d : Desk) (t : Task) : Keeps t.number d (putBack (d.stepTask t)) := by
  cases hc : d.cause? t with
  | some cause =>
    obtain ⟨-, d', hd, hstep⟩ := stepTask_of_cause hc
    rw [hstep]
    exact (keeps_follow d' t _).of_same hd.numbers hd.begun
  | none =>
    obtain ⟨d', position, hd, -, hstep⟩ := stepTask_of_wait hc
    rw [hstep]
    exact (keeps_park d' { t with position := position }).of_same hd.numbers hd.begun

theorem Numbered.transfer {d d' : Desk} (h : d.Numbered) (hn : d'.numbers = d.numbers) (hb : d'.begun = d.begun) :
    d'.Numbered :=
  ⟨by rw [hn]; exact h.distinct, by rw [hn, hb]; exact h.given⟩

theorem Numbered.moveTask {d : Desk} (h : d.Numbered) (n : Nat) : (d.moveTask n).Numbered := by
  unfold Desk.moveTask
  split
  · next t ht =>
    have hn : t.number = n := number_of_task? ht
    subst hn
    have hmem : t.number ∈ d.numbers := List.mem_map.mpr ⟨t, List.mem_of_find?_eq_some ht, rfl⟩
    have hless : (d.without t.number).numbers = d.numbers.filter (· ≠ t.number) := by
      simp only [numbers, without, List.filter_map]
      rfl
    obtain ⟨hb, hl⟩ := keeps_stepTask (d.without t.number) t
    rw [hless] at hl
    refine ⟨?_, ?_⟩
    · rcases hl with hl | hl <;> rw [hl]
      · exact h.distinct.filter _
      · refine List.nodup_append.mpr ⟨h.distinct.filter _, by simp, ?_⟩
        simp
    · rw [hb]
      intro m hm
      have : m ∈ d.numbers := by
        rcases hl with hl | hl <;> rw [hl] at hm
        · exact (List.mem_filter.mp hm).1
        · rcases List.mem_append.mp hm with hm | hm
          · exact (List.mem_filter.mp hm).1
          · rw [List.mem_singleton.mp hm]; exact hmem
      exact h.given m this
  · exact h

theorem Numbered.moveProbe {d : Desk} (h : d.Numbered) (serial : Nat) : (d.moveProbe serial).Numbered := by
  unfold Desk.moveProbe
  split
  · next p _ => obtain ⟨_, _, _, hp | ⟨_, hp⟩⟩ := stepProbe_frame d p <;> rw [hp] <;> exact h.transfer rfl rfl
  · exact h

theorem Numbered.begin {d : Desk} (h : d.Numbered) (errand : Errand) (command : Command) :
    (d.begin errand command).Numbered := by
  have hl : (d.begin errand command).numbers = d.numbers ++ [d.begun] := by simp [numbers, Desk.begin]
  refine ⟨?_, ?_⟩
  · rw [hl]
    refine List.nodup_append.mpr ⟨h.distinct, by simp, ?_⟩
    intro a ha b hb he
    have := h.given a ha
    rw [he, List.mem_singleton.mp hb] at this
    omega
  · rw [hl]
    intro m hm
    change m < d.begun + 1
    rcases List.mem_append.mp hm with hm | hm
    · have := h.given m hm
      omega
    · rw [List.mem_singleton.mp hm]
      omega

theorem Numbered.fresh {d : Desk} (h : d.Numbered) : d.plan d.begun = none := by
  simp only [plan, task?, Option.map_eq_none_iff, List.find?_eq_none, decide_eq_true_eq]
  intro t ht he
  have := h.given t.number (List.mem_map.mpr ⟨t, ht, rfl⟩)
  omega

theorem Numbered.task?_of_mem {d : Desk} (h : d.Numbered) {t : Task} (ht : t ∈ d.tasks) :
    d.task? t.number = some t := by
  cases hf : d.task? t.number with
  | none =>
    have := List.find?_eq_none.mp hf t ht
    simp at this
  | some u =>
    have hu : u.number = t.number := number_of_task? hf
    rw [List.inj_on_of_nodup_map h.distinct (List.mem_of_find?_eq_some hf) ht hu]

theorem Numbered.task?_begin {d : Desk} (h : d.Numbered) (errand : Errand) (command : Command) :
    (d.begin errand command).task? d.begun = some ⟨d.begun, errand, .begun command⟩ := by
  refine (h.begin errand command).task?_of_mem (t := ⟨d.begun, errand, .begun command⟩) ?_
  exact List.mem_append_right _ (List.mem_singleton_self _)

theorem Numbered.plan_of_mem {d : Desk} (h : d.Numbered) {t : Task} (ht : t ∈ d.tasks) :
    d.plan t.number = some t.entry := by
  rw [plan, h.task?_of_mem ht]
  rfl

theorem exists_mem_of_plan {d : Desk} {n : Nat} {entry : Errand × Post} (h : d.plan n = some entry) :
    ∃ t ∈ d.tasks, t.number = n ∧ t.entry = entry := by
  obtain ⟨t, hf, he⟩ := Option.map_eq_some_iff.mp h
  exact ⟨t, List.mem_of_find?_eq_some hf, number_of_task? hf, he⟩

theorem scene_begin {d : Desk} (h : d.plan d.begun = none) (errand : Errand) (command : Command) :
    (d.begin errand command).scene =
      { d.scene with plan := update d.plan d.begun (some (errand, .begun command)) } :=
  scene_park (t := ⟨d.begun, errand, .begun command⟩) h

theorem Numbered.perform {d : Desk} (h : d.Numbered) (e : Event) : (d.perform e).Numbered := by
  have hwake (d' : Desk) (callers : List Caller) (hn : d'.numbers = d.numbers) (hb : d'.begun = d.begun) :
      (d'.wakeAll callers).Numbered := by
    obtain ⟨hn', hb'⟩ := numbers_wakeAll callers d'
    exact h.transfer (hn'.trans hn) (hb'.trans hb)
  cases e with
  | begin errand command => exact h.begin errand command
  | move n => exact h.moveTask n
  | glance n => exact h.transfer (numbers_glance d n) rfl
  | probe serial => exact h.moveProbe serial
  | release kind => exact hwake _ _ rfl rfl
  | unlock => exact hwake _ _ rfl rfl
  | strike instant => exact hwake _ _ rfl rfl
  | _ => exact h.transfer rfl rfl

theorem Opening.numbered (o : Opening) (es : List Event) : (o.after es).desk.Numbered :=
  o.invariant (P := fun r => r.desk.Numbered) ⟨.nil, fun _ h => nomatch h⟩ (fun _ e h => h.perform e) es

/-! ## All events -/

/-- Nobody has the number of another, and no probe runs but the controller's. -/
structure Orderly (d : Desk) : Prop extends Numbered d where
  kept : d.Kept

theorem Orderly.perform {d : Desk} (h : d.Orderly) (e : Event) : (d.perform e).Orderly :=
  ⟨h.toNumbered.perform e, h.kept.perform e⟩

theorem Orderly.foldl_perform {d : Desk} (h : d.Orderly) (es : List Event) : (es.foldl Desk.perform d).Orderly :=
  List.foldlRecOn es Desk.perform h fun _ hd e _ => hd.perform e

theorem Opening.orderly (o : Opening) (es : List Event) : (o.after es).desk.Orderly :=
  o.invariant (P := fun r => r.desk.Orderly) ⟨o.numbered [], rfl⟩ (fun _ e h => h.perform e) es

theorem scene_moveProbe_step {d : Desk} (h : d.Kept) (serial : Nat) :
    d.scene.Step (d.occurs (.probe serial)) (d.moveProbe serial).scene := by
  rw [scene_moveProbe]
  cases hx : d.occurs (.probe serial) with
  | none => exact .quiet
  | some x =>
    cases happens_of_occurs hx with
    | @pinged p next running due => exact .pinged (h := p.handle) (h.of_mem running).2

theorem scene_perform {d : Desk} (h : d.Orderly) (e : Event) :
    d.scene.Step (d.occurs e) (d.perform e).scene := by
  cases e with
  | begin errand command =>
    simp only [occurs, perform]
    rw [scene_begin h.fresh]
    exact .begun h.fresh errand command
  | edit e => exact .edited e
  | move n => exact scene_moveTask d n
  | glance n => exact scene_glance d n
  | probe serial => exact scene_moveProbe_step h.kept serial
  | release kind => exact quiet_of_eq (scene_wakeAll _ { d with server := (d.server.release kind).1 })
  | unlock => exact quiet_of_eq (scene_passLock d _)
  | strike instant =>
    exact quiet_of_eq (scene_wakeAll _
      { d with clock := max d.clock instant, timers := d.timers.filter (¬ ·.due ≤ instant) })
  | script kind script => exact .quiet
  | hold kind => exact .quiet
  | lock => exact .quiet
  | pass instant => exact .quiet
  | call => exact .quiet
  | report => exact .quiet

/-- What holds of a new desk's scene and of an empty record, and survives every step of a scene, holds of every
run: the shape of all that is proved of the session. -/
theorem Opening.scene_invariant (o : Opening) {P : Scene → List Occurrence → Prop} (start : P o.desk.scene [])
    (step : ∀ s x s' past, P s past → s.Step x s' → P s' (past ++ x.toList)) (es : List Event) :
    P (o.after es).desk.scene (o.after es).past := by
  have h := o.invariant (P := fun r => r.desk.Orderly ∧ P r.desk.scene r.past) ⟨o.orderly [], start⟩
    (fun r e h => ⟨h.1.perform e, step _ _ _ _ h.2 (scene_perform h.1 e)⟩) es
  exact h.2

end AgentDesk.Desk
