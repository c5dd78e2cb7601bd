import AgentDesk.Proofs.Desk.Lists

/-! # Whoever waits at the store gets in

After every run those who wait are on their lists, and at an open store nobody queues with nobody inside (`Waiting`).
So whoever queues is let in as soon as those who are inside have made their moves (`Waiting.admits`): no order of
moves, edits and answers leaves an action waiting at the store for ever. -/
namespace AgentDesk.Desk
open Session Function

/-- Nobody queues at an open store with nobody inside. -/
def Served (d : Desk) : Prop := d.lock.closed = false → d.lock.queue ≠ [] → d.lock.inside ≠ []

structure Waiting (d : Desk) : Prop extends Listed d where
  served : d.Served

namespace Listed

variable {d : Desk}

/-- After somebody has left the lock, whoever fits is let in, so that nobody is left to queue alone. -/
theorem afterLeaving (h : Listed d) : Waiting (d.passLock d.lock.afterLeaving) := by
  have hlock : (d.passLock d.lock.afterLeaving).lock = d.lock.afterLeaving.1 := (lists_wakeAll _ _).1
  cases hclosed : d.lock.closed with
  | true =>
    have hsame : d.lock.afterLeaving = (d.lock, []) := by
      unfold StoreLock.afterLeaving
      rw [if_pos hclosed]
    refine ⟨?_, fun hopen => ?_⟩
    · rw [hsame]
      exact h
    · rw [hlock, hsame, hclosed] at hopen
      cases hopen
  | false =>
    have hlet : d.lock.afterLeaving =
        ({ d.lock with
            inside := d.lock.inside ++ d.lock.queue.take (StoreLock.room d.lock.inside d.lock.queue)
            queue := d.lock.queue.drop (StoreLock.room d.lock.inside d.lock.queue) },
          d.lock.queue.take (StoreLock.room d.lock.inside d.lock.queue)) := by
      unfold StoreLock.afterLeaving
      rw [if_neg (by rw [hclosed]; nofun)]
    refine ⟨?_, fun _ hqueue hinside => ?_⟩
    · rw [hlet]
      exact letIn rfl rfl h
    · rw [hlock, hlet] at hqueue hinside
      obtain ⟨hnobody, htake⟩ := List.append_eq_nil_iff.mp hinside
      rw [hnobody] at htake hqueue
      cases hq : d.lock.queue with
      | nil =>
        rw [hq] at hqueue
        exact hqueue List.drop_nil
      | cons v rest =>
        rw [hq] at htake
        have hroom : StoreLock.room [] (v :: rest) = StoreLock.room [v] rest + 1 := by
          rw [StoreLock.room, if_pos]
          · rfl
          · cases v.purpose <;> rfl
        rw [hroom, List.take_succ_cons] at htake
        cases htake

end Listed

/-! ## Waking those on the server's and on the clock's list -/

theorem task_mem_map {α : Type} {l : List α} {g : α → Caller} {m : Nat} :
    Caller.task m ∈ l.map g ↔ m ∈ l.filterMap fun a => (g a).task? := by
  rw [List.mem_map, List.mem_filterMap]
  refine exists_congr fun a => and_congr_right fun _ => ?_
  cases g a <;> simp [Caller.task?]

/-- Of a list without repetition, what is not taken out is left. -/
theorem mem_filterMap_filter_not {α : Type} {l : List α} {f : α → Option Nat} (p : α → Bool)
    (h : (l.filterMap f).Nodup) (m : Nat) :
    m ∈ (l.filter fun a => !p a).filterMap f ↔ m ∈ l.filterMap f ∧ m ∉ (l.filter p).filterMap f := by
  have hperm : ((l.filter p).filterMap f ++ (l.filter fun a => !p a).filterMap f).Perm (l.filterMap f) := by
    rw [← List.filterMap_append]
    exact (List.filter_append_perm p l).filterMap f
  have hapart := (List.nodup_append.mp (hperm.nodup_iff.mpr h)).2.2
  rw [← hperm.mem_iff, List.mem_append]
  refine ⟨fun hm => ⟨.inr hm, fun hm' => hapart m hm' m hm rfl⟩, fun ⟨hm, hnot⟩ => hm.resolve_left hnot⟩

/-- Where an action goes on, it moves nobody on a list and is on none itself. -/
theorem lists_follow {d : Desk} {t : Task} (hnone : d.task? t.number = none) (next : Controller × Next) :
    ∃ w, Unlisted w ∧ (putBack (d.follow t next)).lock = d.lock ∧
      (putBack (d.follow t next)).keptTasks = d.keptTasks ∧ (putBack (d.follow t next)).timedTasks = d.timedTasks ∧
      (putBack (d.follow t next)).wait = update d.wait t.number w := by
  have hset (c : Controller) : (d.setController c).lock = d.lock ∧ (d.setController c).server = d.server ∧
      (d.setController c).timers = d.timers ∧ (d.setController c).tasks = d.tasks := by
    obtain ⟨probes, ready, hd⟩ := setController_frame d c
    rw [hd]
    exact ⟨rfl, rfl, rfl, rfl⟩
  obtain ⟨c, next⟩ := next
  obtain ⟨hl, hs, ht, htasks⟩ := hset c
  have hkept : (d.setController c).keptTasks = d.keptTasks := by rw [keptTasks, hs, keptTasks]
  have htimed : (d.setController c).timedTasks = d.timedTasks := by rw [timedTasks, ht, timedTasks]
  have hwait : (d.setController c).wait = d.wait := by
    funext m
    rw [wait, task?, htasks, wait, task?]
  have hnone' : (d.setController c).task? t.number = none := by rwa [task?, htasks]
  have hgone : update d.wait t.number none = d.wait := by
    have hn : d.wait t.number = none := by rw [wait, hnone, Option.bind_none]
    rw [← hn, update_eq_self]
  have hpark (position : Position) := wait_park (t := { t with position := position }) hnone'
  rw [hwait] at hpark
  cases next with
  | go stage =>
    refine ⟨_, ?_, hl, hkept, htimed, hpark (.ofStage stage)⟩
    cases stage <;> exact unlisted_some rfl
  | closed => exact ⟨none, unlisted_none, hl, hkept, htimed, hwait.trans hgone.symm⟩
  | done r =>
    rcases conclude_cases (d.setController c) t r with ⟨finished, hd, -⟩ | ⟨text, hd, -⟩
    · have hd' : putBack (d.follow t (c, .done r)) = _ := hd
      rw [hd']
      exact ⟨none, unlisted_none, hl, hkept, htimed, hwait.trans hgone.symm⟩
    · have hd' : putBack (d.follow t (c, .done r)) = _ := hd
      rw [hd']
      exact ⟨_, unlisted_some rfl, hl, hkept, htimed, hpark (.writing (.toast text) .ready)⟩

namespace Waiting

variable {d d' : Desk}

theorem transfer (h : Waiting d) (hl : d'.lock = d.lock) (hk : d'.keptTasks = d.keptTasks)
    (ht : d'.timedTasks = d.timedTasks) (hw : d'.wait = d.wait) : Waiting d' :=
  ⟨h.toListed.transfer hl hk ht hw, by rw [Served, hl]; exact h.served⟩

theorem aside (h : Waiting d) {n : Nat} {w : Option Wait} (hold : Unlisted (d.wait n)) (hnew : Unlisted w)
    (hl : d'.lock = d.lock) (hk : d'.keptTasks = d.keptTasks) (ht : d'.timedTasks = d.timedTasks)
    (hw : d'.wait = update d.wait n w) : Waiting d' :=
  ⟨h.toListed.aside hold hnew hl hk ht hw, by rw [Served, hl]; exact h.served⟩

/-- Those on a list who have waited long enough leave it and are woken. -/
theorem free (h : Waiting d) (w : Wait) (hwoken : w.woken.listed = false) (callers : List Caller)
    (hcallers : ∀ m, Caller.task m ∈ callers → d.OnList m w) (hl : d'.lock = d.lock)
    (hw : d'.wait = (d.wakeAll callers).wait) (hleft : ∀ m, d'.OnList m w ↔ d.OnList m w ∧ Caller.task m ∉ callers)
    (hsame : ∀ m x, x ≠ w → (d'.OnList m x ↔ d.OnList m x)) (hkept : d'.keptTasks.Nodup)
    (htimed : d'.timedTasks.Nodup) : Waiting d' := by
  refine ⟨⟨hl ▸ h.visitors, hkept, htimed, fun m x => ?_⟩, by rw [Served, hl]; exact h.served⟩
  rw [hw, wait_wakeAll]
  by_cases hm : Caller.task m ∈ callers
  · have hwait := ((h.iff m w).mp (hcallers m hm)).1
    rw [if_pos hm, hwait, Option.map_some]
    refine ⟨fun hx => ?_, fun ⟨hx, hlisted⟩ => ?_⟩
    · by_cases hxw : x = w
      · subst hxw
        exact absurd hm ((hleft m).mp hx).2
      · have hx' := ((h.iff m x).mp ((hsame m x hxw).mp hx)).1
        rw [hwait] at hx'
        exact absurd (Option.some.inj hx').symm hxw
    · rw [← Option.some.inj hx, hwoken] at hlisted
      cases hlisted
  · rw [if_neg hm, ← h.iff]
    by_cases hxw : x = w
    · subst hxw
      rw [hleft]
      exact ⟨And.left, fun hx => ⟨hx, hm⟩⟩
    · exact hsame m x hxw

theorem release (h : Waiting d) (kind : Wire.RequestKind) : Waiting (d.release kind) := by
  have hd : d.release kind = wakeAll { d with server := (d.server.release kind).1 } (d.server.release kind).2 := rfl
  obtain ⟨hl, hs, ht⟩ := lists_wakeAll (d.server.release kind).2 { d with server := (d.server.release kind).1 }
  rw [← hd] at hl hs ht
  have hkept : (d.release kind).keptTasks =
      (d.server.kept.filter fun k => !decide (k.1 = kind)).filterMap fun k => k.2.task? := by
    rw [keptTasks, hs]
    simp only [Server.release, ne_eq, decide_not]
  have hcallers (m : Nat) : Caller.task m ∈ (d.server.release kind).2 ↔
      m ∈ (d.server.kept.filter fun k => decide (k.1 = kind)).filterMap fun k => k.2.task? := task_mem_map
  refine h.free (.server .held) rfl (d.server.release kind).2 (fun m hm => ?_) hl ?_ (fun m => ?_)
    (fun m x hx => ?_) ?_ ?_
  · exact (List.filter_sublist.filterMap _).subset ((hcallers m).mp hm)
  · funext m
    rw [hd, wait_wakeAll, wait_wakeAll]
    rfl
  · rw [OnList, OnList, hcallers, hkept]
    exact mem_filterMap_filter_not (fun k => decide (k.1 = kind)) h.kept m
  · cases x with
    | server progress =>
      cases progress with
      | held => exact absurd rfl hx
      | delayed => rw [OnList, OnList, timedTasks, timedTasks, ht]
      | _ => rfl
    | store q access =>
      cases access with
      | ready => rfl
      | _ => rw [OnList, OnList, hl]
  · rw [hkept]
    exact h.kept.sublist (List.filter_sublist.filterMap _)
  · rw [timedTasks, ht]
    exact h.timed

theorem strike (h : Waiting d) (instant : Nat) : Waiting (d.strike instant) := by
  have hd : d.strike instant =
      wakeAll { d with clock := max d.clock instant, timers := d.timers.filter (¬ ·.due ≤ instant) }
        ((d.timers.filter (·.due ≤ instant)).map (·.caller)) := rfl
  obtain ⟨hl, hs, ht⟩ := lists_wakeAll ((d.timers.filter (·.due ≤ instant)).map (·.caller))
    { d with clock := max d.clock instant, timers := d.timers.filter (¬ ·.due ≤ instant) }
  rw [← hd] at hl hs ht
  have htimed : (d.strike instant).timedTasks =
      (d.timers.filter fun t => !decide (t.due ≤ instant)).filterMap fun t => t.caller.task? := by
    rw [timedTasks, ht]
    simp only [decide_not]
  have hcallers (m : Nat) : Caller.task m ∈ (d.timers.filter (·.due ≤ instant)).map (·.caller) ↔
      m ∈ (d.timers.filter fun t => decide (t.due ≤ instant)).filterMap fun t => t.caller.task? := task_mem_map
  refine h.free (.server .delayed) rfl ((d.timers.filter (·.due ≤ instant)).map (·.caller))
    (fun m hm => ?_) hl ?_ (fun m => ?_) (fun m x hx => ?_) ?_ ?_
  · exact (List.filter_sublist.filterMap _).subset ((hcallers m).mp hm)
  · funext m
    rw [hd, wait_wakeAll, wait_wakeAll]
    rfl
  · rw [OnList, OnList, hcallers, htimed]
    exact mem_filterMap_filter_not (fun t => decide (t.due ≤ instant)) h.timed m
  · cases x with
    | server progress =>
      cases progress with
      | delayed => exact absurd rfl hx
      | held => rw [OnList, OnList, keptTasks, keptTasks, hs]
      | _ => rfl
    | store q access =>
      cases access with
      | ready => rfl
      | _ => rw [OnList, OnList, hl]
  · rw [keptTasks, hs]
    exact h.kept
  · rw [htimed]
    exact h.timed.sublist (List.filter_sublist.filterMap _)

/-! ## Moves -/

theorem park (h : Waiting d) {t : Task} (hnone : d.task? t.number = none) (hnew : Unlisted t.position.wait?) :
    Waiting (d.park t) := by
  have hwait : d.wait t.number = none := by rw [wait, hnone, Option.bind_none]
  exact h.aside (hwait ▸ unlisted_none) hnew rfl rfl rfl (wait_park hnone)

/-- An action that is on no list goes on to where it is on no list. -/
theorem follow (h : Waiting d) {t : Task} (hnone : d.task? t.number = none) (next : Controller × Next) :
    Waiting (putBack (d.follow t next)) := by
  have hwait : d.wait t.number = none := by rw [wait, hnone, Option.bind_none]
  obtain ⟨w, hnew, hl, hk, ht, hw⟩ := lists_follow hnone next
  exact h.aside (hwait ▸ unlisted_none) hnew hl hk ht hw

theorem without (h : Waiting d) {n : Nat} (hn : Unlisted (d.wait n)) : Waiting (d.without n) :=
  h.aside hn unlisted_none rfl rfl rfl (wait_without d n)

/-- Who is put aside again where he was waits as before. -/
theorem putAside (h : Waiting d) {t : Task} (ht : d.task? t.number = some t) {position : Position}
    (hp : position.wait? = t.position.wait?) : Waiting ((d.without t.number).park { t with position := position }) := by
  have hnone : (d.without t.number).task? t.number = none := task?_without_self d t.number
  refine h.transfer rfl rfl rfl ?_
  rw [wait_park (t := { t with position := position }) hnone, wait_without, update_idem]
  have hwait : d.wait t.number = position.wait? := by rw [wait, ht, hp, Option.bind_some]
  rw [← hwait, update_eq_self]

/-- Who joins the queue finds that he cannot be let in at once. -/
theorem enqueue (h : Waiting d) {t : Task} (hnone : d.task? t.number = none) {purpose : Purpose} {position : Position}
    (hout : d.lock.admits purpose = false) (hp : position.wait? = some (.store purpose .queued)) :
    Waiting (Desk.park { d with lock := d.lock.enqueue ⟨t.number, purpose⟩ } { t with position := position }) := by
  have hwait : d.wait t.number = none := by rw [wait, hnone, Option.bind_none]
  have hpark : (Desk.park { d with lock := d.lock.enqueue ⟨t.number, purpose⟩ } { t with position := position }).wait =
      update d.wait t.number position.wait? :=
    wait_park (d := { d with lock := d.lock.enqueue ⟨t.number, purpose⟩ }) (t := { t with position := position }) hnone
  refine ⟨h.toListed.enqueue (hwait ▸ unlisted_none) rfl rfl rfl (hp ▸ hpark), fun hopen _ hinside => ?_⟩
  -- With nobody inside an open lock there is room, so somebody was in the queue before, and then somebody was inside.
  have hnobody : d.lock.inside = [] := hinside
  have hqueue : d.lock.queue ≠ [] := by
    intro hqueue
    have hclosed : d.lock.closed = false := hopen
    have hin : d.lock.admits purpose = true := by
      cases purpose <;> simp [StoreLock.admits, StoreLock.fitsBeside, hclosed, hnobody, hqueue]
    rw [hout] at hin
    cases hin
  exact h.served hopen hqueue hnobody

/-- Somebody inside leaves, and goes off all lists. -/
theorem leave (h : Waiting d) {n : Nat} {purpose : Purpose} (hn : d.wait n = some (.store purpose .admitted)) :
    Waiting ((d.without n).passLock (d.lock.leave n)) := by
  have hinside : ⟨n, purpose⟩ ∈ d.lock.inside := (h.iff n (.store purpose .admitted)).mpr ⟨hn, rfl⟩
  have hsub : ((d.lock.inside.filter (·.visitor ≠ n)) ++ d.lock.queue).Sublist (d.lock.inside ++ d.lock.queue) :=
    List.filter_sublist.append_right _
  have hlisted : Listed
      { d.without n with lock := { d.lock with inside := d.lock.inside.filter (·.visitor ≠ n) } } := by
    refine ⟨h.visitors.sublist (hsub.map _), h.kept, h.timed, fun m x => ?_⟩
    have hwait : wait { d.without n with lock := { d.lock with inside := d.lock.inside.filter (·.visitor ≠ n) } } m =
        update d.wait n none m := congrFun (wait_without d n) m
    rw [hwait]
    by_cases hm : m = n
    · subst hm
      rw [update_self]
      refine ⟨fun hx => ?_, fun hx => by cases hx.1⟩
      have hold (y : Wait) (hy : d.OnList m y) : y = .store purpose .admitted :=
        Option.some.inj (((h.iff m y).mp hy).1.symm.trans hn)
      cases x with
      | server progress =>
        have hx' : d.OnList m (.server progress) := by cases progress <;> exact hx
        cases hold _ hx'
      | store q access =>
        cases access with
        | ready => cases hx
        | queued => cases hold (.store q .queued) hx
        | admitted =>
          have hx' := (List.mem_filter.mp hx).2
          simp at hx'
    · rw [update_of_ne hm, ← h.iff]
      cases x with
      | server progress => cases progress <;> rfl
      | store q access =>
        cases access with
        | ready => rfl
        | queued => rfl
        | admitted =>
          refine ⟨fun hx => (List.mem_filter.mp hx).1, fun hx => List.mem_filter.mpr ⟨hx, ?_⟩⟩
          simpa using hm
  exact hlisted.afterLeaving

end Waiting

theorem task?_passLock {d : Desk} (r : StoreLock × List Visit) {n : Nat} (h : d.task? n = none) :
    (d.passLock r).task? n = none := by
  have hplan : (d.passLock r).plan n = d.plan n := congrFun (congrArg Scene.plan (scene_passLock d r)) n
  rw [plan, plan, h, Option.map_none, Option.map_eq_none_iff] at hplan
  exact hplan

/-- A move of an action at the store: it is let in, or joins the queue. -/
theorem stepTask_of_ready {d : Desk} {t : Task} {purpose : Purpose}
    (hw : t.position.wait? = some (.store purpose .ready)) :
    (d.lock.admits purpose = true ∧ ∃ store next, d.stepTask t = follow { d with store := store } t next) ∨
      (d.lock.admits purpose = false ∧ ∃ position, position.wait? = some (.store purpose .queued) ∧
        d.stepTask t = d.enqueueAt t purpose position) := by
  cases hpos : t.position with
  | begun command => rw [hpos] at hw; cases hw
  | calling request progress => rw [hpos] at hw; cases hw
  | reading r access =>
    rw [hpos] at hw
    cases hw
    simp only [stepTask, hpos]
    split
    · next hin => exact .inl ⟨hin, d.store, _, rfl⟩
    · next hout => exact .inr ⟨Bool.not_eq_true _ ▸ hout, _, rfl, rfl⟩
  | writing w access =>
    rw [hpos] at hw
    cases hw
    simp only [stepTask, hpos]
    split
    · next hin => exact .inl ⟨hin, _, _, rfl⟩
    · next hout => exact .inr ⟨Bool.not_eq_true _ ▸ hout, _, rfl, rfl⟩

/-- Who has been let in looks or changes, and leaves. -/
theorem stepTask_of_admitted {d : Desk} {t : Task} {purpose : Purpose}
    (hw : t.position.wait? = some (.store purpose .admitted)) :
    ∃ store next, d.stepTask t = (passLock { d with store := store } (d.lock.leave t.number)).follow t next := by
  cases hpos : t.position with
  | begun command => rw [hpos] at hw; cases hw
  | calling request progress => rw [hpos] at hw; cases hw
  | reading r access =>
    rw [hpos] at hw
    cases hw
    simp only [stepTask, hpos]
    exact ⟨d.store, _, rfl⟩
  | writing w access =>
    rw [hpos] at hw
    cases hw
    simp only [stepTask, hpos]
    exact ⟨_, _, rfl⟩

/-- Who is in the queue stays there. -/
theorem stepTask_of_queued {d : Desk} {t : Task} {purpose : Purpose}
    (hw : t.position.wait? = some (.store purpose .queued)) : d.stepTask t = (d.park t, none) := by
  obtain ⟨n, errand, position⟩ := t
  cases position with
  | begun command => cases hw
  | calling request progress => cases hw
  | reading r access => cases hw; rfl
  | writing w access => cases hw; rfl

namespace Waiting

variable {d d' : Desk}

/-- A request that reaches the server is kept there, or is heard. -/
theorem sending (h : Waiting d) {t : Task} (hnone : d.task? t.number = none) {request : Wire.Request}
    (hpos : t.position = .calling request .ready) : Waiting (putBack (d.stepTask t)) := by
  have hwait : d.wait t.number = none := by rw [wait, hnone, Option.bind_none]
  by_cases hkeeps : d.server.keeps request.kind = true
  · have hpark := wait_park (d := { d with
        calls := d.calls ++ [request]
        server := { d.server with kept := d.server.kept ++ [(request.kind, .task t.number)] } })
      (t := { t with position := .calling request .held }) hnone
    simp only [stepTask, hpos, converse, if_pos hkeeps]
    refine ⟨h.toListed.keep (hwait ▸ unlisted_none) rfl ?_ rfl hpark, h.served⟩
    simp [keptTasks, putBack, Desk.park, Caller.task?]
  · simp only [stepTask, hpos, converse, if_neg hkeeps]
    have hd : Waiting { d with calls := d.calls ++ [request] } := h.transfer rfl rfl rfl rfl
    exact hd.park (t := { t with position := .calling request .heard }) hnone (unlisted_some rfl)

/-- A request that was heard is answered at once, or after a time. -/
theorem heard (h : Waiting d) {t : Task} (hnone : d.task? t.number = none) {request : Wire.Request}
    (hpos : t.position = .calling request .heard) : Waiting (putBack (d.stepTask t)) := by
  have hwait : d.wait t.number = none := by rw [wait, hnone, Option.bind_none]
  by_cases hnow : (d.server.script request.kind).delayMs = 0
  · simp only [stepTask, hpos, converse, if_pos hnow]
    exact h.follow hnone _
  · have hpark := wait_park (d := d.startTimer (d.server.script request.kind).delayMs (.task t.number))
      (t := { t with position := .calling request .delayed }) hnone
    simp only [stepTask, hpos, converse, if_neg hnow]
    refine ⟨h.toListed.delay (hwait ▸ unlisted_none) rfl rfl ?_ hpark, h.served⟩
    simp [timedTasks, putBack, Desk.park, startTimer, Caller.task?]

theorem calling (h : Waiting d) {t : Task} (ht : d.task? t.number = some t) {request : Wire.Request}
    {progress : Progress} (hpos : t.position = .calling request progress) :
    Waiting (putBack ((d.without t.number).stepTask t)) := by
  have hwait : d.wait t.number = some (.server progress) := by rw [wait, ht, Option.bind_some, hpos]; rfl
  have hnone : (d.without t.number).task? t.number = none := task?_without_self d t.number
  have hleft (hn : Wait.listed (.server progress) = false) : Waiting (d.without t.number) :=
    h.without (hwait ▸ unlisted_some hn)
  cases progress with
  | ready => exact (hleft rfl).sending hnone hpos
  | heard => exact (hleft rfl).heard hnone hpos
  | answering =>
    simp only [stepTask, hpos, converse]
    exact (hleft rfl).follow hnone _
  | held =>
    simp only [stepTask, hpos, converse, putBack]
    exact h.putAside ht (by rw [hpos])
  | delayed =>
    simp only [stepTask, hpos, converse, putBack]
    exact h.putAside ht (by rw [hpos])

theorem atStore (h : Waiting d) {t : Task} (ht : d.task? t.number = some t) {purpose : Purpose} {access : Access}
    (hw : t.position.wait? = some (.store purpose access)) : Waiting (putBack ((d.without t.number).stepTask t)) := by
  have hwait : d.wait t.number = some (.store purpose access) := by rw [wait, ht, Option.bind_some, hw]
  have hnone : (d.without t.number).task? t.number = none := task?_without_self d t.number
  cases access with
  | ready =>
    have hd := h.without (hwait ▸ unlisted_some rfl)
    rcases stepTask_of_ready (d := d.without t.number) hw with ⟨-, store, next, hstep⟩ | ⟨hout, position, hp, hstep⟩
    · rw [hstep]
      have hd' : Waiting { d.without t.number with store := store } := hd.transfer rfl rfl rfl rfl
      exact hd'.follow hnone next
    · rw [hstep]
      exact hd.enqueue hnone hout hp
  | queued =>
    rw [stepTask_of_queued (d := d.without t.number) hw]
    exact h.putAside ht rfl
  | admitted =>
    obtain ⟨store, next, hstep⟩ := stepTask_of_admitted (d := d.without t.number) hw
    rw [hstep]
    have hd : Waiting { d with store := store } := h.transfer rfl rfl rfl rfl
    have hleft := hd.leave (n := t.number) hwait
    exact hleft.follow (task?_passLock _ hnone) next

theorem moveTask (h : Waiting d) (n : Nat) : Waiting (d.moveTask n) := by
  cases ht : d.task? n with
  | none =>
    simp only [Desk.moveTask, ht]
    exact h
  | some t =>
    obtain rfl : t.number = n := number_of_task? ht
    simp only [Desk.moveTask, ht]
    cases hpos : t.position with
    | begun command =>
      have hwait : d.wait t.number = none := by rw [wait, ht, Option.bind_some, hpos]; rfl
      simp only [stepTask, hpos]
      exact (h.without (hwait ▸ unlisted_none)).follow (task?_without_self d t.number) _
    | calling request progress => exact h.calling ht hpos
    | reading r access => exact h.atStore ht (by rw [hpos]; rfl)
    | writing w access => exact h.atStore ht (by rw [hpos]; rfl)

theorem awaitTick (h : Waiting d) (p : Liveness.Probe) (due : Nat) : Waiting (d.awaitTick p due) := by
  refine h.transfer rfl rfl ?_ rfl
  simp [timedTasks, Desk.awaitTick, setProbe, Caller.task?]

/-- A probe is on lists of its own. -/
theorem stepProbe (h : Waiting d) (p : Liveness.Probe) : Waiting (d.stepProbe p).1 := by
  have hbeat := stepProbe_beat d p
  generalize d.stepProbe p = result at hbeat ⊢
  cases hbeat with
  | sets fresh => exact h.awaitTick p _
  | answered pings ready later => exact h.awaitTick p _
  | kept sends keeps =>
    refine h.transfer rfl ?_ rfl rfl
    simp [keptTasks, setProbe, Caller.task?]
  | delayed hears slow =>
    refine h.transfer rfl rfl ?_ rfl
    simp [timedTasks, setProbe, startTimer, Caller.task?]
  | _ => exact h.transfer rfl rfl rfl rfl

theorem moveProbe (h : Waiting d) (serial : Nat) : Waiting (d.moveProbe serial) := by
  unfold Desk.moveProbe
  split
  · next p _ => exact h.stepProbe p
  · exact h

theorem begin (h : Waiting d) (hn : d.Numbered) (errand : Errand) (command : Command) :
    Waiting (d.begin errand command) := by
  have hfresh : d.task? d.begun = none := by
    have hplan := hn.fresh
    rwa [plan, Option.map_eq_none_iff] at hplan
  have hd : Waiting { d with ready := d.ready ++ [.task d.begun], begun := d.begun + 1 } := h.transfer rfl rfl rfl rfl
  exact hd.park (t := ⟨d.begun, errand, .begun command⟩) hfresh unlisted_none

theorem perform (h : Waiting d) (hn : d.Numbered) (e : Event) : Waiting (d.perform e) := by
  cases e with
  | begin errand command => exact h.begin hn errand command
  | edit e => exact h.transfer rfl rfl rfl rfl
  | move n => exact h.moveTask n
  | glance n => exact h.transfer rfl rfl rfl (wait_glance d n)
  | probe serial => exact h.moveProbe serial
  | script kind script => cases kind <;> exact h.transfer rfl rfl rfl rfl
  | hold kind =>
    refine h.transfer rfl ?_ rfl rfl
    simp only [Desk.perform, Desk.hold, Server.hold, keptTasks]
    split <;> rfl
  | release kind => exact h.release kind
  | lock =>
    have hlock : Listed d.lockStore := h.toListed.relock rfl rfl
    exact ⟨hlock, fun hopen => by cases hopen⟩
  | unlock =>
    have hopen : Listed { d with lock := { d.lock with closed := false } } := h.toListed.relock rfl rfl
    exact hopen.afterLeaving
  | strike instant => exact h.strike instant
  | pass instant => exact h.transfer rfl rfl rfl rfl
  | call => exact h.transfer rfl rfl rfl rfl
  | report => exact h.transfer rfl rfl rfl rfl

end Waiting

theorem Opening.waiting (o : Opening) (es : List Event) : Waiting (o.after es).desk := by
  have start : Waiting o.desk := by
    refine ⟨⟨.nil, .nil, .nil, fun n w => ⟨fun hw => ?_, fun hw => by cases hw.1⟩⟩, fun _ hqueue => absurd rfl hqueue⟩
    cases w with
    | server progress => cases progress <;> cases hw
    | store purpose access => cases access <;> cases hw
  have h := o.invariant (P := fun r => r.desk.Numbered ∧ Waiting r.desk) ⟨o.numbered [], start⟩
    (fun r e h => ⟨h.1.perform e, h.2.perform h.1 e⟩) es
  exact h.2

/-! ## Getting in -/

/-- How many are at the store or want to be. -/
def StoreLock.size (l : StoreLock) : Nat := l.inside.length + l.queue.length

theorem StoreLock.size_leave {l : StoreLock} {v : Visit} (hv : v ∈ l.inside) :
    (l.leave v.visitor).1.size < l.size ∧ (l.leave v.visitor).1.closed = l.closed := by
  have hless : (l.inside.filter (·.visitor ≠ v.visitor)).length < l.inside.length := by
    refine List.length_filter_lt_length_iff_exists.mpr ⟨v, hv, ?_⟩
    simp
  have hsplit (k : Nat) : (l.queue.take k).length + (l.queue.drop k).length = l.queue.length := by
    rw [← List.length_append, List.take_append_drop]
  unfold StoreLock.leave StoreLock.afterLeaving
  split
  · refine ⟨?_, rfl⟩
    simp only [StoreLock.size]
    omega
  · refine ⟨?_, rfl⟩
    simp only [StoreLock.size, List.length_append]
    have := hsplit (StoreLock.room (l.inside.filter (·.visitor ≠ v.visitor)) l.queue)
    omega

/-- When somebody inside moves he leaves the store, and the others stay where they are or are let in. -/
theorem moveTask_of_admitted {d : Desk} {m : Nat} {purpose : Purpose}
    (hm : d.wait m = some (.store purpose .admitted)) :
    (d.moveTask m).lock = (d.lock.leave m).1 ∧
      ∀ n, n ≠ m → (d.moveTask m).wait n = d.wait n ∨ (d.moveTask m).wait n = (d.wait n).map Wait.woken := by
  obtain ⟨t, ht, hw⟩ := Option.bind_eq_some_iff.mp hm
  have hn : t.number = m := number_of_task? ht
  subst hn
  have hnone : (d.without t.number).task? t.number = none := task?_without_self d t.number
  obtain ⟨store, next, hstep⟩ := stepTask_of_admitted (d := d.without t.number) hw
  have hnone' := task?_passLock (d := { d.without t.number with store := store }) (d.lock.leave t.number) hnone
  obtain ⟨w, -, hl, -, -, hwait⟩ := lists_follow hnone' next
  have hmove : d.moveTask t.number =
      putBack ((passLock { d.without t.number with store := store } (d.lock.leave t.number)).follow t next) := by
    simp only [moveTask, ht]
    rw [hstep]
    rfl
  rw [hmove]
  refine ⟨hl.trans (lists_wakeAll _ _).1, fun n hne => ?_⟩
  have hleft : wait { d.without t.number with store := store, lock := (d.lock.leave t.number).1 } n = d.wait n := by
    have := congrFun (wait_without d t.number) n
    rwa [update_of_ne hne] at this
  rw [hwait, update_of_ne hne, passLock, wait_wakeAll, hleft]
  split
  · exact .inr rfl
  · exact .inl rfl

/-- Who comes to the store and cannot be let in joins the queue. -/
theorem moveTask_of_ready {d : Desk} {n : Nat} {t : Task} {purpose : Purpose} (ht : d.task? n = some t)
    (hw : t.position.wait? = some (.store purpose .ready)) (hout : d.lock.admits purpose = false) :
    (d.moveTask n).wait n = some (.store purpose .queued) ∧ (d.moveTask n).lock.closed = d.lock.closed := by
  have hn : t.number = n := number_of_task? ht
  subst hn
  have hnone : (d.without t.number).task? t.number = none := task?_without_self d t.number
  rcases stepTask_of_ready (d := d.without t.number) hw with ⟨hin, -⟩ | ⟨-, position, hp, hstep⟩
  · rw [show (d.without t.number).lock = d.lock from rfl, hout] at hin
    cases hin
  · have hpark := wait_park (d := { d.without t.number with lock := d.lock.enqueue ⟨t.number, purpose⟩ })
      (t := { t with position := position }) hnone
    simp only [moveTask, ht, hstep]
    refine ⟨?_, rfl⟩
    have hwait := congrFun hpark t.number
    rw [update_self] at hwait
    exact hwait.trans hp

theorem closed_unlockStore (d : Desk) : d.unlockStore.lock.closed = false := by
  have hlock : d.unlockStore.lock = d.lock.reopen.1 := (lists_wakeAll _ _).1
  rw [hlock]
  rfl

/-- Whoever queues at an open store is let in, if only those who are inside make their moves. -/
theorem Waiting.admits {d : Desk} (h : Waiting d) (hopen : d.lock.closed = false) {n : Nat} {purpose : Purpose}
    {access : Access} (hw : d.wait n = some (.store purpose access)) (haccess : access ≠ .ready) :
    ∃ others : List Nat, n ∉ others ∧
      (others.foldl Desk.moveTask d).wait n = some (.store purpose .admitted) := by
  induction hsize : d.lock.size using Nat.strongRecOn generalizing d access with
  | ind size ih =>
    subst hsize
    cases access with
    | ready => exact absurd rfl haccess
    | admitted => exact ⟨[], nofun, hw⟩
    | queued =>
      have hqueue : d.lock.queue ≠ [] :=
        List.ne_nil_of_mem ((h.iff n (.store purpose .queued)).mpr ⟨hw, rfl⟩)
      obtain ⟨v, hv⟩ := List.exists_mem_of_ne_nil _ (h.served hopen hqueue)
      have hinside := h.toListed.wait_of_inside hv
      have hne : n ≠ v.visitor := by
        intro he
        rw [← he, hw] at hinside
        cases hinside
      obtain ⟨hlock, hothers⟩ := moveTask_of_admitted hinside
      obtain ⟨hless, hclosed⟩ := StoreLock.size_leave hv
      have hnext : ∃ access, (d.moveTask v.visitor).wait n = some (.store purpose access) ∧ access ≠ .ready := by
        rcases hothers n hne with hsame | hwoken
        · exact ⟨.queued, hsame.trans hw, nofun⟩
        · exact ⟨.admitted, by rw [hwoken, hw]; rfl, nofun⟩
      obtain ⟨access, hw', haccess'⟩ := hnext
      obtain ⟨others, hnot, hin⟩ := ih (d.moveTask v.visitor).lock.size (by rw [hlock]; exact hless)
        (h.moveTask v.visitor) (by rw [hlock, hclosed]; exact hopen) hw' haccess' rfl
      refine ⟨v.visitor :: others, ?_, hin⟩
      intro hmem
      rcases List.mem_cons.mp hmem with he | hmem
      · exact hne he
      · exact hnot hmem

end AgentDesk.Desk
