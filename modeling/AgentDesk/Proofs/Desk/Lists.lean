import AgentDesk.Proofs.Desk.Step

/-! # Who waits is on the list that wakes him

An action that waits is on exactly one list: inside the store's lock or in its queue, among the requests that the
server keeps, or among the timers. Nobody else is on a list (`Listed`), so that nobody is woken who waits for
something else. Here are the changes that lists undergo; that they are all that ever happens is shown in `Waiting`. -/
namespace AgentDesk.Desk
open Session Function

/-- What an action waits for, and how far it has come. -/
inductive Wait where
  | store (purpose : Purpose) (access : Access)
  | server (progress : Progress)
  deriving DecidableEq

namespace Wait

def woken : Wait → Wait
  | store purpose access => store purpose access.woken
  | server progress => server progress.woken

/-- Whether who waits so is on a list. -/
def listed : Wait → Bool
  | store _ .ready => false
  | store _ _ => true
  | server .held => true
  | server .delayed => true
  | server _ => false

theorem woken_woken (w : Wait) : w.woken.woken = w.woken := by
  cases w with
  | store purpose access => cases access <;> rfl
  | server progress => cases progress <;> rfl

end Wait

def Position.wait? : Position → Option Wait
  | begun _ => none
  | reading _ access => some (.store .read access)
  | writing _ access => some (.store .write access)
  | calling _ progress => some (.server progress)

theorem Position.wait?_woken (p : Position) : p.woken.wait? = p.wait?.map Wait.woken := by
  cases p <;> rfl

/-- What the action of a number waits for. -/
def wait (d : Desk) (n : Nat) : Option Wait := (d.task? n).bind fun t => t.position.wait?

def Caller.task? : Caller → Option Nat
  | .task n => some n
  | .probe _ => none

def keptTasks (d : Desk) : List Nat := d.server.kept.filterMap fun k => k.2.task?

def timedTasks (d : Desk) : List Nat := d.timers.filterMap fun t => t.caller.task?

/-- Whether an action is on the list of those who wait so. -/
def OnList (d : Desk) (n : Nat) : Wait → Prop
  | .store purpose .admitted => ⟨n, purpose⟩ ∈ d.lock.inside
  | .store purpose .queued => ⟨n, purpose⟩ ∈ d.lock.queue
  | .server .held => n ∈ d.keptTasks
  | .server .delayed => n ∈ d.timedTasks
  | _ => False

/-- The lists tell of those who wait, of each once, and of nobody else. -/
structure Listed (d : Desk) : Prop where
  visitors : ((d.lock.inside ++ d.lock.queue).map Visit.visitor).Nodup
  kept : d.keptTasks.Nodup
  timed : d.timedTasks.Nodup
  iff : ∀ n w, d.OnList n w ↔ d.wait n = some w ∧ w.listed = true

/-! ## Waits while tasks come, go and are woken -/

theorem wait_park {d : Desk} {t : Task} (h : d.task? t.number = none) :
    (d.park t).wait = update d.wait t.number t.position.wait? := by
  change (fun t : Option Task => t.bind fun t => t.position.wait?) ∘ (d.park t).task? = _
  rw [task?_park h, comp_update]
  rfl

theorem wait_without (d : Desk) (n : Nat) : (d.without n).wait = update d.wait n none := by
  change (fun t : Option Task => t.bind fun t => t.position.wait?) ∘ (d.without n).task? = _
  rw [task?_without, comp_update]
  rfl

/-- Whoever has just begun waits for nothing, before and after a look at the state. -/
theorem wait_glance (d : Desk) (n : Nat) : (d.glance n).wait = d.wait := by
  change (fun t : Option Task => t.bind fun t => t.position.wait?) ∘ (d.glance n).task? = _
  rw [task?_glance, comp_update, Option.bind_map]
  refine update_eq_self_iff.mpr ?_
  change ((d.task? n).bind _) = (d.task? n).bind _
  congr 1
  funext t
  cases hpos : t.position <;> simp [hpos, Position.chosen, Position.wait?]

theorem wait_wake (d : Desk) (caller : Caller) (m : Nat) :
    (d.wake caller).wait m = if caller = .task m then (d.wait m).map Wait.woken else d.wait m := by
  cases caller with
  | probe s =>
    rw [if_neg nofun]
    rfl
  | task n =>
    have hfind : (d.wake (.task n)).task? m = (d.task? m).map fun t =>
        if t.number = n then { t with position := t.position.woken } else t := by
      simp only [task?, wake, List.find?_map]
      congr 2
      funext t
      simp only [comp_apply]
      split <;> rfl
    simp only [wait, hfind, Caller.task.injEq]
    cases ht : d.task? m with
    | none => simp
    | some t =>
      have hm : t.number = m := number_of_task? ht
      simp only [Option.map_some, Option.bind_some, hm]
      by_cases hn : m = n
      · rw [if_pos hn, if_pos hn.symm, Position.wait?_woken]
      · rw [if_neg hn, if_neg (Ne.symm hn)]

theorem wait_wakeAll (callers : List Caller) (d : Desk) (m : Nat) :
    (d.wakeAll callers).wait m = if .task m ∈ callers then (d.wait m).map Wait.woken else d.wait m := by
  induction callers generalizing d with
  | nil => rfl
  | cons caller callers ih =>
    rw [wakeAll_cons, ih, wait_wake]
    by_cases hc : caller = .task m
    · subst hc
      rw [if_pos rfl, if_pos List.mem_cons_self]
      split
      · cases d.wait m with
        | none => rfl
        | some w => simp [Wait.woken_woken]
      · rfl
    · have hmem : Caller.task m ∈ caller :: callers ↔ .task m ∈ callers := by
        rw [List.mem_cons]
        exact ⟨fun h => h.resolve_left (Ne.symm hc), .inr⟩
      simp only [if_neg hc, hmem]

/-- Waking moves nobody on a list. -/
theorem lists_wakeAll (callers : List Caller) (d : Desk) :
    (d.wakeAll callers).lock = d.lock ∧ (d.wakeAll callers).server = d.server ∧
      (d.wakeAll callers).timers = d.timers := by
  induction callers generalizing d with
  | nil => exact ⟨rfl, rfl, rfl⟩
  | cons caller callers ih =>
    rw [wakeAll_cons]
    obtain ⟨hl, hs, ht⟩ := ih (d.wake caller)
    cases caller <;> exact ⟨hl, hs, ht⟩

/-! ## Lists while tasks come, go and are woken -/

/-- Who waits so, if at all, is on no list. -/
def Unlisted (w : Option Wait) : Prop := ∀ x, w = some x → x.listed = false

theorem unlisted_none : Unlisted none := nofun

theorem unlisted_some {w : Wait} (h : w.listed = false) : Unlisted (some w) := fun x hx => by
  cases hx
  exact h

theorem Wait.listed_of_woken {w : Wait} (h : w.woken.listed = true) : w.listed = true := by
  cases w with
  | store purpose access => cases access <;> first | rfl | cases h
  | server progress => cases progress <;> first | rfl | cases h

namespace Listed

variable {d d' : Desk}

/-- Who is on no list has no visit, no request that is kept and no timer. -/
theorem not_onList (h : Listed d) {n : Nat} (hn : Unlisted (d.wait n)) (w : Wait) : ¬ d.OnList n w := by
  intro hw
  obtain ⟨hwait, hlisted⟩ := (h.iff n w).mp hw
  rw [hn w hwait] at hlisted
  cases hlisted

theorem not_visitor (h : Listed d) {n : Nat} (hn : Unlisted (d.wait n)) :
    n ∉ (d.lock.inside ++ d.lock.queue).map Visit.visitor := by
  intro hmem
  obtain ⟨⟨m, purpose⟩, hv, hm⟩ := List.mem_map.mp hmem
  obtain rfl : m = n := hm
  rcases List.mem_append.mp hv with hv | hv
  · exact h.not_onList hn (.store purpose .admitted) hv
  · exact h.not_onList hn (.store purpose .queued) hv

/-- Somebody who was on no list goes on to wait for something, and is put on the list for it if there is one. -/
theorem join (h : Listed d) {n : Nat} {w : Option Wait} (hold : Unlisted (d.wait n))
    (hw : d'.wait = update d.wait n w)
    (hlists : ∀ m x, d'.OnList m x ↔ d.OnList m x ∨ (m = n ∧ w = some x ∧ x.listed = true))
    (hvisitors : ((d'.lock.inside ++ d'.lock.queue).map Visit.visitor).Nodup) (hkept : d'.keptTasks.Nodup)
    (htimed : d'.timedTasks.Nodup) : Listed d' := by
  refine ⟨hvisitors, hkept, htimed, fun m x => ?_⟩
  rw [hlists, hw]
  by_cases hm : m = n
  · subst hm
    rw [update_self]
    refine ⟨fun hx => ?_, fun hx => .inr ⟨rfl, hx⟩⟩
    rcases hx with hx | ⟨-, hx⟩
    · exact absurd hx (h.not_onList hold x)
    · exact hx
  · rw [update_of_ne hm, h.iff]
    exact ⟨fun hx => hx.resolve_right fun hx => hm hx.1, .inl⟩

/-- Whoever is on no list may come, go and move on, to where there is no list either. -/
theorem aside (h : Listed d) {n : Nat} {w : Option Wait} (hold : Unlisted (d.wait n)) (hnew : Unlisted w)
    (hl : d'.lock = d.lock) (hk : d'.keptTasks = d.keptTasks) (ht : d'.timedTasks = d.timedTasks)
    (hw : d'.wait = update d.wait n w) : Listed d' := by
  refine h.join hold hw (fun m x => ?_) (hl ▸ h.visitors) (hk ▸ h.kept) (ht ▸ h.timed)
  have hsame : d'.OnList m x ↔ d.OnList m x := by
    unfold OnList
    rw [hl, hk, ht]
  rw [hsame]
  refine ⟨.inl, fun hx => hx.resolve_right fun ⟨_, hx, hlisted⟩ => ?_⟩
  rw [hnew x hx] at hlisted
  cases hlisted

theorem transfer (h : Listed d) (hl : d'.lock = d.lock) (hk : d'.keptTasks = d.keptTasks)
    (ht : d'.timedTasks = d.timedTasks) (hw : d'.wait = d.wait) : Listed d' := by
  refine ⟨hl ▸ h.visitors, hk ▸ h.kept, ht ▸ h.timed, fun n w => ?_⟩
  rw [hw, ← h.iff]
  unfold OnList
  rw [hl, hk, ht]

/-- Whether the store is open concerns nobody's place. -/
theorem relock (h : Listed d) {lock : StoreLock} (hinside : lock.inside = d.lock.inside)
    (hqueue : lock.queue = d.lock.queue) : Listed { d with lock := lock } := by
  refine ⟨by rw [hinside, hqueue]; exact h.visitors, h.kept, h.timed, fun n w => ?_⟩
  have hwait : wait { d with lock := lock } n = d.wait n := rfl
  rw [hwait, ← h.iff]
  unfold OnList
  rw [hinside, hqueue]
  rfl

/-- Somebody joins the store's queue. -/
theorem enqueue (h : Listed d) {n : Nat} {purpose : Purpose} (hold : Unlisted (d.wait n))
    (hl : d'.lock = d.lock.enqueue ⟨n, purpose⟩) (hk : d'.keptTasks = d.keptTasks)
    (ht : d'.timedTasks = d.timedTasks) (hw : d'.wait = update d.wait n (some (.store purpose .queued))) :
    Listed d' := by
  refine h.join hold hw (fun m x => ?_) ?_ (hk ▸ h.kept) (ht ▸ h.timed)
  · unfold OnList
    rw [hl, hk, ht]
    cases x with
    | server progress => cases progress <;> simp
    | store q access =>
      cases access with
      | queued =>
        simp only [StoreLock.enqueue, List.mem_append, List.mem_singleton, Visit.mk.injEq, Option.some.injEq,
          Wait.store.injEq, and_true, Wait.listed]
        rw [eq_comm (a := q)]
      | _ => simp [StoreLock.enqueue]
  · rw [hl, StoreLock.enqueue, ← List.append_assoc, List.map_append]
    refine List.nodup_append.mpr ⟨h.visitors, by simp, ?_⟩
    intro a ha b hb he
    obtain rfl : b = n := by simpa using hb
    exact h.not_visitor hold (he ▸ ha)

theorem nodup_snoc {l : List Nat} {n : Nat} (hl : l.Nodup) (hn : n ∉ l) : (l ++ [n]).Nodup := by
  refine List.nodup_append.mpr ⟨hl, by simp, ?_⟩
  intro a ha b hb he
  obtain rfl : b = n := by simpa using hb
  exact hn (he ▸ ha)

/-- The server keeps somebody's request. -/
theorem keep (h : Listed d) {n : Nat} (hold : Unlisted (d.wait n)) (hl : d'.lock = d.lock)
    (hk : d'.keptTasks = d.keptTasks ++ [n]) (ht : d'.timedTasks = d.timedTasks)
    (hw : d'.wait = update d.wait n (some (.server .held))) : Listed d' := by
  refine h.join hold hw (fun m x => ?_) (hl ▸ h.visitors) ?_ (ht ▸ h.timed)
  · unfold OnList
    rw [hl, hk, ht]
    cases x with
    | server progress => cases progress <;> simp [Wait.listed]
    | store q access => cases access <;> simp
  · rw [hk]
    exact nodup_snoc h.kept (h.not_onList hold (.server .held))

/-- Somebody's answer takes its time. -/
theorem delay (h : Listed d) {n : Nat} (hold : Unlisted (d.wait n)) (hl : d'.lock = d.lock)
    (hk : d'.keptTasks = d.keptTasks) (ht : d'.timedTasks = d.timedTasks ++ [n])
    (hw : d'.wait = update d.wait n (some (.server .delayed))) : Listed d' := by
  refine h.join hold hw (fun m x => ?_) (hl ▸ h.visitors) (hk ▸ h.kept) ?_
  · unfold OnList
    rw [hl, hk, ht]
    cases x with
    | server progress => cases progress <;> simp [Wait.listed]
    | store q access => cases access <;> simp
  · rw [ht]
    exact nodup_snoc h.timed (h.not_onList hold (.server .delayed))

/-- Some are woken, and each of them leaves his list for the next one. -/
theorem wake (h : Listed d) (callers : List Caller) (hw : d'.wait = (d.wakeAll callers).wait)
    (hlists : ∀ m x, d'.OnList m x ↔
      if .task m ∈ callers then (∃ y, d.OnList m y ∧ y.woken = x) ∧ x.listed = true else d.OnList m x)
    (hvisitors : ((d'.lock.inside ++ d'.lock.queue).map Visit.visitor).Nodup) (hkept : d'.keptTasks.Nodup)
    (htimed : d'.timedTasks.Nodup) : Listed d' := by
  refine ⟨hvisitors, hkept, htimed, fun m x => ?_⟩
  rw [hlists, hw, wait_wakeAll]
  split
  · rw [Option.map_eq_some_iff]
    refine and_congr_left fun hx => ⟨fun ⟨y, hy, he⟩ => ⟨y, ((h.iff m y).mp hy).1, he⟩, fun ⟨y, hy, he⟩ => ?_⟩
    exact ⟨y, (h.iff m y).mpr ⟨hy, Wait.listed_of_woken (he ▸ hx)⟩, he⟩
  · exact h.iff m x

theorem wait_of_inside (h : Listed d) {v : Visit} (hv : v ∈ d.lock.inside) :
    d.wait v.visitor = some (.store v.purpose .admitted) :=
  ((h.iff v.visitor (.store v.purpose .admitted)).mp hv).1

theorem wait_of_queue (h : Listed d) {v : Visit} (hv : v ∈ d.lock.queue) :
    d.wait v.visitor = some (.store v.purpose .queued) :=
  ((h.iff v.visitor (.store v.purpose .queued)).mp hv).1

section Admit

variable {k : Nat} {lock : StoreLock} (hinside : lock.inside = d.lock.inside ++ d.lock.queue.take k)
  (hqueue : lock.queue = d.lock.queue.drop k)

include hinside hqueue

/-- Who was in the front of the queue is inside, and on no other list. -/
theorem onList_of_front (h : Listed d) {m : Nat} {purpose : Purpose} (hm : ⟨m, purpose⟩ ∈ d.lock.queue.take k)
    (x : Wait) : OnList { d with lock := lock } m x ↔ x = .store purpose .admitted := by
  have hwait := h.wait_of_queue (List.mem_of_mem_take hm)
  have hqueued (y : Wait) (hy : d.OnList m y) : y = .store purpose .queued :=
    Option.some.inj (((h.iff m y).mp hy).1.symm.trans hwait)
  refine ⟨fun hx => ?_, ?_⟩
  · cases x with
    | server progress =>
      have hx' : d.OnList m (.server progress) := by cases progress <;> exact hx
      cases hqueued _ hx'
    | store p access =>
      cases access with
      | ready => cases hx
      | admitted =>
        rw [OnList, hinside] at hx
        rcases List.mem_append.mp hx with hx | hx
        · cases hqueued (.store p .admitted) hx
        · cases hqueued (.store p .queued) (List.mem_of_mem_take hx)
          rfl
      | queued =>
        -- He is in the front and in the rest: then he would be in the queue twice.
        rw [OnList, hqueue] at hx
        have hdistinct : (d.lock.queue.map Visit.visitor).Nodup := by
          have hvisitors := h.visitors
          rw [List.map_append] at hvisitors
          exact (List.nodup_append.mp hvisitors).2.1
        rw [← List.take_append_drop k d.lock.queue, List.map_append] at hdistinct
        have hapart := (List.nodup_append.mp hdistinct).2.2 m (List.mem_map.mpr ⟨_, hm, rfl⟩) m
          (List.mem_map.mpr ⟨_, hx, rfl⟩)
        exact absurd rfl hapart
  · rintro rfl
    show ⟨m, purpose⟩ ∈ lock.inside
    rw [hinside]
    exact List.mem_append_right _ hm

/-- Everybody else is where he was. -/
theorem onList_of_not_front {m : Nat} (hm : ∀ purpose, ⟨m, purpose⟩ ∉ d.lock.queue.take k) (x : Wait) :
    OnList { d with lock := lock } m x ↔ d.OnList m x := by
  cases x with
  | server progress => cases progress <;> rfl
  | store p access =>
    cases access with
    | ready => rfl
    | admitted =>
      rw [OnList, OnList, hinside, List.mem_append]
      exact ⟨fun hx => hx.resolve_right (hm p), .inl⟩
    | queued =>
      rw [OnList, OnList, hqueue]
      refine ⟨List.mem_of_mem_drop, fun hx => ?_⟩
      rw [← List.take_append_drop k d.lock.queue] at hx
      exact (List.mem_append.mp hx).resolve_left (hm p)

/-- The front of the queue is let in, and woken. -/
theorem letIn (h : Listed d) : Listed (d.passLock (lock, d.lock.queue.take k)) := by
  have hmem (m : Nat) : Caller.task m ∈ ((d.lock.queue.take k).map fun v => Caller.task v.visitor) ↔
      ∃ purpose, ⟨m, purpose⟩ ∈ d.lock.queue.take k := by
    simp only [List.mem_map, Caller.task.injEq]
    exact ⟨fun ⟨v, hv, hm⟩ => ⟨v.purpose, hm ▸ hv⟩, fun ⟨purpose, hv⟩ => ⟨_, hv, rfl⟩⟩
  obtain ⟨hl, hs, ht⟩ := lists_wakeAll ((d.lock.queue.take k).map fun v => Caller.task v.visitor)
    { d with lock := lock }
  refine h.wake ((d.lock.queue.take k).map fun v => Caller.task v.visitor) ?_ (fun m x => ?_) ?_ ?_ ?_
  · funext m
    rw [passLock, wait_wakeAll, wait_wakeAll]
    rfl
  · have hon : (d.passLock (lock, d.lock.queue.take k)).OnList m x ↔ OnList { d with lock := lock } m x := by
      unfold OnList keptTasks timedTasks
      rw [passLock, hl, hs, ht]
    rw [hon]
    by_cases hwoken : Caller.task m ∈ (d.lock.queue.take k).map fun v => Caller.task v.visitor
    · obtain ⟨purpose, hm⟩ := (hmem m).mp hwoken
      have hfront := List.mem_of_mem_take hm
      rw [if_pos hwoken, onList_of_front hinside hqueue h hm]
      refine ⟨fun hx => ⟨⟨.store purpose .queued, hfront, hx.symm⟩, by rw [hx]; rfl⟩, fun ⟨⟨y, hy, hyx⟩, _⟩ => ?_⟩
      cases ((h.iff m y).mp hy).1.symm.trans (h.wait_of_queue hfront)
      exact hyx.symm
    · rw [if_neg hwoken]
      exact onList_of_not_front hinside hqueue (fun purpose hp => hwoken ((hmem m).mpr ⟨purpose, hp⟩)) x
  · rw [passLock, hl, hinside, hqueue, List.append_assoc, List.take_append_drop]
    exact h.visitors
  · rw [keptTasks, passLock, hs]
    exact h.kept
  · rw [timedTasks, passLock, ht]
    exact h.timed

end Admit

end Listed

end AgentDesk.Desk
