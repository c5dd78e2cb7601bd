import AgentDesk.Proofs.Session.Lifecycle
import Mathlib.Data.List.Chain

/-! # One action at a time, and sessions one after the other

Whoever starts or stops a session holds the gate, and holds it alone. So there is never more than one such request
on its way, a session is gained only when none is at hand and stopped only when one is, and whoever comes while
another has the gate is sent away with nothing done. -/
namespace AgentDesk.Desk
open Session

/-! ## The record -/

/-- The two turns of a session's life that a record tells of. -/
inductive Mark where
  | gained
  | stopped
  deriving DecidableEq, Repr

def Occurrence.mark? (x : Occurrence) : Option Mark :=
  if x.isStop then some .stopped else x.gain?.map fun _ => .gained

def marks (past : List Occurrence) : List Mark := past.filterMap Occurrence.mark?

structure Alternating (l : List Mark) : Prop where
  first : ∀ m ∈ l.head?, m = .gained
  chain : l.IsChain (· ≠ ·)

/-- What occurs agrees with the session that is at hand just before. -/
structure InTurn (before : List Occurrence) (x : Occurrence) : Prop where
  start : x.isStart = true → held before = none
  stop : x.isStop = true → held before ≠ none
  gain : x.gain? ≠ none → held before = none

theorem Alternating.snoc {l : List Mark} (h : Alternating l) {m : Mark} (hf : l = [] → m = .gained)
    (hl : ∀ last ∈ l.getLast?, last ≠ m) : Alternating (l ++ [m]) := by
  refine ⟨?_, List.isChain_append.mpr ⟨h.chain, .singleton m, fun last hlast next hnext => ?_⟩⟩
  · cases l with
    | nil => simpa using hf rfl
    | cons a l => exact h.first
  · cases hnext
    exact hl last hlast

/-- Nothing but the marks tells whether a session is at hand: the last of them does. -/
theorem alternating_of_inTurn (past : List Occurrence) (h : Along InTurn past) :
    Alternating (marks past) ∧ (held past ≠ none ↔ (marks past).getLast? = some .gained) := by
  induction past using List.reverseRecOn with
  | nil => exact ⟨⟨by simp [marks], .nil⟩, by simp [marks]⟩
  | append_singleton past x ih =>
    obtain ⟨hpast, hx⟩ := along_snoc.mp h
    obtain ⟨halt, hheld⟩ := ih hpast
    have hmarks : marks (past ++ [x]) = marks past ++ x.mark?.toList := by
      simp [marks, List.filterMap_append, List.filterMap_cons]
      cases x.mark? <;> rfl
    -- A stop finds the last mark a gain, a gain finds it a stop or finds none, and nothing else leaves a mark.
    rw [hmarks, held_snoc, Occurrence.mark?, Occurrence.carry]
    cases hs : x.isStop with
    | true =>
      have hlast := hheld.mp (hx.stop hs)
      simp only [if_true, Option.toList_some, List.getLast?_append, List.getLast?_singleton]
      refine ⟨halt.snoc (fun hnil => ?_) (fun m hm => ?_), by simp⟩
      · rw [hnil] at hlast
        cases hlast
      · rw [hlast] at hm
        cases hm
        decide
    | false =>
      cases hg : x.gain? with
      | none => simpa using ⟨halt, hheld⟩
      | some gained =>
        have hnone := hx.gain (by rw [hg]; simp)
        simp only [Bool.false_eq_true, if_false, Option.map_some, Option.toList_some, Option.some_or,
          List.getLast?_append, List.getLast?_singleton]
        refine ⟨halt.snoc (fun _ => rfl) (fun m hm he => ?_), by simp⟩
        subst he
        exact hheld.mpr hm hnone

theorem Custody.inTurn {s s' : Scene} {x : Occurrence} {past : List Occurrence} (h : Custody s (held past))
    (st : s.Step (some x) s') : InTurn past x := by
  have hidle (hs : x.isStart = false) (hp : x.isStop = false) (hg : x.gain? = none) : InTurn past x :=
    ⟨fun h => absurd h (by simp [hs]), fun h => absurd h (by simp [hp]), fun h => absurd hg h⟩
  cases st with
  | pinged running => exact hidle rfl rfl rfl
  | edited e => exact hidle rfl rfl rfl
  | begun fresh errand command => exact hidle rfl rfl rfl
  | sent stood =>
    next request =>
    cases request with
    | ping channel => exact hidle rfl rfl rfl
    | start p =>
      obtain ⟨-, ⟨-, hnone⟩, -⟩ := h.holder stood rfl
      exact ⟨fun _ => hnone, fun h => Bool.noConfusion h, fun h => absurd rfl h⟩
    | stop channel =>
      obtain ⟨-, ⟨_, -, hsome⟩, -⟩ := h.holder stood rfl
      exact ⟨fun h => Bool.noConfusion h, fun _ => by rw [hsome]; simp, fun h => absurd rfl h⟩
  | resumed cause stood =>
    refine ⟨fun h => Bool.noConfusion h, fun h => Bool.noConfusion h, fun hg => ?_⟩
    have hp : cause.post.holdsGate = true := by
      by_contra hp
      exact hg (gain?_of_not_holds (Bool.not_eq_true _ ▸ hp) _ _)
    obtain ⟨-, hsec, -⟩ := h.holder stood hp
    cases cause with
    | begins command => exact absurd rfl hg
    | looks r => exact absurd rfl hg
    | changes w =>
      cases w with
      | adopted channel => exact hsec.2
      | _ => exact absurd rfl hg
    | hears request answer =>
      cases request with
      | start p => exact hsec.2
      | _ => exact absurd rfl hg

/-! ## The desk -/

/-- It has sent a start or a stop request, or is about to. -/
def Task.changesSession (t : Task) : Bool :=
  match t.position with
  | .calling (.start _) _ => true
  | .calling (.stop _) _ => true
  | _ => false

theorem Task.holdsGate_of_changesSession {t : Task} (h : t.changesSession = true) : t.holdsGate = true := by
  obtain ⟨n, errand, position⟩ := t
  cases position with
  | calling request progress =>
    cases request with
    | ping channel => cases h
    | _ => rfl
  | _ => cases h

/-- The gate is one action's alone. -/
theorem Custody.holder_unique {d : Desk} {held : Option Holding} (h : Custody d.scene held) (hn : d.Numbered)
    {t u : Task} (ht : t ∈ d.tasks) (hu : u ∈ d.tasks) (htg : t.holdsGate = true) (hug : u.holdsGate = true) :
    t = u := by
  rw [← Task.holdsGate_post] at htg hug
  obtain ⟨-, -, alone⟩ := h.holder (hn.plan_of_mem ht) htg
  by_contra hne
  have hnum : u.number ≠ t.number := fun he => hne (List.inj_on_of_nodup_map hn.distinct ht hu he.symm)
  have := alone u.number u.entry hnum (hn.plan_of_mem hu)
  rw [Task.entry, hug] at this
  cases this

theorem length_filter_le_one {l : List Task} {f : Task → Bool} (hl : l.Nodup)
    (h : ∀ t ∈ l, ∀ u ∈ l, f t = true → f u = true → t = u) : (l.filter f).length ≤ 1 := by
  have hf : (l.filter f).Nodup := hl.filter _
  cases hc : l.filter f with
  | nil => simp
  | cons t rest =>
    cases rest with
    | nil => simp
    | cons u rest =>
      rw [hc] at hf
      have ht : t ∈ l.filter f := by simp [hc]
      have hu : u ∈ l.filter f := by simp [hc]
      obtain ⟨htl, hft⟩ := List.mem_filter.mp ht
      obtain ⟨hul, hfu⟩ := List.mem_filter.mp hu
      rw [h t htl u hul hft hfu] at hf
      simp at hf

/-- What is kept of a result: the button and the look at opening keep none. -/
def Errand.report (e : Errand) (r : Result) : List (String × Result) :=
  match e with
  | .command name => [(name, r)]
  | _ => []

/-- Where an action arrives at a gate that is taken, nothing changes but that it is over and has its result. -/
theorem moveTask_suppressed {d : Desk} (hn : d.Numbered) (hg : d.controller.gate = .inFlight) {t : Task}
    (ht : t ∈ d.tasks) {command : Command} (hpos : t.position = .begun command) (hc : command ≠ .check) :
    d.moveTask t.number =
      { d with
        tasks := d.tasks.filter (·.number ≠ t.number)
        finished := d.finished ++ t.errand.report (.outcome (.ok .suppressed)) } := by
  have hfind := hn.task?_of_mem ht
  have hnext := begin_of_inFlight hg hc
  obtain ⟨n, errand, position⟩ := t
  cases hpos
  simp only [moveTask, hfind, stepTask, without, follow, hnext, setController, if_true, conclude]
  cases errand <;> simp [putBack, Errand.report]

structure Chronicle.Exclusive (r : Chronicle) : Prop where
  one_request : (r.desk.tasks.filter Task.changesSession).length ≤ 1
  alternating : Alternating (marks r.past)
  in_turn : Along InTurn r.past
  suppressed : ∀ t ∈ r.desk.tasks, ∀ command, t.position = .begun command → command ≠ .check →
    (∃ holder ∈ r.desk.tasks, holder.holdsGate = true) →
      r.desk.perform (.move t.number) =
        { r.desk with
          tasks := r.desk.tasks.filter (·.number ≠ t.number)
          finished := r.desk.finished ++ t.errand.report (.outcome (.ok .suppressed)) }

/-- After any events, in any order and with any answers, one action at a time changes the session, and sessions are
gained and stopped in turn. -/
theorem exclusive_after (o : Opening) (es : List Event) : (o.after es).Exclusive := by
  have hn := o.numbered es
  have h := custody o es
  have hturn : Along InTurn (o.after es).past :=
    o.along (I := fun s past => Custody s (held past)) (custody o) (fun _ _ _ _ h st => h.inTurn st) es
  refine ⟨?_, (alternating_of_inTurn _ hturn).1, hturn, fun t ht command hpos hc ⟨holder, hmem, hh⟩ => ?_⟩
  · refine length_filter_le_one (.of_map _ hn.distinct) (fun t ht u hu htc huc => ?_)
    exact h.holder_unique hn ht hu (Task.holdsGate_of_changesSession htc) (Task.holdsGate_of_changesSession huc)
  · exact moveTask_suppressed hn (h.secured hn hmem hh).1 ht hpos hc

end AgentDesk.Desk
