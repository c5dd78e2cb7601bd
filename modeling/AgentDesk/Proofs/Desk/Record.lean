import AgentDesk.Proofs.Desk.Step
import Mathlib.Data.List.Induction

/-! # What the record of a run says of its sessions

A session is gained when a start request is answered with success, or when a running one is adopted; it is over
for its desk as soon as a stop request is sent. Both are read off the record, not off the controller, so that the
controller can be measured by them. -/
namespace AgentDesk.Desk
open Session

/-- A session at hand: the channel it runs for and what it was started with, unless it was adopted. -/
structure Holding where
  channel : String
  params : Option Wire.Params
  deriving DecidableEq, Repr

namespace Occurrence

def gain? : Occurrence → Option Holding
  | resumed _ (.hears (.start p) (.ok r)) _ => if r.code.isSuccess then some ⟨p.channel, some p⟩ else none
  | resumed _ (.changes (.adopted channel)) _ => some ⟨channel, none⟩
  | _ => none

def isStop : Occurrence → Bool
  | sent _ (.stop _) => true
  | _ => false

def isStart : Occurrence → Bool
  | sent _ (.start _) => true
  | _ => false

/-- The session at hand after an occurrence. -/
def carry (held : Option Holding) (x : Occurrence) : Option Holding :=
  if x.isStop then none else x.gain?.or held

/-- A session is at hand after an occurrence that gains it, or that it was at hand before and that leaves it there. -/
theorem carry_eq_some {held : Option Holding} {x : Occurrence} {session : Holding}
    (h : x.carry held = some session) :
    x.isStop = false ∧ (x.gain? = some session ∨ x.gain? = none ∧ held = some session) := by
  unfold carry at h
  split at h
  · cases h
  · next hstop =>
    refine ⟨Bool.not_eq_true _ ▸ hstop, ?_⟩
    cases hgain : x.gain? with
    | none =>
      rw [hgain, Option.none_or] at h
      exact .inr ⟨rfl, h⟩
    | some gained =>
      rw [hgain, Option.some_or] at h
      exact .inl h

end Occurrence

/-- The session at hand at the end of a record. -/
def held (past : List Occurrence) : Option Holding := past.foldl Occurrence.carry none

@[simp] theorem held_nil : held [] = none := rfl

@[simp] theorem held_snoc (past : List Occurrence) (x : Occurrence) : held (past ++ [x]) = x.carry (held past) := by
  simp [held, List.foldl_append]

/-- What occurred since a stop request was last sent, or since the desk was opened. -/
def sinceStop (past : List Occurrence) : List Occurrence :=
  past.foldl (fun recent x => if x.isStop then [] else recent ++ [x]) []

theorem sinceStop_snoc (past : List Occurrence) (x : Occurrence) :
    sinceStop (past ++ [x]) = if x.isStop then [] else sinceStop past ++ [x] := by
  simp [sinceStop, List.foldl_append]

theorem mem_sinceStop_snoc {past : List Occurrence} {x y : Occurrence} (hx : x.isStop = false)
    (hy : y ∈ sinceStop past) : y ∈ sinceStop (past ++ [x]) := by
  rw [sinceStop_snoc, hx]
  exact List.mem_append_left _ hy

theorem mem_sinceStop_self {past : List Occurrence} {x : Occurrence} (hx : x.isStop = false) :
    x ∈ sinceStop (past ++ [x]) := by
  rw [sinceStop_snoc, hx]
  exact List.mem_append_right _ (List.mem_singleton_self x)

theorem split_of_mem_sinceStop {past : List Occurrence} {x : Occurrence} (h : x ∈ sinceStop past) :
    ∃ before after, past = before ++ x :: after ∧ ∀ y ∈ after, y.isStop = false := by
  induction past using List.reverseRecOn with
  | nil => cases h
  | append_singleton past y ih =>
    rw [sinceStop_snoc] at h
    split at h
    · cases h
    · next hy =>
      rcases List.mem_append.mp h with h | h
      · obtain ⟨before, after, rfl, hafter⟩ := ih h
        refine ⟨before, after ++ [y], by simp, fun z hz => ?_⟩
        rcases List.mem_append.mp hz with hz | hz
        · exact hafter z hz
        · rw [List.mem_singleton.mp hz]
          simpa using hy
      · cases List.mem_singleton.mp h
        exact ⟨past, [], rfl, fun z hz => nomatch hz⟩

/-- What occurred since the last stop request came after every stop request. -/
theorem mem_of_mem_sinceStop {early late : List Occurrence} {stop x : Occurrence} (hs : stop.isStop = true)
    (h : x ∈ sinceStop (early ++ stop :: late)) : x ∈ late := by
  induction late using List.reverseRecOn with
  | nil =>
    rw [sinceStop_snoc, hs] at h
    cases h
  | append_singleton late y ih =>
    rw [← List.cons_append, ← List.append_assoc, sinceStop_snoc] at h
    split at h
    · cases h
    · rcases List.mem_append.mp h with h | h
      · exact List.mem_append_left _ (ih h)
      · exact List.mem_append_right _ h

/-- Something holds of every occurrence on a record, given what came before it. -/
def Along (P : List Occurrence → Occurrence → Prop) (past : List Occurrence) : Prop :=
  ∀ before x after, past = before ++ x :: after → P before x

theorem along_nil {P : List Occurrence → Occurrence → Prop} : Along P [] :=
  fun before x after h => by simp at h

theorem along_snoc {P : List Occurrence → Occurrence → Prop} {past : List Occurrence} {x : Occurrence} :
    Along P (past ++ [x]) ↔ Along P past ∧ P past x := by
  refine ⟨fun h => ⟨fun before y after he => ?_, h past x [] rfl⟩, fun ⟨h, hx⟩ before y after he => ?_⟩
  · refine h before y (after ++ [x]) ?_
    rw [he, List.append_assoc, List.cons_append]
  · rcases List.eq_nil_or_concat after with rfl | ⟨after, z, rfl⟩
    · obtain ⟨rfl, hy⟩ := List.append_inj' he rfl
      cases hy
      exact hx
    · rw [List.concat_eq_append, ← List.cons_append, ← List.append_assoc] at he
      obtain ⟨hp, -⟩ := List.append_inj' he rfl
      exact h before y after hp

/-- What is on the record stays there. -/
theorem Opening.past_mono (o : Opening) {es es' : List Event} (h : es <+: es') :
    (o.after es).past <+: (o.after es').past := by
  obtain ⟨more, rfl⟩ := h
  induction more using List.reverseRecOn with
  | nil => simp
  | append_singleton more e ih =>
    rw [← List.append_assoc, o.after_snoc]
    exact ih.trans (List.prefix_append ..)

/-- Something occurs in a run, and this is how matters stand there just before. -/
def Opening.OccursAt (o : Opening) (es : List Event) (r : Chronicle) (x : Occurrence) : Prop :=
  ∃ early e late, es = early ++ e :: late ∧ r = o.after early ∧ r.desk.occurs e = some x

theorem Opening.OccursAt.snoc {o : Opening} {es : List Event} {r : Chronicle} {x : Occurrence}
    (h : o.OccursAt es r x) (e : Event) : o.OccursAt (es ++ [e]) r x := by
  obtain ⟨early, e', late, rfl, hr, hx⟩ := h
  exact ⟨early, e', late ++ [e], by simp, hr, hx⟩

theorem Opening.OccursAt.step {o : Opening} {es : List Event} {r : Chronicle} {x : Occurrence}
    (h : o.OccursAt es r x) : ∃ early e, r = o.after early ∧ r.desk.scene.Step (some x) (r.desk.perform e).scene := by
  obtain ⟨early, e, late, -, rfl, hx⟩ := h
  exact ⟨early, e, rfl, hx ▸ scene_perform (o.orderly early) e⟩

theorem Opening.OccursAt.mem_past {o : Opening} {es : List Event} {r : Chronicle} {x : Occurrence}
    (h : o.OccursAt es r x) : x ∈ (o.after es).past := by
  obtain ⟨early, e, late, rfl, rfl, hx⟩ := h
  refine (o.past_mono ?_).subset (o.mem_past_of_occurs early hx)
  exact ⟨late, by simp⟩

theorem Opening.OccursAt.past_prefix {o : Opening} {es : List Event} {r : Chronicle} {x : Occurrence}
    (h : o.OccursAt es r x) : r.past <+: (o.after es).past := by
  obtain ⟨early, e, late, rfl, rfl, -⟩ := h
  exact o.past_mono (List.prefix_append ..)

/-- What is on the record has occurred in the run. -/
theorem Opening.occursAt_of_past (o : Opening) (es : List Event) {before after : List Occurrence} {x : Occurrence}
    (h : (o.after es).past = before ++ x :: after) : ∃ r, o.OccursAt es r x ∧ r.past = before := by
  induction es using List.reverseRecOn generalizing after with
  | nil => simp [Opening.after] at h
  | append_singleton es e ih =>
    have hearlier {after : List Occurrence} (h : (o.after es).past = before ++ x :: after) :
        ∃ r, o.OccursAt (es ++ [e]) r x ∧ r.past = before := by
      obtain ⟨r, hr, hb⟩ := ih h
      exact ⟨r, hr.snoc e, hb⟩
    rw [o.after_snoc, Chronicle.next] at h
    cases hy : (o.after es).desk.occurs e with
    | none =>
      rw [hy, Option.toList_none, List.append_nil] at h
      exact hearlier h
    | some y =>
      rw [hy, Option.toList_some] at h
      rcases List.eq_nil_or_concat after with rfl | ⟨after, z, rfl⟩
      · obtain ⟨hb, hx⟩ := List.append_inj' h rfl
        cases hx
        exact ⟨o.after es, ⟨es, e, [], rfl, rfl, hy⟩, hb⟩
      · rw [List.concat_eq_append, ← List.cons_append, ← List.append_assoc] at h
        obtain ⟨hb, -⟩ := List.append_inj' h rfl
        exact hearlier hb

/-- A property of single occurrences that follows from an invariant of scenes holds along every record. -/
theorem Opening.along (o : Opening) {I : Scene → List Occurrence → Prop}
    {P : List Occurrence → Occurrence → Prop} (inv : ∀ es, I (o.after es).desk.scene (o.after es).past)
    (step : ∀ s x s' past, I s past → s.Step (some x) s' → P past x) (es : List Event) :
    Along P (o.after es).past := by
  induction es using List.reverseRecOn with
  | nil => exact along_nil
  | append_singleton es e ih =>
    rw [o.after_snoc]
    have hstep := scene_perform (o.orderly es) e
    unfold Chronicle.next
    cases hx : (o.after es).desk.occurs e with
    | none => simpa using ih
    | some x =>
      rw [hx] at hstep
      exact along_snoc.mpr ⟨ih, step _ _ _ _ (inv es) hstep⟩

end AgentDesk.Desk
