import AgentDesk.Proofs.Session.Check
import AgentDesk.Proofs.Session.Ledger
import AgentDesk.Proofs.Session.Progress

/-! # What the user is told

Every action that the user asked for is told of once, when it is over: of what was done, of why it was refused, or of
a request that got no answer. The first two the controller tells, the last the button, because the controller has
kept it to itself. An action that found nothing to do is not told of, and neither is a check for a running session
nor a ping. -/
namespace AgentDesk.Desk
open Session Function

/-! ## The store as the record has it -/

/-- The store after an occurrence. -/
def Occurrence.write (s : Store) (x : Occurrence) : Store :=
  match x.writes? with
  | some action => s.dispatch action
  | none => s

theorem Scene.Step.store_eq {s s' : Scene} {x : Option Occurrence} (st : s.Step x s') :
    s'.store = x.toList.foldl Occurrence.write s.store := by
  cases st with
  | resumed cause stood => cases cause <;> rfl
  | _ => rfl

/-- What is known of an action and its toasts at the end of a run. -/
structure Opening.Tells (o : Opening) (es : List Event) (n : Nat) (errand : Errand) : Prop where
  not_yet : (o.after es).desk.plan n ≠ none → (ledger (own n (o.after es).past)).toasts = []
  once : (o.after es).desk.plan n = none → ∃ outcome,
    (ledger (own n (o.after es).past)).results = [.outcome outcome] ∧
      (ledger (own n (o.after es).past)).toasts = report errand (ledger (own n (o.after es).past)).requests outcome
  /-- With a result, an action that is not over can be brought to its end: it waits to write its last toast. -/
  ends : (ledger (own n (o.after es).past)).results ≠ [] → ∃ es', es <+: es' ∧ (o.after es').desk.plan n = none

section Run

variable (o : Opening) (es : List Event) {n : Nat} {errand : Errand} {command : Command}

theorem Opening.tells (h : .begun n errand command ∈ (o.after es).past) (hc : command ≠ .check) :
    o.Tells es n errand := by
  have hcourse := o.course es h
  have haccount := hcourse.account hc
  cases hplan : (o.after es).desk.plan n with
  | none =>
    rw [hplan] at haccount
    obtain ⟨requests, outcome, hledger⟩ := haccount
    constructor
    case not_yet =>
      intro hpending
      exact absurd hplan hpending
    case once =>
      intro _
      rw [hledger]
      exact ⟨outcome, rfl, rfl⟩
    case ends =>
      intro _
      exact ⟨es, List.prefix_rfl, hplan⟩
  | some entry =>
    rw [hplan] at haccount hcourse
    constructor
    case not_yet =>
      intro _
      exact haccount.toasts_eq_nil
    case once =>
      intro hover
      rw [hplan] at hover
      cases hover
    case ends =>
      intro hresult
      obtain hnone | ⟨-, e, -, hpost⟩ := haccount.results_cases
      · exact absurd hnone hresult
      · obtain ⟨errand', post⟩ := entry
        cases hpost
        have stands : (o.after es).desk.plan n = some (errand', (Cause.changes (.toast e.message)).post) := hplan
        obtain ⟨es', _, _, hmore, hover, -⟩ := o.gets_on es stands rfl
        exact ⟨es', hmore, hover⟩

end Run

/-! ## Every run -/

/-- The server cannot be reached, and the button is used. -/
def unansweredToggle (detail : String) : List Event :=
  .script .start ⟨.error (.request detail), 0⟩ :: .begin .button .toggle :: List.replicate 6 (.move 0)

example : (ledger (own 0 (furnished.after (unansweredToggle "timed out")).past)).toasts =
    [.error "Failed to reach agent server: timed out"] := by
  decide +kernel

end AgentDesk.Desk
