import AgentDesk.Proofs.Session.Course

/-! # What an action has to show for itself

Of an action's own record three things count outside of it: the requests it sent, the results it came to and the
toasts it raised. Wherever an action stands, they are what its post says (`Account`). A check for a running session
keeps no such account: it raises no toast at all. -/
namespace AgentDesk.Desk
open Session

namespace Occurrence

def request? : Occurrence → Option Wire.Request
  | sent _ request => some request
  | _ => none

def result? : Occurrence → Option Result
  | resumed _ _ (.done r) => some r
  | _ => none

/-- What is done to the store. -/
def writes? : Occurrence → Option Store.Action
  | edited action => some action
  | resumed _ (.changes w) _ => some w.action
  | _ => none

/-- A toast that an action raises. -/
def toast? : Occurrence → Option Store.Notification
  | resumed _ (.changes (.refusal r)) _ => some (.error r.toast)
  | resumed _ (.changes (.announce t)) _ => some (.success t.toast)
  | resumed _ (.changes (.toast text)) _ => some (.error text)
  | _ => none

end Occurrence

structure Ledger where
  requests : List Wire.Request := []
  results : List Result := []
  toasts : List Store.Notification := []

def Ledger.enter (l : Ledger) (x : Occurrence) : Ledger :=
  ⟨l.requests ++ x.request?.toList, l.results ++ x.result?.toList, l.toasts ++ x.toast?.toList⟩

def ledger (past : List Occurrence) : Ledger := past.foldl Ledger.enter {}

@[simp] theorem ledger_snoc (past : List Occurrence) (x : Occurrence) :
    ledger (past ++ [x]) = (ledger past).enter x := by
  simp [ledger, List.foldl_append]

theorem ledger_eq (past : List Occurrence) :
    ledger past = ⟨past.filterMap (·.request?), past.filterMap (·.result?), past.filterMap (·.toast?)⟩ := by
  induction past using List.reverseRecOn with
  | nil => rfl
  | append_singleton past x ih =>
    rw [ledger_snoc, ih, Ledger.enter]
    simp only [List.filterMap_append, List.filterMap_cons, List.filterMap_nil]
    cases x.request? <;> cases x.result? <;> cases x.toast? <;> rfl

theorem mem_requests {n : Nat} {past : List Occurrence} {request : Wire.Request}
    (h : .sent (.task n) request ∈ past) : request ∈ (ledger (own n past)).requests := by
  rw [ledger_eq]
  exact List.mem_filterMap.mpr ⟨_, mem_own.mpr ⟨h, rfl⟩, rfl⟩

theorem mem_results_iff {n : Nat} {past : List Occurrence} {result : Result} :
    result ∈ (ledger (own n past)).results ↔ ∃ cause, .resumed n cause (.done result) ∈ past := by
  rw [ledger_eq]
  constructor
  · intro h
    obtain ⟨x, hx, hresult⟩ := List.mem_filterMap.mp h
    obtain ⟨hmem, hn⟩ := mem_own.mp hx
    unfold Occurrence.result? at hresult
    split at hresult
    · cases hresult
      cases hn
      exact ⟨_, hmem⟩
    · cases hresult
  · intro ⟨cause, h⟩
    exact List.mem_filterMap.mpr ⟨_, mem_own.mpr ⟨h, rfl⟩, rfl⟩

/-! ## The account -/

/-- The toasts for what an action came to. What was refused and what was done, the controller tells itself; of a
request that got no answer the button tells, and nobody else does. -/
def report (errand : Errand) (requests : List Wire.Request) : Except Error Outcome → List Store.Notification
  | .ok .suppressed => []
  | .ok .connected => if requests = [] then [] else [.success Transition.connected.toast]
  | .ok .disconnected => if requests = [] then [] else [.success Transition.disconnected.toast]
  | .error e =>
    match e.userMessage? with
    | some text => [.error text]
    | none => if errand = .button then [.error e.message] else []

/-- What an action that is no check has to show where it stands, and at its end. -/
def Account (errand : Errand) (l : Ledger) : Option (Errand × Post) → Prop
  | some (_, .begun command) => command ≠ .check ∧ l = {}
  | some (_, .within (.reading .params)) | some (_, .within (.reading .stopChannel)) => l = {}
  | some (_, .sending request) => (∀ channel, request ≠ .ping channel) ∧ l = {}
  | some (_, .within (.calling request)) => (∀ channel, request ≠ .ping channel) ∧ l = { requests := [request] }
  | some (_, .within (.writing (.started _))) | some (_, .within (.writing (.teardown _)))
  | some (_, .within (.writing (.announce _))) => ∃ request, l = { requests := [request] }
  | some (_, .within (.writing (.refusal _))) => ∃ requests, l = { requests := requests }
  | some (_, .within (.writing (.toast text))) => errand = .button ∧
      ∃ request e, l = { requests := [request], results := [.outcome (.error (.api e))] } ∧ text = e.message
  | none => ∃ requests outcome, l = ⟨requests, [.outcome outcome], report errand requests outcome⟩
  | _ => False

theorem begin_cases {command : Command} (hc : command ≠ .check) (c : Controller) :
    (∃ outcome, (command.begin c).2 = .done (.outcome (.ok outcome))) ∨
      (command.begin c).2 = .go (.reading .params) ∨ (command.begin c).2 = .go (.reading .stopChannel) := by
  have hconnect : (∃ outcome, (Command.beginConnect c).2 = .done (.outcome (.ok outcome))) ∨
      (Command.beginConnect c).2 = .go (.reading .params) := by
    unfold Command.beginConnect
    split
    · exact .inl ⟨_, rfl⟩
    · split
      · exact .inl ⟨_, rfl⟩
      · exact .inr rfl
  have hdisconnect : (∃ outcome, (Command.beginDisconnect c).2 = .done (.outcome (.ok outcome))) ∨
      (Command.beginDisconnect c).2 = .go (.reading .stopChannel) := by
    unfold Command.beginDisconnect
    split
    · exact .inl ⟨_, rfl⟩
    · split
      · exact .inl ⟨_, rfl⟩
      · exact .inr rfl
  cases command with
  | connect => exact hconnect.imp_right .inl
  | disconnect => exact hdisconnect.imp_right .inr
  | toggle =>
    simp only [Command.begin]
    split
    · exact hdisconnect.imp_right .inr
    · exact hconnect.imp_right .inl
  | check => exact absurd rfl hc

section Course

variable {n : Nat} {errand : Errand} {l : Ledger}

theorem Account.sent {request : Wire.Request} (h : Account errand l (some (errand, .sending request))) :
    Account errand (l.enter (.sent (.task n) request)) (some (errand, .within (.calling request))) := by
  obtain ⟨hping, rfl⟩ := h
  exact ⟨hping, rfl⟩

theorem Account.resumed {cause : Cause} (c : Controller) (s : Store)
    (h : Account errand l (some (errand, cause.post))) :
    Account errand (l.enter (.resumed n cause (cause.next c s).2)) (nextEntry errand (cause.next c s).2) := by
  cases cause with
  | begins command =>
    obtain ⟨hc, rfl⟩ := h
    obtain ⟨outcome, hnext⟩ | hnext | hnext := begin_cases hc c
    · rw [Cause.next, hnext]
      exact ⟨[], .ok outcome, by cases outcome <;> rfl⟩
    · rw [Cause.next, hnext]
      exact rfl
    · rw [Cause.next, hnext]
      exact rfl
  | looks r =>
    cases r with
    | params =>
      obtain rfl : l = {} := h
      simp only [Cause.next, Reading.resume]
      split
      · exact ⟨[], rfl⟩
      · split
        · exact ⟨[], rfl⟩
        · exact ⟨fun _ h => (by cases h), rfl⟩
    | stopChannel =>
      obtain rfl : l = {} := h
      exact ⟨fun _ h => (by cases h), rfl⟩
    | pingChannel => exact h.elim
    | currentChannel pinged => exact h.elim
  | changes w =>
    cases w with
    | refusal r =>
      obtain ⟨requests, rfl⟩ := h
      refine ⟨requests, .error (.refused r), ?_⟩
      simp only [Ledger.enter, Occurrence.request?, Option.toList_none, List.append_nil]
      rfl
    | teardown reason =>
      obtain ⟨request, rfl⟩ := h
      cases reason with
      | failed e =>
        -- The button comes to a result here and goes on to tell of it; of anybody else nothing more is heard.
        simp only [Cause.next, Writing.resume, nextEntry]
        split
        · next hbutton => exact ⟨hbutton, request, e, rfl, rfl⟩
        · next hbutton =>
          refine ⟨[request], .error (.api e), ?_⟩
          simp only [report, Error.userMessage?, if_neg hbutton]
          rfl
      | refused r => exact ⟨[request], rfl⟩
      | stopped => exact ⟨request, rfl⟩
    | started p =>
      obtain ⟨request, rfl⟩ := h
      exact ⟨request, rfl⟩
    | announce t =>
      obtain ⟨request, rfl⟩ := h
      exact ⟨[request], .ok t.outcome, by cases t <;> rfl⟩
    | adopted channel => exact h.elim
    | toast text =>
      obtain ⟨hbutton, request, e, rfl, rfl⟩ := h
      refine ⟨[request], .error (.api e), ?_⟩
      simp only [report, Error.userMessage?, if_pos hbutton]
      rfl
  | hears request answer =>
    obtain ⟨hping, rfl⟩ := h
    cases request with
    | start p =>
      cases answer with
      | error e => exact ⟨_, rfl⟩
      | ok r =>
        simp only [Cause.next, resumeCall, afterStart]
        split
        · exact ⟨_, rfl⟩
        · exact ⟨_, rfl⟩
    | stop channel => cases answer <;> exact ⟨_, rfl⟩
    | ping channel => exact absurd rfl (hping channel)

theorem Course.account {command : Command} {past : List Occurrence} {entry : Option (Errand × Post)}
    (h : Course n errand command past entry) (hc : command ≠ .check) : Account errand (ledger past) entry := by
  induction h with
  | begun => exact ⟨hc, rfl⟩
  | chosen c before ih =>
    obtain ⟨hcurrent, hl⟩ := ih
    exact ⟨mt choose_eq_check_iff.mp hcurrent, hl⟩
  | sent before ih =>
    rw [ledger_snoc]
    exact ih.sent
  | resumed cause c s before ih =>
    rw [ledger_snoc]
    exact ih.resumed c s

end Course

/-- Whoever stands anywhere has raised nothing yet. -/
theorem Account.toasts_eq_nil {errand : Errand} {l : Ledger} {entry : Errand × Post}
    (h : Account errand l (some entry)) : l.toasts = [] := by
  unfold Account at h
  split at h
  case h_1 | h_4 | h_5 => rw [h.2]
  case h_2 | h_3 => rw [h]
  case h_6 | h_7 | h_8 | h_9 =>
    obtain ⟨_, rfl⟩ := h
    rfl
  case h_10 =>
    obtain ⟨-, _, _, rfl, -⟩ := h
    rfl
  case h_11 heq => cases heq
  case h_12 => exact h.elim

/-- Whoever stands anywhere with a result is the button's, and has yet to tell of a request without an answer. -/
theorem Account.results_cases {errand : Errand} {l : Ledger} {entry : Errand × Post}
    (h : Account errand l (some entry)) : l.results = [] ∨
      errand = .button ∧ ∃ e, l.results = [.outcome (.error (.api e))] ∧
        entry.2 = .within (.writing (.toast e.message)) := by
  unfold Account at h
  split at h
  case h_1 | h_4 | h_5 => exact .inl (by rw [h.2])
  case h_2 | h_3 => exact .inl (by rw [h])
  case h_6 | h_7 | h_8 | h_9 =>
    obtain ⟨_, rfl⟩ := h
    exact .inl rfl
  case h_10 heq =>
    obtain ⟨hbutton, _, e, rfl, rfl⟩ := h
    cases heq
    exact .inr ⟨hbutton, e, rfl, rfl⟩
  case h_11 heq => cases heq
  case h_12 => exact h.elim

end AgentDesk.Desk
