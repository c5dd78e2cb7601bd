import AgentDesk.Http.Exchange
import AgentDesk.Proofs.Wire.ResultCode
import AgentDesk.Session.Stage

/-! # What the reply to a start request means

The status is looked at, the body is read as an envelope, and the envelope's code is judged. `ReplyMeans` says what
comes out, in terms of the status and the text alone. -/
namespace AgentDesk.Desk
open Session Http

/-! ## By the answer -/

/-- What a connect comes to, by the answer to its start request. -/
def verdict : Answer → Except Session.Error Outcome
  | .error e => .error (.api e)
  | .ok r => if r.code.isSuccess then .ok .connected else .error (.refused (refusalOf r))

/-- The controller is as a result says. -/
structure Shows (c : Controller) (came : Except Session.Error Outcome) : Prop where
  connected : c.state = .connected ↔ came = .ok .connected
  disconnected : c.state = .disconnected ↔ came ≠ .ok .connected

theorem shows_connected {c : Controller} (h : c.state = .connected) : Shows c (.ok .connected) := by
  refine ⟨by simp [h], by simp [h]⟩

theorem shows_error {c : Controller} (h : c.state = .disconnected) (e : Session.Error) : Shows c (.error e) := by
  refine ⟨by simp [h], by simp [h]⟩

/-! ## By the status and the body -/

section
variable {m : Type → Type} (client : Client m)

/-- The result of a connect whose start request got a reply of some status with some body: each result by what it
takes, and no others. -/
structure ReplyMeans (status : Nat) (body : String) (result : Except Session.Error Outcome) : Prop where
  connected : result = .ok .connected ↔ (200 ≤ status ∧ status < 300) ∧
    ∃ r, Wire.Response.parse body = .ok r ∧ r.code.Denotes 0
  full : result = .error (.refused .capacityExceeded) ↔ (200 ≤ status ∧ status < 300) ∧
    ∃ r, Wire.Response.parse body = .ok r ∧ r.code.Denotes 10001
  refused : ∀ code message, result = .error (.refused (.serviceFailure code message)) ↔
    (200 ≤ status ∧ status < 300) ∧ ∃ r, Wire.Response.parse body = .ok r ∧
      ¬ r.code.Denotes 0 ∧ ¬ r.code.Denotes 10001 ∧ r.code = code ∧ r.msg.getD "" = message
  unsuccessful : ∀ code text, result = .error (.api (.status code text)) ↔
    ¬ (200 ≤ status ∧ status < 300) ∧ code = status ∧ text = body
  undecodable : ∀ text, result = .error (.api (.decode text)) ↔ (200 ≤ status ∧ status < 300) ∧
    ∃ fault, Wire.Response.parse body = .error fault ∧
      text = client.wording fault body ++ " - Response body: " ++ body
  nothing_else : result = .ok .connected ∨ result = .error (.refused .capacityExceeded) ∨
    (∃ code message, result = .error (.refused (.serviceFailure code message))) ∨
    (∃ code text, result = .error (.api (.status code text))) ∨ ∃ text, result = .error (.api (.decode text))

theorem replyMeans_of_status {status : Nat} {body : String} (h : ¬ (200 ≤ status ∧ status < 300)) :
    ReplyMeans client status body (.error (.api (.status status body))) := by
  refine ⟨?_, ?_, fun code message => ?_, fun code text => ?_, fun text => ?_, .inr (.inr (.inr (.inl ⟨_, _, rfl⟩)))⟩
  · simp [h]
  · simp [h]
  · simp [h]
  · simp only [Except.error.injEq, Error.api.injEq, Wire.ApiError.status.injEq, h, not_false_eq_true, true_and]
    rw [eq_comm, eq_comm (a := body)]
  · simp [h]

theorem replyMeans_of_fault {status : Nat} {body : String} (h : 200 ≤ status ∧ status < 300) {fault : Json.Fault}
    (hfault : Wire.Response.parse body = .error fault) :
    ReplyMeans client status body (.error (.api (client.undecodable fault body))) := by
  refine ⟨?_, ?_, fun code message => ?_, fun code text => ?_, fun text => ?_, .inr (.inr (.inr (.inr ⟨_, rfl⟩)))⟩
  · simp [hfault]
  · simp [hfault, Client.undecodable]
  · simp [hfault, Client.undecodable]
  · simp [h, Client.undecodable]
  · simp only [Client.undecodable, Except.error.injEq, Error.api.injEq, Wire.ApiError.decode.injEq, h, and_self,
      true_and, hfault, exists_eq_left']
    exact eq_comm

theorem replyMeans_of_envelope {status : Nat} {body : String} (h : 200 ≤ status ∧ status < 300) {r : Wire.Response}
    (hr : Wire.Response.parse body = .ok r) : ReplyMeans client status body (verdict (.ok r)) := by
  have hsuccess := r.code.isSuccess_iff
  have hfull := r.code.isCapacityExceeded_iff
  by_cases hs : r.code.Denotes 0
  · have hnot : ¬ r.code.Denotes 10001 := fun hc => by
      have hsame := hs.unique hc
      omega
    rw [show verdict (.ok r) = .ok .connected from if_pos (hsuccess.mpr hs)]
    refine ⟨?_, ?_, fun code message => ?_, fun code text => ?_, fun text => ?_, .inl rfl⟩
    · simp [h, hr, hs]
    · simp [hr, hnot]
    · simp [hr, hs]
    · simp [h]
    · simp [hr]
  · rw [show verdict (.ok r) = .error (.refused (refusalOf r)) from if_neg fun hc => hs (hsuccess.mp hc)]
    by_cases hc : r.code.Denotes 10001
    · rw [show refusalOf r = .capacityExceeded from if_pos (hfull.mpr hc)]
      refine ⟨?_, ?_, fun code message => ?_, fun code text => ?_, fun text => ?_, .inr (.inl rfl)⟩
      · simp [hr, hs]
      · simp [h, hr, hc]
      · simp [hr, hc]
      · simp [h]
      · simp [hr]
    · rw [show refusalOf r = .serviceFailure r.code r.message from if_neg fun hx => hc (hfull.mp hx)]
      refine ⟨?_, ?_, fun code message => ?_, fun code text => ?_, fun text => ?_, .inr (.inr (.inl ⟨_, _, rfl⟩))⟩
      · simp [hr, hs]
      · simp [hr, hc]
      · simp [h, hr, hs, hc, Wire.Response.message]
      · simp [h]
      · simp [hr]

/-- The result follows from the status and the text that the client gives. -/
theorem replyMeans_interpret {reply : Reply} {body : String} (hbody : reply.text = .ok body) :
    ReplyMeans client reply.status body (verdict (client.interpret reply)) := by
  unfold Client.interpret
  by_cases h : isSuccess reply.status = true
  · rw [if_pos h, hbody]
    have hin := isSuccess_iff.mp h
    cases hparse : Wire.Response.parse body with
    | ok r =>
      simp only [hparse]
      exact replyMeans_of_envelope client hin hparse
    | error fault =>
      simp only [hparse]
      exact replyMeans_of_fault client hin hparse
  · rw [if_neg h, hbody]
    exact replyMeans_of_status client fun hin => h (isSuccess_iff.mpr hin)

end

/-- A start request is posted, and a reply of some status comes in the end, with the whole of some body. -/
structure Replied (client : Client Id) (base requestId : String) (p : Wire.Params) (status : Nat) (body : String) :
    Prop where
  requested : client.refusal? (endpoint base .start) = none
  reply : (client.send (post base requestId (.start p))).run.delivery = .reply ⟨status, .ok body⟩

theorem Replied.means {client : Client Id} {base requestId : String} {p : Wire.Params} {status : Nat} {body : String}
    (h : Replied client base requestId p status body) :
    ReplyMeans client status body (verdict (client.exchange base requestId (.start p)).run) := by
  have hexchange : (client.exchange base requestId (.start p)).run = client.interpret ⟨status, .ok body⟩ := by
    have hurl : client.refusal? (post base requestId (.start p)).url = none := h.requested
    rw [client.exchange_run, hurl]
    exact congrArg client.answer h.reply
  rw [hexchange]
  have hmeans (reply : Reply) (hbody : reply.text = .ok body) := replyMeans_interpret client hbody
  exact hmeans ⟨status, .ok body⟩ rfl

end AgentDesk.Desk
