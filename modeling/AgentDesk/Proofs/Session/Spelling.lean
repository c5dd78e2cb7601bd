import AgentDesk.Proofs.Wire.ResultCode
import AgentDesk.Session.Stage

/-! # How a code is spelled decides nothing

A code that is read may be kept, to be told to the user as it was written. The plain form of what an action does has
each code spelled in one way only; an action that is given plain answers does the plain form of what it would have
done (`resumeCall_plain`), and whatever else it does was plain already (`reading_plain`, `writing_plain`). -/
namespace AgentDesk

namespace Wire

/-- The one spelling that stands for all of a code. -/
def ResultCode.plain (c : ResultCode) : ResultCode := .text c.meaning

theorem ResultCode.meaning_plain (c : ResultCode) : c.plain.meaning = c.meaning := by
  cases c with
  | number n =>
    have hbare := Text.Numeral.trim_padded (u := []) (v := []) (by intro c hc; cases hc) (by intro c hc; cases hc) n
    rw [Text.Numeral.padded, List.nil_append, List.append_nil, String.ofList_toList] at hbare
    exact hbare
  | text s =>
    have htrim := Text.trimChars_append (u := []) (v := []) (by intro c hc; cases hc) (by intro c hc; cases hc)
      (Text.bare_trimChars s.toList)
    rw [List.nil_append, List.append_nil] at htrim
    simp only [plain, meaning, Text.trim, String.toList_ofList, htrim]

theorem ResultCode.plain_eq_of_meaning {c c' : ResultCode} (h : c.meaning = c'.meaning) : c.plain = c'.plain :=
  congrArg text h

def Response.plain (r : Response) : Response := { r with code := r.code.plain }

end Wire

namespace Session

open Wire

/-! ### Plain forms -/

def Answer.plain (answer : Answer) : Answer := answer.map Response.plain

def Refusal.plain : Refusal → Refusal
  | serviceFailure code message => .serviceFailure code.plain message
  | r => r

def Result.plain : Result → Result
  | .outcome (.error (.refused r)) => .outcome (.error (.refused r.plain))
  | r => r

def Teardown.plain : Teardown → Teardown
  | refused r => .refused r.plain
  | reason => reason

def Writing.plain : Writing → Writing
  | refusal r => .refusal r.plain
  | teardown reason => .teardown reason.plain
  | w => w

def Stage.plain : Stage → Stage
  | writing w => .writing w.plain
  | stage => stage

def Next.plain : Next → Next
  | go stage => .go stage.plain
  | done r => .done r.plain
  | closed => .closed

/-- Results that are the same, but for how the code of a refusal is spelled. -/
inductive Result.SameKind : Result → Result → Prop
  | same (r : Result) : SameKind r r
  | refused {code code' : ResultCode} (message : String) (meaning : code'.meaning = code.meaning) :
      SameKind (.outcome (.error (.refused (.serviceFailure code message))))
        (.outcome (.error (.refused (.serviceFailure code' message))))

theorem Refusal.eq_or_of_plain {r r' : Refusal} (h : r'.plain = r.plain) :
    r' = r ∨ ∃ code code' message, r = .serviceFailure code message ∧ r' = .serviceFailure code' message ∧
      code'.meaning = code.meaning := by
  cases r with
  | serviceFailure code message =>
    cases r' with
    | serviceFailure code' message' =>
      simp only [plain, ResultCode.plain, serviceFailure.injEq, ResultCode.text.injEq] at h
      obtain ⟨hmeaning, rfl⟩ := h
      exact .inr ⟨code, code', message', rfl, rfl, hmeaning⟩
    | _ => cases h
  | _ =>
    cases r' with
    | serviceFailure code' message' => cases h
    | _ => exact .inl h

/-- A result is a refusal, or has nothing that could be spelled otherwise. -/
theorem Result.refused_or (r : Result) :
    (∃ refusal, r = .outcome (.error (.refused refusal))) ∨
      r.plain = r ∧ ∀ refusal, r ≠ .outcome (.error (.refused refusal)) := by
  rcases r with ((refusal | e) | o) | result
  · exact .inl ⟨refusal, rfl⟩
  · exact .inr ⟨rfl, fun _ h => by cases h⟩
  · exact .inr ⟨rfl, fun _ h => by cases h⟩
  · exact .inr ⟨rfl, fun _ h => by cases h⟩

theorem Result.sameKind_of_plain {r r' : Result} (h : r'.plain = r.plain) : r.SameKind r' := by
  obtain ⟨refusal, rfl⟩ | ⟨hr, hne⟩ := r.refused_or
  · obtain ⟨refusal', rfl⟩ | ⟨hr', hne'⟩ := r'.refused_or
    · simp only [plain, outcome.injEq, Except.error.injEq, Error.refused.injEq] at h
      obtain rfl | ⟨code, code', message, rfl, rfl, hmeaning⟩ := Refusal.eq_or_of_plain h
      · exact .same _
      · exact .refused message hmeaning
    · rw [hr'] at h
      exact absurd h (hne' _)
  · obtain ⟨refusal', rfl⟩ | ⟨hr', -⟩ := r'.refused_or
    · rw [hr] at h
      exact absurd h.symm (hne _)
    · rw [hr, hr'] at h
      rw [h]
      exact .same r

/-! ### What an action does -/

theorem refusalOf_plain (r : Response) : refusalOf r.plain = (refusalOf r).plain := by
  have hcapacity : r.plain.code.isCapacityExceeded = r.code.isCapacityExceeded := by
    simp only [Response.plain, ResultCode.isCapacityExceeded, ResultCode.meaning_plain]
  simp only [refusalOf, hcapacity]
  split <;> rfl

theorem isSuccess_plain (r : Response) : r.plain.code.isSuccess = r.code.isSuccess := by
  simp only [Response.plain, ResultCode.isSuccess, ResultCode.meaning_plain]

theorem resumeCall_plain (c : Controller) (request : Request) (answer : Answer) :
    resumeCall c request (Answer.plain answer) =
      ((resumeCall c request answer).1, (resumeCall c request answer).2.plain) := by
  cases request with
  | start p =>
    cases answer with
    | error e => rfl
    | ok r =>
      simp only [resumeCall, Answer.plain, Except.map, afterStart, isSuccess_plain, refusalOf_plain]
      split <;> rfl
  | stop channel => cases answer <;> rfl
  | ping channel =>
    cases answer with
    | error e => rfl
    | ok r =>
      simp only [resumeCall, Answer.plain, Except.map, afterPing, isSuccess_plain]
      split
      · rfl
      · split
        · rfl
        · split <;> rfl

theorem begin_plain (c : Controller) (command : Command) : (command.begin c).2.plain = (command.begin c).2 := by
  have hconnect : (Command.beginConnect c).2.plain = (Command.beginConnect c).2 := by
    unfold Command.beginConnect
    split
    · rfl
    · split <;> rfl
  have hdisconnect : (Command.beginDisconnect c).2.plain = (Command.beginDisconnect c).2 := by
    unfold Command.beginDisconnect
    split
    · rfl
    · split <;> rfl
  cases command with
  | connect => exact hconnect
  | disconnect => exact hdisconnect
  | toggle =>
    simp only [Command.begin]
    split
    · exact hdisconnect
    · exact hconnect
  | check => rfl

theorem reading_plain (c : Controller) (s : Store) (r : Reading) : (r.resume c s).2.plain = (r.resume c s).2 := by
  cases r with
  | params =>
    simp only [Reading.resume]
    split
    · rfl
    · split <;> rfl
  | stopChannel => rfl
  | pingChannel =>
    simp only [Reading.resume]
    split <;> rfl
  | currentChannel pinged =>
    simp only [Reading.resume]
    split <;> rfl

theorem writing_plain (c : Controller) (w : Writing) :
    w.plain.resume c = ((w.resume c).1, (w.resume c).2.plain) := by
  rcases w with r | (e | r | _) | p | t | channel | text <;> rfl

end Session

namespace Store

/-! ### Stores without words -/

/-- The store with nothing in its toasts. -/
def wordless (s : Store) : Store :=
  { s with
    notifications :=
      { s.notifications with entries := s.notifications.entries.map fun n => { n with message := "" } } }

/-- The action with nothing in its toast. -/
def Action.wordless : Action → Action
  | notify n => .notify { n with message := "" }
  | a => a

theorem wordless_dispatch (s : Store) (a : Action) : (s.dispatch a).wordless = s.wordless.dispatch a.wordless := by
  cases a with
  | notify n =>
    simp only [dispatch, wordless, Action.wordless, NotificationLog.push, List.length_append, List.length_map,
      List.length_singleton]
    split <;> simp
  | _ => rfl

theorem wordless_action (w : Session.Writing) : w.plain.action.wordless = w.action.wordless := by
  rcases w with r | (e | r | _) | p | t | channel | text <;> rfl

theorem resume_wordless (s : Store) (c : Session.Controller) (r : Session.Reading) :
    r.resume c s.wordless = r.resume c s := by
  cases r <;> rfl

end Store

end AgentDesk
