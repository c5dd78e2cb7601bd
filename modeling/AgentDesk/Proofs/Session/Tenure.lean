import AgentDesk.Proofs.Session.Progress
import AgentDesk.Proofs.Session.Started

/-! # How long a session has been there

Before a session is at hand, the action that starts or adopts it has looked into the store. From that look on the desk
is never at ease again for as long as the session stays: the action has the gate until there is a session, and then
there is one. So what is left alone while the desk is not at ease is for the whole session as it was at that look. -/
namespace AgentDesk.Desk
open Session Function

/-- Nobody acts, and there is no session. -/
structure AtEase (d : Desk) : Prop where
  disconnected : d.controller.state = .disconnected
  idle : d.controller.gate = .idle

/-- It occurs in a run, and from then on the desk is never at ease. -/
def Opening.OccursBusy (o : Opening) (es : List Event) (r : Chronicle) (x : Occurrence) : Prop :=
  ∃ early e late, es = early ++ e :: late ∧ r = o.after early ∧ r.desk.occurs e = some x ∧
    ∀ more, more <+: late → ¬ (o.after (early ++ e :: more)).desk.AtEase

theorem Opening.OccursBusy.occursAt {o : Opening} {es : List Event} {r : Chronicle} {x : Occurrence}
    (h : o.OccursBusy es r x) : o.OccursAt es r x := by
  obtain ⟨early, e, late, hes, hr, hx, -⟩ := h
  exact ⟨early, e, late, hes, hr, hx⟩

theorem Opening.OccursBusy.snoc {o : Opening} {es : List Event} {r : Chronicle} {x : Occurrence}
    (h : o.OccursBusy es r x) {e : Event} (busy : ¬ (o.after (es ++ [e])).desk.AtEase) :
    o.OccursBusy (es ++ [e]) r x := by
  obtain ⟨early, e', late, rfl, hr, hx, hbusy⟩ := h
  refine ⟨early, e', late ++ [e], by simp, hr, hx, ?_⟩
  intro more hmore
  rcases List.prefix_concat_iff.mp hmore with rfl | hmore
  · simpa using busy
  · exact hbusy more hmore

theorem Opening.occursBusy_last {o : Opening} {es : List Event} {e : Event} {x : Occurrence}
    (hx : (o.after es).desk.occurs e = some x) (busy : ¬ (o.after (es ++ [e])).desk.AtEase) :
    o.OccursBusy (es ++ [e]) (o.after es) x := by
  refine ⟨es, e, [], rfl, rfl, hx, ?_⟩
  intro more hmore
  rw [List.prefix_nil.mp hmore]
  exact busy

/-- Where an action stands that has looked up what its session is about, the desk has not been at ease since. -/
def Opening.LookedBusy (o : Opening) (es : List Event) (n : Nat) : Post → Prop
  | .sending (.start p) | .within (.calling (.start p)) =>
    ∃ r, o.OccursBusy es r (.resumed n (.looks .params) (.go (.calling (.start p))))
  | .within (.writing (.adopted channel)) =>
    ∃ r, o.OccursBusy es r (.resumed n (.looks (.currentChannel channel)) (.go (.writing (.adopted channel))))
  | _ => True

/-- The look that a session began with, since which the desk has not been at ease. -/
inductive Opening.Tenure (o : Opening) (es : List Event) : Holding → Chronicle → Prop
  | started {r : Chronicle} (n : Nat) (p : Wire.Params)
      (looked : o.OccursBusy es r (.resumed n (.looks .params) (.go (.calling (.start p))))) :
      o.Tenure es ⟨p.channel, some p⟩ r
  | adopted {r : Chronicle} (n : Nat) (channel : String)
      (looked : o.OccursBusy es r
        (.resumed n (.looks (.currentChannel channel)) (.go (.writing (.adopted channel))))) :
      o.Tenure es ⟨channel, none⟩ r

/-- What occurs to an action finds it where it stood, and leaves it where it goes. -/
theorem Scene.Step.own_cases {s s' : Scene} {x : Occurrence} {n : Nat} (st : s.Step (some x) s')
    (h : x.action? = some n) :
    (∃ errand command, x = .begun n errand command ∧ s'.plan n = some (errand, .begun command)) ∨
      (∃ errand request, x = .sent (.task n) request ∧ s.plan n = some (errand, .sending request) ∧
        s'.plan n = some (errand, .within (.calling request))) ∨
      ∃ errand cause, x = .resumed n cause (cause.next s.controller s.store).2 ∧
        s.plan n = some (errand, cause.post) ∧ s'.plan n = nextEntry errand (cause.next s.controller s.store).2 := by
  cases st with
  | pinged running => cases h
  | edited e => cases h
  | begun fresh errand command =>
    cases h
    exact .inl ⟨errand, command, rfl, update_self ..⟩
  | sent stood =>
    cases h
    exact .inr (.inl ⟨_, _, rfl, stood, update_self ..⟩)
  | resumed cause stood =>
    cases h
    exact .inr (.inr ⟨_, cause, rfl, stood, update_self ..⟩)

section Step

variable {o : Opening} {es : List Event} {e : Event}

theorem Opening.Tenure.snoc {session : Holding} {r : Chronicle} (h : o.Tenure es session r)
    (busy : ¬ (o.after (es ++ [e])).desk.AtEase) : o.Tenure (es ++ [e]) session r := by
  cases h with
  | started n p looked => exact .started n p (looked.snoc busy)
  | adopted n channel looked => exact .adopted n channel (looked.snoc busy)

theorem Opening.LookedBusy.snoc {n : Nat} {post : Post} (h : o.LookedBusy es n post)
    (busy : ¬ (o.after (es ++ [e])).desk.AtEase) : o.LookedBusy (es ++ [e]) n post := by
  unfold LookedBusy at h ⊢
  split at h
  case h_4 => exact trivial
  all_goals
    obtain ⟨r, hr⟩ := h
    exact ⟨r, hr.snoc busy⟩

theorem Opening.lookedBusy_of_free {n : Nat} {post : Post} (h : post.holdsGate = false) : o.LookedBusy es n post := by
  unfold LookedBusy
  split <;> first | exact trivial | cases h

/-- Whoever holds the gate keeps the desk busy. -/
theorem Custody.busy_of_holds {d : Desk} {held : Option Holding} (h : Custody d.scene held) {n : Nat}
    {entry : Errand × Post} (stands : d.plan n = some entry) (holds : entry.2.holdsGate = true) : ¬ d.AtEase := by
  intro ease
  have hgate : d.controller.gate = .inFlight := (h.holder stands holds).1
  rw [ease.idle] at hgate
  cases hgate

/-- So does a session at hand. -/
theorem Custody.busy_of_held {d : Desk} {session : Holding} (h : Custody d.scene (some session)) : ¬ d.AtEase := by
  intro ease
  have hstate : d.controller.state = .connected := (h.rest ease.idle).of_held.1
  rw [ease.disconnected] at hstate
  cases hstate

/-- Whoever goes on to send a start request, or to adopt, has just looked. -/
theorem Opening.lookedBusy_of_resumed {n : Nat} {cause : Cause} {c : Controller} {s : Store} {stage : Stage}
    (hgo : (cause.next c s).2 = .go stage)
    (hx : (o.after es).desk.occurs e = some (.resumed n cause (.go stage)))
    (busy : ¬ (o.after (es ++ [e])).desk.AtEase) : o.LookedBusy (es ++ [e]) n (.ofStage stage) := by
  have hfinds := Cause.finds hgo
  cases stage with
  | calling request =>
    cases request with
    | start p =>
      obtain ⟨rfl, -⟩ := hfinds
      exact ⟨_, occursBusy_last hx busy⟩
    | _ => exact trivial
  | reading r => exact trivial
  | writing w =>
    cases w with
    | adopted channel =>
      obtain ⟨rfl, -⟩ := hfinds
      exact ⟨_, occursBusy_last hx busy⟩
    | _ => exact trivial

theorem Opening.lookedBusy_step (h : ∀ n entry, (o.after es).desk.plan n = some entry → o.LookedBusy es n entry.2) :
    ∀ n entry, (o.after (es ++ [e])).desk.plan n = some entry → o.LookedBusy (es ++ [e]) n entry.2 := by
  intro n entry stands
  cases holds : entry.2.holdsGate with
  | false => exact lookedBusy_of_free holds
  | true =>
    have busy := (custody o (es ++ [e])).busy_of_holds stands holds
    have st := scene_perform (o.orderly es) e
    have stands : ((o.after es).desk.perform e).scene.plan n = some entry := by
      rw [o.after_snoc] at stands
      exact stands
    -- Either somebody else is concerned, and the look is as long ago as it was, or the action itself goes on.
    by_cases haside : ∀ x, (o.after es).desk.occurs e = some x → x.action? ≠ some n
    · have onward (command : Command) : entry.2 ≠ .begun command := fun he => by
        rw [he] at holds
        cases holds
      exact (h n entry ((st.plan_iff_of_aside haside onward).mp stands)).snoc busy
    · simp only [not_forall, not_not] at haside
      obtain ⟨x, hx, hn⟩ := haside
      rw [hx] at st
      obtain ⟨errand, command, -, hplan⟩ | ⟨errand, request, -, stood, hplan⟩ | ⟨errand, cause, rfl, stood, hplan⟩ :=
        st.own_cases hn
      · cases hplan.symm.trans stands
        exact trivial
      · cases hplan.symm.trans stands
        cases request with
        | start p => exact (h n _ stood).snoc busy
        | _ => exact trivial
      · rcases nextEntry_cases (hplan.symm.trans stands) with ⟨stage, hgo, hpost⟩ | ⟨hfree, -⟩
        · rw [hpost]
          exact lookedBusy_of_resumed (c := (o.after es).desk.controller) hgo (hgo ▸ hx) busy
        · exact lookedBusy_of_free hfree

theorem Opening.tenure_step (h : ∀ n entry, (o.after es).desk.plan n = some entry → o.LookedBusy es n entry.2)
    (ht : ∀ session, held (o.after es).past = some session → ∃ r, o.Tenure es session r) :
    ∀ session, held (o.after (es ++ [e])).past = some session → ∃ r, o.Tenure (es ++ [e]) session r := by
  intro session hs
  have busy := (hs ▸ custody o (es ++ [e])).busy_of_held
  have hkept (hs : held (o.after es).past = some session) : ∃ r, o.Tenure (es ++ [e]) session r := by
    obtain ⟨r, hr⟩ := ht session hs
    exact ⟨r, hr.snoc busy⟩
  have st := scene_perform (o.orderly es) e
  rw [o.after_snoc, Chronicle.next] at hs
  cases hx : (o.after es).desk.occurs e with
  | none =>
    rw [hx, Option.toList_none, List.append_nil] at hs
    exact hkept hs
  | some x =>
    rw [hx] at hs st
    rw [Option.toList_some, held_snoc] at hs
    obtain ⟨-, hgain | ⟨-, hs⟩⟩ := Occurrence.carry_eq_some hs
    · obtain ⟨n, p, next, r, rfl, -, rfl⟩ | ⟨n, channel, next, rfl, rfl⟩ := Occurrence.gain?_eq_some_iff.mp hgain
      · obtain ⟨errand, stood⟩ := st.stood_of_resumed
        obtain ⟨looked, hlooked⟩ := h n _ stood
        exact ⟨looked, .started n p (hlooked.snoc busy)⟩
      · obtain ⟨errand, stood⟩ := st.stood_of_resumed
        obtain ⟨looked, hlooked⟩ := h n _ stood
        exact ⟨looked, .adopted n channel (hlooked.snoc busy)⟩
    · exact hkept hs

end Step

/-- In every run, the look that the session at hand began with was the start of a time in which the desk has not been
at ease. -/
theorem Opening.exists_tenure (o : Opening) (es : List Event) {session : Holding}
    (h : held (o.after es).past = some session) : ∃ r, o.Tenure es session r := by
  suffices (∀ n entry, (o.after es).desk.plan n = some entry → o.LookedBusy es n entry.2) ∧
      ∀ session, held (o.after es).past = some session → ∃ r, o.Tenure es session r from this.2 session h
  clear h
  induction es using List.reverseRecOn with
  | nil => exact ⟨fun _ _ h => (nomatch h), fun _ h => (nomatch h)⟩
  | append_singleton es e ih => exact ⟨o.lookedBusy_step ih.1, o.tenure_step ih.1 ih.2⟩

end AgentDesk.Desk
