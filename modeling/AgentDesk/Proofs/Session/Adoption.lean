import AgentDesk.Proofs.Session.Provenance

/-! # What a controller is connected by

After a stop request the controller is connected only by what came later: a start request that was sent, or a ping
whose answer was taken up. When that ping was sent is not looked at. Its answer is taken up if, at that moment, it
is a success, the gate is free and the state is disconnected, and it leads to an adoption if the store's channel is
then the one that was pinged. -/
namespace AgentDesk.Desk
open Session Function

theorem Secured.of_connected {held : Option Holding} {s : Signs} {post : Post} (h : Secured held s post)
    (hs : s.state = .connected) :
    (∃ session, s = .up session ∧ held = some session) ∨
      ∃ channel, post = .within (.calling (.stop channel)) := by
  unfold Secured at h
  split at h
  · rw [h.1] at hs; cases hs
  · rw [h.1] at hs; cases hs
  · rw [h.1] at hs; cases hs
  · obtain ⟨⟨flag, rfl⟩, -⟩ := h
    cases hs
  · exact .inl h
  · exact .inl h
  · exact .inl h
  · exact .inr ⟨_, rfl⟩
  · rw [h.1] at hs; cases hs

theorem Custody.connected {s : Scene} {held : Option Holding} (h : Custody s held)
    (hs : s.controller.state = .connected) :
    (∃ session, held = some session) ∨
      ∃ n errand channel, s.plan n = some (errand, .within (.calling (.stop channel))) := by
  cases h with
  | free idle nobody rest =>
    obtain ⟨session, -, hheld⟩ := rest.of_connected hs
    exact .inl ⟨session, hheld⟩
  | taken n entry inFlight stands holds alone secured =>
    rcases secured.of_connected hs with ⟨session, -, hheld⟩ | ⟨channel, hpost⟩
    · exact .inl ⟨session, hheld⟩
    · exact .inr ⟨n, entry.1, channel, by rw [stands, ← hpost]⟩

/-- Until a stop request is answered the controller is connected, and was so before it was sent. -/
theorem Custody.connected_of_stopping {s s' : Scene} {x : Option Occurrence} {held : Option Holding}
    (h : Custody s held) (st : s.Step x s') {n : Nat} {errand : Errand} {channel : String}
    (hp : s'.plan n = some (errand, .within (.calling (.stop channel)))) : s.controller.state = .connected := by
  have hstay (stood : s.plan n = some (errand, .within (.calling (.stop channel)))) :
      s.controller.state = .connected := by
    obtain ⟨-, ⟨⟨session, hup⟩, -⟩, -⟩ := h.holder stood rfl
    exact congrArg Signs.state hup
  cases x with
  | none =>
    rcases st.plan_of_none n with hsame | ⟨_, _, -, hchosen⟩
    · exact hstay (hsame ▸ hp)
    · cases hchosen.symm.trans hp
  | some x =>
    by_cases hx : x.action? = some n
    · cases st with
      | pinged running => cases hx
      | edited e => cases hx
      | begun fresh errand command =>
        cases hx
        simp [update_self] at hp
      | sent stood =>
        cases hx
        simp only [update_self] at hp
        cases hp
        obtain ⟨-, ⟨session, hup, -⟩, -⟩ := h.holder stood rfl
        exact congrArg Signs.state hup
      | resumed cause stood =>
        cases hx
        simp only [update_self] at hp
        rcases nextEntry_cases hp with ⟨stage, -, he⟩ | ⟨hfree, -⟩
        · cases stage <;> cases he
        · cases hfree
    · exact hstay ((st.plan_of_ne hx).symm.trans hp)

/-! ## Every run -/

structure Chronicle.Grounded (r : Chronicle) : Prop where
  /-- Where the controller becomes connected, what it is connected by occurred after any stop request. -/
  becomes : ∀ e before stop after, (r.next e).past = before ++ stop :: after → stop.isStop = true →
    r.desk.controller.state ≠ .connected → (r.desk.perform e).controller.state = .connected →
      ∃ session, held (r.next e).past = some session ∧ Origin after session
  taken : ∀ e n channel answer next,
    r.desk.occurs e = some (.resumed n (.hears (.ping channel) answer) next) →
      (next = .go (.reading (.currentChannel channel)) ↔ TakesUp r.desk.controller answer)
  /-- An answer that is not taken up ends its check and changes nothing. -/
  dropped : ∀ e n channel answer next,
    r.desk.occurs e = some (.resumed n (.hears (.ping channel) answer) next) →
      ¬ TakesUp r.desk.controller answer →
        (∀ stage, next ≠ .go stage) ∧ (r.desk.perform e).controller = r.desk.controller ∧
          (r.desk.perform e).store = r.desk.store
  adopted : ∀ e n channel next, r.desk.occurs e = some (.resumed n (.looks (.currentChannel channel)) next) →
    (next = .go (.writing (.adopted channel)) ↔ r.desk.store.identity.channel = channel)

theorem grounded_after (o : Opening) (es : List Event) : (o.after es).Grounded := by
  have hstep (e : Event) := scene_perform (o.orderly es) e
  refine ⟨fun e before stop after hpast hstop hwas his => ?_, fun e n channel answer next hx => ?_,
    fun e n channel answer next hx hnot => ?_, fun e n channel next hx => ?_⟩
  · rw [← o.after_snoc] at hpast ⊢
    have his : (o.after (es ++ [e])).desk.controller.state = .connected := by
      rw [o.after_snoc]
      exact his
    rcases (custody o (es ++ [e])).connected his with ⟨session, hheld⟩ | ⟨n, errand, channel, hp⟩
    · refine ⟨session, hheld, (held_origin o (es ++ [e]) session hheld).mono fun x hx => ?_⟩
      rw [hpast] at hx
      exact mem_of_mem_sinceStop hstop hx
    · rw [o.after_snoc] at hp
      exact absurd ((custody o es).connected_of_stopping (hstep e) hp) hwas
  · obtain ⟨rfl, -⟩ := (hx ▸ hstep e).of_resumed
    refine ⟨fun hgo => ?_, fun hup => congrArg Prod.snd (afterPing_of_takesUp channel hup)⟩
    by_contra hnot
    obtain ⟨_, hdone⟩ := afterPing_of_not_takesUp channel hnot
    cases (congrArg Prod.snd hdone).symm.trans hgo
  · obtain ⟨rfl, hc, hst⟩ := (hx ▸ hstep e).of_resumed
    obtain ⟨_, hdone⟩ := afterPing_of_not_takesUp channel hnot
    refine ⟨fun stage hgo => ?_, hc.trans (congrArg Prod.fst hdone), hst⟩
    cases (congrArg Prod.snd hdone).symm.trans hgo
  · obtain ⟨rfl, -⟩ := (hx ▸ hstep e).of_resumed
    refine ⟨fun hgo => (Cause.finds hgo).2, fun hsame => ?_⟩
    simp only [Cause.next, Reading.resume]
    exact congrArg Prod.snd (if_pos hsame)

/-! ## A ping from before the stop request -/

def Occurrence.isSent : Occurrence → Bool
  | sent _ _ => true
  | _ => false

/-- A ping is sent; a session is started and stopped; then the ping is answered. -/
def pingAcrossStop : List Event :=
  alone 0 .check 3 ++ alone 1 .connect 6 ++ alone 2 .disconnect 6 ++ List.replicate 3 (.move 0)

/-- The check adopts the session that was stopped meanwhile, with no request sent since. -/
theorem adopted_by_earlier_ping :
    ∃ (o : Opening) (es : List Event) (channel : String) (pinged stopped ended answered : Nat),
      pinged < stopped ∧ stopped < ended ∧ ended < answered ∧
      (o.after es).past[pinged]? = some (.sent (.task 0) (.ping channel)) ∧
      (o.after es).past[stopped]? = some (.sent (.task 2) (.stop channel)) ∧
      (o.after es).past[ended]? =
        some (.resumed 2 (.changes (.announce .disconnected)) (.done (.outcome (.ok .disconnected)))) ∧
      (o.after es).past[answered]? =
        some (.resumed 0 (.hears (.ping channel) (.ok .ok)) (.go (.reading (.currentChannel channel)))) ∧
      ((o.after es).past.drop (stopped + 1)).any Occurrence.isSent = false ∧
      (o.after es).desk.controller.state = .connected := by
  refine ⟨furnished, pingAcrossStop, "room-1", 3, 14, 17, 18, ?_⟩
  refine ⟨by decide, by decide, by decide, rfl, rfl, rfl, rfl, rfl, rfl⟩

end AgentDesk.Desk
