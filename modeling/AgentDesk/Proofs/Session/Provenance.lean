import AgentDesk.Proofs.Session.Custody

/-! # How an action came to stand where the gate is held

By moves of its own: nobody else moves it, and nobody else gains or stops a session while it has the gate. So what
the record tells of an action that has the gate depends on its own moves alone (`provenance`). -/
namespace AgentDesk.Desk
open Session Function

/-- The action that an occurrence is about, if it is about one. -/
def Occurrence.action? : Occurrence → Option Nat
  | begun n _ _ => some n
  | edited _ => none
  | sent (.task n) _ => some n
  | sent (.probe _) _ => none
  | resumed n _ _ => some n

theorem Scene.Step.plan_of_ne {s s' : Scene} {x : Occurrence} (st : s.Step (some x) s') {n : Nat}
    (h : x.action? ≠ some n) : s'.plan n = s.plan n := by
  have hne {m : Nat} (hm : some m ≠ some n) : n ≠ m := fun he => hm (congrArg some he.symm)
  cases st with
  | pinged running => rfl
  | edited e => rfl
  | begun fresh errand command => exact update_of_ne (hne h) ..
  | sent stood => exact update_of_ne (hne h) ..
  | resumed cause stood => exact update_of_ne (hne h) ..

/-- Where nothing goes on the record, everybody stands where he stood, but for a toggle that has made its choice. -/
theorem Scene.Step.plan_of_none {s s' : Scene} (st : s.Step none s') (n : Nat) :
    s'.plan n = s.plan n ∨ ∃ errand command, s.plan n = some (errand, .begun command) ∧
      s'.plan n = some (errand, .begun (choose s.controller command)) := by
  cases st with
  | quiet => exact .inl rfl
  | @chosen m errand command stood =>
    by_cases hn : n = m
    · subst hn
      exact .inr ⟨errand, command, stood, update_self ..⟩
    · exact .inl (update_of_ne hn ..)

theorem Scene.Step.stood_of_sent {s s' : Scene} {n : Nat} {request : Wire.Request}
    (st : s.Step (some (.sent (.task n) request)) s') : ∃ errand, s.plan n = some (errand, .sending request) := by
  cases st with
  | sent stood => exact ⟨_, stood⟩

theorem Scene.Step.of_resumed {s s' : Scene} {n : Nat} {cause : Cause} {next : Next}
    (st : s.Step (some (.resumed n cause next)) s') :
    next = (cause.next s.controller s.store).2 ∧ s'.controller = (cause.next s.controller s.store).1 ∧
      s'.store = cause.store s.store := by
  cases st with
  | resumed cause stood => exact ⟨rfl, rfl, rfl⟩

/-- Where an action goes on is decided by the controller and the store that it finds. -/
theorem Opening.OccursAt.next_eq {o : Opening} {es : List Event} {r : Chronicle} {n : Nat} {cause : Cause}
    {next : Next} (h : o.OccursAt es r (.resumed n cause next)) :
    next = (cause.next r.desk.controller r.desk.store).2 := by
  obtain ⟨early, e, rfl, st⟩ := h.step
  exact st.of_resumed.1

theorem Scene.Step.stood_of_resumed {s s' : Scene} {n : Nat} {cause : Cause} {next : Next}
    (st : s.Step (some (.resumed n cause next)) s') : ∃ errand, s.plan n = some (errand, cause.post) := by
  cases st with
  | resumed cause stood => exact ⟨_, stood⟩

/-- While one action has the gate, all others leave the session alone. -/
theorem Custody.undisturbed {s s' : Scene} {held : Option Holding} (h : Custody s held) {n : Nat}
    {entry : Errand × Post} (stands : s.plan n = some entry) (holds : entry.2.holdsGate = true) {x : Occurrence}
    (st : s.Step (some x) s') (other : x.action? ≠ some n) : x.isStop = false ∧ x.gain? = none := by
  obtain ⟨-, -, alone⟩ := h.holder stands holds
  cases st with
  | pinged running => exact ⟨rfl, rfl⟩
  | edited e => exact ⟨rfl, rfl⟩
  | begun fresh errand command => exact ⟨rfl, rfl⟩
  | sent stood =>
    next m errand request =>
    have hfree := alone m _ (fun he => other (congrArg some he)) stood
    cases request with
    | ping channel => exact ⟨rfl, rfl⟩
    | start p => cases hfree
    | stop channel => cases hfree
  | resumed cause stood =>
    next m errand =>
    exact ⟨rfl, gain?_of_not_holds (alone m _ (fun he => other (congrArg some he)) stood) _ _⟩

/-- What the record tells of a post that has the gate: it comes with the moves that lead there, and no gain or stop
of somebody else's is needed to know it. -/
structure Traced (Q : List Occurrence → Nat → Post → Prop) : Prop where
  free : ∀ past n post, post.holdsGate = false → Q past n post
  aside : ∀ past n post x, Q past n post → x.isStop = false → x.gain? = none → Q (past ++ [x]) n post
  sent : ∀ past n request, Q past n (.sending request) →
    Q (past ++ [.sent (.task n) request]) n (.within (.calling request))
  resumed : ∀ past n cause c s stage, Q past n cause.post → (cause.next c s).2 = .go stage →
    Q (past ++ [.resumed n cause (.go stage)]) n (.ofStage stage)

section Trace

variable {Q : List Occurrence → Nat → Post → Prop}

theorem Traced.step (q : Traced Q) {s s' : Scene} {x : Option Occurrence} {past : List Occurrence}
    (h : Custody s (held past)) (hq : ∀ n entry, s.plan n = some entry → Q past n entry.2) (st : s.Step x s') :
    ∀ n entry, s'.plan n = some entry → Q (past ++ x.toList) n entry.2 := by
  intro n entry hn
  cases x with
  | none =>
    rw [Option.toList_none, List.append_nil]
    rcases st.plan_of_none n with hsame | ⟨errand, command, -, hchosen⟩
    · exact hq n entry (hsame ▸ hn)
    · rw [hchosen] at hn
      cases hn
      exact q.free _ _ _ rfl
  | some x =>
    rw [Option.toList_some]
    by_cases hx : x.action? = some n
    · cases st with
      | pinged running => cases hx
      | edited e => cases hx
      | begun fresh errand command =>
        cases hx
        simp only [update_self] at hn
        cases hn
        exact q.free _ _ _ rfl
      | sent stood =>
        cases hx
        simp only [update_self] at hn
        cases hn
        exact q.sent _ _ _ (hq n _ stood)
      | resumed cause stood =>
        cases hx
        simp only [update_self] at hn
        rcases nextEntry_cases hn with ⟨stage, hgo, he⟩ | ⟨hfree, -⟩
        · rw [he, hgo]
          exact q.resumed _ _ _ _ _ _ (hq n _ stood) hgo
        · exact q.free _ _ _ hfree
    · rw [st.plan_of_ne hx] at hn
      cases hg : entry.2.holdsGate with
      | false => exact q.free _ _ _ hg
      | true =>
        obtain ⟨hs, hgain⟩ := h.undisturbed hn hg st hx
        exact q.aside _ _ _ _ (hq n entry hn) hs hgain

theorem provenance (o : Opening) (q : Traced Q) (es : List Event) :
    ∀ n entry, (o.after es).desk.plan n = some entry → Q (o.after es).past n entry.2 := by
  have h := o.scene_invariant
    (P := fun s past => Custody s (held past) ∧ ∀ n entry, s.plan n = some entry → Q past n entry.2)
    ⟨custody o [], fun n entry hn => by cases hn⟩
    (fun s x s' past h st => ⟨h.1.step st, q.step h.1 h.2 st⟩) es
  exact h.2

end Trace

/-! ## What leads to a stage -/

/-- What an action has found when it goes on to a stage. -/
def Cause.Finds (cause : Cause) (c : Controller) (s : Store) : Stage → Prop
  | .calling (.start p) => cause = .looks .params ∧ s.params? = some p
  | .calling (.stop channel) => cause = .looks .stopChannel ∧ s.identity.channel = channel
  | .reading (.currentChannel channel) =>
    (∃ r : Wire.Response, cause = .hears (.ping channel) (.ok r) ∧ r.code.isSuccess = true) ∧
      c.gate = .idle ∧ c.state = .disconnected
  | .writing (.adopted channel) => cause = .looks (.currentChannel channel) ∧ s.identity.channel = channel
  | _ => True

theorem Cause.finds {cause : Cause} {c : Controller} {s : Store} {stage : Stage}
    (h : (cause.next c s).2 = .go stage) : cause.Finds c s stage := by
  cases cause with
  | begins command =>
    cases command <;>
      simp only [next, Command.begin, Command.beginConnect, Command.beginDisconnect] at h <;> repeat' split at h
    all_goals cases h
    all_goals exact trivial
  | looks r =>
    cases r with
    | params =>
      simp only [next, Reading.resume] at h
      split at h
      · cases h; exact trivial
      · next p hp =>
        split at h
        · cases h; exact trivial
        · cases h; exact ⟨rfl, hp⟩
    | stopChannel => cases h; exact ⟨rfl, rfl⟩
    | pingChannel =>
      simp only [next, Reading.resume] at h
      split at h <;> cases h
      exact trivial
    | currentChannel pinged =>
      simp only [next, Reading.resume] at h
      split at h
      · next hsame => cases h; exact ⟨rfl, hsame⟩
      · cases h
  | changes w =>
    rcases w with _ | (_ | _ | _) | _ | _ | _ | _ <;> cases h <;> exact trivial
  | hears request answer =>
    cases request with
    | start p =>
      cases answer with
      | error e => cases h; exact trivial
      | ok r =>
        simp only [next, resumeCall, afterStart] at h
        split at h <;> cases h <;> exact trivial
    | stop channel => cases answer <;> cases h <;> exact trivial
    | ping channel =>
      by_cases hup : TakesUp c answer
      · cases (congrArg Prod.snd (afterPing_of_takesUp channel hup)).symm.trans h
        obtain ⟨⟨r, rfl, hr⟩, hidle, hdown⟩ := hup
        exact ⟨⟨r, rfl, hr⟩, hidle, hdown⟩
      · obtain ⟨_, hdone⟩ := afterPing_of_not_takesUp channel hup
        cases (congrArg Prod.snd hdone).symm.trans h

/-! ## How a session came about -/

/-- What occurred since the last stop request and led to where an action stands. -/
def Footing (past : List Occurrence) (n : Nat) : Post → Prop
  | .sending (.start p) => .resumed n (.looks .params) (.go (.calling (.start p))) ∈ sinceStop past
  | .within (.calling (.start p)) =>
    .resumed n (.looks .params) (.go (.calling (.start p))) ∈ sinceStop past ∧
      .sent (.task n) (.start p) ∈ sinceStop past
  | .within (.reading (.currentChannel channel)) =>
    ∃ r : Wire.Response, r.code.isSuccess = true ∧
      .resumed n (.hears (.ping channel) (.ok r)) (.go (.reading (.currentChannel channel))) ∈ sinceStop past
  | .within (.writing (.adopted channel)) =>
    ∃ r : Wire.Response, r.code.isSuccess = true ∧
      .resumed n (.hears (.ping channel) (.ok r)) (.go (.reading (.currentChannel channel))) ∈ sinceStop past ∧
      .resumed n (.looks (.currentChannel channel)) (.go (.writing (.adopted channel))) ∈ sinceStop past
  | _ => True

theorem Footing.aside {past : List Occurrence} {n : Nat} {post : Post} {x : Occurrence} (h : Footing past n post)
    (hx : x.isStop = false) : Footing (past ++ [x]) n post := by
  have hmem {y : Occurrence} (hy : y ∈ sinceStop past) := mem_sinceStop_snoc hx hy
  unfold Footing at h ⊢
  split at h
  · exact hmem h
  · exact ⟨hmem h.1, hmem h.2⟩
  · obtain ⟨r, hr, hheard⟩ := h
    exact ⟨r, hr, hmem hheard⟩
  · obtain ⟨r, hr, hheard, hlooked⟩ := h
    exact ⟨r, hr, hmem hheard, hmem hlooked⟩
  · exact trivial

theorem footing_traced : Traced Footing where
  free past n post h := by
    unfold Footing
    split <;> first | exact trivial | cases h
  aside past n post x h hs _ := h.aside hs
  sent past n request h := by
    cases request with
    | start p => exact ⟨mem_sinceStop_snoc rfl h, mem_sinceStop_self rfl⟩
    | stop channel => exact trivial
    | ping channel => exact trivial
  resumed past n cause c s stage h hgo := by
    have hfinds := Cause.finds hgo
    cases stage with
    | calling request =>
      cases request with
      | start p =>
        obtain ⟨rfl, -⟩ := hfinds
        exact mem_sinceStop_self rfl
      | stop channel => exact trivial
      | ping channel => exact trivial
    | reading r =>
      cases r with
      | currentChannel channel =>
        obtain ⟨⟨r, rfl, hr⟩, -⟩ := hfinds
        exact ⟨r, hr, mem_sinceStop_self rfl⟩
      | _ => exact trivial
    | writing w =>
      cases w with
      | adopted channel =>
        obtain ⟨rfl, -⟩ := hfinds
        obtain ⟨r, hr, hheard⟩ := h
        exact ⟨r, hr, mem_sinceStop_snoc rfl hheard, mem_sinceStop_self rfl⟩
      | _ => exact trivial

/-- How a session at hand came about. -/
inductive Origin (recent : List Occurrence) : Holding → Prop
  | started (n : Nat) (p : Wire.Params)
      (looked : .resumed n (.looks .params) (.go (.calling (.start p))) ∈ recent)
      (sent : .sent (.task n) (.start p) ∈ recent) : Origin recent ⟨p.channel, some p⟩
  | adopted (n : Nat) (channel : String) (r : Wire.Response) (alive : r.code.isSuccess = true)
      (heard : .resumed n (.hears (.ping channel) (.ok r)) (.go (.reading (.currentChannel channel))) ∈ recent)
      (looked : .resumed n (.looks (.currentChannel channel)) (.go (.writing (.adopted channel))) ∈ recent) :
      Origin recent ⟨channel, none⟩

theorem Origin.mono {recent recent' : List Occurrence} {session : Holding} (h : Origin recent session)
    (hmem : ∀ x ∈ recent, x ∈ recent') : Origin recent' session := by
  cases h with
  | started n p looked sent => exact .started n p (hmem _ looked) (hmem _ sent)
  | adopted n channel r alive heard looked => exact .adopted n channel r alive (hmem _ heard) (hmem _ looked)

theorem origin_of_gain {s s' : Scene} {past : List Occurrence} {x : Occurrence} {session : Holding}
    (hf : ∀ n entry, s.plan n = some entry → Footing past n entry.2) (st : s.Step (some x) s')
    (hg : x.gain? = some session) : Origin (sinceStop past) session := by
  cases st with
  | pinged running => cases hg
  | edited e => cases hg
  | begun fresh errand command => cases hg
  | sent stood => cases hg
  | resumed cause stood =>
    have hfoot := hf _ _ stood
    cases cause with
    | begins command => cases hg
    | looks r => cases hg
    | changes w =>
      cases w with
      | adopted channel =>
        cases hg
        obtain ⟨r, hr, hheard, hlooked⟩ := hfoot
        exact .adopted _ channel r hr hheard hlooked
      | _ => cases hg
    | hears request answer =>
      cases request with
      | start p =>
        cases answer with
        | error e => cases hg
        | ok r =>
          simp only [Occurrence.gain?] at hg
          split at hg
          · cases hg
            exact .started _ p hfoot.1 hfoot.2
          · cases hg
      | _ => cases hg

/-- A session at hand came about after the last stop request, by a start request or by an answered ping. -/
theorem held_origin (o : Opening) (es : List Event) :
    ∀ session, held (o.after es).past = some session → Origin (sinceStop (o.after es).past) session := by
  have h := o.scene_invariant
    (P := fun s past => (Custody s (held past) ∧ ∀ n entry, s.plan n = some entry → Footing past n entry.2) ∧
      ∀ session, held past = some session → Origin (sinceStop past) session)
    ⟨⟨custody o [], fun n entry hn => by cases hn⟩, fun session hs => by cases hs⟩
    (fun s x s' past h st => ⟨⟨h.1.1.step st, footing_traced.step h.1.1 h.1.2 st⟩, fun session hs => ?_⟩) es
  · exact h.2
  · cases x with
    | none =>
      rw [Option.toList_none, List.append_nil] at hs ⊢
      exact h.2 session hs
    | some x =>
      rw [Option.toList_some, held_snoc] at hs
      rw [Option.toList_some]
      obtain ⟨hx, hgained | ⟨-, hs⟩⟩ := Occurrence.carry_eq_some hs
      · exact (origin_of_gain h.1.2 st hgained).mono fun y hy => mem_sinceStop_snoc hx hy
      · exact (h.2 session hs).mono fun y hy => mem_sinceStop_snoc hx hy

end AgentDesk.Desk
