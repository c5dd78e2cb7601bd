import AgentDesk.Proofs.Desk.Record

/-! # Who holds the gate, and what it may count on

Four places tell of a session: the controller's state, what the session was started with, the probe and the
store's flag. `Secured` says for every post that holds the gate what the four say there, and which session is at
hand on the record; `AtRest` says it of a free gate. `Custody` is the invariant: either the gate is free and all
is at rest, or one action alone holds it and its post is secured. -/
namespace AgentDesk.Desk
open Session Function

/-- What the four places say. -/
structure Signs where
  state : Session.State
  session : Option Wire.Params
  pinged : Option String
  flag : Bool
  deriving DecidableEq, Repr

def signs (c : Controller) (s : Store) : Signs :=
  ⟨c.state, c.session, c.probe.map (·.channel), s.agentConnected⟩

namespace Signs

def down : Signs := ⟨.disconnected, none, none, false⟩

def starting : Signs := ⟨.connecting, none, none, false⟩

/-- The start request was answered with success; nobody was told yet. -/
def started (p : Wire.Params) : Signs := ⟨.connecting, some p, none, false⟩

/-- The session is over; the store's flag may still be up. -/
def tornDown (flag : Bool) : Signs := ⟨.disconnected, none, none, flag⟩

def up (h : Holding) : Signs := ⟨.connected, h.params, some h.channel, true⟩

end Signs

/-- Nobody acts: there is a session and all say so, or there is none and nothing tells of one. -/
def AtRest (held : Option Holding) (s : Signs) : Prop :=
  (s = .down ∧ held = none) ∨ ∃ h, s = .up h ∧ held = some h

/-- What a post that holds the gate may count on. -/
def Secured (held : Option Holding) (s : Signs) : Post → Prop
  | .sending (.start _) | .within (.calling (.start _)) => s = .starting ∧ held = none
  | .within (.writing (.started p)) => s = .started p ∧ held = some ⟨p.channel, some p⟩
  | .within (.writing (.teardown _)) => (∃ flag, s = .tornDown flag) ∧ held = none
  | .within (.reading .stopChannel) | .sending (.stop _) | .within (.writing (.announce .connected)) =>
    ∃ h, s = .up h ∧ held = some h
  | .within (.calling (.stop _)) => (∃ h, s = .up h) ∧ held = none
  | _ => s = .down ∧ held = none

/-- What an action that was alone with the gate leaves behind when it goes on. -/
def Handed (held : Option Holding) (s : Signs) (gate : Gate) : Next → Prop
  | .go stage =>
    (stage.holdsGate = true ∧ gate = .inFlight ∧ Secured held s (.ofStage stage)) ∨
      (stage.holdsGate = false ∧ gate = .idle ∧ AtRest held s)
  | _ => gate = .idle ∧ AtRest held s

theorem AtRest.of_connected {held : Option Holding} {s : Signs} (h : AtRest held s) (hs : s.state = .connected) :
    ∃ h, s = .up h ∧ held = some h := by
  rcases h with ⟨rfl, -⟩ | h
  · cases hs
  · exact h

theorem AtRest.of_not_connected {held : Option Holding} {s : Signs} (h : AtRest held s)
    (hs : s.state ≠ .connected) : s = .down ∧ held = none := by
  rcases h with h | ⟨_, rfl, -⟩
  · exact h
  · exact absurd rfl hs

theorem AtRest.not_connecting {held : Option Holding} {s : Signs} (h : AtRest held s) : s.state ≠ .connecting := by
  rcases h with ⟨rfl, -⟩ | ⟨_, rfl, -⟩ <;> simp [Signs.down, Signs.up]

/-! ## Where the gate is taken -/

/-- Whoever wants the gate while it is taken is sent away. -/
theorem begin_of_inFlight {c : Controller} (hg : c.gate = .inFlight) {command : Command} (hc : command ≠ .check) :
    command.begin c = (c, .done (.outcome (.ok .suppressed))) := by
  cases command with
  | connect => simp [Command.begin, Command.beginConnect, hg, Gate.acquire?]
  | disconnect => simp [Command.begin, Command.beginDisconnect, hg, Gate.acquire?]
  | toggle => simp [Command.begin, Command.beginConnect, Command.beginDisconnect, hg, Gate.acquire?]
  | check => exact absurd rfl hc

/-- What it takes that an answer to a ping is taken up. -/
structure TakesUp (c : Controller) (answer : Answer) : Prop where
  alive : ∃ r : Wire.Response, answer = .ok r ∧ r.code.isSuccess = true
  idle : c.gate = .idle
  disconnected : c.state = .disconnected

theorem afterPing_of_takesUp {c : Controller} (channel : String) {answer : Answer} (h : TakesUp c answer) :
    afterPing c channel answer = ({ c with gate := .inFlight }, .go (.reading (.currentChannel channel))) := by
  obtain ⟨⟨r, rfl, hr⟩, hg, hd⟩ := h
  simp [afterPing, hr, hg, hd, Gate.acquire?]

theorem afterPing_of_not_takesUp {c : Controller} (channel : String) {answer : Answer} (h : ¬ TakesUp c answer) :
    ∃ adopted, afterPing c channel answer = (c, .done (.adoption adopted)) := by
  cases answer with
  | error e => exact ⟨_, rfl⟩
  | ok r =>
    unfold afterPing
    dsimp only
    split
    · exact ⟨_, rfl⟩
    · next hr =>
      split
      · exact ⟨_, rfl⟩
      · next hg =>
        split
        · exact ⟨_, rfl⟩
        · next hd =>
          refine absurd ⟨⟨r, rfl, by simpa using hr⟩, ?_, not_not.mp hd⟩ h
          cases hc : c.gate with
          | idle => rfl
          | inFlight => rw [hc] at hg; cases hg

/-- The stages that need no gate: the first, and those of a check before its ping is answered, and the toast. -/
theorem free_cases {cause : Cause} (hp : cause.post.holdsGate = false) :
    (∃ command, cause = .begins command) ∨ cause = .looks .pingChannel ∨
      (∃ text, cause = .changes (.toast text)) ∨ ∃ channel answer, cause = .hears (.ping channel) answer := by
  cases cause with
  | begins command => exact .inl ⟨command, rfl⟩
  | looks r =>
    cases r with
    | pingChannel => exact .inr (.inl rfl)
    | _ => cases hp
  | changes w =>
    cases w with
    | toast text => exact .inr (.inr (.inl ⟨text, rfl⟩))
    | _ => cases hp
  | hears request answer =>
    cases request with
    | ping channel => exact .inr (.inr (.inr ⟨channel, answer, rfl⟩))
    | _ => cases hp

/-! ## The actions -/

section Actions

variable {c : Controller} {s : Store} {held : Option Holding}

theorem handed_beginConnect (hg : c.gate = .idle) (hr : AtRest held (signs c s)) :
    Handed held (signs (Command.beginConnect c).1 s) (Command.beginConnect c).1.gate (Command.beginConnect c).2 := by
  simp only [Command.beginConnect, hg, Gate.acquire?]
  split
  · exact ⟨hg, hr⟩
  · next hc => exact .inl ⟨rfl, rfl, hr.of_not_connected hc⟩

theorem handed_beginDisconnect (hg : c.gate = .idle) (hr : AtRest held (signs c s)) :
    Handed held (signs (Command.beginDisconnect c).1 s) (Command.beginDisconnect c).1.gate
      (Command.beginDisconnect c).2 := by
  simp only [Command.beginDisconnect, hg, Gate.acquire?]
  split
  · exact ⟨hg, hr⟩
  · next hc => exact .inl ⟨rfl, rfl, hr.of_connected (not_not.mp hc)⟩

/-- With the gate free, whoever takes it finds what its first post may count on. -/
theorem handed_of_rest {cause : Cause} (hp : cause.post.holdsGate = false) (hg : c.gate = .idle)
    (hr : AtRest held (signs c s)) :
    Handed held (signs (cause.next c s).1 (cause.store s)) (cause.next c s).1.gate (cause.next c s).2 := by
  obtain ⟨command, rfl⟩ | rfl | ⟨text, rfl⟩ | ⟨channel, answer, rfl⟩ := free_cases hp
  · cases command with
    | connect => exact handed_beginConnect hg hr
    | disconnect => exact handed_beginDisconnect hg hr
    | toggle =>
      simp only [Cause.next, Command.begin]
      split
      · exact handed_beginDisconnect hg hr
      · exact handed_beginConnect hg hr
    | check => exact .inr ⟨rfl, hg, hr⟩
  · simp only [Cause.next, Reading.resume]
    split
    · exact ⟨hg, hr⟩
    · exact .inr ⟨rfl, hg, hr⟩
  · exact ⟨hg, hr⟩
  · simp only [Cause.next, resumeCall]
    by_cases hup : TakesUp c answer
    · rw [afterPing_of_takesUp channel hup]
      refine .inl ⟨rfl, rfl, hr.of_not_connected ?_⟩
      change c.state ≠ .connected
      rw [hup.disconnected]
      decide
    · obtain ⟨adopted, hn⟩ := afterPing_of_not_takesUp channel hup
      rw [hn]
      exact ⟨hg, hr⟩

/-- Whoever holds the gate goes on to a post that is secured again, or gives the gate back with all at rest. What
is at hand changes with the start request's answer and with the adoption, at no other point. -/
theorem handed_of_secured {cause : Cause} (n : Nat) (hp : cause.post.holdsGate = true) (hg : c.gate = .inFlight)
    (hs : Secured held (signs c s) cause.post) :
    Handed ((Occurrence.resumed n cause (cause.next c s).2).carry held) (signs (cause.next c s).1 (cause.store s))
      (cause.next c s).1.gate (cause.next c s).2 := by
  cases cause with
  | begins command => cases hp
  | looks r =>
    cases r with
    | params =>
      obtain ⟨hs, hh⟩ := hs
      simp only [Cause.next, Reading.resume]
      split
      · exact .inl ⟨rfl, hg, hs, hh⟩
      · split
        · exact .inl ⟨rfl, hg, hs, hh⟩
        · refine .inl ⟨rfl, hg, ?_, hh⟩
          simp only [signs, Signs.down, Signs.mk.injEq] at hs
          simp [signs, Signs.starting, Cause.store, hs]
    | stopChannel => exact .inl ⟨rfl, hg, hs⟩
    | pingChannel => cases hp
    | currentChannel pinged =>
      obtain ⟨hs, hh⟩ := hs
      simp only [Cause.next, Reading.resume]
      split
      · exact .inl ⟨rfl, hg, hs, hh⟩
      · exact ⟨rfl, .inl ⟨hs, hh⟩⟩
  | changes w =>
    cases w with
    | refusal r => exact ⟨rfl, .inl hs⟩
    | teardown reason =>
      obtain ⟨⟨flag, hs⟩, hh⟩ := hs
      have hdown : signs c (s.dispatch (.setAgentConnected false)) = .down := by
        simp only [signs, Signs.tornDown, Signs.mk.injEq] at hs
        simp [signs, Signs.down, Store.dispatch, hs]
      cases reason with
      | failed e => exact ⟨rfl, .inl ⟨hdown, hh⟩⟩
      | refused r => exact .inl ⟨rfl, hg, hdown, hh⟩
      | stopped => exact .inl ⟨rfl, hg, hdown, hh⟩
    | started p =>
      obtain ⟨hs, hh⟩ := hs
      refine .inl ⟨rfl, hg, ⟨p.channel, some p⟩, ?_, hh⟩
      simp only [signs, Signs.started, Signs.mk.injEq] at hs
      simp [signs, Signs.up, Cause.next, Writing.resume, Controller.markConnected, Cause.store,
        Writing.action, Store.dispatch, hs]
    | announce t =>
      cases t with
      | connected => exact ⟨rfl, .inr hs⟩
      | disconnected => exact ⟨rfl, .inl hs⟩
    | adopted channel =>
      obtain ⟨hs, -⟩ := hs
      refine ⟨rfl, .inr ⟨⟨channel, none⟩, ?_, rfl⟩⟩
      simp only [signs, Signs.down, Signs.mk.injEq] at hs
      simp [signs, Signs.up, Cause.next, Writing.resume, Controller.markConnected, Controller.release,
        Cause.store, Writing.action, Store.dispatch, hs]
    | toast text => cases hp
  | hears request answer =>
    cases request with
    | ping channel => cases hp
    | stop channel =>
      -- The session was given up when the request was sent, so its answer takes nothing away.
      obtain ⟨-, hh⟩ := hs
      cases answer <;> exact .inl ⟨rfl, hg, ⟨s.agentConnected, rfl⟩, hh⟩
    | start p =>
      obtain ⟨hs, hh⟩ := hs
      cases answer with
      | error e => exact .inl ⟨rfl, hg, ⟨s.agentConnected, rfl⟩, hh⟩
      | ok r =>
        simp only [Cause.next, resumeCall, afterStart, Occurrence.carry, Occurrence.isStop, Occurrence.gain?]
        by_cases hr : r.code.isSuccess = true
        · simp only [hr, if_true]
          refine .inl ⟨rfl, hg, ?_, rfl⟩
          simp only [signs, Signs.starting, Signs.mk.injEq] at hs
          simp [signs, Signs.started, Cause.store, hs]
        · simp only [hr, if_false, Bool.false_eq_true]
          exact .inl ⟨rfl, hg, ⟨s.agentConnected, rfl⟩, hh⟩

/-- While the gate is held, whoever else goes on changes nothing and gets no gate. -/
theorem next_of_inFlight {cause : Cause} (hp : cause.post.holdsGate = false) (hg : c.gate = .inFlight) :
    (cause.next c s).1 = c ∧ (cause.store s).agentConnected = s.agentConnected ∧
      ∀ stage, (cause.next c s).2 = .go stage → stage.holdsGate = false := by
  obtain ⟨command, rfl⟩ | rfl | ⟨text, rfl⟩ | ⟨channel, answer, rfl⟩ := free_cases hp
  · by_cases hc : command = .check
    · subst hc
      exact ⟨rfl, rfl, fun _ h => by cases h; rfl⟩
    · rw [Cause.next, begin_of_inFlight hg hc]
      exact ⟨rfl, rfl, fun _ h => nomatch h⟩
  · simp only [Cause.next, Reading.resume]
    split
    · exact ⟨rfl, rfl, fun _ h => by cases h⟩
    · exact ⟨rfl, rfl, fun _ h => by cases h; rfl⟩
  · exact ⟨rfl, rfl, fun _ h => by cases h⟩
  · have hnot : ¬ TakesUp c answer := fun hup => by
      rw [hup.idle] at hg
      cases hg
    obtain ⟨adopted, hn⟩ := afterPing_of_not_takesUp channel hnot
    rw [Cause.next, resumeCall, hn]
    exact ⟨rfl, rfl, fun _ h => nomatch h⟩

/-- Only a post with the gate gains a session. -/
theorem gain?_of_not_holds {cause : Cause} (hp : cause.post.holdsGate = false) (n : Nat) (next : Next) :
    (Occurrence.resumed n cause next).gain? = none := by
  obtain ⟨command, rfl⟩ | rfl | ⟨text, rfl⟩ | ⟨channel, answer, rfl⟩ := free_cases hp <;> rfl

end Actions

/-! ## The invariant -/

inductive Custody (s : Scene) (held : Option Holding) : Prop
  | free (idle : s.controller.gate = .idle)
      (nobody : ∀ n entry, s.plan n = some entry → entry.2.holdsGate = false)
      (rest : AtRest held (signs s.controller s.store))
  | taken (n : Nat) (entry : Errand × Post) (inFlight : s.controller.gate = .inFlight)
      (stands : s.plan n = some entry) (holds : entry.2.holdsGate = true)
      (alone : ∀ m other, m ≠ n → s.plan m = some other → other.2.holdsGate = false)
      (secured : Secured held (signs s.controller s.store) entry.2)

theorem nextEntry_cases {errand : Errand} {next : Next} {entry : Errand × Post}
    (h : nextEntry errand next = some entry) :
    (∃ stage, next = .go stage ∧ entry.2 = .ofStage stage) ∨
      (entry.2.holdsGate = false ∧ ∀ stage, next ≠ .go stage) := by
  cases next with
  | go stage =>
    cases h
    exact .inl ⟨stage, rfl, rfl⟩
  | closed => cases h
  | done r =>
    obtain ⟨text, rfl⟩ := toast_of_done h
    exact .inr ⟨rfl, fun _ he => nomatch he⟩

theorem custody_of_handed {c : Controller} {store : Store} {plan : Nat → Option (Errand × Post)} {n : Nat}
    {errand : Errand} {next : Next} {held : Option Holding}
    (others : ∀ m other, m ≠ n → plan m = some other → other.2.holdsGate = false)
    (h : Handed held (signs c store) c.gate next) :
    Custody ⟨c, store, update plan n (nextEntry errand next)⟩ held := by
  have hothers (m : Nat) (other : Errand × Post) (hm : m ≠ n)
      (ho : update plan n (nextEntry errand next) m = some other) : other.2.holdsGate = false := by
    rw [update_of_ne hm] at ho
    exact others m other hm ho
  have hnobody (hn : ∀ stage, next = .go stage → stage.holdsGate = false) (m : Nat) (other : Errand × Post)
      (ho : update plan n (nextEntry errand next) m = some other) : other.2.holdsGate = false := by
    by_cases hm : m = n
    · subst hm
      rw [update_self] at ho
      rcases nextEntry_cases ho with ⟨stage, hgo, hs⟩ | ⟨hs, -⟩
      · rw [hs, Post.holdsGate_ofStage, hn stage hgo]
      · exact hs
    · exact hothers m other hm ho
  cases next with
  | go stage =>
    rcases h with ⟨hs, hg, hsec⟩ | ⟨hs, hg, hr⟩
    · exact .taken n (errand, .ofStage stage) hg (update_self ..) (by simpa using hs) hothers hsec
    · exact .free hg (hnobody fun _ he => by cases he; exact hs) hr
  | done r => exact .free h.1 (hnobody fun _ he => nomatch he) h.2
  | closed => exact .free h.1 (hnobody fun _ he => nomatch he) h.2

/-! ## One step -/

theorem Edit.keeps_flag (e : Edit) (s : Store) : (s.dispatch e.action).agentConnected = s.agentConnected := by
  obtain ⟨action, apart⟩ := e
  cases action with
  | setAgentConnected connected => exact absurd rfl (apart connected)
  | _ => rfl

/-- Nothing changes for the holder of the gate, whoever it is, if the signs and the posts with the gate do not. -/
theorem Custody.transfer {s s' : Scene} {held : Option Holding} (h : Custody s held)
    (hg : s'.controller.gate = s.controller.gate)
    (hs : signs s'.controller s'.store = signs s.controller s.store)
    (kept : ∀ n entry, s.plan n = some entry → entry.2.holdsGate = true → s'.plan n = some entry)
    (fewer : ∀ n entry, s'.plan n = some entry → entry.2.holdsGate = true → s.plan n = some entry) :
    Custody s' held := by
  cases h with
  | free idle nobody rest =>
    refine .free (hg.trans idle) (fun n entry hn => ?_) (hs ▸ rest)
    by_contra hh
    have hh := Bool.not_eq_false _ ▸ hh
    rw [nobody n entry (fewer n entry hn hh)] at hh
    cases hh
  | taken n entry inFlight stands holds alone secured =>
    refine .taken n entry (hg.trans inFlight) (kept n entry stands holds) holds (fun m other hm ho => ?_)
      (hs ▸ secured)
    by_contra hh
    have hh := Bool.not_eq_false _ ▸ hh
    rw [alone m other hm (fewer m other ho hh)] at hh
    cases hh

/-- An action without the gate comes, moves on or ends. -/
theorem Custody.aside {s s' : Scene} {held : Option Holding} (h : Custody s held) {n : Nat}
    {new : Option (Errand × Post)} (hg : s'.controller.gate = s.controller.gate)
    (hs : signs s'.controller s'.store = signs s.controller s.store) (hp : s'.plan = update s.plan n new)
    (hold : ∀ entry, s.plan n = some entry → entry.2.holdsGate = false)
    (hnew : ∀ entry, new = some entry → entry.2.holdsGate = false) : Custody s' held := by
  refine h.transfer hg hs (fun m entry hm hh => ?_) (fun m entry hm hh => ?_)
  · have hne : m ≠ n := by
      rintro rfl
      rw [hold entry hm] at hh
      cases hh
    rw [hp, update_of_ne hne, hm]
  · have hne : m ≠ n := by
      rintro rfl
      rw [hp, update_self] at hm
      rw [hnew entry hm] at hh
      cases hh
    rwa [hp, update_of_ne hne] at hm

/-- Whoever stands where the gate is held is the one who holds it. -/
theorem Custody.holder {s : Scene} {held : Option Holding} (h : Custody s held) {n : Nat} {entry : Errand × Post}
    (hn : s.plan n = some entry) (hh : entry.2.holdsGate = true) :
    s.controller.gate = .inFlight ∧ Secured held (signs s.controller s.store) entry.2 ∧
      ∀ m other, m ≠ n → s.plan m = some other → other.2.holdsGate = false := by
  cases h with
  | free idle nobody rest =>
    rw [nobody n entry hn] at hh
    cases hh
  | taken m other inFlight stands holds alone secured =>
    by_cases hm : n = m
    · subst hm
      rw [stands] at hn
      cases hn
      exact ⟨inFlight, secured, alone⟩
    · rw [alone n entry hm hn] at hh
      cases hh

theorem Custody.sent {s : Scene} {past : List Occurrence} (h : Custody s (held past)) {n : Nat} {errand : Errand}
    {request : Wire.Request} (stood : s.plan n = some (errand, .sending request)) :
    Custody { s with plan := update s.plan n (some (errand, .within (.calling request))) }
      (held (past ++ [.sent (.task n) request])) := by
  rw [held_snoc]
  cases request with
  | ping channel =>
    refine h.aside rfl rfl rfl (fun entry he => ?_) (fun entry he => ?_)
    · rw [stood] at he; cases he; rfl
    · cases he; rfl
  | start p =>
    obtain ⟨hg, hsec, alone⟩ := h.holder stood rfl
    refine .taken n _ hg (update_self ..) rfl (fun m other hm ho => alone m other hm ?_) hsec
    exact (update_of_ne hm ..).symm.trans ho
  | stop channel =>
    obtain ⟨hg, ⟨h, hup, -⟩, alone⟩ := h.holder stood rfl
    refine .taken n _ hg (update_self ..) rfl (fun m other hm ho => alone m other hm ?_) ⟨⟨h, hup⟩, rfl⟩
    exact (update_of_ne hm ..).symm.trans ho

theorem Custody.resumed {s : Scene} {past : List Occurrence} (h : Custody s (held past)) {n : Nat} {errand : Errand}
    (cause : Cause) (stood : s.plan n = some (errand, cause.post)) :
    Custody
      { controller := (cause.next s.controller s.store).1
        store := cause.store s.store
        plan := update s.plan n (nextEntry errand (cause.next s.controller s.store).2) }
      (held (past ++ [.resumed n cause (cause.next s.controller s.store).2])) := by
  rw [held_snoc]
  cases hp : cause.post.holdsGate with
  | true =>
    obtain ⟨hg, hsec, alone⟩ := h.holder stood hp
    exact custody_of_handed alone (handed_of_secured n hp hg hsec)
  | false =>
    have hcarry : (Occurrence.resumed n cause (cause.next s.controller s.store).2).carry (held past) = held past := by
      simp only [Occurrence.carry, Occurrence.isStop, gain?_of_not_holds hp]
      rfl
    rw [hcarry]
    cases h with
    | free idle nobody rest =>
      exact custody_of_handed (fun m other _ ho => nobody m other ho) (handed_of_rest hp idle rest)
    | taken m other inFlight stands holds alone secured =>
      obtain ⟨hc, hf, hn⟩ := next_of_inFlight (s := s.store) hp inFlight
      refine Custody.aside (.taken m other inFlight stands holds alone secured) (congrArg _ hc) ?_ rfl
        (fun entry he => ?_) (fun entry he => ?_)
      · simp only [signs, hc, hf]
      · rw [stood] at he; cases he; exact hp
      · rcases nextEntry_cases he with ⟨stage, hgo, hs⟩ | ⟨hs, -⟩
        · rw [hs, Post.holdsGate_ofStage, hn stage hgo]
        · exact hs

theorem Custody.step {s s' : Scene} {x : Option Occurrence} {past : List Occurrence} (h : Custody s (held past))
    (st : s.Step x s') : Custody s' (held (past ++ x.toList)) := by
  cases st with
  | quiet =>
    rw [Option.toList_none, List.append_nil]
    exact h
  | pinged running =>
    rw [Option.toList_some, held_snoc]
    exact h
  | edited e =>
    rw [Option.toList_some, held_snoc]
    refine h.transfer rfl ?_ (fun _ _ hn _ => hn) (fun _ _ hn _ => hn)
    simp only [signs, e.keeps_flag]
  | begun fresh errand command =>
    rw [Option.toList_some, held_snoc]
    refine h.aside rfl rfl rfl (fun entry he => ?_) (fun entry he => ?_)
    · rw [fresh] at he; cases he
    · cases he; rfl
  | chosen stood =>
    rw [Option.toList_none, List.append_nil]
    refine h.aside rfl rfl rfl (fun entry he => ?_) (fun entry he => ?_)
    · rw [stood] at he; cases he; rfl
    · cases he; rfl
  | sent stood => exact h.sent stood
  | resumed cause stood => exact h.resumed cause stood

/-- In every run the gate is free with all at rest, or one action alone holds it at a secured post. -/
theorem custody (o : Opening) (es : List Event) : Custody (o.after es).desk.scene (held (o.after es).past) := by
  refine o.scene_invariant (P := fun s past => Custody s (held past)) ?_ (fun _ _ _ _ h st => h.step st) es
  refine .free rfl (fun n entry hn => ?_) (.inl ⟨?_, rfl⟩)
  · cases hn
  · simp [signs, Signs.down, Opening.desk, scene, o.unconnected]

end AgentDesk.Desk
