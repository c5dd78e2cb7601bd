import AgentDesk.Proofs.Session.Alternation
import AgentDesk.Proofs.Session.StopChannel
import AgentDesk.Proofs.Store.Choices

/-! # What a running session was started with

The controller keeps the parameters that it sent with the start request, for as long as the session runs. They were
looked up together, at one moment, and what happens to the store from then on does not reach them. An adopted
session has none: its adoption leaves the place as it is, which is empty because every way out of a session has
emptied it. -/
namespace AgentDesk.Desk
open Session

/-! ## The last gain on a record -/

/-- No session is gained meanwhile, and no stop request is sent. -/
def Quiet (l : List Occurrence) : Prop := ∀ x ∈ l, x.isStop = false ∧ x.gain? = none

theorem quiet_snoc {l : List Occurrence} {x : Occurrence} (h : Quiet l) (hs : x.isStop = false)
    (hg : x.gain? = none) : Quiet (l ++ [x]) := by
  intro y hy
  rcases List.mem_append.mp hy with hy | hy
  · exact h y hy
  · cases List.mem_singleton.mp hy
    exact ⟨hs, hg⟩

theorem held_append_of_quiet {past since : List Occurrence} (h : Quiet since) : held (past ++ since) = held past := by
  induction since using List.reverseRecOn with
  | nil => rw [List.append_nil]
  | append_singleton since x ih =>
    obtain ⟨hs, hg⟩ := h x (by simp)
    rw [← List.append_assoc, held_snoc, Occurrence.carry, hs, hg]
    exact ih fun y hy => h y (List.mem_append_left _ hy)

theorem Occurrence.gain?_eq_some_iff {x : Occurrence} {session : Holding} :
    x.gain? = some session ↔
      (∃ n p next, ∃ r : Wire.Response, x = .resumed n (.hears (.start p) (.ok r)) next ∧ r.code.isSuccess = true ∧
        session = ⟨p.channel, some p⟩) ∨
      ∃ n channel next, x = .resumed n (.changes (.adopted channel)) next ∧ session = ⟨channel, none⟩ := by
  constructor
  · intro h
    unfold gain? at h
    split at h
    · split at h
      · next hr =>
        cases h
        exact .inl ⟨_, _, _, _, rfl, hr, rfl⟩
      · cases h
    · cases h
      exact .inr ⟨_, _, _, rfl, rfl⟩
    · cases h
  · rintro (⟨n, p, next, r, rfl, hr, rfl⟩ | ⟨n, channel, next, rfl, rfl⟩)
    · exact if_pos hr
    · rfl

/-- A session is at hand if it was the last to be gained and no stop request was sent since. -/
theorem held_eq_some_iff {past : List Occurrence} {session : Holding} :
    held past = some session ↔
      ∃ before x since, past = before ++ x :: since ∧ x.gain? = some session ∧ Quiet since := by
  constructor
  · intro h
    induction past using List.reverseRecOn with
    | nil => cases h
    | append_singleton past x ih =>
      rw [held_snoc] at h
      obtain ⟨hs, hg | ⟨hg, h⟩⟩ := Occurrence.carry_eq_some h
      · exact ⟨past, x, [], rfl, hg, fun y hy => nomatch hy⟩
      · obtain ⟨before, y, since, rfl, hy, hsince⟩ := ih h
        exact ⟨before, y, since ++ [x], by simp, hy, quiet_snoc hsince hs hg⟩
  · intro ⟨before, x, since, hpast, hx, hsince⟩
    have hs : x.isStop = false := by
      obtain ⟨n, p, next, r, rfl, -⟩ | ⟨n, channel, next, rfl, -⟩ := Occurrence.gain?_eq_some_iff.mp hx <;> rfl
    have hsplit : past = before ++ [x] ++ since := by rw [hpast, List.append_assoc, List.singleton_append]
    rw [hsplit, held_append_of_quiet hsince, held_snoc, Occurrence.carry, hs, hx]
    rfl

/-! ## How it was started -/

/-- An action has looked up what it is about to send with a start request, and has sent it if it waits for the
answer. -/
def Asked (past : List Occurrence) (n : Nat) : Post → Prop
  | .sending (.start p) => ∃ looked between,
      past = looked ++ .resumed n (.looks .params) (.go (.calling (.start p))) :: between
  | .within (.calling (.start p)) => ∃ looked between,
      past = looked ++ .resumed n (.looks .params) (.go (.calling (.start p))) :: between ∧
        .sent (.task n) (.start p) ∈ between
  | _ => True

theorem asked_traced : Traced Asked where
  free past n post h := by
    unfold Asked
    split <;> first | exact trivial | cases h
  aside past n post x h _ _ := by
    unfold Asked at h ⊢
    split at h
    · obtain ⟨looked, between, rfl⟩ := h
      exact ⟨looked, between ++ [x], by simp⟩
    · obtain ⟨looked, between, rfl, hsent⟩ := h
      exact ⟨looked, between ++ [x], by simp, List.mem_append_left _ hsent⟩
    · exact trivial
  sent past n request h := by
    cases request with
    | start p =>
      obtain ⟨looked, between, rfl⟩ := h
      exact ⟨looked, between ++ [.sent (.task n) (.start p)], by simp, by simp⟩
    | stop channel => exact trivial
    | ping channel => exact trivial
  resumed past n cause c s stage h hgo := by
    have hfinds := Cause.finds hgo
    cases stage with
    | calling request =>
      cases request with
      | start p =>
        obtain ⟨rfl, -⟩ := hfinds
        exact ⟨past, [], rfl⟩
      | stop channel => exact trivial
      | ping channel => exact trivial
    | _ => exact trivial

/-- On a record, `n` is the action that started the session at hand: with the record at `looked` it looked `p` up,
sent it with its start request, and was answered with success. -/
def Started (past looked : List Occurrence) (n : Nat) (p : Wire.Params) : Prop :=
  ∃ between next since, ∃ r : Wire.Response,
    past = looked ++ .resumed n (.looks .params) (.go (.calling (.start p))) :: between ++
        .resumed n (.hears (.start p) (.ok r)) next :: since ∧
      .sent (.task n) (.start p) ∈ between ∧ r.code.isSuccess = true ∧ Quiet since

/-- On a record, the session at hand was adopted. -/
def Adopted (past : List Occurrence) : Prop :=
  ∃ before n channel next since, past = before ++ .resumed n (.changes (.adopted channel)) next :: since ∧ Quiet since

theorem Started.held {past looked : List Occurrence} {n : Nat} {p : Wire.Params} (h : Started past looked n p) :
    held past = some ⟨p.channel, some p⟩ := by
  obtain ⟨between, next, since, r, hpast, -, hr, hsince⟩ := h
  exact held_eq_some_iff.mpr ⟨_, _, since, hpast, Occurrence.gain?_eq_some_iff.mpr (.inl ⟨n, p, next, r, rfl, hr, rfl⟩),
    hsince⟩

theorem Adopted.held {past : List Occurrence} (h : Adopted past) : ∃ channel, held past = some ⟨channel, none⟩ := by
  obtain ⟨before, n, channel, next, since, hpast, hsince⟩ := h
  exact ⟨channel, held_eq_some_iff.mpr ⟨before, _, since, hpast, rfl, hsince⟩⟩

section Run

variable (o : Opening) (es : List Event)

/-- A session at hand was started by an action that has gone all the way, or was adopted. -/
theorem Opening.started_or_adopted {session : Holding} (h : held (o.after es).past = some session) :
    (∃ looked n p, Started (o.after es).past looked n p ∧ session = ⟨p.channel, some p⟩) ∨
      (Adopted (o.after es).past ∧ session.params = none) := by
  obtain ⟨before, x, since, hpast, hx, hsince⟩ := held_eq_some_iff.mp h
  obtain ⟨n, p, next, r, rfl, hr, rfl⟩ | ⟨n, channel, next, rfl, rfl⟩ := Occurrence.gain?_eq_some_iff.mp hx
  · obtain ⟨heard, hoccurs, rfl⟩ := o.occursAt_of_past es hpast
    obtain ⟨early, e, rfl, st⟩ := hoccurs.step
    obtain ⟨errand, stood⟩ := st.stood_of_resumed
    -- Where the answer is waited for, the past says what was looked up and that it was sent.
    obtain ⟨looked, between, hbefore, hsent⟩ := provenance o asked_traced early n _ stood
    refine .inl ⟨looked, n, p, ⟨between, next, since, r, ?_, hsent, hr, hsince⟩, rfl⟩
    rw [hpast, hbefore]
  · exact .inr ⟨⟨before, n, channel, next, since, hpast, hsince⟩, rfl⟩

/-- What a session was started with was looked up in one store. -/
theorem Opening.chosen_of_started {looked : List Occurrence} {n : Nat} {p : Wire.Params}
    (h : Started (o.after es).past looked n p) :
    ∃ r, o.OccursAt es r (.resumed n (.looks .params) (.go (.calling (.start p)))) ∧ r.past = looked ∧
      r.desk.store.Chosen p := by
  obtain ⟨between, next, since, response, hpast, -⟩ := h
  rw [List.append_assoc, List.cons_append] at hpast
  obtain ⟨r, hr, hlooked⟩ := o.occursAt_of_past es hpast
  exact ⟨r, hr, hlooked, Store.params?_eq_some_iff.mp hr.finds.2⟩

end Run

/-! ## What the controller keeps -/

theorem Secured.session_of_held {session : Holding} {s : Signs} {post : Post} (h : Secured (some session) s post) :
    s.session = session.params := by
  unfold Secured at h
  split at h
  case h_3 =>
    obtain ⟨rfl, hh⟩ := h
    cases hh
    rfl
  case h_5 | h_6 | h_7 =>
    obtain ⟨_, rfl, hh⟩ := h
    cases hh
    rfl
  all_goals exact nomatch h.2

theorem Secured.session_of_disconnected {held : Option Holding} {s : Signs} {post : Post} (h : Secured held s post)
    (hs : s.state = .disconnected) : s.session = none := by
  unfold Secured at h
  split at h
  case h_1 | h_2 | h_3 =>
    rw [h.1] at hs
    cases hs
  case h_4 =>
    obtain ⟨⟨flag, rfl⟩, -⟩ := h
    rfl
  case h_5 | h_6 | h_7 =>
    obtain ⟨_, rfl, -⟩ := h
    cases hs
  case h_8 =>
    obtain ⟨⟨_, rfl⟩, -⟩ := h
    cases hs
  case h_9 =>
    rw [h.1]
    rfl

theorem Custody.session_of_held {s : Scene} {session : Holding} (h : Custody s (some session)) :
    s.controller.session = session.params := by
  cases h with
  | free idle nobody rest =>
    rcases rest with ⟨-, hnone⟩ | ⟨_, hup, hsome⟩
    · cases hnone
    · cases hsome
      exact congrArg Signs.session hup
  | taken n entry inFlight stands holds alone secured => exact secured.session_of_held

theorem Custody.session_of_disconnected {s : Scene} {held : Option Holding} (h : Custody s held)
    (hs : s.controller.state = .disconnected) : s.controller.session = none := by
  cases h with
  | free idle nobody rest =>
    have hnot : (signs s.controller s.store).state ≠ .connected := by
      show s.controller.state ≠ .connected
      rw [hs]
      decide
    exact congrArg Signs.session (rest.of_not_connected hnot).1
  | taken n entry inFlight stands holds alone secured => exact secured.session_of_disconnected hs

/-- While no stop request is sent, a session at hand stays at hand: none is gained beside it. -/
theorem held_kept {past added : List Occurrence} (hturn : Along InTurn (past ++ added)) {session : Holding}
    (h : held past = some session) (hstop : ∀ x ∈ added, x.isStop = false) : held (past ++ added) = some session := by
  induction added using List.reverseRecOn with
  | nil => rwa [List.append_nil]
  | append_singleton added x ih =>
    rw [← List.append_assoc] at hturn ⊢
    obtain ⟨hbefore, hx⟩ := along_snoc.mp hturn
    have hheld := ih hbefore fun y hy => hstop y (List.mem_append_left _ hy)
    have hgain : x.gain? = none := by
      by_contra hgain
      rw [hx.gain hgain] at hheld
      cases hheld
    rw [held_snoc, Occurrence.carry, hstop x (by simp), hgain]
    exact hheld

theorem AtRest.of_held {session : Holding} {c : Controller} {s : Store} (h : AtRest (some session) (signs c s)) :
    c.state = .connected ∧ c.session = session.params := by
  rcases h with ⟨-, hnone⟩ | ⟨_, hup, hsome⟩
  · cases hnone
  · cases hsome
    exact ⟨congrArg Signs.state hup, congrArg Signs.session hup⟩

/-! ## Every run -/

theorem Opening.inTurn (o : Opening) (es : List Event) : Along InTurn (o.after es).past :=
  o.along (I := fun s past => Custody s (held past)) (custody o) (fun _ _ _ _ h st => h.inTurn st) es

section Rest

variable (o : Opening) (es : List Event) (idle : (o.after es).desk.controller.gate = .idle)

include idle

theorem Opening.connected_iff : (o.after es).desk.controller.state = .connected ↔
    (∃ looked n p, Started (o.after es).past looked n p) ∨ Adopted (o.after es).past := by
  have hrest := (custody o es).rest idle
  constructor
  · intro hc
    obtain ⟨session, -, hs⟩ := hrest.of_connected hc
    rcases o.started_or_adopted es hs with ⟨looked, n, p, hp, -⟩ | ⟨ha, -⟩
    · exact .inl ⟨looked, n, p, hp⟩
    · exact .inr ha
  · rintro (⟨looked, n, p, hp⟩ | ha)
    · rw [hp.held] at hrest
      exact hrest.of_held.1
    · obtain ⟨channel, hs⟩ := ha.held
      rw [hs] at hrest
      exact hrest.of_held.1

theorem Opening.session_eq_some_iff (p : Wire.Params) : (o.after es).desk.controller.session = some p ↔
    (o.after es).desk.controller.state = .connected ∧ ∃ looked n, Started (o.after es).past looked n p := by
  have h := custody o es
  constructor
  · intro hp
    have hc : (o.after es).desk.controller.state = .connected := by
      by_contra hc
      have hnone := congrArg Signs.session ((h.rest idle).of_not_connected hc).1
      exact nomatch hp.symm.trans hnone
    obtain ⟨session, -, hs⟩ := (h.rest idle).of_connected hc
    have hparams : some p = session.params := hp.symm.trans (hs ▸ h).session_of_held
    rcases o.started_or_adopted es hs with ⟨looked, n, q, hq, rfl⟩ | ⟨-, hnone⟩
    · cases hparams
      exact ⟨hc, looked, n, hq⟩
    · exact nomatch hparams.trans hnone
  · intro ⟨_, looked, n, hp⟩
    exact (hp.held ▸ h).session_of_held

end Rest

/-- A session that was started keeps what it was started with. -/
theorem Opening.session_kept (o : Opening) (es later : List Event) {looked added : List Occurrence} {n : Nat}
    {p : Wire.Params} (h : Started (o.after es).past looked n p)
    (hadded : (o.after (es ++ later)).past = (o.after es).past ++ added) (hstop : ∀ x ∈ added, x.isStop = false) :
    (o.after (es ++ later)).desk.controller.session = some p := by
  have hturn := o.inTurn (es ++ later)
  have hlater := custody o (es ++ later)
  rw [hadded] at hturn hlater
  rw [held_kept hturn h.held hstop] at hlater
  exact hlater.session_of_held

/-- What the controller keeps of a session, and what the record tells of that session. -/
structure Opening.SessionKept (o : Opening) (es : List Event) : Prop where
  connected_iff : (o.after es).desk.controller.state = .connected ↔
    (∃ looked n p, Started (o.after es).past looked n p) ∨ Adopted (o.after es).past
  started_iff : ∀ p, (o.after es).desk.controller.session = some p ↔
    (o.after es).desk.controller.state = .connected ∧ ∃ looked n, Started (o.after es).past looked n p
  /-- All of it was looked up at once, before the request was sent. -/
  snapshot : ∀ looked n p, Started (o.after es).past looked n p →
    ∃ r, o.OccursAt es r (.resumed n (.looks .params) (.go (.calling (.start p)))) ∧ r.past = looked ∧
      r.desk.store.Chosen p
  /-- Whatever else happens, it stays what it is until a stop request is sent. -/
  kept : ∀ p later added, (o.after es).desk.controller.session = some p →
    (o.after (es ++ later)).past = (o.after es).past ++ added → (∀ x ∈ added, x.isStop = false) →
      (o.after (es ++ later)).desk.controller.session = some p
  disconnected : (o.after es).desk.controller.state = .disconnected →
    (o.after es).desk.controller.session = none
  adopted : Adopted (o.after es).past → (o.after es).desk.controller.session = none

/-- After any events that leave the gate free, the controller keeps parameters exactly if it has started the session
that runs, and they are those that it sent. -/
theorem session_after (o : Opening) (es : List Event) (idle : (o.after es).desk.controller.gate = .idle) :
    o.SessionKept es := by
  have h := custody o es
  have hiff := o.session_eq_some_iff es idle
  constructor
  case connected_iff => exact o.connected_iff es idle
  case started_iff => exact hiff
  case snapshot =>
    intro looked n p hstarted
    exact o.chosen_of_started es hstarted
  case kept =>
    intro p later added hp
    obtain ⟨-, looked, n, hstarted⟩ := (hiff p).mp hp
    exact o.session_kept es later hstarted
  case disconnected => exact h.session_of_disconnected
  case adopted =>
    intro ha
    obtain ⟨channel, hs⟩ := ha.held
    exact (hs ▸ h).session_of_held

/-- The user moves on to another room while the start request is on its way. -/
def movedWhileStarting : List Event :=
  alone 0 .connect 3 ++ moveToRoomTwo :: List.replicate 3 (.move 0)

theorem session_of_moved_while_starting :
    (furnished.after movedWhileStarting).desk.controller.gate = .idle ∧
      (furnished.after movedWhileStarting).desk.controller.session =
        some ⟨"room-1", 0, "va_openai_azure", .english, .male⟩ ∧
      (furnished.after movedWhileStarting).desk.store.identity.channel = "room-2" ∧
      furnished.SessionKept movedWhileStarting :=
  ⟨rfl, rfl, rfl, session_after furnished movedWhileStarting rfl⟩

end AgentDesk.Desk
