import AgentDesk.Proofs.Session.CheckResult
import AgentDesk.Proofs.Session.StartReply
import AgentDesk.Proofs.Store.History

/-! # A connect that fails leaves no trace

However far a connect has come when it fails, it takes back what it has done: the controller is as it was before, and
the store has at most one toast more (`Attempt`). So any number of failures leaves everything as the first connect found
it, but for the toasts, and the next connect can succeed as if there had been none (`traceless_after`). -/
namespace AgentDesk.Desk
open Session Function

/-- What an error makes the controller write: a toast, unless it tells nobody. -/
def notices (e : Session.Error) : List Store.Action :=
  e.userMessage?.toList.map fun text => .notify (.error text)

/-! ## A connect that is spared -/

/-- What a connect has made of the controller and the store that it came upon, by where it stands. Once it is answered
with success it does not fail any more. -/
inductive Attempt (c : Controller) (s : Store) : Post → Controller → Store → Prop
  | begun : Attempt c s (.begun .connect) c s
  | looks : Attempt c s (.within (.reading .params)) { c with gate := .inFlight } s
  | refuses (r : Refusal) : Attempt c s (.within (.writing (.refusal r))) { c with gate := .inFlight } s
  | sends (p : Wire.Params) :
      Attempt c s (.sending (.start p)) { c with gate := .inFlight, state := .connecting } s
  | waits (p : Wire.Params) :
      Attempt c s (.within (.calling (.start p))) { c with gate := .inFlight, state := .connecting } s
  | tearsDown (e : Wire.ApiError) :
      Attempt c s (.within (.writing (.teardown (.failed e)))) { c with gate := .inFlight } s
  | givesUp (r : Refusal) :
      Attempt c s (.within (.writing (.teardown (.refused r)))) { c with gate := .inFlight } s
  | succeeds (p : Wire.Params) (c' : Controller) (s' : Store) : Attempt c s (.within (.writing (.started p))) c' s'
  | announces (c' : Controller) (s' : Store) : Attempt c s (.within (.writing (.announce .connected))) c' s'
  | shows (text : String) (c' : Controller) (s' : Store) : Attempt c s (.within (.writing (.toast text))) c' s'

namespace Attempt

variable {c c' : Controller} {s s' : Store} {post : Post}

theorem sent {request : Wire.Request} (h : Attempt c s (.sending request) c' s') :
    Attempt c s (.within (.calling request)) c' s' := by
  cases h with
  | sends p => exact .waits p

/-- From anywhere a connect goes on in the same way, or it returns; with an error only if all is as it was. -/
theorem resumed {cause : Cause} (h : Attempt c s cause.post c' s') (clear : Severed c s) :
    (∃ stage, (cause.next c' s').2 = .go stage ∧
        Attempt c s (.ofStage stage) (cause.next c' s').1 (cause.store s')) ∨
      (∃ result, (cause.next c' s').2 = .done result ∧ ∀ e, result = .outcome (.error e) →
        (cause.next c' s').1 = c ∧ cause.store s' = s.after (notices e)) ∨
      (cause.next c' s').2 = .closed := by
  generalize hpost : cause.post = post at h
  cases cause with
  | begins command =>
    cases hpost
    cases h
    have apart : c.state ≠ .connected := by
      rw [clear.state]
      decide
    have hnext : (Cause.begins .connect).next c s = ({ c with gate := .inFlight }, .go (.reading .params)) :=
      beginConnect_of_idle clear.gate apart
    rw [hnext]
    exact .inl ⟨_, rfl, .looks⟩
  | looks r =>
    cases hpost
    cases h
    simp only [Cause.next, Reading.resume]
    split
    · exact .inl ⟨_, rfl, .refuses _⟩
    · split
      · exact .inl ⟨_, rfl, .refuses _⟩
      · exact .inl ⟨_, rfl, .sends _⟩
  | hears request answer =>
    cases hpost
    cases h with
    | waits p =>
      have htorn : Controller.tearDown { c with gate := .inFlight, state := .connecting } =
          { c with gate := .inFlight } := by
        simp only [Controller.tearDown, clear.state, clear.session, clear.probe]
      cases answer with
      | error e =>
        simp only [Cause.next, resumeCall, afterStart, htorn]
        exact .inl ⟨_, rfl, .tearsDown e⟩
      | ok r =>
        simp only [Cause.next, resumeCall, afterStart, htorn]
        split
        · exact .inl ⟨_, rfl, .succeeds p _ _⟩
        · exact .inl ⟨_, rfl, .givesUp _⟩
  | changes w =>
    have hreleased : Controller.release { c with gate := .inFlight } = c := by
      simp only [Controller.release, ← clear.gate]
    have hflag : s.dispatch (.setAgentConnected false) = s := by
      simp only [Store.dispatch, ← clear.flag]
    cases hpost
    cases h with
    | refuses r =>
      refine .inr (.inl ⟨_, rfl, fun e he => ?_⟩)
      cases he
      exact ⟨hreleased, rfl⟩
    | tearsDown e =>
      refine .inr (.inl ⟨_, rfl, fun e he => ?_⟩)
      cases he
      exact ⟨hreleased, hflag⟩
    | givesUp r => exact .inl ⟨_, rfl, hflag.symm ▸ .refuses r⟩
    | succeeds p => exact .inl ⟨_, rfl, .announces _ _⟩
    | announces =>
      refine .inr (.inl ⟨_, rfl, fun e he => ?_⟩)
      cases he
    | shows text => exact .inr (.inr rfl)

end Attempt

/-- What happens at a desk while an action is spared: nothing, or something of the probe or of that action. -/
inductive Apart (n : Nat) : Option Occurrence → Prop
  | nothing : Apart n none
  | pinged (serial : Nat) (request : Wire.Request) : Apart n (some (.sent (.probe serial) request))
  | sent (request : Wire.Request) : Apart n (some (.sent (.task n) request))
  | resumed (cause : Cause) (next : Next) : Apart n (some (.resumed n cause next))

theorem Event.Spares.apart {n : Nat} {e : Event} (h : e.Spares n) (d : Desk) : Apart n (d.occurs e) := by
  cases hx : d.occurs e with
  | none => exact .nothing
  | some x =>
    obtain ⟨serial, request, rfl⟩ | ⟨request, rfl⟩ | ⟨cause, next, rfl⟩ := h.cases hx
    · exact .pinged serial request
    · exact .sent request
    · exact .resumed cause next

/-- Wherever the action stands, it has come so far with its attempt. -/
def Attempting (c : Controller) (s : Store) (n : Nat) (scene : Scene) : Prop :=
  ∀ errand post, scene.plan n = some (errand, post) → Attempt c s post scene.controller scene.store

theorem Attempting.step {c : Controller} {s : Store} {n : Nat} {scene scene' : Scene} {x : Option Occurrence}
    (h : Attempting c s n scene) (clear : Severed c s) (hx : Apart n x) (st : scene.Step x scene') :
    Attempting c s n scene' := by
  intro errand post hplan
  cases st with
  | quiet => exact h errand post hplan
  | pinged running => exact h errand post hplan
  | edited e => cases hx
  | begun fresh errand command => cases hx
  | @chosen m errand' command stood =>
    by_cases hn : n = m
    · subst hn
      simp only [update_self] at hplan
      cases hplan
      -- Of the commands that have begun only a connect attempts anything, and it has nothing to choose.
      cases h _ _ stood
      exact .begun
    · exact h errand post ((update_of_ne hn ..).symm.trans hplan)
  | sent stood =>
    cases hx
    simp only [update_self] at hplan
    cases hplan
    exact (h _ _ stood).sent
  | resumed cause stood =>
    cases hx
    simp only [update_self] at hplan
    rcases (h _ _ stood).resumed clear with ⟨stage, hgo, hattempt⟩ | ⟨result, hdone, -⟩ | hclosed
    · rw [hgo] at hplan
      cases hplan
      exact hattempt
    · rw [hdone] at hplan
      obtain ⟨text, hentry⟩ := toast_of_done hplan
      cases hentry
      exact .shows text _ _
    · rw [hclosed] at hplan
      cases hplan

/-! ## Every run -/

section Run

variable (o : Opening) (es : List Event) (errand : Errand)

theorem Opening.severed (idle : (o.after es).desk.controller.gate = .idle)
    (disconnected : (o.after es).desk.controller.state = .disconnected) :
    Severed (o.after es).desk.controller (o.after es).desk.store := by
  refine (custody o es).severed idle ?_
  change (o.after es).desk.controller.state ≠ .connected
  rw [disconnected]
  decide

theorem Opening.attempting (clear : Severed (o.after es).desk.controller (o.after es).desk.store) {more : List Event}
    (spares : ∀ e ∈ more, e.Spares (o.after es).desk.begun) :
    Attempting (o.after es).desk.controller (o.after es).desk.store (o.after es).desk.begun
      (o.after (es ++ .begin errand .connect :: more)).desk.scene := by
  induction more using List.reverseRecOn with
  | nil =>
    intro errand' post hplan
    have hscene := scene_begin (o.numbered es).fresh errand .connect
    rw [o.after_snoc] at hplan ⊢
    change ((o.after es).desk.begin errand .connect).scene.plan _ = _ at hplan
    simp only [hscene, update_self] at hplan
    cases hplan
    exact .begun
  | append_singleton more e ih =>
    have hbefore := ih fun e' he' => spares e' (List.mem_append_left _ he')
    have hapart := (spares e (by simp)).apart (o.after (es ++ .begin errand .connect :: more)).desk
    have st := scene_perform (o.orderly (es ++ .begin errand .connect :: more)) e
    rw [← List.cons_append, ← List.append_assoc, o.after_snoc]
    exact hbefore.step clear hapart st

/-- A connect is begun, and makes a move after some more events. -/
def connecting (n : Nat) (errand : Errand) (more : List Event) : List Event :=
  .begin errand .connect :: more ++ [.move n]

/-- A connect that nobody disturbs has left no trace where it returns an error, but for the toast. -/
theorem Opening.traceless (clear : Severed (o.after es).desk.controller (o.after es).desk.store) {more : List Event}
    (spares : ∀ e ∈ more, e.Spares (o.after es).desk.begun) {cause : Cause} {e : Session.Error}
    (returns : (o.after (es ++ .begin errand .connect :: more)).desk.occurs (.move (o.after es).desk.begun) =
      some (.resumed (o.after es).desk.begun cause (.done (.outcome (.error e))))) :
    (o.after (es ++ connecting (o.after es).desk.begun errand more)).desk.controller = (o.after es).desk.controller ∧
      (o.after (es ++ connecting (o.after es).desk.begun errand more)).desk.store =
        (o.after es).desk.store.after (notices e) := by
  have st := scene_perform (o.orderly (es ++ .begin errand .connect :: more)) (.move (o.after es).desk.begun)
  rw [returns] at st
  obtain ⟨errand', stood⟩ := st.stood_of_resumed
  obtain ⟨hnext, hc, hs⟩ := st.of_resumed
  have hattempt := o.attempting es errand clear spares errand' cause.post stood
  rw [connecting, ← List.append_assoc, o.after_snoc]
  rcases hattempt.resumed clear with ⟨stage, hgo, -⟩ | ⟨result, hdone, hsame⟩ | hclosed
  · cases hnext.trans hgo
  · obtain ⟨hcontroller, hstore⟩ := hsame e (by cases hnext.trans hdone; rfl)
    exact ⟨hc.trans hcontroller, hs.trans hstore⟩
  · cases hnext.trans hclosed

/-- Some connects have failed, one after the other: what happened since the first was begun, and what was written to the
store meanwhile, by them and by others between them. -/
inductive Opening.Fruitless (o : Opening) (es : List Event) : List Event → List Store.Action → Prop
  | start : Fruitless o es [] []
  | edited {tried : List Event} {written : List Store.Action} (before : Fruitless o es tried written) (edit : Edit) :
      Fruitless o es (tried ++ [.edit edit]) (written ++ [edit.action])
  /-- Something happens that takes nobody on. -/
  | aside {tried : List Event} {written : List Store.Action} (before : Fruitless o es tried written) {e : Event}
      (spares : ∀ n, e.Spares n) : Fruitless o es (tried ++ [e]) written
  | failed {tried : List Event} {written : List Store.Action} (before : Fruitless o es tried written)
      (errand : Errand) {more : List Event} (spares : ∀ e ∈ more, e.Spares (o.after (es ++ tried)).desk.begun)
      {cause : Cause} {e : Session.Error}
      (returns : (o.after (es ++ tried ++ .begin errand .connect :: more)).desk.occurs
        (.move (o.after (es ++ tried)).desk.begun) =
          some (.resumed (o.after (es ++ tried)).desk.begun cause (.done (.outcome (.error e))))) :
      Fruitless o es (tried ++ connecting (o.after (es ++ tried)).desk.begun errand more) (written ++ notices e)

/-- What takes nobody on leaves the controller and the store alone. -/
theorem Opening.aside {e : Event} (spares : ∀ n, e.Spares n) :
    (o.after (es ++ [e])).desk.controller = (o.after es).desk.controller ∧
      (o.after (es ++ [e])).desk.store = (o.after es).desk.store := by
  have hapart := (spares (o.after es).desk.begun).apart (o.after es).desk
  have hfresh := (o.numbered es).fresh
  have st := scene_perform (o.orderly es) e
  rw [o.after_snoc]
  change ((o.after es).desk.perform e).scene.controller = _ ∧ ((o.after es).desk.perform e).scene.store = _
  generalize ((o.after es).desk.perform e).scene = scene' at st ⊢
  generalize (o.after es).desk.occurs e = x at st hapart
  cases st with
  | quiet => exact ⟨rfl, rfl⟩
  | pinged running => exact ⟨rfl, rfl⟩
  | edited e => cases hapart
  | begun fresh errand command => cases hapart
  | chosen stood => exact ⟨rfl, rfl⟩
  | sent stood =>
    cases hapart
    cases hfresh.symm.trans stood
  | resumed cause stood =>
    cases hapart
    cases hfresh.symm.trans stood

variable {o es} in
/-- However many connects have failed, all that is left of them is their toasts. -/
theorem Opening.Fruitless.traceless {tried : List Event} {written : List Store.Action}
    (h : o.Fruitless es tried written) (idle : (o.after es).desk.controller.gate = .idle)
    (disconnected : (o.after es).desk.controller.state = .disconnected) :
    (o.after (es ++ tried)).desk.controller = (o.after es).desk.controller ∧
      (o.after (es ++ tried)).desk.store = (o.after es).desk.store.after written := by
  induction h with
  | start =>
    rw [List.append_nil]
    exact ⟨rfl, rfl⟩
  | edited before edit ih =>
    obtain ⟨hc, hs⟩ := ih
    rw [← List.append_assoc, o.after_snoc, Store.after_snoc, ← hs]
    exact ⟨hc, rfl⟩
  | aside before spares ih =>
    obtain ⟨hc, hs⟩ := ih
    obtain ⟨hc', hs'⟩ := o.aside _ spares
    rw [← List.append_assoc]
    exact ⟨hc'.trans hc, hs'.trans hs⟩
  | failed before errand spares returns ih =>
    obtain ⟨hc, hs⟩ := ih
    have clear := o.severed _ (by rw [hc, idle]) (by rw [hc, disconnected])
    obtain ⟨hc', hs'⟩ := o.traceless _ errand clear spares returns
    rw [← List.append_assoc, Store.after_append, ← hs]
    exact ⟨hc'.trans hc, hs'⟩

end Run

/-! ## Every way to fail -/

/-- A connect asks for a session and has its answer at once. -/
structure Asks (server : Server) (s : Store) (p : Wire.Params) (answer : Answer) : Prop where
  chosen : s.params? = some p
  visible : Text.isBlankText p.channel = false
  heard : ¬ server.keeps .start = true
  answered : server.start = ⟨answer, 0⟩

/-- The ways in which a connect fails that nothing keeps waiting: what it asked for, and the error that it returns. -/
inductive Failure (server : Server) (s : Store) : List Wire.Request → Session.Error → Prop
  | noGraph (missing : s.params? = none) : Failure server s [] (.refused .noGraphSelected)
  | noChannel {p : Wire.Params} (chosen : s.params? = some p) (blank : Text.isBlankText p.channel = true) :
      Failure server s [] (.refused .emptyChannel)
  | full {p : Wire.Params} {r : Wire.Response} (asks : Asks server s p (.ok r))
      (full : r.code.isCapacityExceeded = true) : Failure server s [.start p] (.refused .capacityExceeded)
  | declined {p : Wire.Params} {r : Wire.Response} (asks : Asks server s p (.ok r))
      (failure : ¬ r.code.isSuccess = true) (room : ¬ r.code.isCapacityExceeded = true) :
      Failure server s [.start p] (.refused (.serviceFailure r.code r.message))
  | unanswered {p : Wire.Params} {e : Wire.ApiError} (asks : Asks server s p (.error e)) :
      Failure server s [.start p] (.api e)

section AtOnce

variable {server : Server} {c : Controller} {s : Store} {p : Wire.Params}

theorem Severed.restored (clear : Severed c s) :
    (Controller.tearDown { c with gate := .inFlight, state := .connecting }).release = c ∧
      s.dispatch (.setAgentConnected false) = s := by
  constructor
  · simp only [Controller.tearDown, Controller.release, ← clear.state, ← clear.session, ← clear.probe, ← clear.gate]
  · simp only [Store.dispatch, ← clear.flag]

/-- Whatever a connect is answered but success, it leaves the controller as it was. -/
theorem passes_asking {answer : Answer} {e : Session.Error} (clear : Severed c s) (asks : Asks server s p answer)
    (hrest : Passes server 3 (.hears (.start p) answer) { c with gate := .inFlight, state := .connecting } s
      { controller := c, store := s.after (notices e), result := .outcome (.error e) }) :
    Passes server 5 (.begins .connect) c s
      { controller := c, store := s.after (notices e), calls := [.start p], result := .outcome (.error e) } := by
  have apart : c.state ≠ .connected := by
    rw [clear.state]
    decide
  exact passes_connect clear.gate apart asks.chosen asks.visible asks.heard asks.answered hrest

theorem passes_refused {r : Wire.Response} (clear : Severed c s) (asks : Asks server s p (.ok r))
    (failure : ¬ r.code.isSuccess = true) :
    Passes server 5 (.begins .connect) c s
      { controller := c
        store := s.after (notices (.refused (refusalOf r)))
        calls := [.start p]
        result := .outcome (.error (.refused (refusalOf r))) } := by
  obtain ⟨hc, hs⟩ := clear.restored
  have hrest := passes_refusal server { c with gate := .inFlight, state := .connecting } s p failure
  rw [hc, hs] at hrest
  exact passes_asking clear asks hrest

theorem passes_of_failure {requests : List Wire.Request} {e : Session.Error} (clear : Severed c s)
    (h : Failure server s requests e) :
    Passes server 5 (.begins .connect) c s
      { controller := c, store := s.after (notices e), calls := requests, result := .outcome (.error e) } := by
  have apart : c.state ≠ .connected := by
    rw [clear.state]
    decide
  have hbegin : (Cause.begins .connect).next c s = ({ c with gate := .inFlight }, .go (.reading .params)) :=
    beginConnect_of_idle clear.gate apart
  have hreleased : Controller.release { c with gate := .inFlight } = c := by
    simp only [Controller.release, ← clear.gate]
  have refused (r : Refusal) (hlook : (Cause.looks .params).next { c with gate := .inFlight } s =
      ({ c with gate := .inFlight }, .go (.writing (.refusal r)))) :
      Passes server 5 (.begins .connect) c s
        { controller := c
          store := s.after (notices (.refused r))
          result := .outcome (.error (.refused r)) } := by
    have hwrite : (Cause.changes (.refusal r)).next { c with gate := .inFlight } s =
        (c, .done (.outcome (.error (.refused r)))) := by rw [Cause.next, Writing.resume, hreleased]
    exact .goes hbegin rfl (.goes hlook rfl (.returns hwrite))
  cases h with
  | noGraph missing => exact refused .noGraphSelected (by simp [Cause.next, Reading.resume, missing])
  | noChannel chosen blank => exact refused .emptyChannel (by simp [Cause.next, Reading.resume, chosen, blank])
  | @full p r asks full =>
    have failure : ¬ r.code.isSuccess = true := by
      intro hsuccess
      have hsame := (r.code.isSuccess_iff.mp hsuccess).unique (r.code.isCapacityExceeded_iff.mp full)
      omega
    have hpasses := passes_refused clear asks failure
    rwa [show refusalOf r = .capacityExceeded from if_pos full] at hpasses
  | @declined p r asks failure room =>
    have hpasses := passes_refused clear asks failure
    rwa [show refusalOf r = .serviceFailure r.code r.message from if_neg room] at hpasses
  | @unanswered p e asks =>
    obtain ⟨hc, hs⟩ := clear.restored
    have hrest := passes_error server { c with gate := .inFlight, state := .connecting } s p e
    rw [hc, hs] at hrest
    exact passes_asking clear asks hrest

end AtOnce

/-! ## After any number of failures -/

/-- A connect that is begun at the end of a run, and that finds all that a session needs, can succeed. -/
structure Opening.Connects (o : Opening) (es : List Event) (errand : Errand) (p : Wire.Params) : Prop where
  /-- It can be answered with success, and then return with a session. -/
  answered : ∀ r : Wire.Response, r.code.isSuccess = true → ∃ es' cause, es ++ [.begin errand .connect] <+: es' ∧
    .sent (.task (o.after es).desk.begun) (.start p) ∈ (o.after es').past ∧
    (∃ next, .resumed (o.after es).desk.begun (.hears (.start p) (.ok r)) next ∈ (o.after es').past) ∧
    (o.after es').desk.occurs (.move (o.after es).desk.begun) =
      some (.resumed (o.after es).desk.begun cause (.done (.outcome (.ok .connected))))
  /-- However the run has gone on, with that answer it has returned or is able to, and it returns with a session. -/
  succeeds : ∀ es' q (r : Wire.Response) next, r.code.isSuccess = true → es ++ [.begin errand .connect] <+: es' →
    .resumed (o.after es).desk.begun (.hears (.start q) (.ok r)) next ∈ (o.after es').past →
    ((∃ cause result, .resumed (o.after es).desk.begun cause (.done result) ∈ (o.after es').past) ∨
      o.Finishes es' (o.after es).desk.begun) ∧
    ∀ e cause result, (o.after es').desk.occurs e = some (.resumed (o.after es).desk.begun cause (.done result)) →
      result = .outcome (.ok .connected) ∧ (o.after (es' ++ [e])).desk.controller.state = .connected
  /-- With that answer there at once, it returns in its first turn. -/
  at_once : ∀ name (r : Wire.Response), r.code.isSuccess = true → (o.after es).desk.lock = {} →
    Asks (o.after es).desk.server (o.after es).desk.store p (.ok r) →
    ∃ d', ((o.after es).desk.begin (.command name) .connect).turn (.task (o.after es).desk.begun) = d' ∧
      d'.controller.state = .connected ∧
      d'.finished = (o.after es).desk.finished ++ [(name, .outcome (.ok .connected))]

theorem Opening.connects (o : Opening) (es : List Event) (errand : Errand)
    (clear : Severed (o.after es).desk.controller (o.after es).desk.store) {p : Wire.Params}
    (chosen : (o.after es).desk.store.params? = some p) (visible : Text.isBlankText p.channel = false) :
    o.Connects es errand p := by
  have apart : (o.after es).desk.controller.state ≠ .connected := by
    rw [clear.state]
    decide
  have begun {es' : List Event} (hmore : es ++ [.begin errand .connect] <+: es') :
      .begun (o.after es).desk.begun errand .connect ∈ (o.after es').past :=
    (o.past_mono hmore).subset (o.mem_past_of_occurs es rfl)
  have success {r : Wire.Response} (hr : r.code.isSuccess = true) : verdict (.ok r) = .ok .connected := if_pos hr
  constructor
  case answered =>
    intro r hr
    obtain ⟨es', cause, result, hmore, hsent, ⟨next, hears⟩, hdone⟩ :=
      o.connect_answered es errand clear.gate apart chosen visible (.ok r)
    obtain ⟨rfl, -⟩ := o.done_of_answer es' (begun hmore) hears hdone
    rw [success hr] at hdone
    exact ⟨es', cause, hmore, hsent, ⟨next, hears⟩, hdone⟩
  case succeeds =>
    intro es' q r next hr hmore hears
    refine ⟨o.finishes_of_answer es' (begun hmore) hears, ?_⟩
    intro e cause result hdone
    obtain ⟨hresult, hshows⟩ := o.done_of_answer es' (begun hmore) hears hdone
    rw [success hr] at hresult hshows
    exact ⟨hresult, hshows.connected.mpr rfl⟩
  case at_once =>
    intro name r hr hfree asks
    have h := turn_connect (o.orderly es) name clear.gate apart chosen visible hfree asks.heard asks.answered
    have hfinished := h.finished
    have hshows := h.shows
    rw [success hr] at hfinished hshows
    exact ⟨_, rfl, hshows.connected.mpr rfl, hfinished⟩

/-- What becomes of the connects that are begun at the end of a run, one after the other. -/
structure Opening.Traceless (o : Opening) (es : List Event) : Prop where
  /-- Where a connect that nobody disturbs returns an error, however it was kept waiting, all is as it was before, but for
  the one toast of an error that the user is told of. -/
  no_trace : ∀ errand more cause e, (∀ e ∈ more, e.Spares (o.after es).desk.begun) →
    (o.after (es ++ .begin errand .connect :: more)).desk.occurs (.move (o.after es).desk.begun) =
      some (.resumed (o.after es).desk.begun cause (.done (.outcome (.error e)))) →
    (o.after (es ++ connecting (o.after es).desk.begun errand more)).desk.controller =
        (o.after es).desk.controller ∧
      (o.after (es ++ connecting (o.after es).desk.begun errand more)).desk.probes = (o.after es).desk.probes ∧
      (o.after (es ++ connecting (o.after es).desk.begun errand more)).desk.store =
        (o.after es).desk.store.after (notices e)
  /-- There are these ways to fail in one turn, and each does. -/
  at_once : ∀ name requests e, (o.after es).desk.lock = {} →
    Failure (o.after es).desk.server (o.after es).desk.store requests e →
    ∃ d', ((o.after es).desk.begin (.command name) .connect).turn (.task (o.after es).desk.begun) = d' ∧
      d'.controller = (o.after es).desk.controller ∧ d'.probes = (o.after es).desk.probes ∧
      d'.store = (o.after es).desk.store.after (notices e) ∧
      d'.calls = (o.after es).desk.calls ++ requests ∧
      d'.finished = (o.after es).desk.finished ++ [(name, .outcome (.error e))]
  /-- However many have failed, only their toasts are left, and the next one can succeed. -/
  again : ∀ tried written, o.Fruitless es tried written →
    (o.after (es ++ tried)).desk.controller = (o.after es).desk.controller ∧
      (o.after (es ++ tried)).desk.probes = (o.after es).desk.probes ∧
      (o.after (es ++ tried)).desk.store = (o.after es).desk.store.after written ∧
      ∀ errand p, ((o.after es).desk.store.after written).params? = some p → Text.isBlankText p.channel = false →
        o.Connects (es ++ tried) errand p

/-- After any events that leave the gate free and no session: a connect that fails leaves no trace, and any number of
them do not stand in the way of the next. -/
theorem traceless_after (o : Opening) (es : List Event) (idle : (o.after es).desk.controller.gate = .idle)
    (disconnected : (o.after es).desk.controller.state = .disconnected) : o.Traceless es := by
  have clear := o.severed es idle disconnected
  have unprobed : (o.after es).desk.probes = [] := (clear.vacant (o.orderly es).kept).unprobed
  have hprobes {d' : Desk} (hc : d'.controller = (o.after es).desk.controller) (hkept : d'.Kept) :
      d'.probes = (o.after es).desk.probes := by
    rw [unprobed, hkept.none_iff, hc, clear.probe]
  constructor
  case no_trace =>
    intro errand more cause e spares returns
    obtain ⟨hc, hs⟩ := o.traceless es errand clear spares returns
    exact ⟨hc, hprobes hc (o.orderly _).kept, hs⟩
  case at_once =>
    intro name requests e hfree hfails
    have hpassed := turn_of_passes (o.orderly es) name (by decide) hfree (passes_of_failure clear hfails)
    have hunprobed := hprobes hpassed.controller hpassed.kept
    exact ⟨_, rfl, hpassed.controller, hunprobed, hpassed.store, hpassed.calls, hpassed.finished⟩
  case again =>
    intro tried written hfruitless
    obtain ⟨hc, hs⟩ := hfruitless.traceless idle disconnected
    refine ⟨hc, hprobes hc (o.orderly (es ++ tried)).kept, hs, ?_⟩
    intro errand p chosen visible
    have clear' := o.severed (es ++ tried) (by rw [hc, idle]) (by rw [hc, disconnected])
    exact o.connects (es ++ tried) errand clear' (by rw [hs, chosen]) visible

/-- The server cannot be reached to start a session. -/
def unreachable : List Event := [.script .start ⟨.error (.request "refused"), 0⟩]

/-- A connect that is begun there and left alone. -/
def failing (n : Nat) : List Event := connecting n .lookout (List.replicate 4 (.move n))

theorem connects_after_two_failures :
    (furnished.after unreachable).desk.controller.gate = .idle ∧
      (furnished.after unreachable).desk.controller.state = .disconnected ∧
      furnished.Fruitless unreachable (failing 0 ++ failing 1) [] ∧
      ∃ es cause, unreachable ++ (failing 0 ++ failing 1) ++ [.begin .lookout .connect] <+: es ∧
        (furnished.after es).desk.occurs (.move 2) =
          some (.resumed 2 cause (.done (.outcome (.ok .connected)))) := by
  have idle : (furnished.after unreachable).desk.controller.gate = .idle := rfl
  have disconnected : (furnished.after unreachable).desk.controller.state = .disconnected := rfl
  have spares (n : Nat) : ∀ e ∈ List.replicate 4 (Event.move n), e.Spares n := by
    intro e he
    rw [List.eq_of_mem_replicate he]
    exact rfl
  have once : furnished.Fruitless unreachable (failing 0) [] :=
    @Opening.Fruitless.failed furnished unreachable [] [] .start .lookout _ (spares 0)
      (.changes (.teardown (.failed (.request "refused")))) (.api (.request "refused")) rfl
  have twice : furnished.Fruitless unreachable (failing 0 ++ failing 1) [] :=
    @Opening.Fruitless.failed furnished unreachable (failing 0) [] once .lookout _ (spares 1)
      (.changes (.teardown (.failed (.request "refused")))) (.api (.request "refused")) rfl
  obtain ⟨-, -, -, next⟩ := (traceless_after furnished unreachable idle disconnected).again _ _ twice
  obtain ⟨es, cause, hmore, -, -, hdone⟩ := (next .lookout offered rfl (by decide)).answered .ok rfl
  exact ⟨idle, disconnected, twice, es, cause, hmore, hdone⟩

end AgentDesk.Desk
