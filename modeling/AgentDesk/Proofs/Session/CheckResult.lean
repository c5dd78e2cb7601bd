import AgentDesk.Proofs.Session.Check
import AgentDesk.Proofs.Session.Lifecycle
import AgentDesk.Proofs.Session.Requests

/-! # What a check tells

A check returns what the server has answered, not what the controller is: with success there is a session, and then
the controller is connected, by this check or already. Without, there need not be one, and a controller that was
connected before stays so. -/
namespace AgentDesk.Desk
open Session Function

/-- Nobody but the action moves, and nobody begins anything or edits the store. The probe, the server and the clock go
on, and the action may be kept waiting. -/
def Event.Spares (n : Nat) : Event → Prop
  | .begin _ _ => False
  | .edit _ => False
  | .move m => m = n
  | _ => True

/-- What goes on the record while an action is spared is a request of the probe, or of the action itself. -/
theorem Event.Spares.cases {n : Nat} {e : Event} (h : e.Spares n) {d : Desk} {x : Occurrence}
    (hx : d.occurs e = some x) :
    (∃ serial request, x = .sent (.probe serial) request) ∨ (∃ request, x = .sent (.task n) request) ∨
      ∃ cause next, x = .resumed n cause next := by
  cases happens_of_occurs hx with
  | begun errand command => cases h
  | edited edit => cases h
  | pinged running due => exact .inl ⟨_, _, rfl⟩
  | sent m request =>
    cases h
    exact .inr (.inl ⟨_, rfl⟩)
  | resumed m cause =>
    cases h
    exact .inr (.inr ⟨_, _, rfl⟩)

/-- What the answer to its ping makes a check tell. -/
def toldBy : Answer → Except Session.Error Bool
  | .error e => .error (.api e)
  | .ok r => .ok r.code.isSuccess

/-! ## A check that is spared -/

/-- A check that began with this channel in the store and the controller in this state, and that nobody has disturbed:
as long as it does not hold the gate, nobody does. -/
structure Spared (channel : String) (state : State) (n : Nat) (s : Scene) : Prop where
  unmoved : s.store.identity.channel = channel
  stands : ∀ entry, s.plan n = some entry →
    (entry.2.holdsGate = false → s.controller.gate = .idle ∧ s.controller.state = state) ∧
      ∀ carried ∈ entry.2.carried?, carried = channel

namespace Spared

variable {channel : String} {state : State} {n : Nat} {s : Scene} {errand : Errand}

theorem of_update {c : Controller} {store : Store} {plan : Nat → Option (Errand × Post)}
    {new : Option (Errand × Post)} (unmoved : store.identity.channel = channel)
    (stands : ∀ entry, new = some entry →
      (entry.2.holdsGate = false → c.gate = .idle ∧ c.state = state) ∧
        ∀ carried ∈ entry.2.carried?, carried = channel) :
    Spared channel state n ⟨c, store, update plan n new⟩ := by
  refine ⟨unmoved, fun entry he => stands entry ?_⟩
  simpa only [update_self] using he

/-- Whoever makes a choice, a check has none to make. -/
theorem chosen (h : Spared channel state n s) {m : Nat} {command : Command} (c : Controller)
    (stood : s.plan m = some (errand, .begun command)) :
    Spared channel state n { s with plan := update s.plan m (some (errand, .begun (choose c command))) } := by
  refine ⟨h.unmoved, fun entry he => ?_⟩
  by_cases hn : n = m
  · subst hn
    simp only [update_self] at he
    cases he
    obtain ⟨hfree, -⟩ := h.stands _ stood
    exact ⟨hfree, nofun⟩
  · exact h.stands entry ((update_of_ne hn ..).symm.trans he)

theorem sent (h : Spared channel state n s) {request : Wire.Request}
    (stood : s.plan n = some (errand, .sending request)) :
    Spared channel state n { s with plan := update s.plan n (some (errand, .within (.calling request))) } := by
  have hbefore := h.stands _ stood
  refine of_update h.unmoved fun entry he => ?_
  cases he
  exact hbefore

theorem resumed (h : Spared channel state n s) {cause : Cause} (hcheck : CheckCause cause)
    (stood : s.plan n = some (errand, cause.post)) :
    Spared channel state n ⟨(cause.next s.controller s.store).1, cause.store s.store,
      update s.plan n (nextEntry errand (cause.next s.controller s.store).2)⟩ := by
  obtain ⟨hfree, hcarried⟩ := h.stands _ stood
  have hstep := hcheck.step s.controller s.store
  generalize cause.next s.controller s.store = next at hstep ⊢
  cases hstep with
  | begins =>
    refine of_update h.unmoved fun entry he => ?_
    cases he
    exact ⟨fun _ => hfree rfl, nofun⟩
  | asks visible =>
    refine of_update h.unmoved fun entry he => ?_
    cases he
    refine ⟨fun _ => hfree rfl, ?_⟩
    rintro carried ⟨⟩
    exact h.unmoved
  | takes pinged up =>
    refine of_update h.unmoved fun entry he => ?_
    cases he
    exact ⟨nofun, hcarried⟩
  | same hsame =>
    refine of_update h.unmoved fun entry he => ?_
    cases he
    exact ⟨nofun, hcarried⟩
  | blank blank => exact of_update h.unmoved nofun
  | dropped pinged adopted hnot herr => exact of_update h.unmoved nofun
  | moved hmoved => exact of_update h.unmoved nofun
  | adopts adopted => exact of_update h.unmoved nofun

end Spared

theorem Opening.begun_check (o : Opening) (es : List Event) (errand : Errand) (more : List Event) :
    .begun (o.after es).desk.begun errand .check ∈ (o.after (es ++ .begin errand .check :: more)).past := by
  have hbegun := o.mem_past_of_occurs es (e := .begin errand .check) rfl
  exact (o.past_mono ⟨more, by simp⟩).subset hbegun

section Run

variable {o : Opening} {es : List Event} {channel : String} {state : State} {n : Nat} {errand : Errand}

theorem Opening.spared_snoc (begun : .begun n errand .check ∈ (o.after es).past)
    (h : Spared channel state n (o.after es).desk.scene) {e : Event} (he : e.Spares n) :
    Spared channel state n (o.after (es ++ [e])).desk.scene := by
  have st := scene_perform (o.orderly es) e
  rw [o.after_snoc]
  change Spared channel state n ((o.after es).desk.perform e).scene
  generalize ((o.after es).desk.perform e).scene = s' at st
  cases hx : (o.after es).desk.occurs e with
  | none =>
    rw [hx] at st
    cases st with
    | quiet => exact h
    | chosen stood => exact h.chosen _ stood
  | some x =>
    have hcases := he.cases hx
    rw [hx] at st
    obtain ⟨serial, request, rfl⟩ | ⟨request, rfl⟩ | ⟨cause, next, rfl⟩ := hcases
    · cases st with
      | pinged running => exact h
    · cases st with
      | sent stood => exact h.sent stood
    · have hevent : e = .move n := by
        cases happens_of_occurs hx
        rfl
      subst hevent
      have hcheck := (Opening.check_resumed begun hx).1.cause
      cases st with
      | resumed cause stood => exact h.resumed hcheck stood

end Run

theorem Opening.spared (o : Opening) (es : List Event) (errand : Errand)
    (idle : (o.after es).desk.controller.gate = .idle) {more : List Event}
    (spares : ∀ e ∈ more, e.Spares (o.after es).desk.begun) :
    Spared (o.after es).desk.store.identity.channel (o.after es).desk.controller.state (o.after es).desk.begun
      (o.after (es ++ .begin errand .check :: more)).desk.scene := by
  induction more using List.reverseRecOn with
  | nil =>
    rw [o.after_snoc]
    change Spared _ _ _ ((o.after es).desk.begin errand .check).scene
    rw [scene_begin (o.numbered es).fresh]
    refine Spared.of_update rfl fun entry he => ?_
    cases he
    exact ⟨fun _ => ⟨idle, rfl⟩, nofun⟩
  | append_singleton more e ih =>
    have hbefore := ih fun e he => spares e (List.mem_append_left _ he)
    rw [← List.cons_append, ← List.append_assoc]
    exact Opening.spared_snoc (o.begun_check es errand more) hbefore (spares e (by simp))

/-! ## What it returns -/

/-- The ways in which a check returns that is spared: what it goes on with, what it returns, and the state that it
leaves behind. -/
inductive Returned (channel : String) (before : State) : Cause → Except Session.Error Bool → State → Prop
  | blank (blank : Text.isBlankText channel = true) : Returned channel before (.looks .pingChannel) (.ok false) before
  | answered (answer : Answer) (connected : toldBy answer = .ok true → before = .connected) :
      Returned channel before (.hears (.ping channel) answer) (toldBy answer) before
  | adopted : Returned channel before (.changes (.adopted channel)) (.ok true) .connected

section Returns

variable {channel : String} {before : State}

theorem afterPing_of_idle {c c' : Controller} (idle : c.gate = .idle) (settled : c.state ≠ .connecting)
    {answer : Answer} {result : Result} (h : afterPing c channel answer = (c', .done result)) :
    c' = c ∧ result = .adoption (toldBy answer) ∧ (toldBy answer = .ok true → c.state = .connected) := by
  cases answer with
  | error e =>
    cases h
    exact ⟨rfl, rfl, nofun⟩
  | ok r =>
    cases hs : r.code.isSuccess with
    | false =>
      have hping : afterPing c channel (.ok r) = (c, .done (.adoption (.ok false))) := by simp [afterPing, hs]
      cases hping.symm.trans h
      exact ⟨rfl, by rw [toldBy, hs], by simp [toldBy, hs]⟩
    | true =>
      cases hc : c.state with
      | connecting => exact absurd hc settled
      | disconnected =>
        cases (afterPing_of_takesUp channel ⟨⟨r, rfl, hs⟩, idle, hc⟩).symm.trans h
      | connected =>
        have hping : afterPing c channel (.ok r) = (c, .done (.adoption (.ok true))) := by
          simp [afterPing, hs, idle, Gate.acquire?, hc]
        cases hping.symm.trans h
        exact ⟨rfl, by rw [toldBy, hs], fun _ => rfl⟩

theorem CheckCause.returned {cause : Cause} (h : CheckCause cause) {c c' : Controller} {s : Store} {result : Result}
    (free : cause.post.holdsGate = false → c.gate = .idle ∧ c.state = before) (settled : before ≠ .connecting)
    (unmoved : s.identity.channel = channel) (carries : ∀ carried ∈ cause.post.carried?, carried = channel)
    (hdone : cause.next c s = (c', .done result)) :
    ∃ adopted, result = .adoption adopted ∧ Returned channel before cause adopted c'.state := by
  cases h with
  | begins => cases hdone
  | reads =>
    obtain ⟨-, rfl⟩ := free rfl
    simp only [Cause.next, Reading.resume, unmoved] at hdone
    split at hdone
    · next hblank =>
      cases hdone
      exact ⟨_, rfl, .blank hblank⟩
    · cases hdone
  | hears pinged answer =>
    obtain ⟨hidle, rfl⟩ := free rfl
    obtain rfl : pinged = channel := carries _ rfl
    obtain ⟨rfl, rfl, hconnected⟩ := afterPing_of_idle hidle settled hdone
    exact ⟨_, rfl, .answered answer hconnected⟩
  | looks pinged =>
    obtain rfl : pinged = channel := carries _ rfl
    simp only [Cause.next, Reading.resume, if_pos unmoved] at hdone
    cases hdone
  | adopts pinged =>
    obtain rfl : pinged = channel := carries _ rfl
    cases hdone
    exact ⟨_, rfl, .adopted⟩

end Returns

/-- How the result of a check bears on the controller that it leaves behind. -/
structure Attests (before : State) (adopted : Except Session.Error Bool) (after : State) : Prop where
  connected : after = .connected ↔ before = .connected ∨ adopted = .ok true
  /-- It is the truth, unless it denies a connection from before. -/
  truth : ∀ b, adopted = .ok b → ((b = true ↔ after = .connected) ↔ (before = .connected → b = true))

theorem Attests.of_connected {before after : State} {adopted : Except Session.Error Bool}
    (connected : after = .connected ↔ before = .connected ∨ adopted = .ok true) : Attests before adopted after := by
  refine ⟨connected, ?_⟩
  rintro b rfl
  rw [connected, Except.ok.injEq]
  exact ⟨fun h hbefore => h.2 (.inl hbefore), fun h => ⟨.inr, fun hor => hor.elim h id⟩⟩

theorem Returned.attests {channel : String} {before : State} {cause : Cause} {adopted : Except Session.Error Bool}
    {after : State} (h : Returned channel before cause adopted after) : Attests before adopted after := by
  cases h with
  | blank blank => exact .of_connected (by simp)
  | answered answer connected => exact .of_connected ⟨.inl, fun hor => hor.elim id connected⟩
  | adopted => exact .of_connected (by simp)

theorem Opening.returned {o : Opening} {es : List Event} {channel : String} {before : State} {n : Nat}
    {errand : Errand} (begun : .begun n errand .check ∈ (o.after es).past)
    (h : Spared channel before n (o.after es).desk.scene) (settled : before ≠ .connecting) {cause : Cause}
    {result : Result} (returns : (o.after es).desk.occurs (.move n) = some (.resumed n cause (.done result))) :
    ∃ adopted, result = .adoption adopted ∧ Attests before adopted (o.after (es ++ [.move n])).desk.controller.state ∧
      (Text.isBlankText channel = true ∧ adopted = .ok false ∨
        Text.isBlankText channel = false ∧ ∃ answer next,
          .resumed n (.hears (.ping channel) answer) next ∈ (o.after (es ++ [.move n])).past ∧
            adopted = toldBy answer) := by
  have hway := (Opening.check_resumed begun returns).1
  have hpast := o.mem_past_of_occurs es returns
  have st := scene_perform (o.orderly es) (.move n)
  rw [returns] at st
  obtain ⟨errand', stood⟩ := st.stood_of_resumed
  obtain ⟨hnext, hc, -⟩ := st.of_resumed
  obtain ⟨free, carries⟩ := h.stands _ stood
  have hvisible := (showing o es).posts n _ stood
  have hdone : cause.next (o.after es).desk.controller (o.after es).desk.store =
      ((o.after (es ++ [.move n])).desk.controller, .done result) := by
    rw [o.after_snoc]
    exact Prod.ext hc.symm hnext.symm
  obtain ⟨adopted, hresult, hreturned⟩ := hway.cause.returned free settled h.unmoved carries hdone
  refine ⟨adopted, hresult, hreturned.attests, ?_⟩
  generalize (o.after (es ++ [.move n])).desk.controller.state = after at hreturned
  cases hreturned with
  | blank hblank => exact .inl ⟨hblank, rfl⟩
  | answered answer hconnected => exact .inr ⟨hvisible _ rfl, answer, _, hpast, rfl⟩
  | adopted =>
    -- The answer was heard earlier, when it was taken up.
    obtain ⟨_, answer, hheard, ⟨r, rfl, hsuccess⟩, -, -⟩ := (Opening.found hway).taken
    have hgrown := o.past_mono (List.prefix_append es [.move n])
    refine .inr ⟨hvisible _ rfl, .ok r, _, hgrown.subset hheard.mem_past, ?_⟩
    rw [toldBy, hsuccess]

/-! ## A check that is not kept waiting -/

/-- What a check returns that is answered at once. -/
def resultAt (channel : String) (answer : Answer) : Except Session.Error Bool :=
  if Text.isBlankText channel then .ok false else toldBy answer

/-- A command that was a check is over; `finished` was on the report before. -/
structure Ended (name : String) (before : State) (adopted : Except Session.Error Bool)
    (finished : List (String × Result)) (d : Desk) : Prop where
  finished : d.finished = finished ++ [(name, .adoption adopted)]
  attests : Attests before adopted d.controller.state

section AtOnce

variable {server : Server} {c : Controller} {s : Store} {channel : String} {answer : Answer}

/-- With the answer at hand a check is soon over. -/
theorem exists_passes_of_ping (server : Server) (idle : c.gate = .idle) (settled : c.state ≠ .connecting)
    (unmoved : s.identity.channel = channel) (answer : Answer) :
    ∃ rest, Passes server 3 (.hears (.ping channel) answer) c s rest ∧ rest.result = .adoption (toldBy answer) ∧
      Attests c.state (toldBy answer) rest.controller.state := by
  by_cases hup : TakesUp c answer
  · have hnext : (Cause.hears (.ping channel) answer).next c s =
        ({ c with gate := .inFlight }, .go (.reading (.currentChannel channel))) := afterPing_of_takesUp channel hup
    have hlook : (Cause.looks (.currentChannel channel)).next { c with gate := .inFlight } s =
        ({ c with gate := .inFlight }, .go (.writing (.adopted channel))) := if_pos unmoved
    obtain ⟨r, rfl, hsuccess⟩ := hup.alive
    rw [toldBy, hsuccess]
    exact ⟨_, .goes hnext rfl (.goes hlook rfl (.returns rfl)), rfl, .of_connected ⟨fun _ => .inr rfl, fun _ => rfl⟩⟩
  · obtain ⟨adopted, hnext⟩ := afterPing_of_not_takesUp channel hup
    obtain ⟨-, hresult, hconnected⟩ := afterPing_of_idle idle settled hnext
    cases hresult
    have hnext : (Cause.hears (.ping channel) answer).next c s = (c, .done (.adoption (toldBy answer))) := hnext
    exact ⟨_, .returns hnext, rfl, .of_connected ⟨.inl, fun hor => hor.elim id hconnected⟩⟩

theorem exists_passes_of_check (idle : c.gate = .idle) (settled : c.state ≠ .connecting)
    (hkeeps : ¬ server.keeps .ping = true) (hscript : server.ping = ⟨answer, 0⟩) :
    ∃ rest, Passes server 5 (.begins .check) c s rest ∧
      rest.result = .adoption (resultAt s.identity.channel answer) ∧
      Attests c.state (resultAt s.identity.channel answer) rest.controller.state := by
  have hbegin : (Cause.begins .check).next c s = (c, .go (.reading .pingChannel)) := rfl
  by_cases hblank : Text.isBlankText s.identity.channel = true
  · have hlook : (Cause.looks .pingChannel).next c s = (c, .done (.adoption (.ok false))) := if_pos hblank
    rw [show resultAt s.identity.channel answer = .ok false from if_pos hblank]
    exact ⟨_, .goes hbegin rfl (.returns hlook), rfl, .of_connected (by simp)⟩
  · have hlook : (Cause.looks .pingChannel).next c s = (c, .go (.calling (.ping s.identity.channel))) := if_neg hblank
    have hstage : prompt? server (.calling (.ping s.identity.channel)) =
        some (.hears (.ping s.identity.channel) answer) := by
      simp [prompt?, Server.script, Wire.Request.kind, hscript, hkeeps]
    obtain ⟨rest, hrest, hresult, hattests⟩ := exists_passes_of_ping server idle settled (s := s) rfl answer
    rw [show resultAt s.identity.channel answer = toldBy answer from if_neg hblank]
    exact ⟨_, .goes hbegin rfl (.goes hlook hstage hrest), hresult, hattests⟩

end AtOnce

/-- A check that finds the gate free, nobody at the store and a server that answers at once is over in one turn. -/
theorem turn_check_ends {d : Desk} (hd : d.Orderly) (name : String) (idle : d.controller.gate = .idle)
    (settled : d.controller.state ≠ .connecting) (hfree : d.lock = {}) (hkeeps : ¬ d.server.keeps .ping = true)
    {answer : Answer} (hscript : d.server.ping = ⟨answer, 0⟩) :
    Ended name d.controller.state (resultAt d.store.identity.channel answer) d.finished
      ((d.begin (.command name) .check).turn (.task d.begun)) := by
  obtain ⟨rest, hrest, hresult, hattests⟩ := exists_passes_of_check (s := d.store) idle settled hkeeps hscript
  have hpassed := turn_of_passes hd name (by decide) hfree hrest
  refine ⟨?_, ?_⟩
  · rw [hpassed.finished, hresult]
  · rw [hpassed.controller]
    exact hattests

/-! ## Every check that is spared -/

/-- A check has been begun at the end of a run, and has made a move after some more events. -/
def Opening.afterCheck (o : Opening) (es : List Event) (errand : Errand) (more : List Event) : Chronicle :=
  o.after (es ++ .begin errand .check :: more ++ [.move (o.after es).desk.begun])

/-- What becomes of a check that is begun at the end of a run and that nobody disturbs. -/
structure Opening.Unopposed (o : Opening) (es : List Event) (errand : Errand) : Prop where
  /-- However it is kept waiting, where it returns it tells what it was answered, if it asked at all. -/
  returned : ∀ more cause result, (∀ e ∈ more, e.Spares (o.after es).desk.begun) →
    (o.after (es ++ .begin errand .check :: more)).desk.occurs (.move (o.after es).desk.begun) =
      some (.resumed (o.after es).desk.begun cause (.done result)) →
    ∃ adopted, result = .adoption adopted ∧
      Attests (o.after es).desk.controller.state adopted (o.afterCheck es errand more).desk.controller.state ∧
      (Text.isBlankText (o.after es).desk.store.identity.channel = true ∧ adopted = .ok false ∨
        Text.isBlankText (o.after es).desk.store.identity.channel = false ∧ ∃ answer next,
          .resumed (o.after es).desk.begun (.hears (.ping (o.after es).desk.store.identity.channel) answer) next ∈
            (o.afterCheck es errand more).past ∧ adopted = toldBy answer)
  /-- With nobody at the store and the answer there at once, it returns in its first turn. -/
  at_once : ∀ name answer, (o.after es).desk.lock = {} → ¬ (o.after es).desk.server.keeps .ping = true →
    (o.after es).desk.server.ping = ⟨answer, 0⟩ →
    Ended name (o.after es).desk.controller.state (resultAt (o.after es).desk.store.identity.channel answer)
      (o.after es).desk.finished
      (((o.after es).desk.begin (.command name) .check).turn (.task (o.after es).desk.begun))

/-- **What a check tells.** Whatever state the run has come to with the gate free, and whatever the server answers: a
check that nobody disturbs returns what it is answered, and the controller is connected afterwards if it was before or
if that is success. So the result is the truth about the controller, unless it was connected before and the channel
does not show any more or the answer is a failure. -/
theorem unopposed_after (o : Opening) (es : List Event) (errand : Errand)
    (idle : (o.after es).desk.controller.gate = .idle) : o.Unopposed es errand := by
  have settled : (o.after es).desk.controller.state ≠ .connecting := ((custody o es).rest idle).not_connecting
  refine ⟨fun more cause result spares returns => ?_, fun name answer hfree hkeeps hscript => ?_⟩
  · exact Opening.returned (o.begun_check es errand more) (o.spared es errand idle spares) settled returns
  · exact turn_check_ends (o.orderly es) name idle settled hfree hkeeps hscript

/-- A session has been started, and then the server and the store are as these events leave them. -/
def startedThen (changes : List Event) : List Event := alone 0 .connect 6 ++ changes

/-- The server says that no session runs. -/
def answerFailure : Event := .script .ping ⟨.ok (.failure (.number 1) ""), 0⟩

def blankChannel : Event := .edit ⟨.setIdentity {}, nofun⟩

/-- A check comes upon a session that the server knows: it tells of it. -/
theorem unopposed_check_tells :
    (furnished.after (startedThen [])).desk.controller.gate = .idle ∧
      Attests .connected (.ok true) (furnished.afterCheck (startedThen []) .lookout
        [.move 1, .move 1, .move 1]).desk.controller.state := by
  have idle : (furnished.after (startedThen [])).desk.controller.gate = .idle := rfl
  have spares : ∀ e ∈ [Event.move 1, .move 1, .move 1], e.Spares 1 := by
    simp only [List.mem_cons, List.not_mem_nil, or_false]
    rintro e (rfl | rfl | rfl) <;> rfl
  obtain ⟨adopted, hresult, hattests, -⟩ :=
    (unopposed_after furnished (startedThen []) .lookout idle).returned _ (.hears (.ping "room-1") (.ok .ok))
      (.adoption (.ok true)) spares rfl
  cases hresult
  exact ⟨idle, hattests⟩

/-- A check that nobody disturbs tells that the controller is not connected, which it is before and afterwards. -/
structure Opening.Denies (o : Opening) (es more : List Event) : Prop where
  idle : (o.after es).desk.controller.gate = .idle
  before : (o.after es).desk.controller.state = .connected
  spares : ∀ e ∈ more, e.Spares (o.after es).desk.begun
  denies : ∃ cause, (o.after (es ++ .begin .lookout .check :: more)).desk.occurs (.move (o.after es).desk.begun) =
    some (.resumed (o.after es).desk.begun cause (.done (.adoption (.ok false))))
  after : (o.afterCheck es .lookout more).desk.controller.state = .connected

/-- While a session runs, a check that is answered with a failure denies it, and so does one that finds no channel. -/
theorem denied_while_connected :
    furnished.Denies (startedThen [answerFailure]) [.move 1, .move 1, .move 1] ∧
      furnished.Denies (startedThen [blankChannel]) [.move 1] := by
  refine ⟨⟨rfl, rfl, ?_, ⟨_, rfl⟩, rfl⟩, ⟨rfl, rfl, ?_, ⟨_, rfl⟩, rfl⟩⟩
  · simp only [List.mem_cons, List.not_mem_nil, or_false]
    rintro e (rfl | rfl | rfl) <;> rfl
  · simp only [List.mem_singleton]
    rintro e rfl
    rfl

end AgentDesk.Desk
