import AgentDesk.Proofs.Desk.Turn
import AgentDesk.Proofs.Session.Answer
import AgentDesk.Proofs.Session.Ledger
import AgentDesk.Proofs.Session.Lifecycle
import AgentDesk.Proofs.Store.History

/-! # However the server takes it, the session is over

Whoever is to end a session asks the server once to stop it, and gives it up when there is an answer: what the answer
says decides what is returned and what the user is told, and nothing else (`Parting`). The gate is in one hand all the
while, so whatever others do meanwhile, there is nothing left of the session afterwards (`parting_after`). -/
namespace AgentDesk.Desk
open Session Function

/-! ## What an answer decides -/

/-- What a disconnect comes to, by the answer to its stop request. -/
def farewell : Answer → Except Session.Error Outcome
  | .error e => .error (.api e)
  | .ok _ => .ok .disconnected

/-- What the user is told of it. -/
def partingToasts : Answer → List Store.Notification
  | .error _ => []
  | .ok _ => [.success Transition.disconnected.toast]

/-- The commands that end a session, if there is one. -/
def parts : Command → Bool
  | .disconnect => true
  | .toggle => true
  | _ => false

/-! ## The way of a disconnect -/

/-- How far an action has come that has found a session to end, and where it stands then. A toggle has begun as
such and may have chosen since what to do. -/
inductive Parting (n : Nat) (errand : Errand) (first command : Command) : List Occurrence → Post → Prop
  | looks :
      Parting n errand first command
        [.begun n errand first, .resumed n (.begins command) (.go (.reading .stopChannel))]
        (.within (.reading .stopChannel))
  | asks {past : List Occurrence} (channel : String)
      (before : Parting n errand first command past (.within (.reading .stopChannel))) :
      Parting n errand first command (past ++ [.resumed n (.looks .stopChannel) (.go (.calling (.stop channel)))])
        (.sending (.stop channel))
  | waits {past : List Occurrence} {channel : String}
      (before : Parting n errand first command past (.sending (.stop channel))) :
      Parting n errand first command (past ++ [.sent (.task n) (.stop channel)]) (.within (.calling (.stop channel)))
  | fails {past : List Occurrence} {channel : String} (e : Wire.ApiError)
      (before : Parting n errand first command past (.within (.calling (.stop channel)))) :
      Parting n errand first command
        (past ++ [.resumed n (.hears (.stop channel) (.error e)) (.go (.writing (.teardown (.failed e))))])
        (.within (.writing (.teardown (.failed e))))
  | stops {past : List Occurrence} {channel : String} (r : Wire.Response)
      (before : Parting n errand first command past (.within (.calling (.stop channel)))) :
      Parting n errand first command
        (past ++ [.resumed n (.hears (.stop channel) (.ok r)) (.go (.writing (.teardown .stopped)))])
        (.within (.writing (.teardown .stopped)))
  | tells {past : List Occurrence}
      (before : Parting n errand first command past (.within (.writing (.teardown .stopped)))) :
      Parting n errand first command
        (past ++ [.resumed n (.changes (.teardown .stopped)) (.go (.writing (.announce .disconnected)))])
        (.within (.writing (.announce .disconnected)))

/-- All that the record tells of an action that waits for its session to be stopped. -/
def partingPath (n : Nat) (errand : Errand) (first command : Command) (channel : String) : List Occurrence :=
  [.begun n errand first,
   .resumed n (.begins command) (.go (.reading .stopChannel)),
   .resumed n (.looks .stopChannel) (.go (.calling (.stop channel))),
   .sent (.task n) (.stop channel)]

/-- What the record tells of an action that has ended a session and returned: of one request and its one answer, of the
flag that was taken back, and of the toast that the answer called for. -/
inductive Parted (n : Nat) (past : List Occurrence) (result : Result) : Prop
  | intro (channel : String) (answer : Answer) (asked : (ledger past).requests = [.stop channel])
      (heard : ∃ next, .resumed n (.hears (.stop channel) answer) next ∈ past)
      (only : ∀ request other next, .resumed n (.hears request other) next ∈ past →
        request = .stop channel ∧ other = answer)
      (returned : result = .outcome (farewell answer)) (told : (ledger past).toasts = partingToasts answer)
      (wrote : past.filterMap (·.writes?) = .setAgentConnected false :: (partingToasts answer).map .notify)

section Way

variable {n : Nat} {errand : Errand} {first command : Command} {past : List Occurrence}

theorem Parting.holdsGate {post : Post} (h : Parting n errand first command past post) : post.holdsGate = true := by
  cases h <;> rfl

theorem Parting.path {channel : String}
    (h : Parting n errand first command past (.within (.calling (.stop channel)))) :
    past = partingPath n errand first command channel := by
  obtain _ | _ | ⟨_ | ⟨_, _ | _⟩⟩ := h
  rfl

/-- A path to the first stage is the beginning and nothing else. -/
theorem Course.of_begun {errand' : Errand} (h : Course n errand first past (some (errand', .begun command))) :
    past = [.begun n errand first] := by
  generalize hentry : some (errand', Post.begun command) = entry at h
  induction h generalizing command with
  | begun => rfl
  | chosen c before ih =>
    cases hentry
    exact ih rfl
  | sent before => cases hentry
  | resumed cause c s before =>
    generalize (cause.next c s).2 = next at hentry
    cases next with
    | go stage => cases stage <;> cases hentry
    | done r =>
      obtain ⟨text, htoast⟩ := toast_of_done hentry.symm
      cases htoast
    | closed => cases hentry

/-- From anywhere on its way an action goes on along it, or returns. -/
theorem Parting.resumed {cause : Cause} (h : Parting n errand first command past cause.post) (c : Controller)
    (s : Store) :
    (∃ stage, (cause.next c s).2 = .go stage ∧
        Parting n errand first command (past ++ [.resumed n cause (.go stage)]) (.ofStage stage)) ∨
      ∃ result, (cause.next c s).2 = .done result ∧ Parted n (past ++ [.resumed n cause (.done result)]) result := by
  generalize hpost : cause.post = post at h
  cases cause with
  | begins command => cases hpost; cases h
  | looks r =>
    cases hpost
    cases h
    exact .inl ⟨_, rfl, .asks s.identity.channel .looks⟩
  | hears request answer =>
    cases hpost
    cases h with
    | waits before =>
      cases answer with
      | error e => exact .inl ⟨_, rfl, .fails e (.waits before)⟩
      | ok r => exact .inl ⟨_, rfl, .stops r (.waits before)⟩
  | changes w =>
    cases hpost
    cases h with
    | stops r before => exact .inl ⟨_, rfl, .tells (.stops r before)⟩
    | @fails past channel e before =>
      obtain rfl := before.path
      refine .inr ⟨_, rfl, .intro channel (.error e) rfl ⟨.go (.writing (.teardown (.failed e))), ?_⟩ ?_ rfl rfl rfl⟩
      · exact List.mem_append_left _ List.mem_concat_self
      · simp +contextual [partingPath]
    | tells before =>
      cases before with
      | @stops past channel r before =>
        obtain rfl := before.path
        refine .inr ⟨_, rfl, .intro channel (.ok r) rfl ⟨.go (.writing (.teardown .stopped)), ?_⟩ ?_ rfl rfl rfl⟩
        · exact List.mem_append_left _ (List.mem_append_left _ List.mem_concat_self)
        · simp +contextual [partingPath]

/-- Once a session is found to end, an action is on its way, or it has returned and at most shows a toast. -/
theorem Course.parting {entry : Option (Errand × Post)} (h : Course n errand first past entry)
    (found : .resumed n (.begins command) (.go (.reading .stopChannel)) ∈ past) :
    (∃ post, entry = some (errand, post) ∧ Parting n errand first command past post) ∨
      (∃ cause result, .resumed n cause (.done result) ∈ past) ∧
        ∀ post, entry = some (errand, post) → ∃ text, post = .within (.writing (.toast text)) := by
  induction h with
  | begun => cases List.mem_singleton.mp found
  | chosen c before ih =>
    rw [before.of_begun] at found
    cases List.mem_singleton.mp found
  | sent before ih =>
    rcases List.mem_append.mp found with found | found
    · rcases ih found with ⟨post, hentry, hway⟩ | ⟨-, htoast⟩
      · cases hentry
        cases hway with
        | asks channel hlooks => exact .inl ⟨_, rfl, .waits (.asks channel hlooks)⟩
      · obtain ⟨text, hpost⟩ := htoast _ rfl
        cases hpost
    · cases List.mem_singleton.mp found
  | @resumed past cause c s before ih =>
    rcases List.mem_append.mp found with found | found
    · rcases ih found with ⟨post, hentry, hway⟩ | ⟨⟨cause', result, hdone⟩, htoast⟩
      · cases hentry
        rcases hway.resumed c s with ⟨stage, hgo, hway⟩ | ⟨result, hdone, -⟩
        · rw [hgo]
          exact .inl ⟨_, rfl, hway⟩
        · rw [hdone]
          refine .inr ⟨⟨cause, result, List.mem_concat_self⟩, fun post hpost => ?_⟩
          obtain ⟨text, hentry⟩ := toast_of_done hpost
          exact ⟨text, congrArg Prod.snd hentry⟩
      · obtain ⟨text, hpost⟩ := htoast _ rfl
        obtain rfl := Cause.eq_changes hpost
        exact .inr ⟨⟨cause', result, List.mem_append_left _ hdone⟩, nofun⟩
    · obtain ⟨-, hcause, hnext⟩ := Occurrence.resumed.inj (List.mem_singleton.mp found)
      subst hcause
      obtain rfl := before.of_begun
      rw [← hnext]
      exact .inl ⟨_, rfl, .looks⟩

end Way

/-! ## What is left of the session -/

/-- Where an action on its way returns, nothing is left of the session. -/
theorem severed_of_done {n : Nat} {errand : Errand} {first command : Command} {past own : List Occurrence}
    {cause : Cause} {c : Controller} {s : Store} {result : Result} (h : Parting n errand first command own cause.post)
    (inFlight : c.gate = .inFlight) (secured : Secured (held past) (signs c s) cause.post)
    (hdone : (cause.next c s).2 = .done result) : Severed (cause.next c s).1 (cause.store s) := by
  have handed := handed_of_secured n h.holdsGate inFlight secured
  rw [hdone] at handed
  obtain ⟨idle, rest⟩ := handed
  refine severed_of_down idle (rest.of_not_connected ?_).1
  have hstate : (cause.next c s).1.state = .disconnected := by
    generalize hpost : cause.post = post at h secured
    cases cause with
    | begins command => cases hpost; cases h
    | looks r =>
      cases hpost
      cases h
      cases hdone
    | hears request answer =>
      cases hpost
      cases h with
      | waits before => cases answer <;> cases hdone
    | changes w =>
      cases hpost
      cases h with
      | stops r before => cases hdone
      | fails e before =>
        obtain ⟨⟨flag, hdown⟩, -⟩ := secured
        exact congrArg Signs.state hdown
      | tells before => exact congrArg Signs.state secured.1
  change (cause.next c s).1.state ≠ .connected
  rw [hstate]
  decide

/-! ## Every run -/

theorem beginDisconnect_of_idle {c : Controller} (idle : c.gate = .idle) (connected : c.state = .connected) :
    Command.beginDisconnect c = ({ c with gate := .inFlight }, .go (.reading .stopChannel)) := by
  simp only [Command.beginDisconnect, idle, Gate.acquire?]
  exact if_neg (not_not.mpr connected)

theorem begin_of_parts {command : Command} (h : parts command = true) {c : Controller} (idle : c.gate = .idle)
    (connected : c.state = .connected) :
    command.begin c = ({ c with gate := .inFlight }, .go (.reading .stopChannel)) := by
  cases command with
  | disconnect => exact beginDisconnect_of_idle idle connected
  | toggle =>
    rw [Command.begin, if_pos connected]
    exact beginDisconnect_of_idle idle connected
  | connect => cases h
  | check => cases h

/-- What becomes of an action that is about to end the session, from its next move on. -/
structure Opening.Ends (o : Opening) (es : List Event) (n : Nat) : Prop where
  /-- However the run has gone on, where it returns there is nothing left of the session, and what it returns and tells
  the user is what the answer to its one request says. -/
  returned : ∀ es' e cause result, es ++ [.move n] <+: es' →
    (o.after es').desk.occurs e = some (.resumed n cause (.done result)) →
    Parted n (own n (o.after (es' ++ [e])).past) result ∧ (o.after (es' ++ [e])).desk.Vacant
  /-- However the run has gone on, it has returned or is able to. -/
  able : ∀ es', es ++ [.move n] <+: es' →
    (∃ cause result, .resumed n cause (.done result) ∈ (o.after es').past) ∨ o.Finishes es' n
  /-- It can be given any answer to its request and return. -/
  answered : ∀ answer, ∃ es' channel next cause, es ++ [.move n] <+: es' ∧
    .resumed n (.hears (.stop channel) answer) next ∈ (o.after es').past ∧
    (o.after es').desk.occurs (.move n) = some (.resumed n cause (.done (.outcome (farewell answer))))

section Run

variable {o : Opening} {es : List Event} {n : Nat} {errand : Errand} {first command : Command}

/-- The next move of an action that is about to end the session finds it. -/
theorem Opening.finds_session (idle : (o.after es).desk.controller.gate = .idle)
    (connected : (o.after es).desk.controller.state = .connected) (hparts : parts command = true)
    (stands : (o.after es).desk.plan n = some (errand, .begun command)) :
    (∃ first, .begun n errand first ∈ (o.after es).past) ∧
      (o.after es).desk.occurs (.move n) = some (.resumed n (.begins command) (.go (.reading .stopChannel))) ∧
      (o.after (es ++ [.move n])).desk.plan n = some (errand, (Cause.looks .stopChannel).post) := by
  obtain ⟨errand', first, hbegun⟩ := (o.told es).standing n _ stands
  have hcourse := o.course es hbegun
  rw [stands] at hcourse
  obtain rfl : errand = errand' := hcourse.errand_eq
  obtain ⟨t, ht, hentry⟩ := Option.map_eq_some_iff.mp stands
  have hpost : t.position.post = .begun command := congrArg Prod.snd hentry
  have hcause : (o.after es).desk.cause? t = some (.begins command) := by
    cases hpos : t.position with
    | begun command' =>
      rw [hpos] at hpost
      cases hpost
      simp only [cause?, hpos]
    | calling request progress =>
      rw [hpos] at hpost
      cases progress <;> cases hpost
    | _ => rw [hpos] at hpost; cases hpost
  have hnext : (Cause.begins command).next (o.after es).desk.controller (o.after es).desk.store = _ :=
    begin_of_parts hparts idle connected
  have hoccurs := occurs_of_cause ht hcause
  have stands' : (o.after es).desk.plan n = some (errand, (Cause.begins command).post) := stands
  have hgone := o.goneOn es stands' hoccurs
  refine ⟨⟨first, hbegun⟩, ?_, ?_⟩
  · rw [hoccurs, hnext]
  · rw [hgone.plan, hnext]
    rfl

/-- Where an action returns that has found a session to end, it has ended it. -/
theorem Opening.parted_of_done (begun : .begun n errand first ∈ (o.after es).past)
    (found : .resumed n (.begins command) (.go (.reading .stopChannel)) ∈ (o.after es).past) {e : Event} {cause : Cause}
    {result : Result} (hdone : (o.after es).desk.occurs e = some (.resumed n cause (.done result))) :
    Parted n (own n (o.after (es ++ [e])).past) result ∧ (o.after (es ++ [e])).desk.Vacant := by
  have hkept := (o.orderly (es ++ [e])).kept
  have st := scene_perform (o.orderly es) e
  rw [hdone] at st
  obtain ⟨errand', stood⟩ := st.stood_of_resumed
  obtain ⟨hnext, hc, hs⟩ := st.of_resumed
  have hplan : (o.after es).desk.plan n = some (errand', cause.post) := stood
  have hcourse := o.course es begun
  rw [hplan] at hcourse
  obtain rfl : errand' = errand := hcourse.errand_eq
  rcases hcourse.parting (mem_own.mpr ⟨found, rfl⟩) with ⟨post, hentry, hway⟩ | ⟨-, htoast⟩
  · cases hentry
    obtain ⟨inFlight, secured, -⟩ := (custody o es).holder stood hway.holdsGate
    have hsevered := severed_of_done hway inFlight secured hnext.symm
    rw [← hc, ← hs] at hsevered
    have hpast : own n (o.after (es ++ [e])).past = own n (o.after es).past ++ [.resumed n cause (.done result)] := by
      rw [o.after_snoc, Chronicle.next, hdone]
      exact own_snoc_self rfl _
    rw [o.after_snoc] at hkept
    rw [hpast, o.after_snoc]
    rcases hway.resumed (o.after es).desk.controller (o.after es).desk.store with ⟨stage, hgo, -⟩ | ⟨_, hres, hparted⟩
    · cases hnext.trans hgo
    · cases hnext.trans hres
      exact ⟨hparted, hsevered.vacant hkept⟩
  · obtain ⟨text, hpost⟩ := htoast _ rfl
    obtain rfl := Cause.eq_changes hpost
    cases hnext

theorem Opening.ends (idle : (o.after es).desk.controller.gate = .idle)
    (connected : (o.after es).desk.controller.state = .connected) (hparts : parts command = true)
    (stands : (o.after es).desk.plan n = some (errand, .begun command)) : o.Ends es n := by
  obtain ⟨⟨first, hbegun⟩, hfinds, hlooks⟩ := Opening.finds_session idle connected hparts stands
  have begun {es' : List Event} (hmore : es ++ [.move n] <+: es') : .begun n errand first ∈ (o.after es').past :=
    (o.past_mono ((List.prefix_append es [.move n]).trans hmore)).subset hbegun
  have found {es' : List Event} (hmore : es ++ [.move n] <+: es') :
      .resumed n (.begins command) (.go (.reading .stopChannel)) ∈ (o.after es').past :=
    (o.past_mono hmore).subset (o.mem_past_of_occurs es hfinds)
  constructor
  case returned =>
    intro es' e cause result hmore hdone
    exact Opening.parted_of_done (begun hmore) (found hmore) hdone
  case able =>
    intro es' hmore
    rcases (o.course es' (begun hmore)).parting (mem_own.mpr ⟨found hmore, rfl⟩) with
      ⟨post, hentry, hway⟩ | ⟨⟨cause, result, hdone⟩, -⟩
    · exact .inr (o.finishes_of_holds es' hentry hway.holdsGate)
    · exact .inl ⟨cause, result, (mem_own.mp hdone).1⟩
  case answered =>
    intro answer
    obtain ⟨looking, hlooking, hsame, hx⟩ := o.gets_in _ hlooks rfl
    have hgone := o.goneOn looking (hsame.plan.trans hlooks) hx
    obtain ⟨asked, hasked, -, hplan, hhears⟩ := o.hears_of_sending _ hgone.plan answer
    obtain ⟨es', cause, result, hfinish, hdone⟩ := o.finishes_of_hears asked rfl hplan hhears
    have hmore : es ++ [.move n] <+: es' :=
      ((hlooking.trans (List.prefix_append ..)).trans (hasked.trans (List.prefix_append ..))).trans hfinish
    have hheard := (o.past_mono hfinish).subset (o.mem_past_of_occurs asked hhears)
    -- The answer that it heard is the one that its result is made of.
    obtain ⟨⟨_, other, -, -, only, rfl, -, -⟩, -⟩ := Opening.parted_of_done (begun hmore) (found hmore) hdone
    have hlater := (o.past_mono (List.prefix_append es' [.move n])).subset hheard
    obtain ⟨-, rfl⟩ := only _ _ _ (mem_own.mpr ⟨hlater, rfl⟩)
    exact ⟨es', _, _, cause, hmore, hheard, hdone⟩

end Run

/-! ## With the answer there at once -/

/-- The store once the session is over and the user told. -/
def partedStore (s : Store) (answer : Answer) : Store :=
  s.after (.setAgentConnected false :: (partingToasts answer).map .notify)

section AtOnce

variable {server : Server} {c : Controller} {s : Store} {command : Command} {answer : Answer}

theorem passes_parting (hparts : parts command = true) (idle : c.gate = .idle) (connected : c.state = .connected)
    (hkeeps : ¬ server.keeps .stop = true) (hscript : server.stop = ⟨answer, 0⟩) :
    Passes server 5 (.begins command) c s
      { controller := c.tearDown.release
        store := partedStore s answer
        calls := [.stop s.identity.channel]
        result := .outcome (farewell answer) } := by
  have hbegin : (Cause.begins command).next c s = ({ c with gate := .inFlight }, .go (.reading .stopChannel)) :=
    begin_of_parts hparts idle connected
  have hlook : (Cause.looks .stopChannel).next { c with gate := .inFlight } s =
      ({ c with gate := .inFlight }, .go (.calling (.stop s.identity.channel))) := rfl
  have hstage : prompt? server (.calling (.stop s.identity.channel)) =
      some (.hears (.stop s.identity.channel) answer) := by
    simp [prompt?, Server.script, Wire.Request.kind, hscript, hkeeps]
  cases answer with
  | error e =>
    have hhears : (Cause.hears (.stop s.identity.channel) (.error e)).next { c with gate := .inFlight } s =
        ({ c.tearDown with gate := .inFlight }, .go (.writing (.teardown (.failed e)))) := rfl
    exact .goes hbegin rfl (.goes hlook hstage (.goes hhears rfl (.returns rfl)))
  | ok r =>
    have hhears : (Cause.hears (.stop s.identity.channel) (.ok r)).next { c with gate := .inFlight } s =
        ({ c.tearDown with gate := .inFlight }, .go (.writing (.teardown .stopped))) := rfl
    exact .goes hbegin rfl (.goes hlook hstage (.goes hhears rfl (.goes rfl rfl (.returns rfl))))

end AtOnce

/-! ## Every session -/

/-- How matters stand when a session can be ended. -/
structure Opening.Endable (o : Opening) (es : List Event) : Prop where
  ends : ∀ n errand command, parts command = true →
    (o.after es).desk.plan n = some (errand, .begun command) → o.Ends es n
  /-- With nobody at the store and the answer there at once, a command ends it in its first turn. -/
  at_once : ∀ name command answer, parts command = true → (o.after es).desk.lock = {} →
    ¬ (o.after es).desk.server.keeps .stop = true → (o.after es).desk.server.stop = ⟨answer, 0⟩ →
    ∃ d', ((o.after es).desk.begin (.command name) command).turn (.task (o.after es).desk.begun) = d' ∧
      d'.calls = (o.after es).desk.calls ++ [.stop (o.after es).desk.store.identity.channel] ∧
      d'.finished = (o.after es).desk.finished ++ [(name, .outcome (farewell answer))] ∧
      d'.store = partedStore (o.after es).desk.store answer ∧ d'.Vacant

/-- After any events that leave the gate free and a session: an action that is to end the session does so, whatever the
server answers and whatever happens meanwhile. -/
theorem parting_after (o : Opening) (es : List Event) (idle : (o.after es).desk.controller.gate = .idle)
    (connected : (o.after es).desk.controller.state = .connected) : o.Endable es := by
  constructor
  case ends =>
    intro n errand command hparts stands
    exact Opening.ends idle connected hparts stands
  case at_once =>
    intro name command answer hparts hfree hkeeps hscript
    have hpassed := turn_of_passes (o.orderly es) name (by decide) hfree
      (passes_parting hparts idle connected hkeeps hscript)
    refine ⟨_, rfl, hpassed.calls, hpassed.finished, hpassed.store, Severed.vacant ?_ hpassed.kept⟩
    rw [hpassed.controller, hpassed.store]
    refine ⟨rfl, rfl, rfl, rfl, ?_⟩
    cases answer <;> rfl

/-- A session has been started, and somebody is about to end it. -/
def startedThenEnding : List Event := alone 0 .connect 6 ++ [.begin .lookout .disconnect]

/-- The server cannot be reached any more, and the session is over all the same. -/
theorem parting_of_unreachable_server :
    (furnished.after startedThenEnding).desk.controller.gate = .idle ∧
      (furnished.after startedThenEnding).desk.controller.state = .connected ∧
      ∃ es cause, startedThenEnding ++ [.move 1] <+: es ∧
        (furnished.after es).desk.occurs (.move 1) =
          some (.resumed 1 cause (.done (.outcome (.error (.api (.request "timed out")))))) ∧
        (furnished.after (es ++ [.move 1])).desk.Vacant := by
  have idle : (furnished.after startedThenEnding).desk.controller.gate = .idle := rfl
  have connected : (furnished.after startedThenEnding).desk.controller.state = .connected := rfl
  have ending : furnished.Ends startedThenEnding 1 :=
    (parting_after furnished startedThenEnding idle connected).ends 1 .lookout .disconnect rfl rfl
  obtain ⟨es, _, _, cause, hmore, -, hdone⟩ := ending.answered (.error (.request "timed out"))
  exact ⟨idle, connected, es, cause, hmore, hdone, (ending.returned es (.move 1) cause _ hmore hdone).2⟩

end AgentDesk.Desk
