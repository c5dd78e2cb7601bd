import AgentDesk.Proofs.Desk.Turn
import AgentDesk.Proofs.Session.Answer
import AgentDesk.Proofs.Session.Verdict

/-! # What a start request comes to

Once its start request is answered, a connect writes what the answer comes to and returns it (`Settling`), whoever
else is at work meanwhile. So what comes of every reply that a server can give is what the reply means
(`start_reply_after`). -/
namespace AgentDesk.Desk
open Session Function

/-! ## From the answer to the result -/

/-- Where an action stands whose start request was answered: it writes what the answer comes to. -/
inductive Settling : Answer → Writing → Prop
  | started {p : Wire.Params} {r : Wire.Response} (success : r.code.isSuccess = true) : Settling (.ok r) (.started p)
  | announce {r : Wire.Response} (success : r.code.isSuccess = true) : Settling (.ok r) (.announce .connected)
  | failed (e : Wire.ApiError) : Settling (.error e) (.teardown (.failed e))
  | refused {r : Wire.Response} (refusal : ¬ r.code.isSuccess = true) :
      Settling (.ok r) (.teardown (.refused (refusalOf r)))
  | refusal {r : Wire.Response} (refusal : ¬ r.code.isSuccess = true) : Settling (.ok r) (.refusal (refusalOf r))

namespace Settling

variable {answer : Answer} {w : Writing}

theorem holdsGate (h : Settling answer w) : (Stage.writing w).holdsGate = true := by
  cases h <;> rfl

theorem of_answer (c : Controller) (p : Wire.Params) (answer : Answer) :
    ∃ w, (afterStart c p answer).2 = .go (.writing w) ∧ Settling answer w := by
  cases answer with
  | error e => exact ⟨_, rfl, .failed e⟩
  | ok r =>
    by_cases hs : r.code.isSuccess = true
    · exact ⟨.started p, by simp only [afterStart, if_pos hs], .started hs⟩
    · exact ⟨.teardown (.refused (refusalOf r)), by simp only [afterStart, if_neg hs], .refused hs⟩

/-- From there it goes on writing, or it returns the verdict on the answer. -/
theorem next (h : Settling answer w) (c : Controller) :
    (∃ w', (w.resume c).2 = .go (.writing w') ∧ Settling answer w') ∨
      (w.resume c).2 = .done (.outcome (verdict answer)) := by
  cases h with
  | started success => exact .inl ⟨_, rfl, .announce success⟩
  | announce success => exact .inr (by simp only [verdict, if_pos success]; rfl)
  | failed e => exact .inr rfl
  | refused refusal => exact .inl ⟨_, rfl, .refusal refusal⟩
  | refusal refusal => exact .inr (by simp only [verdict, if_neg refusal]; rfl)

/-- Where it returns, the controller is connected exactly if that is the verdict, and disconnected otherwise. -/
theorem state_of_done (h : Settling answer w) {held : Option Holding} {c : Controller} {s : Store} {result : Result}
    (secured : Secured held (signs c s) (.within (.writing w))) (hdone : (w.resume c).2 = .done result) :
    result = .outcome (verdict answer) ∧ Shows (w.resume c).1 (verdict answer) := by
  rcases h.next c with ⟨w', hgo, -⟩ | hverdict
  · rw [hgo] at hdone
    cases hdone
  rw [hverdict] at hdone
  cases hdone
  refine ⟨rfl, ?_⟩
  cases h with
  | started success => cases hverdict
  | refused refusal => cases hverdict
  | announce success =>
    obtain ⟨session, hup, -⟩ := secured
    have hstate : c.release.state = .connected := congrArg Signs.state hup
    rw [show verdict (.ok _) = .ok .connected from if_pos success]
    exact shows_connected hstate
  | failed e =>
    obtain ⟨⟨flag, hdown⟩, -⟩ := secured
    have hstate : c.release.state = .disconnected := congrArg Signs.state hdown
    exact shows_error hstate _
  | refusal refusal =>
    have hstate : c.release.state = .disconnected := congrArg Signs.state secured.1
    rw [show verdict (.ok _) = .error (.refused _) from if_neg refusal]
    exact shows_error hstate _

end Settling

/-- Where the answer to its start request has taken an action: it is on its way to the result, or it has returned and
at most shows a toast. -/
def AfterAnswer (n : Nat) (errand : Errand) (answer : Answer) (past : List Occurrence)
    (entry : Option (Errand × Post)) : Prop :=
  (∃ w, entry = some (errand, .within (.writing w)) ∧ Settling answer w) ∨
    (∃ cause result, .resumed n cause (.done result) ∈ past) ∧
      ∀ post, entry = some (errand, post) → ∃ text, post = .within (.writing (.toast text))

theorem AfterAnswer.resumed {n : Nat} {errand : Errand} {answer : Answer} {past : List Occurrence} {cause : Cause}
    (h : AfterAnswer n errand answer past (some (errand, cause.post))) (c : Controller) (s : Store) :
    AfterAnswer n errand answer (past ++ [.resumed n cause (cause.next c s).2])
      (nextEntry errand (cause.next c s).2) := by
  rcases h with ⟨w, hentry, hw⟩ | ⟨⟨cause', result, hdone⟩, htoast⟩
  · obtain rfl := Cause.eq_changes (congrArg Prod.snd (Option.some.inj hentry))
    rcases hw.next c with ⟨w', hgo, hw'⟩ | hdone
    · refine .inl ⟨w', ?_, hw'⟩
      rw [Cause.next, hgo]
      rfl
    · refine .inr ⟨⟨.changes w, .outcome (verdict answer), ?_⟩, fun post hpost => ?_⟩
      · rw [Cause.next, hdone]
        exact List.mem_append_right _ (List.mem_singleton_self _)
      · rw [Cause.next, hdone] at hpost
        obtain ⟨text, hentry⟩ := toast_of_done hpost
        exact ⟨text, congrArg Prod.snd hentry⟩
  · obtain ⟨text, hpost⟩ := htoast _ rfl
    obtain rfl := Cause.eq_changes hpost
    exact .inr ⟨⟨cause', result, List.mem_append_left _ hdone⟩, fun post hnone => by cases hnone⟩

theorem Course.afterAnswer {n : Nat} {errand : Errand} {command : Command} {past : List Occurrence}
    {entry : Option (Errand × Post)} (h : Course n errand command past entry) {p : Wire.Params} {answer : Answer}
    {next : Next} (hears : .resumed n (.hears (.start p) answer) next ∈ past) :
    AfterAnswer n errand answer past entry := by
  induction h with
  | begun => cases List.mem_singleton.mp hears
  | chosen c before ih =>
    rcases ih hears with ⟨w, hentry, -⟩ | ⟨-, htoast⟩
    · cases hentry
    · obtain ⟨text, hpost⟩ := htoast _ rfl
      cases hpost
  | sent before ih =>
    rcases List.mem_append.mp hears with hears | hears
    · rcases ih hears with ⟨w, hentry, -⟩ | ⟨-, htoast⟩
      · cases hentry
      · obtain ⟨text, hpost⟩ := htoast _ rfl
        cases hpost
    · cases List.mem_singleton.mp hears
  | resumed cause c s before ih =>
    rcases List.mem_append.mp hears with hears | hears
    · exact (ih hears).resumed c s
    · cases List.mem_singleton.mp hears
      obtain ⟨w, hgo, hw⟩ := Settling.of_answer c p answer
      refine .inl ⟨w, ?_, hw⟩
      rw [Cause.next, resumeCall, hgo]
      rfl

/-! ## Every run -/

section Runs

variable (o : Opening) (es : List Event) {n : Nat} {errand : Errand} {command : Command} {p : Wire.Params}
  {answer : Answer}

/-- Once its start request is answered an action has returned, or is able to. -/
theorem Opening.finishes_of_answer (begun : .begun n errand command ∈ (o.after es).past) {next : Next}
    (hears : .resumed n (.hears (.start p) answer) next ∈ (o.after es).past) :
    (∃ cause result, .resumed n cause (.done result) ∈ (o.after es).past) ∨ o.Finishes es n := by
  have hown : .resumed n (.hears (.start p) answer) next ∈ own n (o.after es).past := mem_own.mpr ⟨hears, rfl⟩
  rcases (o.course es begun).afterAnswer hown with ⟨w, hplan, hw⟩ | ⟨⟨cause, result, hdone⟩, -⟩
  · exact .inr (o.finishes es hplan hw.holdsGate)
  · exact .inl ⟨cause, result, (mem_own.mp hdone).1⟩

/-- Where an action returns whose start request was answered, it returns the verdict on the answer. -/
theorem Opening.done_of_answer (begun : .begun n errand command ∈ (o.after es).past) {next : Next}
    (hears : .resumed n (.hears (.start p) answer) next ∈ (o.after es).past) {e : Event} {cause : Cause}
    {result : Result} (hdone : (o.after es).desk.occurs e = some (.resumed n cause (.done result))) :
    result = .outcome (verdict answer) ∧ Shows (o.after (es ++ [e])).desk.controller (verdict answer) := by
  have hown : .resumed n (.hears (.start p) answer) next ∈ own n (o.after es).past := mem_own.mpr ⟨hears, rfl⟩
  have hcourse := o.course es begun
  have st := scene_perform (o.orderly es) e
  rw [hdone] at st
  obtain ⟨errand', stood⟩ := st.stood_of_resumed
  obtain ⟨hnext, hc, -⟩ := st.of_resumed
  have hplan : (o.after es).desk.plan n = some (errand', cause.post) := stood
  rw [hplan] at hcourse
  obtain rfl : errand' = errand := hcourse.errand_eq
  have hafter := hcourse.afterAnswer hown
  rw [o.after_snoc, show ((o.after es).next e).desk.controller = _ from hc]
  rcases hafter with ⟨w, hentry, hw⟩ | ⟨-, htoast⟩
  · obtain rfl := Cause.eq_changes (congrArg Prod.snd (Option.some.inj hentry))
    obtain ⟨-, secured, -⟩ := (custody o es).holder stood hw.holdsGate
    exact hw.state_of_done secured hnext.symm
  · obtain ⟨text, hpost⟩ := htoast _ rfl
    obtain rfl := Cause.eq_changes hpost
    cases hnext

end Runs

/-! ## A connect that gets its answer -/

section Answered

variable (o : Opening) (es : List Event) {n : Nat} {errand : Errand}

theorem beginConnect_of_idle {c : Controller} (idle : c.gate = .idle) (apart : c.state ≠ .connected) :
    Command.beginConnect c = ({ c with gate := .inFlight }, .go (.reading .params)) := by
  simp only [Command.beginConnect, idle, Gate.acquire?]
  exact if_neg apart

/-- A connect that comes upon a free gate and no session looks up what to start. -/
theorem Opening.connect_reads (errand : Errand) (idle : (o.after es).desk.controller.gate = .idle)
    (apart : (o.after es).desk.controller.state ≠ .connected) :
    ∃ es', es ++ [.begin errand .connect] <+: es' ∧
      (o.after es').desk.plan (o.after es).desk.begun = some (errand, (Cause.looks .params).post) ∧
      (o.after es').desk.store = (o.after es).desk.store := by
  have hbegin : (o.after (es ++ [.begin errand .connect])).desk = (o.after es).desk.begin errand .connect := by
    rw [o.after_snoc]
    rfl
  have ht : (o.after (es ++ [.begin errand .connect])).desk.task? (o.after es).desk.begun =
      some ⟨(o.after es).desk.begun, errand, .begun .connect⟩ := by
    rw [hbegin]
    exact (o.numbered es).task?_begin errand .connect
  have stands : (o.after (es ++ [.begin errand .connect])).desk.plan (o.after es).desk.begun =
      some (errand, (Cause.begins .connect).post) := by
    rw [plan, ht]
    rfl
  have hgone := o.goneOn _ stands (occurs_of_cause ht rfl)
  have hnext : (Cause.begins .connect).next (o.after es).desk.controller (o.after es).desk.store =
      ({ (o.after es).desk.controller with gate := .inFlight }, .go (.reading .params)) :=
    beginConnect_of_idle idle apart
  refine ⟨es ++ [.begin errand .connect] ++ [.move (o.after es).desk.begun], List.prefix_append .., ?_, ?_⟩
  · rw [hgone.plan, hbegin]
    exact congrArg (nextEntry errand) (congrArg Prod.snd hnext)
  · rw [hgone.store, hbegin]
    rfl

/-- Whoever finds all that a session needs sends the start request for it. -/
theorem Opening.params_sends (stands : (o.after es).desk.plan n = some (errand, (Cause.looks .params).post))
    {p : Wire.Params} (chosen : (o.after es).desk.store.params? = some p)
    (channel : Text.isBlankText p.channel = false) :
    ∃ es', es <+: es' ∧ (o.after es').desk.plan n = some (errand, .sending (.start p)) := by
  obtain ⟨es', s, hmore, hgone⟩ := o.goes_on es stands rfl rfl
  obtain ⟨notifications, hs⟩ := hgone.seen
  have hparams : s.params? = some p := by
    rw [hs]
    exact chosen
  have hnext : ((Cause.looks .params).next (o.after es).desk.controller s).2 = .go (.calling (.start p)) := by
    simp [Cause.next, Reading.resume, hparams, channel]
  refine ⟨es', hmore, ?_⟩
  rw [hgone.plan, hnext]
  rfl

/-- Whoever sends a start request can be given any answer to it and finish. -/
theorem Opening.finishes_of_sending {p : Wire.Params}
    (stands : (o.after es).desk.plan n = some (errand, .sending (.start p))) (answer : Answer) :
    ∃ es', es <+: es' ∧ .sent (.task n) (.start p) ∈ (o.after es').past ∧
      (∃ next, .resumed n (.hears (.start p) answer) next ∈ (o.after es').past) ∧ o.Finishes es' n := by
  obtain ⟨es', hmore, hsent, hplan, hhears⟩ := o.hears_of_sending es stands answer
  have hheard := o.mem_past_of_occurs es' hhears
  have hgrown := o.past_mono (List.prefix_append es' [.move n])
  exact ⟨es' ++ [.move n], hmore.trans (List.prefix_append ..), hgrown.subset hsent, ⟨_, hheard⟩,
    o.finishes_of_hears es' rfl hplan hhears⟩

/-- A connect that finds all that a session needs can be given any answer to its start request, and return. -/
theorem Opening.connect_answered (errand : Errand) (idle : (o.after es).desk.controller.gate = .idle)
    (apart : (o.after es).desk.controller.state ≠ .connected) {p : Wire.Params}
    (chosen : (o.after es).desk.store.params? = some p) (channel : Text.isBlankText p.channel = false)
    (answer : Answer) :
    ∃ es' cause result, es ++ [.begin errand .connect] <+: es' ∧
      .sent (.task (o.after es).desk.begun) (.start p) ∈ (o.after es').past ∧
      (∃ next, .resumed (o.after es).desk.begun (.hears (.start p) answer) next ∈ (o.after es').past) ∧
      (o.after es').desk.occurs (.move (o.after es).desk.begun) =
        some (.resumed (o.after es).desk.begun cause (.done result)) := by
  obtain ⟨reading, hreading, hplan, hstore⟩ := o.connect_reads es errand idle apart
  obtain ⟨sending, hsending, hplan⟩ := o.params_sends reading hplan (hstore ▸ chosen) channel
  obtain ⟨heard, hheard, hsent, ⟨next, hears⟩, es', cause, result, hmore, hdone⟩ :=
    o.finishes_of_sending sending hplan answer
  have hgrown := o.past_mono hmore
  exact ⟨es', cause, result, ((hreading.trans hsending).trans hheard).trans hmore, hgrown.subset hsent,
    ⟨next, hgrown.subset hears⟩, hdone⟩

end Answered

/-! ## A connect that is not kept waiting -/

/-- A command whose start request was answered is over; `finished` and `calls` were on the report before. -/
structure Concluded (name : String) (answer : Answer) (finished : List (String × Result)) (calls : List Wire.Request)
    (d : Desk) : Prop where
  finished : d.finished = finished ++ [(name, .outcome (verdict answer))]
  calls : d.calls = calls
  shows : Shows d.controller (verdict answer)

section AtOnce

variable {server : Server} {c : Controller} {s : Store} {p : Wire.Params} {stages : Nat}

/-- A connect that finds all that a session needs, and a server that answers at once, is soon at the answer. -/
theorem passes_connect {answer : Answer} {rest : Passage} (idle : c.gate = .idle) (apart : c.state ≠ .connected)
    (chosen : s.params? = some p) (channel : Text.isBlankText p.channel = false)
    (hkeeps : ¬ server.keeps .start = true) (hscript : server.start = ⟨answer, 0⟩)
    (hrest : Passes server stages (.hears (.start p) answer) { c with gate := .inFlight, state := .connecting } s
      rest) :
    Passes server (stages + 2) (.begins .connect) c s { rest with calls := .start p :: rest.calls } := by
  have hbegin : (Cause.begins .connect).next c s = ({ c with gate := .inFlight }, .go (.reading .params)) :=
    beginConnect_of_idle idle apart
  have hlook : (Cause.looks .params).next { c with gate := .inFlight } s =
      ({ c with gate := .inFlight, state := .connecting }, .go (.calling (.start p))) := by
    simp [Cause.next, Reading.resume, chosen, channel]
  have hstage : prompt? server (.calling (.start p)) = some (.hears (.start p) answer) := by
    simp [prompt?, Server.script, Wire.Request.kind, hscript, hkeeps]
  have hreads : Passes server (stages + 1) (.looks .params) { c with gate := .inFlight } s
      { rest with calls := .start p :: rest.calls } := .goes hlook hstage hrest
  exact .goes hbegin rfl hreads

section Answers

variable (server : Server) (c : Controller) (s : Store) (p : Wire.Params)

theorem passes_error (e : Wire.ApiError) :
    Passes server 3 (.hears (.start p) (.error e)) c s
      { controller := c.tearDown.release
        store := s.dispatch (.setAgentConnected false)
        result := .outcome (.error (.api e)) } := by
  have hnext : (Cause.hears (.start p) (.error e)).next c s =
      (c.tearDown, .go (.writing (.teardown (.failed e)))) := rfl
  exact .goes hnext rfl (.returns rfl)

theorem passes_refusal {r : Wire.Response} (hs : ¬ r.code.isSuccess = true) :
    Passes server 3 (.hears (.start p) (.ok r)) c s
      { controller := c.tearDown.release
        store := (s.dispatch (.setAgentConnected false)).dispatch (.notify (.error (refusalOf r).toast))
        result := .outcome (.error (.refused (refusalOf r))) } := by
  have hnext : (Cause.hears (.start p) (.ok r)).next c s =
      (c.tearDown, .go (.writing (.teardown (.refused (refusalOf r))))) := if_neg hs
  exact .goes hnext rfl (.goes rfl rfl (.returns rfl))

theorem passes_success {r : Wire.Response} (hs : r.code.isSuccess = true) :
    Passes server 3 (.hears (.start p) (.ok r)) c s
      { controller := ({ c with session := some p }.markConnected p.channel).release
        store := (s.dispatch (.setAgentConnected true)).dispatch (.notify (.success Transition.connected.toast))
        result := .outcome (.ok .connected) } := by
  have hnext : (Cause.hears (.start p) (.ok r)).next c s =
      ({ c with session := some p }, .go (.writing (.started p))) :=
    if_pos hs
  exact .goes hnext rfl (.goes rfl rfl (.returns rfl))

/-- Whatever the answer, what is left behind goes with the verdict on it. -/
theorem exists_passes_of_answer (answer : Answer) :
    ∃ rest, Passes server 3 (.hears (.start p) answer) c s rest ∧ rest.calls = [] ∧
      rest.result = .outcome (verdict answer) ∧ Shows rest.controller (verdict answer) := by
  cases answer with
  | error e => exact ⟨_, passes_error server c s p e, rfl, rfl, shows_error rfl _⟩
  | ok r =>
    by_cases hs : r.code.isSuccess = true
    · rw [show verdict (.ok r) = .ok .connected from if_pos hs]
      exact ⟨_, passes_success server c s p hs, rfl, rfl, shows_connected rfl⟩
    · rw [show verdict (.ok r) = .error (.refused (refusalOf r)) from if_neg hs]
      exact ⟨_, passes_refusal server c s p hs, rfl, rfl, shows_error rfl _⟩

end Answers

/-- A connect that finds the gate free, no session, nobody at the store and a server that answers at once is over in
one turn. -/
theorem turn_connect {d : Desk} (hd : d.Orderly) (name : String) (idle : d.controller.gate = .idle)
    (apart : d.controller.state ≠ .connected) (chosen : d.store.params? = some p)
    (channel : Text.isBlankText p.channel = false) (hfree : d.lock = {}) (hkeeps : ¬ d.server.keeps .start = true)
    {answer : Answer} (hscript : d.server.start = ⟨answer, 0⟩) :
    Concluded name answer d.finished (d.calls ++ [.start p])
      ((d.begin (.command name) .connect).turn (.task d.begun)) := by
  obtain ⟨rest, hrest, hcalls, hresult, hshows⟩ := exists_passes_of_answer d.server
    { d.controller with gate := .inFlight, state := .connecting } d.store p answer
  have hpasses := passes_connect idle apart chosen channel hkeeps hscript hrest
  have hpassed := turn_of_passes hd name (by decide) hfree hpasses
  refine ⟨?_, ?_, ?_⟩
  · rw [hpassed.finished, hresult]
  · rw [hpassed.calls, hcalls]
  · rw [hpassed.controller]
    exact hshows

end AtOnce

/-! ## Every reply -/

/-- What becomes of a connect that is begun at the end of a run, by the reply to its start request. -/
structure Opening.Settled (o : Opening) (es : List Event) (errand : Errand) (p : Wire.Params)
    (client : Http.Client Id) (base : String) : Prop where
  /-- It can send its start request, be given any answer and return. -/
  returns : ∀ answer, ∃ es' cause result, es ++ [.begin errand .connect] <+: es' ∧
    .sent (.task (o.after es).desk.begun) (.start p) ∈ (o.after es').past ∧
    (∃ next, .resumed (o.after es).desk.begun (.hears (.start p) answer) next ∈ (o.after es').past) ∧
    (o.after es').desk.occurs (.move (o.after es).desk.begun) =
      some (.resumed (o.after es).desk.begun cause (.done result))
  /-- However the run has gone on, with the answer in it has returned or is able to. -/
  able : ∀ es' q answer next, es ++ [.begin errand .connect] <+: es' →
    .resumed (o.after es).desk.begun (.hears (.start q) answer) next ∈ (o.after es').past →
    (∃ cause result, .resumed (o.after es).desk.begun cause (.done result) ∈ (o.after es').past) ∨
      o.Finishes es' (o.after es).desk.begun
  /-- However the run has gone on, where it returns it returns what the reply means, and the controller shows it. -/
  means : ∀ es' requestId q status body next e cause result, es ++ [.begin errand .connect] <+: es' →
    Replied client base requestId q status body →
    .resumed (o.after es).desk.begun (.hears (.start q) (client.exchange base requestId (.start q)).run) next ∈
      (o.after es').past →
    (o.after es').desk.occurs e = some (.resumed (o.after es).desk.begun cause (.done result)) →
    ∃ came, result = .outcome came ∧ ReplyMeans client status body came ∧
      Shows (o.after (es' ++ [e])).desk.controller came
  /-- With nobody at the store and the reply there at once, it returns in its first turn. -/
  at_once : ∀ name requestId status body, Replied client base requestId p status body →
    (o.after es).desk.lock = {} → ¬ (o.after es).desk.server.keeps .start = true →
    (o.after es).desk.server.start = ⟨(client.exchange base requestId (.start p)).run, 0⟩ →
    ∃ came d', ReplyMeans client status body came ∧
      ((o.after es).desk.begin (.command name) .connect).turn (.task (o.after es).desk.begun) = d' ∧
      d'.calls = (o.after es).desk.calls ++ [.start p] ∧
      d'.finished = (o.after es).desk.finished ++ [(name, .outcome came)] ∧ Shows d'.controller came

/-- After any events that leave the gate free, no session, and all chosen that a session needs: a connect returns what
the reply to its start request means, whatever the status and the body. -/
theorem start_reply_after (o : Opening) (es : List Event) (errand : Errand) (client : Http.Client Id)
    (base : String) {p : Wire.Params} (idle : (o.after es).desk.controller.gate = .idle)
    (disconnected : (o.after es).desk.controller.state = .disconnected)
    (chosen : (o.after es).desk.store.params? = some p) (channel : Text.isBlankText p.channel = false) :
    o.Settled es errand p client base := by
  have begun (es' : List Event) (hmore : es ++ [.begin errand .connect] <+: es') :
      .begun (o.after es).desk.begun errand .connect ∈ (o.after es').past := by
    have hbegun := o.mem_past_of_occurs es (e := .begin errand .connect) rfl
    exact (o.past_mono hmore).subset hbegun
  have apart : (o.after es).desk.controller.state ≠ .connected := by
    rw [disconnected]
    decide
  refine ⟨fun answer => ?_, fun es' q answer next hmore hears => ?_,
    fun es' requestId q status body next e cause result hmore hreplied hears hdone => ?_,
    fun name requestId status body hreplied hfree hkeeps hscript => ?_⟩
  · exact o.connect_answered es errand idle apart chosen channel answer
  · exact o.finishes_of_answer es' (begun es' hmore) hears
  · obtain ⟨hresult, hshows⟩ := o.done_of_answer es' (begun es' hmore) hears hdone
    exact ⟨_, hresult, hreplied.means, hshows⟩
  · have h := turn_connect (o.orderly es) name idle apart chosen channel hfree hkeeps hscript
    exact ⟨_, _, hreplied.means, rfl, h.calls, h.finished, h.shows⟩

/-! ## A server that starts every session -/

def envelope : String := "\x7b\"code\":0\x7d"

/-- It requests every URL, and the envelope comes with success whatever is posted. -/
def welcome : Http.Client Id where
  refusal? _ := none
  send _ := { delivery := .reply ⟨200, .ok envelope⟩ }
  wording _ _ := "no envelope"

def offered : Wire.Params := ⟨"room-1", 0, "va_openai_azure", .english, .male⟩

/-- The first connect at a furnished desk can be started by such a reply, and leaves a session behind. -/
theorem connected_by_welcome :
    Replied welcome "http://agent" "request-1" offered 200 envelope ∧
      ∃ es cause, [.begin .lookout .connect] <+: es ∧
        .sent (.task 0) (.start offered) ∈ (furnished.after es).past ∧
        (furnished.after es).desk.occurs (.move 0) =
          some (.resumed 0 cause (.done (.outcome (.ok .connected)))) ∧
        (furnished.after (es ++ [.move 0])).desk.controller.state = .connected := by
  have hreplied : Replied welcome "http://agent" "request-1" offered 200 envelope := ⟨rfl, rfl⟩
  have settled : furnished.Settled [] .lookout offered welcome "http://agent" :=
    start_reply_after furnished [] .lookout welcome "http://agent" rfl rfl rfl (by decide)
  obtain ⟨es, cause, result, hmore, hsent, ⟨next, hears⟩, hdone⟩ :=
    settled.returns (welcome.exchange "http://agent" "request-1" (.start offered)).run
  obtain ⟨came, rfl, hmeans, hshows⟩ :=
    settled.means es "request-1" offered 200 envelope next (.move 0) cause result hmore hreplied hears hdone
  have hcame : came = .ok .connected := hmeans.connected.mpr ⟨by decide, ⟨.number 0, none, none⟩, rfl, .inl rfl⟩
  subst hcame
  exact ⟨hreplied, es, cause, hmore, hsent, hdone, hshows.connected.mpr rfl⟩

end AgentDesk.Desk
