import AgentDesk.Proofs.Desk.Turn
import AgentDesk.Proofs.Session.Alternation
import AgentDesk.Proofs.Session.Course

/-! # What a check for a running session does

A check reads the store's channel, pings it, and makes one attempt to adopt what answers. The attempt has three
parts: the answer is taken up, the store is looked at once more, and the session is adopted. The gate is the check's
own from the first part to the last, so nobody else changes the state in between, and with nobody at the store the
three parts are one turn (`turn_check`). Everything else that a check does leaves the controller and the store as
they are (`guarded_after`). -/
namespace AgentDesk.Desk
open Session Function

/-! ## The way of a check -/

/-- How far a check has come, and where it stands then. -/
inductive Checking (n : Nat) (errand : Errand) : List Occurrence → Post → Prop
  | begun : Checking n errand [.begun n errand .check] (.begun .check)
  | reads {past : List Occurrence} (before : Checking n errand past (.begun .check)) :
      Checking n errand (past ++ [.resumed n (.begins .check) (.go (.reading .pingChannel))])
        (.within (.reading .pingChannel))
  | asks {past : List Occurrence} (channel : String)
      (before : Checking n errand past (.within (.reading .pingChannel))) :
      Checking n errand (past ++ [.resumed n (.looks .pingChannel) (.go (.calling (.ping channel)))])
        (.sending (.ping channel))
  | waits {past : List Occurrence} {channel : String} (before : Checking n errand past (.sending (.ping channel))) :
      Checking n errand (past ++ [.sent (.task n) (.ping channel)]) (.within (.calling (.ping channel)))
  | takes {past : List Occurrence} {channel : String} (answer : Answer)
      (before : Checking n errand past (.within (.calling (.ping channel)))) :
      Checking n errand
        (past ++ [.resumed n (.hears (.ping channel) answer) (.go (.reading (.currentChannel channel)))])
        (.within (.reading (.currentChannel channel)))
  | adopts {past : List Occurrence} {channel : String}
      (before : Checking n errand past (.within (.reading (.currentChannel channel)))) :
      Checking n errand (past ++ [.resumed n (.looks (.currentChannel channel)) (.go (.writing (.adopted channel)))])
        (.within (.writing (.adopted channel)))

/-- All that the record tells of a check that is about to adopt a session. -/
def adoptionPath (n : Nat) (errand : Errand) (channel : String) (answer : Answer) : List Occurrence :=
  [.begun n errand .check,
   .resumed n (.begins .check) (.go (.reading .pingChannel)),
   .resumed n (.looks .pingChannel) (.go (.calling (.ping channel))),
   .sent (.task n) (.ping channel),
   .resumed n (.hears (.ping channel) answer) (.go (.reading (.currentChannel channel))),
   .resumed n (.looks (.currentChannel channel)) (.go (.writing (.adopted channel)))]

/-- What a check goes on with, at any point of its way. -/
inductive CheckCause : Cause → Prop
  | begins : CheckCause (.begins .check)
  | reads : CheckCause (.looks .pingChannel)
  | hears (channel : String) (answer : Answer) : CheckCause (.hears (.ping channel) answer)
  | looks (channel : String) : CheckCause (.looks (.currentChannel channel))
  | adopts (channel : String) : CheckCause (.changes (.adopted channel))

section Way

variable {n : Nat} {errand : Errand} {past : List Occurrence}

theorem Checking.path {channel : String} (h : Checking n errand past (.within (.writing (.adopted channel)))) :
    ∃ answer, past = adoptionPath n errand channel answer := by
  obtain _ | _ | _ | _ | _ | ⟨_ | _ | _ | _ | ⟨answer, _ | _ | _ | ⟨_ | _ | ⟨_, _ | ⟨_ | _⟩⟩⟩⟩⟩ := h
  exact ⟨answer, rfl⟩

theorem Checking.cause {cause : Cause} (h : Checking n errand past cause.post) : CheckCause cause := by
  generalize hpost : cause.post = post at h
  cases cause with
  | begins command =>
    cases hpost
    cases h
    exact .begins
  | looks r =>
    cases hpost
    cases h with
    | reads before => exact .reads
    | takes answer before => exact .looks _
  | changes w =>
    cases hpost
    cases h
    exact .adopts _
  | hears request answer =>
    cases hpost
    cases h
    exact .hears _ answer

end Way

/-- Where a check that goes on comes to, the adoption apart: to a post further on, or to its end. In both cases at
most the gate has changed hands. -/
inductive CheckStep (c : Controller) (s : Store) : Cause → Controller × Next → Prop
  | begins : CheckStep c s (.begins .check) (c, .go (.reading .pingChannel))
  | blank (blank : Text.isBlankText s.identity.channel = true) :
      CheckStep c s (.looks .pingChannel) (c, .done (.adoption (.ok false)))
  | asks (visible : Text.isBlankText s.identity.channel = false) :
      CheckStep c s (.looks .pingChannel) (c, .go (.calling (.ping s.identity.channel)))
  | dropped (channel : String) {answer : Answer} (adopted : Except Error Bool) (not : ¬ TakesUp c answer)
      (errs : ∀ error, adopted = .error error ↔ ∃ e, answer = .error e ∧ error = .api e) :
      CheckStep c s (.hears (.ping channel) answer) (c, .done (.adoption adopted))
  | takes (channel : String) {answer : Answer} (up : TakesUp c answer) :
      CheckStep c s (.hears (.ping channel) answer)
        ({ c with gate := .inFlight }, .go (.reading (.currentChannel channel)))
  | same {channel : String} (same : s.identity.channel = channel) :
      CheckStep c s (.looks (.currentChannel channel)) (c, .go (.writing (.adopted channel)))
  | moved {channel : String} (moved : s.identity.channel ≠ channel) :
      CheckStep c s (.looks (.currentChannel channel)) (c.release, .done (.adoption (.ok false)))
  | adopts (channel : String) :
      CheckStep c s (.changes (.adopted channel))
        ((c.markConnected channel).release, .done (.adoption (.ok true)))

theorem afterPing_of_dropped {c : Controller} (channel : String) {answer : Answer} (h : ¬ TakesUp c answer) :
    ∃ adopted, afterPing c channel answer = (c, .done (.adoption adopted)) ∧
      ∀ error, adopted = .error error ↔ ∃ e, answer = .error e ∧ error = .api e := by
  obtain ⟨adopted, hdone⟩ := afterPing_of_not_takesUp channel h
  refine ⟨adopted, hdone, fun error => ?_⟩
  cases answer with
  | error e =>
    cases hdone
    refine ⟨fun he => ?_, fun he => ?_⟩
    · cases he
      exact ⟨e, rfl, rfl⟩
    · obtain ⟨e', he', rfl⟩ := he
      cases he'
      rfl
  | ok r =>
    have hok : ∃ b, adopted = .ok b := by
      have hnext := congrArg Prod.snd hdone
      unfold afterPing at hnext
      dsimp only at hnext
      repeat' split at hnext
      all_goals cases hnext
      all_goals exact ⟨_, rfl⟩
    obtain ⟨b, rfl⟩ := hok
    simp

theorem CheckCause.step {cause : Cause} (h : CheckCause cause) (c : Controller) (s : Store) :
    CheckStep c s cause (cause.next c s) := by
  cases h with
  | begins => exact .begins
  | reads =>
    simp only [Cause.next, Reading.resume]
    split
    · next hb => exact .blank hb
    · next hb => exact .asks (Bool.not_eq_true _ ▸ hb)
  | hears channel answer =>
    by_cases hup : TakesUp c answer
    · have hnext : (Cause.hears (.ping channel) answer).next c s = _ := afterPing_of_takesUp channel hup
      rw [hnext]
      exact .takes channel hup
    · obtain ⟨adopted, hnext, herr⟩ := afterPing_of_dropped channel hup
      have hnext : (Cause.hears (.ping channel) answer).next c s = _ := hnext
      rw [hnext]
      exact .dropped channel adopted hup herr
  | looks channel =>
    simp only [Cause.next, Reading.resume]
    split
    · next hs => exact .same hs
    · next hs => exact .moved hs
  | adopts channel => exact .adopts channel

theorem Course.checking {n : Nat} {errand : Errand} {past : List Occurrence} {entry : Option (Errand × Post)}
    (h : Course n errand .check past entry) : ∀ post, entry = some (errand, post) → Checking n errand past post := by
  induction h with
  | begun =>
    intro post hpost
    cases hpost
    exact .begun
  | chosen c before ih =>
    intro post hpost
    cases hpost
    cases ih _ rfl
    exact .begun
  | sent before ih =>
    intro post hpost
    cases hpost
    have hsending := ih _ rfl
    generalize hs : Post.sending _ = at_ at hsending
    cases hsending with
    | asks channel hb =>
      cases hs
      exact .waits (.asks channel hb)
    | _ => cases hs
  | resumed cause c s before ih =>
    intro post hpost
    have hstood := ih _ rfl
    have hstep := hstood.cause.step c s
    generalize hnext : cause.next c s = next at hstep hpost
    cases hstep with
    | begins => cases hpost; exact .reads hstood
    | asks visible => cases hpost; exact .asks _ hstood
    | takes channel up => cases hpost; exact .takes _ hstood
    | same hs => cases hpost; exact .adopts hstood
    | blank hb => cases hpost
    | dropped channel adopted hnot herr => cases adopted <;> cases hpost
    | moved hm => cases hpost
    | adopts channel => cases hpost

/-! ## An answer that is processed at once -/

/-- A check is over. -/
theorem follow_adoption (d : Desk) (t : Task) (c : Controller) (adopted : Except Error Bool) :
    ∃ d', d.follow t (c, .done (.adoption adopted)) = (d', none) ∧ d'.controller = c ∧
      d'.probes = (d.setController c).probes ∧ d'.store = d.store := by
  have hstore : (d.setController c).store = d.store := by
    obtain ⟨probes, ready, hd⟩ := setController_frame d c
    rw [hd]
  obtain ⟨n, errand, position⟩ := t
  cases errand <;> exact ⟨_, rfl, controller_setController d c, rfl, hstore⟩

section Attempt

variable {d : Desk} {t : Task} {channel : String}

theorem runTask_adopts (hkept : d.Kept) (hpos : t.position = .writing (.adopted channel) .ready)
    (hwrite : d.lock.admits .write = true) (moves : Nat) :
    (runTask (moves + 1) d t).controller = (d.controller.markConnected channel).release ∧
      (runTask (moves + 1) d t).probes = d.probesUnder (d.controller.markConnected channel) ∧
      (runTask (moves + 1) d t).store = d.store.dispatch (.setAgentConnected true) := by
  have hstep := stepTask_of_changes hpos hwrite
  have hkept' : Kept { d with store := d.store.dispatch (Writing.adopted channel).action } := hkept
  obtain ⟨d', hdone, hc, hp, hs⟩ := follow_adoption
    { d with store := d.store.dispatch (Writing.adopted channel).action } t
    (d.controller.markConnected channel).release (.ok true)
  rw [runTask_of_none (hstep.trans hdone)]
  exact ⟨hc, hp.trans (hkept'.probes_setController _), hs⟩

theorem runTask_confirms (hkept : d.Kept) (hpos : t.position = .reading (.currentChannel channel) .ready)
    (hread : d.lock.admits .read = true) (hwrite : d.lock.admits .write = true) (moves : Nat) :
    (d.store.identity.channel = channel →
        (runTask (moves + 2) d t).controller = (d.controller.markConnected channel).release ∧
          (runTask (moves + 2) d t).probes = d.probesUnder (d.controller.markConnected channel) ∧
          (runTask (moves + 2) d t).store = d.store.dispatch (.setAgentConnected true)) ∧
      (d.store.identity.channel ≠ channel →
        (runTask (moves + 2) d t).controller = d.controller.release ∧ (runTask (moves + 2) d t).probes = d.probes ∧
          (runTask (moves + 2) d t).store = d.store) := by
  have hstep := stepTask_of_looks hpos hread
  simp only [Reading.resume] at hstep
  refine ⟨fun hsame => ?_, fun hmoved => ?_⟩
  · rw [if_pos hsame, follow_go _ rfl] at hstep
    rw [runTask_of_some hstep]
    exact runTask_adopts hkept rfl hwrite moves
  · obtain ⟨d', hdone, hc, hp, hs⟩ := follow_adoption d t d.controller.release (.ok false)
    rw [if_neg hmoved] at hstep
    rw [runTask_of_none (hstep.trans hdone)]
    exact ⟨hc, hp.trans ((hkept.probes_setController _).trans (probesUnder_of_same rfl)), hs⟩

/-- A check that processes its answer while nobody is at the store does so in one turn: it adopts the session if the
answer is taken up and the store still has the channel, and otherwise leaves the controller and the store alone. -/
theorem turn_check {answer : Answer} (hd : d.Orderly) (ht : t ∈ d.tasks)
    (hc : d.cause? t = some (.hears (.ping channel) answer)) (hfree : d.lock = {}) :
    (TakesUp d.controller answer ∧ d.store.identity.channel = channel →
        (d.turn (.task t.number)).controller = d.controller.markConnected channel ∧
          (d.turn (.task t.number)).probes = d.probesUnder (d.controller.markConnected channel) ∧
          (d.turn (.task t.number)).store = d.store.dispatch (.setAgentConnected true)) ∧
      (¬ (TakesUp d.controller answer ∧ d.store.identity.channel = channel) →
        (d.turn (.task t.number)).controller = d.controller ∧ (d.turn (.task t.number)).probes = d.probes ∧
          (d.turn (.task t.number)).store = d.store) := by
  have hturn : d.turn (.task t.number) = runTask (21 + 3) (d.without t.number) t :=
    turn_of_task? (hd.task?_of_mem ht)
  have hkept : (d.without t.number).Kept := hd.kept
  have hfree : (d.without t.number).lock = {} := hfree
  have hread := admits_of_free hfree .read
  have hwrite := admits_of_free hfree .write
  have hheard : (d.without t.number).stepTask t =
      (d.without t.number).follow t (afterPing d.controller channel answer) := stepTask_of_hears (d := d.without _) hc
  rw [hturn]
  by_cases hup : TakesUp d.controller answer
  · rw [afterPing_of_takesUp channel hup] at hheard
    rw [runTask_of_some (hheard.trans (follow_go _ (by rfl)))]
    have htaken : Kept { d.without t.number with controller := { d.controller with gate := .inFlight } } := hkept
    obtain ⟨hsame, hmoved⟩ := runTask_confirms
      (t := { t with position := .ofStage (.reading (.currentChannel channel)) }) htaken rfl hread hwrite 21
    refine ⟨fun hboth => ?_, fun hnot => ?_⟩
    · obtain ⟨hc', hp', hs'⟩ := hsame hboth.2
      refine ⟨hc'.trans ?_, hp', hs'⟩
      simp only [Controller.markConnected, Controller.release, hup.idle]
    · obtain ⟨hc', hp', hs'⟩ := hmoved fun he => hnot ⟨hup, he⟩
      refine ⟨hc'.trans ?_, hp', hs'⟩
      simp only [Controller.release, ← hup.idle]
  · refine ⟨fun hboth => absurd hboth.1 hup, fun _ => ?_⟩
    obtain ⟨adopted, hnext⟩ := afterPing_of_not_takesUp channel hup
    obtain ⟨d', hdone, hc', hp', hs'⟩ := follow_adoption (d.without t.number) t d.controller adopted
    rw [hnext] at hheard
    rw [runTask_of_none (hheard.trans hdone)]
    exact ⟨hc', hp'.trans ((hkept.probes_setController _).trans (probesUnder_of_same rfl)), hs'⟩

end Attempt

/-! ## Every run -/

/-- What a check that is about to adopt the session of a channel has found on its way. -/
structure Opening.Found (o : Opening) (es : List Event) (n : Nat) (channel : String) : Prop where
  path : ∃ errand answer, own n (o.after es).past = adoptionPath n errand channel answer
  read : ∃ r, o.OccursAt es r (.resumed n (.looks .pingChannel) (.go (.calling (.ping channel)))) ∧
    r.desk.store.identity.channel = channel ∧ Text.isBlankText channel = false
  taken : ∃ r answer,
    o.OccursAt es r (.resumed n (.hears (.ping channel) answer) (.go (.reading (.currentChannel channel)))) ∧
      TakesUp r.desk.controller answer
  /-- From the answer on, the gate is the check's alone. -/
  confirmed : ∃ r,
    o.OccursAt es r (.resumed n (.looks (.currentChannel channel)) (.go (.writing (.adopted channel)))) ∧
      r.desk.store.identity.channel = channel ∧ r.desk.controller.state = .disconnected ∧
        ∀ m entry, m ≠ n → r.desk.plan m = some entry → entry.2.holdsGate = false

/-- What a move of the check `n` at the end of a run does to the desk `d`. -/
structure Opening.CheckMove (o : Opening) (es : List Event) (n : Nat) (d d' : Desk) : Prop where
  adopts : d.controller.state ≠ .connected → d'.controller.state = .connected →
    ∃ channel, o.Found es n channel ∧ d'.controller = (d.controller.markConnected channel).release ∧
      d'.controller.session = none ∧
      d'.probes = [.start ⟨d.controller.probes, channel⟩ d.controller.pingIntervalMs] ∧
      d'.store = { d.store with agentConnected := true }
  keeps : ¬ (d.controller.state ≠ .connected ∧ d'.controller.state = .connected) →
    d'.store = d.store ∧ d'.probes = d.probes ∧ ∃ gate, d'.controller = { d.controller with gate := gate }
  /-- The gate is taken where the answer is taken up, and given back where the check ends. -/
  gate : d'.controller.gate = d.controller.gate ∨
    (∃ channel answer, TakesUp d.controller answer ∧ d.occurs (.move n) =
      some (.resumed n (.hears (.ping channel) answer) (.go (.reading (.currentChannel channel))))) ∨
    ∃ cause adopted, d'.controller.gate = .idle ∧
      d.occurs (.move n) = some (.resumed n cause (.done (.adoption (.ok adopted))))
  ends : ∀ cause result, d.occurs (.move n) = some (.resumed n cause (.done result)) →
    ∃ adopted, result = .adoption adopted ∧
      ∀ error, adopted = .error error ↔ ∃ channel e, cause = .hears (.ping channel) (.error e) ∧ error = .api e

section Run

variable {o : Opening} {es : List Event} {n : Nat} {errand : Errand}

theorem Course.asks {past : List Occurrence} {entry : Option (Errand × Post)}
    (h : Course n errand .check past entry) :
    ∀ request, .sent (.task n) request ∈ past →
      ∃ channel, request = .ping channel ∧ .resumed n (.looks .pingChannel) (.go (.calling (.ping channel))) ∈ past := by
  induction h with
  | begun =>
    intro request hmem
    cases List.mem_singleton.mp hmem
  | chosen c before ih => exact ih
  | sent before ih =>
    intro request hmem
    rcases List.mem_append.mp hmem with hmem | hmem
    · obtain ⟨channel, hr, hlooked⟩ := ih request hmem
      exact ⟨channel, hr, List.mem_append_left _ hlooked⟩
    · cases List.mem_singleton.mp hmem
      have hsending := before.checking _ rfl
      generalize hs : Post.sending _ = post at hsending
      cases hsending with
      | asks channel hb =>
        cases hs
        exact ⟨channel, rfl, by simp⟩
      | _ => cases hs
  | resumed cause c s before ih =>
    intro request hmem
    rcases List.mem_append.mp hmem with hmem | hmem
    · obtain ⟨channel, hr, hlooked⟩ := ih request hmem
      exact ⟨channel, hr, List.mem_append_left _ hlooked⟩
    · cases List.mem_singleton.mp hmem

theorem Opening.occursAt_of_own {x : Occurrence} (h : x ∈ own n (o.after es).past) : ∃ r, o.OccursAt es r x := by
  obtain ⟨before, after, hpast⟩ := List.append_of_mem (mem_own.mp h).1
  obtain ⟨r, hr, -⟩ := o.occursAt_of_past es hpast
  exact ⟨r, hr⟩

/-- Whoever goes on from where no check stands has begun, and is no check. -/
theorem Opening.begun_of_resumed {r : Chronicle} {cause : Cause} {next : Next}
    (h : o.OccursAt es r (.resumed n cause next)) (hcause : ¬ CheckCause cause) :
    ∃ errand command, .begun n errand command ∈ r.past ∧ command ≠ .check ∧
      Course n errand command (own n r.past) (some (errand, cause.post)) := by
  obtain ⟨early, e, rfl, st⟩ := h.step
  obtain ⟨errand, stood⟩ := st.stood_of_resumed
  have stands : (o.after early).desk.plan n = some (errand, cause.post) := stood
  obtain ⟨errand', command, hbegun⟩ := (o.told early).standing n _ stands
  have hcourse := o.course early hbegun
  rw [stands] at hcourse
  obtain rfl : errand = errand' := hcourse.errand_eq
  refine ⟨errand, command, hbegun, ?_, hcourse⟩
  rintro rfl
  exact hcause (hcourse.checking _ rfl).cause

/-- What a check that goes on meets is what the run has brought it to. -/
theorem Opening.check_resumed (hb : .begun n errand .check ∈ (o.after es).past) {cause : Cause} {next : Next}
    (hx : (o.after es).desk.occurs (.move n) = some (.resumed n cause next)) :
    Checking n errand (own n (o.after es).past) cause.post ∧
      CheckStep (o.after es).desk.controller (o.after es).desk.store cause
        (((o.after es).desk.moveTask n).controller, next) ∧
      ((o.after es).desk.moveTask n).store = cause.store (o.after es).desk.store := by
  have st := scene_perform (o.orderly es) (.move n)
  rw [hx] at st
  obtain ⟨errand', stood⟩ := st.stood_of_resumed
  obtain ⟨hnext, hc, hs⟩ := st.of_resumed
  have hcourse := o.course es hb
  have stood : (o.after es).desk.plan n = some (errand', cause.post) := stood
  rw [stood] at hcourse
  cases hcourse.errand_eq
  have hway := hcourse.checking _ rfl
  have hstep := hway.cause.step (o.after es).desk.controller (o.after es).desk.store
  have hpair : cause.next (o.after es).desk.controller (o.after es).desk.store =
      (((o.after es).desk.moveTask n).controller, next) := Prod.ext hc.symm hnext.symm
  exact ⟨hway, hpair ▸ hstep, hs⟩

theorem Opening.found {channel : String}
    (h : Checking n errand (own n (o.after es).past) (.within (.writing (.adopted channel)))) :
    o.Found es n channel := by
  obtain ⟨answer, hpath⟩ := h.path
  have hoccurs (x : Occurrence) (hx : x ∈ adoptionPath n errand channel answer) : ∃ r, o.OccursAt es r x :=
    Opening.occursAt_of_own (hpath ▸ hx)
  obtain ⟨read, hread⟩ := hoccurs (.resumed n (.looks .pingChannel) (.go (.calling (.ping channel))))
    (by simp [adoptionPath])
  obtain ⟨taken, htaken⟩ :=
    hoccurs (.resumed n (.hears (.ping channel) answer) (.go (.reading (.currentChannel channel))))
      (by simp [adoptionPath])
  obtain ⟨confirmed, hconfirmed⟩ :=
    hoccurs (.resumed n (.looks (.currentChannel channel)) (.go (.writing (.adopted channel))))
      (by simp [adoptionPath])
  refine ⟨⟨errand, answer, hpath⟩, ⟨read, hread, ?_⟩, ⟨taken, answer, htaken, ?_⟩, ⟨confirmed, hconfirmed, ?_⟩⟩
  · have hnext := hread.next_eq
    simp only [Cause.next, Reading.resume] at hnext
    split at hnext
    · cases hnext
    · next hvisible =>
      cases hnext
      exact ⟨rfl, Bool.not_eq_true _ ▸ hvisible⟩
  · by_contra hnot
    obtain ⟨_, hdone⟩ := afterPing_of_not_takesUp channel hnot
    cases htaken.next_eq.trans (congrArg Prod.snd hdone)
  · obtain ⟨early, _, hr, st⟩ := hconfirmed.step
    obtain ⟨errand', stood⟩ := st.stood_of_resumed
    obtain ⟨-, ⟨hdown, -⟩, alone⟩ := (hr ▸ custody o early : Custody confirmed.desk.scene _).holder stood rfl
    exact ⟨(Cause.finds hconfirmed.next_eq.symm).2, congrArg Signs.state hdown, alone⟩

theorem CheckStep.keeps {c : Controller} {s : Store} {cause : Cause} {next : Controller × Next}
    (h : CheckStep c s cause next) (hnot : ∀ channel, cause ≠ .changes (.adopted channel)) :
    (∃ gate, next.1 = { c with gate := gate }) ∧ cause.store s = s := by
  cases h with
  | takes channel up => exact ⟨⟨.inFlight, rfl⟩, rfl⟩
  | moved hmoved => exact ⟨⟨.idle, rfl⟩, rfl⟩
  | adopts channel => exact absurd rfl (hnot channel)
  | _ => exact ⟨⟨c.gate, rfl⟩, rfl⟩

/-- Nothing tells of a session when one is adopted. -/
theorem Opening.down_of_adopts {channel : String} {next : Next}
    (hx : (o.after es).desk.occurs (.move n) = some (.resumed n (.changes (.adopted channel)) next)) :
    (o.after es).desk.controller.state = .disconnected ∧ (o.after es).desk.controller.session = none ∧
      (o.after es).desk.controller.probe = none := by
  have st := scene_perform (o.orderly es) (.move n)
  rw [hx] at st
  obtain ⟨errand', stood⟩ := st.stood_of_resumed
  obtain ⟨-, ⟨hsigns, -⟩, -⟩ := (custody o es).holder stood rfl
  simp only [signs, Signs.down, Signs.mk.injEq, Option.map_eq_none_iff] at hsigns
  exact ⟨hsigns.1, hsigns.2.1, hsigns.2.2.1⟩

/-- Where an answer is taken up, the controller has no probe. -/
theorem Opening.unprobed_of_takesUp {answer : Answer} (up : TakesUp (o.after es).desk.controller answer) :
    (o.after es).desk.controller.probe = none :=
  ((custody o es).severed up.idle fun hc => nomatch up.disconnected.symm.trans hc).probe

theorem CheckStep.ends {c : Controller} {s : Store} {cause : Cause} {next : Controller × Next} {result : Result}
    (h : CheckStep c s cause next) (hdone : next.2 = .done result) :
    ∃ adopted, result = .adoption adopted ∧
      ∀ error, adopted = .error error ↔ ∃ channel e, cause = .hears (.ping channel) (.error e) ∧ error = .api e := by
  have hok (adopted : Bool) (hnot : ∀ channel e, cause ≠ .hears (.ping channel) (.error e)) (error : Error) :
      (Except.ok adopted : Except Error Bool) = .error error ↔
        ∃ channel e, cause = .hears (.ping channel) (.error e) ∧ error = .api e := by
    exact ⟨fun he => (nomatch he), fun ⟨channel, e, he, _⟩ => absurd he (hnot channel e)⟩
  cases h with
  | blank blank => cases hdone; exact ⟨_, rfl, hok _ nofun⟩
  | moved moved => cases hdone; exact ⟨_, rfl, hok _ nofun⟩
  | adopts channel => cases hdone; exact ⟨_, rfl, hok _ nofun⟩
  | dropped channel adopted hnot herr =>
    cases hdone
    refine ⟨adopted, rfl, fun error => (herr error).trans ⟨fun ⟨e, he, hr⟩ => ?_, fun ⟨_, e, he, hr⟩ => ?_⟩⟩
    · exact ⟨channel, e, by rw [he], hr⟩
    · cases he
      exact ⟨e, rfl, hr⟩
  | _ => cases hdone

theorem Opening.checkMove (hb : .begun n errand .check ∈ (o.after es).past) :
    o.CheckMove es n (o.after es).desk ((o.after es).desk.moveTask n) := by
  have hresumed (cause : Cause) (next : Next)
      (hx : (o.after es).desk.occurs (.move n) = some (.resumed n cause next)) := Opening.check_resumed hb hx
  have hcases := moveTask_cases (o.after es).desk n
  have hprobes := (o.orderly es).kept.probes_moveTask n
  generalize (o.after es).desk.moveTask n = d' at hresumed hcases hprobes ⊢
  refine ⟨fun hdown hup => ?_, fun hnot => ?_, ?_, fun cause result hx => ?_⟩
  · obtain ⟨cause, next, hx⟩ | ⟨hc, -⟩ := hcases
    · obtain ⟨hway, hstep, hs⟩ := hresumed cause next hx
      by_cases hadopts : ∃ channel, cause = .changes (.adopted channel)
      · obtain ⟨channel, rfl⟩ := hadopts
        have hc : d'.controller = ((o.after es).desk.controller.markConnected channel).release := by
          generalize d'.controller = c' at hstep
          cases hstep
          rfl
        obtain ⟨-, hsession, hprobe⟩ := Opening.down_of_adopts hx
        rw [hc] at hprobes
        exact ⟨channel, Opening.found hway, hc, hc ▸ hsession, hprobes.trans (probesUnder_of_new hprobe rfl), hs⟩
      · obtain ⟨⟨gate, hc⟩, -⟩ := hstep.keeps fun channel he => hadopts ⟨channel, he⟩
        exact absurd (congrArg Controller.state hc ▸ hup) hdown
    · exact absurd (hc ▸ hup) hdown
  · obtain ⟨cause, next, hx⟩ | ⟨hc, hs⟩ := hcases
    · obtain ⟨-, hstep, hs⟩ := hresumed cause next hx
      by_cases hadopts : ∃ channel, cause = .changes (.adopted channel)
      · obtain ⟨channel, rfl⟩ := hadopts
        have hdown := (Opening.down_of_adopts hx).1
        generalize d'.controller = c' at hstep hnot
        cases hstep
        exact absurd ⟨by rw [hdown]; decide, rfl⟩ hnot
      · obtain ⟨hc, hkept⟩ := hstep.keeps fun channel he => hadopts ⟨channel, he⟩
        obtain ⟨gate, hc : d'.controller = _⟩ := hc
        rw [hc] at hprobes
        exact ⟨hs.trans hkept, hprobes.trans (probesUnder_of_same rfl), gate, hc⟩
    · rw [hc] at hprobes
      exact ⟨hs, hprobes.trans (probesUnder_of_same rfl), _, hc⟩
  · obtain ⟨cause, next, hx⟩ | ⟨hc, -⟩ := hcases
    · obtain ⟨-, hstep, -⟩ := hresumed cause next hx
      generalize d'.controller = c' at hstep ⊢
      cases hstep with
      | takes channel up => exact .inr (.inl ⟨channel, _, up, hx⟩)
      | moved moved => exact .inr (.inr ⟨_, _, rfl, hx⟩)
      | adopts channel => exact .inr (.inr ⟨_, _, rfl, hx⟩)
      | _ => exact .inl rfl
    · exact .inl (congrArg Controller.gate hc)
  · exact (hresumed cause _ hx).2.1.ends rfl

theorem held_ne_none_append {past : List Occurrence} (later : List Occurrence) (h : held past ≠ none)
    (hlater : ∀ x ∈ later, x.isStop = false) : held (past ++ later) ≠ none := by
  induction later using List.reverseRecOn with
  | nil => simpa using h
  | append_singleton later x ih =>
    rw [← List.append_assoc, held_snoc, Occurrence.carry, hlater x (by simp)]
    have hkept := ih fun y hy => hlater y (List.mem_append_left _ hy)
    cases hg : x.gain? with
    | none => simpa using hkept
    | some session => simp

/-- Between two gains a stop request is sent. -/
theorem stop_between {past : List Occurrence} (h : Along InTurn past) {before between after : List Occurrence}
    {x y : Occurrence} (hpast : past = before ++ x :: between ++ y :: after) (hx : x.gain? ≠ none)
    (hxs : x.isStop = false) (hy : y.gain? ≠ none) : ∃ z ∈ between, z.isStop = true := by
  by_contra hnone
  have hnone : ∀ z ∈ between, z.isStop = false := fun z hz => by
    by_contra hstop
    exact hnone ⟨z, hz, Bool.not_eq_false _ ▸ hstop⟩
  have hgained : held (before ++ [x]) ≠ none := by
    rw [held_snoc, Occurrence.carry, hxs]
    cases hg : x.gain? with
    | none => exact absurd hg hx
    | some session => simp
  have hkept := held_ne_none_append between hgained hnone
  rw [List.append_assoc, List.singleton_append] at hkept
  exact hkept ((h (before ++ x :: between) y after (by rw [hpast])).gain hy)

end Run

/-- What is true of all checks at the end of a run. -/
structure Opening.Guarded (o : Opening) (es : List Event) : Prop where
  move : ∀ n errand, .begun n errand .check ∈ (o.after es).past →
    o.CheckMove es n (o.after es).desk ((o.after es).desk.perform (.move n))
  asks : ∀ n errand, .begun n errand .check ∈ (o.after es).past → ∀ request,
    .sent (.task n) request ∈ (o.after es).past →
      ∃ channel, request = .ping channel ∧
        .resumed n (.looks .pingChannel) (.go (.calling (.ping channel))) ∈ (o.after es).past
  at_once : ∀ t ∈ (o.after es).desk.tasks, ∀ channel answer,
    (o.after es).desk.cause? t = some (.hears (.ping channel) answer) → (o.after es).desk.lock = {} →
      (TakesUp (o.after es).desk.controller answer ∧ (o.after es).desk.store.identity.channel = channel →
        ((o.after es).desk.turn (.task t.number)).controller = (o.after es).desk.controller.markConnected channel ∧
          ((o.after es).desk.turn (.task t.number)).probes =
            [.start ⟨(o.after es).desk.controller.probes, channel⟩ (o.after es).desk.controller.pingIntervalMs] ∧
          ((o.after es).desk.turn (.task t.number)).store =
            { (o.after es).desk.store with agentConnected := true }) ∧
      (¬ (TakesUp (o.after es).desk.controller answer ∧ (o.after es).desk.store.identity.channel = channel) →
        ((o.after es).desk.turn (.task t.number)).controller = (o.after es).desk.controller ∧
          ((o.after es).desk.turn (.task t.number)).probes = (o.after es).desk.probes ∧
          ((o.after es).desk.turn (.task t.number)).store = (o.after es).desk.store)
  once : ∀ before between after n m channel channel' next next',
    (o.after es).past = before ++ .resumed n (.changes (.adopted channel)) next :: between ++
        .resumed m (.changes (.adopted channel')) next' :: after →
      ∃ x ∈ between, x.isStop = true

/-- After any events, in any order and with any answers, a check connects the controller only by adopting what it
has found at its channel, and does nothing else to the controller or the store. -/
theorem guarded_after (o : Opening) (es : List Event) : o.Guarded es := by
  refine ⟨fun n errand hb => Opening.checkMove hb, fun n errand hb request hs => ?_,
    fun t ht channel answer hc hfree => ?_,
    fun before between after n m channel channel' next next' hpast => ?_⟩
  · obtain ⟨channel, hr, hlooked⟩ := (o.course es hb).asks request (mem_own.mpr ⟨hs, rfl⟩)
    exact ⟨channel, hr, (mem_own.mp hlooked).1⟩
  · obtain ⟨hadopts, hkeeps⟩ := turn_check (o.orderly es) ht hc hfree
    refine ⟨fun hboth => ?_, hkeeps⟩
    obtain ⟨hc', hp', hs'⟩ := hadopts hboth
    exact ⟨hc', hp'.trans (probesUnder_of_new (Opening.unprobed_of_takesUp hboth.1) rfl), hs'⟩
  · have hturn : Along InTurn (o.after es).past :=
      o.along (I := fun s past => Custody s (held past)) (custody o) (fun _ _ _ _ h st => h.inTurn st) es
    exact stop_between hturn hpast nofun rfl nofun

end AgentDesk.Desk
