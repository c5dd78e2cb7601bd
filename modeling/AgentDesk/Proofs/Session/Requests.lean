import AgentDesk.Proofs.Session.Check
import AgentDesk.Proofs.Session.Ledger
import AgentDesk.Proofs.Session.Progress
import AgentDesk.Proofs.Session.Started
import AgentDesk.Proofs.Session.Watch

/-! # What requests carry

A channel is looked at once, where it is taken from the store for a start request or for a check's ping; from there it
goes with the action, with the session and with the probe, and nobody looks at it again. So every such request names
a channel that shows (`Showing`). What a connect finds wanting in the store it refuses on the spot: then it sends
nothing at all. -/
namespace AgentDesk.Desk
open Session Function

/-! ## Channels on their way -/

/-- The channel that an action carries at a stage, if it was taken from the store for a start request or a ping. A stop
request carries what the store happens to say. -/
def carried? : Stage → Option String
  | .calling (.start p) => some p.channel
  | .writing (.started p) => some p.channel
  | .calling (.ping channel) => some channel
  | .reading (.currentChannel channel) => some channel
  | .writing (.adopted channel) => some channel
  | _ => none

def Post.carried? (p : Post) : Option String := p.stage?.bind Desk.carried?

theorem Post.carried?_ofStage (s : Stage) : (Post.ofStage s).carried? = Desk.carried? s := by
  cases s <;> rfl

/-- Whatever is carried along, by an action or by the probe, can be seen. -/
structure Showing (s : Scene) : Prop where
  probe : ∀ k, s.controller.probe = some k → Text.isBlankText k.channel = false
  posts : ∀ n entry, s.plan n = some entry → ∀ channel ∈ entry.2.carried?, Text.isBlankText channel = false

/-- An action goes on with the channel that it carries, with one that it has just looked at, or with none. -/
theorem Cause.carries {cause : Cause} {c : Controller} {s : Store} {stage : Stage}
    (h : ∀ channel ∈ cause.post.carried?, Text.isBlankText channel = false) (hgo : (cause.next c s).2 = .go stage) :
    ∀ channel ∈ carried? stage, Text.isBlankText channel = false := by
  cases cause with
  | begins command =>
    by_cases hc : command = .check
    · subst hc
      cases hgo
      exact fun _ h => by cases h
    · obtain ⟨outcome, hnext⟩ | hnext | hnext := begin_cases hc c
      · cases hnext.symm.trans hgo
      · cases hnext.symm.trans hgo
        exact fun _ h => by cases h
      · cases hnext.symm.trans hgo
        exact fun _ h => by cases h
  | looks r =>
    cases r with
    | params =>
      simp only [next, Reading.resume] at hgo
      split at hgo
      · cases hgo
        exact fun _ h => by cases h
      · split at hgo
        · cases hgo
          exact fun _ h => by cases h
        · next hvisible =>
          cases hgo
          intro channel hchannel
          cases hchannel
          exact Bool.not_eq_true _ ▸ hvisible
    | stopChannel =>
      cases hgo
      exact fun _ h => by cases h
    | pingChannel =>
      simp only [next, Reading.resume] at hgo
      split at hgo
      · cases hgo
      · next hvisible =>
        cases hgo
        intro channel hchannel
        cases hchannel
        exact Bool.not_eq_true _ ▸ hvisible
    | currentChannel pinged =>
      obtain ⟨_, hstage⟩ : s.identity.channel = pinged ∧ .writing (.adopted pinged) = stage := by
        simp only [next, Reading.resume] at hgo
        split at hgo
        · next hsame =>
          cases hgo
          exact ⟨hsame, rfl⟩
        · cases hgo
      subst hstage
      exact h
  | changes w =>
    cases w with
    | teardown reason => cases reason <;> cases hgo <;> exact fun _ h => by cases h
    | _ => cases hgo <;> exact fun _ h => by cases h
  | hears request answer =>
    cases request with
    | start p =>
      cases answer with
      | error e =>
        cases hgo
        exact fun _ h => by cases h
      | ok r =>
        simp only [next, resumeCall, afterStart] at hgo
        split at hgo
        · cases hgo
          exact h
        · cases hgo
          exact fun _ h => by cases h
    | stop channel => cases answer <;> cases hgo <;> exact fun _ h => by cases h
    | ping channel =>
      by_cases hup : TakesUp c answer
      · cases (congrArg Prod.snd (afterPing_of_takesUp channel hup)).symm.trans hgo
        exact h
      · obtain ⟨_, hdone⟩ := afterPing_of_not_takesUp channel hup
        cases (congrArg Prod.snd hdone).symm.trans hgo

namespace Showing

variable {s s' : Scene}

/-- A probe is started with the channel that the action carries. -/
theorem probe_of_next (h : Showing s) {cause : Cause}
    (hcarried : ∀ channel ∈ cause.post.carried?, Text.isBlankText channel = false) :
    ∀ k, (cause.next s.controller s.store).1.probe = some k → Text.isBlankText k.channel = false := by
  have hstep := cause.probeStep s.controller s.store
  intro k hk
  generalize (cause.next s.controller s.store).1 = c at hk hstep
  cases hstep with
  | keeps same apart => exact h.probe k (same.probe.symm.trans hk)
  | gains same success => exact h.probe k (same.probe.symm.trans hk)
  | fails failure => cases hk
  | stops channel answer => cases hk
  | starts q =>
    cases hk
    exact hcarried _ rfl
  | adopts channel =>
    cases hk
    exact hcarried _ rfl

theorem posts_update (h : Showing s) {n : Nat} {new : Option (Errand × Post)}
    (hnew : ∀ entry, new = some entry → ∀ channel ∈ entry.2.carried?, Text.isBlankText channel = false) :
    ∀ m entry, update s.plan n new m = some entry →
      ∀ channel ∈ entry.2.carried?, Text.isBlankText channel = false := by
  intro m entry hm
  by_cases hne : m = n
  · subst hne
    rw [update_self] at hm
    exact hnew entry hm
  · rw [update_of_ne hne] at hm
    exact h.posts m entry hm

theorem step (h : Showing s) {x : Option Occurrence} (st : s.Step x s') : Showing s' := by
  cases st with
  | quiet => exact h
  | pinged running => exact h
  | edited e => exact ⟨h.probe, h.posts⟩
  | begun fresh errand command =>
    refine ⟨h.probe, h.posts_update ?_⟩
    intro entry he
    cases he
    exact nofun
  | chosen stood =>
    refine ⟨h.probe, h.posts_update ?_⟩
    intro entry he
    cases he
    exact nofun
  | sent stood =>
    refine ⟨h.probe, h.posts_update ?_⟩
    intro entry he channel hchannel
    cases he
    exact h.posts _ _ stood channel hchannel
  | resumed cause stood =>
    have hcarried := h.posts _ _ stood
    refine ⟨h.probe_of_next hcarried, h.posts_update ?_⟩
    intro entry he
    cases hnext : (cause.next s.controller s.store).2 with
    | go stage =>
      rw [hnext] at he
      cases he
      rw [Post.carried?_ofStage]
      exact Cause.carries hcarried hnext
    | done r =>
      rw [hnext] at he
      obtain ⟨text, rfl⟩ := toast_of_done he
      exact nofun
    | closed =>
      rw [hnext] at he
      cases he

end Showing

theorem showing (o : Opening) (es : List Event) : Showing (o.after es).desk.scene :=
  o.scene_invariant (P := fun s _ => Showing s) ⟨fun _ h => (nomatch h), fun _ _ h => (nomatch h)⟩
    (fun _ _ _ _ h st => h.step st) es

/-! ## What is refused on the spot -/

/-- An action that was refused where it looked has sent nothing, and its refusal is all that it comes to. -/
theorem Course.refused {n : Nat} {errand : Errand} {command : Command} {past : List Occurrence}
    {entry : Option (Errand × Post)} (h : Course n errand command past entry) (hc : command ≠ .check)
    {refusal : Refusal} (hlooked : .resumed n (.looks .params) (.go (.writing (.refusal refusal))) ∈ past) :
    (ledger past).requests = [] ∧
      ((entry = some (errand, .within (.writing (.refusal refusal))) ∧ (ledger past).results = []) ∨
        (entry = none ∧ (ledger past).results = [.outcome (.error (.refused refusal))])) := by
  induction h with
  | begun => cases List.mem_singleton.mp hlooked
  | chosen c before ih => obtain ⟨-, ⟨hentry, -⟩ | ⟨hentry, -⟩⟩ := ih hlooked <;> cases hentry
  | sent before ih =>
    rcases List.mem_append.mp hlooked with hlooked | hlooked
    · obtain ⟨-, ⟨hentry, -⟩ | ⟨hentry, -⟩⟩ := ih hlooked <;> cases hentry
    · cases List.mem_singleton.mp hlooked
  | resumed cause c s before ih =>
    rw [ledger_snoc]
    rcases List.mem_append.mp hlooked with hlooked | hlooked
    -- The look was earlier, so it is the refusal that is written now.
    · obtain ⟨hrequests, ⟨hentry, hresults⟩ | ⟨hentry, -⟩⟩ := ih hlooked
      · obtain rfl : cause = .changes (.refusal refusal) :=
          Cause.eq_changes (congrArg Prod.snd (Option.some.inj hentry))
        refine ⟨?_, .inr ⟨rfl, ?_⟩⟩
        · rw [Ledger.enter, hrequests]
          rfl
        · rw [Ledger.enter, hresults]
          rfl
      · cases hentry
    · obtain ⟨-, rfl, hnext⟩ := Occurrence.resumed.inj (List.mem_singleton.mp hlooked)
      have hempty : ledger _ = {} := before.account hc
      rw [hempty, ← hnext]
      exact ⟨rfl, .inl ⟨rfl, rfl⟩⟩

/-- What becomes of an action that looked for what a session needs, where the next thing is to refuse it. -/
structure Opening.Refuses (o : Opening) (es : List Event) (n : Nat) (refusal : Refusal) : Prop where
  sends_nothing : ∀ request, .sent (.task n) request ∉ (o.after es).past
  result : ∀ cause result, .resumed n cause (.done result) ∈ (o.after es).past →
    result = .outcome (.error (.refused refusal))
  ends : ∃ es', es <+: es' ∧ (o.after es').desk.plan n = none ∧
    ∃ cause, .resumed n cause (.done (.outcome (.error (.refused refusal)))) ∈ (o.after es').past

/-- Whoever looks for what a session needs has begun, and is no check. -/
theorem Opening.begun_of_looks (o : Opening) (es : List Event) {n : Nat} {next : Next} {r : Chronicle}
    (h : o.OccursAt es r (.resumed n (.looks .params) next)) :
    ∃ errand command, .begun n errand command ∈ (o.after es).past ∧ command ≠ .check := by
  obtain ⟨errand, command, hbegun, hc, -⟩ := Opening.begun_of_resumed h fun hcheck => by cases hcheck
  exact ⟨errand, command, h.past_prefix.subset hbegun, hc⟩

theorem Opening.refuses (o : Opening) (es : List Event) {n : Nat} {refusal : Refusal} {r : Chronicle}
    (h : o.OccursAt es r (.resumed n (.looks .params) (.go (.writing (.refusal refusal))))) :
    o.Refuses es n refusal := by
  obtain ⟨errand, command, hbegun, hc⟩ := o.begun_of_looks es h
  obtain ⟨hrequests, hends⟩ := (o.course es hbegun).refused hc (mem_own.mpr ⟨h.mem_past, rfl⟩)
  constructor
  case sends_nothing =>
    intro request hsent
    have hmem := mem_requests hsent
    rw [hrequests] at hmem
    cases hmem
  case result =>
    intro cause result hdone
    have hmem := mem_results_iff.mpr ⟨cause, hdone⟩
    obtain ⟨-, hresults⟩ | ⟨-, hresults⟩ := hends
    · rw [hresults] at hmem
      cases hmem
    · rw [hresults] at hmem
      exact List.mem_singleton.mp hmem
  case ends =>
    obtain ⟨hplan, -⟩ | ⟨hplan, hresults⟩ := hends
    · have stands : (o.after es).desk.plan n = some (errand, (Cause.changes (.refusal refusal)).post) := hplan
      obtain ⟨es', c, s, hmore, hover, hown⟩ := o.gets_on es stands rfl
      have hdone : _ ∈ own n (o.after es').past := hown ▸ List.mem_append_right _ (List.mem_singleton_self _)
      exact ⟨es', hmore, hover, .changes (.refusal refusal), (mem_own.mp hdone).1⟩
    · exact ⟨es, List.prefix_rfl, hplan, mem_results_iff.mp (by rw [hresults]; exact List.mem_singleton_self _)⟩

theorem resume_params_of_none {c : Controller} {s : Store} (h : s.params? = none) :
    (Reading.params.resume c s).2 = .go (.writing (.refusal .noGraphSelected)) := by
  simp only [Reading.resume, h]

theorem resume_params_of_blank {c : Controller} {s : Store} {p : Wire.Params} (h : s.params? = some p)
    (hblank : Text.isBlankText p.channel = true) :
    (Reading.params.resume c s).2 = .go (.writing (.refusal .emptyChannel)) := by
  simp only [Reading.resume, h, hblank, if_true]

/-! ## Every run -/

/-- A channel with a character that can be seen. -/
def Visible (channel : String) : Prop := ∃ c ∈ channel.toList, Text.isBlank c = false

/-- What the requests of a run carry, and when none is sent. -/
structure Opening.Requested (o : Opening) (es : List Event) : Prop where
  /-- A start request was looked up by its action, in one store, before it was sent. -/
  start : ∀ before caller p after, (o.after es).past = before ++ .sent caller (.start p) :: after →
    Visible p.channel ∧ ∃ n r between, caller = .task n ∧
      o.OccursAt es r (.resumed n (.looks .params) (.go (.calling (.start p)))) ∧
      before = r.past ++ .resumed n (.looks .params) (.go (.calling (.start p))) :: between ∧
      r.desk.store.Chosen p
  /-- A check's ping as well as the probe's. -/
  ping : ∀ caller channel, .sent caller (.ping channel) ∈ (o.after es).past → Visible channel
  no_graph : ∀ r n next, o.OccursAt es r (.resumed n (.looks .params) next) →
    (∀ g ∈ r.desk.store.graphs, r.desk.store.selectedId ≠ some g.id) →
      next = .go (.writing (.refusal .noGraphSelected)) ∧ o.Refuses es n .noGraphSelected
  /-- The graph comes first: only with one is the channel looked at. -/
  empty_channel : ∀ r n next p, o.OccursAt es r (.resumed n (.looks .params) next) → r.desk.store.Chosen p →
    ¬ Visible p.channel →
      next = .go (.writing (.refusal .emptyChannel)) ∧ o.Refuses es n .emptyChannel

theorem Scene.Step.task_of_start {s s' : Scene} {caller : Caller} {p : Wire.Params}
    (st : s.Step (some (.sent caller (.start p))) s') :
    ∃ n errand, caller = .task n ∧ s.plan n = some (errand, .sending (.start p)) := by
  cases st with
  | sent stood => exact ⟨_, _, rfl, stood⟩

section Run

variable (o : Opening) (es : List Event)

theorem Opening.visible_of_sent {caller : Caller} {request : Wire.Request}
    (h : .sent caller request ∈ (o.after es).past) :
    ∀ channel ∈ Desk.carried? (.calling request), Visible channel := by
  obtain ⟨before, after, hpast⟩ := List.append_of_mem h
  obtain ⟨r, hr, -⟩ := o.occursAt_of_past es hpast
  obtain ⟨early, e, rfl, st⟩ := hr.step
  have hshowing := showing o early
  intro channel hchannel
  refine Text.isBlankText_eq_false_iff.mp ?_
  generalize ((o.after early).desk.perform e).scene = s' at st
  generalize (o.after early).desk.scene = s at st hshowing
  cases st with
  | pinged running =>
    cases hchannel
    exact hshowing.probe _ running
  | sent stood => exact hshowing.posts _ _ stood channel hchannel

theorem Opening.start_looked_up {before after : List Occurrence} {caller : Caller} {p : Wire.Params}
    (h : (o.after es).past = before ++ .sent caller (.start p) :: after) :
    ∃ n r between, caller = .task n ∧ o.OccursAt es r (.resumed n (.looks .params) (.go (.calling (.start p)))) ∧
      before = r.past ++ .resumed n (.looks .params) (.go (.calling (.start p))) :: between ∧
      r.desk.store.Chosen p := by
  obtain ⟨sending, hr, rfl⟩ := o.occursAt_of_past es h
  obtain ⟨early, e, rfl, st⟩ := hr.step
  obtain ⟨n, errand, rfl, stood⟩ := st.task_of_start
  obtain ⟨looked, between, hbefore⟩ := provenance o asked_traced early n _ stood
  rw [hbefore, List.append_assoc, List.cons_append] at h
  obtain ⟨r, hr, rfl⟩ := o.occursAt_of_past es h
  exact ⟨n, r, between, rfl, hr, hbefore, Store.params?_eq_some_iff.mp hr.finds.2⟩

end Run

/-- After any events, in any order and with any answers: a start request carries what one store had chosen, a ping
names a channel that can be seen, and a connect that lacks a graph or a channel sends nothing. -/
theorem requested_after (o : Opening) (es : List Event) : o.Requested es where
  start before caller p after h := by
    have hmem : .sent caller (.start p) ∈ (o.after es).past := by
      rw [h]
      exact List.mem_append_right _ List.mem_cons_self
    exact ⟨o.visible_of_sent es hmem _ rfl, o.start_looked_up es h⟩
  ping caller channel h := o.visible_of_sent es h channel rfl
  no_graph r n next h hnone := by
    have hnext := h.next_eq.trans (resume_params_of_none (Store.params?_eq_none_iff.mpr hnone))
    subst hnext
    exact ⟨rfl, o.refuses es h⟩
  empty_channel r n next p h hchosen hblank := by
    have hblank : Text.isBlankText p.channel = true := by
      rwa [Visible, ← Text.isBlankText_eq_false_iff, Bool.not_eq_false] at hblank
    have hnext := h.next_eq.trans (resume_params_of_blank (Store.params?_eq_some_iff.mpr hchosen) hblank)
    subst hnext
    exact ⟨rfl, o.refuses es h⟩

end AgentDesk.Desk
