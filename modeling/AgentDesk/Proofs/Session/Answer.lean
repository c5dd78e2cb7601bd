import AgentDesk.Proofs.Session.Progress
import Mathlib.Data.Fintype.Order

/-! # Whoever has asked can be answered

A request that is kept may be let go, one whose answer takes its time is answered in time, and the answer is what the
server then has: so whoever has a request under way can be given any answer to it (`Opening.hears`). With what is
known of the store that makes every action that holds the gate one that can finish (`Opening.finishes_of_holds`). -/
namespace AgentDesk.Desk
open Session Function

/-! ## Nobody is kept waiting -/

/-- The server lets go all that it keeps, and every timer strikes that was set before the instant. -/
def clearing (instant : Nat) : List Event := [.release .start, .release .stop, .release .ping, .strike instant]

theorem server_release (d : Desk) (kind : Wire.RequestKind) : (d.release kind).server = (d.server.release kind).1 :=
  (lists_wakeAll _ _).2.1

theorem keptTasks_clearing (d : Desk) (instant : Nat) : keptTasks ((clearing instant).foldl perform d) = [] := by
  have hserver : ((clearing instant).foldl perform d).server =
      ((((d.server.release .start).1).release .stop).1.release .ping).1 := by
    have hstrike (d' : Desk) : (d'.strike instant).server = d'.server := (lists_wakeAll _ _).2.1
    simp only [clearing, List.foldl_cons, List.foldl_nil, perform, hstrike, server_release]
  rw [keptTasks, hserver]
  have hnobody : ((((d.server.release .start).1).release .stop).1.release .ping).1.kept = [] := by
    simp only [Server.release, List.filter_filter, List.filter_eq_nil_iff]
    rintro ⟨kind, caller⟩ -
    cases kind <;> simp
  rw [hnobody, List.filterMap_nil]

theorem exists_timedTasks_clearing (d : Desk) : ∃ instant, timedTasks ((clearing instant).foldl perform d) = [] := by
  obtain ⟨instant, hall⟩ := (d.timers.map (·.due)).toFinset.exists_le
  refine ⟨instant, ?_⟩
  have hrelease (d' : Desk) (kind : Wire.RequestKind) : (d'.release kind).timers = d'.timers := (lists_wakeAll _ _).2.2
  have hstrike (d' : Desk) : (d'.strike instant).timers = d'.timers.filter (¬ ·.due ≤ instant) :=
    (lists_wakeAll _ _).2.2
  have hnobody : ((clearing instant).foldl perform d).timers = [] := by
    simp only [clearing, List.foldl_cons, List.foldl_nil, perform, hstrike, hrelease, List.filter_eq_nil_iff]
    intro t ht
    simp [hall t.due (by simpa using ⟨t, ht, rfl⟩)]
  rw [timedTasks, hnobody, List.filterMap_nil]

theorem script_setScript (server : Server) (kind : Wire.RequestKind) (script : Script) :
    (server.setScript kind script).script kind = script := by
  cases kind <;> rfl

section Answered

variable (o : Opening) (es : List Event) {n : Nat} {errand : Errand}

/-- What leaves nothing on the record takes nobody on who is on his way. -/
theorem Opening.plan_of_quiet {quiet : List Event} (hquiet : ∀ e ∈ quiet, ∀ d : Desk, d.occurs e = none)
    {entry : Errand × Post} (onward : ∀ command, entry.2 ≠ .begun command) :
    (o.after (es ++ quiet)).desk.plan n = some entry ↔ (o.after es).desk.plan n = some entry := by
  induction quiet using List.reverseRecOn with
  | nil => rw [List.append_nil]
  | append_singleton quiet e ih =>
    have hbefore := ih fun e' he' => hquiet e' (List.mem_append_left _ he')
    have st := scene_perform (o.orderly (es ++ quiet)) e
    rw [hquiet e (by simp)] at st
    rw [← List.append_assoc, o.after_snoc, ← hbefore]
    exact st.plan_iff_of_aside (fun y hy => by cases hy) onward

/-- Whoever waits for an answer can be given any. -/
theorem Opening.hears_of_calling {request : Wire.Request}
    (stands : (o.after es).desk.plan n = some (errand, .within (.calling request))) (answer : Answer) :
    ∃ es', es <+: es' ∧ (o.after es').desk.plan n = some (errand, (Cause.hears request answer).post) ∧
      (o.after es').desk.occurs (.move n) = some (.resumed n (.hears request answer)
        ((Cause.hears request answer).next (o.after es').desk.controller (o.after es').desk.store).2) := by
  obtain ⟨instant, htimed⟩ := exists_timedTasks_clearing (o.after es).desk
  have hkept := keptTasks_clearing (o.after es).desk instant
  obtain ⟨cleared, hcleared⟩ : ∃ c, c = es ++ clearing instant := ⟨_, rfl⟩
  have hdesk : (o.after cleared).desk = (clearing instant).foldl perform (o.after es).desk := by
    rw [hcleared, o.desk_after, o.desk_after, List.foldl_append]
  rw [← hdesk] at htimed hkept
  have hplan : (o.after cleared).desk.plan n = some (errand, .within (.calling request)) := by
    rw [hcleared, o.plan_of_quiet es ?_ fun _ h => by cases h]
    · exact stands
    · simp [clearing, occurs]
  obtain ⟨t, ht, hentry⟩ := Option.map_eq_some_iff.mp hplan
  have hpost : t.position.post = .within (.calling request) := congrArg Prod.snd hentry
  obtain ⟨progress, hpos, hready⟩ : ∃ progress, t.position = .calling request progress ∧ progress ≠ .ready := by
    cases hp : t.position with
    | calling request' progress =>
      rw [hp] at hpost
      cases progress <;> cases hpost <;> exact ⟨_, rfl, fun h => by cases h⟩
    | _ => rw [hp] at hpost; cases hpost
  have hlisted := (o.waiting cleared).iff n (.server progress)
  have hwait : (o.after cleared).desk.wait n = some (.server progress) := by rw [wait, ht, Option.bind_some, hpos]; rfl
  -- He is on no list any more, so it is his turn: what he finds is what the server has been given to answer.
  refine ⟨cleared ++ [.script request.kind ⟨answer, 0⟩], ?_, ?_, ?_⟩
  · rw [hcleared, List.append_assoc]
    exact List.prefix_append ..
  · rw [o.after_snoc]
    exact hplan
  · rw [o.after_snoc]
    have hscript : ((o.after cleared).desk.perform (.script request.kind ⟨answer, 0⟩)).server.script request.kind =
        ⟨answer, 0⟩ := script_setScript _ _ _
    refine occurs_of_cause (d := (o.after cleared).desk.perform (.script request.kind ⟨answer, 0⟩)) ht ?_
    cases progress with
    | ready => exact absurd rfl hready
    | heard => simp only [cause?, hpos, hscript, if_true]
    | answering => simp only [cause?, hpos, hscript]
    | held =>
      have hmem : n ∈ (o.after cleared).desk.keptTasks := hlisted.mpr ⟨hwait, rfl⟩
      rw [hkept] at hmem
      cases hmem
    | delayed =>
      have hmem : n ∈ (o.after cleared).desk.timedTasks := hlisted.mpr ⟨hwait, rfl⟩
      rw [htimed] at hmem
      cases hmem

theorem occurs_of_sending {d : Desk} {request : Wire.Request} (hplan : d.plan n = some (errand, .sending request)) :
    d.occurs (.move n) = some (.sent (.task n) request) := by
  obtain ⟨t, ht, hentry⟩ := Option.map_eq_some_iff.mp hplan
  obtain rfl : t.number = n := number_of_task? ht
  have hpost : t.position.post = .sending request := congrArg Prod.snd hentry
  have hpos : t.position = .calling request .ready := by
    cases hp : t.position with
    | calling request' progress =>
      rw [hp] at hpost
      cases progress <;> cases hpost
      rfl
    | _ => rw [hp] at hpost; cases hpost
  simp only [occurs, ht, Option.bind_some, occursTo, hpos]

/-- Whoever sends a request can be given any answer to it. -/
theorem Opening.hears_of_sending {request : Wire.Request}
    (stands : (o.after es).desk.plan n = some (errand, .sending request)) (answer : Answer) :
    ∃ es', es <+: es' ∧ .sent (.task n) request ∈ (o.after es').past ∧
      (o.after es').desk.plan n = some (errand, (Cause.hears request answer).post) ∧
      (o.after es').desk.occurs (.move n) = some (.resumed n (.hears request answer)
        ((Cause.hears request answer).next (o.after es').desk.controller (o.after es').desk.store).2) := by
  have hsends := occurs_of_sending stands
  have hsent := o.mem_past_of_occurs es hsends
  have hplan : (o.after (es ++ [.move n])).desk.plan n = some (errand, .within (.calling request)) := by
    have st := scene_perform (o.orderly es) (.move n)
    rw [hsends] at st
    rw [o.after_snoc]
    exact st.plan_of_sent stands
  obtain ⟨es', hmore, hplan', hhears⟩ := o.hears_of_calling _ hplan answer
  exact ⟨es', (List.prefix_append ..).trans hmore, (o.past_mono hmore).subset hsent, hplan', hhears⟩

/-! ## Whoever holds the gate can finish -/

theorem exists_writing_of_hears {request : Wire.Request} (holds : (Stage.calling request).holdsGate = true)
    (answer : Answer) (c : Controller) :
    ∃ w, (resumeCall c request answer).2 = .go (.writing w) ∧ (Stage.writing w).holdsGate = true := by
  cases request with
  | ping channel => cases holds
  | stop channel => cases answer <;> exact ⟨_, rfl, rfl⟩
  | start p =>
    cases answer with
    | error e => exact ⟨_, rfl, rfl⟩
    | ok r =>
      simp only [resumeCall, afterStart]
      split
      · exact ⟨_, rfl, rfl⟩
      · exact ⟨_, rfl, rfl⟩

/-- Whoever has heard the answer to a request with the gate in hand can finish. -/
theorem Opening.finishes_of_hears {request : Wire.Request} {answer : Answer} {next : Next}
    (holds : (Stage.calling request).holdsGate = true)
    (stands : (o.after es).desk.plan n = some (errand, (Cause.hears request answer).post))
    (hears : (o.after es).desk.occurs (.move n) = some (.resumed n (.hears request answer) next)) :
    o.Finishes (es ++ [.move n]) n := by
  have hgone := o.goneOn es stands hears
  obtain ⟨w, hgo, hw⟩ := exists_writing_of_hears holds answer (o.after es).desk.controller
  have hwriting : (o.after (es ++ [.move n])).desk.plan n = some (errand, .within (.writing w)) := by
    rw [hgone.plan, Cause.next, hgo]
    rfl
  exact o.finishes _ hwriting hw

theorem Opening.finishes_of_request {request : Wire.Request} (holds : (Stage.calling request).holdsGate = true)
    (stands : (o.after es).desk.plan n = some (errand, .sending request) ∨
      (o.after es).desk.plan n = some (errand, .within (.calling request))) : o.Finishes es n := by
  obtain stands | stands := stands
  · obtain ⟨es', hmore, -, hplan, hhears⟩ := o.hears_of_sending es stands (.ok .ok)
    exact .of_later (hmore.trans (List.prefix_append ..)) (o.finishes_of_hears es' holds hplan hhears)
  · obtain ⟨es', hmore, hplan, hhears⟩ := o.hears_of_calling es stands (.ok .ok)
    exact .of_later (hmore.trans (List.prefix_append ..)) (o.finishes_of_hears es' holds hplan hhears)

/-- Whoever holds the gate can finish, wherever he stands and whatever he waits for. -/
theorem Opening.finishes_of_holds {post : Post} (stands : (o.after es).desk.plan n = some (errand, post))
    (holds : post.holdsGate = true) : o.Finishes es n := by
  cases post with
  | begun command => cases holds
  | sending request => exact o.finishes_of_request es holds (.inl stands)
  | within stage =>
    cases stage with
    | calling request => exact o.finishes_of_request es holds (.inr stands)
    | writing w => exact o.finishes es stands holds
    | reading r =>
      have stands : (o.after es).desk.plan n = some (errand, (Cause.looks r).post) := stands
      obtain ⟨es', hmore, hsame, hx⟩ := o.gets_in es stands rfl
      have hgone := o.goneOn es' (hsame.plan.trans stands) hx
      have hgrown : es <+: es' ++ [.move n] := hmore.trans (List.prefix_append ..)
      -- What he sees sends him on with a request or to a last change, or he is done.
      cases r with
      | pingChannel => cases holds
      | stopChannel => exact .of_later hgrown (o.finishes_of_request _ rfl (.inl hgone.plan))
      | params =>
        have hplan := hgone.plan
        simp only [Cause.next, Reading.resume] at hplan
        split at hplan
        · exact .of_later hgrown (o.finishes _ hplan rfl)
        · split at hplan
          · exact .of_later hgrown (o.finishes _ hplan rfl)
          · exact .of_later hgrown (o.finishes_of_request _ rfl (.inl hplan))
      | currentChannel pinged =>
        by_cases hsame' : (o.after es').desk.store.identity.channel = pinged
        · have hplan := hgone.plan
          simp only [Cause.next, Reading.resume, if_pos hsame'] at hplan
          exact .of_later hgrown (o.finishes _ hplan rfl)
        · simp only [Cause.next, Reading.resume, if_neg hsame'] at hx
          exact ⟨es', _, _, hmore, hx⟩

end Answered

end AgentDesk.Desk
