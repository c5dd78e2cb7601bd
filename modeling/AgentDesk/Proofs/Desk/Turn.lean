import AgentDesk.Proofs.Desk.Step

/-! # An action that is not kept waiting

What the moves of one turn come to when there is nothing to wait for: nobody else is at the store, and the server
answers at once. -/
namespace AgentDesk.Desk
open Session

/-! ## Single moves -/

theorem stepTask_of_hears {d : Desk} {t : Task} {request : Wire.Request} {answer : Answer}
    (hc : d.cause? t = some (.hears request answer)) :
    d.stepTask t = d.follow t (resumeCall d.controller request answer) := by
  obtain ⟨n, errand, position⟩ := t
  cases position with
  | begun command => cases hc
  | reading r access =>
    cases access <;> simp only [cause?] at hc
    · split at hc <;> cases hc
    · cases hc
    · cases hc
  | writing w access =>
    cases access <;> simp only [cause?] at hc
    · split at hc <;> cases hc
    · cases hc
    · cases hc
  | calling request progress =>
    cases progress with
    | heard =>
      simp only [cause?] at hc
      split at hc
      · next hnow =>
        cases hc
        simp only [stepTask, converse, if_pos hnow]
      · cases hc
    | answering => cases hc; rfl
    | ready => cases hc
    | held => cases hc
    | delayed => cases hc

theorem admits_of_free {d : Desk} (h : d.lock = {}) (purpose : Purpose) : d.lock.admits purpose = true := by
  rw [h]
  cases purpose <;> rfl

theorem stepTask_of_looks {d : Desk} {t : Task} {r : Reading} (hpos : t.position = .reading r .ready)
    (hin : d.lock.admits .read = true) : d.stepTask t = d.follow t (r.resume d.controller d.store) := by
  simp only [stepTask, hpos, if_pos hin, look]

theorem stepTask_of_changes {d : Desk} {t : Task} {w : Writing} (hpos : t.position = .writing w .ready)
    (hin : d.lock.admits .write = true) :
    d.stepTask t = follow { d with store := d.store.dispatch w.action } t (w.resume d.controller) := by
  simp only [stepTask, hpos, if_pos hin, change]

/-- A request that the server does not keep has reached it with one move. -/
theorem stepTask_of_sending {d : Desk} {t : Task} {request : Wire.Request} (hpos : t.position = .calling request .ready)
    (hkeeps : ¬ d.server.keeps request.kind = true) :
    d.stepTask t =
      ({ d with calls := d.calls ++ [request] }, some { t with position := .calling request .heard }) := by
  have hconverse : d.converse (.task t.number) request .ready =
      ({ d with calls := d.calls ++ [request] }, .move .heard) := if_neg hkeeps
  simp only [stepTask, hpos, hconverse]

/-- An action goes on to a stage; unless the handle of a probe has come or gone, the controller is all that has
changed. -/
theorem follow_go {d : Desk} {t : Task} {c : Controller} (stage : Stage) (hc : c.probe = d.controller.probe) :
    d.follow t (c, .go stage) = ({ d with controller := c }, some { t with position := .ofStage stage }) := by
  simp only [follow, setController, if_pos hc]

/-! ## Moves in a row -/

theorem turn_of_task? {d : Desk} {n : Nat} {t : Task} (h : d.task? n = some t) :
    d.turn (.task n) = runTask taskMoves (d.without n) t := by
  rw [task?] at h
  simp only [turn, h, without]

theorem runTask_of_none {d d' : Desk} {t : Task} (h : d.stepTask t = (d', none)) (moves : Nat) :
    runTask (moves + 1) d t = d' := by
  rw [runTask, h]

theorem runTask_of_some {d d' : Desk} {t t' : Task} (h : d.stepTask t = (d', some t')) (moves : Nat) :
    runTask (moves + 1) d t = runTask moves d' t' := by
  rw [runTask, h]

/-! ## Stage after stage

What an action comes to that nothing keeps waiting follows from the controller, the store and the server alone
(`Passes`), and in its turn at the desk it comes to the same (`turn_of_passes`). -/

/-- The request that was answered. -/
def Cause.requests : Cause → List Wire.Request
  | hears request _ => [request]
  | _ => []

/-- What an action goes on with from a stage where nothing keeps it waiting: nobody else is at the store, and the server
has an answer at once. -/
def prompt? (server : Server) : Stage → Option Cause
  | .reading r => some (.looks r)
  | .writing w => some (.changes w)
  | .calling request =>
    if server.keeps request.kind = false ∧ (server.script request.kind).delayMs = 0 then
      some (.hears request (server.script request.kind).answer)
    else none

/-- What an action leaves behind that has come to a result, and the requests that it made on its way. -/
structure Passage where
  controller : Controller
  store : Store
  calls : List Wire.Request := []
  result : Result

/-- An action goes on from stage to stage, with nothing that keeps it waiting, until it has a result; it has so many
stages at most. -/
inductive Passes (server : Server) : Nat → Cause → Controller → Store → Passage → Prop
  | returns {stages : Nat} {cause : Cause} {c c' : Controller} {s : Store} {result : Result}
      (hnext : cause.next c s = (c', .done result)) :
      Passes server (stages + 1) cause c s { controller := c', store := cause.store s, result := result }
  | goes {stages : Nat} {cause cause' : Cause} {c c' : Controller} {s : Store} {stage : Stage} {rest : Passage}
      (hnext : cause.next c s = (c', .go stage)) (hstage : prompt? server stage = some cause')
      (hrest : Passes server stages cause' c' (cause.store s) rest) :
      Passes server (stages + 1) cause c s { rest with calls := cause'.requests ++ rest.calls }

/-- An action stands where its next move takes it on, with nobody in its way. -/
inductive Prompt (d : Desk) (t : Task) : Cause → Prop
  | begins {command : Command} (hpos : t.position = .begun command) : Prompt d t (.begins command)
  | looks {r : Reading} (hpos : t.position = .reading r .ready) : Prompt d t (.looks r)
  | changes {w : Writing} (hpos : t.position = .writing w .ready) : Prompt d t (.changes w)
  | hears {request : Wire.Request} {answer : Answer} (hc : d.cause? t = some (.hears request answer)) :
      Prompt d t (.hears request answer)

theorem Prompt.stepTask {d : Desk} {t : Task} {cause : Cause} (h : Prompt d t cause) (hfree : d.lock = {}) :
    d.stepTask t = follow { d with store := cause.store d.store } t (cause.next d.controller d.store) := by
  cases h with
  | begins hpos => simp only [Desk.stepTask, hpos, Cause.store, Cause.next]
  | looks hpos => exact stepTask_of_looks hpos (admits_of_free hfree .read)
  | changes hpos => exact stepTask_of_changes hpos (admits_of_free hfree .write)
  | hears hc => exact stepTask_of_hears hc

/-- A command is over, and what it leaves behind is on the report. -/
structure Passed (d : Desk) (name : String) (p : Passage) (d' : Desk) : Prop where
  controller : d'.controller = p.controller
  store : d'.store = p.store
  calls : d'.calls = d.calls ++ p.calls
  finished : d'.finished = d.finished ++ [(name, p.result)]
  kept : d'.Kept

section Passes

variable {d : Desk} {t : Task}

/-- From such a stage an action is where its next move takes it on, after one move more if it has a request to send. -/
theorem exists_prompt {stage : Stage} {cause : Cause} (hstage : prompt? d.server stage = some cause) (moves : Nat) :
    ∃ t' moves', Prompt { d with calls := d.calls ++ cause.requests } t' cause ∧ t'.errand = t.errand ∧ moves ≤ moves' ∧
      runTask (moves + 1) d { t with position := .ofStage stage } =
        runTask moves' { d with calls := d.calls ++ cause.requests } t' := by
  cases stage with
  | reading r =>
    cases hstage
    simp only [Cause.requests, List.append_nil]
    exact ⟨{ t with position := .reading r .ready }, moves + 1, .looks rfl, rfl, Nat.le_succ _, rfl⟩
  | writing w =>
    cases hstage
    simp only [Cause.requests, List.append_nil]
    exact ⟨{ t with position := .writing w .ready }, moves + 1, .changes rfl, rfl, Nat.le_succ _, rfl⟩
  | calling request =>
    simp only [prompt?] at hstage
    split at hstage
    · next hnow =>
      cases hstage
      have hstep := stepTask_of_sending (d := d) (t := { t with position := .calling request .ready }) rfl
        (by simp [hnow.1])
      refine ⟨{ t with position := .calling request .heard }, moves, .hears ?_, rfl, Nat.le_refl _,
        runTask_of_some hstep moves⟩
      simp only [cause?, hnow.2, if_true]
    · cases hstage

/-- Two moves for each stage are enough. -/
theorem Passes.passed {server : Server} {stages : Nat} {cause : Cause} {c : Controller} {s : Store} {p : Passage}
    (h : Passes server stages cause c s p) (hat : Prompt d t cause) (hserver : d.server = server)
    (hc : d.controller = c) (hs : d.store = s) (hkept : d.Kept) (hfree : d.lock = {}) {name : String}
    (herrand : t.errand = .command name) {moves : Nat} (hmoves : 2 * stages ≤ moves) :
    Passed d name p (runTask moves d t) := by
  induction h generalizing d t moves with
  | @returns stages cause c c' s result hnext =>
    subst hc hs
    obtain ⟨moves, rfl⟩ : ∃ m, moves = m + 1 := Nat.exists_eq_add_of_le' (by omega)
    obtain ⟨probes, ready, hset⟩ := setController_frame { d with store := cause.store d.store } c'
    have hkept' := hset ▸ Kept.setController (d := { d with store := cause.store d.store }) hkept c'
    have hstep := hat.stepTask hfree
    simp only [hnext, follow, hset, conclude, herrand] at hstep
    rw [runTask_of_none hstep]
    exact ⟨rfl, rfl, (List.append_nil _).symm, rfl, hkept'⟩
  | @goes stages cause cause' c c' s stage rest hnext hstage hrest ih =>
    subst hserver hc hs
    obtain ⟨moves, rfl⟩ : ∃ m, moves = m + 2 := Nat.exists_eq_add_of_le' (by omega)
    obtain ⟨probes, ready, hset⟩ := setController_frame { d with store := cause.store d.store } c'
    have hkept' := hset ▸ Kept.setController (d := { d with store := cause.store d.store }) hkept c'
    have hstep := hat.stepTask hfree
    simp only [hnext, follow, hset] at hstep
    obtain ⟨t', moves', hat', herrand', hmoves', hrun⟩ := exists_prompt
      (d := { d with store := cause.store d.store, controller := c', probes := probes, ready := ready }) (t := t)
      hstage moves
    rw [runTask_of_some hstep, hrun]
    have henough : 2 * stages ≤ moves' := by omega
    have hpassed := ih hat' rfl rfl rfl hkept' hfree (herrand'.trans herrand) henough
    refine ⟨hpassed.controller, hpassed.store, ?_, hpassed.finished, hpassed.kept⟩
    rw [hpassed.calls, List.append_assoc]

/-- A command that nothing keeps waiting is over after its first turn. -/
theorem turn_of_passes (hd : d.Orderly) (name : String) {command : Command} {stages : Nat} {p : Passage}
    (hstages : stages ≤ 12) (hfree : d.lock = {})
    (h : Passes d.server stages (.begins command) d.controller d.store p) :
    Passed d name p ((d.begin (.command name) command).turn (.task d.begun)) := by
  rw [turn_of_task? (hd.task?_begin (.command name) command)]
  have hmoves : 2 * stages ≤ taskMoves := by
    unfold taskMoves
    omega
  have hpassed := h.passed (d := (d.begin (.command name) command).without d.begun)
    (t := ⟨d.begun, .command name, .begun command⟩) (.begins rfl) rfl rfl rfl hd.kept hfree rfl hmoves
  exact ⟨hpassed.controller, hpassed.store, hpassed.calls, hpassed.finished, hpassed.kept⟩

end Passes

end AgentDesk.Desk
