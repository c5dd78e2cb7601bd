import AgentDesk.Proofs.Desk.Time
import AgentDesk.Proofs.Settings.Demands

/-! # Whatever a keeper does is a run of events

A turn, a settling and a lapse of time are bounded computations, and each of them is some list of events that goes
forward in time and in which nobody comes in from outside (`Works`). So what holds after every such run of events holds
of the desk that is really run (`Opening.exists_events`), and of that of every console (`exists_opening`). -/
namespace AgentDesk.Desk
open Session

/-- Some events lead forward from one desk to the other. -/
def Reaches (d d' : Desk) : Prop := ∃ es : List Event, d.Forward es ∧ es.foldl perform d = d'

theorem Reaches.refl (d : Desk) : d.Reaches d := ⟨[], trivial, rfl⟩

theorem Reaches.trans {d d' d'' : Desk} (h : d.Reaches d') (h' : d'.Reaches d'') : d.Reaches d'' := by
  obtain ⟨es, hf, rfl⟩ := h
  obtain ⟨es', hf', rfl⟩ := h'
  exact ⟨es ++ es', forward_append.mpr ⟨hf, hf'⟩, List.foldl_append⟩

theorem OnTime.reaches {d : Desk} {e : Event} (h : d.OnTime e) : d.Reaches (d.perform e) := ⟨[e], ⟨h, trivial⟩, rfl⟩

/-- An action is begun, or the store edited, by somebody from outside. -/
def Event.isOutside : Event → Bool
  | .begin _ _ => true
  | .edit _ => true
  | _ => false

/-- The desk goes forward by itself. -/
def Works (d d' : Desk) : Prop :=
  ∃ es : List Event, d.Forward es ∧ (∀ e ∈ es, e.isOutside = false) ∧ es.foldl perform d = d'

theorem Works.refl (d : Desk) : d.Works d := ⟨[], trivial, fun _ h => (nomatch h), rfl⟩

theorem Works.trans {d d' d'' : Desk} (h : d.Works d') (h' : d'.Works d'') : d.Works d'' := by
  obtain ⟨es, hf, hes, rfl⟩ := h
  obtain ⟨es', hf', hes', rfl⟩ := h'
  exact ⟨es ++ es', forward_append.mpr ⟨hf, hf'⟩, List.forall_mem_append.mpr ⟨hes, hes'⟩, List.foldl_append⟩

theorem OnTime.works {d : Desk} {e : Event} (h : d.OnTime e) (he : e.isOutside = false) : d.Works (d.perform e) :=
  ⟨[e], ⟨h, trivial⟩, List.forall_mem_singleton.mpr he, rfl⟩

theorem Works.reaches {d d' : Desk} (h : d.Works d') : d.Reaches d' := by
  obtain ⟨es, hf, -, hd⟩ := h
  exact ⟨es, hf, hd⟩

/-- Somebody moves, or is called up to. -/
def Event.isMove : Event → Bool
  | .move _ => true
  | .probe _ => true
  | .call => true
  | _ => false

/-- The desk goes forward by itself, and no time passes. -/
def Moves (d d' : Desk) : Prop := ∃ es : List Event, (∀ e ∈ es, e.isMove = true) ∧ es.foldl perform d = d'

theorem Moves.refl (d : Desk) : d.Moves d := ⟨[], fun _ h => (nomatch h), rfl⟩

theorem Moves.trans {d d' d'' : Desk} (h : d.Moves d') (h' : d'.Moves d'') : d.Moves d'' := by
  obtain ⟨es, hes, rfl⟩ := h
  obtain ⟨es', hes', rfl⟩ := h'
  exact ⟨es ++ es', List.forall_mem_append.mpr ⟨hes, hes'⟩, List.foldl_append⟩

theorem moves_perform {d : Desk} {e : Event} (he : e.isMove = true) : d.Moves (d.perform e) :=
  ⟨[e], List.forall_mem_singleton.mpr he, rfl⟩

theorem Moves.works {d d' : Desk} (h : d.Moves d') : d.Works d' := by
  obtain ⟨es, hes, rfl⟩ := h
  induction es generalizing d with
  | nil => exact .refl d
  | cons e es ih =>
    obtain ⟨he, hes⟩ := List.forall_mem_cons.mp hes
    have hfirst : d.Works (d.perform e) := by
      cases e with
      | move n => exact OnTime.works (e := .move n) trivial rfl
      | probe serial => exact OnTime.works (e := .probe serial) trivial rfl
      | call => exact OnTime.works (e := .call) trivial rfl
      | _ => cases he
    exact hfirst.trans (ih hes)

theorem Numbered.foldl_perform {d : Desk} (h : d.Numbered) (es : List Event) : (es.foldl Desk.perform d).Numbered := by
  induction es generalizing d with
  | nil => exact h
  | cons e es ih => exact ih (h.perform e)

theorem Numbered.reaches {d d' : Desk} (h : d.Numbered) (hr : d.Reaches d') : d'.Numbered := by
  obtain ⟨es, -, rfl⟩ := hr
  exact h.foldl_perform es

/-! ## Turns -/

theorem Numbered.moveTask_park {d : Desk} {t : Task} (h : (d.park t).Numbered) :
    (d.park t).moveTask t.number = putBack (d.stepTask t) := by
  have hfind : (d.park t).task? t.number = some t := h.task?_of_mem (by simp [park])
  have hleft : (d.park t).without t.number = d := by
    have hd : (d.numbers ++ [t.number]).Nodup := by simpa [numbers, park] using h.distinct
    have hnew : ∀ u ∈ d.tasks, u.number ≠ t.number := by
      intro u hu he
      obtain ⟨-, -, hdisj⟩ := List.nodup_append.mp hd
      exact hdisj u.number (List.mem_map.mpr ⟨u, hu, rfl⟩) t.number (List.mem_singleton_self _) he
    have htasks : (d.tasks ++ [t]).filter (·.number ≠ t.number) = d.tasks := by
      rw [List.filter_append, List.filter_eq_self.mpr (fun u hu => by simpa using hnew u hu)]
      simp
    simp only [without, park, htasks]
  simp only [Desk.moveTask, hfind, hleft]

/-- Moves that an action makes in one turn are as many events. -/
theorem moves_runTask (moves : Nat) {d : Desk} {t : Task} (h : (putBack (d.stepTask t)).Numbered) :
    (putBack (d.stepTask t)).Moves (runTask (moves + 1) d t) := by
  induction moves generalizing d t with
  | zero =>
    rw [runTask]
    obtain ⟨d', _ | t'⟩ := d.stepTask t
    · exact .refl _
    · exact .refl _
  | succ moves ih =>
    rw [runTask]
    generalize d.stepTask t = r at h ⊢
    obtain ⟨d', _ | t'⟩ := r
    · exact .refl _
    · -- To put the action aside and to move it again is to go on with it, as no other has its number.
      replace h : (d'.park t').Numbered := h
      have hmove : (d'.park t').perform (.move t'.number) = putBack (d'.stepTask t') := h.moveTask_park
      have hnext := h.perform (.move t'.number)
      have hfirst := moves_perform (d := d'.park t') (e := .move t'.number) rfl
      rw [hmove] at hnext hfirst
      exact hfirst.trans (ih hnext)

theorem moves_runProbe (moves serial : Nat) (d : Desk) : d.Moves (runProbe moves serial d) := by
  induction moves generalizing d with
  | zero => exact .refl d
  | succ moves ih =>
    rw [runProbe]
    split
    · next p hp =>
      have hmove : d.perform (.probe serial) = (d.stepProbe p).1 := by simp only [perform, moveProbe, hp]
      have hfirst := moves_perform (d := d) (e := .probe serial) rfl
      rw [hmove] at hfirst
      generalize d.stepProbe p = r at hfirst ⊢
      obtain ⟨d', more⟩ := r
      cases more with
      | true => exact hfirst.trans (ih d')
      | false => exact hfirst
    · exact .refl d

theorem Numbered.moves_turn {d : Desk} (h : d.Numbered) (caller : Caller) : d.Moves (d.turn caller) := by
  cases caller with
  | probe serial => exact moves_runProbe _ serial d
  | task n =>
    cases ht : d.task? n with
    | none =>
      have hturn : d.turn (.task n) = d := by
        rw [task?] at ht
        simp only [turn, ht]
      rw [hturn]
      exact .refl d
    | some t =>
      have hturn : d.turn (.task n) = runTask taskMoves (d.without n) t := by
        rw [task?] at ht
        simp only [turn, ht, without]
      have hmove : d.perform (.move n) = putBack ((d.without n).stepTask t) := by
        simp only [Desk.perform, Desk.moveTask, ht]
      have hnext := h.perform (.move n)
      have hfirst := moves_perform (d := d) (e := .move n) rfl
      rw [hmove] at hnext hfirst
      rw [hturn]
      exact hfirst.trans (moves_runTask _ hnext)

theorem Numbered.moves_turns {d : Desk} (h : d.Numbered) (n : Nat) : d.Moves (turns n d) := by
  induction n generalizing d with
  | zero => exact .refl d
  | succ n ih =>
    rw [turns]
    split
    · exact .refl d
    · next caller rest hready =>
      have hcall : d.perform .call = { d with ready := rest } := by
        simp only [Desk.perform, hready, List.tail_cons]
      have hfirst := moves_perform (d := d) (e := .call) rfl
      rw [hcall] at hfirst
      have hturn := hfirst.trans ((h.reaches hfirst.works.reaches).moves_turn caller)
      exact hturn.trans (ih (h.reaches hturn.works.reaches))

theorem Numbered.moves_settle {d : Desk} (h : d.Numbered) : d.Moves d.settle := h.moves_turns _

theorem Numbered.works_settle {d : Desk} (h : d.Numbered) : d.Works d.settle := h.moves_settle.works

/-! ## Time -/

theorem Numbered.works_advanceTo {d : Desk} (h : d.Numbered) (strikes : Nat) {target : Nat}
    (hle : d.clock ≤ target) : d.Works (advanceTo strikes target d) := by
  induction strikes generalizing d with
  | zero => exact .refl d
  | succ strikes ih =>
    rw [advanceTo]
    split
    · next due _ =>
      split
      · next hdue =>
        have hstrike : d.Works (d.strike due) := OnTime.works (e := .strike due) trivial rfl
        have hsettle := hstrike.trans (h.reaches hstrike.reaches).works_settle
        have hclock : (d.strike due).settle.clock = max d.clock due :=
          (clock_settle _).trans (clock_wakeAll _ _)
        exact hsettle.trans (ih (h.reaches hsettle.reaches) (by omega))
      · exact OnTime.works (e := .pass target) hle rfl
    · exact OnTime.works (e := .pass target) hle rfl

theorem Numbered.works_advance {d : Desk} (h : d.Numbered) (ms : Nat) : d.Works (d.advance ms) :=
  h.works_advanceTo _ (Nat.le_add_right _ _)

/-! ## All that a keeper does -/

/-- What can be done at a desk, short of dropping an action or the probe. -/
inductive Deed where
  | begin (errand : Errand) (command : Command)
  | edit (edit : Edit)
  | script (kind : Wire.RequestKind) (script : Script)
  | hold (kind : Wire.RequestKind)
  | release (kind : Wire.RequestKind)
  | lock
  | unlock
  | settle
  | advance (ms : Nat)
  | report

def act (d : Desk) : Deed → Desk
  | .begin errand command => d.begin errand command
  | .edit e => d.dispatch e.action
  | .script kind script => d.setServer (d.server.setScript kind script)
  | .hold kind => d.hold kind
  | .release kind => d.release kind
  | .lock => d.lockStore
  | .unlock => d.unlockStore
  | .settle => d.settle
  | .advance ms => d.advance ms
  | .report => d.clearReport

theorem Numbered.reaches_act {d : Desk} (h : d.Numbered) (deed : Deed) : d.Reaches (d.act deed) := by
  cases deed with
  | begin errand command => exact OnTime.reaches (e := .begin errand command) trivial
  | edit e => exact OnTime.reaches (e := .edit e) trivial
  | script kind script => exact OnTime.reaches (e := .script kind script) trivial
  | hold kind => exact OnTime.reaches (e := .hold kind) trivial
  | release kind => exact OnTime.reaches (e := .release kind) trivial
  | lock => exact OnTime.reaches (e := .lock) trivial
  | unlock => exact OnTime.reaches (e := .unlock) trivial
  | settle => exact h.works_settle.reaches
  | advance ms => exact (h.works_advance ms).reaches
  | report => exact OnTime.reaches (e := .report) trivial

theorem Numbered.reaches_acts {d : Desk} (h : d.Numbered) (deeds : List Deed) : d.Reaches (deeds.foldl act d) := by
  induction deeds generalizing d with
  | nil => exact .refl d
  | cons deed deeds ih =>
    have hact := h.reaches_act deed
    exact hact.trans (ih (h.reaches hact))

/-- A desk at which somebody has been at work is one that some run of events leads to, and the run goes forward. -/
theorem Opening.exists_events (o : Opening) (deeds : List Deed) :
    ∃ es, o.desk.Forward es ∧ (o.after es).desk = deeds.foldl act o.desk := by
  obtain ⟨es, hf, hes⟩ := (o.numbered []).reaches_acts deeds
  exact ⟨es, hf, (o.desk_after es).trans hes⟩

/-- The desk that settings describe is such a desk when it is opened. -/
theorem exists_opening {s : Settings} {d : Desk} (h : ofSettings s = .ok d) : ∃ o : Opening, o.desk = d := by
  obtain ⟨-, language, voice, -, -, rfl⟩ := (ofSettings_eq_ok_iff s d).1 h
  exact ⟨⟨s.pingIntervalMs, s.initialStore language voice, rfl⟩, rfl⟩

end AgentDesk.Desk
