import AgentDesk.Proofs.Desk.Settle
import AgentDesk.Window.Basic

/-! # Runs of a window, act by act

A frame reads the desk once, and all its events are applied before anybody at the desk goes on. Between two frames
anything may happen at the desk except that the store is edited: an action may have made many moves by the next frame,
or none. A run is any list of such acts. It is a run of the desk as well (`desk_acts`), in which nobody but the window
edits the store, and whatever the window really does is such a run (`acts_of_runFrame`). -/
namespace AgentDesk.Window

/-- One frame and its events, before anything comes of them. -/
def draw (w : Window) (input : Input) : Window :=
  { desk := (frame w.shown w.screen input).2.foldl applyEvent w.desk
    screen := (frame w.shown w.screen input).1
    events := w.events ++ (frame w.shown w.screen input).2 }

theorem runFrame_eq (w : Window) (input : Input) :
    w.runFrame input = { w.draw input with desk := (w.draw input).desk.settle } := rfl

/-- What may happen at the desk between two frames. -/
structure Work where
  event : Desk.Event
  apart : ∀ edit, event ≠ .edit edit

inductive Act where
  | draw (input : Input)
  | panels (modules notifications : Option Bool)
  | work (step : Work)

def act (w : Window) : Act → Window
  | .draw input => w.draw input
  | .panels modules notifications => w.showPanels modules notifications
  | .work step => { w with desk := w.desk.perform step.event }

def acts (w : Window) (as : List Act) : Window := as.foldl act w

theorem acts_append (w : Window) (as bs : List Act) : w.acts (as ++ bs) = (w.acts as).acts bs := List.foldl_append

theorem acts_snoc (w : Window) (as : List Act) (a : Act) : w.acts (as ++ [a]) = (w.acts as).act a := acts_append ..

/-! ## As events of the desk -/

def Event.deskEvents (d : Desk) : Event → List Desk.Event
  | setChannel channel => [.edit ⟨.setIdentity { d.store.identity with channel := channel }, by simp⟩]
  | selectGraph id => [.edit ⟨.selectGraph (some id), by simp⟩]
  | selectLanguage language => [.edit ⟨.setLanguage language, by simp⟩]
  | selectVoice voice => [.edit ⟨.setVoice voice, by simp⟩]
  | clearNotifications => [.edit ⟨.clearNotifications, by simp⟩]
  | toggleConnection => [.begin .button .toggle]
  | channelCommitted => if d.controller.state = .disconnected then [.begin .lookout .check] else []

theorem applyEvent_eq (d : Desk) (e : Event) : applyEvent d e = (e.deskEvents d).foldl Desk.perform d := by
  cases e with
  | channelCommitted =>
    show recheck d = _
    simp only [recheck, Event.deskEvents]
    split <;> rfl
  | _ => rfl

/-- What the events of a frame come to, one after the other. -/
def drawnEvents (d : Desk) : List Event → List Desk.Event
  | [] => []
  | e :: es => e.deskEvents d ++ drawnEvents (applyEvent d e) es

theorem foldl_applyEvent (es : List Event) (d : Desk) :
    es.foldl applyEvent d = (drawnEvents d es).foldl Desk.perform d := by
  induction es generalizing d with
  | nil => rfl
  | cons e es ih => rw [List.foldl_cons, ih, drawnEvents, List.foldl_append, ← applyEvent_eq]

def Act.deskEvents (w : Window) : Act → List Desk.Event
  | .draw input => drawnEvents w.desk (frame w.shown w.screen input).2
  | .panels _ _ => []
  | .work step => [step.event]

theorem desk_act (w : Window) (a : Act) : (w.act a).desk = (a.deskEvents w).foldl Desk.perform w.desk := by
  cases a with
  | draw input => exact foldl_applyEvent ..
  | panels modules notifications => rfl
  | work step => rfl

def deskEvents (w : Window) : List Act → List Desk.Event
  | [] => []
  | a :: as => a.deskEvents w ++ (w.act a).deskEvents as

theorem desk_acts (w : Window) (as : List Act) : (w.acts as).desk = (w.deskEvents as).foldl Desk.perform w.desk := by
  induction as generalizing w with
  | nil => rfl
  | cons a as ih =>
    show ((w.act a).acts as).desk = _
    rw [ih, deskEvents, List.foldl_append, ← desk_act]

theorem deskEvents_append (w : Window) (as bs : List Act) :
    w.deskEvents (as ++ bs) = w.deskEvents as ++ (w.acts as).deskEvents bs := by
  induction as generalizing w with
  | nil => rfl
  | cons a as ih =>
    rw [List.cons_append, deskEvents, deskEvents, ih, List.append_assoc]
    rfl

theorem deskEvents_prefix (w : Window) {as bs : List Act} (h : as <+: bs) : w.deskEvents as <+: w.deskEvents bs := by
  obtain ⟨cs, rfl⟩ := h
  rw [deskEvents_append]
  exact List.prefix_append ..

/-- Only between frames does an action move. -/
theorem Act.work_of_move {w : Window} {a : Act} {n : Nat} (h : .move n ∈ a.deskEvents w) :
    ∃ step, a = .work step ∧ step.event = .move n := by
  cases a with
  | panels modules notifications => cases h
  | work step => exact ⟨step, rfl, (List.mem_singleton.mp h).symm⟩
  | draw input =>
    exfalso
    replace h : .move n ∈ drawnEvents w.desk (frame w.shown w.screen input).2 := h
    generalize (frame w.shown w.screen input).2 = es at h
    generalize w.desk = d at h
    induction es generalizing d with
    | nil => cases h
    | cons e es ih =>
      rcases List.mem_append.mp h with h | h
      · cases e with
        | channelCommitted =>
          simp only [Event.deskEvents] at h
          split at h
          · cases List.mem_singleton.mp h
          · cases h
        | _ => cases List.mem_singleton.mp h
      · exact ih _ h

/-- Such an act is nothing but the move. -/
theorem Act.split_of_move {w : Window} {a : Act} {early late : List Desk.Event} {n : Nat}
    (h : a.deskEvents w = early ++ .move n :: late) :
    ∃ step, a = .work step ∧ step.event = .move n ∧ early = [] ∧ late = [] := by
  obtain ⟨step, rfl, hmove⟩ := Act.work_of_move (w := w) (a := a) (n := n) (by rw [h]; simp)
  have hsingle : [step.event] = early ++ .move n :: late := h
  cases early with
  | nil => exact ⟨step, rfl, hmove, rfl, (List.cons.inj hsingle).2.symm⟩
  | cons e early => simp at hsingle

/-- Where an action moves in a run, the run is at an act between two frames. -/
theorem deskEvents_split {w : Window} {as : List Act} {early late : List Desk.Event} {n : Nat}
    (h : w.deskEvents as = early ++ .move n :: late) :
    ∃ front step back, as = front ++ .work step :: back ∧ step.event = .move n ∧ w.deskEvents front = early ∧
      (w.acts (front ++ [.work step])).deskEvents back = late := by
  induction as generalizing w early with
  | nil => simp [deskEvents] at h
  | cons a as ih =>
    rw [deskEvents] at h
    have hlater {early : List Desk.Event} (h : (w.act a).deskEvents as = early ++ .move n :: late) :
        ∃ front step back, a :: as = front ++ .work step :: back ∧ step.event = .move n ∧
          w.deskEvents front = a.deskEvents w ++ early ∧
          (w.acts (front ++ [.work step])).deskEvents back = late := by
      obtain ⟨front, step, back, rfl, hmove, hearly, hlate⟩ := ih h
      refine ⟨a :: front, step, back, rfl, hmove, ?_, hlate⟩
      rw [deskEvents, hearly]
    -- The move is later than the first act, or among its events and then all of them.
    rcases List.append_eq_append_iff.mp h with ⟨early', rfl, hrest⟩ | ⟨rest, hfirst, hrest⟩
    · exact hlater hrest
    · cases rest with
      | nil =>
        rw [List.append_nil] at hfirst
        have hnext : (w.act a).deskEvents as = [] ++ .move n :: late := hrest.symm
        rw [← hfirst, ← List.append_nil (a.deskEvents w)]
        exact hlater hnext
      | cons e rest =>
        obtain ⟨rfl, hrest⟩ := List.cons.inj hrest
        obtain ⟨step, rfl, hmove, rfl, rfl⟩ := Act.split_of_move hfirst
        exact ⟨[], step, as, rfl, hmove, rfl, (List.cons.inj hrest.symm).2⟩

/-! ## What the window really does -/

/-- A desk goes forward by itself in acts between two frames. -/
theorem acts_of_works {w : Window} {d : Desk} (h : w.desk.Works d) :
    ∃ steps : List Work, w.acts (steps.map .work) = { w with desk := d } := by
  obtain ⟨es, -, hes, rfl⟩ := h
  induction es generalizing w with
  | nil => exact ⟨[], rfl⟩
  | cons e es ih =>
    obtain ⟨hout, hes⟩ := List.forall_mem_cons.mp hes
    obtain ⟨steps, hsteps⟩ := ih (w := { w with desk := w.desk.perform e }) hes
    refine ⟨⟨e, ?_⟩ :: steps, hsteps⟩
    rintro edit rfl
    cases hout

theorem orderly_acts {w : Window} (h : w.desk.Orderly) (as : List Act) : (w.acts as).desk.Orderly := by
  rw [desk_acts]
  exact h.foldl_perform _

/-- A frame and all that follows from it is a frame, and then acts in which no frame is drawn. -/
theorem acts_of_runFrame {w : Window} (h : w.desk.Orderly) (input : Input) :
    ∃ steps : List Work, w.runFrame input = w.acts (.draw input :: steps.map .work) := by
  have hdrawn := orderly_acts h [.draw input]
  obtain ⟨steps, hsteps⟩ := acts_of_works (w := w.draw input) hdrawn.works_settle
  exact ⟨steps, hsteps.symm⟩

/-- Somebody at the desk does something, and all follows from it. -/
theorem acts_of_onDesk {w : Window} (h : w.desk.Orderly) (step : Work) :
    ∃ steps : List Work, w.onDesk (·.perform step.event) = w.acts (steps.map .work) := by
  have hdone := h.perform step.event
  obtain ⟨steps, hsteps⟩ :=
    acts_of_works (w := { w with desk := w.desk.perform step.event }) hdone.works_settle
  exact ⟨step :: steps, hsteps.symm⟩

/-- Time passes, and all follows from it. -/
theorem acts_of_advance {w : Window} (h : w.desk.Orderly) (ms : Nat) :
    ∃ steps : List Work, w.onDesk (·.advance ms) = w.acts (steps.map .work) := by
  have hpassed := h.works_advance ms
  obtain ⟨steps, hsteps⟩ := acts_of_works (hpassed.trans (h.reaches hpassed.reaches).works_settle)
  exact ⟨steps, hsteps.symm⟩

theorem acts_of_rest {w : Window} (h : w.desk.Orderly) : ∃ as, w.rest = w.acts as := by
  obtain ⟨steps, hfirst⟩ := acts_of_runFrame h .idle
  have hdrawn : (w.runFrame .idle).desk.Orderly := hfirst ▸ orderly_acts h _
  obtain ⟨steps', hsecond⟩ := acts_of_runFrame hdrawn .idle
  refine ⟨(.draw .idle :: steps.map .work) ++ (.draw .idle :: steps'.map .work), ?_⟩
  rw [acts_append, ← hfirst, ← hsecond, rest]

/-- A window on a desk that is opened. -/
def opened (o : Desk.Opening) (screen : Screen) : Window := { desk := o.desk, screen := screen }

/-- The window of a console has come about in the same way when it is first shown. -/
theorem acts_of_ofSettings {s : Settings} {w : Window} (h : ofSettings s = .ok w) :
    ∃ o screen as, w = (opened o screen).acts as := by
  unfold ofSettings at h
  cases hd : Desk.ofSettings s with
  | error e => simp [hd, bind, Except.bind] at h
  | ok d =>
    simp only [hd, bind, Except.bind, pure, Except.pure, Except.ok.injEq] at h
    obtain ⟨o, rfl⟩ := Desk.exists_opening hd
    have hnew : (opened o { view := { channelInput := s.channel } }).desk.Orderly := o.orderly []
    obtain ⟨as, hrest⟩ := acts_of_rest hnew
    exact ⟨o, _, as, h.symm.trans hrest⟩

/-- At its desk, what a window does is a run of events. -/
theorem desk_acts_opened (o : Desk.Opening) (screen : Screen) (as : List Act) :
    ((opened o screen).acts as).desk = (o.after ((opened o screen).deskEvents as)).desk := by
  rw [desk_acts, o.desk_after]
  rfl

end AgentDesk.Window
