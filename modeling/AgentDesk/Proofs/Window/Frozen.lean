import AgentDesk.Proofs.Session.Tenure
import AgentDesk.Proofs.Session.Toasts
import AgentDesk.Proofs.Window.Run

/-! # What of a session's choices is frozen

While an action is under way or a session exists, the channel field and the boxes of the lists cannot be used, so no
text is typed and no list opens. But a list that is open already stays open, and its entries can still be chosen:
that, and nothing else, changes the choices then (`Picks`). The channel and the user are on no list; they stay for as
long as the session does. -/
namespace AgentDesk.Window

/-! ## The events of a frame -/

theorem editable_iff (w : Window) : w.shown.editable = true ↔ w.desk.AtEase := by
  simp only [Shown.editable, shown, Session.Controller.isLoading, Bool.and_eq_true,
    Bool.not_eq_true', decide_eq_false_iff_not]
  constructor
  · intro ⟨hstate, hgate⟩
    refine ⟨of_decide_eq_true hstate, ?_⟩
    cases hg : w.desk.controller.gate with
    | idle => rfl
    | inFlight => exact absurd hg hgate
  · intro ⟨hstate, hgate⟩
    rw [hgate]
    exact ⟨decide_eq_true hstate, nofun⟩

/-- An event that chooses something for a session. -/
def Event.isChoice : Event → Bool
  | setChannel _ => true
  | selectGraph _ => true
  | selectLanguage _ => true
  | selectVoice _ => true
  | _ => false

theorem choices_applyEvent {e : Event} (h : e.isChoice = false) (d : Desk) :
    (applyEvent d e).store.choices = d.store.choices := by
  cases e with
  | toggleConnection => rfl
  | clearNotifications => rfl
  | channelCommitted =>
    show (recheck d).store.choices = _
    unfold recheck
    split <;> rfl
  | _ => cases h

theorem choices_foldl_applyEvent {es : List Event} (h : ∀ e ∈ es, e.isChoice = false) (d : Desk) :
    (es.foldl applyEvent d).store.choices = d.store.choices := by
  induction es generalizing d with
  | nil => rfl
  | cons e es ih =>
    obtain ⟨he, hes⟩ := List.forall_mem_cons.mp h
    rw [List.foldl_cons, ih hes, choices_applyEvent he]

/-- A field that cannot be used raises nothing but that it is left. -/
theorem fieldFrame_frozen {shown : Shown} (h : shown.editable = false) (screen : Screen) (input : Input) :
    ∀ e ∈ (fieldFrame shown screen input).2, e.isChoice = false := by
  intro e he
  simp only [fieldFrame, h, Bool.false_eq_true, if_false, Option.map_none, Option.toList_none, List.nil_append] at he
  split at he
  · rw [List.mem_singleton.mp he]
    rfl
  · cases he

theorem connectEvent_isChoice (shown : Shown) (input : Input) : ∀ e ∈ connectEvent shown input, e.isChoice = false := by
  intro e he
  unfold connectEvent at he
  split at he
  · split at he
    · rw [List.mem_singleton.mp he]
      rfl
    · cases he
  · cases he

theorem clearEvent_isChoice (view : View) (input : Input) : ∀ e ∈ clearEvent view input, e.isChoice = false := by
  intro e he
  unfold clearEvent at he
  split at he
  · split at he
    · rw [List.mem_singleton.mp he]
      rfl
    · cases he
  · cases he

/-- An entry is chosen in the open list, other than the one that is chosen already. -/
theorem entryEvent_cases (shown : Shown) (screen : Screen) (input : Input) :
    entryEvent shown screen input = [] ∨
      ∃ menu index entry, input = .click (.entry menu index) ∧ screen.openMenu = some menu ∧
        entry ∈ entries shown.store menu ∧ entry.selected = false ∧ entryEvent shown screen input = [entry.event] := by
  cases input with
  | click target =>
    cases target with
    | entry menu index =>
      simp only [entryEvent]
      split
      · next hopen =>
        split
        · next entry start hentry =>
          have hmem : entry ∈ entries shown.store menu := by
            have hplaced := List.mem_map_of_mem (f := Prod.fst) (List.mem_of_getElem? hentry)
            rwa [placedEntries, map_fst_place] at hplaced
          split
          · exact .inl rfl
          · next hnew =>
            refine .inr ⟨menu, index, entry, rfl, hopen, hmem, ?_, rfl⟩
            simp only [Bool.or_eq_true, not_or, Bool.not_eq_true] at hnew
            exact hnew.1
        · exact .inl rfl
      · exact .inl rfl
    | _ => exact .inl rfl
  | _ => exact .inl rfl

/-! ## One act -/

/-- The frame in which an entry of the open list is chosen. -/
def Picks (w : Window) (a : Act) : Prop := ∃ input, a = .draw input ∧ entryEvent w.shown w.screen input ≠ []

theorem choices_write {x : Desk.Occurrence} (h : ∀ action, x ≠ .edited action) (s : Store) :
    (x.write s).choices = s.choices := by
  cases x with
  | edited action => exact absurd rfl (h action)
  | begun n errand command => rfl
  | sent caller request => rfl
  | resumed n cause next =>
    cases cause with
    | changes w => exact Store.choices_dispatch (by cases w <;> rfl) s
    | _ => rfl

theorem occurs_edited {d : Desk} {e : Desk.Event} {action : Store.Action} (h : d.occurs e = some (.edited action)) :
    ∃ edit, e = .edit edit := by
  cases Desk.happens_of_occurs h with
  | edited edit => exact ⟨edit, rfl⟩

/-- Between two frames nothing is chosen. -/
theorem choices_work {d : Desk} (h : d.Orderly) (step : Work) :
    (d.perform step.event).store.choices = d.store.choices := by
  have hstore : (d.perform step.event).store = (d.occurs step.event).toList.foldl Desk.Occurrence.write d.store :=
    (Desk.scene_perform h step.event).store_eq
  rw [hstore]
  cases hx : d.occurs step.event with
  | none => rfl
  | some x =>
    refine choices_write ?_ d.store
    intro action he
    rw [he] at hx
    obtain ⟨edit, hedit⟩ := occurs_edited hx
    exact step.apart edit hedit

section Busy

variable {w : Window} (busy : ¬ w.desk.AtEase)

include busy

theorem frozen_of_busy : w.shown.editable = false := by
  rwa [← Bool.not_eq_true, editable_iff]

theorem choices_draw (input : Input) (h : entryEvent w.shown w.screen input = []) :
    (w.draw input).desk.store.choices = w.desk.store.choices := by
  refine choices_foldl_applyEvent ?_ w.desk
  intro e he
  simp only [frame, h, List.append_nil, List.mem_append] at he
  rcases he with (he | he) | he
  · exact fieldFrame_frozen (frozen_of_busy busy) _ _ e he
  · exact connectEvent_isChoice _ _ e he
  · exact clearEvent_isChoice _ _ e he

/-- A list that is open was open before. -/
theorem openMenu_draw {input : Input} {menu : Menu} (h : (w.draw input).screen.openMenu = some menu) :
    w.screen.openMenu = some menu := by
  have hscreen : (w.draw input).screen.openMenu = (menuFrame w.shown w.screen input).openMenu := rfl
  rw [hscreen] at h
  unfold menuFrame at h
  split at h
  · simp only [frozen_of_busy busy, Bool.false_eq_true, if_false] at h
    split at h
    · next hopen =>
      cases h
      exact hopen
    · cases h
  · cases h
  · split at h
    · simp [frozen_of_busy busy] at h
    · exact h

end Busy

/-! ## Entries of a list -/

/-- An entry that is not the present choice becomes it. -/
theorem choices_entry {store : Store} {menu : Menu} {entry : Entry} (hmem : entry ∈ entries store menu)
    (hnew : entry.selected = false) {d : Desk} (h : d.store.choices = store.choices) :
    (applyEvent d entry.event).store.choices ≠ store.choices ∧
      (applyEvent d entry.event).store.identity = store.identity := by
  have hidentity : d.store.identity = store.identity := by
    rw [← Store.identity_choices, h, Store.identity_choices]
  cases menu with
  | graphs =>
    obtain ⟨g, -, rfl⟩ := List.mem_map.mp hmem
    refine ⟨?_, hidentity⟩
    intro he
    have hselected : some g.id = store.selectedId := congrArg (fun s : Store => s.selectedId) he
    exact of_decide_eq_false hnew hselected.symm
  | languages =>
    obtain ⟨l, -, rfl⟩ := List.mem_map.mp hmem
    refine ⟨?_, hidentity⟩
    intro he
    have hlanguage : l = store.language := congrArg (fun s : Store => s.language) he
    exact of_decide_eq_false hnew hlanguage.symm
  | voices =>
    obtain ⟨v, -, rfl⟩ := List.mem_map.mp hmem
    refine ⟨?_, hidentity⟩
    intro he
    have hvoice : v = store.voice := congrArg (fun s : Store => s.voice) he
    exact of_decide_eq_false hnew hvoice.symm

section Busy

variable {w : Window} (busy : ¬ w.desk.AtEase)

include busy

theorem draw_of_pick {input : Input} (h : entryEvent w.shown w.screen input ≠ []) :
    (w.draw input).desk.store.choices ≠ w.desk.store.choices ∧
      (w.draw input).desk.store.identity = w.desk.store.identity := by
  obtain hnone | ⟨menu, index, entry, rfl, -, hmem, hnew, hevent⟩ := entryEvent_cases w.shown w.screen input
  · exact absurd hnone h
  -- What the field raises comes first; it chooses nothing, so the entry is still not the present choice.
  · let fieldEvents := (fieldFrame w.shown (menuFrame w.shown w.screen (.click (.entry menu index)))
      (.click (.entry menu index))).2
    have hdesk : (w.draw (.click (.entry menu index))).desk =
        applyEvent (fieldEvents.foldl applyEvent w.desk) entry.event := by
      simp only [draw, frame, hevent, connectEvent, clearEvent, List.append_nil, List.foldl_append, List.foldl_cons,
        List.foldl_nil]
      rfl
    rw [hdesk]
    exact choices_entry hmem hnew
      (choices_foldl_applyEvent (fieldFrame_frozen (frozen_of_busy busy) _ _) w.desk)

/-- An act changes what is chosen exactly if it picks an entry of an open list. -/
theorem choices_act_iff (hn : w.desk.Orderly) (a : Act) :
    (w.act a).desk.store.choices = w.desk.store.choices ↔ ¬ w.Picks a := by
  cases a with
  | draw input =>
    constructor
    · rintro hsame ⟨_, hdraw, hpick⟩
      cases hdraw
      exact (draw_of_pick busy hpick).1 hsame
    · intro hnot
      refine choices_draw busy input ?_
      by_contra hpick
      exact hnot ⟨input, rfl, hpick⟩
  | panels modules notifications => exact iff_of_true rfl nofun
  | work step => exact iff_of_true (choices_work hn step) nofun

/-- No act changes the channel or the user. -/
theorem identity_act (hn : w.desk.Orderly) (a : Act) :
    (w.act a).desk.store.identity = w.desk.store.identity := by
  by_cases hpick : w.Picks a
  · obtain ⟨input, rfl, hpick⟩ := hpick
    exact (draw_of_pick busy hpick).2
  · rw [← Store.identity_choices, (choices_act_iff busy hn a).mpr hpick, Store.identity_choices]

/-- No list opens. -/
theorem openMenu_act {a : Act} (hnone : w.screen.openMenu = none) : (w.act a).screen.openMenu = none := by
  cases a with
  | draw input =>
    cases h : (w.draw input).screen.openMenu with
    | none => exact h
    | some menu =>
      rw [openMenu_draw busy h] at hnone
      cases hnone
  | panels modules notifications => exact hnone
  | work step => exact hnone

end Busy

theorem not_picks_of_closed {w : Window} (h : w.screen.openMenu = none) (a : Act) : ¬ w.Picks a := by
  rintro ⟨input, rfl, hpick⟩
  obtain hnone | ⟨menu, index, entry, -, hopen, -⟩ := entryEvent_cases w.shown w.screen input
  · exact hpick hnone
  · rw [h] at hopen
    cases hopen

/-! ## A run of acts -/

/-- Something holds of every act of a run, given the window that it is done in. -/
def During (P : Window → Act → Prop) (w : Window) : List Act → Prop
  | [] => True
  | a :: as => P w a ∧ During P (w.act a) as

/-- At none of the acts is the desk at ease. -/
def BusyDuring (w : Window) (as : List Act) : Prop := During (fun w _ => ¬ w.desk.AtEase) w as

/-- In none of the acts is an entry of a list chosen. -/
def NoPicks (w : Window) (as : List Act) : Prop := During (fun w a => ¬ w.Picks a) w as

theorem during_of_prefixes {P : Window → Act → Prop} {w : Window} {as : List Act}
    (h : ∀ front a back, as = front ++ a :: back → P (w.acts front) a) : During P w as := by
  induction as generalizing w with
  | nil => trivial
  | cons a as ih =>
    refine ⟨h [] a as rfl, ih ?_⟩
    intro front b back hsplit
    exact h (a :: front) b back (by rw [hsplit, List.cons_append])

section Stretch

variable {w : Window} {as : List Act} (hn : w.desk.Orderly) (busy : w.BusyDuring as)

include hn busy

theorem identity_acts : (w.acts as).desk.store.identity = w.desk.store.identity := by
  induction as generalizing w with
  | nil => rfl
  | cons a as ih =>
    have hrest := ih (w := w.act a) (orderly_acts hn [a]) busy.2
    exact hrest.trans (identity_act busy.1 hn a)

theorem choices_acts (h : w.NoPicks as) : (w.acts as).desk.store.choices = w.desk.store.choices := by
  induction as generalizing w with
  | nil => rfl
  | cons a as ih =>
    have hrest := ih (w := w.act a) (orderly_acts hn [a]) busy.2 h.2
    exact hrest.trans ((choices_act_iff busy.1 hn a).mpr h.1)

omit hn in
/-- Where no list is open to begin with, no entry is chosen. -/
theorem noPicks_of_closed (h : w.screen.openMenu = none) : w.NoPicks as := by
  induction as generalizing w with
  | nil => trivial
  | cons a as ih => exact ⟨not_picks_of_closed h a, ih busy.2 (openMenu_act busy.1 h)⟩

end Stretch

/-! ## Since a session began -/

/-- In a run, something occurs at the act after `front`, and from then on the desk is not at ease. -/
structure OccursBusy (w : Window) (as front : List Act) (step : Work) (back : List Act) (x : Desk.Occurrence) :
    Prop where
  split : as = front ++ .work step :: back
  occurs : (w.acts front).desk.occurs step.event = some x
  busy : (w.acts (front ++ [.work step])).BusyDuring back

theorem move_of_resumed {d : Desk} {e : Desk.Event} {n : Nat} {cause : Desk.Cause} {next : Session.Next}
    (h : d.occurs e = some (.resumed n cause next)) : e = .move n := by
  cases Desk.happens_of_occurs h with
  | resumed n cause => rfl

section Run

variable (o : Desk.Opening) (screen : Screen) (as : List Act)

theorem orderly_opened : ((opened o screen).acts as).desk.Orderly := orderly_acts (o.orderly []) as

/-- What occurs at the desk occurs at an act of the window. -/
theorem exists_occursBusy {r : Desk.Chronicle} {n : Nat} {cause : Desk.Cause} {next : Session.Next}
    (h : o.OccursBusy ((opened o screen).deskEvents as) r (.resumed n cause next)) :
    ∃ front step back, OccursBusy (opened o screen) as front step back (.resumed n cause next) ∧
      r.desk = ((opened o screen).acts front).desk := by
  obtain ⟨early, e, late, hes, rfl, hx, hbusy⟩ := h
  obtain rfl := move_of_resumed hx
  obtain ⟨front, step, back, hsplit, hmove, hearly, hlate⟩ := deskEvents_split hes
  have hdesk : (o.after early).desk = ((opened o screen).acts front).desk := by
    rw [desk_acts_opened, hearly]
  refine ⟨front, step, back, ⟨hsplit, ?_, during_of_prefixes ?_⟩, hdesk⟩
  · rw [hmove, ← hdesk]
    exact hx
  · intro front' a back' hback
    -- At each later act the desk is where some of the later events have brought it.
    have hprefix : front' <+: back := ⟨a :: back', hback.symm⟩
    have hmore := deskEvents_prefix ((opened o screen).acts (front ++ [.work step])) hprefix
    rw [hlate] at hmore
    rw [← acts_append, desk_acts_opened, deskEvents_append, deskEvents_append, hearly]
    have hstep : ((opened o screen).acts front).deskEvents [.work step] = [.move n] := by
      rw [← hmove]
      rfl
    rw [hstep, List.append_assoc]
    exact hbusy _ hmore

variable {o screen as}

theorem OccursBusy.store {front back : List Act} {step : Work} {x : Desk.Occurrence}
    (h : OccursBusy (opened o screen) as front step back x) :
    ((opened o screen).acts as).desk.store.identity = ((opened o screen).acts front).desk.store.identity ∧
      (((opened o screen).acts (front ++ [.work step])).NoPicks back →
        ((opened o screen).acts as).desk.store.choices = ((opened o screen).acts front).desk.store.choices) := by
  have hmoved : ((opened o screen).acts (front ++ [.work step])).desk.store.choices =
      ((opened o screen).acts front).desk.store.choices := by
    rw [acts_snoc]
    exact choices_work (orderly_opened o screen front) step
  have hn := orderly_opened o screen (front ++ [.work step])
  have hsplit : (opened o screen).acts as = ((opened o screen).acts (front ++ [.work step])).acts back := by
    rw [← acts_append, h.split, List.append_assoc]
    rfl
  rw [hsplit]
  constructor
  · rw [identity_acts hn h.busy, ← Store.identity_choices, hmoved, Store.identity_choices]
  · intro hpicks
    exact (choices_acts hn h.busy hpicks).trans hmoved

end Run

/-! ## Every run -/

/-- A connect has read what it is going to start with, or a session is adopted. -/
def Begins (d : Desk) (e : Desk.Event) : Prop :=
  (∃ n p, d.occurs e = some (.resumed n (.looks .params) (.go (.calling (.start p))))) ∨
    ∃ n channel next, d.occurs e = some (.resumed n (.changes (.adopted channel)) next)

theorem busy_of_begins {d : Desk} (hn : d.Orderly) {e : Desk.Event} (h : Begins d e) : ¬ (d.perform e).AtEase := by
  intro ease
  have hstate : (d.perform e).scene.controller.state = .disconnected := ease.disconnected
  have st := Desk.scene_perform hn e
  rcases h with ⟨n, p, hx⟩ | ⟨n, channel, next, hx⟩
  · rw [hx] at st
    obtain ⟨hnext, hc, -⟩ := st.of_resumed
    obtain ⟨-, hp⟩ := Desk.Cause.finds hnext.symm
    rw [hc] at hstate
    simp only [Desk.Cause.next, Session.Reading.resume, hp] at hnext hstate
    split at hnext
    · cases hnext
    · next hvisible =>
      rw [if_neg hvisible] at hstate
      cases hstate
  · rw [hx] at st
    obtain ⟨-, hc, -⟩ := st.of_resumed
    rw [hc] at hstate
    cases hstate

/-- What is frozen from a window on, for as long as the desk is not at ease. -/
structure Stretch (w : Window) (as : List Act) : Prop where
  /-- The channel and the user stay. -/
  identity : (w.acts as).desk.store.identity = w.desk.store.identity
  /-- So does all that is chosen, if no entry of a list is. -/
  choices : w.NoPicks as → (w.acts as).desk.store.choices = w.desk.store.choices
  /-- None can be chosen if no list was open to begin with. -/
  closed : w.screen.openMenu = none → w.NoPicks as

/-- What is frozen in a run of a window, and what is not. -/
structure Frozen (w : Window) (as : List Act) : Prop where
  /-- From where a session begins the desk is not at ease; for as long as that lasts, its choices are frozen. -/
  stretch : ∀ front step back, as = front ++ .work step :: back → Begins (w.acts front).desk step.event →
    ¬ (w.acts (front ++ [.work step])).desk.AtEase ∧
      ((w.acts (front ++ [.work step])).BusyDuring back → Stretch (w.acts (front ++ [.work step])) back)
  /-- An entry that is chosen all the same does change a choice, and nothing else does. -/
  exactly : ∀ front a back, as = front ++ a :: back → ¬ (w.acts front).desk.AtEase →
    ((w.acts (front ++ [a])).desk.store.choices = (w.acts front).desk.store.choices ↔ ¬ (w.acts front).Picks a)
  /-- Between two actions, one probe runs for a session, and pings the channel that is chosen. -/
  channel : (w.acts as).desk.controller.state = .connected → (w.acts as).desk.controller.gate = .idle →
    (w.acts as).desk.probes.map (·.channel) = [(w.acts as).desk.store.identity.channel]
  /-- What a session was started with is still chosen, if no entry was since then. -/
  session : ∀ p, (w.acts as).desk.controller.session = some p → (w.acts as).desk.controller.gate = .idle →
    ∃ front step back n,
      w.OccursBusy as front step back (.resumed n (.looks .params) (.go (.calling (.start p)))) ∧
      (w.acts front).desk.store.params? = some p ∧
      ((w.acts (front ++ [.work step])).NoPicks back → (w.acts as).desk.store.params? = some p)

section Run

variable (o : Desk.Opening) (screen : Screen) (as : List Act)

/-- A session that is at hand began in an act since which the desk has not been at ease. -/
theorem tenure_of_held {session : Desk.Holding}
    (h : Desk.held (o.after ((opened o screen).deskEvents as)).past = some session) :
    ∃ front step back x, OccursBusy (opened o screen) as front step back x ∧
      ((opened o screen).acts front).desk.store.identity.channel = session.channel ∧
      ∀ p, session.params = some p → ((opened o screen).acts front).desk.store.params? = some p ∧
        ∃ n, x = .resumed n (.looks .params) (.go (.calling (.start p))) := by
  obtain ⟨r, hr⟩ := o.exists_tenure _ h
  cases hr with
  | started n p looked =>
    obtain ⟨front, step, back, hoccurs, hdesk⟩ := exists_occursBusy o screen as looked
    have hp : ((opened o screen).acts front).desk.store.params? = some p := hdesk ▸ looked.occursAt.finds.2
    refine ⟨front, step, back, _, hoccurs, (Store.params?_eq_some_iff.mp hp).channel.symm, fun q hq => ?_⟩
    cases hq
    exact ⟨hp, n, rfl⟩
  | adopted n channel looked =>
    obtain ⟨front, step, back, hoccurs, hdesk⟩ := exists_occursBusy o screen as looked
    exact ⟨front, step, back, _, hoccurs, hdesk ▸ looked.occursAt.finds.2, nofun⟩

variable (idle : ((opened o screen).acts as).desk.controller.gate = .idle)

include idle

theorem held_of_connected (hc : ((opened o screen).acts as).desk.controller.state = .connected) :
    ∃ session, Desk.held (o.after ((opened o screen).deskEvents as)).past = some session ∧
      ((opened o screen).acts as).desk.controller.session = session.params ∧
      ((opened o screen).acts as).desk.probes.map (·.channel) = [session.channel] := by
  rw [desk_acts_opened] at idle hc ⊢
  obtain ⟨session, hup, hs⟩ := ((Desk.custody o _).rest idle).of_connected hc
  refine ⟨session, hs, congrArg Desk.Signs.session hup, ?_⟩
  have hpinged := congrArg Desk.Signs.pinged hup
  rw [(o.orderly _).kept.channels]
  exact congrArg Option.toList hpinged

theorem probe_channel (hc : ((opened o screen).acts as).desk.controller.state = .connected) :
    ((opened o screen).acts as).desk.probes.map (·.channel) =
      [((opened o screen).acts as).desk.store.identity.channel] := by
  obtain ⟨session, hs, -, hpinged⟩ := held_of_connected o screen as idle hc
  obtain ⟨front, step, back, x, hoccurs, hchannel, -⟩ := tenure_of_held o screen as hs
  rw [hpinged, hoccurs.store.1, hchannel]

theorem params_of_session {p : Wire.Params} (hp : ((opened o screen).acts as).desk.controller.session = some p) :
    ∃ front step back n,
      OccursBusy (opened o screen) as front step back (.resumed n (.looks .params) (.go (.calling (.start p)))) ∧
      ((opened o screen).acts front).desk.store.params? = some p ∧
      (((opened o screen).acts (front ++ [.work step])).NoPicks back →
        ((opened o screen).acts as).desk.store.params? = some p) := by
  have hc : ((opened o screen).acts as).desk.controller.state = .connected := by
    rw [desk_acts_opened] at idle hp ⊢
    exact ((o.session_eq_some_iff _ idle p).mp hp).1
  obtain ⟨session, hs, hsession, -⟩ := held_of_connected o screen as idle hc
  obtain ⟨front, step, back, x, hoccurs, -, hparams⟩ := tenure_of_held o screen as hs
  obtain ⟨hlooked, n, rfl⟩ := hparams p (hsession.symm.trans hp)
  refine ⟨front, step, back, n, hoccurs, hlooked, fun hpicks => ?_⟩
  rw [← Store.params?_choices, hoccurs.store.2 hpicks, Store.params?_choices, hlooked]

end Run

/-- In every run of a window, whatever its desk does between two frames and however it is answered: the choices of a
session are frozen from where it begins until the desk is at ease again, but for the entries of a list that is open. -/
theorem frozen_after (o : Desk.Opening) (screen : Screen) (as : List Act) : Frozen (opened o screen) as where
  stretch front step back hsplit hbegins := by
    have hn := orderly_opened o screen front
    have hafter : ((opened o screen).acts (front ++ [.work step])).desk.Orderly := orderly_opened ..
    constructor
    · rw [acts_snoc]
      exact busy_of_begins hn hbegins
    · intro busy
      exact ⟨identity_acts hafter busy, choices_acts hafter busy, noPicks_of_closed busy⟩
  exactly front a back hsplit busy := by
    rw [acts_snoc]
    exact choices_act_iff busy (orderly_opened ..) a
  channel hc idle := probe_channel o screen as idle hc
  session p hp idle := params_of_session o screen as idle hp

/-! ## A list that is open when the session begins -/

/-- A console that has a channel, but no graph yet. -/
def undecided : Desk.Opening where
  pingIntervalMs := 3000
  store := { identity := { channel := "room-1" } }
  unconnected := rfl

/-- While a check for a running session waits for its answer, the list of graphs is opened. -/
def openedWhileChecking : List Act :=
  [.work ⟨.begin .lookout .check, nofun⟩, .draw (.click (.menu .graphs)), .draw .idle] ++
    List.replicate 5 (.work ⟨.move 0, nofun⟩)

/-- Once the session is adopted, the user picks a graph. -/
theorem graph_picked_while_connected :
    ∃ (o : Desk.Opening) (screen : Screen) (front : List Act) (step : Work) (back : List Act),
      Begins ((opened o screen).acts front).desk step.event ∧
        ((opened o screen).acts (front ++ [.work step])).BusyDuring back ∧
        ((opened o screen).acts (front ++ .work step :: back)).desk.controller.state = .connected ∧
        ((opened o screen).acts (front ++ .work step :: back)).desk.controller.gate = .idle ∧
        ((opened o screen).acts (front ++ .work step :: back)).desk.store.selectedGraph? ≠
          ((opened o screen).acts (front ++ [.work step])).desk.store.selectedGraph? := by
  refine ⟨undecided, { view := {} }, openedWhileChecking, ⟨.move 0, nofun⟩, [.draw (.click (.entry .graphs 0))],
    .inr ⟨0, "room-1", _, rfl⟩, ⟨fun ease => ?_, trivial⟩, rfl, rfl, ?_⟩
  · exact nomatch ease.disconnected
  · decide

end AgentDesk.Window
