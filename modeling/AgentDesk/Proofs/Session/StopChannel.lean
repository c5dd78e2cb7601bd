import AgentDesk.Proofs.Session.Provenance

/-! # Which session a stop request names

A start request and the probe carry the channel that was looked up when the session began. A stop request carries
what the store says when the disconnect looks. So it names the session at hand exactly if the store's channel is
the same at both looks (`stop_names_session_iff`); an edit in between sends it elsewhere. -/
namespace AgentDesk.Desk
open Session

/-! ## The two looks -/

/-- It occurs in a run, and no stop request is sent from there on. -/
def Opening.OccursUnstopped (o : Opening) (es : List Event) (r : Chronicle) (x : Occurrence) : Prop :=
  o.OccursAt es r x ∧ ∃ after, (o.after es).past = r.past ++ x :: after ∧ ∀ y ∈ after, y.isStop = false

/-- Where the store's channel was looked up for a session: by the connect that started it, or by the check that
adopted it. -/
inductive Opening.BeganAt (o : Opening) (es : List Event) : Holding → Chronicle → Prop
  | started {r : Chronicle} (n : Nat) (p : Wire.Params)
      (looked : o.OccursUnstopped es r (.resumed n (.looks .params) (.go (.calling (.start p))))) :
      o.BeganAt es ⟨p.channel, some p⟩ r
  | adopted {r : Chronicle} (n : Nat) (channel : String)
      (looked : o.OccursUnstopped es r
        (.resumed n (.looks (.currentChannel channel)) (.go (.writing (.adopted channel))))) :
      o.BeganAt es ⟨channel, none⟩ r

theorem Opening.occursUnstopped_of_mem (o : Opening) (es : List Event) {x : Occurrence}
    (h : x ∈ sinceStop (o.after es).past) : ∃ r, o.OccursUnstopped es r x := by
  obtain ⟨before, after, hpast, hafter⟩ := split_of_mem_sinceStop h
  obtain ⟨r, hr, rfl⟩ := o.occursAt_of_past es hpast
  exact ⟨r, hr, after, hpast, hafter⟩

theorem Opening.OccursAt.finds {o : Opening} {es : List Event} {r : Chronicle} {n : Nat} {cause : Cause}
    {stage : Stage} (h : o.OccursAt es r (.resumed n cause (.go stage))) :
    cause.Finds r.desk.controller r.desk.store stage :=
  Cause.finds h.next_eq.symm

/-- The channel of a session is what the store said when it began. -/
theorem Opening.BeganAt.channel {o : Opening} {es : List Event} {session : Holding} {r : Chronicle}
    (h : o.BeganAt es session r) : r.desk.store.identity.channel = session.channel := by
  cases h with
  | started n p looked =>
    obtain ⟨-, hp⟩ := looked.1.finds
    obtain ⟨g, -, rfl⟩ := Option.map_eq_some_iff.mp hp
    rfl
  | adopted n channel looked => exact looked.1.finds.2

theorem Opening.exists_beganAt (o : Opening) (es : List Event) {session : Holding}
    (h : held (o.after es).past = some session) : ∃ began, o.BeganAt es session began := by
  cases held_origin o es session h with
  | started n p looked sent =>
    obtain ⟨r, hr⟩ := o.occursUnstopped_of_mem es looked
    exact ⟨r, .started n p hr⟩
  | adopted n channel response alive heard looked =>
    obtain ⟨r, hr⟩ := o.occursUnstopped_of_mem es looked
    exact ⟨r, .adopted n channel hr⟩

/-- A stop request about to be sent was looked up with the same session at hand. -/
def LookedUp (past : List Occurrence) (n : Nat) : Post → Prop
  | .sending (.stop channel) => ∃ before after,
      past = before ++ .resumed n (.looks .stopChannel) (.go (.calling (.stop channel))) :: after ∧
        held before = held past
  | _ => True

theorem lookedUp_traced : Traced LookedUp where
  free past n post h := by
    unfold LookedUp
    split
    · cases h
    · exact trivial
  aside past n post x h hs hg := by
    unfold LookedUp at h ⊢
    split at h
    · obtain ⟨before, after, rfl, hheld⟩ := h
      refine ⟨before, after ++ [x], by simp, ?_⟩
      rw [held_snoc, Occurrence.carry, hs, hg, hheld]
      rfl
    · exact trivial
  sent past n request h := trivial
  resumed past n cause c s stage h hgo := by
    have hfinds := Cause.finds hgo
    cases stage with
    | calling request =>
      cases request with
      | stop channel =>
        obtain ⟨rfl, -⟩ := hfinds
        refine ⟨past, [], rfl, ?_⟩
        rw [held_snoc]
        rfl
      | _ => exact trivial
    | _ => exact trivial

/-! ## What a stop request names -/

/-- An action sends a stop request at the end of a run: the session at hand, where it began and where the action
looked. -/
structure Opening.Stopping (o : Opening) (es : List Event) (n : Nat) (channel : String) (session : Holding)
    (began looked : Chronicle) : Prop where
  at_hand : held (o.after es).past = some session
  pinged : (o.after es).desk.probes.map (·.channel) = [session.channel]
  beganAt : o.BeganAt es session began
  lookedAt : o.OccursAt es looked (.resumed n (.looks .stopChannel) (.go (.calling (.stop channel))))
  kept : held looked.past = some session
  names_session : channel = session.channel ↔
    looked.desk.store.identity.channel = began.desk.store.identity.channel

/-- In every run, a stop request names the session at hand, which is the one that the probe pings, exactly if the
store's channel was the same when the disconnect looked as it was when the session began. -/
theorem stop_names_session_iff (o : Opening) (es : List Event) (e : Event) (n : Nat) (channel : String)
    (h : (o.after es).desk.occurs e = some (.sent (.task n) (.stop channel))) :
    ∃ session began looked, o.Stopping es n channel session began looked := by
  have st := scene_perform (o.orderly es) e
  rw [h] at st
  obtain ⟨errand, stood⟩ := st.stood_of_sent
  obtain ⟨-, ⟨session, hup, hheld⟩, -⟩ := (custody o es).holder stood rfl
  obtain ⟨before, after, hpast, hkept⟩ := provenance o lookedUp_traced es n _ stood
  obtain ⟨looked, hlooked, rfl⟩ := o.occursAt_of_past es hpast
  obtain ⟨began, hbegan⟩ := o.exists_beganAt es hheld
  have hchannel : looked.desk.store.identity.channel = channel := hlooked.finds.2
  have hpinged : (o.after es).desk.controller.probe.map (·.channel) = some session.channel := congrArg Signs.pinged hup
  refine ⟨session, began, looked, hheld, ?_, hbegan, hlooked, hkept.trans hheld, ?_⟩
  · rw [(o.orderly es).kept.channels, hpinged, Option.toList_some]
  · rw [hchannel, hbegan.channel]

/-! ## An edit while a session runs -/

/-- A session is started, and an action is about to stop it. -/
def startedThenStopping (between : List Event) : List Event :=
  alone 0 .connect 6 ++ between ++ alone 1 .disconnect 2

def moveToRoomTwo : Event := .edit ⟨.setIdentity { channel := "room-2" }, nofun⟩

theorem stop_names_session_unedited :
    ∃ session began looked, furnished.Stopping (startedThenStopping []) 1 "room-1" session began looked :=
  stop_names_session_iff furnished (startedThenStopping []) (.move 1) 1 "room-1" rfl

/-- The user moves on to another room while the session runs in the first: the stop request names the second. -/
theorem stop_names_edited_channel :
    ∃ (o : Opening) (es : List Event) (e : Event) (n : Nat) (channel : String) (session : Holding),
      (o.after es).desk.occurs e = some (.sent (.task n) (.stop channel)) ∧
        held (o.after es).past = some session ∧
        (o.after es).desk.probes.map (·.channel) = [session.channel] ∧
        channel ≠ session.channel := by
  refine ⟨furnished, startedThenStopping [moveToRoomTwo], .move 1, 1, "room-2",
    ⟨"room-1", some ⟨"room-1", 0, "va_openai_azure", .english, .male⟩⟩, rfl, rfl, rfl, ?_⟩
  decide

end AgentDesk.Desk
