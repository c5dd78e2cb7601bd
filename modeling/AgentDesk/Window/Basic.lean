import AgentDesk.Window.Frame

/-!
The window over a running desk. A step of the user is one frame; after it everything runs until it waits, and
two idle frames show what has become of it.
-/
namespace AgentDesk

open Window

/-- `events` are those raised since they were last cleared. -/
structure Window where
  desk : Desk
  screen : Screen
  events : List Event := []

namespace Window

def shown (w : Window) : Shown where
  store := w.desk.store
  state := w.desk.controller.state
  loading := w.desk.controller.isLoading

/-- What an event does to the store, if it concerns the store alone. -/
def Event.action? (identity : Store.Identity) : Event → Option Store.Action
  | setChannel channel => some (.setIdentity { identity with channel := channel })
  | selectGraph id => some (.selectGraph (some id))
  | selectLanguage language => some (.setLanguage language)
  | selectVoice voice => some (.setVoice voice)
  | clearNotifications => some .clearNotifications
  | toggleConnection => none
  | channelCommitted => none

/-- Looks for a session that already runs for the store's channel. -/
def lookOut (d : Desk) : Desk := d.begin .lookout .check

/-- A new channel may have a running session; one is looked for only while there is none at hand. -/
def recheck (d : Desk) : Desk := if d.controller.state = .disconnected then lookOut d else d

def applyEvent (d : Desk) (e : Event) : Desk :=
  match e.action? d.store.identity with
  | some action => d.dispatch action
  | none =>
    match e with
    | .toggleConnection => d.begin .button .toggle
    | .channelCommitted => recheck d
    | _ => d

/-- One frame and all that follows from it. -/
def runFrame (w : Window) (input : Input) : Window :=
  let (screen, events) := frame w.shown w.screen input
  { desk := (events.foldl applyEvent w.desk).settle, screen := screen, events := w.events ++ events }

/-- Two idle frames. -/
def rest (w : Window) : Window := (w.runFrame .idle).runFrame .idle

/-- The `nth` widget of a role, and of a text if one is given. -/
def findWidget? (w : Window) (role : Role) (text : Option String) (nth : Nat) : Option Widget :=
  ((widgets w.shown w.screen).filter fun x => x.role = role && (text.isNone || text = some x.text))[nth]?

def onDesk (w : Window) (f : Desk → Desk) : Window := { w with desk := (f w.desk).settle }

def showPanels (w : Window) (modules notifications : Option Bool) : Window :=
  { w with
    screen :=
      { w.screen with
        view :=
          { w.screen.view with
            modulesVisible := modules.getD w.screen.view.modulesVisible
            notificationsVisible := notifications.getD w.screen.view.notificationsVisible } } }

def clearReport (w : Window) : Window := { w with desk := w.desk.clearReport, events := [] }

/-- The window of a console with the given settings, once it has been shown. -/
def ofSettings (s : Settings) : Except Settings.Error Window := do
  let desk ← Desk.ofSettings s
  return rest { desk := desk, screen := { view := { channelInput := s.channel } } }

end Window

end AgentDesk
