import AgentDesk.Desk.Run
import AgentDesk.Window.Column
import AgentDesk.Window.View

/-!
One frame of the window: what it shows, and what the user's input raises in it. A frame sees the store, the
state and the gate as they were when it began; its events are applied after it, in the order in which the
window lists the widgets that raised them.

The choices of a session are frozen while one exists or an action is under way. Freezing takes the focus from
the channel field, and keeps a list from opening. A list that is open is not part of what is frozen: it stays
until a click closes it.

A long list is seen from its first entry on, a long notification log up to its newest toast.
-/
namespace AgentDesk.Window

/-- What the user wants done. -/
inductive Event where
  | toggleConnection
  | setChannel (channel : String)
  /-- The channel field has lost its focus. -/
  | channelCommitted
  | selectGraph (id : String)
  | selectLanguage (language : Catalog.Language)
  | selectVoice (voice : Catalog.Voice)
  | clearNotifications
  deriving DecidableEq, Repr

/-- The lists of the session's choices. -/
inductive Menu where
  | graphs
  | languages
  | voices
  deriving DecidableEq, Repr

/-- What can be clicked. -/
inductive Target where
  | field
  | menu (menu : Menu)
  /-- An entry of the open list, by its place. -/
  | entry (menu : Menu) (index : Nat)
  | connect
  | clear
  | module (name : String)
  deriving DecidableEq, Repr

inductive Input where
  | idle
  | click (target : Target)
  | type (text : String)
  | backspace
  | selectAll
  | enter
  deriving DecidableEq, Repr

/-- What a frame sees of the desk. -/
structure Shown where
  store : Store
  state : Session.State
  loading : Bool

/-- Whether the session's choices can be changed. -/
def Shown.editable (s : Shown) : Bool := s.state = .disconnected && !s.loading

/-- The label of the connect button: an action under way comes first. -/
def connectLabel (state : Session.State) (loading : Bool) : String :=
  if loading then "连接中" else if state = .connected then "断开" else "连接"

/-- Disconnecting needs no graph, connecting does. -/
def connectEnabled (state : Session.State) (graphSelected : Bool) : Bool :=
  graphSelected || state = .connected

/-- The caret is at the end of the field, or all of its text is selected. -/
inductive Caret where
  | atEnd
  | all
  deriving DecidableEq, Repr

/-- What the window remembers from frame to frame. -/
structure Screen where
  view : View
  /-- There is a caret while the channel field has the focus. -/
  caret : Option Caret := none
  openMenu : Option Menu := none
  /-- The list whose box was clicked; it opens in the next frame, if the box can be used then as well. -/
  askedMenu : Option Menu := none
  deriving DecidableEq, Repr

/-! ### The channel field -/

/-- A text that is typed; nothing and a line end alone are not. -/
def isTyped (text : String) : Bool := text ≠ "" && text ≠ "\n" && text ≠ "\r"

/-- The text after typing or erasing at the caret, if either was done. -/
def edit? (text : String) (caret : Caret) : Input → Option String
  | .type new =>
    if isTyped new then some (match caret with | .atEnd => text ++ new | .all => new) else none
  | .backspace =>
    some (match caret with | .atEnd => String.ofList text.toList.dropLast | .all => "")
  | _ => none

/-- The caret after an input, in a field that can be edited. -/
def moveCaret (caret : Option Caret) : Input → Option Caret
  | .click .field => some .atEnd
  | .click _ => none
  | .enter => none
  | .selectAll => caret.map fun _ => .all
  | .type new => if isTyped new then caret.map fun _ => .atEnd else caret
  | .backspace => caret.map fun _ => .atEnd
  | .idle => caret

/-- The field's part of a frame: its new text, its caret and its events. -/
def fieldFrame (shown : Shown) (screen : Screen) (input : Input) : Screen × List Event :=
  let caret := if shown.editable then moveCaret screen.caret input else none
  let edited := if shown.editable then screen.caret.bind fun c => edit? screen.view.channelInput c input else none
  let text := edited.getD screen.view.channelInput
  let changed := edited.map fun t => Event.setChannel (Text.trim t)
  let left := if screen.caret.isSome && caret.isNone then [Event.channelCommitted] else []
  ({ screen with view := { screen.view with channelInput := text }, caret := caret },
   changed.toList ++ left)

/-! ### The lists -/

/-- The entries of a list: label, whether it is the present choice, and the event of choosing it. -/
structure Entry where
  label : String
  selected : Bool
  event : Event
  deriving DecidableEq, Repr

def entries (store : Store) : Menu → List Entry
  | .graphs => store.graphs.map fun g => ⟨g.label, store.selectedId = some g.id, .selectGraph g.id⟩
  | .languages => Catalog.Language.all.map fun l => ⟨l.label, store.language = l, .selectLanguage l⟩
  | .voices => Catalog.Voice.all.map fun v => ⟨v.label, store.voice = v, .selectVoice v⟩

/-- An entry has a point of space above and below its text. -/
def Entry.height (e : Entry) : Nat := max rowHeight (textHeight e.label + 2)

def listOpening : Opening := { length := 200 }

def placedEntries (store : Store) (menu : Menu) : List (Entry × Nat) :=
  place Entry.height 0 (entries store menu)

/-- Choosing an entry of the open list; choosing the present choice changes nothing. A click is aimed at the
middle of an entry, and the middle of an entry out of sight lies beside the list. -/
def entryEvent (shown : Shown) (screen : Screen) : Input → List Event
  | .click (.entry menu index) =>
    if screen.openMenu = some menu then
      match (placedEntries shown.store menu)[index]? with
      | some (e, start) => if e.selected || !listOpening.reaches (start + e.height / 2) then [] else [e.event]
      | none => []
    else []
  | _ => []

/-- A click on a list's box opens or closes it, if the box can be used; any other click closes the open list.
A box that cannot be used leaves its own list open. -/
def menuFrame (shown : Shown) (screen : Screen) : Input → Screen
  | .click (.menu m) =>
    if shown.editable then
      { screen with openMenu := none, askedMenu := if screen.openMenu = some m then none else some m }
    else { screen with openMenu := if screen.openMenu = some m then some m else none, askedMenu := none }
  | .click _ => { screen with openMenu := none, askedMenu := none }
  | _ =>
    match screen.askedMenu with
    | some m => { screen with openMenu := if shown.editable then some m else none, askedMenu := none }
    | none => screen

/-! ### The frame -/

def graphSelected (shown : Shown) : Bool := shown.store.selectedGraph?.isSome

def connectEvent (shown : Shown) : Input → List Event
  | .click .connect => if connectEnabled shown.state (graphSelected shown) then [.toggleConnection] else []
  | _ => []

def clearEvent (view : View) : Input → List Event
  | .click .clear => if view.notificationsVisible then [.clearNotifications] else []
  | _ => []

def moduleFrame (view : View) : Input → View
  | .click (.module name) => if view.modulesVisible then (view.selectModule name).1 else view
  | _ => view

/-- A frame: what the window remembers afterwards, and its events. -/
def frame (shown : Shown) (screen : Screen) (input : Input) : Screen × List Event :=
  let (after, fieldEvents) := fieldFrame shown (menuFrame shown screen input) input
  ({ after with view := moduleFrame after.view input },
   fieldEvents ++ entryEvent shown screen input ++ connectEvent shown input ++ clearEvent screen.view input)

/-! ### What is shown -/

inductive Role where
  | input
  | combo
  | option
  | button
  deriving DecidableEq, Repr

structure Widget where
  role : Role
  text : String
  enabled : Bool
  /-- Only entries and models can be selected. -/
  selected : Option Bool := none
  target : Target
  deriving DecidableEq, Repr

/-- A list's box and its entries, if it is open; those out of sight are listed too. -/
def menuWidgets (shown : Shown) (screen : Screen) (menu : Menu) : List Widget :=
  ⟨.combo, "", shown.editable, none, .menu menu⟩ ::
    (if screen.openMenu = some menu then
      (entries shown.store menu).zipIdx.map fun e => ⟨.option, e.1.label, true, some e.1.selected, .entry menu e.2⟩
    else [])

/-- The kinds of module that can be selected, in the order in which they are listed. -/
def modelKinds : List Catalog.ModuleKind := [.llm, .v2v]

def models : List Catalog.Module := modelKinds.flatMap Catalog.modulesOfKind

/-- All that can be clicked, in order. -/
def widgets (shown : Shown) (screen : Screen) : List Widget :=
  [⟨.input, screen.view.channelInput, shown.editable, none, .field⟩] ++
  [Menu.graphs, .languages, .voices].flatMap (menuWidgets shown screen) ++
  [⟨.button, connectLabel shown.state shown.loading,
    connectEnabled shown.state (graphSelected shown), none, .connect⟩] ++
  (if screen.view.notificationsVisible then [⟨.button, "清空", true, none, .clear⟩] else []) ++
  (if screen.view.modulesVisible then
    models.map fun m => ⟨.option, m.label, true, some (screen.view.selectedModule = some m.name), .module m.name⟩
  else [])

/-- The colours that mean something. -/
inductive Colour where
  | connecting
  | connected
  | success
  | failure
  deriving DecidableEq, Repr

def Colour.hex : Colour → String
  | connecting => "#dcb400"
  | connected => "#00c800"
  | success => "#00a000"
  | failure => "#dc2626"

inductive Painted where
  | plain (text : String)
  | coloured (text : String) (colour : Colour)
  /-- The time of day at which a toast was raised. -/
  | time (stamp : Store.Stamp)
  deriving DecidableEq, Repr

def badge : Session.State → Painted
  | .disconnected => .plain "未连接"
  | .connecting => .coloured "连接中" .connecting
  | .connected => .coloured "已连接" .connected

def toastHeight (n : Store.Notification) : Nat := max rowHeight (textHeight n.message)

def logOpening : Opening := { length := 108 }

/-- The toasts of the log, each with its distance from the newest one's end. -/
def placedToasts (log : Store.NotificationLog) : List (Store.Notification × Nat) :=
  (place toastHeight 0 log.entries.reverse).reverse

/-- What can be seen of a toast that ends at a distance from the newest one's end: its time, in the middle of
the least row, and its message, in the middle of its own. -/
def toastTexts (n : Store.Notification) (start : Nat) : List Painted :=
  let time := Painted.time n.stamp
  let message := Painted.coloured n.message (match n.level with | .success => .success | .error => .failure)
  let height := toastHeight n
  (if logOpening.reaches (start + (height - (rowHeight + lineHeight) / 2)) then [time] else []) ++
  (if logOpening.reaches (start + (height - textHeight n.message) / 2) then [message] else [])

def logTexts (log : Store.NotificationLog) : List Painted :=
  [.plain "通知", .plain "清空"] ++
  (if log.entries.isEmpty then [.plain "暂无通知"]
   else (placedToasts log).flatMap fun t => toastTexts t.1 t.2)

def kindTexts (kind : Catalog.ModuleKind) : List Painted :=
  (kind.label?.map Painted.plain).toList ++ (Catalog.modulesOfKind kind).map fun m => .plain m.label

/-- A hint stands where no tool can. -/
def toolTexts (view : View) : List Painted :=
  (if view.selectedModule.isNone then [.plain "选择一个模型查看可用工具"]
   else if view.selectedTools.isEmpty then [.plain "该模型不支持工具"]
   else []) ++
  view.selectedTools.flatMap fun m => [.plain m.label, .plain m.name]

def moduleTexts (view : View) : List Painted :=
  [.plain "模块"] ++ modelKinds.flatMap kindTexts ++ [.plain "可用工具"] ++ toolTexts view

def listTexts (store : Store) (menu : Menu) : List Painted :=
  ((placedEntries store menu).filter fun p => listOpening.reaches p.2).map fun p => .plain p.1.label

/-- All that is painted, in order; the entries of an open list come last, as they lie on top. -/
def texts (shown : Shown) (screen : Screen) : List Painted :=
  [.plain "晓佑", badge shown.state, .plain "角色设定", .plain Catalog.description, .plain "频道",
   .plain screen.view.channelInput,
   .plain ((shown.store.selectedGraph?.map (·.label)).getD "选择图谱"),
   .plain shown.store.language.label, .plain shown.store.voice.label,
   .plain (connectLabel shown.state shown.loading)] ++
  (if screen.view.notificationsVisible then logTexts shown.store.notifications else []) ++
  (if screen.view.modulesVisible then moduleTexts screen.view else []) ++
  match screen.openMenu with
  | some menu => listTexts shown.store menu
  | none => []

/-- The connect button has the colour of things that end something. -/
def isDestructive (shown : Shown) : Bool := shown.state = .connected

end AgentDesk.Window
