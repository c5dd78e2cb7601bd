import AgentDesk.Catalog.Graph
import AgentDesk.Store.Notification
import AgentDesk.Wire.Request

/-! The store: what the user has chosen and been told, changed by dispatched actions only. -/
namespace AgentDesk

namespace Store

/-- Who joins which room. -/
structure Identity where
  channel : String := ""
  userName : String := ""
  userId : Nat := 0
  deriving DecidableEq, Repr

inductive Action where
  | setIdentity (identity : Identity)
  /-- Tells whether a session is active; only the controller of the session dispatches it. -/
  | setAgentConnected (connected : Bool)
  | selectGraph (id : Option String)
  | setGraphs (graphs : List Catalog.Graph)
  | setLanguage (language : Catalog.Language)
  | setVoice (voice : Catalog.Voice)
  | notify (notification : Notification)
  | clearNotifications
  deriving DecidableEq, Repr

/-- Whether an id is on a list of graphs. -/
def offers (graphs : List Catalog.Graph) (id : String) : Bool := graphs.any (·.id == id)

end Store

open Store

structure Store where
  identity : Identity := {}
  agentConnected : Bool := false
  selectedId : Option String := none
  graphs : List Catalog.Graph := Catalog.defaultGraphs
  language : Catalog.Language := .english
  voice : Catalog.Voice := .male
  notifications : NotificationLog := ⟨NotificationLog.defaultLimit, []⟩
  deriving DecidableEq, Repr

namespace Store

/-- A new list of graphs keeps the selection only if it still offers it. -/
def dispatch (s : Store) : Action → Store
  | .setIdentity identity => { s with identity := identity }
  | .setAgentConnected connected => { s with agentConnected := connected }
  | .selectGraph id => { s with selectedId := id }
  | .setGraphs graphs => { s with graphs := graphs, selectedId := s.selectedId.filter (offers graphs) }
  | .setLanguage language => { s with language := language }
  | .setVoice voice => { s with voice := voice }
  | .notify n => { s with notifications := s.notifications.push n }
  | .clearNotifications => { s with notifications := s.notifications.clear }

/-- The first graph on the list with the selected id. -/
def selectedGraph? (s : Store) : Option Catalog.Graph :=
  s.selectedId.bind fun id => s.graphs.find? (·.id == id)

/-- What a session started now would be started with. -/
def params? (s : Store) : Option Wire.Params :=
  s.selectedGraph?.map fun g => ⟨s.identity.channel, s.identity.userId, g.name, s.language, s.voice⟩

end Store

end AgentDesk
