import AgentDesk.Catalog.Module

/-! What belongs to the window alone: the channel as it is being typed, the model looked at, which panels show. -/
namespace AgentDesk.Window

structure View where
  channelInput : String := ""
  selectedModule : Option String := none
  modulesVisible : Bool := true
  notificationsVisible : Bool := true
  deriving DecidableEq, Repr

namespace View

/-- Selects a model, and tells whether that is a change; any other module is ignored. -/
def selectModule (v : View) (name : String) : View × Bool :=
  match Catalog.findModule? name with
  | some m =>
    if m.isModel then ({ v with selectedModule := some name }, v.selectedModule ≠ some name) else (v, false)
  | none => (v, false)

/-- The tools that the selected model can call. -/
def selectedTools (v : View) : List Catalog.Module :=
  match v.selectedModule with
  | some name => Catalog.compatibleTools name
  | none => []

end View

end AgentDesk.Window
