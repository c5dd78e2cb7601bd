import AgentDesk.Catalog.Graph
import AgentDesk.Catalog.Language
import AgentDesk.Catalog.Module
import AgentDesk.Catalog.Voice
import AgentDesk.Json.Printer
import AgentDesk.Json.Record

/-! The catalog's entries as JSON: a variant is its tag, spelled exactly; a graph is a record of three texts. -/
namespace AgentDesk.Catalog

def Language.decode : Json.Decoder Language := Json.decodeVariant (all.map fun l => (l.tag, l))

def Voice.decode : Json.Decoder Voice := Json.decodeVariant (all.map fun v => (v.tag, v))

def ModuleKind.decode : Json.Decoder ModuleKind := Json.decodeVariant (all.map fun k => (k.tag, k))

def Modality.decode : Json.Decoder Modality := Json.decodeVariant (all.map fun m => (m.tag, m))

/-- A graph that is being read. -/
structure Graph.Partial where
  id : Option String := none
  name : Option String := none
  label : Option String := none

def Graph.fields : List (Json.Field Graph.Partial) :=
  [{ name := "graph_id", required := true, seen := fun p => p.id.isSome
     fill := fun p s => (Json.decodeString s).map fun t => ({ p with id := some t.1 }, t.2) },
   { name := "name", required := true, seen := fun p => p.name.isSome
     fill := fun p s => (Json.decodeString s).map fun t => ({ p with name := some t.1 }, t.2) },
   { name := "label", required := true, seen := fun p => p.label.isSome
     fill := fun p s => (Json.decodeString s).map fun t => ({ p with label := some t.1 }, t.2) }]

def Graph.decode : Json.Decoder Graph := fun s => do
  let (p, r) ← Json.decodeRecord "GraphOption" Graph.fields {} s
  match p.id, p.name, p.label with
  | some id, some name, some label => .ok (⟨id, name, label⟩, r)
  | _, _, _ => .error .malformed

def Graph.members (g : Graph) : List (String × Json.Value) :=
  [("graph_id", .string g.id), ("name", .string g.name), ("label", .string g.label)]

def Graph.render (g : Graph) : String := Json.renderMembers (g.members.map fun m => (m.1, m.2.write))

end AgentDesk.Catalog
