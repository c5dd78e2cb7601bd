import AgentDesk.Wire.ResultCode

/-! The envelope of every answer of the agent server: a code, a message that may be missing, and a payload. -/
namespace AgentDesk.Wire

structure Response where
  code : ResultCode
  msg : Option String
  data : Option Json.Value
  deriving Repr

namespace Response

/-- The answer that all went well. -/
def ok : Response := ⟨.number 0, some "success", none⟩

def failure (code : ResultCode) (msg : String) : Response := ⟨code, some msg, none⟩

/-- The message, empty when the server left it out. -/
def message (r : Response) : String := r.msg.getD ""

/-- An envelope that is being read; a member that was there counts as seen even if it was `null`. -/
structure Partial where
  code : Option ResultCode := none
  msg : Option (Option String) := none
  data : Option (Option Json.Value) := none

/-- How deep a member may nest inside the envelope's own brackets. -/
def memberNesting : Nat := Json.nestingLimit - 1

def fields : List (Json.Field Partial) :=
  [{ name := "code", required := true, seen := fun p => p.code.isSome
     fill := fun p s => (ResultCode.decode memberNesting s).map fun t => ({ p with code := some t.1 }, t.2) },
   { name := "msg", required := false, seen := fun p => p.msg.isSome
     fill := fun p s =>
      (Json.decodeOptional Json.decodeString s).map fun t => ({ p with msg := some t.1 }, t.2) },
   { name := "data", required := false, seen := fun p => p.data.isSome
     fill := fun p s =>
      (Json.decodeOptional (fun s => Json.decoded (Json.readValue memberNesting s)) s).map
        fun t => ({ p with data := some t.1 }, t.2) }]

def decode : Json.Decoder Response := fun s => do
  let (p, r) ← Json.decodeRecord "ApiResponse" fields {} s
  match p.code with
  | some code => .ok (⟨code, p.msg.join, p.data.join⟩, r)
  | none => .error .malformed

/-- The envelope that a whole text holds. -/
def parse (s : String) : Except Json.Fault Response := Json.decodeText decode s

def optional : Option Json.Value → Json.Value
  | some v => v
  | none => .null

/-- The members in the order in which they are written. -/
def members (r : Response) : List (String × Json.Value) :=
  [("code", r.code.toJson), ("msg", optional (r.msg.map .string)), ("data", optional r.data)]

def render (r : Response) : String := Json.renderMembers (r.members.map fun m => (m.1, m.2.write))

end Response

end AgentDesk.Wire
