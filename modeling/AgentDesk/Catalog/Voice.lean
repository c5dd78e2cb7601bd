import AgentDesk.Text.AsciiCase

/-! The voices an agent can speak with. -/
namespace AgentDesk.Catalog

inductive Voice where
  | male
  | female
  deriving DecidableEq, Repr, Inhabited

namespace Voice

/-- In the order in which they are offered; the first is the default. -/
def all : List Voice := [male, female]

/-- How the agent server names the voice. -/
def tag : Voice → String
  | male => "male"
  | female => "female"

def label : Voice → String
  | male => "男声"
  | female => "女声"

/-- Reads a tag in any case of its ASCII letters. -/
def ofText? (s : String) : Option Voice :=
  match Text.lower s with
  | "male" => some male
  | "female" => some female
  | _ => none

def unsupported (s : String) : String := "unsupported voice type: " ++ s

/-- The voice that a text names, or what is said of a text that names none. -/
def parse (s : String) : Except String Voice :=
  match ofText? s with
  | some v => .ok v
  | none => .error (unsupported s)

end Voice

end AgentDesk.Catalog
