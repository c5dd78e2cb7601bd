import AgentDesk.Text.AsciiCase

/-! The languages an agent can listen and speak in. -/
namespace AgentDesk.Catalog

inductive Language where
  | english
  | chinese
  | korean
  | japanese
  deriving DecidableEq, Repr, Inhabited

namespace Language

/-- In the order in which they are offered; the first is the default. -/
def all : List Language := [english, chinese, korean, japanese]

/-- The language tag, which is how the agent server names it. -/
def tag : Language → String
  | english => "en-US"
  | chinese => "zh-CN"
  | korean => "ko-KR"
  | japanese => "ja-JP"

def label : Language → String
  | english => "英语"
  | chinese => "中文（简体）"
  | korean => "韩语"
  | japanese => "日语"

/-- Reads a tag in any case of its ASCII letters. -/
def ofText? (s : String) : Option Language := all.find? fun l => Text.sameLetters l.tag s

def unsupported (s : String) : String := "unsupported language: " ++ s

/-- The language that a text names, or what is said of a text that names none. -/
def parse (s : String) : Except String Language :=
  match ofText? s with
  | some l => .ok l
  | none => .error (unsupported s)

end Language

end AgentDesk.Catalog
