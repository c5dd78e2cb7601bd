/-! The graphs a session can run, and what is said of the character they play. -/
namespace AgentDesk.Catalog

/-- A graph on offer: what it is selected by, what the agent server calls it, what the user reads. -/
structure Graph where
  id : String
  name : String
  label : String
  deriving DecidableEq, Repr

/-- A graph that is selected by its name. -/
def Graph.ofName (name label : String) : Graph := ⟨name, name, label⟩

/-- The graphs on offer until the agent server's own list is known. -/
def defaultGraphs : List Graph :=
  [.ofName "va_openai_azure" "语音助手 - OpenAI LLM + Azure TTS",
   .ofName "camera_va_openai_azure" "语音助手（含视觉）- OpenAI LLM + Azure TTS"]

/-- The character description shown above the session's choices. -/
def description : String :=
  "一位基于尖端人工智能与深度学习技术打造的居家智能陪护助手。不是替代人类情感连接，而是提供补充性的支持、信息与温和陪伴。"

end AgentDesk.Catalog
