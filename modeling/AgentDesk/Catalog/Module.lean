/-!
The modules a graph can be wired from, and which tools each model can call. `toolNames` names only
modules of the registry, so looking them up loses none.
-/
namespace AgentDesk.Catalog

inductive ModuleKind where
  /-- Speech to text. -/
  | stt
  /-- A language model. -/
  | llm
  /-- A realtime model, voice to voice. -/
  | v2v
  /-- Text to speech. -/
  | tts
  /-- Something a model can call. -/
  | tool
  deriving DecidableEq, Repr

namespace ModuleKind

def all : List ModuleKind := [stt, llm, v2v, tts, tool]

def tag : ModuleKind → String
  | stt => "stt"
  | llm => "llm"
  | v2v => "v2v"
  | tts => "tts"
  | tool => "tool"

/-- The heading of the kind; tools have none, as they are listed under a model. -/
def label? : ModuleKind → Option String
  | stt => some "STT（语音转文字）"
  | llm => some "LLM（大语言模型）"
  | tts => some "TTS（文字转语音）"
  | v2v => some "LLM v2v（语音到语音）"
  | tool => none

end ModuleKind

/-- What a model takes as input. -/
inductive Modality where
  | video
  | audio
  | text
  deriving DecidableEq, Repr

namespace Modality

def all : List Modality := [video, audio, text]

def tag : Modality → String
  | video => "video"
  | audio => "audio"
  | text => "text"

end Modality

/-- A registered module. Only models have modalities, only tools return their output as content text. -/
structure Module where
  name : String
  kind : ModuleKind
  label : String
  modalities : List Modality := []
  outputsContentText : Bool := false
  deriving DecidableEq, Repr

/-- Models can be selected to see the tools they can call. -/
def Module.isModel (m : Module) : Bool := m.kind = .llm || m.kind = .v2v

def registry : List Module :=
  [⟨"deepgram_asr_python", .stt, "Deepgram 语音识别", [], false⟩,
   ⟨"transcribe_asr_python", .stt, "Transcribe 语音识别", [], false⟩,
   ⟨"speechmatics_asr_python", .stt, "Speechmatics 语音识别", [], false⟩,
   ⟨"openai_chatgpt_python", .llm, "OpenAI ChatGPT", [.text], false⟩,
   ⟨"dify_python", .llm, "Dify 聊天机器人", [.text], false⟩,
   ⟨"coze_python_async", .llm, "Coze 聊天机器人", [.text], false⟩,
   ⟨"gemini_llm_python", .llm, "Gemini 大模型", [.text], false⟩,
   ⟨"bedrock_llm_python", .llm, "Bedrock 大模型", [.text, .video], false⟩,
   ⟨"azure_tts", .tts, "Azure 语音合成", [], false⟩,
   ⟨"cartesia_tts", .tts, "Cartesia 语音合成", [], false⟩,
   ⟨"cosy_tts_python", .tts, "Cosy 语音合成", [], false⟩,
   ⟨"elevenlabs_tts_python", .tts, "Elevenlabs 语音合成", [], false⟩,
   ⟨"fish_audio_tts_python", .tts, "Fish Audio 语音合成", [], false⟩,
   ⟨"minimax_tts_python", .tts, "Minimax 语音合成", [], false⟩,
   ⟨"polly_tts", .tts, "Polly 语音合成", [], false⟩,
   ⟨"neuphonic_tts", .tts, "Neuphonic 语音合成", [], false⟩,
   ⟨"openai_tts_python", .tts, "OpenAI 语音合成", [], false⟩,
   ⟨"dubverse_tts", .tts, "Dubverse 语音合成", [], false⟩,
   ⟨"openai_v2v_python", .v2v, "OpenAI 实时对话", [.audio], false⟩,
   ⟨"gemini_v2v_python", .v2v, "Gemini 实时对话", [.video, .audio], false⟩,
   ⟨"glm_v2v_python", .v2v, "GLM 实时对话", [.audio], false⟩,
   ⟨"stepfun_v2v_python", .v2v, "Stepfun 实时对话", [.audio], false⟩,
   ⟨"azure_v2v_python", .v2v, "Azure 实时对话", [.audio], false⟩,
   ⟨"vision_analyze_tool_python", .tool, "视觉分析工具", [], false⟩,
   ⟨"weatherapi_tool_python", .tool, "天气查询工具", [], false⟩,
   ⟨"bingsearch_tool_python", .tool, "Bing 搜索工具", [], false⟩,
   ⟨"vision_tool_python", .tool, "视觉工具", [], false⟩,
   ⟨"openai_image_generate_tool", .tool, "OpenAI 图像生成工具", [], true⟩,
   ⟨"computer_tool_python", .tool, "计算机工具", [], true⟩,
   ⟨"mcp_client_python", .tool, "MCP 客户端工具", [], false⟩]

def findModule? (name : String) : Option Module := registry.find? (·.name == name)

/-- The modules of one kind, in the order of the registry. -/
def modulesOfKind (kind : ModuleKind) : List Module := registry.filter (·.kind = kind)

/-- The tools every realtime model can call. -/
def realtimeTools : List String :=
  ["weatherapi_tool_python", "bingsearch_tool_python", "openai_image_generate_tool", "computer_tool_python"]

def mcpClient : String := "mcp_client_python"

/-- The names of the tools a model can call, in the order in which they are listed. -/
def toolNames : String → List String
  | "openai_chatgpt_python" => "vision_tool_python" :: realtimeTools ++ [mcpClient]
  | "openai_v2v_python" => realtimeTools ++ [mcpClient]
  | "gemini_v2v_python" => realtimeTools
  | "glm_v2v_python" => realtimeTools
  | "stepfun_v2v_python" => realtimeTools ++ [mcpClient]
  | "azure_v2v_python" => realtimeTools ++ [mcpClient]
  | _ => []

/-- The tools a model can call; none for any other module. -/
def compatibleTools (name : String) : List Module := (toolNames name).filterMap findModule?

end AgentDesk.Catalog
