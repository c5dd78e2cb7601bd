import AgentDesk.Wire.ApiError
import AgentDesk.Wire.ResultCode

/-! Why an action on the session did not do what was asked. -/
namespace AgentDesk.Session

/-- A connection that is refused, before any request or by the server; the user is told. -/
inductive Refusal where
  | noGraphSelected
  | emptyChannel
  | capacityExceeded
  | serviceFailure (code : Wire.ResultCode) (message : String)
  deriving DecidableEq, Repr

/-- A refusal, or a request that got no envelope; of the latter the controller itself tells nobody. -/
inductive Error where
  | refused (refusal : Refusal)
  | api (error : Wire.ApiError)
  deriving DecidableEq, Repr

def Refusal.message : Refusal → String
  | noGraphSelected => "No graph selected"
  | emptyChannel => "Channel name is empty"
  | capacityExceeded => "Concurrent session limit reached"
  | serviceFailure code message =>
    "Agent server rejected request (code " ++ code.display ++ "): " ++ message

/-- What the toast for a refusal says. -/
def Refusal.toast : Refusal → String
  | noGraphSelected => "请先选择一个图谱"
  | emptyChannel => "请先设置频道名称"
  | capacityExceeded => "当前同时在线体验人数已达上限，请稍后再试。"
  | serviceFailure code message => "错误码:" ++ code.display ++ "，信息:" ++ message

def Error.message : Error → String
  | refused r => r.message
  | api e => e.message

/-- The toast text of the errors that the controller reports itself. -/
def Error.userMessage? : Error → Option String
  | refused r => some r.toast
  | api _ => none

end AgentDesk.Session
