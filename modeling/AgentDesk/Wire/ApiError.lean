import AgentDesk.Text.Numeral

/-! Why a request got no envelope. A code inside an envelope is never one of these, whatever it says. -/
namespace AgentDesk.Wire

inductive ApiError where
  /-- The request was not sent, or its answer not received; the detail is what the client says of it. -/
  | request (detail : String)
  /-- The HTTP status was not a success. -/
  | status (code : Nat) (body : String)
  /-- The body was not an envelope. -/
  | decode (text : String)
  deriving DecidableEq, Repr

def ApiError.message : ApiError → String
  | request detail => "Failed to reach agent server: " ++ detail
  | status code body => "Agent server returned HTTP " ++ Text.Numeral.natText code ++ ": " ++ body
  | decode text => "Failed to parse agent server response: " ++ text

end AgentDesk.Wire
