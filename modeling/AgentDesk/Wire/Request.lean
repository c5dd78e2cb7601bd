import AgentDesk.Catalog.Language
import AgentDesk.Catalog.Voice
import AgentDesk.Json.Printer

/-! The requests a session makes of the agent server, and their bodies. -/
namespace AgentDesk.Wire

/-- All that the agent server needs to start a session. -/
structure Params where
  channel : String
  userId : Nat
  graphName : String
  language : Catalog.Language
  voice : Catalog.Voice
  deriving DecidableEq, Repr

inductive RequestKind where
  | start
  | stop
  | ping
  deriving DecidableEq, Repr

inductive Request where
  | start (params : Params)
  | stop (channel : String)
  | ping (channel : String)
  deriving DecidableEq, Repr

namespace Request

def kind : Request → RequestKind
  | start _ => .start
  | stop _ => .stop
  | ping _ => .ping

def channel : Request → String
  | start p => p.channel
  | stop c => c
  | ping c => c

/-- Where the agent server takes requests of a kind. -/
def path : RequestKind → String
  | .start => "/api/agents/start"
  | .stop => "/api/agents/stop"
  | .ping => "/api/agents/ping"

/-- The members of the body, in the order in which they are written. -/
def members (requestId : String) : Request → List (String × Json.Value)
  | start p =>
    [("request_id", .string requestId), ("channel_name", .string p.channel), ("user_uid", .nat p.userId),
     ("graph_name", .string p.graphName), ("language", .string p.language.tag),
     ("voice_type", .string p.voice.tag)]
  | stop c => [("request_id", .string requestId), ("channel_name", .string c)]
  | ping c => [("request_id", .string requestId), ("channel_name", .string c)]

def body (requestId : String) (r : Request) : String :=
  Json.renderMembers ((r.members requestId).map fun m => (m.1, m.2.write))

end Request

end AgentDesk.Wire
