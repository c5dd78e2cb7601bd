import AgentDesk.Diagnosis
import AgentDesk.Http.Message
import AgentDesk.Wire.RequestId
import Std.Async.DNS
import Std.Async.TCP
import Std.Async.Timer

/-!
The command that diagnoses one channel: its first argument, or the one set in the environment. It reads the
environment, posts one ping over a connection of its own, and prints what the diagnosis says.
-/
namespace AgentDesk.Command

open Std.Async Std.Net

def readVariable (v : Settings.Variable) : BaseIO (Settings.Variable × Option (List UInt8)) := do
  return (v, (← IO.getEnv v.name).map fun s => s.toUTF8.toList)

def settingVariables : List Settings.Variable :=
  [.serverUrl, .requestTimeout, .pingInterval, .channel, .userId, .userName, .language, .voice,
   .notificationLimit]

def readEnvironment : BaseIO Settings.Environment := do
  let set ← settingVariables.mapM readVariable
  return fun v => (set.find? (·.1 = v)).bind (·.2)

def drawIdentity : IO Settings.Drawn := do
  let bytes ← IO.getRandomBytes 8
  let hex := bytes.toList.flatMap Wire.hexByte
  let number := bytes.toList.foldl (fun n b => 256 * n + b.toNat) 0
  return ⟨Settings.Drawn.channelOf hex, Settings.Drawn.userIdOf number⟩

def resolveHost (host : String) : Async (Option IPAddr) := do
  match IPv4Addr.ofString host with
  | some a => return some (.v4 a)
  | none => return (← DNS.getAddrInfo host "")[0]?

def socketAddress (a : IPAddr) (port : UInt16) : SocketAddress :=
  match a with
  | .v4 addr => .v4 ⟨addr, port⟩
  | .v6 addr => .v6 ⟨addr, port⟩

/-- All that comes until the other side closes the connection. -/
partial def receive (client : TCP.Socket.Client) (sofar : ByteArray) : Async ByteArray := do
  match ← client.recv? 65536 with
  | some bytes => receive client (sofar ++ bytes)
  | none => return sofar

/-- Posts over a connection without encryption; there is no other here. -/
def post (p : Http.Post) (url : Http.Url) : Async Http.Delivery := do
  if url.secure then return .failed "no encryption"
  match ← resolveHost url.host with
  | none => return .failed "unknown host"
  | some address =>
    let client ← TCP.Socket.Client.mk
    client.connect (socketAddress address url.connectPort.toUInt16)
    client.send (p.write url).toUTF8
    match Http.RawReply.read? (← receive client .empty).toList with
    | some reply => return .reply reply.toReply
    | none => return .failed "no reply"

def giveUpAfter (seconds : Nat) : Async Http.Delivery := do
  sleep (.ofNat (1000 * seconds))
  return .failed "out of time"

/-- Whatever goes wrong on the way, there is no reply. -/
def deliver (timeoutSecs : Nat) (p : Http.Post) (url : Http.Url) : IO Http.Delivery := do
  try (Async.race (post p url) (giveUpAfter timeoutSecs)).block
  catch e => return .failed e.toString

def wording : Json.Fault → String
  | .malformed => "not JSON"
  | .misfit m => m.message

/-- A plain client: it requests what URLs it can read, and follows no redirect. -/
def client (timeoutSecs : Nat) : Http.Client IO where
  refusal? url := if (Http.Url.parse? url).isSome then none else some "no URL to request"
  send p := do
    match Http.Url.parse? p.url with
    | some url => return { delivery := ← deliver timeoutSecs p url }
    | none => return { delivery := .failed "no URL to request" }
  wording fault _ := wording fault

def world : Diagnosis.World IO where
  print := IO.print
  complain := IO.eprint
  drawId := return Wire.requestId (← IO.getRandomBytes 16).toList
  client timeoutSecs := .ok (client timeoutSecs)
  added _ := ""

def diagnose (args : List String) : IO UInt8 := do
  let env ← readEnvironment
  let settings := Settings.ofEnvironment (← drawIdentity) env
  Diagnosis.carryOut world settings args env

end AgentDesk.Command

open AgentDesk in
def main (args : List String) : IO UInt32 := do
  return (← Command.diagnose args).toUInt32
