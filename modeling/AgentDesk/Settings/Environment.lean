import AgentDesk.Settings.Basic
import AgentDesk.Text.Utf8

/-!
Settings read from the environment. A variable that is not set, or whose value is not UTF-8, leaves its setting
at the default; so does a number that cannot be read. No text is trimmed.
-/
namespace AgentDesk.Settings

/-- The bytes of each variable that is set. -/
abbrev Environment := Variable → Option (List UInt8)

namespace Environment

def text? (env : Environment) (v : Variable) : Option String := (env v).bind Text.Utf8.decode?

/-- A number of at most `bits` bits. -/
def number? (env : Environment) (bits : Nat) (v : Variable) : Option Nat :=
  (env.text? v).bind (Text.Numeral.read? bits)

end Environment

/-- What a console that is not told calls its channel and its user, drawn at random. -/
structure Drawn where
  channel : String
  userId : Nat

/-- Eight hexadecimal digits make a channel. -/
def Drawn.channelOf (digits : List Char) : String := "agent_" ++ String.ofList (digits.take 8)

/-- A user id of six digits. -/
def Drawn.userIdOf (n : Nat) : Nat := n % 900000 + 100000

def ofEnvironment (drawn : Drawn) (env : Environment) : Settings :=
  let base : Settings := { channel := drawn.channel, userId := drawn.userId }
  { serverUrl := (env.text? .serverUrl).getD base.serverUrl
    requestTimeoutSecs := (env.number? 64 .requestTimeout).getD base.requestTimeoutSecs
    pingIntervalMs := (env.number? 64 .pingInterval).getD base.pingIntervalMs
    channel := (env.text? .channel).getD base.channel
    userId := (env.number? 32 .userId).getD base.userId
    userName := (env.text? .userName).getD base.userName
    language := (env.text? .language).getD base.language
    voice := (env.text? .voice).getD base.voice
    notificationLimit := (env.number? 64 .notificationLimit).getD base.notificationLimit }

end AgentDesk.Settings
