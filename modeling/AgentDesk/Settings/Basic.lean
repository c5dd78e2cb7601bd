import AgentDesk.Catalog.Language
import AgentDesk.Catalog.Voice
import AgentDesk.Store.Basic
import AgentDesk.Text.Numeral

/-!
The settings of a console and the check they must pass before anything is built from them. Language and voice
are kept as they were written and parsed by the check.
-/
namespace AgentDesk.Settings

/-- What is wrong with a setting; `name` is its variable in the environment. -/
inductive Error where
  | invalidValue (name value : String)
  | notPositive (name : String)
  | tooLarge (name : String) (limit : Nat)
  deriving DecidableEq, Repr

def Error.message : Error → String
  | .invalidValue name value => "Invalid value for " ++ name ++ ": " ++ value
  | .notPositive name => name ++ " must be > 0"
  | .tooLarge name limit => name ++ " must be <= " ++ Text.Numeral.natText limit

/-- The variables that settings are read from. -/
inductive Variable where
  | serverUrl
  | requestTimeout
  | pingInterval
  | channel
  | userId
  | userName
  | language
  | voice
  | notificationLimit
  deriving DecidableEq, Repr

def Variable.name : Variable → String
  | serverUrl => "AGENT_SERVER_URL"
  | requestTimeout => "AGENT_REQUEST_TIMEOUT_SECS"
  | pingInterval => "PING_INTERVAL_MS"
  | channel => "AGENT_CHANNEL"
  | userId => "AGENT_USER_ID"
  | userName => "AGENT_USER_NAME"
  | language => "AGENT_LANGUAGE"
  | voice => "AGENT_VOICE_TYPE"
  | notificationLimit => "NOTIFICATION_LIMIT"

end AgentDesk.Settings

namespace AgentDesk

/-- Times are in the unit that their names end in; a notification limit of 0 keeps every toast. -/
structure Settings where
  serverUrl : String := "http://localhost:8080"
  requestTimeoutSecs : Nat := 30
  pingIntervalMs : Nat := 3000
  channel : String
  userId : Nat
  userName : String := ""
  language : String := Catalog.Language.tag .english
  voice : String := Catalog.Voice.tag .male
  notificationLimit : Nat := Store.NotificationLog.defaultLimit
  deriving DecidableEq, Repr

namespace Settings

/-- The longest interval between two pings, an hour. -/
def longestPingIntervalMs : Nat := 3600000

/-- A server's URL must name one of two schemes, in lower case. -/
def hasWebScheme (url : String) : Bool :=
  "http://".toList.isPrefixOf url.toList || "https://".toList.isPrefixOf url.toList

def language? (s : Settings) : Except Error Catalog.Language :=
  match Catalog.Language.ofText? s.language with
  | some l => .ok l
  | none => .error (.invalidValue Variable.language.name s.language)

def voice? (s : Settings) : Except Error Catalog.Voice :=
  match Catalog.Voice.ofText? s.voice with
  | some v => .ok v
  | none => .error (.invalidValue Variable.voice.name s.voice)

/-- Refuses the first setting that is bad. -/
def check (s : Settings) : Except Error Unit := do
  if !hasWebScheme s.serverUrl then .error (.invalidValue Variable.serverUrl.name s.serverUrl)
  if s.requestTimeoutSecs = 0 then .error (.notPositive Variable.requestTimeout.name)
  if s.pingIntervalMs = 0 then .error (.notPositive Variable.pingInterval.name)
  if longestPingIntervalMs < s.pingIntervalMs then
    .error (.tooLarge Variable.pingInterval.name longestPingIntervalMs)
  let _ ← s.language?
  let _ ← s.voice?

/-- Who joins the room, as far as the settings say. -/
def identity (s : Settings) : Store.Identity := ⟨s.channel, s.userName, s.userId⟩

/-- The store that a console starts with. -/
def initialStore (s : Settings) (language : Catalog.Language) (voice : Catalog.Voice) : Store :=
  { identity := s.identity, language := language, voice := voice,
    notifications := ⟨s.notificationLimit, []⟩ }

end Settings

end AgentDesk
