import AgentDesk.Http.Exchange
import AgentDesk.Settings.Environment

/-!
The diagnosis of one channel: whether a session runs for it, found out by a single ping. Bad settings come before
a missing channel, and both before anything is printed. Log lines are left out.
-/
namespace AgentDesk.Diagnosis

/-- Why a diagnosis fails. -/
inductive Failure where
  | badSettings (error : Settings.Error)
  | noChannel
  /-- There is no client to ping through. -/
  | noClient (detail : String)
  | unanswered (error : Wire.ApiError)
  deriving DecidableEq, Repr

/-- The channel to ask for: the argument if there is one, even a blank one, or else the environment's. -/
def channel? (argument : Option String) (env : Settings.Environment) : Option String :=
  (argument.or (env.text? .channel)).filter fun c => !Text.isBlankText c

/-- The channel to be pinged, or why none is. -/
def target (settings : Settings) (argument : Option String) (env : Settings.Environment) : Except Failure String :=
  match settings.check with
  | .error e => .error (.badSettings e)
  | .ok _ =>
    match channel? argument env with
    | none => .error .noChannel
    | some channel => .ok channel

/-! ### What is written -/

def heading (serverUrl channel : String) : String :=
  "Checking agent session...\n\n   Server:  " ++ serverUrl ++ "\n   Channel: " ++ channel ++ "\n"

def verdict (r : Wire.Response) : String :=
  if r.code.isSuccess then "\n   ✓ Session is running\n"
  else "\n   ✗ No running session (code " ++ r.code.display ++ ", " ++ r.message ++ ")\n"

namespace Failure

def message : Failure → String
  | badSettings e => e.message
  | noChannel => "No channel given: pass one as an argument or set AGENT_CHANNEL"
  | noClient detail => (Wire.ApiError.request detail).message
  | unanswered e => e.message

/-- What is told of a failure before the diagnosis is over. -/
def notice : Failure → String
  | unanswered e => "\n   ✗ Ping failed: " ++ e.message ++ "\n"
  | _ => ""

/-- All that is told of a failure; who reports it may add to it, such as what it was caused by. -/
def complaint (added : String) (f : Failure) : String :=
  f.notice ++ "Error: " ++ f.message ++ added ++ "\n"

end Failure

/-! ### In a world -/

/-- What a diagnosis is carried out in. -/
structure World (m : Type → Type) where
  print : String → m Unit
  complain : String → m Unit
  /-- The id of a request that is about to be made. -/
  drawId : m String
  /-- A client whose requests take so many seconds at most, or why there is none. -/
  client : Nat → Except String (Http.Client m)
  /-- What is added to the report of a failure. -/
  added : Failure → String

variable {m : Type → Type} [Monad m]

def giveUp (w : World m) (f : Failure) : m UInt8 := do
  w.complain (f.complaint (w.added f))
  return 1

/-- Ends a diagnosis whose ping has come to something. -/
def conclude (w : World m) : Except Wire.ApiError Wire.Response → m UInt8
  | .ok r => do
    w.print (verdict r)
    return 0
  | .error e => giveUp w (.unanswered e)

/-- Carries a diagnosis out, up to its exit code. The heading is printed before there is a client. -/
def carryOut (w : World m) (settings : Settings) (args : List String) (env : Settings.Environment) : m UInt8 :=
  match target settings args.head? env with
  | .error f => giveUp w f
  | .ok channel => do
    w.print (heading settings.serverUrl channel)
    match w.client settings.requestTimeoutSecs with
    | .error detail => giveUp w (.noClient detail)
    | .ok client => conclude w (← client.exchange settings.serverUrl (← w.drawId) (.ping channel))

/-! ### On record -/

/-- What a diagnosis does that can be seen from outside. -/
inductive Deed where
  | prints (text : String)
  | complains (text : String)
  | posts (post : Http.Post) (passage : Http.Passage)

/-- What a diagnosis finds: how requests fare through each client, and what it cannot know itself. -/
structure Surroundings where
  client : Nat → Except String (Http.Client Id)
  requestId : String
  added : Failure → String

/-- A client that puts each of its posts on record. -/
def noted (client : Http.Client Id) : Http.Client (StateM (List Deed)) where
  refusal? := client.refusal?
  wording := client.wording
  send post := do
    let passage := (client.send post).run
    modify (· ++ [.posts post passage])
    return passage

/-- The world that keeps a record of all deeds. -/
def Surroundings.world (s : Surroundings) : World (StateM (List Deed)) where
  print text := modify (· ++ [.prints text])
  complain text := modify (· ++ [.complains text])
  drawId := return s.requestId
  client seconds := (s.client seconds).map noted
  added := s.added

/-- What a diagnosis comes to: its exit code and its deeds. -/
def record (s : Surroundings) (settings : Settings) (args : List String) (env : Settings.Environment) :
    UInt8 × List Deed :=
  (carryOut s.world settings args env).run []

namespace Deed

def printed? : Deed → Option String
  | prints text => some text
  | _ => none

def complaint? : Deed → Option String
  | complains text => some text
  | _ => none

def post? : Deed → Option Http.Post
  | posts post _ => some post
  | _ => none

/-- What goes over the wire. -/
def transmitted : Deed → List Http.Transmission
  | posts post passage => passage.transmitted post
  | _ => []

end Deed

/-- What is printed, piece by piece. -/
def printed (deeds : List Deed) : List String := deeds.filterMap Deed.printed?

/-- What goes to the error output, piece by piece. -/
def complaints (deeds : List Deed) : List String := deeds.filterMap Deed.complaint?

/-- The requests that are made. -/
def posts (deeds : List Deed) : List Http.Post := deeds.filterMap Deed.post?

/-- All that goes over the wire. -/
def transmitted (deeds : List Deed) : List Http.Transmission := deeds.flatMap Deed.transmitted

end AgentDesk.Diagnosis
