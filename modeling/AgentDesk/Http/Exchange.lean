import AgentDesk.Wire.ApiError
import AgentDesk.Wire.Request
import AgentDesk.Wire.Response

/-!
One request over HTTP and what its reply means. Only a success status can carry an envelope; any other status is
an error, whatever the body says.

Requests go through a client, which is anybody's: it says which URLs it does not request, it connects, it follows
redirects, and of the reply that comes in the end it gives the status and the text.
-/
namespace AgentDesk.Http

/-- What a client is given to post, as JSON. -/
structure Post where
  url : String
  body : String
  deriving DecidableEq, Repr

def contentType : String := "application/json"

/-- A reply as a client gives it: its text, or the detail of why there is none. -/
structure Reply where
  status : Nat
  text : Except String String

/-- What comes of a request in the end. -/
inductive Delivery where
  | failed (detail : String)
  | reply (r : Reply)
  deriving Inhabited

/-! ### On the wire -/

/-- One request as it goes over the wire: a post with a body, or a look at a place without one. -/
structure Transmission where
  url : String
  body : Option String
  deriving DecidableEq, Repr

/-- A reply that refers a client to another place. -/
structure Redirect where
  status : Nat
  place : String
  refers : status ∈ [301, 302, 303, 307, 308]

/-- The request that follows a redirect: the same again under some statuses, a mere look under others. -/
def Redirect.follow (t : Transmission) (r : Redirect) : Transmission :=
  ⟨r.place, if r.status = 307 ∨ r.status = 308 then t.body else none⟩

/-- How a request fares: the redirects that its client follows, and what comes in the end. -/
structure Passage where
  redirects : List Redirect := []
  delivery : Delivery

/-- All that goes over the wire for one post. -/
def Passage.transmitted (p : Passage) (post : Post) : List Transmission :=
  p.redirects.scanl Redirect.follow ⟨post.url, some post.body⟩

/-! ### Through a client -/

structure Client (m : Type → Type) where
  /-- Why a URL is not requested, if it is not. -/
  refusal? : String → Option String
  send : Post → m Passage
  /-- What is said of a text that holds no envelope: what is wrong with it, and where. -/
  wording : Json.Fault → String → String

/-- A URL without the slashes at its end. -/
def trimSlashes (s : String) : String :=
  String.ofList (s.toList.reverse.dropWhile (· == '/')).reverse

/-- The URL of an endpoint below a base. -/
def endpoint (base : String) (kind : Wire.RequestKind) : String := trimSlashes base ++ Wire.Request.path kind

/-- What is posted to make a request. -/
def post (base requestId : String) (request : Wire.Request) : Post :=
  ⟨endpoint base request.kind, request.body requestId⟩

def isSuccess (status : Nat) : Bool := 200 ≤ status && status < 300

theorem isSuccess_iff {status : Nat} : isSuccess status = true ↔ 200 ≤ status ∧ status < 300 := by
  simp [isSuccess]

namespace Client

variable {m : Type → Type} (client : Client m)

def undecodable (fault : Json.Fault) (text : String) : Wire.ApiError :=
  .decode (client.wording fault text ++ " - Response body: " ++ text)

/-- The text of a reply that is no success, for whoever is told of it. -/
def errorBody : Except String String → String
  | .ok text => text
  | .error _ => "Unable to read error body"

/-- The meaning of a reply. -/
def interpret (r : Reply) : Except Wire.ApiError Wire.Response :=
  if isSuccess r.status then
    match r.text with
    | .error detail => .error (.request detail)
    | .ok text =>
      match Wire.Response.parse text with
      | .ok response => .ok response
      | .error fault => .error (client.undecodable fault text)
  else .error (.status r.status (errorBody r.text))

def answer : Delivery → Except Wire.ApiError Wire.Response
  | .failed detail => .error (.request detail)
  | .reply r => client.interpret r

/-- Makes a request: one post, or none if the client does not request the URL. -/
def exchange [Monad m] (base requestId : String) (request : Wire.Request) :
    m (Except Wire.ApiError Wire.Response) :=
  match client.refusal? (post base requestId request).url with
  | some detail => return .error (.request detail)
  | none => do return client.answer (← client.send (post base requestId request)).delivery

theorem exchange_run (client : Client Id) (base requestId : String) (request : Wire.Request) :
    (client.exchange base requestId request).run =
      match client.refusal? (post base requestId request).url with
      | some detail => .error (.request detail)
      | none => client.answer (client.send (post base requestId request)).run.delivery := by
  rw [exchange]
  split <;> rfl

end Client

end AgentDesk.Http
