import AgentDesk.Session.Controller
import AgentDesk.Store.Basic
import AgentDesk.Text.Blank
import AgentDesk.Wire.Response

/-!
The actions on a session, each as the stages at which it may have to wait: for a look into the store, for a
change of the store, for an answer of the agent server. Between two stages an action runs by itself. `begin` is
what it does first, and the three `resume` functions are what it does when the wait is over.

Connecting and disconnecting hold the gate from first to last. A check for a running session takes it when its
ping is answered, and drops the answer if it cannot.
-/
namespace AgentDesk.Session

inductive Command where
  | connect
  | disconnect
  /-- Disconnects a connected session and connects otherwise. -/
  | toggle
  /-- Adopts a session that already runs for the store's channel. -/
  | check
  deriving DecidableEq, Repr

inductive Result where
  | outcome (result : Except Error Outcome)
  /-- Whether a session is connected after the check. -/
  | adoption (result : Except Error Bool)

/-- What is looked up in the store. -/
inductive Reading where
  | params
  | stopChannel
  | pingChannel
  | currentChannel (pinged : String)
  deriving DecidableEq, Repr

/-- Why a session was torn down. -/
inductive Teardown where
  | failed (error : Wire.ApiError)
  | refused (refusal : Refusal)
  | stopped
  deriving DecidableEq, Repr

/-- What a finished action has brought about. -/
inductive Transition where
  | connected
  | disconnected
  deriving DecidableEq, Repr

/-- What is changed in the store. -/
inductive Writing where
  | refusal (refusal : Refusal)
  | teardown (reason : Teardown)
  | started (params : Wire.Params)
  | announce (transition : Transition)
  | adopted (channel : String)
  /-- The window's own report of an error that nobody was told of. -/
  | toast (text : String)
  deriving DecidableEq, Repr

inductive Stage where
  | reading (r : Reading)
  | writing (w : Writing)
  | calling (request : Wire.Request)
  deriving DecidableEq, Repr

/-- Where an action goes from a stage. -/
inductive Next where
  | go (stage : Stage)
  | done (result : Result)
  /-- There is nothing left to tell. -/
  | closed

/-- Whether an action holds the gate while it waits. -/
def Stage.holdsGate : Stage → Bool
  | .reading .pingChannel => false
  | .writing (.toast _) => false
  | .calling (.ping _) => false
  | _ => true

def Transition.outcome : Transition → Outcome
  | connected => .connected
  | disconnected => .disconnected

/-- What the toast for a transition says. -/
def Transition.toast : Transition → String
  | connected => "晓佑已连接"
  | disconnected => "已断开晓佑"

namespace Command

def beginConnect (c : Controller) : Controller × Next :=
  match c.gate.acquire? with
  | none => (c, .done (.outcome (.ok .suppressed)))
  | some gate =>
    if c.state = .connected then (c, .done (.outcome (.ok .connected)))
    else ({ c with gate := gate }, .go (.reading .params))

def beginDisconnect (c : Controller) : Controller × Next :=
  match c.gate.acquire? with
  | none => (c, .done (.outcome (.ok .suppressed)))
  | some gate =>
    if c.state ≠ .connected then (c, .done (.outcome (.ok .disconnected)))
    else ({ c with gate := gate }, .go (.reading .stopChannel))

def begin (c : Controller) : Command → Controller × Next
  | connect => beginConnect c
  | disconnect => beginDisconnect c
  | toggle => if c.state = .connected then beginDisconnect c else beginConnect c
  | check => (c, .go (.reading .pingChannel))

end Command

/-- Goes on with what the store says. -/
def Reading.resume (c : Controller) (store : Store) : Reading → Controller × Next
  | params =>
    match store.params? with
    | none => (c, .go (.writing (.refusal .noGraphSelected)))
    | some p =>
      if Text.isBlankText p.channel then (c, .go (.writing (.refusal .emptyChannel)))
      else ({ c with state := .connecting }, .go (.calling (.start p)))
  | stopChannel => (c, .go (.calling (.stop store.identity.channel)))
  | pingChannel =>
    if Text.isBlankText store.identity.channel then (c, .done (.adoption (.ok false)))
    else (c, .go (.calling (.ping store.identity.channel)))
  | currentChannel pinged =>
    if store.identity.channel = pinged then (c, .go (.writing (.adopted pinged)))
    else (c.release, .done (.adoption (.ok false)))

namespace Writing

/-- The change itself. -/
def action : Writing → Store.Action
  | refusal r => .notify (.error r.toast)
  | teardown _ => .setAgentConnected false
  | started _ => .setAgentConnected true
  | announce t => .notify (.success t.toast)
  | adopted _ => .setAgentConnected true
  | toast text => .notify (.error text)

/-- Goes on once the store is changed. -/
def resume (c : Controller) : Writing → Controller × Next
  | refusal r => (c.release, .done (.outcome (.error (.refused r))))
  | teardown (.failed e) => (c.release, .done (.outcome (.error (.api e))))
  | teardown (.refused r) => (c, .go (.writing (.refusal r)))
  | teardown .stopped => (c, .go (.writing (.announce .disconnected)))
  | started p => (c.markConnected p.channel, .go (.writing (.announce .connected)))
  | announce t => (c.release, .done (.outcome (.ok t.outcome)))
  | adopted channel => ((c.markConnected channel).release, .done (.adoption (.ok true)))
  | toast _ => (c, .closed)

end Writing

/-- What a request is answered: an envelope, or why there is none. -/
abbrev Answer := Except Wire.ApiError Wire.Response

/-- Why the server refused to start a session. -/
def refusalOf (r : Wire.Response) : Refusal :=
  if r.code.isCapacityExceeded then .capacityExceeded else .serviceFailure r.code r.message

/-- What the answer to a start request comes to. -/
def afterStart (c : Controller) (p : Wire.Params) : Answer → Controller × Next
  | .error e => (c.tearDown, .go (.writing (.teardown (.failed e))))
  | .ok r =>
    if r.code.isSuccess then ({ c with session := some p }, .go (.writing (.started p)))
    else (c.tearDown, .go (.writing (.teardown (.refused (refusalOf r)))))

/-- Whatever a stop request is answered, the session is over. -/
def afterStop (c : Controller) : Answer → Controller × Next
  | .error e => (c.tearDown, .go (.writing (.teardown (.failed e))))
  | .ok _ => (c.tearDown, .go (.writing (.teardown .stopped)))

/-- A running session is adopted only with the gate free and no session at hand. -/
def afterPing (c : Controller) (channel : String) : Answer → Controller × Next
  | .error e => (c, .done (.adoption (.error (.api e))))
  | .ok r =>
    if !r.code.isSuccess then (c, .done (.adoption (.ok false)))
    else
      match c.gate.acquire? with
      | none => (c, .done (.adoption (.ok false)))
      | some gate =>
        if c.state ≠ .disconnected then (c, .done (.adoption (.ok (c.state = .connected))))
        else ({ c with gate := gate }, .go (.reading (.currentChannel channel)))

/-- Goes on with the answer to a request. -/
def resumeCall (c : Controller) (request : Wire.Request) (answer : Answer) : Controller × Next :=
  match request with
  | .start p => afterStart c p answer
  | .stop _ => afterStop c answer
  | .ping channel => afterPing c channel answer

end AgentDesk.Session
