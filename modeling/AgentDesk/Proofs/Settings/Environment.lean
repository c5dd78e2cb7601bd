import AgentDesk.Proofs.Text.Trim
import AgentDesk.Proofs.Text.Utf8
import AgentDesk.Settings.Environment

/-! # What is read from the environment

Each setting comes from its own variable or is the default (`load_follows_process`). A text is taken as it is, a number
from the texts that spell it. -/
namespace AgentDesk.Settings

/-- The environment of a process, by the names of its variables. -/
abbrev Process := String → Option (List UInt8)

/-- The settings' variables among those of a process. -/
def Process.environment (p : Process) : Environment := fun v => p v.name

/-- The settings of a process. -/
def load (drawn : Drawn) (p : Process) : Settings := ofEnvironment drawn p.environment

/-- The variable is set, to the bytes of a text. -/
def Says (p : Process) (name s : String) : Prop := p name = some (Text.Utf8.encode s)

/-- The variable is set, to a text that spells a number of at most `bits` bits. -/
def Counts (p : Process) (bits : Nat) (name : String) (n : Nat) : Prop :=
  ∃ s, Says p name s ∧ Text.Numeral.Spells bits s n

/-- A setting is what it is told to be, and the default if it is told nothing. -/
structure Follows {α : Type} (told : α → Prop) (default value : α) : Prop where
  given : ∀ a, told a → value = a
  otherwise : (∀ a, ¬ told a) → value = default

/-- Where the settings of a process come from. -/
structure Loaded (drawn : Drawn) (p : Process) (s : Settings) : Prop where
  serverUrl : Follows (Says p "AGENT_SERVER_URL") "http://localhost:8080" s.serverUrl
  requestTimeout : Follows (Counts p 64 "AGENT_REQUEST_TIMEOUT_SECS") 30 s.requestTimeoutSecs
  pingInterval : Follows (Counts p 64 "PING_INTERVAL_MS") 3000 s.pingIntervalMs
  channel : Follows (Says p "AGENT_CHANNEL") drawn.channel s.channel
  userId : Follows (Counts p 32 "AGENT_USER_ID") drawn.userId s.userId
  userName : Follows (Says p "AGENT_USER_NAME") "" s.userName
  language : Follows (Says p "AGENT_LANGUAGE") "en-US" s.language
  voice : Follows (Says p "AGENT_VOICE_TYPE") "male" s.voice
  notificationLimit : Follows (Counts p 64 "NOTIFICATION_LIMIT") 50 s.notificationLimit

/-- The setting that a variable is for. -/
def value (s : Settings) : Variable → String ⊕ Nat
  | .serverUrl => .inl s.serverUrl
  | .requestTimeout => .inr s.requestTimeoutSecs
  | .pingInterval => .inr s.pingIntervalMs
  | .channel => .inl s.channel
  | .userId => .inr s.userId
  | .userName => .inl s.userName
  | .language => .inl s.language
  | .voice => .inl s.voice
  | .notificationLimit => .inr s.notificationLimit

/-- Settings are nothing but what their variables are for. -/
theorem value_injective : Function.Injective value := by
  intro s t h
  have hvalue (v : Variable) : s.value v = t.value v := congrFun h v
  obtain ⟨_, _, _, _, _, _, _, _, _⟩ := s
  obtain ⟨_, _, _, _, _, _, _, _, _⟩ := t
  cases hvalue .serverUrl
  cases hvalue .requestTimeout
  cases hvalue .pingInterval
  cases hvalue .channel
  cases hvalue .userId
  cases hvalue .userName
  cases hvalue .language
  cases hvalue .voice
  cases hvalue .notificationLimit
  rfl

namespace Environment

variable (p : Process)

theorem text?_eq_some_iff (v : Variable) (s : String) : p.environment.text? v = some s ↔ Says p v.name s := by
  rw [text?, Option.bind_eq_some_iff]
  constructor
  · rintro ⟨bytes, hbytes, hs⟩
    obtain rfl := (Text.Utf8.decode?_eq_some_iff bytes s).1 hs
    exact hbytes
  · intro h
    exact ⟨_, h, (Text.Utf8.decode?_eq_some_iff _ s).2 rfl⟩

theorem number?_eq_some_iff (bits : Nat) (v : Variable) (n : Nat) :
    p.environment.number? bits v = some n ↔ Counts p bits v.name n := by
  rw [number?, Option.bind_eq_some_iff]
  simp only [text?_eq_some_iff, Text.Numeral.read?_eq_some_iff]
  rfl

end Environment

theorem follows_getD {α : Type} {o : Option α} {told : α → Prop} (h : ∀ a, o = some a ↔ told a) (default : α) :
    Follows told default (o.getD default) := by
  constructor
  · intro a ha
    rw [(h a).2 ha, Option.getD_some]
  · intro hnone
    have ho : o = none := Option.eq_none_iff_forall_ne_some.2 fun a ha => hnone a ((h a).1 ha)
    rw [ho, Option.getD_none]

theorem follows_text (p : Process) (v : Variable) (default : String) :
    Follows (Says p v.name) default ((p.environment.text? v).getD default) :=
  follows_getD (Environment.text?_eq_some_iff p v) default

theorem follows_number (p : Process) (bits : Nat) (v : Variable) (default : Nat) :
    Follows (Counts p bits v.name) default ((p.environment.number? bits v).getD default) :=
  follows_getD (Environment.number?_eq_some_iff p bits v) default

/-- What a variable is for depends on nothing but its own value. -/
theorem value_load_congr (drawn : Drawn) {p q : Process} {v : Variable} (h : q v.name = p v.name) :
    (load drawn q).value v = (load drawn p).value v := by
  have henv : q.environment v = p.environment v := h
  cases v <;> simp only [value, load, ofEnvironment, Environment.number?, Environment.text?, henv]

/-- **Every setting is what its variable says if that is a text, or a number that fits, and else the default**; setting
one variable, to any bytes or to nothing, leaves what all others are for. -/
theorem load_follows_process (drawn : Drawn) (p : Process) :
    Loaded drawn p (load drawn p) ∧
      ∀ name bytes (v : Variable), v.name ≠ name →
        (load drawn (Function.update p name bytes)).value v = (load drawn p).value v := by
  refine ⟨?_, fun name bytes v hv => value_load_congr drawn (Function.update_of_ne hv bytes p)⟩
  exact {
    serverUrl := follows_text p .serverUrl _
    requestTimeout := follows_number p 64 .requestTimeout _
    pingInterval := follows_number p 64 .pingInterval _
    channel := follows_text p .channel _
    userId := follows_number p 32 .userId _
    userName := follows_text p .userName _
    language := follows_text p .language _
    voice := follows_text p .voice _
    notificationLimit := follows_number p 64 .notificationLimit _ }

/-- An interval with blanks, a sign and zeros around it, a user id that is one too large, a channel that is no text. -/
def oddProcess : Process := fun name =>
  if name = "PING_INTERVAL_MS" then some (Text.Utf8.encode "\u3000+00250\n")
  else if name = "AGENT_USER_ID" then some (Text.Utf8.encode "4294967296")
  else if name = "AGENT_CHANNEL" then some [0x6C, 0xFF]
  else none

theorem load_follows_oddProcess :
    (load ⟨"agent_0a1b2c3d", 123456⟩ oddProcess).pingIntervalMs = 250 ∧
      (load ⟨"agent_0a1b2c3d", 123456⟩ oddProcess).userId = 123456 ∧
      (load ⟨"agent_0a1b2c3d", 123456⟩ oddProcess).channel = "agent_0a1b2c3d" ∧
      "AGENT_USER_NAME" ≠ "PING_INTERVAL_MS" ∧
      (load ⟨"agent_0a1b2c3d", 123456⟩ (Function.update oddProcess "PING_INTERVAL_MS" none)).userName = "" := by
  obtain ⟨hloaded, hothers⟩ := load_follows_process ⟨"agent_0a1b2c3d", 123456⟩ oddProcess
  have hlarge : oddProcess.environment.number? 32 .userId = none := by decide
  have hbytes : oddProcess.environment.text? .channel = none := by decide
  have hinterval : oddProcess.environment.number? 64 .pingInterval = some 250 := by decide
  refine ⟨hloaded.pingInterval.given 250 ((Environment.number?_eq_some_iff _ _ _ _).1 hinterval),
    hloaded.userId.otherwise fun n hn => ?_, hloaded.channel.otherwise fun s hs => ?_, by decide, ?_⟩
  · rw [(Environment.number?_eq_some_iff oddProcess 32 .userId n).2 hn] at hlarge
    cases hlarge
  · rw [(Environment.text?_eq_some_iff oddProcess .channel s).2 hs] at hbytes
    cases hbytes
  · have hname := hothers "PING_INTERVAL_MS" none .userName (by decide)
    have hunset := hloaded.userName.otherwise fun s hs => by cases hs
    exact (Sum.inl.inj hname).trans hunset

end AgentDesk.Settings
