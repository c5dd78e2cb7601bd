/-!
Bytes read as UTF-8. A byte that cannot continue the sequence begun before it ends that sequence as
one invalid sequence, and starts afresh; so does the end of the bytes.
-/
namespace AgentDesk.Text.Utf8

/-- A sequence that has begun: the bits so far, how many bytes are to come, and what the next may be. -/
structure Pending where
  value : Nat
  more : Nat
  low : Nat
  high : Nat
  deriving DecidableEq, Repr

inductive Lead where
  | alone (c : Char)
  | opens (p : Pending)
  | invalid
  deriving DecidableEq, Repr

/-- The bounds on the second byte keep out overlong forms, surrogates and what lies above U+10FFFF. -/
def lead (b : Nat) : Lead :=
  if b < 0x80 then .alone (Char.ofNat b)
  else if b < 0xC2 then .invalid
  else if b < 0xE0 then .opens ⟨b % 0x20, 1, 0x80, 0xBF⟩
  else if b = 0xE0 then .opens ⟨0, 2, 0xA0, 0xBF⟩
  else if b = 0xED then .opens ⟨0xD, 2, 0x80, 0x9F⟩
  else if b < 0xF0 then .opens ⟨b % 0x10, 2, 0x80, 0xBF⟩
  else if b = 0xF0 then .opens ⟨0, 3, 0x90, 0xBF⟩
  else if b < 0xF4 then .opens ⟨b % 8, 3, 0x80, 0xBF⟩
  else if b = 0xF4 then .opens ⟨4, 3, 0x80, 0x8F⟩
  else .invalid

/-- What a byte at the start of a sequence gives: characters (`none` for an invalid one) and what has begun. -/
def start (b : Nat) : List (Option Char) × Option Pending :=
  match lead b with
  | .alone c => ([some c], none)
  | .opens p => ([], some p)
  | .invalid => ([none], none)

def feed (pending : Option Pending) (b : Nat) : List (Option Char) × Option Pending :=
  match pending with
  | none => start b
  | some p =>
    if p.low ≤ b ∧ b ≤ p.high then
      let value := p.value * 0x40 + b % 0x40
      if p.more ≤ 1 then ([some (Char.ofNat value)], none)
      else ([], some ⟨value, p.more - 1, 0x80, 0xBF⟩)
    else (none :: (start b).1, (start b).2)

/-- The characters of a byte sequence, `none` for each invalid sequence. -/
def scan : Option Pending → List UInt8 → List (Option Char)
  | none, [] => []
  | some _, [] => [none]
  | p, b :: r => (feed p b.toNat).1 ++ scan (feed p b.toNat).2 r

/-- The text of bytes that are UTF-8 throughout. -/
def decode? (bytes : List UInt8) : Option String :=
  ((scan none bytes).mapM id).map String.ofList

/-- The text of any bytes: U+FFFD stands for each invalid sequence. -/
def decodeLossy (bytes : List UInt8) : String :=
  String.ofList ((scan none bytes).map (·.getD '\uFFFD'))

end AgentDesk.Text.Utf8
