/-!
JSON string literals. `write` gives every text its one literal; `read?` takes what follows the opening quote.
Only the quote, the backslash and the control characters below U+0020 are escaped in writing; reading takes any
escape, joins a pair of surrogate escapes, and refuses a lone one and a raw control character.
-/
namespace AgentDesk.Json.Quoted

def hexDigit? (c : Char) : Option Nat :=
  if '0' ≤ c ∧ c ≤ '9' then some (c.toNat - '0'.toNat)
  else if 'a' ≤ c ∧ c ≤ 'f' then some (c.toNat - 'a'.toNat + 10)
  else if 'A' ≤ c ∧ c ≤ 'F' then some (c.toNat - 'A'.toNat + 10)
  else none

/-- The UTF-16 unit that four hexadecimal digits stand for. -/
def unit? (a b c d : Char) : Option Nat := do
  return (← hexDigit? a) * 0x1000 + (← hexDigit? b) * 0x100 + (← hexDigit? c) * 0x10 + (← hexDigit? d)

/-- The character of an escape of one letter. -/
def short? (c : Char) : Option Char :=
  if c = '"' then some '"'
  else if c = '\\' then some '\\'
  else if c = '/' then some '/'
  else if c = 'b' then some '\x08'
  else if c = 'f' then some '\x0c'
  else if c = 'n' then some '\n'
  else if c = 'r' then some '\r'
  else if c = 't' then some '\t'
  else none

def isHigh (n : Nat) : Bool := 0xD800 ≤ n && n < 0xDC00

def isLow (n : Nat) : Bool := 0xDC00 ≤ n && n < 0xE000

def joined (high low : Nat) : Char := Char.ofNat (0x10000 + (high - 0xD800) * 0x400 + (low - 0xDC00))

/-- What follows an opening quote: the text up to the closing one, and the rest. -/
def read? : List Char → Option (List Char × List Char)
  | [] => none
  | ['\\'] => none
  | '\\' :: 'u' :: a :: b :: c :: d :: '\\' :: 'u' :: e :: f :: g :: h :: r => do
    let n ← unit? a b c d
    if isLow n then none
    else if isHigh n then do
      let m ← unit? e f g h
      if isLow m then (read? r).map fun t => (joined n m :: t.1, t.2) else none
    else (read? ('\\' :: 'u' :: e :: f :: g :: h :: r)).map fun t => (Char.ofNat n :: t.1, t.2)
  | '\\' :: 'u' :: a :: b :: c :: d :: r => do
    let n ← unit? a b c d
    if isLow n || isHigh n then none else (read? r).map fun t => (Char.ofNat n :: t.1, t.2)
  | '\\' :: c :: r => do
    let k ← short? c
    (read? r).map fun t => (k :: t.1, t.2)
  | c :: r =>
    if c = '"' then some ([], r)
    else if c.toNat < 0x20 then none
    else (read? r).map fun t => (c :: t.1, t.2)

/-- The rest after the closing quote, escapes checked for their form only. -/
def skip? : List Char → Option (List Char)
  | [] => none
  | ['\\'] => none
  | '\\' :: 'u' :: a :: b :: c :: d :: r => do
    let _ ← unit? a b c d
    skip? r
  | '\\' :: c :: r => do
    let _ ← short? c
    skip? r
  | c :: r =>
    if c = '"' then some r
    else if c.toNat < 0x20 then none
    else skip? r

def escape (c : Char) : List Char :=
  if c = '"' then ['\\', '"']
  else if c = '\\' then ['\\', '\\']
  else if c = '\x08' then ['\\', 'b']
  else if c = '\x0c' then ['\\', 'f']
  else if c = '\n' then ['\\', 'n']
  else if c = '\r' then ['\\', 'r']
  else if c = '\t' then ['\\', 't']
  else if c.toNat < 0x20 then
    ['\\', 'u', '0', '0', Nat.digitChar (c.toNat / 16), Nat.digitChar (c.toNat % 16)]
  else [c]

def write (s : List Char) : List Char := '"' :: (s.flatMap escape ++ ['"'])

end AgentDesk.Json.Quoted
