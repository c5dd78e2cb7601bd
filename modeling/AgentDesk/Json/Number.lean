import AgentDesk.Decimal.Shortest
import AgentDesk.Json.Value

/-!
Numbers in JSON text. `Literal.read?` is the grammar alone; `Literal.number?` gives a literal its value and
refuses what lies beyond the finite doubles. A literal with neither fraction nor exponent is an integer if it
fits 64 bits, signed below zero and unsigned from zero on; minus zero and wider integers are doubles.

A double is computed in two roundings: the digits are gathered into a significand of 64 bits, later digits of
the whole part only raise the exponent and later digits of the fraction are dropped; then the significand is
scaled once by a power of ten, which is itself rounded.
-/
namespace AgentDesk.Json

/-- A number as it is written; an exponent is its sign (`true` below zero) and its digits. -/
structure Literal where
  negative : Bool
  whole : List Char
  fraction : List Char
  exponent : Option (Bool × List Char)
  deriving DecidableEq, Repr

namespace Literal

def digits (s : List Char) : List Char × List Char :=
  (s.takeWhile Char.isDigit, s.dropWhile Char.isDigit)

/-- A nonempty run of digits. -/
def digits? (s : List Char) : Option (List Char × List Char) :=
  match digits s with
  | ([], _) => none
  | r => some r

def readSign : List Char → Bool × List Char
  | '-' :: r => (true, r)
  | s => (false, s)

/-- The whole part is `0` alone or starts with another digit. -/
def readWhole? (s : List Char) : Option (List Char × List Char) :=
  match digits s with
  | ([], _) => none
  | ('0' :: _ :: _, _) => none
  | r => some r

def readFraction? : List Char → Option (List Char × List Char)
  | '.' :: r => digits? r
  | s => some ([], s)

def readExponentDigits? (negative : Bool) (s : List Char) :
    Option (Option (Bool × List Char) × List Char) :=
  (digits? s).map fun r => (some (negative, r.1), r.2)

def readExponent? : List Char → Option (Option (Bool × List Char) × List Char)
  | c :: s =>
    if c = 'e' ∨ c = 'E' then
      match s with
      | '+' :: r => readExponentDigits? false r
      | '-' :: r => readExponentDigits? true r
      | r => readExponentDigits? false r
    else some (none, c :: s)
  | [] => some (none, [])

def read? (s : List Char) : Option (Literal × List Char) := do
  let (negative, s) := readSign s
  let (whole, s) ← readWhole? s
  let (fraction, s) ← readFraction? s
  let (exponent, s) ← readExponent? s
  return (⟨negative, whole, fraction, exponent⟩, s)

/-- The largest significand that is gathered. -/
def significandLimit : Nat := 0xFFFFFFFFFFFFFFFF

/-- The largest exponent that is told apart from infinity. -/
def exponentLimit : Nat := 0x7FFFFFFF

def digitOf (c : Char) : Nat := c.toNat - '0'.toNat

/-- The significand after more digits, and the digits that no longer fit. -/
def gather (significand : Nat) : List Char → Nat × List Char
  | [] => (significand, [])
  | d :: r =>
    let next := 10 * significand + digitOf d
    if next ≤ significandLimit then gather next r else (significand, d :: r)

/-- The power of ten as a double: the nearest one. -/
def powerOfTen (n : Nat) : Decimal.Fraction :=
  match (Decimal.Fraction.mk (Nat.pow 10 n) 1).round? with
  | some bits => (Decimal.Binary64.ofBits bits).toFraction
  | none => ⟨0, 1⟩

def times (bits : Nat) (f : Decimal.Fraction) : Option Nat :=
  let x := (Decimal.Binary64.ofBits bits).toFraction
  (Decimal.Fraction.mk (x.num * f.num) (x.den * f.den)).round?

def dividedBy (bits : Nat) (f : Decimal.Fraction) : Option Nat := times bits ⟨f.den, f.num⟩

/-- The largest power of ten that is a finite double. -/
def largestPower : Nat := 308

/-- A magnitude scaled by a power of ten, at most `largestPower` at a time; the third division of a
significand of 64 bits finds zero. -/
def scale : Nat → Nat → Int → Option Nat
  | 0, bits, _ => some bits
  | steps + 1, bits, exponent =>
    if exponent.natAbs ≤ largestPower then
      if 0 ≤ exponent then times bits (powerOfTen exponent.natAbs)
      else dividedBy bits (powerOfTen exponent.natAbs)
    else if bits = 0 then some 0
    else if 0 ≤ exponent then none
    else (dividedBy bits (powerOfTen largestPower)).bind fun b => scale steps b (exponent + largestPower)

/-- The bits of the magnitude of a literal read as a double. -/
def magnitude? (l : Literal) : Option Nat :=
  let (whole, dropped) := gather 0 l.whole
  let (significand, unread) := gather whole l.fraction
  let shift : Int := dropped.length - ((l.fraction.length - unread.length : Nat) : Int)
  let scaled (exponent : Int) : Option Nat :=
    (Decimal.Fraction.mk significand 1).round?.bind fun bits => scale 4 bits exponent
  match l.exponent with
  | none => scaled shift
  | some (negative, ds) =>
    let e := ds.foldl (fun n d => 10 * n + digitOf d) 0
    if exponentLimit < e then
      if significand ≠ 0 ∧ ¬ negative then none else some 0
    else scaled (if negative then shift - e else shift + e)

def double? (l : Literal) : Option Number :=
  l.magnitude?.map fun bits =>
    .float (UInt64.ofNat (if l.negative then bits + Decimal.signBit else bits))

/-- The value of a literal, `none` when it is out of range. -/
def number? (l : Literal) : Option Number :=
  if l.fraction = [] ∧ l.exponent = none then
    let (n, dropped) := gather 0 l.whole
    if dropped ≠ [] then l.double?
    else if ¬ l.negative then some (.int n)
    else if 0 < n ∧ n ≤ 0x8000000000000000 then some (.int (-n))
    else l.double?
  else l.double?

end Literal

/-- Doubles are written positionally with up to sixteen digits before the point and four zeros after it. -/
def floatNotation : Decimal.Notation := ⟨-5, 16⟩

def floatText (bits : UInt64) : String := String.ofList (floatNotation.writeBits bits)

def Number.write : Number → List Char
  | .int i => Text.Numeral.ofInt i
  | .float bits => floatNotation.writeBits bits

end AgentDesk.Json
