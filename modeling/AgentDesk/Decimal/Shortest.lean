import AgentDesk.Decimal.Binary64
import AgentDesk.Text.Numeral

/-!
The fewest decimal digits that still read back as the same binary64 number. The numbers that round to a
magnitude form an interval, whose ends belong to it when the significand is even; on the grid of decimals
of `n` digits only the two neighbours of the magnitude itself need a look. The first grid with a neighbour
inside the interval gives the digits, the nearer of two neighbours, an even last digit on a tie.
-/
namespace AgentDesk.Decimal

/-- A decimal `0.d₁d₂… · 10 ^ point`, the digits as one whole number. -/
structure Digits where
  number : Nat
  point : Int
  deriving DecidableEq, Repr

def digitCount (n : Nat) : Nat := if n = 0 then 0 else (Nat.toDigits 10 n).length

/-- The interval of a magnitude and the magnitude itself, over the common denominator `den`. -/
structure Neighbourhood where
  low : Nat
  mid : Nat
  high : Nat
  den : Nat
  closed : Bool

/-- Half the gap to the magnitude below is a quarter unit where the powers change, else half a unit. -/
def Binary64.neighbourhood (x : Binary64) : Neighbourhood :=
  let unit := Nat.pow 2 x.power
  let below := if x.significand = fullWidth ∧ 0 < x.power then 1 else 2
  { low := (4 * x.significand - below) * unit
    mid := 4 * x.significand * unit
    high := (4 * x.significand + 2) * unit
    den := 4 * Nat.pow 2 1074
    closed := x.significand % 2 = 0 }

/-- The exponent of the power of ten just above a positive fraction. -/
def pointOf (num den : Nat) : Int :=
  if den ≤ num then (digitCount (num / den) : Int)
  else 1 - (digitCount ((den + num - 1) / num - 1) : Int)

/-- The digits on the grid of `count` digits, if a neighbour of the magnitude is in its interval. -/
def Neighbourhood.onGrid (h : Neighbourhood) (point : Int) (count : Nat) : Option Nat :=
  let up := Nat.pow 10 (count - point).toNat
  let den := h.den * Nat.pow 10 (point - count).toNat
  let below := h.mid * up / den
  let inside (k : Nat) : Bool :=
    if h.closed then h.low * up ≤ k * den && k * den ≤ h.high * up
    else h.low * up < k * den && k * den < h.high * up
  let toBelow := h.mid * up - below * den
  let toAbove := (below + 1) * den - h.mid * up
  match inside below, inside (below + 1) with
  | false, false => none
  | true, false => some below
  | false, true => some (below + 1)
  | true, true =>
    if toBelow < toAbove then some below
    else if toAbove < toBelow then some (below + 1)
    else if below % 2 = 0 then some below else some (below + 1)

/-- The shortest digits from a grid of `count` digits on; seventeen always suffice. -/
def Neighbourhood.search (h : Neighbourhood) (point : Int) : Nat → Nat → Digits
  | 0, _ => ⟨0, 0⟩
  | tries + 1, count =>
    match h.onGrid point count with
    | some k => ⟨k, point - count + digitCount k⟩
    | none => h.search point tries (count + 1)

/-- The shortest digits of a positive magnitude. -/
def Binary64.shortest (x : Binary64) : Digits :=
  let h := x.neighbourhood
  h.search (pointOf h.mid h.den) 17 1

/-- Where positional notation begins and ends: the decimal point may stand after more than `least` and at
most `most` of the digits, zeros filled in. -/
structure Notation where
  least : Int
  most : Int
  deriving DecidableEq, Repr

def zeros (n : Nat) : List Char := List.replicate n '0'

/-- The exponent of a number, always with a sign. -/
def writeExponent (e : Int) : List Char :=
  'e' :: (if e < 0 then Text.Numeral.ofInt e else '+' :: Text.Numeral.ofInt e)

/-- Digits as text; a whole number in positional notation keeps one zero after its point. -/
def Notation.write (f : Notation) (d : Digits) : List Char :=
  let ds := (Nat.toDigits 10 d.number).reverse.dropWhile (· == '0') |>.reverse
  let length : Int := ds.length
  if f.least < d.point ∧ d.point ≤ f.most then
    if d.point ≤ 0 then '0' :: '.' :: (zeros (-d.point).toNat ++ ds)
    else if length ≤ d.point then ds ++ zeros (d.point - length).toNat ++ ['.', '0']
    else ds.take d.point.toNat ++ '.' :: ds.drop d.point.toNat
  else
    match ds with
    | [] => []
    | [d₁] => d₁ :: writeExponent (d.point - 1)
    | d₁ :: more => d₁ :: '.' :: more ++ writeExponent (d.point - 1)

/-- A finite binary64 number, given by its bits, in the shortest digits that read back. -/
def Notation.writeBits (f : Notation) (bits : UInt64) : List Char :=
  let negative := signBit ≤ bits.toNat
  let x := Binary64.ofBits (bits.toNat % signBit)
  let magnitude := if x.significand = 0 then ['0', '.', '0'] else f.write x.shortest
  if negative then '-' :: magnitude else magnitude

end AgentDesk.Decimal
