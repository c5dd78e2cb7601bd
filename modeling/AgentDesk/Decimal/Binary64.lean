/-!
Binary64 numbers as exact fractions. A finite magnitude is `significand · 2 ^ (power - 1074)`, and its
bits are then `power · 2 ^ 52 + significand`: a significand that rounds up past its width carries into
the power by itself. All arithmetic is in natural numbers.
-/
namespace AgentDesk.Decimal

/-- A finite magnitude: the significand has 53 bits, fewer only when `power` is 0. -/
structure Binary64 where
  significand : Nat
  power : Nat
  deriving DecidableEq, Repr

/-- A nonnegative fraction; `den` is positive wherever one is built. -/
structure Fraction where
  num : Nat
  den : Nat
  deriving DecidableEq, Repr

/-- The least significand of full width: 2 to the 52nd. -/
def fullWidth : Nat := 0x10000000000000

/-- The bits of a magnitude that is too large. -/
def infinityBits : Nat := 0x7FF0000000000000

def signBit : Nat := 0x8000000000000000

namespace Binary64

/-- The magnitude that bits without the sign stand for. -/
def ofBits (bits : Nat) : Binary64 :=
  if bits / fullWidth = 0 then ⟨bits % fullWidth, 0⟩
  else ⟨bits % fullWidth + fullWidth, bits / fullWidth - 1⟩

def toFraction (x : Binary64) : Fraction :=
  if 1074 ≤ x.power then ⟨x.significand * Nat.pow 2 (x.power - 1074), 1⟩
  else ⟨x.significand, Nat.pow 2 (1074 - x.power)⟩

end Binary64

/-- The quotient rounded to the nearest whole number, a half to the even one. -/
def roundHalfEven (num den : Nat) : Nat :=
  let q := num / den
  let r := num % den
  if 2 * r < den then q else if den < 2 * r then q + 1 else if q % 2 = 0 then q else q + 1

/-- The power of the magnitude next to a fraction: the least that leaves at most 53 bits of significand. -/
def Fraction.power (f : Fraction) : Nat :=
  Nat.log2 (f.num * Nat.pow 2 1074 / f.den) - 52

/-- The bits of the magnitude nearest to a fraction, a tie to the even significand; `none` when the
nearest would be too large to be finite. -/
def Fraction.round? (f : Fraction) : Option Nat :=
  let power := f.power
  let bits := power * fullWidth + roundHalfEven (f.num * Nat.pow 2 1074) (f.den * Nat.pow 2 power)
  if bits < infinityBits then some bits else none

end AgentDesk.Decimal
