import AgentDesk.Text.Blank

/-!
Decimal numerals: how whole numbers are written, and how a setting's number is read. Reading is
lenient about blanks and one plus sign, and strict about the width of the field it fills.
-/
namespace AgentDesk.Text.Numeral

def ofNat (n : Nat) : List Char := Nat.toDigits 10 n

def ofInt : Int → List Char
  | .ofNat n => ofNat n
  | .negSucc n => '-' :: ofNat (n + 1)

def natText (n : Nat) : String := String.ofList (ofNat n)

def intText (i : Int) : String := String.ofList (ofInt i)

/-- The number that ASCII digits stand for, most significant first. -/
def digitsValue (ds : List Char) : Nat :=
  ds.foldl (fun n d => 10 * n + (d.toNat - '0'.toNat)) 0

/-- One plus sign in front may be left out. -/
def dropPlus : List Char → List Char
  | '+' :: r => r
  | cs => cs

/-- The number of `bits` bits that a text holds once its outer blanks are gone. -/
def read? (bits : Nat) (s : String) : Option Nat :=
  let ds := dropPlus (trimChars s.toList)
  if ds ≠ [] ∧ ds.all Char.isDigit ∧ digitsValue ds < Nat.pow 2 bits then some (digitsValue ds) else none

/-- Two digits, for the parts of a time of day. -/
def two (n : Nat) : String :=
  String.ofList (if n < 10 then '0' :: ofNat n else ofNat n)

end AgentDesk.Text.Numeral
