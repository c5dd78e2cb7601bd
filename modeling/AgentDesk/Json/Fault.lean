import AgentDesk.Json.Number
import AgentDesk.Text.Printable

/-!
Why a JSON text is refused. A text may be malformed, or well-formed so far and not of the shape that is
asked for; only the latter is told apart further.
-/
namespace AgentDesk.Json

/-- What stands where something else was expected. -/
inductive Found where
  | null
  | boolean (value : Bool)
  | integer (value : Int)
  | float (bits : UInt64)
  | text (value : String)
  | sequence
  | map
  deriving DecidableEq, Repr

inductive Misfit where
  | missingField (name : String)
  | duplicateField (name : String)
  | wrongType (found : Found) (expected : String)
  | wrongLength (length : Nat) (expected : String)
  | unknownVariant (found : String) (known : List String)
  | noVariantOf (name : String)
  deriving DecidableEq, Repr

inductive Fault where
  /-- Bad syntax, an early end, text after the value, a number out of range, too deep nesting. -/
  | malformed
  | misfit (misfit : Misfit)
  deriving DecidableEq, Repr

/-- A name between grave accents. -/
def marked (name : String) : String := "`" ++ name ++ "`"

def Found.describe : Found → String
  | .null => "null"
  | .boolean b => "boolean " ++ marked (if b then "true" else "false")
  | .integer i => "integer " ++ marked (Text.Numeral.intText i)
  | .float bits => "floating point " ++ marked (floatText bits)
  | .text s => "string " ++ Text.quoteVisibly s
  | .sequence => "sequence"
  | .map => "map"

/-- Two names are joined by a word, other numbers of names by commas. -/
def oneOf : List String → String
  | [a, b] => marked a ++ " or " ++ marked b
  | names => "one of " ++ String.intercalate ", " (names.map marked)

def Misfit.message : Misfit → String
  | .missingField name => "missing field " ++ marked name
  | .duplicateField name => "duplicate field " ++ marked name
  | .wrongType found expected => "invalid type: " ++ found.describe ++ ", expected " ++ expected
  | .wrongLength length expected =>
    "invalid length " ++ Text.Numeral.natText length ++ ", expected " ++ expected
  | .unknownVariant found known =>
    "unknown variant " ++ marked found ++ ", expected " ++ oneOf known
  | .noVariantOf name => "data did not match any variant of untagged enum " ++ name

end AgentDesk.Json
