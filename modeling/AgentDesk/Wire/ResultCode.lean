import AgentDesk.Json.Printer
import AgentDesk.Json.Record
import AgentDesk.Text.Blank

/-!
The result code of an agent server's answer. The server types it as a number or as a text; what it means is
read off its written form, so that both typings of one code mean the same.
-/
namespace AgentDesk.Wire

inductive ResultCode where
  | number (value : Int)
  | text (value : String)
  deriving DecidableEq, Repr

namespace ResultCode

/-- The code as it is written; a text keeps its blanks. -/
def display : ResultCode → String
  | number n => Text.Numeral.intText n
  | text s => s

/-- The written form that counts: the outer blanks of a text do not. -/
def meaning : ResultCode → String
  | number n => Text.Numeral.intText n
  | text s => Text.trim s

def successMeaning : String := "0"

/-- The server's limit on concurrent sessions is reached. -/
def capacityMeaning : String := "10001"

def isSuccess (c : ResultCode) : Bool := c.meaning == successMeaning

def isCapacityExceeded (c : ResultCode) : Bool := c.meaning == capacityMeaning

def toJson : ResultCode → Json.Value
  | number n => .number (.int n)
  | text s => .string s

/-- The code that a value is, if it is one: an integer of 64 bits with sign, or a text. -/
def ofJson? : Json.Value → Option ResultCode
  | .number (.int n) => if -0x8000000000000000 ≤ n ∧ n < 0x8000000000000000 then some (number n) else none
  | .string s => some (text s)
  | _ => none

/-- The whole value is read before it is looked at. -/
def decode (room : Nat) : Json.Decoder ResultCode := fun s => do
  let (v, r) ← Json.decoded (Json.readValue room s)
  match ofJson? v with
  | some c => .ok (c, r)
  | none => Json.misfit (.noVariantOf "ResultCode")

end ResultCode

end AgentDesk.Wire
