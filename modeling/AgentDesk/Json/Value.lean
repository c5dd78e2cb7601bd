/-!
JSON values. An object's members are kept sorted by key and each key once; a later member of the
same key replaces the earlier one.
-/
namespace AgentDesk.Json

/-- An integer of the signed or unsigned 64-bit range, or a double given by its bits. -/
inductive Number where
  | int (value : Int)
  | float (bits : UInt64)
  deriving DecidableEq, Repr

inductive Value where
  | null
  | bool (value : Bool)
  | number (value : Number)
  | string (value : String)
  | array (items : List Value)
  | object (members : List (String × Value))
  deriving Repr, Inhabited

/-- Puts a member into sorted members; the new value of a key wins. -/
def insertMember (key : String) (value : Value) :
    List (String × Value) → List (String × Value)
  | [] => [(key, value)]
  | (k, v) :: rest =>
    if key < k then (key, value) :: (k, v) :: rest
    else if key = k then (key, value) :: rest
    else (k, v) :: insertMember key value rest

/-- The object of members in the order in which they were written. -/
def Value.ofMembers (members : List (String × Value)) : Value :=
  .object (members.foldl (fun done m => insertMember m.1 m.2 done) [])

def Value.nat (n : Nat) : Value := .number (.int n)

def Value.member? (key : String) : Value → Option Value
  | .object members => (members.find? (·.1 == key)).map (·.2)
  | _ => none

end AgentDesk.Json
