import AgentDesk.Json.Number
import AgentDesk.Json.Quoted

/-! Writing JSON values without any space between their parts. -/
namespace AgentDesk.Json

/-- Parts with commas between them. -/
def commas : List (List Char) → List Char
  | [] => []
  | [p] => p
  | p :: q :: rest => p ++ ',' :: commas (q :: rest)

def writeText (s : String) : List Char := Quoted.write s.toList

def bracketed (parts : List (List Char)) : List Char := '[' :: (commas parts ++ [']'])

def braced (members : List (List Char × List Char)) : List Char :=
  '{' :: (commas (members.map fun m => m.1 ++ ':' :: m.2) ++ ['}'])

mutual

def Value.write : Value → List Char
  | .null => ['n', 'u', 'l', 'l']
  | .bool true => ['t', 'r', 'u', 'e']
  | .bool false => ['f', 'a', 'l', 's', 'e']
  | .number n => n.write
  | .string s => writeText s
  | .array items => bracketed (writeItems items)
  | .object members => braced (writeMembers members)

def writeItems : List Value → List (List Char)
  | [] => []
  | v :: vs => v.write :: writeItems vs

def writeMembers : List (String × Value) → List (List Char × List Char)
  | [] => []
  | (k, v) :: ms => (writeText k, v.write) :: writeMembers ms

end

def Value.render (v : Value) : String := String.ofList v.write

/-- An object in the order in which its members are given, each value written already. -/
def renderMembers (members : List (String × List Char)) : String :=
  String.ofList (braced (members.map fun m => (writeText m.1, m.2)))

end AgentDesk.Json
