import AgentDesk.Json.Number
import AgentDesk.Json.Quoted

/-!
Reading JSON values from text. A reader takes characters and gives a value with the characters after it, or
`none` where the text is malformed. The grammar is written once, over the readers of its leaves: `strict` ones
give values, `lenient` ones check the form alone. `room` is how many arrays and objects may be open inside one
another.
-/
namespace AgentDesk.Json

abbrev Reader (α : Type) := List Char → Option (α × List Char)

def isSpace (c : Char) : Bool := c == ' ' || c == '\n' || c == '\t' || c == '\r'

def skipSpace (s : List Char) : List Char := s.dropWhile isSpace

/-- The characters after an expected word. -/
def expect : List Char → List Char → Option (List Char)
  | [], s => some s
  | c :: w, d :: s => if c = d then expect w s else none
  | _ :: _, [] => none

/-- How the leaves of a value are read; a text starts after its opening quote. -/
structure Leaves where
  text : Reader String
  number : Reader Number

def strict : Leaves where
  text s := (Quoted.read? s).map fun t => (String.ofList t.1, t.2)
  number s := (Literal.read? s).bind fun l => l.1.number?.map fun n => (n, l.2)

/-- Any escape and any size of number will do; the values read are placeholders. -/
def lenient : Leaves where
  text s := (Quoted.skip? s).map fun r => ("", r)
  number s := (Literal.read? s).map fun l => (.int 0, l.2)

/-- The items after the first `[`, or after a comma, of an array that is not empty. -/
def readItems {α : Type} (item : Reader α) : Nat → Reader (List α)
  | 0, _ => none
  | fuel + 1, s => do
    let (a, s) ← item s
    match skipSpace s with
    | ',' :: s => do
      let (as, s) ← readItems item fuel s
      return (a :: as, s)
    | ']' :: s => return ([a], s)
    | _ => none

/-- The items of an array whose `[` is read. Each item takes a character, so the length bounds them. -/
def readArray {α : Type} (item : Reader α) : Reader (List α) := fun s =>
  match skipSpace s with
  | ']' :: r => some ([], r)
  | _ => readItems item (s.length + 1) s

/-- A key, its colon and the value. -/
def readMember {α : Type} (text : Reader String) (value : Reader α) : Reader (String × α) := fun s =>
  match skipSpace s with
  | '"' :: s => do
    let (key, s) ← text s
    match skipSpace s with
    | ':' :: s => do
      let (v, s) ← value s
      return ((key, v), s)
    | _ => none
  | _ => none

def readMembers {α : Type} (text : Reader String) (value : Reader α) : Nat → Reader (List (String × α))
  | 0, _ => none
  | fuel + 1, s => do
    let (m, s) ← readMember text value s
    match skipSpace s with
    | ',' :: s => do
      let (ms, s) ← readMembers text value fuel s
      return (m :: ms, s)
    | '}' :: s => return ([m], s)
    | _ => none

/-- The members of an object whose opening brace is read. -/
def readObject {α : Type} (text : Reader String) (value : Reader α) : Reader (List (String × α)) := fun s =>
  match skipSpace s with
  | '}' :: r => some ([], r)
  | _ => readMembers text value (s.length + 1) s

/-- A value whose arrays and objects hold what `inner` reads; with no `inner` they are refused. -/
def readValueWith (leaves : Leaves) (inner : Option (Reader Value)) : Reader Value := fun s =>
  match skipSpace s with
  | 'n' :: r => (expect ['u', 'l', 'l'] r).map fun r => (.null, r)
  | 't' :: r => (expect ['r', 'u', 'e'] r).map fun r => (.bool true, r)
  | 'f' :: r => (expect ['a', 'l', 's', 'e'] r).map fun r => (.bool false, r)
  | '"' :: r => (leaves.text r).map fun t => (.string t.1, t.2)
  | '[' :: r => inner.bind fun item => (readArray item r).map fun t => (.array t.1, t.2)
  | '{' :: r => inner.bind fun value => (readObject leaves.text value r).map fun t => (.ofMembers t.1, t.2)
  | c :: r =>
    if c = '-' ∨ c.isDigit then (leaves.number (c :: r)).map fun t => (.number t.1, t.2) else none
  | [] => none

def readNested (leaves : Leaves) : Nat → Reader Value
  | 0, s => readValueWith leaves none s
  | room + 1, s => readValueWith leaves (some fun t => readNested leaves room t) s

/-- How deep a value may nest, its own brackets counted. -/
def nestingLimit : Nat := 127

/-- A value of at most `room` nested arrays and objects. -/
def readValue (room : Nat) : Reader Value := readNested strict room

/-- Passes over one value; nesting is bounded by the text alone. -/
def skipValue (s : List Char) : Option (List Char) :=
  (readNested lenient s.length s).map (·.2)

/-- The value that a whole text holds. -/
def Value.parse? (s : String) : Option Value :=
  match readValue nestingLimit s.toList with
  | some (v, rest) => if skipSpace rest = [] then some v else none
  | none => none

end AgentDesk.Json
