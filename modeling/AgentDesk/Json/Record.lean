import AgentDesk.Json.Fault
import AgentDesk.Json.Reader

/-!
Decoding a text into a record of known fields, in one pass from left to right: the first fault in the text
is the one reported. A record is written as an object, members in any order and unknown ones passed over, or
as an array of its fields in order. A unit variant is written as its name, or as an object of that one member
with the value `null`; a value of another kind is named.
-/
namespace AgentDesk.Json

abbrev Decoder (α : Type) := List Char → Except Fault (α × List Char)

/-- A reader knows one fault. -/
def decoded {α : Type} (r : Option α) : Except Fault α :=
  match r with
  | some a => .ok a
  | none => .error .malformed

def misfit {α : Type} (m : Misfit) : Except Fault α := .error (.misfit m)

/-- Reads what stands where something else is expected, as far as it takes to name it. -/
def found : Decoder Found := fun s =>
  match skipSpace s with
  | '[' :: r => .ok (.sequence, r)
  | '{' :: r => .ok (.map, r)
  | s => do
    let (v, r) ← decoded (readNested strict 0 s)
    match v with
    | .null => .ok (.null, r)
    | .bool b => .ok (.boolean b, r)
    | .number (.int i) => .ok (.integer i, r)
    | .number (.float bits) => .ok (.float bits, r)
    | .string t => .ok (.text t, r)
    | .array _ => .ok (.sequence, r)
    | .object _ => .ok (.map, r)

/-- Refuses what stands here as not being what is expected. -/
def refuse {α : Type} (expected : String) : Decoder α := fun s => do
  let (f, _) ← found s
  misfit (.wrongType f expected)

def decodeString : Decoder String := fun s =>
  match skipSpace s with
  | '"' :: r => decoded (strict.text r)
  | s => refuse "a string" s

/-- `null` stands for absence. -/
def decodeOptional {α : Type} (present : Decoder α) : Decoder (Option α) := fun s =>
  match skipSpace s with
  | 'n' :: r => do
    let r ← decoded (expect ['u', 'l', 'l'] r)
    .ok (none, r)
  | s => do
    let (a, r) ← present s
    .ok (some a, r)

/-- A field of a record that is being filled. -/
structure Field (σ : Type) where
  name : String
  required : Bool
  seen : σ → Bool
  fill : σ → Decoder σ

/-- The members from the first `{` or from behind a member on, up to the closing brace. -/
def fillMembers {σ : Type} (fields : List (Field σ)) : Nat → Bool → σ → Decoder σ
  | 0, _, _, _ => .error .malformed
  | fuel + 1, first, record, s =>
    let member (s : List Char) : Except Fault (σ × List Char) := do
      let (key, s) ← decoded (strict.text s)
      let field := fields.find? (·.name == key)
      match field with
      | some f => if f.seen record then misfit (.duplicateField f.name) else pure ()
      | none => pure ()
      match skipSpace s with
      | ':' :: s =>
        let (record, s) ←
          match field with
          | some f => f.fill record s
          | none => (decoded (skipValue s)).map fun r => (record, r)
        fillMembers fields fuel false record s
      | _ => .error .malformed
    match first, skipSpace s with
    | _, '}' :: r => .ok (record, r)
    | true, '"' :: r => member r
    | false, ',' :: r =>
      match skipSpace r with
      | '"' :: r => member r
      | _ => .error .malformed
    | _, _ => .error .malformed

/-- The first field that a record may not be without. -/
def firstMissing {σ : Type} (fields : List (Field σ)) (record : σ) : Option (Field σ) :=
  fields.find? fun f => f.required && !f.seen record

/-- The items of a record written as an array, in the order of its fields, from item `index` on. The text
left starts at the closing bracket, or at an item too many. -/
def fillItems {σ : Type} (expected : String) : List (Field σ) → Nat → σ → Decoder σ
  | [], _, record, s => .ok (record, s)
  | f :: fields, index, record, s =>
    match index, skipSpace s with
    | _, ']' :: r =>
      if f.required then misfit (.wrongLength index expected)
      else fillItems expected fields (index + 1) record (']' :: r)
    | 0, s => do
      let (record, s) ← f.fill record s
      fillItems expected fields 1 record s
    | _, ',' :: r =>
      match skipSpace r with
      | ']' :: _ => .error .malformed
      | r => do
        let (record, s) ← f.fill record r
        fillItems expected fields (index + 1) record s
    | _, _ => .error .malformed

/-- A record of the given name, filled from `empty`. -/
def decodeRecord {σ : Type} (name : String) (fields : List (Field σ)) (empty : σ) : Decoder σ := fun s =>
  match skipSpace s with
  | '{' :: r => do
    let (record, r) ← fillMembers fields (r.length + 1) true empty r
    match firstMissing fields record with
    | some f => misfit (.missingField f.name)
    | none => .ok (record, r)
  | '[' :: r => do
    let expected := "struct " ++ name ++ " with " ++ Text.Numeral.natText fields.length ++ " elements"
    let (record, r) ← fillItems expected fields 0 empty r
    match skipSpace r with
    | ']' :: r => .ok (record, r)
    | _ => .error .malformed
  | s => refuse ("struct " ++ name) s

/-- One of the named variants, in the order in which a fault lists them. -/
def decodeVariant {α : Type} (variants : List (String × α)) : Decoder α :=
  let named (s : List Char) : Except Fault (α × List Char) := do
    let (name, r) ← decoded (strict.text s)
    match variants.find? (·.1 == name) with
    | some v => .ok (v.2, r)
    | none => misfit (.unknownVariant name (variants.map (·.1)))
  fun s =>
    match skipSpace s with
    | '"' :: r => named r
    | '{' :: r =>
      match skipSpace r with
      | '"' :: r => do
        let (v, r) ← named r
        match skipSpace r with
        | ':' :: r =>
          match skipSpace r with
          | 'n' :: r => do
            let r ← decoded (expect ['u', 'l', 'l'] r)
            match skipSpace r with
            | '}' :: r => .ok (v, r)
            | _ => .error .malformed
          | r => refuse "unit" r
        | _ => .error .malformed
      | _ => .error .malformed
    | _ => .error .malformed

/-- Decodes a whole text: only space may follow the value. -/
def decodeText {α : Type} (decode : Decoder α) (s : String) : Except Fault α := do
  let (a, rest) ← decode s.toList
  if skipSpace rest = [] then .ok a else .error .malformed

end AgentDesk.Json
