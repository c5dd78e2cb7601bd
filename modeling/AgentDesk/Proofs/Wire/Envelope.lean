import AgentDesk.Proofs.Json.Record
import AgentDesk.Proofs.Json.Writing
import AgentDesk.Wire.Response

/-! # Which texts are envelopes, and of which answer

What an envelope says is a matter of its members alone: `code`, `msg` and `data`, wherever they stand, however they
are spelled and whatever stands between them. -/
namespace AgentDesk.Wire

open Json Json.Grammar

/-- The value is a code: an integer of 64 bits with sign, or a text. The typing is kept. -/
inductive IsCode : Value → ResultCode → Prop
  | number {i} : -2 ^ 63 ≤ i → i < 2 ^ 63 → IsCode (.number (.int i)) (.number i)
  | text {s} : IsCode (.string s) (.text s)

namespace Response

/-- The values that the members have under a key, in the order of the members. -/
def valuesOf (key : String) (members : Members) : List Value :=
  (members.filter fun m => m.1 = key).map (·.2)

/-- What there may be of a message: one text, or `null`, or nothing. -/
inductive IsMessage : List Value → Option String → Prop
  | absent : IsMessage [] none
  | null : IsMessage [.null] none
  | text {s} : IsMessage [.string s] (some s)

/-- What there may be of a payload: one value, or nothing. -/
inductive IsPayload : List Value → Option Value → Prop
  | absent : IsPayload [] none
  | null : IsPayload [.null] none
  | value {v} : v ≠ .null → IsPayload [v] (some v)

/-- The members are those of an envelope with this answer. Members with other keys do not count. -/
structure IsEnvelope (members : Members) (r : Response) : Prop where
  code : ∃ v, valuesOf "code" members = [v] ∧ IsCode v r.code
  msg : IsMessage (valuesOf "msg" members) r.msg
  data : IsPayload (valuesOf "data" members) r.data

/-! ### What the fields make of values -/

theorem ofJson?_eq_some_iff (v : Value) (c : ResultCode) : ResultCode.ofJson? v = some c ↔ IsCode v c := by
  constructor
  · intro h
    cases v with
    | string s =>
      cases h
      exact .text
    | number n =>
      cases n with
      | int i =>
        rw [ResultCode.ofJson?, Option.ite_none_right_eq_some] at h
        obtain ⟨hrange, heq⟩ := h
        cases heq
        exact .number hrange.1 hrange.2
      | float bits => cases h
    | _ => cases h
  · rintro (⟨hlow, hhigh⟩ | _)
    · exact if_pos ⟨hlow, hhigh⟩
    · rfl

/-- What the field of a name makes of a value. -/
def put : Put Partial := fun name p v =>
  if name = "code" then (ResultCode.ofJson? v).map fun c => { p with code := some c }
  else if name = "msg" then (nullable? asText? v).map fun m => { p with msg := some m }
  else (nullable? some v).map fun d => { p with data := some d }

theorem put_code (p : Partial) (v : Value) :
    put "code" p v = (ResultCode.ofJson? v).map fun c => { p with code := some c } := if_pos rfl

theorem put_msg (p : Partial) (v : Value) :
    put "msg" p v = (nullable? asText? v).map fun m => { p with msg := some m } := by
  rw [put, if_neg (by decide), if_pos rfl]

theorem put_data (p : Partial) (v : Value) :
    put "data" p v = (nullable? some v).map fun d => { p with data := some d } := by
  rw [put, if_neg (by decide), if_neg (by decide)]

theorem toOption_decode {n : Nat} {s : List Char} {v : Value} {t : List Char} (hv : Spelled n s v t)
    (ht : Ends t) : (ResultCode.decode n s).toOption = (ResultCode.ofJson? v).map fun c => (c, t) := by
  rw [ResultCode.decode, toOption_bind, readValue_of_spelled hv ht]
  simp only [decoded, Except.toOption, Option.bind_some]
  cases ResultCode.ofJson? v <;> rfl

theorem toOption_payload {n : Nat} {s : List Char} {v : Value} {t : List Char} (hv : Spelled n s v t)
    (ht : Ends t) : (decodeOptional (fun s => decoded (readValue n s)) s).toOption =
      (nullable? some v).map fun d => (d, t) := by
  refine decodeOptional_of_spelled hv ?_
  rw [readValue_of_spelled hv.skips ht]
  rfl

theorem fill_fields : Fill fields memberNesting put := by
  intro f hf p s v t hv ht
  simp only [fields, List.mem_cons, List.not_mem_nil, or_false] at hf
  rcases hf with rfl | rfl | rfl
  · rw [put_code, toOption_map, toOption_decode hv ht, Option.map_map, Option.map_map]
    rfl
  · rw [put_msg, toOption_map, decodeOptional_of_spelled hv (decodeString_of_spelled hv.skips),
      Option.map_map, Option.map_map]
    rfl
  · rw [put_data, toOption_map, toOption_payload hv ht, Option.map_map, Option.map_map]
    rfl

/-! ### What the members make of an envelope that is read -/

/-- A place that is filled from the values under one key: by one of them, and only if it was free. -/
def fillOnce {α : Type} (read : Value → Option α) : Option α → List Value → Option (Option α)
  | place, [] => some place
  | some _, _ :: _ => none
  | none, v :: vs => (read v).bind fun a => fillOnce read (some a) vs

theorem fillOnce_eq_some_iff {α : Type} (read : Value → Option α) (vs : List Value) (place : Option α) :
    fillOnce read none vs = some place ↔
      vs = [] ∧ place = none ∨ ∃ v a, vs = [v] ∧ read v = some a ∧ place = some a := by
  cases vs with
  | nil => simp [fillOnce, eq_comm]
  | cons v vs =>
    cases hread : read v with
    | none => simp [fillOnce, hread]
    | some a => cases vs <;> simp [fillOnce, hread, eq_comm]

theorem putMember_eq (p : Partial) (key : String) (v : Value) :
    putMember fields put p (key, v) =
      if key = "code" then if p.code.isSome then none else put key p v
      else if key = "msg" then if p.msg.isSome then none else put key p v
      else if key = "data" then if p.data.isSome then none else put key p v
      else some p := by
  by_cases hcode : key = "code"
  · subst hcode; rfl
  by_cases hmsg : key = "msg"
  · subst hmsg; rfl
  by_cases hdata : key = "data"
  · subst hdata; rfl
  have hnone : fields.find? (·.name == key) = none := by
    simp [fields, Ne.symm hcode, Ne.symm hmsg, Ne.symm hdata]
  simp only [putMember, hnone, hcode, hmsg, hdata, if_false]

theorem valuesOf_cons (key k : String) (v : Value) (members : Members) :
    valuesOf key ((k, v) :: members) = if k = key then v :: valuesOf key members else valuesOf key members := by
  by_cases hk : k = key <;> simp [valuesOf, hk]

/-- The members fill three places, each from the values under its key. -/
theorem foldlM_putMember (members : Members) (p q : Partial) :
    members.foldlM (putMember fields put) p = some q ↔
      fillOnce ResultCode.ofJson? p.code (valuesOf "code" members) = some q.code ∧
      fillOnce (nullable? asText?) p.msg (valuesOf "msg" members) = some q.msg ∧
      fillOnce (nullable? some) p.data (valuesOf "data" members) = some q.data := by
  induction members generalizing p with
  | nil =>
    obtain ⟨code, msg, data⟩ := p
    obtain ⟨code', msg', data'⟩ := q
    simp [valuesOf, fillOnce]
  | cons m members ih =>
    obtain ⟨key, v⟩ := m
    rw [List.foldlM_cons, putMember_eq]
    simp only [valuesOf_cons]
    by_cases hcode : key = "code"
    · subst hcode
      cases hp : p.code with
      | some c => simp [fillOnce]
      | none => cases hread : ResultCode.ofJson? v <;> simp [fillOnce, put_code, hread, ih]
    by_cases hmsg : key = "msg"
    · subst hmsg
      cases hp : p.msg with
      | some m => simp [fillOnce]
      | none => cases hread : nullable? asText? v <;> simp [fillOnce, put_msg, hread, ih]
    by_cases hdata : key = "data"
    · subst hdata
      cases hp : p.data with
      | some d => simp [fillOnce]
      | none => cases hread : nullable? some v <;> simp [fillOnce, put_data, hread, ih]
    simp [hcode, hmsg, hdata, ih]

/-! ### Envelopes -/

def fieldNames : List String := ["code", "msg", "data"]

def isKnown (m : String × Value) : Bool := fieldNames.contains m.1

theorem isCode_iff (vs : List Value) (c : ResultCode) :
    (∃ v, vs = [v] ∧ IsCode v c) ↔ fillOnce ResultCode.ofJson? none vs = some (some c) := by
  rw [fillOnce_eq_some_iff]
  simp [ofJson?_eq_some_iff]

theorem isMessage_iff (vs : List Value) (m : Option String) :
    IsMessage vs m ↔ ∃ place, fillOnce (nullable? asText?) none vs = some place ∧ place.join = m := by
  constructor
  · rintro (_ | _ | _)
    · exact ⟨none, rfl, rfl⟩
    · exact ⟨some none, rfl, rfl⟩
    · exact ⟨some (some _), rfl, rfl⟩
  · rintro ⟨place, hplace, rfl⟩
    obtain ⟨rfl, rfl⟩ | ⟨v, m, rfl, hv, rfl⟩ := (fillOnce_eq_some_iff _ _ _).1 hplace
    · exact .absent
    · cases v with
      | null => cases hv; exact .null
      | string s => cases hv; exact .text
      | _ => cases hv

theorem isPayload_iff (vs : List Value) (d : Option Value) :
    IsPayload vs d ↔ ∃ place, fillOnce (nullable? some) none vs = some place ∧ place.join = d := by
  constructor
  · rintro (_ | _ | hv)
    · exact ⟨none, rfl, rfl⟩
    · exact ⟨some none, rfl, rfl⟩
    · refine ⟨some (some _), ?_, rfl⟩
      simp [fillOnce, nullable?_of_ne some hv]
  · rintro ⟨place, hplace, rfl⟩
    obtain ⟨rfl, rfl⟩ | ⟨v, d, rfl, hv, rfl⟩ := (fillOnce_eq_some_iff _ _ _).1 hplace
    · exact .absent
    · by_cases hnull : v = .null
      · subst hnull
        cases hv
        exact .null
      · rw [nullable?_of_ne some hnull] at hv
        cases hv
        exact .value hnull

/-- What is made of a filled record, if it has a code. -/
def ofPartial? (p : Partial) : Option Response := p.code.map fun c => ⟨c, p.msg.join, p.data.join⟩

theorem foldlM_eq_some_iff (members : Members) (r : Response) :
    (members.foldlM (putMember fields put) {}).bind ofPartial? = some r ↔ IsEnvelope members r := by
  simp only [Option.bind_eq_some_iff, foldlM_putMember]
  constructor
  · rintro ⟨⟨code, msg, data⟩, ⟨hcode, hmsg, hdata⟩, hr⟩
    obtain ⟨c, rfl, rfl⟩ := Option.map_eq_some_iff.1 hr
    exact ⟨(isCode_iff _ _).2 hcode, (isMessage_iff _ _).2 ⟨_, hmsg, rfl⟩, (isPayload_iff _ _).2 ⟨_, hdata, rfl⟩⟩
  · rintro ⟨hcode, hmsg, hdata⟩
    obtain ⟨msg, hmsg, hm⟩ := (isMessage_iff _ _).1 hmsg
    obtain ⟨data, hdata, hd⟩ := (isPayload_iff _ _).1 hdata
    refine ⟨⟨some r.code, msg, data⟩, ⟨(isCode_iff _ _).1 hcode, hmsg, hdata⟩, ?_⟩
    rw [ofPartial?, Option.map_some, hm, hd]

/-- Only the code may not be missing. -/
theorem isNone_firstMissing (p : Partial) : (firstMissing fields p).isNone = p.code.isSome := by
  cases hp : p.code <;> simp [firstMissing, fields, hp]

/-- A text is parsed as what its record is filled to. -/
theorem parse_of_record {s : String} {t : List Char} {filled : Option Partial}
    (h : (decodeRecord "ApiResponse" fields {} s.toList).toOption = filled.map fun p => (p, t))
    (ht : Blank t []) (r : Response) : parse s = .ok r ↔ filled.bind ofPartial? = some r := by
  have hskip : skipSpace t = [] := ht.skips nofun
  rw [← toOption_eq_some_iff, parse, decodeText, toOption_bind, decode, toOption_bind, h]
  cases filled with
  | none => simp
  | some p => cases hp : p.code <;> simp [hp, hskip, ofPartial?, Except.toOption]

theorem parse_object {s : String} {members : Members} (h : IsObject memberNesting s.toList members)
    (r : Response) : parse s = .ok r ↔ IsEnvelope members r := by
  obtain ⟨u, t, hu, hmembers, ht⟩ := h
  rw [parse_of_record (decodeRecord_object fill_fields {} hu hmembers) ht, ← foldlM_eq_some_iff]
  cases members.foldlM (putMember fields put) {} with
  | none => rfl
  | some p => cases hp : p.code <;> simp [Option.filter, isNone_firstMissing, hp, ofPartial?]

/-- The items of an array are put in like members with the names of the fields, all of them free. -/
theorem foldlM_items {items : List Value} (hle : items.length ≤ fields.length) :
    (fields.zip items).foldlM (fun p i => put i.1.name p i.2) {} =
      (fieldNames.zip items).foldlM (putMember fields put) {} := by
  have hcode (c : Value) : putMember fields put {} ("code", c) = put "code" {} c := rfl
  have hmsg (code : ResultCode) (m : Value) :
      putMember fields put { code := some code } ("msg", m) = put "msg" { code := some code } m := rfl
  have hdata (code : ResultCode) (msg : Option String) (d : Value) :
      putMember fields put { code := some code, msg := some msg } ("data", d) =
        put "data" { code := some code, msg := some msg } d := rfl
  obtain _ | ⟨c, _ | ⟨m, _ | ⟨d, _ | ⟨e, rest⟩⟩⟩⟩ := items
  · rfl
  · change (put "code" {} c).bind pure = (putMember fields put {} ("code", c)).bind pure
    rw [hcode]
  · change (put "code" {} c).bind (fun p => (put "msg" p m).bind pure) =
      (putMember fields put {} ("code", c)).bind fun p => (putMember fields put p ("msg", m)).bind pure
    rw [hcode, put_code]
    cases ResultCode.ofJson? c with
    | none => rfl
    | some code => exact congrArg (·.bind pure) (hmsg code m).symm
  · change (put "code" {} c).bind (fun p => (put "msg" p m).bind fun p => (put "data" p d).bind pure) =
      (putMember fields put {} ("code", c)).bind fun p =>
        (putMember fields put p ("msg", m)).bind fun p => (putMember fields put p ("data", d)).bind pure
    rw [hcode, put_code]
    cases ResultCode.ofJson? c with
    | none => rfl
    | some code =>
      simp only [Option.map_some, Option.bind_some, hmsg, put_msg]
      cases nullable? asText? m with
      | none => rfl
      | some msg => exact congrArg (·.bind pure) (hdata code msg d).symm
  · have hfields : fields.length = 3 := rfl
    simp only [List.length_cons, hfields] at hle
    omega

theorem parse_array {s : String} {items : List Value} (h : IsArray memberNesting s.toList items)
    (hpos : 1 ≤ items.length) (hle : items.length ≤ 3) (r : Response) :
    parse s = .ok r ↔ IsEnvelope (fieldNames.zip items) r := by
  obtain ⟨u, t, hu, hitems, ht⟩ := h
  have hrest : ∀ f ∈ fields.drop items.length, f.required = false := by
    obtain h | h | h : items.length = 1 ∨ items.length = 2 ∨ items.length = 3 := by omega
    all_goals
      rw [h]
      simp [fields]
  rw [parse_of_record (decodeRecord_array fill_fields {} hu hitems hle hrest) ht, foldlM_items hle,
    foldlM_eq_some_iff]

/-! ### What does not count -/

theorem valuesOf_filter {key : String} (hkey : key ∈ fieldNames) (members : Members) :
    valuesOf key (members.filter isKnown) = valuesOf key members := by
  rw [valuesOf, valuesOf, List.filter_filter]
  congr 1
  refine List.filter_congr fun m _ => ?_
  by_cases hm : m.1 = key
  · simp [hm, isKnown, hkey]
  · simp [hm]

theorem perm_valuesOf {members members' : Members} (h : (members.filter isKnown).Perm (members'.filter isKnown))
    {key : String} (hkey : key ∈ fieldNames) : (valuesOf key members).Perm (valuesOf key members') := by
  rw [← valuesOf_filter hkey members, ← valuesOf_filter hkey members']
  exact (h.filter _).map _

theorem IsMessage.of_perm {vs vs' : List Value} {m : Option String} (h : vs.Perm vs') (hm : IsMessage vs m) :
    IsMessage vs' m := by
  cases hm with
  | absent => rw [h.symm.eq_nil]; exact .absent
  | null => rw [h.symm.eq_singleton]; exact .null
  | text => rw [h.symm.eq_singleton]; exact .text

theorem IsPayload.of_perm {vs vs' : List Value} {d : Option Value} (h : vs.Perm vs') (hd : IsPayload vs d) :
    IsPayload vs' d := by
  cases hd with
  | absent => rw [h.symm.eq_nil]; exact .absent
  | null => rw [h.symm.eq_singleton]; exact .null
  | value hv => rw [h.symm.eq_singleton]; exact .value hv

/-- Neither the order of the members counts, nor any member with another key. -/
theorem IsEnvelope.of_perm {members members' : Members} {r : Response}
    (h : (members.filter isKnown).Perm (members'.filter isKnown)) (hr : IsEnvelope members r) :
    IsEnvelope members' r := by
  obtain ⟨⟨v, hcode, hv⟩, hmsg, hdata⟩ := hr
  have hcodes := perm_valuesOf h (show "code" ∈ fieldNames by decide)
  rw [hcode] at hcodes
  exact ⟨⟨v, hcodes.symm.eq_singleton, hv⟩, hmsg.of_perm (perm_valuesOf h (by decide)),
    hdata.of_perm (perm_valuesOf h (by decide))⟩

/-- **Exactly the envelopes are accepted.** A text that is an object is parsed as an answer exactly if its members
are an envelope with that answer, whatever their order, and whatever others there are. The array of the code, the
message and the payload, of which the last ones may be left out, is parsed as the object of these members. -/
theorem parse_eq_ok_iff {n : Nat} (hn : n ≤ memberNesting) :
    (∀ s members, IsObject n s.toList members → ∀ r, parse s = .ok r ↔ IsEnvelope members r) ∧
    (∀ s members s' members', IsObject n s.toList members → IsObject n s'.toList members' →
      (members.filter isKnown).Perm (members'.filter isKnown) → ∀ r, parse s = .ok r ↔ parse s' = .ok r) ∧
    (∀ s items, IsArray n s.toList items → 1 ≤ items.length → items.length ≤ 3 → ∀ r,
      (parse s = .ok r ↔ IsEnvelope (fieldNames.zip items) r) ∧
      ∀ s', IsObject n s'.toList (fieldNames.zip items) → (parse s = .ok r ↔ parse s' = .ok r)) := by
  refine ⟨?_, ?_, ?_⟩
  · intro s members h r
    exact parse_object (h.with_room hn) r
  · intro s members s' members' h h' hperm r
    rw [parse_object (h.with_room hn), parse_object (h'.with_room hn)]
    exact ⟨fun hr => hr.of_perm hperm, fun hr => hr.of_perm hperm.symm⟩
  · intro s items h hpos hle r
    have harray := parse_array (h.with_room hn) hpos hle r
    refine ⟨harray, fun s' h' => ?_⟩
    rw [harray, parse_object (h'.with_room hn)]

/-- A payload that has one key twice: the second value stays. -/
theorem spelled_twice (s : List Char) :
    Spelled 1 ("\x7b\"k\":\"\",\"k\":null\x7d".toList ++ s) (.object [("k", .null)]) s := by
  have hkey (s : List Char) : Characters ('k' :: '"' :: s) ['k'] s := characters_write ['k'] s
  have hfirst (s : List Char) : Member (Spelled 0) ("\"k\":\"\"".toList ++ s) ("k", .string "") s :=
    .mk .none (hkey _) .none ((Scalar.string .close).spelled 0 .none)
  have hsecond (s : List Char) : Member (Spelled 0) ("\"k\":null".toList ++ s) ("k", .null) s :=
    .mk .none (hkey _) .none (Scalar.null.spelled 0 .none)
  refine (Container.object (.filled (.more (hfirst _) .none (.last (hsecond _) .none))) ?_).spelled .none
  exact keeps_foldl [("k", .string ""), ("k", .null)]

theorem member_twice (s : List Char) :
    Member (Spelled 1) ("\"data\":\x7b\"k\":\"\",\"k\":null\x7d".toList ++ s) ("data", .object [("k", .null)]) s :=
  .mk .none (characters_write "data".toList _) .none (spelled_twice s)

theorem spelled_zero (s : List Char) : Spelled 1 ("\"0\"".toList ++ s) (.string "0") s :=
  (Scalar.string (characters_write ['0'] s)).spelled 1 .none

/-- An object; the same members the other way round, with an escape, some space and a member more; an array. -/
theorem parse_reordered :
    1 ≤ memberNesting ∧
    parse "\x7b\"code\":\"0\",\"data\":\x7b\"k\":\"\",\"k\":null\x7d\x7d" =
      .ok ⟨.text "0", none, some (.object [("k", .null)])⟩ ∧
    parse "\x7b\"data\":\x7b\"k\":\"\",\"k\":null\x7d, \"\":true,\"c\\u006fde\" :\"0\"\x7d" =
      .ok ⟨.text "0", none, some (.object [("k", .null)])⟩ ∧
    parse "[\"0\" ]" = .ok ⟨.text "0", none, none⟩ := by
  have hn : 1 ≤ memberNesting := by decide
  obtain ⟨hobject, hperm, harray⟩ := parse_eq_ok_iff hn
  have hspace (s : List Char) : Blank (' ' :: s) s := .more rfl .none
  have hcode (s : List Char) : Characters ("c\\u006fde\"".toList ++ s) "code".toList s :=
    .plain (by decide) (by decide) (by decide) (.unit rfl (characters_write ['d', 'e'] s))
  have hplain : IsObject 1 "\x7b\"code\":\"0\",\"data\":\x7b\"k\":\"\",\"k\":null\x7d\x7d".toList
      [("code", .string "0"), ("data", .object [("k", .null)])] :=
    ⟨_, [], .none, .filled (.more (.mk .none (characters_write "code".toList _) .none (spelled_zero _)) .none
      (.last (member_twice _) .none)), .none⟩
  have hreordered : IsObject 1
      "\x7b\"data\":\x7b\"k\":\"\",\"k\":null\x7d, \"\":true,\"c\\u006fde\" :\"0\"\x7d".toList
      [("data", .object [("k", .null)]), ("", .bool true), ("code", .string "0")] :=
    ⟨_, [], .none, .filled (.more (member_twice _) .none
      (.more (.mk (hspace _) .close .none (Scalar.true.spelled 1 .none)) .none
        (.last (.mk .none (hcode _) (hspace _) (spelled_zero _)) .none))), .none⟩
  have hitems : IsArray 1 "[\"0\" ]".toList [.string "0"] :=
    ⟨_, [], .none, .filled (.last (spelled_zero _) (hspace _)), .none⟩
  have hparse := (hobject _ _ hplain ⟨.text "0", none, some (.object [("k", .null)])⟩).2
    ⟨⟨_, rfl, .text⟩, .absent, .value nofun⟩
  refine ⟨hn, hparse, ?_, ?_⟩
  · refine (hperm _ _ _ _ hreordered hplain ?_ _).2 hparse
    change List.Perm [("data", Value.object [("k", .null)]), ("code", .string "0")]
      [("code", .string "0"), ("data", .object [("k", .null)])]
    exact .swap _ _ _
  · exact ((harray _ _ hitems (by decide) (by decide) _).1).2 ⟨⟨_, rfl, .text⟩, .absent, .absent⟩

end Response

end AgentDesk.Wire
