import AgentDesk.Proofs.Json.Canonical
import AgentDesk.Proofs.Wire.Envelope
import Mathlib.Data.List.DropRight

/-! # An envelope that was read is written back as itself

An answer that came of a text is written as an envelope of which the same answer comes: the typing of its code, its
message, and every text, key and integer of its payload. Doubles are left out. -/
namespace AgentDesk.Wire.Response

open Json Json.Grammar

/-! ### What an answer is that came of a text -/

/-- A payload that came of a text: `null` would have been no payload. -/
def IsRead (v : Value) : Prop := v ≠ .null ∧ v.Canonical memberNesting

/-- The code and the payload are such as come of texts. -/
structure Partial.Sound (p : Partial) : Prop where
  code : ∀ c, p.code = some c → ∃ v, IsCode v c
  data : ∀ v, p.data = some (some v) → IsRead v

theorem isRead_of_decodeOptional {s : List Char} {v : Value} {t : List Char}
    (h : decodeOptional (fun s => decoded (readValue memberNesting s)) s = .ok (some v, t)) : IsRead v := by
  rw [decodeOptional] at h
  split at h
  next =>
    obtain ⟨_, _, h⟩ := bind_eq_ok.1 h
    cases h
  next hnull =>
    obtain ⟨⟨w, u⟩, hread, h⟩ := bind_eq_ok.1 h
    cases h
    cases hvalue : readValue memberNesting (skipSpace s) with
    | none =>
      rw [hvalue] at hread
      cases hread
    | some r =>
      rw [hvalue] at hread
      cases hread
      refine ⟨ne_null_of_readValue hvalue ?_, canonical_readValue hvalue⟩
      rw [skipSpace, skipSpace, List.dropWhile_idempotent]
      exact hnull

theorem isCode_of_decode {n : Nat} {s : List Char} {c : ResultCode} {t : List Char}
    (h : ResultCode.decode n s = .ok (c, t)) : ∃ v, IsCode v c := by
  obtain ⟨⟨v, u⟩, -, h⟩ := bind_eq_ok.1 h
  dsimp only at h
  split at h
  next c hc =>
    cases h
    exact ⟨v, (ofJson?_eq_some_iff v _).1 hc⟩
  next => cases h

theorem sound_empty : Partial.Sound {} := by
  refine ⟨fun c hc => ?_, fun v hv => ?_⟩
  · cases hc
  · cases hv

/-- Every field keeps the record sound. -/
theorem sound_fill : ∀ f ∈ fields, ∀ p s q, Partial.Sound p → f.fill p s = .ok q → Partial.Sound q.1 := by
  intro f hf p s q hp h
  simp only [fields, List.mem_cons, List.not_mem_nil, or_false] at hf
  rcases hf with rfl | rfl | rfl
  · obtain ⟨⟨c, t⟩, hc, rfl⟩ := map_eq_ok.1 h
    refine ⟨?_, hp.data⟩
    rintro _ ⟨⟩
    exact isCode_of_decode hc
  · obtain ⟨_, _, rfl⟩ := map_eq_ok.1 h
    exact ⟨hp.code, hp.data⟩
  · obtain ⟨⟨d, t⟩, hd, rfl⟩ := map_eq_ok.1 h
    refine ⟨hp.code, ?_⟩
    rintro v ⟨⟩
    exact isRead_of_decodeOptional hd

/-- What an answer is that came of a text. -/
structure Sound (r : Response) : Prop where
  code : ∃ v, IsCode v r.code
  data : ∀ v, r.data = some v → IsRead v

theorem sound_of_parse {s : String} {r : Response} (h : parse s = .ok r) : r.Sound := by
  obtain ⟨⟨r', t⟩, hdecode, h⟩ := bind_eq_ok.1 h
  dsimp only at h
  split at h
  next =>
    cases h
    obtain ⟨⟨p, u⟩, hp, h⟩ := bind_eq_ok.1 hdecode
    have hsound : Partial.Sound p := decodeRecord_keeps sound_fill sound_empty hp
    dsimp only at h
    split at h
    next c hc =>
      cases h
      refine ⟨hsound.code c hc, fun v hv => hsound.data v ?_⟩
      exact Option.join_eq_some_iff.1 hv
    next => cases h
  next => cases h

/-! ### What is made of its own envelope -/

def FloatFree (r : Response) : Prop := ∀ v, r.data = some v → v.FloatFree

theorem canonical_code {v : Value} {c : ResultCode} (h : IsCode v c) {n : Nat} :
    c.toJson.Canonical n ∧ c.toJson.FloatFree := by
  cases h with
  | number hlow hhigh => exact ⟨.int ⟨hlow, by omega⟩, .int⟩
  | text => exact ⟨.string, .string⟩

theorem isCode_toJson {v : Value} {c : ResultCode} (h : IsCode v c) : IsCode c.toJson c := by
  cases h with
  | number hlow hhigh => exact .number hlow hhigh
  | text => exact .text

theorem canonical_members {r : Response} (h : r.Sound) (hfree : r.FloatFree) :
    ∀ m ∈ r.members, m.2.Canonical memberNesting ∧ m.2.FloatFree := by
  obtain ⟨code, msg, data⟩ := r
  obtain ⟨⟨v, hcode⟩, hdata⟩ := h
  intro m hm
  simp only [members, List.mem_cons, List.not_mem_nil, or_false] at hm
  rcases hm with rfl | rfl | rfl
  · exact canonical_code hcode
  · cases msg with
    | none => exact ⟨.null, .null⟩
    | some s => exact ⟨.string, .string⟩
  · cases data with
    | none => exact ⟨.null, .null⟩
    | some d => exact ⟨(hdata d rfl).2, hfree d rfl⟩

theorem isEnvelope_members {r : Response} (h : r.Sound) : IsEnvelope r.members r := by
  obtain ⟨code, msg, data⟩ := r
  obtain ⟨⟨v, hcode⟩, hdata⟩ := h
  refine ⟨⟨code.toJson, rfl, isCode_toJson hcode⟩, ?_, ?_⟩
  · cases msg with
    | none => exact .null
    | some s => exact .text
  · cases data with
    | none => exact .null
    | some d => exact .value (hdata d rfl).1

theorem parse_render_of_sound {r : Response} (h : r.Sound) (hfree : r.FloatFree) : parse r.render = .ok r :=
  (parse_object (isObject_renderMembers (canonical_members h hfree)) r).2 (isEnvelope_members h)

/-- A body as it would be sent back: what it says, in the one way of writing it. -/
def normalize (s : String) : Except Fault String := (parse s).map render

/-- **What was read is written back as itself**, in whatever form it came, if no number in it is a double. So a
body that is normal already stays as it is. -/
theorem parse_render {s : String} {r : Response} (h : parse s = .ok r) (hfree : r.FloatFree) :
    parse r.render = .ok r ∧ ∀ t, normalize s = .ok t → normalize t = .ok t := by
  have hback := parse_render_of_sound (sound_of_parse h) hfree
  refine ⟨hback, fun t ht => ?_⟩
  rw [normalize, h] at ht
  cases ht
  rw [normalize, hback]
  rfl

/-- An answer with integers at both ends of their range. -/
def nested : Response where
  code := .text "0"
  msg := none
  data := some (.object [
    ("a", .array [.number (.int 18446744073709551615), .number (.int (-9223372036854775808))]),
    ("b", .string "\x01")])

/-- A text code, no message, an escape, one key twice, and the integers at both ends of their range. -/
theorem parse_render_nested :
    parse "[\"0\", null, \x7b\"b\":1,\"a\":[18446744073709551615,-9223372036854775808],\"b\":\"\\u0001\"\x7d]" =
      .ok nested ∧ nested.FloatFree ∧ parse nested.render = .ok nested := by
  have hparse : parse
      "[\"0\", null, \x7b\"b\":1,\"a\":[18446744073709551615,-9223372036854775808],\"b\":\"\\u0001\"\x7d]" =
        .ok nested := rfl
  have hfree : nested.FloatFree := by
    rintro v ⟨⟩
    refine .object (List.forall_mem_cons.2 ⟨.array ?_, List.forall_mem_singleton.2 .string⟩)
    exact List.forall_mem_cons.2 ⟨.int, List.forall_mem_singleton.2 .int⟩
  exact ⟨hparse, hfree, (parse_render hparse hfree).1⟩

end AgentDesk.Wire.Response
