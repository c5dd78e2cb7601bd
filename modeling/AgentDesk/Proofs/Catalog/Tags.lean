import AgentDesk.Catalog.Codec
import AgentDesk.Proofs.Json.Reading
import AgentDesk.Proofs.Json.Writing
import AgentDesk.Proofs.Text.Letters

/-! # How languages and voices are named

A language is looked for among all of them, a voice by its tag in lower case. Either way a text names what its tag
says in any case of its letters, while JSON knows a tag in its one spelling only (`namedByTag_of_lower`). -/
namespace AgentDesk

namespace Json

open Grammar

/-- A text in quotes is decoded as the variant of that name, if there is one. -/
theorem decodeText_variant {α : Type} (variants : List (String × α)) (s : String) (a : α) :
    decodeText (decodeVariant variants) (Value.string s).render = .ok a ↔
      ∃ name, variants.find? (·.1 == s) = some (name, a) := by
  have htext : (Value.string s).render.toList = '"' :: (s.toList.flatMap Quoted.escape ++ ['"']) := by
    simp [Value.render, Value.write, writeText, Quoted.write]
  have hread : strict.text (s.toList.flatMap Quoted.escape ++ ['"']) = some (s, []) := by
    rw [strict_text (characters_write s.toList []), String.ofList_toList]
  have hskip : skipSpace ('"' :: (s.toList.flatMap Quoted.escape ++ ['"'])) =
      '"' :: (s.toList.flatMap Quoted.escape ++ ['"']) := Blank.none.skips_to (by decide)
  rw [decodeText, htext, decodeVariant]
  simp only [hskip, hread, decoded]
  cases hfind : variants.find? (·.1 == s) with
  | none => simp [bind, Except.bind, misfit, hfind]
  | some v =>
    obtain ⟨name, b⟩ := v
    simp [bind, Except.bind, hfind, skipSpace]

end Json

namespace Catalog

open Text

variable {α : Type}

/-! ## Looking for the one that fits -/

/-- Where no two fit, the first that fits is the one that does. -/
theorem find?_eq_some_iff_of_unique {fits : α → Bool} {all : List α} (hall : ∀ a, a ∈ all)
    (hunique : ∀ a b, fits a = true → fits b = true → a = b) (a : α) : all.find? fits = some a ↔ fits a = true := by
  constructor
  · exact List.find?_some
  · intro ha
    obtain ⟨b, hb⟩ := Option.isSome_iff_exists.1 (List.find?_isSome.2 ⟨a, hall a, ha⟩)
    rw [hb, hunique b a (List.find?_some hb) ha]

/-- Of variants that are written as their tags, a text in quotes is the one whose tag it is. -/
theorem decodeText_tag_iff {tag : α → String} {all : List α} (hall : ∀ a, a ∈ all)
    (hinj : ∀ a b, tag a = tag b → a = b) (t : String) (a : α) :
    Json.decodeText (Json.decodeVariant (all.map fun a => (tag a, a))) (Json.Value.string t).render = .ok a ↔
      t = tag a := by
  have hunique (b c : α) (hb : (tag b == t) = true) (hc : (tag c == t) = true) : b = c :=
    hinj b c ((beq_iff_eq.1 hb).trans (beq_iff_eq.1 hc).symm)
  have hfind : all.find? (fun b => tag b == t) = some a ↔ t = tag a :=
    (find?_eq_some_iff_of_unique hall hunique a).trans (beq_iff_eq.trans eq_comm)
  rw [Json.decodeText_variant, List.find?_map, ← hfind]
  simp only [Function.comp_def, Option.map_eq_some_iff, Prod.mk.injEq]
  constructor
  · rintro ⟨_, b, hb, -, rfl⟩
    exact hb
  · intro ha
    exact ⟨tag a, a, ha, rfl, rfl⟩

namespace Language

theorem mem_all (l : Language) : l ∈ all := by
  cases l <;> decide

theorem eq_of_lower_tag (l l' : Language) (h : lower l.tag = lower l'.tag) : l = l' := by
  cases l <;> cases l' <;> first | rfl | exact absurd h (by decide)

theorem decode_eq_ok_iff (t : String) (l : Language) :
    Json.decodeText decode (Json.Value.string t).render = .ok l ↔ t = l.tag :=
  decodeText_tag_iff mem_all (fun l l' h => eq_of_lower_tag l l' (congrArg lower h)) t l

theorem ofText?_eq_some_iff (s : String) (l : Language) : ofText? s = some l ↔ lower s = lower l.tag := by
  have hfits (l : Language) : sameLetters l.tag s = true ↔ lower s = lower l.tag := beq_iff_eq.trans eq_comm
  rw [ofText?, find?_eq_some_iff_of_unique mem_all, hfits]
  intro a b ha hb
  exact eq_of_lower_tag a b (((hfits a).1 ha).symm.trans ((hfits b).1 hb))

theorem parse_ok_iff_lower (s : String) (l : Language) : parse s = .ok l ↔ lower s = lower l.tag := by
  rw [← ofText?_eq_some_iff, parse]
  cases ofText? s <;> simp

theorem parse_eq_error {s e : String} (h : parse s = .error e) : e = "unsupported language: " ++ s := by
  unfold parse at h
  split at h <;> cases h
  rfl

end Language

namespace Voice

theorem mem_all (v : Voice) : v ∈ all := by
  cases v <;> decide

theorem eq_of_lower_tag (v v' : Voice) (h : lower v.tag = lower v'.tag) : v = v' := by
  cases v <;> cases v' <;> first | rfl | exact absurd h (by decide)

theorem decode_eq_ok_iff (t : String) (v : Voice) :
    Json.decodeText decode (Json.Value.string t).render = .ok v ↔ t = v.tag :=
  decodeText_tag_iff mem_all (fun v v' h => eq_of_lower_tag v v' (congrArg lower h)) t v

theorem ofText?_eq_some_iff (s : String) (v : Voice) : ofText? s = some v ↔ lower s = lower v.tag := by
  -- A voice's tag is in lower case already.
  have hlower (v : Voice) : lower v.tag = v.tag := by
    cases v <;> decide
  rw [hlower, ofText?]
  split
  · next hmale => cases v <;> simp [hmale, tag]
  · next hfemale => cases v <;> simp [hfemale, tag]
  · next hmale hfemale =>
    constructor
    · intro hsome
      cases hsome
    · intro h
      cases v with
      | male => exact absurd h hmale
      | female => exact absurd h hfemale

theorem parse_ok_iff_lower (s : String) (v : Voice) : parse s = .ok v ↔ lower s = lower v.tag := by
  rw [← ofText?_eq_some_iff, parse]
  cases ofText? s <;> simp

theorem parse_eq_error {s e : String} (h : parse s = .error e) : e = "unsupported voice type: " ++ s := by
  unfold parse at h
  split at h <;> cases h
  rfl

end Voice

/-! ## The law of both -/

/-- Values are named by their tags: a text in any case of its letters, JSON in one spelling. -/
structure NamedByTag (tag : α → String) (parse : String → Except String α) (decode : Json.Decoder α)
    (complaint : String) : Prop where
  accepted : ∀ s a, parse s = .ok a ↔ s.utf8ByteSize = (tag a).utf8ByteSize ∧ lower s = lower (tag a)
  one : ∀ s a b, lower s = lower (tag a) → lower s = lower (tag b) → a = b
  recased : ∀ s t, SameText s t → ∀ a, parse s = .ok a ↔ parse t = .ok a
  own : ∀ a, parse (tag a) = .ok a
  decoded : ∀ t a, Json.decodeText decode (Json.Value.string t).render = .ok a ↔ t = tag a
  /-- Of all the spellings of what a text names, JSON takes the tag and no other. -/
  canonical : ∀ s a, parse s = .ok a → ∀ t, SameText s t →
    ((∃ b, Json.decodeText decode (Json.Value.string t).render = .ok b) ↔ t = tag a)
  rejected : ∀ s e, parse s = .error e ↔ (∀ a, ¬ SameText s (tag a)) ∧ e = complaint ++ s

theorem namedByTag_of_lower {tag : α → String} {parse : String → Except String α} {decode : Json.Decoder α}
    {complaint : String} (hparse : ∀ s a, parse s = .ok a ↔ lower s = lower (tag a))
    (herror : ∀ s e, parse s = .error e → e = complaint ++ s)
    (hdecode : ∀ t a, Json.decodeText decode (Json.Value.string t).render = .ok a ↔ t = tag a) :
    NamedByTag tag parse decode complaint := by
  have hone (s : String) (a b : α) (ha : lower s = lower (tag a)) (hb : lower s = lower (tag b)) : a = b := by
    have hok := (hparse s a).2 ha
    rw [(hparse s b).2 hb] at hok
    exact (Except.ok.inj hok).symm
  constructor
  case accepted =>
    intro s a
    rw [hparse]
    exact ⟨fun h => ⟨((lower_eq_lower_iff _ _).1 h).utf8ByteSize_eq, h⟩, And.right⟩
  case one => exact hone
  case recased =>
    intro s t h a
    rw [hparse, hparse, (lower_eq_lower_iff s t).2 h]
  case own => exact fun a => (hparse _ a).2 rfl
  case decoded => exact hdecode
  case canonical =>
    intro s a ha t h
    have hlower : lower t = lower (tag a) := ((lower_eq_lower_iff s t).2 h).symm.trans ((hparse s a).1 ha)
    constructor
    · rintro ⟨b, hb⟩
      obtain rfl := (hdecode t b).1 hb
      rw [hone _ b a rfl hlower]
    · intro ht
      exact ⟨a, (hdecode t a).2 ht⟩
  case rejected =>
    intro s e
    constructor
    · intro he
      refine ⟨fun a ha => ?_, herror s e he⟩
      rw [(hparse s a).2 ((lower_eq_lower_iff _ _).2 ha)] at he
      cases he
    · rintro ⟨hnone, rfl⟩
      cases h : parse s with
      | ok a => exact absurd ((lower_eq_lower_iff _ _).1 ((hparse s a).1 h)) (hnone a)
      | error e => rw [herror s e h]

end Catalog

end AgentDesk
