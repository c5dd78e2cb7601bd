import AgentDesk.Text.Utf8
import Mathlib.Data.List.Basic

/-! # The bytes that are a text

Bytes are read as a text exactly if they are the text's bytes, character by character (`decode?_eq_some_iff`). So no
text has two byte forms, and bytes that are those of no text are read as none. -/
namespace AgentDesk.Text.Utf8

/-- The bytes of a text. -/
def encode (s : String) : List UInt8 := s.toList.flatMap String.utf8EncodeChar

/-! ### The bytes of one character -/

/-- The bytes of the character with this code point, as numbers. -/
def sequence (n : Nat) : List Nat :=
  if n < 0x80 then [n]
  else if n < 0x800 then [0xC0 + n / 0x40, 0x80 + n % 0x40]
  else if n < 0x10000 then [0xE0 + n / 0x1000, 0x80 + n / 0x40 % 0x40, 0x80 + n % 0x40]
  else [0xF0 + n / 0x40000, 0x80 + n / 0x1000 % 0x40, 0x80 + n / 0x40 % 0x40, 0x80 + n % 0x40]

theorem sequence_one {n : Nat} (h : n < 0x80) : sequence n = [n] := if_pos h

theorem sequence_two {n : Nat} (h : 0x80 ≤ n) (h' : n < 0x800) :
    sequence n = [0xC0 + n / 0x40, 0x80 + n % 0x40] := by
  rw [sequence, if_neg (by omega), if_pos h']

theorem sequence_three {n : Nat} (h : 0x800 ≤ n) (h' : n < 0x10000) :
    sequence n = [0xE0 + n / 0x1000, 0x80 + n / 0x40 % 0x40, 0x80 + n % 0x40] := by
  rw [sequence, if_neg (by omega), if_neg (by omega), if_pos h']

theorem sequence_four {n : Nat} (h : 0x10000 ≤ n) :
    sequence n = [0xF0 + n / 0x40000, 0x80 + n / 0x1000 % 0x40, 0x80 + n / 0x40 % 0x40, 0x80 + n % 0x40] := by
  rw [sequence, if_neg (by omega), if_neg (by omega), if_neg (by omega)]

/-- The code points of characters: up to U+10FFFF, without the surrogates. -/
def IsScalar (n : Nat) : Prop := n < 0xD800 ∨ 0xDFFF < n ∧ n < 0x110000

theorem isScalar_toNat (c : Char) : IsScalar c.toNat := c.valid

theorem toNat_ofNat {n : Nat} (h : IsScalar n) : (Char.ofNat n).toNat = n := by
  have hvalid : n.isValidChar := h
  rw [Char.ofNat, dif_pos hvalid]
  rfl

theorem toNat_encodeChar (c : Char) : (String.utf8EncodeChar c).map UInt8.toNat = sequence c.toNat := by
  have hc : c.toNat < 0x110000 := by
    have hscalar := isScalar_toNat c
    unfold IsScalar at hscalar
    omega
  simp only [String.utf8EncodeChar, ← Char.toNat.eq_def]
  by_cases h₁ : c.toNat < 0x80
  · rw [if_pos (by omega), sequence_one h₁]
    simp
    omega
  by_cases h₂ : c.toNat < 0x800
  · rw [if_neg (by omega), if_pos (by omega), sequence_two (by omega) h₂]
    simp
    omega
  by_cases h₃ : c.toNat < 0x10000
  · rw [if_neg (by omega), if_neg (by omega), if_pos (by omega), sequence_three (by omega) h₃]
    simp
    omega
  · rw [if_neg (by omega), if_neg (by omega), if_neg (by omega), sequence_four (by omega)]
    simp
    omega

/-- Bytes with the numbers of a character's are its bytes. -/
theorem eq_encodeChar (bytes : List UInt8) {n : Nat} (h : IsScalar n) (hbytes : bytes.map UInt8.toNat = sequence n) :
    bytes = String.utf8EncodeChar (Char.ofNat n) := by
  have hinj : Function.Injective UInt8.toNat := fun a b hab => UInt8.toNat_inj.1 hab
  refine List.map_injective_iff.2 hinj ?_
  rw [hbytes, toNat_encodeChar, toNat_ofNat h]

/-! ### One move of the scan -/

theorem lead_one {b : Nat} (h : b < 0x80) : lead b = .alone (Char.ofNat b) := if_pos h

theorem lead_two {b : Nat} (h : 0xC2 ≤ b) (h' : b < 0xE0) : lead b = .opens ⟨b - 0xC0, 1, 0x80, 0xBF⟩ := by
  rw [lead, if_neg (by omega), if_neg (by omega), if_pos h', show b % 0x20 = b - 0xC0 by omega]

theorem lead_three {b : Nat} (h : 0xE0 ≤ b) (h' : b < 0xF0) :
    lead b = .opens ⟨b - 0xE0, 2, if b = 0xE0 then 0xA0 else 0x80, if b = 0xED then 0x9F else 0xBF⟩ := by
  rw [lead, if_neg (by omega), if_neg (by omega), if_neg (by omega)]
  by_cases hlow : b = 0xE0
  · subst hlow
    rfl
  by_cases hhigh : b = 0xED
  · subst hhigh
    rfl
  · rw [if_neg hlow, if_neg hhigh, if_pos h', if_neg hlow, if_neg hhigh, show b % 0x10 = b - 0xE0 by omega]

theorem lead_four {b : Nat} (h : 0xF0 ≤ b) (h' : b < 0xF5) :
    lead b = .opens ⟨b - 0xF0, 3, if b = 0xF0 then 0x90 else 0x80, if b = 0xF4 then 0x8F else 0xBF⟩ := by
  rw [lead, if_neg (by omega), if_neg (by omega), if_neg (by omega), if_neg (by omega), if_neg (by omega),
    if_neg (by omega)]
  by_cases hlow : b = 0xF0
  · subst hlow
    rfl
  by_cases hhigh : b = 0xF4
  · subst hhigh
    rfl
  · rw [if_neg hlow, if_pos (by omega), if_neg hlow, if_neg hhigh, show b % 8 = b - 0xF0 by omega]

theorem lead_invalid {b : Nat} (h : 0x80 ≤ b ∧ b < 0xC2 ∨ 0xF5 ≤ b) : lead b = .invalid := by
  rw [lead, if_neg (by omega)]
  by_cases hb : b < 0xC2
  · rw [if_pos hb]
  · rw [if_neg hb, if_neg (by omega), if_neg (by omega), if_neg (by omega), if_neg (by omega), if_neg (by omega),
      if_neg (by omega), if_neg (by omega)]

variable {b : UInt8} {bytes : List UInt8} {p : Pending}

theorem scan_alone {c : Char} (h : lead b.toNat = .alone c) : scan none (b :: bytes) = some c :: scan none bytes := by
  simp only [scan, feed, start, h, List.singleton_append]

theorem scan_opens (h : lead b.toNat = .opens p) : scan none (b :: bytes) = scan (some p) bytes := by
  simp only [scan, feed, start, h, List.nil_append]

theorem scan_invalid (h : lead b.toNat = .invalid) : none ∈ scan none (b :: bytes) := by
  simp only [scan, feed, start, h, List.singleton_append, List.mem_cons_self]

/-- The last byte of a sequence. -/
theorem scan_last (h : p.low ≤ b.toNat ∧ b.toNat ≤ p.high) (hmore : p.more ≤ 1) :
    scan (some p) (b :: bytes) = some (Char.ofNat (p.value * 0x40 + b.toNat % 0x40)) :: scan none bytes := by
  simp only [scan, feed, if_pos h, if_pos hmore, List.singleton_append]

/-- A byte after which more are to come. -/
theorem scan_further (h : p.low ≤ b.toNat ∧ b.toNat ≤ p.high) (hmore : ¬ p.more ≤ 1) :
    scan (some p) (b :: bytes) = scan (some ⟨p.value * 0x40 + b.toNat % 0x40, p.more - 1, 0x80, 0xBF⟩) bytes := by
  simp only [scan, feed, if_pos h, if_neg hmore, List.nil_append]

/-- A sequence that has begun goes on with a byte within its bounds, or there is an invalid sequence. -/
theorem exists_of_pending (h : none ∉ scan (some p) bytes) :
    ∃ b rest, bytes = b :: rest ∧ p.low ≤ b.toNat ∧ b.toNat ≤ p.high := by
  cases bytes with
  | nil => exact absurd List.mem_cons_self h
  | cons b rest =>
    by_cases hb : p.low ≤ b.toNat ∧ b.toNat ≤ p.high
    · exact ⟨b, rest, rfl, hb⟩
    · refine absurd ?_ h
      simp only [scan, feed, if_neg hb, List.cons_append, List.mem_cons_self]

/-! ### Characters -/

/-- A character is read from its bytes. -/
theorem scan_encodeChar (c : Char) (bytes : List UInt8) :
    scan none (String.utf8EncodeChar c ++ bytes) = some c :: scan none bytes := by
  have hc : Char.ofNat c.toNat = c := Char.ofNat_toNat c
  have hscalar := isScalar_toNat c
  have hseq := toNat_encodeChar c
  generalize c.toNat = n at hc hscalar hseq
  unfold IsScalar at hscalar
  generalize String.utf8EncodeChar c = seq at hseq ⊢
  by_cases h₁ : n < 0x80
  · rw [sequence_one h₁] at hseq
    obtain ⟨b, rfl, rfl⟩ := List.map_eq_singleton_iff.1 hseq
    rw [List.singleton_append, scan_alone (lead_one h₁), hc]
  by_cases h₂ : n < 0x800
  · rw [sequence_two (by omega) h₂] at hseq
    obtain ⟨b₀, _, rfl, h0, hseq⟩ := List.map_eq_cons_iff.1 hseq
    obtain ⟨b₁, rfl, h1⟩ := List.map_eq_singleton_iff.1 hseq
    rw [List.cons_append, List.singleton_append, scan_opens (lead_two (by omega) (by omega)),
      scan_last (by dsimp only; omega) (Nat.le_refl _)]
    dsimp only
    rw [show (b₀.toNat - 0xC0) * 0x40 + b₁.toNat % 0x40 = n by omega, hc]
  by_cases h₃ : n < 0x10000
  · rw [sequence_three (by omega) h₃] at hseq
    obtain ⟨b₀, _, rfl, h0, hseq⟩ := List.map_eq_cons_iff.1 hseq
    obtain ⟨b₁, _, rfl, h1, hseq⟩ := List.map_eq_cons_iff.1 hseq
    obtain ⟨b₂, rfl, h2⟩ := List.map_eq_singleton_iff.1 hseq
    rw [List.cons_append, List.cons_append, List.singleton_append, scan_opens (lead_three (by omega) (by omega)),
      scan_further (by dsimp only; split <;> split <;> omega) (by dsimp only; omega),
      scan_last (by dsimp only; omega) (Nat.le_refl _)]
    dsimp only
    rw [show ((b₀.toNat - 0xE0) * 0x40 + b₁.toNat % 0x40) * 0x40 + b₂.toNat % 0x40 = n by omega, hc]
  · rw [sequence_four (by omega)] at hseq
    obtain ⟨b₀, _, rfl, h0, hseq⟩ := List.map_eq_cons_iff.1 hseq
    obtain ⟨b₁, _, rfl, h1, hseq⟩ := List.map_eq_cons_iff.1 hseq
    obtain ⟨b₂, _, rfl, h2, hseq⟩ := List.map_eq_cons_iff.1 hseq
    obtain ⟨b₃, rfl, h3⟩ := List.map_eq_singleton_iff.1 hseq
    rw [List.cons_append, List.cons_append, List.cons_append, List.singleton_append,
      scan_opens (lead_four (by omega) (by omega)),
      scan_further (by dsimp only; split <;> split <;> omega) (by dsimp only; omega),
      scan_further (by dsimp only; omega) (by dsimp only; omega),
      scan_last (by dsimp only; omega) (Nat.le_refl _)]
    dsimp only
    rw [show (((b₀.toNat - 0xF0) * 0x40 + b₁.toNat % 0x40) * 0x40 + b₂.toNat % 0x40) * 0x40 + b₃.toNat % 0x40 = n
      by omega, hc]

/-- What the bounds of a second byte come to, which are narrower after two of the first bytes. -/
theorem bounds_of_second {b b₁ first last low high : Nat} (hlow : 0x80 ≤ low) (hhigh : high ≤ 0xBF)
    (h : (if b = first then low else 0x80) ≤ b₁ ∧ b₁ ≤ if b = last then high else 0xBF) :
    0x80 ≤ b₁ ∧ b₁ ≤ 0xBF ∧ (b = first → low ≤ b₁) ∧ (b = last → b₁ ≤ high) := by
  split at h <;> split at h <;> omega

/-- Bytes without an invalid sequence start with the bytes of a character. -/
theorem exists_encodeChar (h : none ∉ scan none (b :: bytes)) :
    ∃ c rest, b :: bytes = String.utf8EncodeChar c ++ rest := by
  have hb := b.toNat_lt
  have hscalar (n : Nat) (hn : n < 0xD800 ∨ 0xDFFF < n ∧ n < 0x110000) : IsScalar n := hn
  by_cases h₀ : 0x80 ≤ b.toNat ∧ b.toNat < 0xC2 ∨ 0xF5 ≤ b.toNat
  · exact absurd (scan_invalid (lead_invalid h₀)) h
  by_cases h₁ : b.toNat < 0x80
  · refine ⟨Char.ofNat b.toNat, bytes, ?_⟩
    rw [← eq_encodeChar [b] (hscalar _ (by omega)) (sequence_one h₁).symm]
    rfl
  by_cases h₂ : b.toNat < 0xE0
  · rw [scan_opens (lead_two (by omega) h₂)] at h
    obtain ⟨b₁, rest, rfl, hlow, hhigh⟩ := exists_of_pending h
    dsimp only at hlow hhigh
    refine ⟨Char.ofNat ((b.toNat - 0xC0) * 0x40 + b₁.toNat % 0x40), rest, ?_⟩
    rw [← eq_encodeChar [b, b₁] (hscalar _ (by omega))]
    · rfl
    · rw [sequence_two (by omega) (by omega)]
      simp
      omega
  by_cases h₃ : b.toNat < 0xF0
  · rw [scan_opens (lead_three (by omega) h₃)] at h
    obtain ⟨b₁, rest, rfl, hbounds⟩ := exists_of_pending h
    rw [scan_further hbounds (by dsimp only; omega)] at h
    obtain ⟨b₂, rest, rfl, hlow, hhigh⟩ := exists_of_pending h
    obtain ⟨hlow₁, hhigh₁, hleast, hgreatest⟩ := bounds_of_second (by decide) (by decide) hbounds
    dsimp only at hlow hhigh
    refine ⟨Char.ofNat (((b.toNat - 0xE0) * 0x40 + b₁.toNat % 0x40) * 0x40 + b₂.toNat % 0x40), rest, ?_⟩
    rw [← eq_encodeChar [b, b₁, b₂] (hscalar _ (by omega))]
    · rfl
    · rw [sequence_three (by omega) (by omega)]
      simp
      omega
  · rw [scan_opens (lead_four (by omega) (by omega))] at h
    obtain ⟨b₁, rest, rfl, hbounds⟩ := exists_of_pending h
    rw [scan_further hbounds (by dsimp only; omega)] at h
    obtain ⟨b₂, rest, rfl, hlow₂, hhigh₂⟩ := exists_of_pending h
    rw [scan_further ⟨hlow₂, hhigh₂⟩ (by dsimp only; omega)] at h
    obtain ⟨b₃, rest, rfl, hlow₃, hhigh₃⟩ := exists_of_pending h
    obtain ⟨hlow₁, hhigh₁, hleast, hgreatest⟩ := bounds_of_second (by decide) (by decide) hbounds
    dsimp only at hlow₂ hhigh₂ hlow₃ hhigh₃
    refine ⟨Char.ofNat ((((b.toNat - 0xF0) * 0x40 + b₁.toNat % 0x40) * 0x40 + b₂.toNat % 0x40) * 0x40 +
      b₃.toNat % 0x40), rest, ?_⟩
    rw [← eq_encodeChar [b, b₁, b₂, b₃] (hscalar _ (by omega))]
    · rfl
    · rw [sequence_four (by omega)]
      simp
      omega

/-! ### Texts -/

theorem scan_encode (cs : List Char) : scan none (cs.flatMap String.utf8EncodeChar) = cs.map some := by
  induction cs with
  | nil => rfl
  | cons c cs ih => rw [List.flatMap_cons, scan_encodeChar, ih, List.map_cons]

theorem exists_encode (bytes : List UInt8) (h : none ∉ scan none bytes) :
    ∃ cs : List Char, bytes = cs.flatMap String.utf8EncodeChar := by
  cases bytes with
  | nil => exact ⟨[], rfl⟩
  | cons b bytes =>
    obtain ⟨c, rest, heq⟩ := exists_encodeChar h
    have hshort : rest.length < (b :: bytes).length := by
      rw [heq, List.length_append, String.length_utf8EncodeChar]
      have hpos := Char.utf8Size_pos c
      omega
    rw [heq, scan_encodeChar] at h
    obtain ⟨cs, rfl⟩ := exists_encode rest fun hnone => h (List.mem_cons_of_mem _ hnone)
    exact ⟨c :: cs, heq⟩
termination_by bytes.length

theorem mapM_id_eq_some_iff {α : Type} (os : List (Option α)) (as : List α) : os.mapM id = some as ↔ os = as.map some := by
  induction os generalizing as with
  | nil => cases as <;> simp
  | cons o os ih =>
    simp only [List.mapM_cons, id, Option.pure_def, Option.bind_eq_bind, Option.bind_eq_some_iff, Option.some.injEq, ih]
    cases as <;> simp

/-- **Bytes are read as a text exactly if they are its bytes.** -/
theorem decode?_eq_some_iff (bytes : List UInt8) (s : String) : decode? bytes = some s ↔ bytes = encode s := by
  rw [decode?, Option.map_eq_some_iff]
  constructor
  · rintro ⟨cs, hcs, rfl⟩
    rw [mapM_id_eq_some_iff] at hcs
    have hnone : none ∉ scan none bytes := by
      rw [hcs]
      simp
    obtain ⟨cs', rfl⟩ := exists_encode bytes hnone
    rw [scan_encode] at hcs
    obtain rfl : cs' = cs := List.map_injective_iff.2 (fun _ _ h => Option.some.inj h) hcs
    rw [encode, String.toList_ofList]
  · rintro rfl
    exact ⟨s.toList, (mapM_id_eq_some_iff _ _).2 (scan_encode _), String.ofList_toList⟩

end AgentDesk.Text.Utf8
