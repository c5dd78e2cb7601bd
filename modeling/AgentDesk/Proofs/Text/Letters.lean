import AgentDesk.Proofs.Text.Utf8
import AgentDesk.Text.AsciiCase
import Mathlib.Data.List.Forall2

/-! # Texts that differ in the case of their letters

Two texts are the same in lower case exactly if they go together character by character, each pair being the same
character or the two cases of one ASCII letter (`lower_eq_lower_iff`). No other character has a case here, so the two
take up the same number of bytes. -/
namespace AgentDesk.Text

/-- The same character, or the two cases of one of the 26 letters. -/
inductive Recased : Char → Char → Prop
  | same (c : Char) : Recased c c
  | lowered {c d : Char} (capital : 'A'.toNat ≤ c.toNat ∧ c.toNat ≤ 'Z'.toNat) (small : d.toNat = c.toNat + 32) :
    Recased c d
  | raised {c d : Char} (capital : 'A'.toNat ≤ d.toNat ∧ d.toNat ≤ 'Z'.toNat) (small : c.toNat = d.toNat + 32) :
    Recased c d

theorem toNat_lowerChar (c : Char) :
    (lowerChar c).toNat = if 65 ≤ c.toNat ∧ c.toNat ≤ 90 then c.toNat + 32 else c.toNat := by
  have hrange : ('A' ≤ c ∧ c ≤ 'Z') ↔ (65 ≤ c.toNat ∧ c.toNat ≤ 90) := by
    rw [Char.le_def, Char.le_def, UInt32.le_iff_toNat_le, UInt32.le_iff_toNat_le]
    exact Iff.rfl
  simp only [lowerChar, hrange]
  split
  · exact Utf8.toNat_ofNat (.inl (by omega))
  · rfl

theorem lowerChar_eq_iff (c d : Char) : lowerChar c = lowerChar d ↔ Recased c d := by
  rw [← Char.toNat_inj, toNat_lowerChar, toNat_lowerChar]
  constructor
  · intro h
    by_cases hsame : c.toNat = d.toNat
    · obtain rfl := Char.toNat_inj.1 hsame
      exact .same c
    · split at h <;> split at h
      · omega
      · next hc hd => exact .lowered hc (by omega)
      · next hc hd => exact .raised hd (by omega)
      · omega
  · rintro (_ | ⟨hcapital, hsmall⟩ | ⟨hcapital, hsmall⟩)
    · rfl
    · have hc : 65 ≤ c.toNat ∧ c.toNat ≤ 90 := hcapital
      rw [if_pos hc, if_neg (by omega), hsmall]
    · have hd : 65 ≤ d.toNat ∧ d.toNat ≤ 90 := hcapital
      rw [if_pos hd, if_neg (by omega), hsmall]

/-- Texts that differ in the case of their letters at most. -/
def SameText (s t : String) : Prop := List.Forall₂ Recased s.toList t.toList

theorem lower_eq_lower_iff (s t : String) : lower s = lower t ↔ SameText s t := by
  rw [lower, lower, String.ofList_inj, ← List.forall₂_eq_eq_eq, List.forall₂_map_left_iff, List.forall₂_map_right_iff]
  simp only [lowerChar_eq_iff, SameText]

theorem Recased.utf8Size_eq {c d : Char} (h : Recased c d) : c.utf8Size = d.utf8Size := by
  have hascii {x : Char} (hx : x.toNat < 128) : x.utf8Size = 1 := by
    rw [Char.utf8Size_eq_one_iff]
    exact UInt32.le_iff_toNat_le.2 (by simpa using Nat.lt_succ_iff.1 hx)
  cases h with
  | same => rfl
  | lowered capital small =>
    have hc : c.toNat ≤ 90 := capital.2
    rw [hascii (by omega), hascii (by omega)]
  | raised capital small =>
    have hd : d.toNat ≤ 90 := capital.2
    rw [hascii (by omega), hascii (by omega)]

/-- The case of letters does not count for the length in bytes. -/
theorem SameText.utf8ByteSize_eq {s t : String} (h : SameText s t) : s.utf8ByteSize = t.utf8ByteSize := by
  have hchars {cs ds : List Char} (h : List.Forall₂ Recased cs ds) :
      (String.ofList cs).utf8ByteSize = (String.ofList ds).utf8ByteSize := by
    induction h with
    | nil => rfl
    | cons hfirst hrest ih =>
      rw [String.ofList_cons, String.ofList_cons, String.utf8ByteSize_append, String.utf8ByteSize_append,
        String.utf8ByteSize_singleton, String.utf8ByteSize_singleton, hfirst.utf8Size_eq, ih]
  simpa using hchars h

end AgentDesk.Text
