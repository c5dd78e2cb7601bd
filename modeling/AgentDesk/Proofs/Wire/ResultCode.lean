import AgentDesk.Proofs.Text.Trim
import AgentDesk.Wire.ResultCode
import Mathlib.Data.Nat.Digits.Defs

/-! # Which codes mean success, and which that the server is full

A numeral is written in one way only, and without blanks. So a code that is a number means what one number means,
typed as a number or as a text with any blanks around it (`looselyRead`). -/
namespace AgentDesk

namespace Text.Numeral

theorem ofNat_injective : Function.Injective ofNat := by
  intro m n h
  have hback (k : Nat) : Nat.ofDigitChars 10 (ofNat k) 0 = k := Nat.ofDigitChars_ten_toDigits
  rw [← hback m, h, hback]

theorem minus_not_mem_ofNat (n : Nat) : '-' ∉ ofNat n := by
  intro h
  have hdigit : '-'.isDigit = true := Nat.isDigit_of_mem_toDigits (b := 10) (by omega) (by omega) h
  cases hdigit

theorem ofInt_injective : Function.Injective ofInt := by
  intro i j h
  cases i with
  | ofNat m =>
    cases j with
    | ofNat n => rw [ofNat_injective h]
    | negSucc n =>
      refine absurd ?_ (minus_not_mem_ofNat m)
      rw [show ofNat m = '-' :: ofNat (n + 1) from h]
      exact List.mem_cons_self
  | negSucc m =>
    cases j with
    | ofNat n =>
      refine absurd ?_ (minus_not_mem_ofNat n)
      rw [← show '-' :: ofNat (m + 1) = ofNat n from h]
      exact List.mem_cons_self
    | negSucc n =>
      have hsame := ofNat_injective (List.cons.inj h).2
      rw [Nat.succ.inj hsame]

theorem intText_injective : Function.Injective intText := by
  intro i j h
  exact ofInt_injective (String.ofList_injective h)

theorem isBlank_of_mem_ofInt {n : Int} {c : Char} (h : c ∈ ofInt n) : isBlank c = false := by
  have hdigits (m : Nat) (h : c ∈ ofNat m) : isBlank c = false :=
    isBlank_of_isDigit (Nat.isDigit_of_mem_toDigits (by omega) (by omega) h)
  cases n with
  | ofNat m => exact hdigits m h
  | negSucc m =>
    obtain rfl | h := List.mem_cons.1 h
    · decide
    · exact hdigits (m + 1) h

/-- A numeral with blanks around it, or none. -/
def padded (u : List Char) (n : Int) (v : List Char) : String := String.ofList (u ++ (intText n).toList ++ v)

theorem trim_padded {u v : List Char} (hu : Blanks u) (hv : Blanks v) (n : Int) : trim (padded u n v) = intText n := by
  have hbare : Bare (ofInt n) := bare_of_forall fun _ => isBlank_of_mem_ofInt
  rw [trim, padded, intText, String.toList_ofList, String.toList_ofList, trimChars_append hu hv hbare]

end Text.Numeral

namespace Wire.ResultCode

open Text.Numeral

/-- The code is a number, typed as one or as a text; the outer blanks of a text do not count. -/
def Denotes (c : ResultCode) (n : Int) : Prop := c = .number n ∨ ∃ s, c = .text s ∧ Text.trim s = intText n

theorem meaning_eq_iff (c : ResultCode) (n : Int) : c.meaning = intText n ↔ c.Denotes n := by
  cases c with
  | number m => simp [meaning, Denotes, intText_injective.eq_iff]
  | text s => simp [meaning, Denotes]

theorem isSuccess_iff (c : ResultCode) : c.isSuccess = true ↔ c.Denotes 0 := by
  rw [isSuccess, beq_iff_eq, ← meaning_eq_iff]
  rfl

theorem isCapacityExceeded_iff (c : ResultCode) : c.isCapacityExceeded = true ↔ c.Denotes 10001 := by
  have hfull : intText 10001 = capacityMeaning := by decide
  rw [isCapacityExceeded, beq_iff_eq, ← meaning_eq_iff, hfull]

/-- No code is two numbers. -/
theorem Denotes.unique {c : ResultCode} {m n : Int} (hm : c.Denotes m) (hn : c.Denotes n) : m = n := by
  rw [← meaning_eq_iff] at hm hn
  exact intText_injective (hm.symm.trans hn)

/-- How codes are read. Blanks around a text do not count; all else does. -/
structure LooselyRead : Prop where
  success : ∀ c : ResultCode, c.isSuccess = true ↔ c = .number 0 ∨ ∃ s, c = .text s ∧ Text.trim s = "0"
  capacity : ∀ c : ResultCode, c.isCapacityExceeded = true ↔ c = .number 10001 ∨ ∃ s, c = .text s ∧ Text.trim s = "10001"
  apart : ∀ c : ResultCode, ¬ (c.isSuccess = true ∧ c.isCapacityExceeded = true)
  padded_success : ∀ n u v, Text.Blanks u → Text.Blanks v →
    (text (padded u n v)).isSuccess = (number n).isSuccess
  padded_capacity : ∀ n u v, Text.Blanks u → Text.Blanks v →
    (text (padded u n v)).isCapacityExceeded = (number n).isCapacityExceeded
  strict : ∀ s ∈ ["00", "+0", "-0", "0.0"], (text s).isSuccess = false

theorem looselyRead : LooselyRead := by
  have hpadded (n : Int) {u v : List Char} (hu : Text.Blanks u) (hv : Text.Blanks v) :
      (text (padded u n v)).meaning = (number n).meaning := trim_padded hu hv n
  refine ⟨isSuccess_iff, isCapacityExceeded_iff, fun c ⟨hsuccess, hcapacity⟩ => ?_, fun n u v hu hv => ?_,
    fun n u v hu hv => ?_, by decide⟩
  · have hboth := ((isSuccess_iff c).1 hsuccess).unique ((isCapacityExceeded_iff c).1 hcapacity)
    exact absurd hboth (by decide)
  · rw [isSuccess, hpadded n hu hv, isSuccess]
  · rw [isCapacityExceeded, hpadded n hu hv, isCapacityExceeded]

end Wire.ResultCode

end AgentDesk
