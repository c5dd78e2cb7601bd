import AgentDesk.Text.Numeral
import Mathlib.Data.List.DropRight
import Mathlib.Data.Nat.Digits.Defs

/-! # What trimming leaves, and what a numeral may look like

Trimming takes off the blanks at both ends, as many as there are, and nothing else (`trimChars_eq_iff`). A setting's
number may have blanks around it, one plus sign and any zeros in front, and must fit its width (`read?_eq_some_iff`). -/
namespace AgentDesk.Text

/-- All characters are blank. -/
def Blanks (cs : List Char) : Prop := ∀ c ∈ cs, isBlank c = true

/-- No blank at either end. -/
structure Bare (cs : List Char) : Prop where
  first : ∀ c ∈ cs.head?, isBlank c = false
  last : ∀ c ∈ cs.getLast?, isBlank c = false

theorem bare_of_forall {cs : List Char} (h : ∀ c ∈ cs, isBlank c = false) : Bare cs :=
  ⟨fun c hc => h c (List.mem_of_mem_head? hc), fun c hc => h c (List.mem_of_getLast? hc)⟩

theorem trimChars_eq_rdropWhile (cs : List Char) : trimChars cs = (cs.dropWhile isBlank).rdropWhile isBlank := rfl

theorem bare_trimChars (cs : List Char) : Bare (trimChars cs) := by
  constructor
  · intro c hc
    have hprefix : trimChars cs <+: cs.dropWhile isBlank := List.rdropWhile_prefix _ _
    obtain ⟨rest, hrest⟩ := hprefix
    have hhead := List.head?_dropWhile_not isBlank cs
    rw [← hrest, List.head?_append, Option.mem_def.1 hc] at hhead
    exact hhead
  · intro c hc
    obtain ⟨hne, rfl⟩ := List.mem_getLast?_eq_getLast hc
    exact Bool.not_eq_true _ ▸ List.rdropWhile_last_not isBlank _ hne

theorem exists_trimChars (cs : List Char) : ∃ u v, Blanks u ∧ Blanks v ∧ cs = u ++ trimChars cs ++ v := by
  refine ⟨cs.takeWhile isBlank, (cs.dropWhile isBlank).rtakeWhile isBlank, fun c hc => List.mem_takeWhile_imp hc,
    fun c hc => List.mem_rtakeWhile_imp hc, ?_⟩
  rw [trimChars_eq_rdropWhile, List.append_assoc, List.rdropWhile_append_rtakeWhile, List.takeWhile_append_dropWhile]

theorem trimChars_append {u m v : List Char} (hu : Blanks u) (hv : Blanks v) (hm : Bare m) :
    trimChars (u ++ m ++ v) = m := by
  cases hmid : m with
  | nil =>
    refine (trimChars_eq_nil_iff _).2 fun c hc => ?_
    rw [List.append_nil, List.mem_append] at hc
    exact hc.elim (hu c) (hv c)
  | cons c rest =>
    have hfirst : ¬ isBlank c = true := by
      rw [hm.first c (by rw [hmid]; rfl)]
      exact Bool.false_ne_true
    have hlast : m.rdropWhile isBlank = m := by
      refine List.rdropWhile_eq_self_iff.2 fun hne => ?_
      rw [hm.last _ (List.getLast?_eq_some_getLast hne)]
      exact Bool.false_ne_true
    rw [List.append_assoc, trimChars_eq_rdropWhile, List.dropWhile_append_of_pos hu, List.cons_append,
      List.dropWhile_cons_of_neg hfirst, ← List.cons_append, ← hmid]
    rw [List.rdropWhile, List.reverse_append, List.dropWhile_append_of_pos fun c hc => hv c (List.mem_reverse.1 hc)]
    exact hlast

/-- **Trimming leaves what has no blank at either end, with blanks around it.** -/
theorem trimChars_eq_iff (cs m : List Char) :
    trimChars cs = m ↔ Bare m ∧ ∃ u v, Blanks u ∧ Blanks v ∧ cs = u ++ m ++ v := by
  constructor
  · rintro rfl
    exact ⟨bare_trimChars cs, exists_trimChars cs⟩
  · rintro ⟨hm, u, v, hu, hv, rfl⟩
    exact trimChars_append hu hv hm

/-! ### Numerals -/

namespace Numeral

theorem isBlank_of_isDigit {c : Char} (h : c.isDigit = true) : isBlank c = false := by
  have hrange : 0x30 ≤ c.toNat ∧ c.toNat ≤ 0x39 := Char.isDigit_iff_toNat.1 h
  simp [isBlank, blankRanges]
  omega

/-- The text has blanks around it, at most one plus sign, and decimal digits for `n`, which fits `bits` bits. -/
def Spells (bits : Nat) (s : String) (n : Nat) : Prop :=
  ∃ u plus ds v, s.toList = u ++ (plus ++ ds) ++ v ∧ Blanks u ∧ Blanks v ∧ (plus = [] ∨ plus = ['+']) ∧
    ds ≠ [] ∧ (∀ d ∈ ds, d.isDigit = true) ∧ Nat.ofDigitChars 10 ds 0 = n ∧ n < 2 ^ bits

theorem dropPlus_of_digits {ds : List Char} (h : ∀ d ∈ ds, d.isDigit = true) : dropPlus ds = ds := by
  unfold dropPlus
  split
  next rest => cases h '+' List.mem_cons_self
  next => rfl

theorem exists_dropPlus (cs : List Char) : ∃ plus, (plus = [] ∨ plus = ['+']) ∧ cs = plus ++ dropPlus cs := by
  unfold dropPlus
  split
  next rest => exact ⟨['+'], .inr rfl, rfl⟩
  next => exact ⟨[], .inl rfl, rfl⟩

/-- Digits with a sign or none have no blank at either end. -/
theorem bare_of_digits {plus ds : List Char} (hplus : plus = [] ∨ plus = ['+']) (h : ∀ d ∈ ds, d.isDigit = true) :
    Bare (plus ++ ds) := by
  refine bare_of_forall fun c hc => ?_
  obtain hc | hc := List.mem_append.1 hc
  · obtain rfl | rfl := hplus
    · cases hc
    · obtain rfl := List.mem_singleton.1 hc
      decide
  · exact isBlank_of_isDigit (h c hc)

/-- **A number is read from exactly the texts that spell it.** -/
theorem read?_eq_some_iff (bits : Nat) (s : String) (n : Nat) : read? bits s = some n ↔ Spells bits s n := by
  have hvalue (ds : List Char) : digitsValue ds = Nat.ofDigitChars 10 ds 0 := rfl
  rw [read?]
  constructor
  · intro h
    split at h
    next hds =>
      obtain ⟨hne, hdigits, hfits⟩ := hds
      obtain ⟨u, v, hu, hv, hs⟩ := exists_trimChars s.toList
      obtain ⟨plus, hplus, hsign⟩ := exists_dropPlus (trimChars s.toList)
      obtain rfl := Option.some.inj h
      rw [hsign] at hs
      exact ⟨u, plus, _, v, hs, hu, hv, hplus, hne, List.all_eq_true.1 hdigits, rfl, hfits⟩
    next => cases h
  · rintro ⟨u, plus, ds, v, hs, hu, hv, hplus, hne, hdigits, rfl, hfits⟩
    have htrim : trimChars s.toList = plus ++ ds := by
      rw [hs]
      exact trimChars_append hu hv (bare_of_digits hplus hdigits)
    have hdrop : dropPlus (trimChars s.toList) = ds := by
      rw [htrim]
      obtain rfl | rfl := hplus
      · exact dropPlus_of_digits hdigits
      · rfl
    simp only [hdrop]
    exact if_pos ⟨hne, List.all_eq_true.2 hdigits, hfits⟩

theorem Spells.unique {bits m n : Nat} {s : String} (hm : Spells bits s m) (hn : Spells bits s n) : m = n := by
  rw [← read?_eq_some_iff] at hm hn
  exact Option.some.inj (hm.symm.trans hn)

end Numeral

end AgentDesk.Text
