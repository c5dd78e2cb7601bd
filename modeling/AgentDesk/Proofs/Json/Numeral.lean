import AgentDesk.Proofs.Json.Grammar
import Mathlib.Algebra.Group.Int.Defs

/-! # Numbers are read as they are spelled

A numeral ends where no further character could belong to it; up to there it is read whole. What it stands for
is an integer exactly if it is written as one and fits 64 bits. -/
namespace AgentDesk.Json

open Grammar

/-- No character here could carry a number on. -/
def Ends (t : List Char) : Prop := ∀ c ∈ t.head?, c.isDigit = false ∧ c ≠ '.' ∧ c ≠ 'e' ∧ c ≠ 'E'

namespace Literal

/-! ### The parts of a numeral -/

theorem digits_of_digits {s ds t : List Char} (h : Digits s ds t) (ht : ∀ c ∈ t.head?, c.isDigit = false) :
    digits s = (ds, t) := by
  obtain ⟨rfl, -, hds⟩ := h
  have htake : t.takeWhile Char.isDigit = [] := by
    cases t with
    | nil => rfl
    | cons c u => rw [List.takeWhile_cons, ht c rfl]; rfl
  have hdrop : t.dropWhile Char.isDigit = t := by
    cases t with
    | nil => rfl
    | cons c u => rw [List.dropWhile_cons, ht c rfl]; rfl
  rw [digits, List.takeWhile_append_of_pos hds, List.dropWhile_append_of_pos hds, htake, hdrop,
    List.append_nil]

theorem digits?_of_digits {s ds t : List Char} (h : Digits s ds t) (ht : ∀ c ∈ t.head?, c.isDigit = false) :
    digits? s = some (ds, t) := by
  rw [digits?, digits_of_digits h ht]
  cases ds with
  | nil => exact absurd rfl h.2.1
  | cons d ds => rfl

theorem readWhole?_of_whole {s ds t : List Char} (h : Whole s ds t)
    (ht : ∀ c ∈ t.head?, c.isDigit = false) : readWhole? s = some (ds, t) := by
  rw [readWhole?, digits_of_digits h.1 ht]
  split
  next heq => exact absurd (congrArg Prod.fst heq) h.1.2.1
  next heq =>
    have hds := congrArg Prod.fst heq
    simp only at hds
    rw [hds] at h
    cases h.2 rfl
  next => rfl

theorem isDigit_head {s ds t : List Char} (h : Digits s ds t) : ∃ c u, s = c :: u ∧ c.isDigit = true := by
  obtain ⟨rfl, hne, hds⟩ := h
  cases ds with
  | nil => exact absurd rfl hne
  | cons d ds => exact ⟨d, ds ++ t, rfl, hds d List.mem_cons_self⟩

theorem readSign_of_sign {s u ds t : List Char} {negative : Bool} (h : Sign s negative u) (hu : Digits u ds t) :
    readSign s = (negative, u) := by
  cases h with
  | minus => rfl
  | absent =>
    obtain ⟨c, v, rfl, hc⟩ := isDigit_head hu
    rw [readSign]
    rintro r hr
    cases hr
    cases hc

theorem readFraction?_of_fractionPart {s ds t : List Char} (h : FractionPart s ds t)
    (ht : ∀ c ∈ t.head?, c.isDigit = false ∧ c ≠ '.') : readFraction? s = some (ds, t) := by
  cases h with
  | present hds => exact digits?_of_digits hds fun c hc => (ht c hc).1
  | absent =>
    rw [readFraction?]
    rintro r rfl
    exact (ht '.' rfl).2 rfl

theorem readExponentDigits?_of_digits {u ds t : List Char} {negative : Bool} (hds : Digits u ds t)
    (ht : ∀ c ∈ t.head?, c.isDigit = false) :
    readExponentDigits? negative u = some (some (negative, ds), t) := by
  rw [readExponentDigits?, digits?_of_digits hds ht]
  rfl

theorem readExponent?_of_exponentPart {s t : List Char} {e : Option (Bool × List Char)}
    (h : ExponentPart s e t) (ht : Ends t) : readExponent? s = some (e, t) := by
  cases h with
  | absent =>
    cases s with
    | nil => rfl
    | cons c u =>
      obtain ⟨-, -, he, hE⟩ := ht c rfl
      rw [readExponent?.eq_def]
      exact if_neg (by simp [he, hE])
  | present hmark hsign hds =>
    have hdigit : ∀ c ∈ t.head?, c.isDigit = false := fun c hc => (ht c hc).1
    cases hsign with
    | plus => rw [readExponent?, if_pos hmark, readExponentDigits?_of_digits hds hdigit]
    | minus => rw [readExponent?, if_pos hmark, readExponentDigits?_of_digits hds hdigit]
    | absent =>
      obtain ⟨c, v, rfl, hc⟩ := isDigit_head hds
      rw [readExponent?, if_pos hmark, readExponentDigits?_of_digits hds hdigit]
      all_goals
        rintro r hr
        cases hr
        cases hc

/-! ### A whole numeral -/

theorem head_exponentPart {s t : List Char} {e : Option (Bool × List Char)} (h : ExponentPart s e t)
    (ht : Ends t) : ∀ c ∈ s.head?, c.isDigit = false ∧ c ≠ '.' := by
  intro c hc
  cases h with
  | absent => exact ⟨(ht c hc).1, (ht c hc).2.1⟩
  | present hmark _ _ =>
    cases hc
    rcases hmark with rfl | rfl <;> decide

theorem head_fractionPart {s ds t : List Char} (h : FractionPart s ds t)
    (ht : ∀ c ∈ t.head?, c.isDigit = false ∧ c ≠ '.') : ∀ c ∈ s.head?, c.isDigit = false := by
  intro c hc
  cases h with
  | absent => exact (ht c hc).1
  | present _ =>
    cases hc
    decide

theorem read?_of_numeral {s : List Char} {l : Literal} {t : List Char} (h : Numeral s l t) (ht : Ends t) :
    read? s = some (l, t) := by
  obtain ⟨hsign, hwhole, hfraction, hexponent⟩ := h
  have h₃ := head_exponentPart hexponent ht
  have h₂ := head_fractionPart hfraction h₃
  rw [read?, readSign_of_sign hsign hwhole.1]
  simp only [readWhole?_of_whole hwhole h₂, readFraction?_of_fractionPart hfraction h₃,
    readExponent?_of_exponentPart hexponent ht, bind, Option.bind, pure]

/-- A numeral starts with a minus or a digit. -/
theorem head_numeral {s : List Char} {l : Literal} {t : List Char} (h : Numeral s l t) :
    ∃ c u, s = c :: u ∧ (c = '-' ∨ c.isDigit = true) := by
  obtain ⟨hsign, hwhole, -, -⟩ := h
  cases hsign with
  | minus => exact ⟨_, _, rfl, .inl rfl⟩
  | absent =>
    obtain ⟨c, u, rfl, hc⟩ := isDigit_head hwhole.1
    exact ⟨c, u, rfl, .inr hc⟩

/-! ### What a literal stands for -/

/-- The number that digits stand for behind what was read already. -/
def valueFrom (n : Nat) (ds : List Char) : Nat := ds.foldl (fun n d => 10 * n + digitOf d) n

theorem le_valueFrom (n : Nat) (ds : List Char) : n ≤ valueFrom n ds := by
  induction ds generalizing n with
  | nil => exact Nat.le_refl _
  | cons d ds ih =>
    calc n ≤ 10 * n + digitOf d := by omega
      _ ≤ valueFrom n (d :: ds) := ih _

/-- Digits are gathered up to the end exactly if the number fits. -/
theorem gather_of_le {n : Nat} {ds : List Char} (h : valueFrom n ds ≤ significandLimit) :
    gather n ds = (valueFrom n ds, []) := by
  induction ds generalizing n with
  | nil => rfl
  | cons d ds ih =>
    have hnext : 10 * n + digitOf d ≤ significandLimit := Nat.le_trans (le_valueFrom _ ds) h
    rw [gather, if_pos hnext]
    exact ih h

theorem gather_of_lt {n : Nat} {ds : List Char} (hn : n ≤ significandLimit)
    (h : significandLimit < valueFrom n ds) : (gather n ds).2 ≠ [] := by
  induction ds generalizing n with
  | nil => exact absurd h (Nat.not_lt.2 hn)
  | cons d ds ih =>
    rw [gather]
    split
    next hnext => exact ih hnext h
    next => exact List.cons_ne_nil _ _

/-- A literal of digits alone, and perhaps a minus. -/
theorem number?_of_digits (negative : Bool) (ds : List Char) :
    number? ⟨negative, ds, [], none⟩ =
      if significandLimit < Text.Numeral.digitsValue ds then double? ⟨negative, ds, [], none⟩
      else if negative = false then some (.int (Text.Numeral.digitsValue ds))
      else if 0 < Text.Numeral.digitsValue ds ∧ Text.Numeral.digitsValue ds ≤ 0x8000000000000000 then
        some (.int (-(Text.Numeral.digitsValue ds)))
      else double? ⟨negative, ds, [], none⟩ := by
  have hvalue : valueFrom 0 ds = Text.Numeral.digitsValue ds := rfl
  rw [number?, if_pos ⟨rfl, rfl⟩]
  by_cases hlarge : significandLimit < Text.Numeral.digitsValue ds
  · rw [if_pos hlarge]
    dsimp only
    rw [if_pos (gather_of_lt (Nat.zero_le _) hlarge)]
  · rw [if_neg hlarge]
    simp only [gather_of_le (hvalue ▸ Nat.le_of_not_lt hlarge), hvalue]
    simp

theorem number?_of_isInteger {l : Literal} {i : Int} (h : IsInteger l i) : l.number? = some (.int i) := by
  have hlimit : significandLimit = 2 ^ 64 - 1 := rfl
  cases h with
  | natural hlt =>
    rw [number?_of_digits, if_neg (by omega), if_pos rfl]
  | negative hpos hle =>
    rw [number?_of_digits, if_neg (by omega), if_neg (by decide), if_pos ⟨hpos, hle⟩]

theorem number?_of_not_isInteger {l : Literal} (h : ∀ i, ¬ IsInteger l i) : l.number? = l.double? := by
  obtain ⟨negative, whole, fraction, exponent⟩ := l
  by_cases hform : fraction = [] ∧ exponent = none
  · obtain ⟨rfl, rfl⟩ := hform
    have hlimit : significandLimit = 2 ^ 64 - 1 := rfl
    rw [number?_of_digits]
    split
    next => rfl
    next hsmall =>
      cases negative with
      | false => exact absurd (.natural (by omega)) (h _)
      | true =>
        rw [if_neg (by decide)]
        split
        next hrange => exact absurd (.negative hrange.1 hrange.2) (h _)
        next => rfl
  · rw [number?, if_neg hform]

theorem number?_eq_some_iff {l : Literal} {n : Number} : l.number? = some n ↔ IsNumber l n := by
  constructor
  · intro h
    by_cases hint : ∃ i, IsInteger l i
    · obtain ⟨i, hi⟩ := hint
      rw [number?_of_isInteger hi, Option.some.injEq] at h
      exact h ▸ .integer hi
    · have hnot : ∀ i, ¬ IsInteger l i := fun i hi => hint ⟨i, hi⟩
      exact .double hnot (number?_of_not_isInteger hnot ▸ h)
  · rintro (hi | ⟨hnot, hdouble⟩)
    · exact number?_of_isInteger hi
    · exact number?_of_not_isInteger hnot ▸ hdouble

end Literal

/-- The integers that a number can be: those of 64 bits, with or without sign. -/
def InRange (i : Int) : Prop := -2 ^ 63 ≤ i ∧ i < 2 ^ 64

theorem Grammar.IsNumber.inRange {l : Literal} {i : Int} (h : IsNumber l (.int i)) : InRange i := by
  cases h with
  | integer hi =>
    cases hi with
    | natural hlt => exact ⟨by omega, by omega⟩
    | negative hpos hle => exact ⟨by omega, by omega⟩
  | double _ hdouble =>
    rw [Literal.double?, Option.map_eq_some_iff] at hdouble
    obtain ⟨_, _, hbits⟩ := hdouble
    cases hbits

end AgentDesk.Json
