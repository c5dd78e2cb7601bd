import AgentDesk.Json.Reader
import AgentDesk.Proofs.Json.Members

/-! # The texts of JSON values

A phrase relates a text to what its beginning stands for and to the text behind it. The phrases say which texts
there are and what they mean; how a reader finds its way through them is not said here. A text may stand for a
value in many ways: any space between the parts, any escapes, members in any order and any number of times. -/
namespace AgentDesk.Json.Grammar

/-- The text `s` begins with a phrase for `a` and goes on as `t`. -/
abbrev Phrase (α : Type) := List Char → α → List Char → Prop

variable {α : Type}

/-- Behind some space, or none, `s` goes on as `t`. -/
inductive Blank : List Char → List Char → Prop
  | none {s} : Blank s s
  | more {c s t} : isSpace c = true → Blank s t → Blank (c :: s) t

/-! ### Texts in quotes -/

/-- The characters that stand behind an opening quote, up to the closing one. -/
inductive Characters : Phrase (List Char)
  | close {s} : Characters ('"' :: s) [] s
  | plain {c s cs t} : c ≠ '"' → c ≠ '\\' → 0x20 ≤ c.toNat → Characters s cs t →
      Characters (c :: s) (c :: cs) t
  | letter {c k s cs t} : Quoted.short? c = some k → Characters s cs t →
      Characters ('\\' :: c :: s) (k :: cs) t
  | unit {a b c d k s cs t} : Quoted.unit? a b c d = some k.toNat → Characters s cs t →
      Characters ('\\' :: 'u' :: a :: b :: c :: d :: s) (k :: cs) t
  /-- A character above U+FFFF is written as its two surrogates. -/
  | pair {a b c d e f g h high low k s cs t} :
      Quoted.unit? a b c d = some high → Quoted.isHigh high = true →
      Quoted.unit? e f g h = some low → Quoted.isLow low = true →
      k.toNat = 0x10000 + (high - 0xD800) * 0x400 + (low - 0xDC00) → Characters s cs t →
      Characters ('\\' :: 'u' :: a :: b :: c :: d :: '\\' :: 'u' :: e :: f :: g :: h :: s) (k :: cs) t

/-! ### Numbers -/

def Digits : Phrase (List Char) := fun s ds t => s = ds ++ t ∧ ds ≠ [] ∧ ∀ d ∈ ds, d.isDigit = true

inductive Sign : Phrase Bool
  | absent {s} : Sign s false s
  | minus {s} : Sign ('-' :: s) true s

/-- No digit stands behind a zero in front. -/
def Whole : Phrase (List Char) := fun s ds t => Digits s ds t ∧ (ds.head? = some '0' → ds = ['0'])

inductive FractionPart : Phrase (List Char)
  | absent {s} : FractionPart s [] s
  | present {s ds t} : Digits s ds t → FractionPart ('.' :: s) ds t

inductive ExponentSign : Phrase Bool
  | absent {s} : ExponentSign s false s
  | plus {s} : ExponentSign ('+' :: s) false s
  | minus {s} : ExponentSign ('-' :: s) true s

inductive ExponentPart : Phrase (Option (Bool × List Char))
  | absent {s} : ExponentPart s none s
  | present {mark s negative u ds t} : mark = 'e' ∨ mark = 'E' → ExponentSign s negative u → Digits u ds t →
      ExponentPart (mark :: s) (some (negative, ds)) t

inductive Numeral : Phrase Literal
  | mk {s negative s₁ whole s₂ fraction s₃ exponent t} :
      Sign s negative s₁ → Whole s₁ whole s₂ → FractionPart s₂ fraction s₃ → ExponentPart s₃ exponent t →
      Numeral s ⟨negative, whole, fraction, exponent⟩ t

/-- A literal with neither fraction nor exponent is an integer, if it is one of 64 bits, with or without sign.
Minus zero is none. -/
inductive IsInteger : Literal → Int → Prop
  | natural {ds} : Text.Numeral.digitsValue ds < 2 ^ 64 →
      IsInteger ⟨false, ds, [], none⟩ (Text.Numeral.digitsValue ds)
  | negative {ds} : 0 < Text.Numeral.digitsValue ds → Text.Numeral.digitsValue ds ≤ 2 ^ 63 →
      IsInteger ⟨true, ds, [], none⟩ (-(Text.Numeral.digitsValue ds))

/-- What is no integer is a double, or out of range. -/
inductive IsNumber : Literal → Number → Prop
  | integer {l i} : IsInteger l i → IsNumber l (.int i)
  | double {l n} : (∀ i, ¬ IsInteger l i) → l.double? = some n → IsNumber l n

/-! ### Values -/

/-- One item or more with commas between them, up to the closing bracket. -/
inductive Sequence (item : Phrase α) (close : Char) : Phrase (List α)
  | last {s a t u} : item s a t → Blank t (close :: u) → Sequence item close s [a] u
  | more {s a t u as v} : item s a t → Blank t (',' :: u) → Sequence item close u as v →
      Sequence item close s (a :: as) v

/-- What stands behind an opening bracket, up to the closing one. -/
inductive Enclosed (item : Phrase α) (close : Char) : Phrase (List α)
  | empty {s t} : Blank s (close :: t) → Enclosed item close s [] t
  | filled {s as t} : Sequence item close s as t → Enclosed item close s as t

/-- A key, its colon and what stands for the value. -/
inductive Member (value : Phrase α) : Phrase (String × α)
  | mk {s u key v w a t} : Blank s ('"' :: u) → Characters u key v → Blank v (':' :: w) → value w a t →
      Member value s (String.ofList key, a) t

inductive Scalar : Phrase Value
  | null {t} : Scalar ('n' :: 'u' :: 'l' :: 'l' :: t) .null t
  | true {t} : Scalar ('t' :: 'r' :: 'u' :: 'e' :: t) (.bool true) t
  | false {t} : Scalar ('f' :: 'a' :: 'l' :: 's' :: 'e' :: t) (.bool false) t
  | number {s l n t} : Numeral s l t → IsNumber l n → Scalar s (.number n) t
  | string {s cs t} : Characters s cs t → Scalar ('"' :: s) (.string (String.ofList cs)) t

inductive Container (inner : Phrase Value) : Phrase Value
  | array {s items t} : Enclosed inner ']' s items t → Container inner ('[' :: s) (.array items) t
  | object {s written kept t} : Enclosed (Member inner) '}' s written t → Keeps written kept →
      Container inner ('{' :: s) (.object kept) t

/-- A value with at most `n` arrays and objects inside one another, behind some space. -/
def Spelled : Nat → Phrase Value
  | 0 => fun s v t => ∃ u, Blank s u ∧ Scalar u v t
  | n + 1 => fun s v t => ∃ u, Blank s u ∧ (Scalar u v t ∨ Container (Spelled n) u v t)

/-- A whole text is an object with the members `written`, whose values nest at most `n` deep. -/
def IsObject (n : Nat) (s : List Char) (written : Members) : Prop :=
  ∃ u t, Blank s ('{' :: u) ∧ Enclosed (Member (Spelled n)) '}' u written t ∧ Blank t []

/-- A whole text is an array with these items, which nest at most `n` deep. -/
def IsArray (n : Nat) (s : List Char) (items : List Value) : Prop :=
  ∃ u t, Blank s ('[' :: u) ∧ Enclosed (Spelled n) ']' u items t ∧ Blank t []

/-! ### A phrase takes up characters -/

/-- Every text of the phrase is longer than what is behind it. -/
def Shrinks (item : Phrase α) : Prop := ∀ s a t, item s a t → t.length < s.length

theorem Blank.length_le {s t : List Char} (h : Blank s t) : t.length ≤ s.length := by
  induction h with
  | none => exact Nat.le_refl _
  | more _ _ ih => exact Nat.le_succ_of_le ih

theorem Blank.length_lt {s t : List Char} {c : Char} (h : Blank s (c :: t)) : t.length < s.length :=
  Nat.lt_of_succ_le h.length_le

theorem shrinks_characters : Shrinks Characters := by
  intro s cs t h
  induction h <;> simp only [List.length_cons] at * <;> omega

theorem shrinks_digits : Shrinks Digits := by
  rintro s ds t ⟨rfl, hne, -⟩
  have hpos := List.length_pos_of_ne_nil hne
  rw [List.length_append]
  omega

theorem Sign.length_le {s t : List Char} {negative : Bool} (h : Sign s negative t) : t.length ≤ s.length := by
  cases h with
  | absent => exact Nat.le_refl _
  | minus => exact Nat.le_succ _

theorem FractionPart.length_le {s ds t : List Char} (h : FractionPart s ds t) : t.length ≤ s.length := by
  cases h with
  | absent => exact Nat.le_refl _
  | present hds => exact Nat.le_succ_of_le (shrinks_digits _ _ _ hds).le

theorem ExponentPart.length_le {s t : List Char} {e : Option (Bool × List Char)} (h : ExponentPart s e t) :
    t.length ≤ s.length := by
  cases h with
  | absent => exact Nat.le_refl _
  | present _ hsign hds =>
    have hds := shrinks_digits _ _ _ hds
    cases hsign <;> simp only [List.length_cons] at * <;> omega

theorem shrinks_numeral : Shrinks Numeral := by
  rintro s l t ⟨hsign, hwhole, hfraction, hexponent⟩
  calc t.length ≤ _ := hexponent.length_le
    _ ≤ _ := hfraction.length_le
    _ < _ := shrinks_digits _ _ _ hwhole.1
    _ ≤ s.length := hsign.length_le

section
variable {item : Phrase α} {close : Char}

theorem Sequence.exists_first {s : List Char} {as : List α} {t : List Char} (h : Sequence item close s as t) :
    ∃ a rest, item s a rest := by
  cases h with
  | last ha _ => exact ⟨_, _, ha⟩
  | more ha _ _ => exact ⟨_, _, ha⟩

theorem shrinks_sequence (hitem : Shrinks item) : Shrinks (Sequence item close) := by
  intro s as t h
  induction h with
  | last ha hclose => exact Nat.lt_trans hclose.length_lt (hitem _ _ _ ha)
  | more ha hcomma _ ih => exact Nat.lt_trans ih (Nat.lt_trans hcomma.length_lt (hitem _ _ _ ha))

theorem shrinks_enclosed (hitem : Shrinks item) : Shrinks (Enclosed item close) := by
  intro s as t h
  cases h with
  | empty hclose => exact hclose.length_lt
  | filled h => exact shrinks_sequence hitem _ _ _ h

theorem shrinks_member (hvalue : Shrinks item) : Shrinks (Member item) := by
  rintro s m t ⟨hquote, hkey, hcolon, ha⟩
  have hquote := hquote.length_lt
  have hkey := shrinks_characters _ _ _ hkey
  have hcolon := hcolon.length_lt
  have ha := hvalue _ _ _ ha
  omega

end

theorem shrinks_scalar : Shrinks Scalar := by
  intro s v t h
  cases h with
  | number hl _ => exact shrinks_numeral _ _ _ hl
  | string hcs => exact Nat.lt_succ_of_lt (shrinks_characters _ _ _ hcs)
  | _ => simp only [List.length_cons]; omega

theorem shrinks_container {inner : Phrase Value} (hinner : Shrinks inner) : Shrinks (Container inner) := by
  intro s v t h
  cases h with
  | array h => exact Nat.lt_succ_of_lt (shrinks_enclosed hinner _ _ _ h)
  | object h _ => exact Nat.lt_succ_of_lt (shrinks_enclosed (shrinks_member hinner) _ _ _ h)

theorem shrinks_spelled (n : Nat) : Shrinks (Spelled n) := by
  induction n with
  | zero =>
    rintro s v t ⟨u, hu, hv⟩
    exact Nat.lt_of_lt_of_le (shrinks_scalar _ _ _ hv) hu.length_le
  | succ n ih =>
    rintro s v t ⟨u, hu, hv | hv⟩
    · exact Nat.lt_of_lt_of_le (shrinks_scalar _ _ _ hv) hu.length_le
    · exact Nat.lt_of_lt_of_le (shrinks_container ih _ _ _ hv) hu.length_le

/-! ### How deep a text can nest

Each level of nesting takes up a character, so no value nests deeper than its text is long. -/

section
variable {item item' : Phrase α} {close : Char} {bound : Nat}

theorem Sequence.within (hitem : Shrinks item)
    (hto : ∀ s a t, s.length ≤ bound → item s a t → item' s a t) {s : List Char} {as : List α} {t : List Char}
    (h : Sequence item close s as t) (hs : s.length ≤ bound) : Sequence item' close s as t := by
  induction h with
  | last ha hclose => exact .last (hto _ _ _ hs ha) hclose
  | more ha hcomma _ ih =>
    have hlt := Nat.lt_trans hcomma.length_lt (hitem _ _ _ ha)
    exact .more (hto _ _ _ hs ha) hcomma (ih (by omega))

theorem Enclosed.within (hitem : Shrinks item)
    (hto : ∀ s a t, s.length ≤ bound → item s a t → item' s a t) {s : List Char} {as : List α} {t : List Char}
    (h : Enclosed item close s as t) (hs : s.length ≤ bound) : Enclosed item' close s as t := by
  cases h with
  | empty hclose => exact .empty hclose
  | filled h => exact .filled (h.within hitem hto hs)

theorem Member.within (hto : ∀ s a t, s.length ≤ bound → item s a t → item' s a t) {s : List Char}
    {m : String × α} {t : List Char} (hs : s.length ≤ bound) (h : Member item s m t) : Member item' s m t := by
  obtain ⟨hquote, hkey, hcolon, ha⟩ := h
  refine ⟨hquote, hkey, hcolon, hto _ _ _ ?_ ha⟩
  have hquote := hquote.length_lt
  have hkey := shrinks_characters _ _ _ hkey
  have hcolon := hcolon.length_lt
  omega

end

theorem Scalar.spelled {s u : List Char} {v : Value} {t : List Char} (n : Nat) (hu : Blank s u)
    (h : Scalar u v t) : Spelled n s v t := by
  cases n with
  | zero => exact ⟨u, hu, h⟩
  | succ n => exact ⟨u, hu, .inl h⟩

theorem Container.spelled {n : Nat} {s u : List Char} {v : Value} {t : List Char} (hu : Blank s u)
    (h : Container (Spelled n) u v t) : Spelled (n + 1) s v t := ⟨u, hu, .inr h⟩

theorem Spelled.exists_start {n : Nat} {s : List Char} {v : Value} {t : List Char} (h : Spelled n s v t) :
    ∃ u, Blank s u ∧ (Scalar u v t ∨ ∃ m, n = m + 1 ∧ Container (Spelled m) u v t) := by
  cases n with
  | zero =>
    obtain ⟨u, hu, hv⟩ := h
    exact ⟨u, hu, .inl hv⟩
  | succ n =>
    obtain ⟨u, hu, hv | hv⟩ := h
    · exact ⟨u, hu, .inl hv⟩
    · exact ⟨u, hu, .inr ⟨n, rfl, hv⟩⟩

/-- More room does no harm, and as much room as the text has characters is always enough. -/
theorem Spelled.with_room {n m : Nat} {s : List Char} {v : Value} {t : List Char} (h : Spelled n s v t)
    (hm : n ≤ m ∨ s.length ≤ m) : Spelled m s v t := by
  induction n generalizing m s v t with
  | zero =>
    obtain ⟨u, hu, hv⟩ := h
    exact hv.spelled m hu
  | succ n ih =>
    obtain ⟨u, hu, hv | hv⟩ := h
    · exact hv.spelled m hu
    · have hshort := hu.length_le
      have hlong := shrinks_container (shrinks_spelled n) _ _ _ hv
      cases m with
      | zero => omega
      | succ m =>
        have hto (w : List Char) (v : Value) (t : List Char) (hw : w.length ≤ u.length - 1)
            (hv : Spelled n w v t) : Spelled m w v t := ih hv (by omega)
        refine Container.spelled hu ?_
        cases hv with
        | array hitems => exact .array (hitems.within (shrinks_spelled n) hto (Nat.le_refl _))
        | object hmembers hkeeps =>
          have hmember (w : List Char) (a : String × Value) (t : List Char) (hw : w.length ≤ _)
              (ha : Member (Spelled n) w a t) : Member (Spelled m) w a t := ha.within hto hw
          exact .object (hmembers.within (shrinks_member (shrinks_spelled n)) hmember (Nat.le_refl _)) hkeeps

theorem IsObject.with_room {n m : Nat} {s : List Char} {written : Members} (h : IsObject n s written)
    (hm : n ≤ m) : IsObject m s written := by
  obtain ⟨u, t, hu, hmembers, ht⟩ := h
  have hto (s : List Char) (v : Value) (t : List Char) (_ : s.length ≤ u.length) (hv : Spelled n s v t) :
      Spelled m s v t := hv.with_room (.inl hm)
  have hmember (s : List Char) (a : String × Value) (t : List Char) (hs : s.length ≤ u.length)
      (ha : Member (Spelled n) s a t) : Member (Spelled m) s a t := ha.within hto hs
  exact ⟨u, t, hu, hmembers.within (shrinks_member (shrinks_spelled n)) hmember (Nat.le_refl _), ht⟩

theorem IsArray.with_room {n m : Nat} {s : List Char} {items : List Value} (h : IsArray n s items)
    (hm : n ≤ m) : IsArray m s items := by
  obtain ⟨u, t, hu, hitems, ht⟩ := h
  have hto (s : List Char) (v : Value) (t : List Char) (_ : s.length ≤ u.length) (hv : Spelled n s v t) :
      Spelled m s v t := hv.with_room (.inl hm)
  exact ⟨u, t, hu, hitems.within (shrinks_spelled n) hto (Nat.le_refl _), ht⟩

end AgentDesk.Json.Grammar
