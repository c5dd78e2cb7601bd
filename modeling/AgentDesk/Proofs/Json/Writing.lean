import AgentDesk.Json.Printer
import AgentDesk.Proofs.Json.Numeral
import Mathlib.Data.Nat.Digits.Defs

/-! # What is written stands for what was to be written

A written text is one of the texts of its value: the one without any space, with the fewest escapes, and with
every key once. Doubles are left out; the shortest digits of one are a matter of their own. -/
namespace AgentDesk.Json

open Grammar

/-! ### Texts in quotes -/

theorem unit?_digits : ∀ n < 0x20,
    Quoted.unit? '0' '0' (Nat.digitChar (n / 16)) (Nat.digitChar (n % 16)) = some n := by
  decide

theorem characters_escape (c : Char) {s cs t : List Char} (h : Characters s cs t) :
    Characters (Quoted.escape c ++ s) (c :: cs) t := by
  rw [Quoted.escape]
  iterate 7
    split
    next heq => subst heq; exact .letter rfl h
  split
  next hcontrol => exact .unit (unit?_digits _ hcontrol) h
  next hquote hslash _ _ _ _ _ hcontrol => exact .plain hquote hslash (Nat.not_lt.1 hcontrol) h

theorem characters_write (cs t : List Char) : Characters (cs.flatMap Quoted.escape ++ '"' :: t) cs t := by
  induction cs with
  | nil => exact .close
  | cons c cs ih =>
    rw [List.flatMap_cons, List.append_assoc]
    exact characters_escape c ih

/-! ### Integers -/

theorem digits_ofNat (n : Nat) (t : List Char) :
    Digits (Text.Numeral.ofNat n ++ t) (Text.Numeral.ofNat n) t :=
  ⟨rfl, Nat.toDigits_ne_nil, fun _ hd => Nat.isDigit_of_mem_toDigits (by omega) (by omega) hd⟩

theorem digitsValue_ofNat (n : Nat) : Text.Numeral.digitsValue (Text.Numeral.ofNat n) = n :=
  Nat.ofDigitChars_ten_toDigits

/-- Only zero is written with a zero in front. -/
theorem eq_zero_of_head? {n : Nat} (h : (Text.Numeral.ofNat n).head? = some '0') : n = 0 := by
  have hdigit : ∀ d < 10, Nat.digitChar d = '0' → d = 0 := by decide
  induction n using Nat.strong_induction_on with
  | _ n ih =>
    by_cases hsmall : n < 10
    · rw [Text.Numeral.ofNat, Nat.toDigits_of_lt_base hsmall, List.head?_cons, Option.some.injEq] at h
      exact hdigit n hsmall h
    · have hsplit : Nat.toDigits 10 (n / 10) ++ Nat.toDigits 10 (n % 10) = Nat.toDigits 10 n := by
        rw [Nat.toDigits_append_toDigits (by omega) (by omega) (by omega), Nat.div_add_mod]
      rw [Text.Numeral.ofNat, ← hsplit, List.head?_append_of_ne_nil _ Nat.toDigits_ne_nil] at h
      have hzero := ih (n / 10) (by omega) h
      omega

theorem whole_ofNat (n : Nat) (t : List Char) : Whole (Text.Numeral.ofNat n ++ t) (Text.Numeral.ofNat n) t := by
  refine ⟨digits_ofNat n t, fun h => ?_⟩
  rw [eq_zero_of_head? h]
  rfl

/-- The literal that an integer is written as. -/
def literalOf (i : Int) : Literal := ⟨decide (i < 0), Text.Numeral.ofNat i.natAbs, [], none⟩

theorem numeral_ofInt (i : Int) (t : List Char) : Numeral (Text.Numeral.ofInt i ++ t) (literalOf i) t := by
  cases i with
  | ofNat n =>
    have hsign : decide (Int.ofNat n < 0) = false := by simp
    rw [literalOf, hsign]
    exact .mk .absent (whole_ofNat n t) .absent .absent
  | negSucc n =>
    have hsign : decide (Int.negSucc n < 0) = true := by simp
    rw [literalOf, hsign]
    exact .mk .minus (whole_ofNat (n + 1) t) .absent .absent

theorem isInteger_literalOf {i : Int} (h : InRange i) : IsInteger (literalOf i) i := by
  obtain ⟨hlow, hhigh⟩ := h
  have hvalue := digitsValue_ofNat i.natAbs
  by_cases hi : i < 0
  · have heq : i = -(Text.Numeral.digitsValue (Text.Numeral.ofNat i.natAbs) : Int) := by omega
    rw [literalOf, decide_eq_true hi]
    conv => rhs; rw [heq]
    exact .negative (by omega) (by omega)
  · have heq : i = (Text.Numeral.digitsValue (Text.Numeral.ofNat i.natAbs) : Int) := by omega
    rw [literalOf, decide_eq_false hi]
    conv => rhs; rw [heq]
    exact .natural (by omega)

/-! ### Arrays and objects -/

section
variable {α : Type} {item : Phrase α} {write : α → List Char}

theorem sequence_commas {close : Char} {as : List α} (hne : as ≠ [])
    (hitem : ∀ a ∈ as, ∀ t, item (write a ++ t) a t) (t : List Char) :
    Sequence item close (commas (as.map write) ++ close :: t) as t := by
  induction as with
  | nil => cases hne rfl
  | cons a as ih =>
    cases as with
    | nil => exact .last (hitem a List.mem_cons_self _) .none
    | cons b as =>
      have hmore := ih (List.cons_ne_nil _ _) fun a ha => hitem a (List.mem_cons_of_mem _ ha)
      rw [List.map_cons, List.map_cons, commas, List.append_assoc]
      exact .more (hitem a List.mem_cons_self _) .none hmore

theorem enclosed_commas {close : Char} {as : List α} (hitem : ∀ a ∈ as, ∀ t, item (write a ++ t) a t)
    (t : List Char) : Enclosed item close (commas (as.map write) ++ close :: t) as t := by
  cases as with
  | nil => exact .empty .none
  | cons a as => exact .filled (sequence_commas (List.cons_ne_nil _ _) hitem t)

/-- A member as it is written. -/
def writeMember (write : α → List Char) (m : String × α) : List Char := writeText m.1 ++ ':' :: write m.2

theorem member_writeMember {m : String × α} (hitem : ∀ t, item (write m.2 ++ t) m.2 t) (t : List Char) :
    Member item (writeMember write m ++ t) m t := by
  have hkey := characters_write m.1.toList (':' :: (write m.2 ++ t))
  have hmember := Member.mk .none hkey .none (hitem t)
  rw [String.ofList_toList] at hmember
  simpa [writeMember, writeText, Quoted.write] using hmember

end

/-! ### Values -/

/-- A value of at most `n` nested arrays and objects as it can come of a text: its integers fit, and the members
of its objects stand sorted. -/
inductive Value.Canonical : Nat → Value → Prop
  | null {n} : Canonical n .null
  | bool {n b} : Canonical n (.bool b)
  | int {n i} : InRange i → Canonical n (.number (.int i))
  | float {n bits} : Canonical n (.number (.float bits))
  | string {n s} : Canonical n (.string s)
  | array {n items} : (∀ v ∈ items, Canonical n v) → Canonical (n + 1) (.array items)
  | object {n members} : SortedByKey members → (∀ m ∈ members, Canonical n m.2) →
      Canonical (n + 1) (.object members)

/-- No number in the value is a double. -/
inductive Value.FloatFree : Value → Prop
  | null : FloatFree .null
  | bool {b} : FloatFree (.bool b)
  | int {i} : FloatFree (.number (.int i))
  | string {s} : FloatFree (.string s)
  | array {items} : (∀ v ∈ items, FloatFree v) → FloatFree (.array items)
  | object {members} : (∀ m ∈ members, FloatFree m.2) → FloatFree (.object members)

theorem writeItems_eq (items : List Value) : writeItems items = items.map Value.write := by
  induction items with
  | nil => rfl
  | cons v vs ih => rw [writeItems, ih, List.map_cons]

theorem writeMembers_eq (members : Members) :
    (writeMembers members).map (fun m => m.1 ++ ':' :: m.2) = members.map (writeMember Value.write) := by
  induction members with
  | nil => rfl
  | cons m ms ih => rw [writeMembers, List.map_cons, ih, List.map_cons]; rfl

theorem spelled_write {n : Nat} {v : Value} (h : v.Canonical n) (hfree : v.FloatFree) (t : List Char) :
    Spelled n (v.write ++ t) v t := by
  induction h generalizing t with
  | null => exact Scalar.null.spelled _ .none
  | @bool n b =>
    cases b with
    | true => exact Scalar.true.spelled n .none
    | false => exact Scalar.false.spelled n .none
  | @int n i hi => exact (Scalar.number (numeral_ofInt i t) (.integer (isInteger_literalOf hi))).spelled n .none
  | float => cases hfree
  | @string n s =>
    have hs := (Scalar.string (characters_write s.toList t)).spelled n .none
    rw [String.ofList_toList] at hs
    simpa [Value.write, writeText, Quoted.write] using hs
  | @array n items _ ih =>
    cases hfree with
    | array hfree =>
      have hitems : Enclosed (Spelled n) ']' (commas (items.map Value.write) ++ ']' :: t) items t :=
        enclosed_commas (fun v hv t => ih v hv (hfree v hv) t) t
      simpa [Value.write, bracketed, writeItems_eq] using (Container.array hitems).spelled .none
  | @object n members hsorted _ ih =>
    cases hfree with
    | object hfree =>
      have hmembers : Enclosed (Member (Spelled n)) '}'
          (commas (members.map (writeMember Value.write)) ++ '}' :: t) members t :=
        enclosed_commas (fun m hm t => member_writeMember (fun t => ih m hm (hfree m hm) t) t) t
      simpa [Value.write, braced, writeMembers_eq] using
        (Container.object hmembers hsorted.keeps).spelled .none

/-- An object of members that are given in any order, as it is written, is the text of an object with them. -/
theorem isObject_renderMembers {n : Nat} {members : Members}
    (hmembers : ∀ m ∈ members, m.2.Canonical n ∧ m.2.FloatFree) :
    IsObject n (renderMembers (members.map fun m => (m.1, m.2.write))).toList members := by
  have henclosed : Enclosed (Member (Spelled n)) '}'
      (commas (members.map (writeMember Value.write)) ++ '}' :: []) members [] :=
    enclosed_commas (fun m hm t =>
      member_writeMember (fun t => spelled_write (hmembers m hm).1 (hmembers m hm).2 t) t) []
  refine ⟨_, [], ?_, henclosed, .none⟩
  rw [renderMembers, String.toList_ofList, braced, List.map_map, List.map_map]
  exact .none

end AgentDesk.Json
