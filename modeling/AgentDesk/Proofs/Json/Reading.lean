import AgentDesk.Proofs.Json.Numeral

/-! # Every spelled value is read

A value is read from any of its texts, with the text behind it left over. The strict leaves give the value; the
lenient ones pass over the same text, whatever they make of it. One induction serves both: what is read is what
the text stands for if the leaves are `exact`. -/
namespace AgentDesk.Json

open Grammar

/-! ### Space -/

theorem isSpace_iff (c : Char) : isSpace c = true ↔ c = ' ' ∨ c = '\n' ∨ c = '\t' ∨ c = '\r' := by
  simp [isSpace, or_assoc]

theorem Grammar.Blank.skips {s t : List Char} (h : Blank s t) (ht : ∀ c ∈ t.head?, isSpace c = false) :
    skipSpace s = t := by
  induction h with
  | @none t =>
    cases t with
    | nil => rfl
    | cons c u => rw [skipSpace, List.dropWhile_cons, ht c rfl]; rfl
  | more hc _ ih =>
    rw [skipSpace, List.dropWhile_cons, if_pos hc]
    exact ih ht

theorem Grammar.Blank.skips_to {s u : List Char} {c : Char} (h : Blank s (c :: u)) (hc : isSpace c = false) :
    skipSpace s = c :: u :=
  h.skips fun _ hd => Option.some.inj hd ▸ hc

theorem Grammar.Blank.ends {s t : List Char} (h : Blank s t) (ht : Ends t) : Ends s := by
  cases h with
  | none => exact ht
  | more hc _ =>
    intro d hd
    cases hd
    rcases (isSpace_iff _).1 hc with rfl | rfl | rfl | rfl <;> decide

theorem Grammar.Blank.ends_to {s u : List Char} {c : Char} (h : Blank s (c :: u))
    (hc : c.isDigit = false ∧ c ≠ '.' ∧ c ≠ 'e' ∧ c ≠ 'E') : Ends s :=
  h.ends fun _ hd => Option.some.inj hd ▸ hc

/-! ### Texts in quotes -/

theorem not_isLow_toNat (k : Char) : Quoted.isLow k.toNat = false := by
  have hvalid := k.valid
  simp only [UInt32.isValidChar, Nat.isValidChar] at hvalid
  simp only [Quoted.isLow, Char.toNat, Bool.and_eq_false_iff, decide_eq_false_iff_not]
  omega

theorem not_isHigh_toNat (k : Char) : Quoted.isHigh k.toNat = false := by
  have hvalid := k.valid
  simp only [UInt32.isValidChar, Nat.isValidChar] at hvalid
  simp only [Quoted.isHigh, Char.toNat, Bool.and_eq_false_iff, decide_eq_false_iff_not]
  omega

theorem not_isLow_of_isHigh {n : Nat} (h : Quoted.isHigh n = true) : Quoted.isLow n = false := by
  simp only [Quoted.isHigh, Bool.and_eq_true, decide_eq_true_eq] at h
  simp only [Quoted.isLow, Bool.and_eq_false_iff, decide_eq_false_iff_not]
  omega

/-- The four digits stand for no surrogate, so what follows them is read by itself. -/
theorem read?_unit {a b c d k : Char} (h : Quoted.unit? a b c d = some k.toNat) (s : List Char) :
    Quoted.read? ('\\' :: 'u' :: a :: b :: c :: d :: s) = (Quoted.read? s).map fun t => (k :: t.1, t.2) := by
  rw [Quoted.read?.eq_def]
  split
  next heq => cases heq
  next heq => cases heq
  next heq =>
    cases heq
    simp [h, not_isLow_toNat, not_isHigh_toNat, Char.ofNat_toNat]
  next heq =>
    cases heq
    simp [h, not_isLow_toNat, not_isHigh_toNat, Char.ofNat_toNat]
  next hshort heq =>
    cases heq
    cases hshort _ _ _ _ _ rfl rfl
  next hunit _ heq =>
    cases heq
    cases hunit _ _ _ _ _ rfl rfl

theorem read?_letter {c k : Char} (h : Quoted.short? c = some k) (s : List Char) :
    Quoted.read? ('\\' :: c :: s) = (Quoted.read? s).map fun t => (k :: t.1, t.2) := by
  have hc : c ≠ 'u' := by
    rintro rfl
    cases h
  rw [Quoted.read?.eq_def]
  split
  next heq => cases heq
  next heq => cases heq
  next heq => cases heq; cases hc rfl
  next heq => cases heq; cases hc rfl
  next heq =>
    cases heq
    simp [h]
  next hletter heq =>
    cases heq
    cases hletter _ _ rfl rfl

theorem read?_plain {c : Char} (hquote : c ≠ '"') (hslash : c ≠ '\\') (hcontrol : 0x20 ≤ c.toNat)
    (s : List Char) : Quoted.read? (c :: s) = (Quoted.read? s).map fun t => (c :: t.1, t.2) := by
  rw [Quoted.read?.eq_def]
  split
  next heq => cases heq
  next heq => cases heq; cases hslash rfl
  next heq => cases heq; cases hslash rfl
  next heq => cases heq; cases hslash rfl
  next heq => cases heq; cases hslash rfl
  next heq =>
    cases heq
    rw [if_neg hquote, if_neg (Nat.not_lt.2 hcontrol)]

theorem read?_of_characters {s cs t : List Char} (h : Characters s cs t) : Quoted.read? s = some (cs, t) := by
  induction h with
  | close => simp [Quoted.read?]
  | plain hquote hslash hcontrol _ ih => rw [read?_plain hquote hslash hcontrol, ih]; rfl
  | letter hc _ ih => rw [read?_letter hc, ih]; rfl
  | unit hunit _ ih => rw [read?_unit hunit, ih]; rfl
  | pair hhigh hishigh hlow hislow hk _ ih =>
    rw [Quoted.read?]
    simp [hhigh, not_isLow_of_isHigh hishigh, hishigh, hlow, hislow, ih, Quoted.joined, ← hk,
      Char.ofNat_toNat]

theorem skip?_letter {c k : Char} (h : Quoted.short? c = some k) (s : List Char) :
    Quoted.skip? ('\\' :: c :: s) = Quoted.skip? s := by
  have hc : c ≠ 'u' := by
    rintro rfl
    cases h
  rw [Quoted.skip?.eq_def]
  split
  next heq => cases heq
  next heq => cases heq
  next heq => cases heq; cases hc rfl
  next heq =>
    cases heq
    simp [h]
  next hletter heq =>
    cases heq
    cases hletter _ _ rfl rfl

theorem skip?_plain {c : Char} (hquote : c ≠ '"') (hslash : c ≠ '\\') (hcontrol : 0x20 ≤ c.toNat)
    (s : List Char) : Quoted.skip? (c :: s) = Quoted.skip? s := by
  rw [Quoted.skip?.eq_def]
  split
  next heq => cases heq
  next heq => cases heq; cases hslash rfl
  next heq => cases heq; cases hslash rfl
  next heq => cases heq; cases hslash rfl
  next heq =>
    cases heq
    rw [if_neg hquote, if_neg (Nat.not_lt.2 hcontrol)]

theorem skip?_of_characters {s cs t : List Char} (h : Characters s cs t) : Quoted.skip? s = some t := by
  induction h with
  | close => simp [Quoted.skip?]
  | plain hquote hslash hcontrol _ ih => rw [skip?_plain hquote hslash hcontrol, ih]
  | letter hc _ ih => rw [skip?_letter hc, ih]
  | unit hunit _ ih =>
    rw [Quoted.skip?]
    simp [hunit, ih]
  | pair hhigh _ hlow _ _ _ ih =>
    rw [Quoted.skip?, hhigh]
    simp only [bind, Option.bind]
    rw [Quoted.skip?]
    simp [hlow, ih]

/-! ### Leaves -/

/-- The leaves read every text and every number, and give what it stands for if they are `exact`. -/
structure Leaves.Take (leaves : Leaves) (exact : Prop) : Prop where
  text : ∀ s cs t, Characters s cs t →
    ∃ x, leaves.text s = some (x, t) ∧ (exact → x = String.ofList cs)
  number : ∀ s l n t, Numeral s l t → IsNumber l n → Ends t →
    ∃ x, leaves.number s = some (x, t) ∧ (exact → x = n)

theorem strict_text {s cs t : List Char} (h : Characters s cs t) :
    strict.text s = some (String.ofList cs, t) := by
  simp only [strict, read?_of_characters h, Option.map_some]

theorem strict_take : strict.Take True := by
  refine ⟨fun s cs t h => ⟨_, strict_text h, fun _ => rfl⟩, fun s l n t hl hn ht => ⟨n, ?_, fun _ => rfl⟩⟩
  simp only [strict, Literal.read?_of_numeral hl ht, Option.bind_some, Literal.number?_eq_some_iff.2 hn,
    Option.map_some]

theorem lenient_take : lenient.Take False := by
  refine ⟨fun s cs t h => ⟨"", ?_, False.elim⟩, fun s l n t hl hn ht => ⟨.int 0, ?_, False.elim⟩⟩
  · simp only [lenient, skip?_of_characters h, Option.map_some]
  · simp only [lenient, Literal.read?_of_numeral hl ht, Option.map_some]

/-! ### Arrays and objects -/

/-- The reader takes up every text of the phrase, and gives what it stands for if it is `exact`. -/
def Takes {α : Type} (exact : Prop) (read : Reader α) (phrase : Phrase α) : Prop :=
  ∀ s a t, phrase s a t → Ends t → ∃ b, read s = some (b, t) ∧ (exact → b = a)

/-- What a text of the phrase starts with, behind any space, is neither space nor `close`. -/
def Opens {α : Type} (phrase : Phrase α) (close : Char) : Prop :=
  ∀ s a t, phrase s a t → ∃ c u, Blank s (c :: u) ∧ isSpace c = false ∧ c ≠ close

section
variable {α : Type} {exact : Prop} {item : Phrase α} {read : Reader α}

theorem takes_readItems (hread : Takes exact read item) (hitem : Shrinks item) {s : List Char} {as : List α}
    {t : List Char} (h : Sequence item ']' s as t) {fuel : Nat} (hfuel : s.length < fuel) :
    ∃ bs, readItems read fuel s = some (bs, t) ∧ (exact → bs = as) := by
  induction h generalizing fuel with
  | @last _ _ _ u ha hclose =>
    cases fuel with
    | zero => cases hfuel
    | succ fuel =>
      obtain ⟨b, hb, hexact⟩ := hread _ _ _ ha (hclose.ends_to (by decide))
      refine ⟨[b], ?_, fun h => by rw [hexact h]⟩
      simp only [readItems, hb, hclose.skips_to (by decide), bind, Option.bind, pure]
  | @more _ _ _ u _ _ ha hcomma _ ih =>
    cases fuel with
    | zero => cases hfuel
    | succ fuel =>
      obtain ⟨b, hb, hexact⟩ := hread _ _ _ ha (hcomma.ends_to (by decide))
      have hlt := Nat.lt_trans hcomma.length_lt (hitem _ _ _ ha)
      obtain ⟨bs, hbs, hexacts⟩ := ih (Nat.lt_of_lt_of_le hlt (Nat.le_of_lt_succ hfuel))
      refine ⟨b :: bs, ?_, fun h => by rw [hexact h, hexacts h]⟩
      simp only [readItems, hb, hcomma.skips_to (by decide), hbs, bind, Option.bind, pure]

theorem opens_sequence {close : Char} (hitem : Opens item close) : Opens (Sequence item close) close := by
  intro s as t h
  cases h with
  | last ha _ => exact hitem _ _ _ ha
  | more ha _ _ => exact hitem _ _ _ ha

theorem takes_readArray (hread : Takes exact read item) (hitem : Shrinks item) (hopens : Opens item ']') :
    Takes exact (readArray read) (Enclosed item ']') := by
  intro s as t h _
  cases h with
  | empty hclose => exact ⟨[], by simp only [readArray, hclose.skips_to (by decide)], fun _ => rfl⟩
  | filled h =>
    obtain ⟨c, u, hc, hspace, hne⟩ := opens_sequence hopens _ _ _ h
    obtain ⟨bs, hbs, hexact⟩ := takes_readItems hread hitem h (Nat.lt_succ_self _)
    refine ⟨bs, ?_, hexact⟩
    rw [readArray, hc.skips_to hspace]
    split
    next heq => cases heq; cases hne rfl
    next => exact hbs

theorem takes_readMember {leaves : Leaves} (hleaves : leaves.Take exact) (hread : Takes exact read item) :
    Takes exact (readMember leaves.text read) (Member item) := by
  rintro s _ t ⟨hquote, hkey, hcolon, ha⟩ ht
  obtain ⟨key, hkey, hexactKey⟩ := hleaves.text _ _ _ hkey
  obtain ⟨b, hb, hexact⟩ := hread _ _ _ ha ht
  refine ⟨(key, b), ?_, fun h => by rw [hexactKey h, hexact h]⟩
  simp only [readMember, hquote.skips_to (by decide), hkey, hcolon.skips_to (by decide), hb, bind,
    Option.bind, pure]

theorem takes_readMembers {leaves : Leaves} (hleaves : leaves.Take exact) (hread : Takes exact read item)
    (hitem : Shrinks item) {s : List Char} {ms : List (String × α)} {t : List Char}
    (h : Sequence (Member item) '}' s ms t) {fuel : Nat} (hfuel : s.length < fuel) :
    ∃ bs, readMembers leaves.text read fuel s = some (bs, t) ∧ (exact → bs = ms) := by
  induction h generalizing fuel with
  | @last _ _ _ u hm hclose =>
    cases fuel with
    | zero => cases hfuel
    | succ fuel =>
      obtain ⟨b, hb, hexact⟩ := takes_readMember hleaves hread _ _ _ hm (hclose.ends_to (by decide))
      refine ⟨[b], ?_, fun h => by rw [hexact h]⟩
      simp only [readMembers, hb, hclose.skips_to (by decide), bind, Option.bind, pure]
  | @more _ _ _ u _ _ hm hcomma _ ih =>
    cases fuel with
    | zero => cases hfuel
    | succ fuel =>
      obtain ⟨b, hb, hexact⟩ := takes_readMember hleaves hread _ _ _ hm (hcomma.ends_to (by decide))
      have hlt := Nat.lt_trans hcomma.length_lt (shrinks_member hitem _ _ _ hm)
      obtain ⟨bs, hbs, hexacts⟩ := ih (Nat.lt_of_lt_of_le hlt (Nat.le_of_lt_succ hfuel))
      refine ⟨b :: bs, ?_, fun h => by rw [hexact h, hexacts h]⟩
      simp only [readMembers, hb, hcomma.skips_to (by decide), hbs, bind, Option.bind, pure]

theorem opens_member : Opens (Member item) '}' := by
  rintro s _ t ⟨hquote, -, -, -⟩
  exact ⟨'"', _, hquote, by decide, by decide⟩

theorem takes_readObject {leaves : Leaves} (hleaves : leaves.Take exact) (hread : Takes exact read item)
    (hitem : Shrinks item) : Takes exact (readObject leaves.text read) (Enclosed (Member item) '}') := by
  intro s ms t h _
  cases h with
  | empty hclose => exact ⟨[], by simp only [readObject, hclose.skips_to (by decide)], fun _ => rfl⟩
  | filled h =>
    obtain ⟨c, u, hc, hspace, hne⟩ := opens_sequence opens_member _ _ _ h
    obtain ⟨bs, hbs, hexact⟩ := takes_readMembers hleaves hread hitem h (Nat.lt_succ_self _)
    refine ⟨bs, ?_, hexact⟩
    rw [readObject, hc.skips_to hspace]
    split
    next heq => cases heq; cases hne rfl
    next => exact hbs

end

/-! ### Values -/

section
variable {exact : Prop} {leaves : Leaves}

theorem isSpace_of_numeral {c : Char} (hc : c = '-' ∨ c.isDigit = true) : isSpace c = false := by
  rcases hc with rfl | hc
  · decide
  · rw [Bool.eq_false_iff]
    intro hspace
    rcases (isSpace_iff c).1 hspace with rfl | rfl | rfl | rfl <;> cases hc

theorem readValueWith_number (inner : Option (Reader Value)) {s u : List Char} {c : Char}
    (hs : skipSpace s = c :: u) (hc : c = '-' ∨ c.isDigit = true) :
    readValueWith leaves inner s = (leaves.number (c :: u)).map fun t => (.number t.1, t.2) := by
  rw [readValueWith, hs]
  split
  case h_7 heq => cases heq; exact if_pos hc
  case h_8 heq => cases heq
  all_goals
    next heq =>
      cases heq
      cases hc <;> contradiction

theorem takes_scalar (hleaves : leaves.Take exact) (inner : Option (Reader Value)) {s u : List Char}
    {v : Value} {t : List Char} (hu : Blank s u) (h : Scalar u v t) (ht : Ends t) :
    ∃ w, readValueWith leaves inner s = some (w, t) ∧ (exact → w = v) := by
  cases h with
  | null => exact ⟨_, by simp [readValueWith, hu.skips_to, isSpace, expect], fun _ => rfl⟩
  | true => exact ⟨_, by simp [readValueWith, hu.skips_to, isSpace, expect], fun _ => rfl⟩
  | false => exact ⟨_, by simp [readValueWith, hu.skips_to, isSpace, expect], fun _ => rfl⟩
  | string hcs =>
    obtain ⟨x, hx, hexact⟩ := hleaves.text _ _ _ hcs
    refine ⟨.string x, ?_, fun h => by rw [hexact h]⟩
    simp only [readValueWith, hu.skips_to (by decide), hx, Option.map_some]
  | number hl hn =>
    obtain ⟨x, hx, hexact⟩ := hleaves.number _ _ _ _ hl hn ht
    obtain ⟨c, w, rfl, hc⟩ := Literal.head_numeral hl
    refine ⟨.number x, ?_, fun h => by rw [hexact h]⟩
    rw [readValueWith_number inner (hu.skips_to (isSpace_of_numeral hc)) hc, hx]
    rfl

theorem takes_container (hleaves : leaves.Take exact) {phrase : Phrase Value} {read : Reader Value}
    (hread : Takes exact read phrase) (hphrase : Shrinks phrase) (hopens : Opens phrase ']')
    {s u : List Char} {v : Value} {t : List Char} (hu : Blank s u) (h : Container phrase u v t) (ht : Ends t) :
    ∃ w, readValueWith leaves (some read) s = some (w, t) ∧ (exact → w = v) := by
  cases h with
  | array hitems =>
    obtain ⟨bs, hbs, hexact⟩ := takes_readArray hread hphrase hopens _ _ _ hitems ht
    refine ⟨.array bs, ?_, fun h => by rw [hexact h]⟩
    simp only [readValueWith, hu.skips_to (by decide), hbs, Option.bind_some, Option.map_some]
  | object hmembers hkeeps =>
    obtain ⟨bs, hbs, hexact⟩ := takes_readObject hleaves hread hphrase _ _ _ hmembers ht
    refine ⟨.ofMembers bs, ?_, fun h => by rw [hexact h, hkeeps.ofMembers]⟩
    simp only [readValueWith, hu.skips_to (by decide), hbs, Option.bind_some, Option.map_some]

/-- What a value starts with. -/
theorem opens_scalar {u : List Char} {v : Value} {t : List Char} (h : Scalar u v t) :
    ∃ c w, u = c :: w ∧ isSpace c = false ∧ c ≠ ']' := by
  cases h with
  | number hl _ =>
    obtain ⟨c, w, rfl, hc⟩ := Literal.head_numeral hl
    refine ⟨c, w, rfl, isSpace_of_numeral hc, ?_⟩
    rintro rfl
    cases hc <;> contradiction
  | _ => exact ⟨_, _, rfl, by decide, by decide⟩

theorem opens_spelled (n : Nat) : Opens (Spelled n) ']' := by
  intro s v t h
  obtain ⟨u, hu, hv | ⟨m, rfl, hv⟩⟩ := h.exists_start
  · obtain ⟨c, w, rfl, hc⟩ := opens_scalar hv
    exact ⟨c, w, hu, hc⟩
  · cases hv <;> exact ⟨_, _, hu, by decide, by decide⟩

theorem takes_readNested (hleaves : leaves.Take exact) (n : Nat) :
    Takes exact (readNested leaves n) (Spelled n) := by
  induction n with
  | zero =>
    rintro s v t ⟨u, hu, h⟩ ht
    exact takes_scalar hleaves none hu h ht
  | succ n ih =>
    rintro s v t ⟨u, hu, h | h⟩ ht
    · exact takes_scalar hleaves _ hu h ht
    · exact takes_container hleaves ih (shrinks_spelled n) (opens_spelled n) hu h ht

end

/-- A text is read as the value that it stands for. -/
theorem readValue_of_spelled {n : Nat} {s : List Char} {v : Value} {t : List Char} (h : Spelled n s v t)
    (ht : Ends t) : readValue n s = some (v, t) := by
  obtain ⟨w, hw, hexact⟩ := takes_readNested strict_take n s v t h ht
  rw [readValue, hw, hexact trivial]

/-- A text that stands for a value is passed over, however deep it nests. -/
theorem skipValue_of_spelled {n : Nat} {s : List Char} {v : Value} {t : List Char} (h : Spelled n s v t)
    (ht : Ends t) : skipValue s = some t := by
  obtain ⟨w, hw, -⟩ := takes_readNested lenient_take s.length s v t (h.with_room (.inr (Nat.le_refl _))) ht
  rw [skipValue, hw]
  rfl

end AgentDesk.Json
