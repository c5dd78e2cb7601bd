import AgentDesk.Json.Record
import AgentDesk.Proofs.Json.Reading

/-! # Records are filled from the members of their texts

Decoding runs over a text from left to right, and over the fields of a record as their keys come by. Seen from
the value that the text stands for, it is a fold over the members, or over the items, of that value: the text,
its space and its escapes no longer matter. Faults are not told apart here. -/
namespace AgentDesk.Json

open Grammar

variable {σ : Type}

/-! ### Results with faults -/

theorem toOption_bind {ε α β : Type} (x : Except ε α) (f : α → Except ε β) :
    (x >>= f).toOption = x.toOption.bind fun a => (f a).toOption := by
  cases x <;> rfl

theorem toOption_map {ε α β : Type} (f : α → β) (x : Except ε α) : (x.map f).toOption = x.toOption.map f := by
  cases x <;> rfl

theorem toOption_eq_some_iff {ε α : Type} (x : Except ε α) (a : α) : x.toOption = some a ↔ x = .ok a := by
  cases x <;> simp [Except.toOption]

theorem bind_eq_ok {ε α β : Type} {x : Except ε α} {f : α → Except ε β} {b : β} :
    x >>= f = .ok b ↔ ∃ a, x = .ok a ∧ f a = .ok b := by
  cases x with
  | error e => exact ⟨nofun, fun ⟨_, h, _⟩ => nomatch h⟩
  | ok a => exact ⟨fun h => ⟨a, rfl, h⟩, fun ⟨_, ha, h⟩ => by cases ha; exact h⟩

theorem map_eq_ok {ε α β : Type} {x : Except ε α} {f : α → β} {b : β} :
    x.map f = .ok b ↔ ∃ a, x = .ok a ∧ f a = b := by
  cases x <;> simp [Except.map]

/-! ### Fields and members -/

/-- What a field makes of a value, by its name. -/
abbrev Put (σ : Type) := String → σ → Value → Option σ

/-- The fields fill a record from the texts of values as `put` does from the values. -/
def Fill (fields : List (Field σ)) (n : Nat) (put : Put σ) : Prop :=
  ∀ f ∈ fields, ∀ record s v t, Spelled n s v t → Ends t →
    (f.fill record s).toOption = (put f.name record v).map fun r => (r, t)

/-- One member more: the field of that name must not have been seen, and a key that is no field's is passed over. -/
def putMember (fields : List (Field σ)) (put : Put σ) (record : σ) (m : String × Value) : Option σ :=
  match fields.find? (·.name == m.1) with
  | some f => if f.seen record then none else put f.name record m.2
  | none => some record

/-! ### Texts and what may be missing -/

def asText? : Value → Option String
  | .string x => some x
  | _ => none

/-- `null` stands for absence; any other value must be one that is asked for. -/
def nullable? {α : Type} (present : Value → Option α) : Value → Option (Option α)
  | .null => some none
  | v => (present v).map some

theorem toOption_refuse {α : Type} (expected : String) (s : List Char) :
    (refuse expected s : Except Fault (α × List Char)).toOption = none := by
  rw [refuse, toOption_bind]
  cases (found s).toOption <;> rfl

/-- A text tells by its first character whether it stands for `null`, for a text or for neither. -/
inductive Start : Phrase Value
  | null {t} : Start ('n' :: 'u' :: 'l' :: 'l' :: t) .null t
  | text {s cs t} : Characters s cs t → Start ('"' :: s) (.string (String.ofList cs)) t
  | other {c s v t} : c ≠ 'n' → c ≠ '"' → v ≠ .null → asText? v = none → Start (c :: s) v t

theorem Grammar.Spelled.start {n : Nat} {s : List Char} {v : Value} {t : List Char} (h : Spelled n s v t) :
    Start (skipSpace s) v t := by
  obtain ⟨u, hu, hv | ⟨m, -, hv⟩⟩ := h.exists_start
  · obtain ⟨c, w, rfl, hc, -⟩ := opens_scalar hv
    rw [hu.skips_to hc]
    cases hv with
    | null => exact .null
    | string hcs => exact .text hcs
    | number hl _ =>
      obtain ⟨_, _, heq, hsign⟩ := Literal.head_numeral hl
      cases heq
      refine .other ?_ ?_ nofun rfl <;>
        · rintro rfl
          cases hsign <;> contradiction
    | _ => exact .other (by decide) (by decide) nofun rfl
  · cases hv with
    | array _ =>
      rw [hu.skips_to (by decide)]
      exact .other (by decide) (by decide) nofun rfl
    | object _ _ =>
      rw [hu.skips_to (by decide)]
      exact .other (by decide) (by decide) nofun rfl

theorem decodeString_of_spelled {n : Nat} {s : List Char} {v : Value} {t : List Char} (h : Spelled n s v t) :
    (decodeString s).toOption = (asText? v).map fun x => (x, t) := by
  have hstart := h.start
  generalize hs : skipSpace s = s' at hstart
  cases hstart with
  | null => simp [decodeString, hs, toOption_refuse, asText?]
  | text hcs => simp [decodeString, hs, strict_text hcs, decoded, asText?, Except.toOption]
  | other _ hquote _ hnone =>
    rw [decodeString, hs, hnone]
    split
    next heq => cases heq; cases hquote rfl
    next => exact toOption_refuse _ _

theorem nullable?_of_ne {α : Type} (present : Value → Option α) {v : Value} (hv : v ≠ .null) :
    nullable? present v = (present v).map some := by
  cases v with
  | null => cases hv rfl
  | _ => rfl

theorem decodeOptional_of_ne {α : Type} (present : Decoder α) {s u : List Char} {c : Char}
    (hs : skipSpace s = c :: u) (hc : c ≠ 'n') :
    decodeOptional present s = present (c :: u) >>= fun t => .ok (some t.1, t.2) := by
  rw [decodeOptional, hs]
  split
  next heq => cases heq; cases hc rfl
  next => rfl

theorem decodeOptional_of_spelled {α : Type} {n : Nat} {present : Decoder α} {get : Value → Option α}
    {s : List Char} {v : Value} {t : List Char} (h : Spelled n s v t)
    (hpresent : (present (skipSpace s)).toOption = (get v).map fun a => (a, t)) :
    (decodeOptional present s).toOption = (nullable? get v).map fun a => (a, t) := by
  have hother {c : Char} {u : List Char} (hs : skipSpace s = c :: u) (hc : c ≠ 'n') (hv : v ≠ .null) :
      (decodeOptional present s).toOption = (nullable? get v).map fun a => (a, t) := by
    rw [decodeOptional_of_ne present hs hc, toOption_bind, ← hs, hpresent, nullable?_of_ne get hv]
    cases get v <;> rfl
  have hstart := h.start
  generalize hs : skipSpace s = s' at hstart
  cases hstart with
  | null =>
    simp only [decodeOptional, hs]
    rfl
  | text _ => exact hother hs (by decide) nofun
  | other hc _ hv _ => exact hother hs hc hv

/-! ### An object -/

theorem fillMembers_close (fields : List (Field σ)) (fuel : Nat) (first : Bool) (record : σ) {s t : List Char}
    (h : Blank s ('}' :: t)) : fillMembers fields (fuel + 1) first record s = .ok (record, t) := by
  cases first <;> simp [fillMembers, h.skips_to (by decide)]

theorem fillMembers_comma {α : Type} {item : Phrase α} (fields : List (Field σ)) (fuel : Nat) (record : σ)
    {s u : List Char} {m : String × α} {t : List Char} (h : Blank s (',' :: u)) (hm : Member item u m t) :
    fillMembers fields (fuel + 1) false record s = fillMembers fields (fuel + 1) true record u := by
  obtain ⟨hquote, -, -, -⟩ := hm
  simp [fillMembers, h.skips_to (by decide), hquote.skips_to (by decide)]

theorem fillMembers_member {fields : List (Field σ)} {n : Nat} {put : Put σ} (hfill : Fill fields n put)
    (fuel : Nat) (record : σ) {s : List Char} {m : String × Value} {t : List Char}
    (hm : Member (Spelled n) s m t) (ht : Ends t) :
    (fillMembers fields (fuel + 1) true record s).toOption =
      (putMember fields put record m).bind fun r => (fillMembers fields fuel false r t).toOption := by
  obtain ⟨hquote, hkey, hcolon, hv⟩ := hm
  simp only [fillMembers, hquote.skips_to (by decide), strict_text hkey, decoded, putMember]
  cases hfind : fields.find? (·.name == String.ofList _) with
  | none =>
    simp [bind, Except.bind, hfind, hcolon.skips_to, isSpace, skipValue_of_spelled hv ht, Except.map]
  | some f =>
    by_cases hseen : f.seen record = true
    · simp [bind, Except.bind, hfind, hseen, misfit, Except.toOption]
    · have hname := List.find?_some hfind
      rw [beq_iff_eq] at hname
      have hput := hfill f (List.mem_of_find?_eq_some hfind) record _ _ _ hv ht
      simp only [bind, Except.bind, hfind, hseen, hcolon.skips_to (by decide)]
      change (f.fill record _ >>= fun r => fillMembers fields fuel false r.1 r.2).toOption = _
      rw [toOption_bind, hput, Option.bind_map]
      rfl

/-- The members are put in one by one. -/
theorem fillMembers_sequence {fields : List (Field σ)} {n : Nat} {put : Put σ} (hfill : Fill fields n put)
    {s : List Char} {ms : Members} {t : List Char} (h : Sequence (Member (Spelled n)) '}' s ms t)
    (record : σ) {fuel : Nat} (hfuel : s.length < fuel) :
    (fillMembers fields fuel true record s).toOption =
      (ms.foldlM (putMember fields put) record).map fun r => (r, t) := by
  have hshrinks := shrinks_member (shrinks_spelled n)
  induction h generalizing record fuel with
  | last hm hclose =>
    have hlt := hshrinks _ _ _ hm
    have hpos := hclose.length_lt
    obtain ⟨fuel, rfl⟩ : ∃ k, fuel = k + 2 := ⟨fuel - 2, by omega⟩
    rw [fillMembers_member hfill _ record hm (hclose.ends_to (by decide)), List.foldlM_cons]
    cases putMember fields put record _ with
    | none => rfl
    | some r => simp [fillMembers_close fields fuel false r hclose, Except.toOption]
  | more hm hcomma hmore ih =>
    have hlt := hshrinks _ _ _ hm
    have hpos := hcomma.length_lt
    obtain ⟨fuel, rfl⟩ : ∃ k, fuel = k + 2 := ⟨fuel - 2, by omega⟩
    obtain ⟨m, rest, hnext⟩ := hmore.exists_first
    rw [fillMembers_member hfill _ record hm (hcomma.ends_to (by decide)), List.foldlM_cons]
    cases putMember fields put record _ with
    | none => rfl
    | some r =>
      simp only [Option.bind_some, fillMembers_comma fields fuel r hcomma hnext, bind]
      exact ih r (by omega)

theorem fillMembers_enclosed {fields : List (Field σ)} {n : Nat} {put : Put σ} (hfill : Fill fields n put)
    {s : List Char} {ms : Members} {t : List Char} (h : Enclosed (Member (Spelled n)) '}' s ms t) (record : σ) :
    (fillMembers fields (s.length + 1) true record s).toOption =
      (ms.foldlM (putMember fields put) record).map fun r => (r, t) := by
  cases h with
  | empty hclose =>
    rw [fillMembers_close fields _ true record hclose]
    rfl
  | filled h => exact fillMembers_sequence hfill h record (Nat.lt_succ_self _)

/-- A record written as an object is what its members make of an empty one, if none that it needs is missing. -/
theorem decodeRecord_object {name : String} {fields : List (Field σ)} {n : Nat} {put : Put σ}
    (hfill : Fill fields n put) (empty : σ) {s u : List Char} {ms : Members} {t : List Char}
    (hs : Blank s ('{' :: u)) (h : Enclosed (Member (Spelled n)) '}' u ms t) :
    (decodeRecord name fields empty s).toOption =
      ((ms.foldlM (putMember fields put) empty).filter fun r => (firstMissing fields r).isNone).map
        fun r => (r, t) := by
  have hmembers := fillMembers_enclosed hfill h empty
  simp only [decodeRecord, hs.skips_to (by decide)]
  rw [toOption_bind, hmembers]
  cases ms.foldlM (putMember fields put) empty with
  | none => rfl
  | some r =>
    simp only [Option.map_some, Option.bind_some]
    cases hmissing : firstMissing fields r with
    | none => simp [Option.filter, hmissing, Except.toOption]
    | some f => simp [Option.filter, hmissing, misfit, Except.toOption]

/-! ### An array -/

/-- Space in front of a value may be passed over. -/
theorem Grammar.Spelled.skips {n : Nat} {s : List Char} {v : Value} {t : List Char} (h : Spelled n s v t) :
    Spelled n (skipSpace s) v t := by
  obtain ⟨u, hu, hv | ⟨m, rfl, hv⟩⟩ := h.exists_start
  · obtain ⟨c, w, rfl, hc, -⟩ := opens_scalar hv
    rw [hu.skips_to hc]
    exact hv.spelled n .none
  · have hopen : skipSpace s = u := by cases hv <;> exact hu.skips_to (by decide)
    rw [hopen]
    exact hv.spelled .none

section
variable {expected : String} {n : Nat}

/-- At the closing bracket the fields that are left stay as they are, if none of them is needed. -/
theorem fillItems_close (expected : String) {fields : List (Field σ)} (hfields : ∀ f ∈ fields, f.required = false)
    (index : Nat) (record : σ) {s t : List Char} (h : Blank s (']' :: t)) :
    ∃ r, fillItems expected fields index record s = .ok (record, r) ∧ skipSpace r = ']' :: t := by
  induction fields generalizing index s with
  | nil => exact ⟨s, rfl, h.skips_to (by decide)⟩
  | cons f fields ih =>
    obtain ⟨r, hr, hskip⟩ := ih (fun g hg => hfields g (List.mem_cons_of_mem _ hg)) (index + 1) .none
    refine ⟨r, ?_, hskip⟩
    simp only [fillItems, h.skips_to (by decide), hfields f List.mem_cons_self]
    exact hr

theorem fillItems_first (f : Field σ) (fields : List (Field σ)) (record : σ) {s : List Char} {v : Value}
    {t : List Char} (h : Spelled n s v t) :
    fillItems expected (f :: fields) 0 record s =
      f.fill record (skipSpace s) >>= fun r => fillItems expected fields 1 r.1 r.2 := by
  obtain ⟨c, u, hc, hspace, hne⟩ := opens_spelled n _ _ _ h
  rw [fillItems.eq_def]
  dsimp only
  rw [hc.skips_to hspace]
  split
  next heq => cases heq; cases hne rfl
  next => rfl
  next hzero => cases hzero rfl
  next hzero _ _ => cases hzero rfl

theorem fillItems_comma (f : Field σ) (fields : List (Field σ)) (index : Nat) (record : σ) {s u : List Char}
    {v : Value} {t : List Char} (hcomma : Blank s (',' :: u)) (h : Spelled n u v t) :
    fillItems expected (f :: fields) (index + 1) record s =
      f.fill record (skipSpace u) >>= fun r => fillItems expected fields (index + 2) r.1 r.2 := by
  obtain ⟨c, w, hc, hspace, hne⟩ := opens_spelled n _ _ _ h
  simp only [fillItems, hcomma.skips_to (by decide)]
  rw [hc.skips_to hspace]
  split
  next heq => cases heq; cases hne rfl
  next => rfl

/-- The items are put in one by one, each into the next field. -/
theorem fillItems_sequence {fields : List (Field σ)} {put : Put σ} (hfill : Fill fields n put) {s : List Char}
    {vs : List Value} {t : List Char} (h : Sequence (Spelled n) ']' s vs t) (hle : vs.length ≤ fields.length)
    (hrest : ∀ f ∈ fields.drop vs.length, f.required = false) (record : σ) {index : Nat} {s' : List Char}
    (henter : ∀ f fields, fillItems expected (f :: fields) index record s' =
      f.fill record (skipSpace s) >>= fun r => fillItems expected fields (index + 1) r.1 r.2) :
    (fillItems expected fields index record s').toOption.map (fun r => (r.1, skipSpace r.2)) =
      ((fields.zip vs).foldlM (fun r p => put p.1.name r p.2) record).map fun r => (r, ']' :: t) := by
  induction h generalizing fields record index s' with
  | last hv hclose =>
    obtain _ | ⟨f, fields⟩ := fields
    · cases hle
    · have hput := hfill f List.mem_cons_self record _ _ _ hv.skips (hclose.ends_to (by decide))
      rw [henter, toOption_bind, hput, List.zip_cons_cons, List.foldlM_cons]
      cases put f.name record _ with
      | none => rfl
      | some r =>
        have hfields : ∀ f ∈ fields, f.required = false := hrest
        obtain ⟨x, hx, hskip⟩ := fillItems_close expected hfields (index + 1) r hclose
        simp [hx, hskip, Except.toOption]
  | more hv hcomma hmore ih =>
    obtain _ | ⟨f, fields⟩ := fields
    · cases hle
    · have hput := hfill f List.mem_cons_self record _ _ _ hv.skips (hcomma.ends_to (by decide))
      obtain ⟨v, rest, hnext⟩ := hmore.exists_first
      rw [henter, toOption_bind, hput, List.zip_cons_cons, List.foldlM_cons]
      cases put f.name record _ with
      | none => rfl
      | some r =>
        refine ih (fun g hg => hfill g (List.mem_cons_of_mem _ hg)) (Nat.le_of_succ_le_succ hle) hrest r ?_
        exact fun f fields => fillItems_comma f fields index r hcomma hnext

end

/-- A record written as an array is what its items make of an empty one, each put into the field at its place. -/
theorem decodeRecord_array {name : String} {fields : List (Field σ)} {n : Nat} {put : Put σ}
    (hfill : Fill fields n put) (empty : σ) {s u : List Char} {vs : List Value} {t : List Char}
    (hs : Blank s ('[' :: u)) (h : Enclosed (Spelled n) ']' u vs t) (hle : vs.length ≤ fields.length)
    (hrest : ∀ f ∈ fields.drop vs.length, f.required = false) :
    (decodeRecord name fields empty s).toOption =
      ((fields.zip vs).foldlM (fun r p => put p.1.name r p.2) empty).map fun r => (r, t) := by
  generalize hexpected :
    "struct " ++ name ++ " with " ++ Text.Numeral.natText fields.length ++ " elements" = expected
  have hitems : (fillItems expected fields 0 empty u).toOption.map (fun r => (r.1, skipSpace r.2)) =
      ((fields.zip vs).foldlM (fun r p => put p.1.name r p.2) empty).map fun r => (r, ']' :: t) := by
    cases h with
    | empty hclose =>
      have hfields : ∀ f ∈ fields, f.required = false := hrest
      obtain ⟨x, hx, hskip⟩ := fillItems_close expected hfields 0 empty hclose
      simp [hx, hskip, Except.toOption]
    | filled h =>
      obtain ⟨v, rest, hnext⟩ := h.exists_first
      exact fillItems_sequence hfill h hle hrest empty fun f fields => fillItems_first f fields empty hnext
  simp only [decodeRecord, hs.skips_to (by decide), hexpected]
  rw [toOption_bind]
  cases hread : (fillItems expected fields 0 empty u).toOption with
  | none =>
    rw [hread, Option.map_none, eq_comm, Option.map_eq_none_iff] at hitems
    rw [hitems]
    rfl
  | some r =>
    rw [hread, Option.map_some, eq_comm, Option.map_eq_some_iff] at hitems
    obtain ⟨record, hfold, heq⟩ := hitems
    obtain ⟨hrecord, hclose⟩ := Prod.mk.inj heq
    rw [hfold, Option.bind_some, ← hrecord]
    simp only [← hclose, Option.map_some]
    rfl

/-! ### What every field keeps -/

section
variable {fields : List (Field σ)} {P : σ → Prop}

/-- What every field keeps, whatever it reads, holds of the record that is filled. -/
theorem fillMembers_keeps (hfill : ∀ f ∈ fields, ∀ record s r, P record → f.fill record s = .ok r → P r.1)
    {fuel : Nat} {first : Bool} {record : σ} (hrecord : P record) {s : List Char} {r : σ × List Char}
    (h : fillMembers fields fuel first record s = .ok r) : P r.1 := by
  induction fuel generalizing first record s with
  | zero => cases h
  | succ fuel ih =>
    unfold fillMembers at h
    extract_lets proceed member at h
    have hproceed {x : Except Fault (σ × List Char)} (hx : ∀ p, x = .ok p → P p.1)
        (h : x >>= proceed = .ok r) : P r.1 := by
      obtain ⟨p, hp, h⟩ := bind_eq_ok.1 h
      exact ih (hx p hp) h
    have hmember {u : List Char} (hu : member u = .ok r) : P r.1 := by
      obtain ⟨⟨key, w⟩, -, hu⟩ := bind_eq_ok.1 hu
      dsimp only at hu
      generalize hfield : fields.find? (·.name == key) = field at hu
      cases field with
      | some f =>
        dsimp only at hu
        split at hu
        next => obtain ⟨_, hdup, -⟩ := bind_eq_ok.1 hu; cases hdup
        next =>
          split at hu
          next => exact hproceed (fun p hp => hfill f (List.mem_of_find?_eq_some hfield) _ _ p hrecord hp) hu
          next => cases hu
      | none =>
        dsimp only at hu
        split at hu
        next =>
          refine hproceed (fun p hp => ?_) hu
          obtain ⟨_, -, rfl⟩ := map_eq_ok.1 hp
          exact hrecord
        next => cases hu
    split at h
    next => cases h; exact hrecord
    next => exact hmember h
    next =>
      split at h
      next => exact hmember h
      next => cases h
    next => cases h

theorem fillItems_keeps {expected : String}
    (hfill : ∀ f ∈ fields, ∀ record s r, P record → f.fill record s = .ok r → P r.1)
    {index : Nat} {record : σ} (hrecord : P record) {s : List Char} {r : σ × List Char}
    (h : fillItems expected fields index record s = .ok r) : P r.1 := by
  induction fields generalizing index record s with
  | nil =>
    cases h
    exact hrecord
  | cons f fields ih =>
    have ih {index : Nat} {record : σ} (hrecord : P record) {s : List Char}
        (h : fillItems expected fields index record s = .ok r) : P r.1 :=
      ih (fun g hg => hfill g (List.mem_cons_of_mem _ hg)) hrecord h
    have hnext {index : Nat} {u : List Char} {rest : σ × List Char → Except Fault (σ × List Char)}
        (hrest : rest = fun p => fillItems expected fields index p.1 p.2)
        (h : f.fill record u >>= rest = .ok r) : P r.1 := by
      obtain ⟨p, hp, h⟩ := bind_eq_ok.1 h
      rw [hrest] at h
      exact ih (hfill f List.mem_cons_self _ _ p hrecord hp) h
    unfold fillItems at h
    split at h
    next =>
      split at h
      next => cases h
      next => exact ih hrecord h
    next => exact hnext rfl h
    next =>
      split at h
      next => cases h
      next => exact hnext rfl h
    next => cases h

theorem decodeRecord_keeps {name : String}
    (hfill : ∀ f ∈ fields, ∀ record s r, P record → f.fill record s = .ok r → P r.1) {empty : σ}
    (hempty : P empty) {s : List Char} {r : σ × List Char} (h : decodeRecord name fields empty s = .ok r) :
    P r.1 := by
  rw [decodeRecord] at h
  split at h
  next =>
    obtain ⟨p, hp, h⟩ := bind_eq_ok.1 h
    have hkept := fillMembers_keeps hfill hempty hp
    dsimp only at h
    split at h
    next => cases h
    next => cases h; exact hkept
  next =>
    obtain ⟨p, hp, h⟩ := bind_eq_ok.1 h
    have hkept := fillItems_keeps hfill hempty hp
    dsimp only at h
    split at h
    next => cases h; exact hkept
    next => cases h
  next =>
    obtain ⟨_, -, h⟩ := bind_eq_ok.1 h
    cases h

end

end AgentDesk.Json
