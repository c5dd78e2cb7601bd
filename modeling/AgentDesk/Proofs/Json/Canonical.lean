import AgentDesk.Proofs.Json.Writing

/-! # What is read is canonical

Of whatever text a value is read, its integers fit 64 bits, its objects are sorted with each key once, and it nests
no deeper than there was room. Nothing is assumed of the text but that it was read. -/
namespace AgentDesk.Json

open Grammar

/-! ### Arrays and objects -/

section
variable {α : Type} {read : Reader α} {P : α → Prop}

theorem readItems_forall (hread : ∀ s a t, read s = some (a, t) → P a) {fuel : Nat} {s : List Char}
    {as : List α} {t : List Char} (h : readItems read fuel s = some (as, t)) : ∀ a ∈ as, P a := by
  induction fuel generalizing s as with
  | zero => cases h
  | succ fuel ih =>
    simp only [readItems, bind, Option.bind_eq_some_iff] at h
    obtain ⟨⟨a, u⟩, ha, h⟩ := h
    have hfirst := hread s a u ha
    dsimp only at h
    split at h
    next =>
      obtain ⟨⟨more, w⟩, hmore, heq⟩ := Option.bind_eq_some_iff.1 h
      cases heq
      exact List.forall_mem_cons.2 ⟨hfirst, ih hmore⟩
    next =>
      cases h
      exact List.forall_mem_singleton.2 hfirst
    next => cases h

theorem readArray_forall (hread : ∀ s a t, read s = some (a, t) → P a) {s : List Char} {as : List α}
    {t : List Char} (h : readArray read s = some (as, t)) : ∀ a ∈ as, P a := by
  rw [readArray] at h
  split at h
  next =>
    cases h
    exact List.forall_mem_nil _
  next => exact readItems_forall hread h

theorem readMember_forall (hread : ∀ s a t, read s = some (a, t) → P a) {text : Reader String}
    {s : List Char} {m : String × α} {t : List Char} (h : readMember text read s = some (m, t)) : P m.2 := by
  rw [readMember] at h
  split at h
  next =>
    simp only [bind, Option.bind_eq_some_iff] at h
    obtain ⟨⟨key, u⟩, -, h⟩ := h
    dsimp only at h
    split at h
    next =>
      obtain ⟨⟨a, w⟩, ha, heq⟩ := Option.bind_eq_some_iff.1 h
      cases heq
      exact hread _ _ _ ha
    next => cases h
  next => cases h

theorem readMembers_forall (hread : ∀ s a t, read s = some (a, t) → P a) {text : Reader String} {fuel : Nat}
    {s : List Char} {ms : List (String × α)} {t : List Char} (h : readMembers text read fuel s = some (ms, t)) :
    ∀ m ∈ ms, P m.2 := by
  induction fuel generalizing s ms with
  | zero => cases h
  | succ fuel ih =>
    simp only [readMembers, bind, Option.bind_eq_some_iff] at h
    obtain ⟨⟨m, u⟩, hm, h⟩ := h
    have hfirst := readMember_forall hread hm
    dsimp only at h
    split at h
    next =>
      obtain ⟨⟨more, w⟩, hmore, heq⟩ := Option.bind_eq_some_iff.1 h
      cases heq
      exact List.forall_mem_cons.2 ⟨hfirst, ih hmore⟩
    next =>
      cases h
      exact List.forall_mem_singleton.2 hfirst
    next => cases h

theorem readObject_forall (hread : ∀ s a t, read s = some (a, t) → P a) {text : Reader String} {s : List Char}
    {ms : List (String × α)} {t : List Char} (h : readObject text read s = some (ms, t)) : ∀ m ∈ ms, P m.2 := by
  rw [readObject] at h
  split at h
  next =>
    cases h
    exact List.forall_mem_nil _
  next => exact readMembers_forall hread h

end

/-! ### Values -/

theorem canonical_ofMembers {n : Nat} {ms : Members} (h : ∀ m ∈ ms, m.2.Canonical n) :
    (Value.ofMembers ms).Canonical (n + 1) := by
  have hkeeps := keeps_foldl ms
  refine .object hkeeps.sorted fun m hm => ?_
  obtain ⟨before, after, heq, -⟩ := (hkeeps.mem_iff m.1 m.2).1 hm
  exact h m (by rw [heq]; simp)

theorem canonical_number {n : Nat} {s : List Char} {x : Number} {t : List Char}
    (h : strict.number s = some (x, t)) : (Value.number x).Canonical n := by
  cases x with
  | float bits => exact .float
  | int i =>
    obtain ⟨l, -, hl⟩ := Option.bind_eq_some_iff.1 h
    obtain ⟨x, hx, heq⟩ := Option.map_eq_some_iff.1 hl
    cases heq
    exact .int (Literal.number?_eq_some_iff.1 hx).inRange

theorem canonical_readValueWith {n : Nat} {inner : Option (Reader Value)}
    (hinner : ∀ read, inner = some read → ∃ m, n = m + 1 ∧ ∀ s v t, read s = some (v, t) → v.Canonical m)
    {s : List Char} {v : Value} {t : List Char} (h : readValueWith strict inner s = some (v, t)) :
    v.Canonical n := by
  rw [readValueWith] at h
  split at h
  next => obtain ⟨_, _, heq⟩ := Option.map_eq_some_iff.1 h; cases heq; exact .null
  next => obtain ⟨_, _, heq⟩ := Option.map_eq_some_iff.1 h; cases heq; exact .bool
  next => obtain ⟨_, _, heq⟩ := Option.map_eq_some_iff.1 h; cases heq; exact .bool
  next => obtain ⟨_, _, heq⟩ := Option.map_eq_some_iff.1 h; cases heq; exact .string
  next =>
    obtain ⟨read, hread, h⟩ := Option.bind_eq_some_iff.1 h
    obtain ⟨⟨items, u⟩, hitems, heq⟩ := Option.map_eq_some_iff.1 h
    obtain ⟨m, rfl, hm⟩ := hinner read hread
    cases heq
    exact .array (readArray_forall hm hitems)
  next =>
    obtain ⟨read, hread, h⟩ := Option.bind_eq_some_iff.1 h
    obtain ⟨⟨members, u⟩, hmembers, heq⟩ := Option.map_eq_some_iff.1 h
    obtain ⟨m, rfl, hm⟩ := hinner read hread
    cases heq
    exact canonical_ofMembers (readObject_forall hm hmembers)
  next =>
    rw [Option.ite_none_right_eq_some] at h
    obtain ⟨⟨x, u⟩, hx, heq⟩ := Option.map_eq_some_iff.1 h.2
    cases heq
    exact canonical_number hx
  next => cases h

theorem canonical_readValue {n : Nat} {s : List Char} {v : Value} {t : List Char}
    (h : readValue n s = some (v, t)) : v.Canonical n := by
  induction n generalizing s v t with
  | zero => exact canonical_readValueWith (fun read hread => by cases hread) h
  | succ n ih =>
    refine canonical_readValueWith ?_ h
    rintro read hread
    cases hread
    exact ⟨n, rfl, fun s v t hv => ih hv⟩

/-- Only a text that begins like `null` is read as it. -/
theorem ne_null_of_readValue {n : Nat} {s : List Char} {v : Value} {t : List Char}
    (h : readValue n s = some (v, t)) (hs : ∀ u, skipSpace s ≠ 'n' :: u) : v ≠ .null := by
  have hwith {inner : Option (Reader Value)} (h : readValueWith strict inner s = some (v, t)) : v ≠ .null := by
    rw [readValueWith] at h
    split at h
    next heq => cases hs _ heq
    next => obtain ⟨_, _, heq⟩ := Option.map_eq_some_iff.1 h; cases heq; nofun
    next => obtain ⟨_, _, heq⟩ := Option.map_eq_some_iff.1 h; cases heq; nofun
    next => obtain ⟨_, _, heq⟩ := Option.map_eq_some_iff.1 h; cases heq; nofun
    next =>
      obtain ⟨_, _, h⟩ := Option.bind_eq_some_iff.1 h
      obtain ⟨_, _, heq⟩ := Option.map_eq_some_iff.1 h
      cases heq
      nofun
    next =>
      obtain ⟨_, _, h⟩ := Option.bind_eq_some_iff.1 h
      obtain ⟨_, _, heq⟩ := Option.map_eq_some_iff.1 h
      cases heq
      nofun
    next =>
      rw [Option.ite_none_right_eq_some] at h
      obtain ⟨_, _, heq⟩ := Option.map_eq_some_iff.1 h.2
      cases heq
      nofun
    next => cases h
  cases n <;> exact hwith h

end AgentDesk.Json
