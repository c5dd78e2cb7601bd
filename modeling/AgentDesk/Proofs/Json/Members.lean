import AgentDesk.Json.Value
import Mathlib.Data.List.Induction
import Mathlib.Data.String.Basic

/-! # What an object keeps of its members

Members are put in one by one. What comes of them is said here without the order of the steps: the keys stand
sorted, each once, and a key has the value that it was given last. That determines the object. -/
namespace AgentDesk.Json

abbrev Members := List (String × Value)

/-- The value of `key` in the last of the members that have it. -/
def IsLast (written : Members) (key : String) (value : Value) : Prop :=
  ∃ before after, written = before ++ (key, value) :: after ∧ ∀ m ∈ after, m.1 ≠ key

def SortedByKey (members : Members) : Prop := members.Pairwise fun a b => a.1 < b.1

/-- The members that an object has when `written` are put into it. -/
structure Keeps (written kept : Members) : Prop where
  sorted : SortedByKey kept
  mem_iff : ∀ key value, (key, value) ∈ kept ↔ IsLast written key value

theorem isLast_snoc (written : Members) (k key : String) (v value : Value) :
    IsLast (written ++ [(k, v)]) key value ↔ key = k ∧ value = v ∨ key ≠ k ∧ IsLast written key value := by
  constructor
  · rintro ⟨before, after, heq, hafter⟩
    rcases List.eq_nil_or_concat after with rfl | ⟨after', m, rfl⟩
    · obtain ⟨-, hm⟩ := List.append_inj' heq rfl
      cases hm
      exact .inl ⟨rfl, rfl⟩
    · rw [List.concat_eq_append, ← List.cons_append, ← List.append_assoc] at heq
      obtain ⟨hwritten, hm⟩ := List.append_inj' heq rfl
      cases hm
      refine .inr ⟨?_, before, after', hwritten, fun m hm => hafter m (by simp [hm])⟩
      exact fun h => hafter (k, v) (by simp) h.symm
  · rintro (⟨rfl, rfl⟩ | ⟨hne, before, after, rfl, hafter⟩)
    · exact ⟨written, [], rfl, by simp⟩
    · refine ⟨before, after ++ [(k, v)], by simp, ?_⟩
      intro m hm
      rcases List.mem_append.1 hm with hm | hm
      · exact hafter m hm
      · rw [List.mem_singleton.1 hm]
        exact fun h => hne h.symm

/-! ### Putting one member in -/

theorem key_mem_insertMember {k : String} {v : Value} {members : Members} {m : String × Value}
    (h : m ∈ insertMember k v members) : m = (k, v) ∨ m ∈ members := by
  induction members with
  | nil => simpa [insertMember] using h
  | cons first rest ih =>
    simp only [insertMember] at h
    grind

theorem sorted_insertMember {k : String} {v : Value} {members : Members} (hs : SortedByKey members) :
    SortedByKey (insertMember k v members) := by
  induction members with
  | nil => simp [insertMember, SortedByKey]
  | cons first rest ih =>
    obtain ⟨hfirst, hrest⟩ := List.pairwise_cons.1 hs
    rw [insertMember]
    split
    next hlt =>
      refine List.pairwise_cons.2 ⟨?_, hs⟩
      intro m hm
      rcases List.mem_cons.1 hm with rfl | hm
      · exact hlt
      · exact String.lt_trans hlt (hfirst m hm)
    next hge =>
      split
      next heq =>
        subst heq
        exact List.pairwise_cons.2 ⟨hfirst, hrest⟩
      next hne =>
        refine List.pairwise_cons.2 ⟨?_, ih hrest⟩
        intro m hm
        rcases key_mem_insertMember hm with rfl | hm
        · exact lt_of_le_of_ne (not_lt.1 hge) (Ne.symm hne)
        · exact hfirst m hm

theorem mem_insertMember_iff {k : String} {v : Value} {members : Members} (hs : SortedByKey members)
    (key : String) (value : Value) :
    (key, value) ∈ insertMember k v members ↔ key = k ∧ value = v ∨ key ≠ k ∧ (key, value) ∈ members := by
  induction members with
  | nil => simp [insertMember]
  | cons first rest ih =>
    obtain ⟨hfirst, hrest⟩ := List.pairwise_cons.1 hs
    have hbehind (h : (key, value) ∈ rest) : first.1 < key := hfirst _ h
    have hirrefl := String.lt_irrefl k
    have hasymm (h : k < first.1) (h' : first.1 < k) : False := String.lt_irrefl k (String.lt_trans h h')
    have ih := ih hrest
    simp only [insertMember]
    grind

/-! ### Putting them all in -/

theorem keeps_foldl (written : Members) :
    Keeps written (written.foldl (fun done m => insertMember m.1 m.2 done) []) := by
  induction written using List.reverseRecOn with
  | nil =>
    refine ⟨List.Pairwise.nil, fun key value => ?_⟩
    simp [IsLast]
  | append_singleton written m ih =>
    rw [List.foldl_append, List.foldl_cons, List.foldl_nil]
    refine ⟨sorted_insertMember ih.sorted, fun key value => ?_⟩
    rw [mem_insertMember_iff ih.sorted, ih.mem_iff, isLast_snoc]

theorem SortedByKey.nodup {members : Members} (h : SortedByKey members) : members.Nodup :=
  h.imp fun hlt heq => by
    subst heq
    exact String.lt_irrefl _ hlt

/-- Sorted members with the same elements are the same. -/
theorem Keeps.unique {written kept kept' : Members} (h : Keeps written kept) (h' : Keeps written kept') :
    kept = kept' := by
  have hsame : kept.Perm kept' := by
    rw [List.perm_ext_iff_of_nodup h.sorted.nodup h'.sorted.nodup]
    rintro ⟨key, value⟩
    rw [h.mem_iff, h'.mem_iff]
  refine hsame.eq_of_pairwise ?_ h.sorted h'.sorted
  intro a b _ _ hab hba
  exact absurd (String.lt_trans hab hba) (String.lt_irrefl _)

theorem Keeps.ofMembers {written kept : Members} (h : Keeps written kept) :
    Value.ofMembers written = .object kept := by
  rw [Value.ofMembers, (keeps_foldl written).unique h]

/-- Members that stand sorted already, each key once, are kept as they are. -/
theorem SortedByKey.keeps {members : Members} (h : SortedByKey members) : Keeps members members := by
  refine ⟨h, fun key value => ⟨fun hm => ?_, ?_⟩⟩
  · obtain ⟨before, after, rfl⟩ := List.append_of_mem hm
    refine ⟨before, after, rfl, fun m hm => ?_⟩
    have hlt := (List.pairwise_cons.1 (List.pairwise_append.1 h).2.1).1 m hm
    exact fun heq => String.lt_irrefl _ (heq ▸ hlt)
  · rintro ⟨before, after, rfl, -⟩
    simp

end AgentDesk.Json
