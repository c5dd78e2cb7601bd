import AgentDesk.Proofs.Session.Provenance

/-! # The course of one action

What the record tells of one action is a path through the stages of that action, and ends where the action stands:
nobody else moves it along, and no two actions have the same number. So what an action does from beginning to end
is a fact about its stages alone, however many others were at work meanwhile (`Opening.course`). -/
namespace AgentDesk.Desk
open Session Function

/-- What the record tells of one action. -/
def own (n : Nat) (past : List Occurrence) : List Occurrence := past.filter (·.action? = some n)

theorem mem_own {n : Nat} {x : Occurrence} {past : List Occurrence} :
    x ∈ own n past ↔ x ∈ past ∧ x.action? = some n := by
  simp [own]

theorem own_snoc_self {n : Nat} {x : Occurrence} (hx : x.action? = some n) (past : List Occurrence) :
    own n (past ++ [x]) = own n past ++ [x] := by
  simp [own, hx]

theorem own_snoc_other {n : Nat} {x : Occurrence} (hx : x.action? ≠ some n) (past : List Occurrence) :
    own n (past ++ [x]) = own n past := by
  simp [own, hx]

/-- A path through the stages of an action, and where it ends. What the controller and the store are like at each
point is left open. -/
inductive Course (n : Nat) (errand : Errand) (command : Command) :
    List Occurrence → Option (Errand × Post) → Prop
  | begun : Course n errand command [.begun n errand command] (some (errand, .begun command))
  | chosen {past : List Occurrence} {current : Command} (c : Controller)
      (before : Course n errand command past (some (errand, .begun current))) :
      Course n errand command past (some (errand, .begun (choose c current)))
  | sent {past : List Occurrence} {request : Wire.Request}
      (before : Course n errand command past (some (errand, .sending request))) :
      Course n errand command (past ++ [.sent (.task n) request]) (some (errand, .within (.calling request)))
  | resumed {past : List Occurrence} (cause : Cause) (c : Controller) (s : Store)
      (before : Course n errand command past (some (errand, cause.post))) :
      Course n errand command (past ++ [.resumed n cause (cause.next c s).2]) (nextEntry errand (cause.next c s).2)

theorem errand_of_nextEntry {errand : Errand} {next : Next} {entry : Errand × Post}
    (h : nextEntry errand next = some entry) : entry.1 = errand := by
  cases next with
  | go stage => cases h; rfl
  | done r =>
    obtain ⟨text, rfl⟩ := toast_of_done h
    rfl
  | closed => cases h

theorem Course.errand_eq {n : Nat} {errand : Errand} {command : Command} {past : List Occurrence}
    {entry : Errand × Post} (h : Course n errand command past (some entry)) : entry.1 = errand := by
  generalize hentry : some entry = e at h
  cases h with
  | begun => cases hentry; rfl
  | chosen c before => cases hentry; rfl
  | sent before => cases hentry; rfl
  | resumed cause c s before => exact errand_of_nextEntry hentry.symm

/-! ## The invariant -/

/-- Who is on the record, and who stands anywhere, has begun, and each is where its course has led. -/
structure Told (s : Scene) (past : List Occurrence) (begun : Nat) : Prop where
  given : ∀ n errand command, .begun n errand command ∈ past → n < begun
  known : ∀ x ∈ past, ∀ n, x.action? = some n → ∃ errand command, .begun n errand command ∈ past
  standing : ∀ n entry, s.plan n = some entry → ∃ errand command, .begun n errand command ∈ past
  course : ∀ n errand command, .begun n errand command ∈ past → Course n errand command (own n past) (s.plan n)

namespace Told

variable {s s' : Scene} {past : List Occurrence} {begun begun' : Nat}

theorem own_eq_nil (h : Told s past begun) {n : Nat} (hn : begun ≤ n) : own n past = [] := by
  refine List.eq_nil_iff_forall_not_mem.mpr fun x hx => ?_
  obtain ⟨hx, hxn⟩ := mem_own.mp hx
  obtain ⟨errand, command, hb⟩ := h.known x hx n hxn
  have hlt := h.given n errand command hb
  omega

/-- What is about no action moves none. -/
theorem aside (h : Told s past begun) {x : Occurrence} (hx : x.action? = none) (hp : s'.plan = s.plan)
    (hle : begun ≤ begun') : Told s' (past ++ [x]) begun' := by
  have hmem (n : Nat) (errand : Errand) (command : Command) :
      .begun n errand command ∈ past ++ [x] ↔ .begun n errand command ∈ past := by
    refine ⟨fun hb => (List.mem_append.mp hb).resolve_right fun hb => ?_, List.mem_append_left _⟩
    cases List.mem_singleton.mp hb
    cases hx
  refine ⟨fun n errand command hb => ?_, fun y hy n hyn => ?_, fun n entry hn => ?_,
    fun n errand command hb => ?_⟩
  · exact Nat.lt_of_lt_of_le (h.given n errand command ((hmem n errand command).mp hb)) hle
  · rcases List.mem_append.mp hy with hy | hy
    · obtain ⟨errand, command, hb⟩ := h.known y hy n hyn
      exact ⟨errand, command, (hmem n errand command).mpr hb⟩
    · rw [List.mem_singleton.mp hy, hx] at hyn
      cases hyn
  · obtain ⟨errand, command, hb⟩ := h.standing n entry (hp ▸ hn)
    exact ⟨errand, command, (hmem n errand command).mpr hb⟩
  · rw [own_snoc_other (by rw [hx]; nofun), hp]
    exact h.course n errand command ((hmem n errand command).mp hb)

/-- An action begins, with the next number. -/
theorem begins (h : Told s past begun) (hlt : begun < begun') (errand : Errand) (command : Command) :
    Told { s with plan := update s.plan begun (some (errand, .begun command)) }
      (past ++ [.begun begun errand command]) begun' := by
  have hcases (n : Nat) (e : Errand) (c : Command)
      (hb : .begun n e c ∈ past ++ [Occurrence.begun begun errand command]) :
      .begun n e c ∈ past ∨ n = begun ∧ e = errand ∧ c = command := by
    rcases List.mem_append.mp hb with hb | hb
    · exact .inl hb
    · cases List.mem_singleton.mp hb
      exact .inr ⟨rfl, rfl, rfl⟩
  have hself : .begun begun errand command ∈ past ++ [Occurrence.begun begun errand command] := by simp
  refine ⟨fun n e c hb => ?_, fun y hy n hyn => ?_, fun n entry hn => ?_, fun n e c hb => ?_⟩
  · rcases hcases n e c hb with hb | ⟨rfl, -, -⟩
    · exact Nat.lt_trans (h.given n e c hb) hlt
    · exact hlt
  · rcases List.mem_append.mp hy with hy | hy
    · obtain ⟨e, c, hb⟩ := h.known y hy n hyn
      exact ⟨e, c, List.mem_append_left _ hb⟩
    · cases List.mem_singleton.mp hy
      cases hyn
      exact ⟨errand, command, hself⟩
  · by_cases hne : n = begun
    · subst hne
      exact ⟨errand, command, hself⟩
    · obtain ⟨e, c, hb⟩ := h.standing n entry ((update_of_ne hne ..).symm.trans hn)
      exact ⟨e, c, List.mem_append_left _ hb⟩
  · rcases hcases n e c hb with hb | ⟨rfl, rfl, rfl⟩
    · have hne : n ≠ begun := Nat.ne_of_lt (h.given n e c hb)
      have hother : (Occurrence.begun begun errand command).action? ≠ some n := fun he => by
        cases he
        exact hne rfl
      simp only [own_snoc_other hother, update_of_ne hne]
      exact h.course n e c hb
    · simp only [own_snoc_self (x := .begun n e c) rfl, h.own_eq_nil (Nat.le_refl _), update_self]
      exact .begun

/-- An action that has begun goes on. -/
theorem moves (h : Told s past begun) {n : Nat} {x : Occurrence} {entry : Errand × Post}
    {new : Option (Errand × Post)} (hx : x.action? = some n) (hnot : ∀ m e c, x ≠ .begun m e c)
    (stood : s.plan n = some entry) (hp : s'.plan = update s.plan n new) (hle : begun ≤ begun')
    (hc : ∀ e c, Course n e c (own n past) (some entry) → Course n e c (own n past ++ [x]) new) :
    Told s' (past ++ [x]) begun' := by
  have hmem (m : Nat) (e : Errand) (c : Command) (hb : .begun m e c ∈ past ++ [x]) : .begun m e c ∈ past :=
    (List.mem_append.mp hb).resolve_right fun hb => hnot m e c (List.mem_singleton.mp hb).symm
  obtain ⟨errand, command, hbegun⟩ := h.standing n entry stood
  refine ⟨fun m e c hb => Nat.lt_of_lt_of_le (h.given m e c (hmem m e c hb)) hle, fun y hy m hym => ?_,
    fun m other hm => ?_, fun m e c hb => ?_⟩
  · rcases List.mem_append.mp hy with hy | hy
    · obtain ⟨e, c, hb⟩ := h.known y hy m hym
      exact ⟨e, c, List.mem_append_left _ hb⟩
    · rw [List.mem_singleton.mp hy, hx] at hym
      cases hym
      exact ⟨errand, command, List.mem_append_left _ hbegun⟩
  · by_cases hne : m = n
    · subst hne
      exact ⟨errand, command, List.mem_append_left _ hbegun⟩
    · rw [hp, update_of_ne hne] at hm
      obtain ⟨e, c, hb⟩ := h.standing m other hm
      exact ⟨e, c, List.mem_append_left _ hb⟩
  · have hcourse := h.course m e c (hmem m e c hb)
    by_cases hne : m = n
    · subst hne
      rw [own_snoc_self hx, hp, update_self]
      exact hc e c (stood ▸ hcourse)
    · rw [own_snoc_other (by rw [hx]; exact fun he => hne (Option.some.inj he).symm), hp, update_of_ne hne]
      exact hcourse

/-- A toggle makes its choice, and the record does not tell. -/
theorem chooses (h : Told s past begun) {n : Nat} {errand : Errand} {command : Command}
    (stood : s.plan n = some (errand, .begun command)) (c : Controller) (hle : begun ≤ begun') :
    Told { s with plan := update s.plan n (some (errand, .begun (choose c command))) } past begun' := by
  refine ⟨fun m e k hb => Nat.lt_of_lt_of_le (h.given m e k hb) hle, h.known, fun m other hm => ?_,
    fun m e k hb => ?_⟩
  · by_cases hne : m = n
    · subst hne
      exact h.standing m _ stood
    · exact h.standing m other ((update_of_ne hne ..).symm.trans hm)
  · have hcourse := h.course m e k hb
    by_cases hne : m = n
    · subst hne
      rw [stood] at hcourse
      cases hcourse.errand_eq
      simp only [update_self]
      exact .chosen c hcourse
    · simp only [update_of_ne hne]
      exact hcourse

theorem step (h : Told s past begun) {x : Option Occurrence} (st : s.Step x s') (hle : begun ≤ begun')
    (fresh : ∀ n e c, x = some (.begun n e c) → n = begun ∧ begun < begun') :
    Told s' (past ++ x.toList) begun' := by
  cases st with
  | quiet =>
    rw [Option.toList_none, List.append_nil]
    exact ⟨fun n e c hb => Nat.lt_of_lt_of_le (h.given n e c hb) hle, h.known, h.standing, h.course⟩
  | pinged running => exact h.aside rfl rfl hle
  | edited e => exact h.aside rfl rfl hle
  | begun _ errand command =>
    obtain ⟨rfl, hlt⟩ := fresh _ errand command rfl
    exact h.begins hlt errand command
  | chosen stood =>
    rw [Option.toList_none, List.append_nil]
    exact h.chooses stood _ hle
  | sent stood =>
    refine h.moves rfl nofun stood rfl hle fun e c hc => ?_
    cases hc.errand_eq
    exact .sent hc
  | resumed cause stood =>
    refine h.moves rfl nofun stood rfl hle fun e c hc => ?_
    cases hc.errand_eq
    exact .resumed cause _ _ hc

end Told

/-! ## Every run -/

theorem begun_of_occurs {d : Desk} {e : Event} {n : Nat} {errand : Errand} {command : Command}
    (h : d.occurs e = some (.begun n errand command)) : n = d.begun ∧ d.begun < (d.perform e).begun := by
  cases happens_of_occurs h with
  | begun errand command => exact ⟨rfl, Nat.lt_succ_self _⟩

theorem begun_le_perform (d : Desk) (e : Event) : d.begun ≤ (d.perform e).begun := by
  have hwake (callers : List Caller) (d' : Desk) (hb : d'.begun = d.begun) :
      d.begun ≤ (d'.wakeAll callers).begun :=
    Nat.le_of_eq (hb ▸ (numbers_wakeAll callers d').2.symm)
  cases e with
  | begin errand command => exact Nat.le_succ _
  | move n =>
    simp only [perform, moveTask]
    split
    · next t _ => exact Nat.le_of_eq (keeps_stepTask (d.without n) t).1.symm
    · exact Nat.le_refl _
  | probe serial =>
    simp only [perform, moveProbe]
    split
    · next p _ =>
      obtain ⟨_, _, _, h | ⟨_, h⟩⟩ := stepProbe_frame d p
      · exact Nat.le_of_eq (congrArg Desk.begun h).symm
      · exact Nat.le_of_eq (congrArg Desk.begun h).symm
    · exact Nat.le_refl _
  | release kind => exact hwake _ _ rfl
  | unlock => exact hwake _ _ rfl
  | strike instant => exact hwake _ _ rfl
  | _ => exact Nat.le_refl _

theorem Opening.told (o : Opening) (es : List Event) :
    Told (o.after es).desk.scene (o.after es).past (o.after es).desk.begun := by
  have start : Told o.desk.scene [] o.desk.begun :=
    ⟨fun _ _ _ h => (nomatch h), fun _ h => (nomatch h), fun _ _ h => (nomatch h), fun _ _ _ h => (nomatch h)⟩
  have h := o.invariant (P := fun r => r.desk.Orderly ∧ Told r.desk.scene r.past r.desk.begun)
    ⟨o.orderly [], start⟩
    (fun r e h => ⟨h.1.perform e,
      h.2.step (scene_perform h.1 e) (begun_le_perform r.desk e) fun _ _ _ => begun_of_occurs⟩) es
  exact h.2

/-- In every run, what the record tells of an action is a path through its stages that ends where it stands. -/
theorem Opening.course (o : Opening) (es : List Event) {n : Nat} {errand : Errand} {command : Command}
    (h : .begun n errand command ∈ (o.after es).past) :
    Course n errand command (own n (o.after es).past) ((o.after es).desk.plan n) :=
  (o.told es).course n errand command h

end AgentDesk.Desk
