import AgentDesk.Proofs.Desk.Waiting
import AgentDesk.Proofs.Session.Course

/-! # Whoever waits for the store gets on

At the store an action is let in when those before it have made their moves (`Opening.gets_in`). If it holds the
gate, they leave the controller as it is meanwhile, and add notifications to the store at most (`Undisturbed`). So
from wherever such an action stands at the store some run takes it to its next stage (`Opening.goes_on`), and from
the last stages to its end (`Opening.finishes`). -/
namespace AgentDesk.Desk
open Session Function

/-! ## What others leave as it was -/

theorem action?_of_move {d : Desk} {n : Nat} {x : Occurrence} (h : d.occurs (.move n) = some x) :
    x.action? = some n := by
  cases happens_of_occurs h with
  | sent n request => rfl
  | resumed n cause => rfl

/-- What is on the record of others moves nobody who has more to do than to choose. -/
theorem Scene.Step.plan_iff_of_aside {s s' : Scene} {x : Option Occurrence} (st : s.Step x s') {n : Nat}
    (h : ∀ y, x = some y → y.action? ≠ some n) {entry : Errand × Post} (onward : ∀ command, entry.2 ≠ .begun command) :
    s'.plan n = some entry ↔ s.plan n = some entry := by
  cases x with
  | none =>
    rcases st.plan_of_none n with hsame | ⟨errand, command, hstood, hchosen⟩
    · rw [hsame]
    · have hnot (current : Command) : some (errand, Post.begun current) ≠ some entry := fun he => by
        cases he
        exact onward _ rfl
      rw [hstood, hchosen]
      exact iff_of_false (hnot _) (hnot _)
  | some y => rw [st.plan_of_ne (h y rfl)]

theorem Scene.Step.plan_of_resumed {s s' : Scene} {n : Nat} {errand : Errand} {cause : Cause} {next : Next}
    (st : s.Step (some (.resumed n cause next)) s') (stands : s.plan n = some (errand, cause.post)) :
    s'.plan n = nextEntry errand (cause.next s.controller s.store).2 := by
  cases st with
  | resumed cause stood =>
    rw [stands] at stood
    cases stood
    exact update_self ..

theorem Scene.Step.plan_of_sent {s s' : Scene} {n : Nat} {errand : Errand} {request : Wire.Request}
    (st : s.Step (some (.sent (.task n) request)) s') (stands : s.plan n = some (errand, .sending request)) :
    s'.plan n = some (errand, .within (.calling request)) := by
  cases st with
  | sent stood =>
    rw [stands] at stood
    cases stood
    exact update_self ..

/-- An action stands where it stood. If it has the gate, nothing but notifications has come meanwhile. -/
structure Undisturbed (n : Nat) (r r' : Chronicle) : Prop where
  plan : r'.desk.plan n = r.desk.plan n
  own : own n r'.past = own n r.past
  gate : ∀ entry, r.desk.plan n = some entry → entry.2.holdsGate = true →
    r'.desk.controller = r.desk.controller ∧
      ∃ notifications, r'.desk.store = { r.desk.store with notifications := notifications }

theorem Undisturbed.refl (n : Nat) (r : Chronicle) : Undisturbed n r r := ⟨rfl, rfl, fun _ _ _ => ⟨rfl, _, rfl⟩⟩

theorem Undisturbed.trans {n : Nat} {r r' r'' : Chronicle} (h : Undisturbed n r r') (h' : Undisturbed n r' r'') :
    Undisturbed n r r'' := by
  refine ⟨h'.plan.trans h.plan, h'.own.trans h.own, fun entry stands holds => ?_⟩
  obtain ⟨hc, _, hs⟩ := h.gate entry stands holds
  obtain ⟨hc', second, hs'⟩ := h'.gate entry (h.plan.trans stands) holds
  refine ⟨hc'.trans hc, second, ?_⟩
  rw [hs', hs]

section Others

variable (o : Opening) (es : List Event) {n : Nat}

/-- A move of somebody else disturbs nobody, nor does a move of one's own that only waits. -/
theorem Opening.undisturbed_move {m : Nat}
    (aside : ∀ x, (o.after es).desk.occurs (.move m) = some x → x.action? ≠ some n) :
    Undisturbed n (o.after es) (o.after (es ++ [.move m])) := by
  have st := scene_perform (o.orderly es) (.move m)
  have hplan : ((o.after es).desk.moveTask m).scene.plan n = (o.after es).desk.plan n := by
    obtain ⟨x, hx, st⟩ | ⟨-, hsame⟩ := scene_moveTask_cases (o.after es).desk m
    · exact st.plan_of_ne (aside x hx)
    · exact congrFun (congrArg Scene.plan hsame) n
  rw [o.after_snoc]
  have hown : own n ((o.after es).next (.move m)).past = own n (o.after es).past := by
    rw [Chronicle.next]
    cases hx : (o.after es).desk.occurs (.move m) with
    | none => rw [Option.toList_none, List.append_nil]
    | some x => exact own_snoc_other (aside x hx) _
  refine ⟨hplan, hown, fun entry stands holds => ?_⟩
  obtain ⟨hg, -, alone⟩ := (custody o es).holder stands holds
  rcases moveTask_cases (o.after es).desk m with ⟨cause, next, hx⟩ | ⟨hc, hs⟩
  · have hne : m ≠ n := fun he => aside _ hx (congrArg some he)
    rw [hx] at st
    obtain ⟨errand, stood⟩ := st.stood_of_resumed
    obtain ⟨-, hc, hs⟩ := st.of_resumed
    have hfree : cause.post.holdsGate = false := alone m _ hne stood
    obtain ⟨hsame, -, -⟩ := next_of_inFlight (s := (o.after es).desk.store) hfree hg
    refine ⟨hc.trans hsame, ?_⟩
    -- Without the gate nothing but a toast is written.
    obtain ⟨command, rfl⟩ | rfl | ⟨text, rfl⟩ | ⟨channel, answer, rfl⟩ := free_cases hfree
    · exact ⟨_, hs⟩
    · exact ⟨_, hs⟩
    · exact ⟨_, hs⟩
    · exact ⟨_, hs⟩
  · exact ⟨hc, _, hs⟩

theorem Opening.undisturbed_others {others : List Nat} (hn : n ∉ others) :
    Undisturbed n (o.after es) (o.after (es ++ others.map .move)) := by
  induction others using List.reverseRecOn with
  | nil =>
    rw [List.map_nil, List.append_nil]
    exact .refl n _
  | append_singleton others m ih =>
    have hbefore := ih fun hmem => hn (List.mem_append_left _ hmem)
    have hne : m ≠ n := fun he => hn (by simp [he])
    rw [List.map_append, ← List.append_assoc]
    refine hbefore.trans (o.undisturbed_move (es ++ others.map .move) fun x hx => ?_)
    rw [action?_of_move hx]
    exact fun he => hne (Option.some.inj he)

end Others

theorem Opening.undisturbed_unlock (o : Opening) (es : List Event) (n : Nat) :
    Undisturbed n (o.after es) (o.after (es ++ [.unlock])) := by
  have hscene : ((o.after es).desk.perform .unlock).scene = (o.after es).desk.scene := scene_passLock _ _
  rw [o.after_snoc]
  refine ⟨congrFun (congrArg Scene.plan hscene) n, ?_, fun _ _ _ => ⟨congrArg Scene.controller hscene, _,
    congrArg Scene.store hscene⟩⟩
  simp [Chronicle.next, occurs]

/-! ## Getting in -/

/-- What an action goes on with when it is let into the store. -/
def Cause.purpose? : Cause → Option Purpose
  | looks _ => some .read
  | changes _ => some .write
  | _ => none

/-- Who stands at the store is at the door, in the queue or inside, and inside he goes on. -/
theorem exists_access {d : Desk} {n : Nat} {errand : Errand} {cause : Cause} {purpose : Purpose}
    (hp : cause.purpose? = some purpose) (hplan : d.plan n = some (errand, cause.post)) :
    ∃ t access, d.task? n = some t ∧ t.position.wait? = some (.store purpose access) ∧
      (access = .admitted ∨ (access = .ready ∧ d.lock.admits purpose = true) → d.cause? t = some cause) := by
  obtain ⟨t, ht, hentry⟩ := Option.map_eq_some_iff.mp hplan
  have hpost : t.position.post = cause.post := congrArg Prod.snd hentry
  cases cause with
  | begins command => cases hp
  | hears request answer => cases hp
  | looks r =>
    cases hp
    cases hpos : t.position with
    | reading r' access =>
      rw [hpos] at hpost
      cases hpost
      refine ⟨t, access, ht, by rw [hpos]; rfl, fun hin => ?_⟩
      rcases hin with rfl | ⟨rfl, hin⟩
      · simp only [cause?, hpos]
      · simp only [cause?, hpos, if_pos hin]
    | calling request progress =>
      rw [hpos] at hpost
      cases progress <;> cases hpost
    | _ => rw [hpos] at hpost; cases hpost
  | changes w =>
    cases hp
    cases hpos : t.position with
    | writing w' access =>
      rw [hpos] at hpost
      cases hpost
      refine ⟨t, access, ht, by rw [hpos]; rfl, fun hin => ?_⟩
      rcases hin with rfl | ⟨rfl, hin⟩
      · simp only [cause?, hpos]
      · simp only [cause?, hpos, if_pos hin]
    | calling request progress =>
      rw [hpos] at hpost
      cases progress <;> cases hpost
    | _ => rw [hpos] at hpost; cases hpost

theorem occurs_of_cause {d : Desk} {n : Nat} {t : Task} {cause : Cause} (ht : d.task? n = some t)
    (hc : d.cause? t = some cause) :
    d.occurs (.move n) = some (.resumed n cause (cause.next d.controller d.store).2) := by
  have hn : t.number = n := number_of_task? ht
  simp only [occurs, ht, Option.bind_some, occursTo]
  split
  · next hpos => simp [cause?, hpos] at hc
  · rw [hc, ← hn]
    rfl

theorem Opening.desk_after_moves (o : Opening) (es : List Event) (others : List Nat) :
    (o.after (es ++ others.map .move)).desk = others.foldl moveTask (o.after es).desk := by
  rw [o.desk_after, o.desk_after, List.foldl_append, List.foldl_map]
  rfl

/-- Who cannot be let in does not go on. -/
theorem occurs_of_ready {d : Desk} {n : Nat} {t : Task} {purpose : Purpose} (ht : d.task? n = some t)
    (hw : t.position.wait? = some (.store purpose .ready)) (hout : d.lock.admits purpose = false) :
    d.occurs (.move n) = none := by
  simp only [occurs, ht, Option.bind_some]
  cases hpos : t.position with
  | begun command => rw [hpos] at hw; cases hw
  | calling request progress => rw [hpos] at hw; cases hw
  | reading r access =>
    rw [hpos] at hw
    cases hw
    simp [occursTo, cause?, hpos, hout]
  | writing w access =>
    rw [hpos] at hw
    cases hw
    simp [occursTo, cause?, hpos, hout]

section GetsOn

variable (o : Opening) (es : List Event) {n : Nat} {errand : Errand} {cause : Cause}
  (stands : (o.after es).desk.plan n = some (errand, cause.post))

include stands

/-- Whoever queues at an open store comes to be inside. -/
theorem Opening.gets_in_of_queued {purpose : Purpose} (hp : cause.purpose? = some purpose)
    (hopen : (o.after es).desk.lock.closed = false)
    (hw : (o.after es).desk.wait n = some (.store purpose .queued)) :
    ∃ es', es <+: es' ∧ Undisturbed n (o.after es) (o.after es') ∧
      ∃ t, (o.after es').desk.task? n = some t ∧ (o.after es').desk.cause? t = some cause := by
  obtain ⟨others, hn, hin⟩ := (o.waiting es).admits hopen hw nofun
  have hsame := o.undisturbed_others es hn
  rw [← o.desk_after_moves] at hin
  obtain ⟨t, access, ht, hwait, hcause⟩ := exists_access hp (hsame.plan.trans stands)
  have hadmitted : access = .admitted := by
    rw [wait, ht, Option.bind_some, hwait] at hin
    cases hin
    rfl
  exact ⟨_, List.prefix_append .., hsame, t, ht, hcause (.inl hadmitted)⟩

/-- Whoever stands at the store gets in: his next move takes him on. -/
theorem Opening.gets_in {purpose : Purpose} (hp : cause.purpose? = some purpose) :
    ∃ es', es <+: es' ∧ Undisturbed n (o.after es) (o.after es') ∧
      (o.after es').desk.occurs (.move n) =
        some (.resumed n cause (cause.next (o.after es').desk.controller (o.after es').desk.store).2) := by
  suffices ∃ es', es <+: es' ∧ Undisturbed n (o.after es) (o.after es') ∧
      ∃ t, (o.after es').desk.task? n = some t ∧ (o.after es').desk.cause? t = some cause by
    obtain ⟨es', hmore, hsame, t, ht, hc⟩ := this
    exact ⟨es', hmore, hsame, occurs_of_cause ht hc⟩
  have hunlock := o.undisturbed_unlock es n
  have stands' := hunlock.plan.trans stands
  have hopen : (o.after (es ++ [.unlock])).desk.lock.closed = false := by
    rw [o.after_snoc]
    exact closed_unlockStore _
  obtain ⟨t, access, ht, hwait, hcause⟩ := exists_access hp stands'
  have hw : (o.after (es ++ [.unlock])).desk.wait n = some (.store purpose access) := by
    rw [wait, ht, Option.bind_some, hwait]
  have hunlocked : es <+: es ++ [.unlock] := List.prefix_append ..
  cases access with
  | admitted => exact ⟨_, hunlocked, hunlock, t, ht, hcause (.inl rfl)⟩
  | queued =>
    obtain ⟨es', hmore, hsame, hin⟩ := o.gets_in_of_queued _ stands' hp hopen hw
    exact ⟨es', hunlocked.trans hmore, hunlock.trans hsame, hin⟩
  | ready =>
    cases hin : (o.after (es ++ [.unlock])).desk.lock.admits purpose with
    | true => exact ⟨_, hunlocked, hunlock, t, ht, hcause (.inr ⟨rfl, hin⟩)⟩
    | false =>
      have hnone := occurs_of_ready ht hwait hin
      obtain ⟨hqueued, hclosed⟩ := moveTask_of_ready ht hwait hin
      have hmove := o.undisturbed_move _ (n := n) (m := n) fun x hx => by rw [hnone] at hx; cases hx
      have hopen' : (o.after (es ++ [.unlock] ++ [.move n])).desk.lock.closed = false := by
        rw [o.after_snoc]
        exact hclosed.trans hopen
      have hw' : (o.after (es ++ [.unlock] ++ [.move n])).desk.wait n = some (.store purpose .queued) := by
        rw [o.after_snoc]
        exact hqueued
      obtain ⟨es', hmore, hsame, hin⟩ := o.gets_in_of_queued _ (hmove.plan.trans stands') hp hopen' hw'
      exact ⟨es', (hunlocked.trans (List.prefix_append ..)).trans hmore, (hunlock.trans hmove).trans hsame, hin⟩

end GetsOn

/-- An action has gone on from where it stood, with the store as it was but for notifications. -/
structure GoneOn (n : Nat) (errand : Errand) (cause : Cause) (s : Store) (r r' : Chronicle) : Prop where
  seen : ∃ notifications, s = { r.desk.store with notifications := notifications }
  plan : r'.desk.plan n = nextEntry errand (cause.next r.desk.controller s).2
  controller : r'.desk.controller = (cause.next r.desk.controller s).1
  store : r'.desk.store = cause.store s
  own : own n r'.past = own n r.past ++ [.resumed n cause (cause.next r.desk.controller s).2]

theorem Opening.goneOn (o : Opening) (es : List Event) {n : Nat} {errand : Errand} {cause : Cause} {next : Next}
    (stands : (o.after es).desk.plan n = some (errand, cause.post))
    (h : (o.after es).desk.occurs (.move n) = some (.resumed n cause next)) :
    GoneOn n errand cause (o.after es).desk.store (o.after es) (o.after (es ++ [.move n])) := by
  have st := scene_perform (o.orderly es) (.move n)
  rw [h] at st
  obtain ⟨rfl, hc, hs⟩ := st.of_resumed
  rw [o.after_snoc]
  refine ⟨⟨_, rfl⟩, ?_, hc, hs, ?_⟩
  · exact st.plan_of_resumed stands
  · rw [Chronicle.next, h]
    exact own_snoc_self rfl _

/-- Whoever stands at the store goes on from there, whatever he finds. -/
theorem Opening.gets_on (o : Opening) (es : List Event) {n : Nat} {errand : Errand} {cause : Cause}
    (stands : (o.after es).desk.plan n = some (errand, cause.post)) {purpose : Purpose}
    (hp : cause.purpose? = some purpose) :
    ∃ es' c s, es <+: es' ∧ (o.after es').desk.plan n = nextEntry errand (cause.next c s).2 ∧
      own n (o.after es').past = own n (o.after es).past ++ [.resumed n cause (cause.next c s).2] := by
  obtain ⟨es', hmore, hsame, hx⟩ := o.gets_in es stands hp
  have hgone := o.goneOn es' (hsame.plan.trans stands) hx
  exact ⟨es' ++ [.move n], _, _, hmore.trans (List.prefix_append ..), hgone.plan, by rw [hgone.own, hsame.own]⟩

/-- Whoever stands at the store with the gate in hand goes on to his next stage. -/
theorem Opening.goes_on (o : Opening) (es : List Event) {n : Nat} {errand : Errand} {cause : Cause}
    (stands : (o.after es).desk.plan n = some (errand, cause.post)) (holds : cause.post.holdsGate = true)
    {purpose : Purpose} (hp : cause.purpose? = some purpose) :
    ∃ es' s, es <+: es' ∧ GoneOn n errand cause s (o.after es) (o.after es') := by
  obtain ⟨es', hmore, hsame, hx⟩ := o.gets_in es stands hp
  have hgone := o.goneOn es' (hsame.plan.trans stands) hx
  obtain ⟨hc, _, hs⟩ := hsame.gate _ stands holds
  refine ⟨es' ++ [.move n], (o.after es').desk.store, hmore.trans (List.prefix_append ..), ⟨_, hs⟩, ?_, ?_,
    hgone.store, ?_⟩
  · rw [hgone.plan, hc]
  · rw [hgone.controller, hc]
  · rw [hgone.own, hc, hsame.own]

/-! ## The last stages -/

/-- In some way for the run to go on, the action is about to make its last move. -/
def Opening.Finishes (o : Opening) (es : List Event) (n : Nat) : Prop :=
  ∃ es' cause result, es <+: es' ∧ (o.after es').desk.occurs (.move n) = some (.resumed n cause (.done result))

theorem Opening.Finishes.of_later {o : Opening} {es es' : List Event} {n : Nat} (h : es <+: es')
    (hf : o.Finishes es' n) : o.Finishes es n := by
  obtain ⟨es'', cause, result, hmore, hx⟩ := hf
  exact ⟨es'', cause, result, h.trans hmore, hx⟩

section Finishes

variable (o : Opening) (es : List Event) {n : Nat} {errand : Errand}

theorem Opening.finishes_of_last {w : Writing}
    (stands : (o.after es).desk.plan n = some (errand, .within (.writing w))) {result : Result}
    (hlast : ∀ c, (w.resume c).2 = .done result) : o.Finishes es n := by
  have stands : (o.after es).desk.plan n = some (errand, (Cause.changes w).post) := stands
  obtain ⟨es', hmore, -, hx⟩ := o.gets_in es stands rfl
  refine ⟨es', .changes w, result, hmore, ?_⟩
  rw [hx, Cause.next, hlast]

theorem Opening.finishes_of_step {w w' : Writing}
    (stands : (o.after es).desk.plan n = some (errand, .within (.writing w)))
    (hstep : ∀ c, (w.resume c).2 = .go (.writing w'))
    (hnext : ∀ es', (o.after es').desk.plan n = some (errand, .within (.writing w')) → o.Finishes es' n) :
    o.Finishes es n := by
  have stands : (o.after es).desk.plan n = some (errand, (Cause.changes w).post) := stands
  obtain ⟨es', c, s, hmore, hplan, -⟩ := o.gets_on es stands rfl
  refine .of_later hmore (hnext es' ?_)
  rw [hplan, Cause.next, hstep]
  rfl

/-- Whoever writes with the gate in hand can finish: at most two stages follow. -/
theorem Opening.finishes {w : Writing} (stands : (o.after es).desk.plan n = some (errand, .within (.writing w)))
    (holds : (Stage.writing w).holdsGate = true) : o.Finishes es n := by
  have hrefusal (r : Refusal) (es' : List Event)
      (hr : (o.after es').desk.plan n = some (errand, .within (.writing (.refusal r)))) : o.Finishes es' n :=
    o.finishes_of_last es' hr fun _ => rfl
  have hannounce (t : Transition) (es' : List Event)
      (ht : (o.after es').desk.plan n = some (errand, .within (.writing (.announce t)))) : o.Finishes es' n :=
    o.finishes_of_last es' ht fun _ => rfl
  cases w with
  | refusal r => exact hrefusal r es stands
  | announce t => exact hannounce t es stands
  | started p => exact o.finishes_of_step es stands (fun _ => rfl) (hannounce .connected)
  | adopted channel => exact o.finishes_of_last es stands fun _ => rfl
  | toast text => cases holds
  | teardown reason =>
    cases reason with
    | failed e => exact o.finishes_of_last es stands fun _ => rfl
    | refused r => exact o.finishes_of_step es stands (fun _ => rfl) (hrefusal r)
    | stopped => exact o.finishes_of_step es stands (fun _ => rfl) (hannounce .disconnected)

end Finishes

end AgentDesk.Desk
