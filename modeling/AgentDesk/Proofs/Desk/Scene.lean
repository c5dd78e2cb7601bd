import AgentDesk.Proofs.Desk.Event
import Mathlib.Logic.Function.Basic

/-! # What of a desk its session depends on

A scene is the controller, the store and who stands where: no lock, no queue, no timer, no server, and of a probe no
more than the handle that the controller has. Every event of
a desk is one of the seven steps of a scene (`scene_perform`), so that what holds of the session can be proved over
those steps alone, whatever the order in which actions are woken and let in. -/
namespace AgentDesk.Desk
open Session Function

/-! ## Posts -/

/-- Where an action stands, but not how it waits there. -/
inductive Post where
  | begun (command : Command)
  /-- The request has not reached the server yet. -/
  | sending (request : Wire.Request)
  | within (stage : Stage)

def Position.post : Position → Post
  | begun command => .begun command
  | reading r _ => .within (.reading r)
  | writing w _ => .within (.writing w)
  | calling request .ready => .sending request
  | calling request _ => .within (.calling request)

namespace Post

def ofStage : Stage → Post
  | .calling request => .sending request
  | stage => .within stage

def stage? : Post → Option Stage
  | begun _ => none
  | sending request => some (.calling request)
  | within stage => some stage

def holdsGate (p : Post) : Bool :=
  match p.stage? with
  | some s => s.holdsGate
  | none => false

/-- The same post once its request has reached the server. -/
def sent : Post → Post
  | sending request => within (.calling request)
  | p => p

@[simp] theorem holdsGate_ofStage (s : Stage) : (ofStage s).holdsGate = s.holdsGate := by
  cases s <;> rfl

end Post

@[simp] theorem Position.post_ofStage (s : Stage) : (Position.ofStage s).post = .ofStage s := by
  cases s <;> rfl

@[simp] theorem Position.post_woken (p : Position) : p.woken.post = p.post := by
  cases p with
  | calling request progress => cases progress <;> rfl
  | _ => rfl

theorem Position.stage?_post (p : Position) : p.post.stage? = p.stage? := by
  cases p with
  | calling request progress => cases progress <;> rfl
  | _ => rfl

theorem Task.holdsGate_post (t : Task) : t.position.post.holdsGate = t.holdsGate := by
  rw [Post.holdsGate, Position.stage?_post]
  rfl

/-- Where an action that is resumed has stood. -/
def Cause.post : Cause → Post
  | begins command => .begun command
  | looks r => .within (.reading r)
  | changes w => .within (.writing w)
  | hears request _ => .within (.calling request)

theorem Cause.eq_changes {cause : Cause} {w : Writing} (h : cause.post = .within (.writing w)) : cause = .changes w := by
  cases cause <;> cases h
  rfl

/-- What becomes of an action on its way: a transport error of the button's action is shown before it ends. -/
def nextEntry (errand : Errand) : Next → Option (Errand × Post)
  | .go stage => some (errand, .ofStage stage)
  | .done (.outcome (.error (.api e))) =>
    if errand = .button then some (errand, .within (.writing (.toast e.message))) else none
  | .done _ => none
  | .closed => none

theorem toast_of_done {errand : Errand} {r : Result} {entry : Errand × Post}
    (h : nextEntry errand (.done r) = some entry) : ∃ text, entry = (errand, .within (.writing (.toast text))) := by
  unfold nextEntry at h
  split at h
  · next hgo => cases hgo
  · split at h
    · cases h
      exact ⟨_, rfl⟩
    · cases h
  · cases h
  · cases h

/-! ## Scenes -/

structure Scene where
  controller : Controller
  store : Store
  plan : Nat → Option (Errand × Post)

inductive Scene.Step (s : Scene) : Option Occurrence → Scene → Prop
  | quiet : Step s none s
  | pinged {h : Liveness.Handle} (running : s.controller.probe = some h) :
      Step s (some (.sent (.probe h.serial) (.ping h.channel))) s
  | edited (e : Edit) : Step s (some (.edited e.action)) { s with store := s.store.dispatch e.action }
  | begun {n : Nat} (fresh : s.plan n = none) (errand : Errand) (command : Command) :
      Step s (some (.begun n errand command)) { s with plan := update s.plan n (some (errand, .begun command)) }
  /-- What a toggle is to do is chosen, and nobody else can tell. -/
  | chosen {n : Nat} {errand : Errand} {command : Command} (stood : s.plan n = some (errand, .begun command)) :
      Step s none { s with plan := update s.plan n (some (errand, .begun (choose s.controller command))) }
  | sent {n : Nat} {errand : Errand} {request : Wire.Request} (stood : s.plan n = some (errand, .sending request)) :
      Step s (some (.sent (.task n) request))
        { s with plan := update s.plan n (some (errand, .within (.calling request))) }
  | resumed {n : Nat} {errand : Errand} (cause : Cause) (stood : s.plan n = some (errand, cause.post)) :
      Step s (some (.resumed n cause (cause.next s.controller s.store).2))
        { controller := (cause.next s.controller s.store).1
          store := cause.store s.store
          plan := update s.plan n (nextEntry errand (cause.next s.controller s.store).2) }

def Task.entry (t : Task) : Errand × Post := (t.errand, t.position.post)

def plan (d : Desk) (number : Nat) : Option (Errand × Post) := (d.task? number).map Task.entry

def scene (d : Desk) : Scene := ⟨d.controller, d.store, d.plan⟩

theorem task?_without (d : Desk) (n : Nat) : (d.without n).task? = update d.task? n none := by
  funext m
  by_cases h : m = n
  · subst h
    simp [task?, without, List.find?_filter]
  · rw [update_of_ne h]
    simp only [task?, without, List.find?_filter]
    congr 1
    funext t
    grind

theorem task?_without_self (d : Desk) (n : Nat) : (d.without n).task? n = none := by
  rw [task?_without, update_self]

theorem task?_park {d : Desk} {t : Task} (h : d.task? t.number = none) :
    (d.park t).task? = update d.task? t.number (some t) := by
  funext m
  have happ : (d.park t).task? m = (d.task? m).or (if t.number = m then some t else none) := by
    simp only [task?, park, List.find?_append, List.find?_singleton, decide_eq_true_eq]
  rw [happ]
  by_cases hm : t.number = m
  · subst hm
    simp [h]
  · rw [update_of_ne (Ne.symm hm), if_neg hm, Option.or_none]

theorem plan_without (d : Desk) (n : Nat) : (d.without n).plan = update d.plan n none := by
  change Option.map Task.entry ∘ (d.without n).task? = _
  rw [task?_without, comp_update]
  rfl

theorem plan_park {d : Desk} {t : Task} (h : d.plan t.number = none) :
    (d.park t).plan = update d.plan t.number (some t.entry) := by
  change Option.map Task.entry ∘ (d.park t).task? = _
  rw [task?_park (Option.map_eq_none_iff.mp h), comp_update]
  rfl

/-! ## Waking changes no scene -/

theorem plan_wake (d : Desk) (caller : Caller) : (d.wake caller).plan = d.plan := by
  cases caller with
  | probe s => rfl
  | task n =>
    funext m
    simp only [plan, task?, wake, List.find?_map, Option.map_map]
    have hp : (fun t : Task => decide (t.number = m)) ∘
        (fun t => if t.number = n then { t with position := t.position.woken } else t) =
        fun t => decide (t.number = m) := by
      funext t
      simp only [comp_apply]
      split <;> rfl
    rw [hp]
    congr 1
    funext t
    simp only [comp_apply, Task.entry]
    split <;> simp

theorem scene_wake (d : Desk) (caller : Caller) : (d.wake caller).scene = d.scene := by
  simp only [scene, plan_wake]
  cases caller <;> rfl

theorem wakeAll_cons (d : Desk) (caller : Caller) (callers : List Caller) :
    d.wakeAll (caller :: callers) = (d.wake caller).wakeAll callers := rfl

theorem scene_wakeAll (callers : List Caller) (d : Desk) : (d.wakeAll callers).scene = d.scene := by
  induction callers generalizing d with
  | nil => rfl
  | cons caller callers ih => rw [wakeAll_cons, ih, scene_wake]

theorem scene_passLock (d : Desk) (r : StoreLock × List Visit) : (d.passLock r).scene = d.scene :=
  scene_wakeAll _ _

theorem quiet_of_eq {s s' : Scene} (h : s' = s) : s.Step none s' := by
  rw [h]
  exact .quiet

end AgentDesk.Desk
