import AgentDesk.Proofs.Store.Choices
import Mathlib.Data.List.DropRight

/-! # What a history of actions leaves of a store

An action concerns one subject, and for most subjects the store says what was set last. The selection is the exception:
an id stays selected from the moment of its selection on, for as long as every new list of graphs offers it, and whether
the list at that moment does is of no account. Since the subjects do not meddle with each other, two histories that
agree on each of them leave the same store, whatever the order between them. -/
namespace AgentDesk.Store

/-- The store after some actions. -/
def after (s : Store) (as : List Action) : Store := as.foldl dispatch s

theorem after_cons (s : Store) (a : Action) (as : List Action) : s.after (a :: as) = (s.dispatch a).after as := rfl

theorem after_snoc (s : Store) (as : List Action) (a : Action) : s.after (as ++ [a]) = (s.after as).dispatch a := by
  simp [after, List.foldl_append]

theorem after_append (s : Store) (as bs : List Action) : s.after (as ++ bs) = (s.after as).after bs := by
  simp [after, List.foldl_append]

/-! ## What was set last -/

namespace Action

def identity? : Action → Option Identity
  | setIdentity identity => some identity
  | _ => none

/-- The id that is selected, which may be none at all. -/
def selected? : Action → Option (Option String)
  | selectGraph id => some id
  | _ => none

def graphs? : Action → Option (List Catalog.Graph)
  | setGraphs graphs => some graphs
  | _ => none

def language? : Action → Option Catalog.Language
  | setLanguage language => some language
  | _ => none

def voice? : Action → Option Catalog.Voice
  | setVoice voice => some voice
  | _ => none

end Action

/-- What some actions set last, or else what was there before. -/
def lastSet {β : Type} (sets : Action → Option β) (before : β) (as : List Action) : β :=
  (as.filterMap sets).getLastD before

/-- What a store says that no action changes but by setting it is what was set last. -/
theorem after_eq_lastSet {β : Type} (view : Store → β) (sets : Action → Option β)
    (h : ∀ s a, view (s.dispatch a) = (sets a).getD (view s)) (s : Store) (as : List Action) :
    view (s.after as) = lastSet sets (view s) as := by
  induction as generalizing s with
  | nil => rfl
  | cons a as ih =>
    rw [after_cons, ih, h, lastSet, lastSet]
    cases ha : sets a with
    | none => rw [List.filterMap_cons_none ha, Option.getD_none]
    | some b => rw [List.filterMap_cons_some ha, Option.getD_some, List.getLastD_cons]

theorem lastSet_snoc {β : Type} (sets : Action → Option β) (before : β) (as : List Action) (a : Action) :
    lastSet sets before (as ++ [a]) = (sets a).getD (lastSet sets before as) := by
  rw [lastSet, List.filterMap_append]
  cases ha : sets a with
  | none => simp [ha, lastSet]
  | some b => simp [ha]

/-! ## The selection -/

/-- The actions since an id, or none, was last selected: all of them if that has not happened. -/
def sinceSelected (as : List Action) : List Action := as.rtakeWhile fun a => a.selected?.isNone

/-- The selected id is the one that was selected last, if every list of graphs since then offers it. -/
theorem selectedId_after_iff (s : Store) (as : List Action) (id : String) :
    (s.after as).selectedId = some id ↔ lastSet Action.selected? s.selectedId as = some id ∧
      ∀ graphs, .setGraphs graphs ∈ sinceSelected as → ∃ g ∈ graphs, g.id = id := by
  induction as using List.reverseRecOn with
  | nil => simp [after, lastSet, sinceSelected]
  | append_singleton as a ih =>
    rw [after_snoc, lastSet_snoc]
    by_cases hselects : a.selected?.isNone = true
    · have hlast : a.selected?.getD (lastSet Action.selected? s.selectedId as) =
          lastSet Action.selected? s.selectedId as := by
        rw [Option.isNone_iff_eq_none.mp hselects, Option.getD_none]
      have hsince : sinceSelected (as ++ [a]) = sinceSelected as ++ [a] :=
        List.rtakeWhile_concat_pos _ _ _ hselects
      rw [hlast, hsince]
      simp only [List.mem_append, List.mem_singleton, or_imp, forall_and, ← and_assoc, ← ih]
      cases a with
      | selectGraph id => cases hselects
      | setGraphs graphs => simp [dispatch, Option.filter_eq_some_iff, offers]
      | _ => simp [dispatch]
    · have hsince : sinceSelected (as ++ [a]) = [] := List.rtakeWhile_concat_neg _ _ _ hselects
      rw [hsince]
      cases a with
      | selectGraph id => simp [dispatch, Action.selected?]
      | _ => exact absurd rfl hselects

/-! ## Subjects -/

/-- What an action is about. The selection and the list of graphs are one subject, and so are all toasts. -/
inductive Subject where
  | identity
  | connection
  | graph
  | language
  | voice
  | toasts
  deriving DecidableEq

def Action.subject : Action → Subject
  | setIdentity _ => .identity
  | setAgentConnected _ => .connection
  | selectGraph _ => .graph
  | setGraphs _ => .graph
  | setLanguage _ => .language
  | setVoice _ => .voice
  | notify _ => .toasts
  | clearNotifications => .toasts

/-- A store with nothing but what one subject is about. -/
def part (s : Store) : Subject → Store
  | .identity => { identity := s.identity }
  | .connection => { agentConnected := s.agentConnected }
  | .graph => { selectedId := s.selectedId, graphs := s.graphs }
  | .language => { language := s.language }
  | .voice => { voice := s.voice }
  | .toasts => { notifications := s.notifications }

theorem eq_of_parts {s s' : Store} (h : ∀ subject, s.part subject = s'.part subject) : s = s' := by
  have hidentity := congrArg Store.identity (h .identity)
  have hconnection := congrArg Store.agentConnected (h .connection)
  have hselected := congrArg Store.selectedId (h .graph)
  have hgraphs := congrArg Store.graphs (h .graph)
  have hlanguage := congrArg Store.language (h .language)
  have hvoice := congrArg Store.voice (h .voice)
  have htoasts := congrArg Store.notifications (h .toasts)
  simp only [part] at hidentity hconnection hselected hgraphs hlanguage hvoice htoasts
  cases s
  cases s'
  rw [mk.injEq]
  exact ⟨hidentity, hconnection, hselected, hgraphs, hlanguage, hvoice, htoasts⟩

/-- An action leaves all other subjects alone. -/
theorem part_dispatch_of_ne {a : Action} {subject : Subject} (h : a.subject ≠ subject) (s : Store) :
    (s.dispatch a).part subject = s.part subject := by
  cases a <;> cases subject <;> first | rfl | exact absurd rfl h

/-- What an action does to its subject depends on nothing else. -/
theorem part_dispatch_self (a : Action) (s : Store) :
    (s.dispatch a).part a.subject = ((s.part a.subject).dispatch a).part a.subject := by
  cases a <;> rfl

/-- Of a history, only the actions on a subject count for it. -/
theorem part_after {s s' : Store} {subject : Subject} (h : s.part subject = s'.part subject) (as : List Action) :
    (s.after as).part subject = (s'.after (as.filter (·.subject = subject))).part subject := by
  induction as generalizing s s' with
  | nil => exact h
  | cons a as ih =>
    by_cases ha : a.subject = subject
    · rw [List.filter_cons_of_pos (by simpa using ha), after_cons, after_cons]
      subst ha
      apply ih
      rw [part_dispatch_self, h, ← part_dispatch_self]
    · rw [List.filter_cons_of_neg (by simpa using ha), after_cons]
      apply ih
      rw [part_dispatch_of_ne ha, h]

/-- One history is the other one with its actions in another order, but with those on each subject in the same. -/
def InStep (as bs : List Action) : Prop :=
  ∀ subject, as.filter (·.subject = subject) = bs.filter (·.subject = subject)

theorem after_eq_of_inStep {as bs : List Action} (h : InStep as bs) (s : Store) : s.after as = s.after bs := by
  apply eq_of_parts
  intro subject
  rw [part_after rfl as, part_after rfl bs, h subject]

/-! ## Every history -/

/-- What some actions leave of a store. -/
structure Leaves (s : Store) (as : List Action) : Prop where
  selected : ∀ id, (s.after as).selectedId = some id ↔ lastSet Action.selected? s.selectedId as = some id ∧
    ∀ graphs, .setGraphs graphs ∈ sinceSelected as → ∃ g ∈ graphs, g.id = id
  /-- The first one on the list that came last counts, and only if it is on that list. -/
  graph : ∀ g, (s.after as).selectedGraph? = some g ↔ (s.after as).selectedId = some g.id ∧
    ∃ front rest, lastSet Action.graphs? s.graphs as = front ++ g :: rest ∧ ∀ x ∈ front, x.id ≠ g.id
  startable : (s.after as).params?.isSome = (s.after as).selectedGraph?.isSome
  params : ∀ g, (s.after as).selectedGraph? = some g → (s.after as).params? = some
    { channel := (lastSet Action.identity? s.identity as).channel
      userId := (lastSet Action.identity? s.identity as).userId
      graphName := g.name
      language := lastSet Action.language? s.language as
      voice := lastSet Action.voice? s.voice as }
  order : ∀ bs, InStep as bs → s.after bs = s.after as

/-- After any actions a store says what was set last, with the last selection as long as every list since then has
offered it, and the order between the subjects is of no account. -/
theorem leaves_after (s : Store) (as : List Action) : s.Leaves as := by
  have hidentity := after_eq_lastSet Store.identity Action.identity? (fun s a => by cases a <;> rfl) s as
  have hgraphs := after_eq_lastSet Store.graphs Action.graphs? (fun s a => by cases a <;> rfl) s as
  have hlanguage := after_eq_lastSet Store.language Action.language? (fun s a => by cases a <;> rfl) s as
  have hvoice := after_eq_lastSet Store.voice Action.voice? (fun s a => by cases a <;> rfl) s as
  constructor
  case selected => exact s.selectedId_after_iff as
  case graph =>
    intro g
    rw [← hgraphs]
    exact selectedGraph?_eq_some_iff
  case startable => exact Option.isSome_map
  case params =>
    intro g hg
    rw [params?, hg, Option.map_some, hidentity, hlanguage, hvoice]
  case order =>
    intro bs h
    exact (after_eq_of_inStep h s).symm

end AgentDesk.Store
