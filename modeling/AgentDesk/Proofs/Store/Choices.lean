import AgentDesk.Store.Basic

/-! # What a session would be started with

A store has all that a start request needs exactly if the selected id is that of a graph on its list; of several
such graphs the first counts. What the user was told, and whether a session is active, are no part of it: they leave
all that is chosen as it is (`choices`). -/
namespace AgentDesk.Store

/-- Parameters that are read off a store, one by one. -/
structure Chosen (s : Store) (p : Wire.Params) : Prop where
  channel : p.channel = s.identity.channel
  userId : p.userId = s.identity.userId
  language : p.language = s.language
  voice : p.voice = s.voice
  /-- The first graph on the list whose id is the selected one. -/
  graph : ∃ front g rest, s.graphs = front ++ g :: rest ∧ (∀ x ∈ front, x.id ≠ g.id) ∧
    s.selectedId = some g.id ∧ p.graphName = g.name

theorem selectedGraph?_eq_some_iff {s : Store} {g : Catalog.Graph} :
    s.selectedGraph? = some g ↔ s.selectedId = some g.id ∧
      ∃ front rest, s.graphs = front ++ g :: rest ∧ ∀ x ∈ front, x.id ≠ g.id := by
  rw [selectedGraph?, Option.bind_eq_some_iff]
  constructor
  · intro ⟨id, hid, hfind⟩
    obtain ⟨hg, front, rest, hgraphs, hfront⟩ := List.find?_eq_some_iff_append.mp hfind
    have hg : g.id = id := beq_iff_eq.mp hg
    refine ⟨by rw [hid, hg], front, rest, hgraphs, ?_⟩
    intro x hx he
    have hne := hfront x hx
    simp [he, hg] at hne
  · intro ⟨hid, front, rest, hgraphs, hfront⟩
    refine ⟨g.id, hid, List.find?_eq_some_iff_append.mpr ⟨beq_self_eq_true _, front, rest, hgraphs, ?_⟩⟩
    intro x hx
    simpa using hfront x hx

theorem selectedGraph?_eq_none_iff {s : Store} :
    s.selectedGraph? = none ↔ ∀ g ∈ s.graphs, s.selectedId ≠ some g.id := by
  cases hid : s.selectedId with
  | none => simp [selectedGraph?, hid]
  | some id =>
    have hfind : s.selectedGraph? = s.graphs.find? (·.id == id) := by rw [selectedGraph?, hid, Option.bind_some]
    rw [hfind, List.find?_eq_none]
    refine forall₂_congr fun g _ => ?_
    rw [beq_iff_eq, ne_eq, Option.some.injEq, eq_comm]

theorem params?_eq_some_iff {s : Store} {p : Wire.Params} : s.params? = some p ↔ s.Chosen p := by
  rw [params?, Option.map_eq_some_iff]
  constructor
  · intro ⟨g, hg, hp⟩
    obtain ⟨hid, front, rest, hgraphs, hfront⟩ := selectedGraph?_eq_some_iff.mp hg
    subst hp
    exact ⟨rfl, rfl, rfl, rfl, front, g, rest, hgraphs, hfront, hid, rfl⟩
  · intro ⟨hchannel, huser, hlanguage, hvoice, front, g, rest, hgraphs, hfront, hid, hname⟩
    refine ⟨g, selectedGraph?_eq_some_iff.mpr ⟨hid, front, rest, hgraphs, hfront⟩, ?_⟩
    obtain ⟨channel, userId, graphName, language, voice⟩ := p
    cases hchannel
    cases huser
    cases hlanguage
    cases hvoice
    cases hname
    rfl

/-- Without a graph to name there is nothing to start, whatever else is chosen. -/
theorem params?_eq_none_iff {s : Store} : s.params? = none ↔ ∀ g ∈ s.graphs, s.selectedId ≠ some g.id := by
  rw [params?, Option.map_eq_none_iff, selectedGraph?_eq_none_iff]

/-! ## What leaves the choices alone -/

/-- A store with nothing but what is chosen in it. -/
def choices (s : Store) : Store := { s with agentConnected := false, notifications := ⟨0, []⟩ }

/-- Tells the user something, or that a session is active, and chooses nothing. -/
def Action.tells : Action → Bool
  | .setAgentConnected _ => true
  | .notify _ => true
  | .clearNotifications => true
  | _ => false

theorem choices_dispatch {action : Action} (h : action.tells = true) (s : Store) :
    (s.dispatch action).choices = s.choices := by
  cases action with
  | setAgentConnected connected => rfl
  | notify note => rfl
  | clearNotifications => rfl
  | _ => cases h

@[simp] theorem identity_choices (s : Store) : s.choices.identity = s.identity := rfl

@[simp] theorem params?_choices (s : Store) : s.choices.params? = s.params? := rfl

end AgentDesk.Store
