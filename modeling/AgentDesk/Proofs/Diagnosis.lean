import AgentDesk.Diagnosis
import AgentDesk.Proofs.Settings.Environment
import AgentDesk.Proofs.Wire.ResultCode

/-! # What a diagnosis does, and what its exit code says

A diagnosis goes one of four ways (`Goes`): nothing is to be pinged, there is no client, the ping fails, or it is
answered. Each leaves its own deeds and its own exit code, whatever the client does with the ping. -/
namespace AgentDesk

namespace Diagnosis
open Settings Wire

/-! ## What is written -/

section
variable (around : Surroundings) (s : Settings) (args : List String) (env : Environment)

section Recorded
variable (deeds : List Deed)

end Recorded

end

/-! ### Its deeds, sorted -/

section
variable {around : Surroundings} {s : Settings} {channel : String} {client : Http.Client Id}

end

/-! ## What a process asks for -/

/-- A channel that is asked for: the first argument, or what the environment says if there are no arguments. -/
def Asks (args : List String) (p : Process) (channel : String) : Prop :=
  args.head? = some channel ∨ args = [] ∧ Says p "AGENT_CHANNEL" channel

/-- The text has a character that is not blank. -/
def Visible (text : String) : Prop := ∃ c ∈ text.toList, Text.isBlank c = false

/-- A channel that is to be pinged. -/
structure Target (s : Settings) (args : List String) (p : Process) (channel : String) : Prop where
  good : s.check = .ok ()
  asked : Asks args p channel
  visible : Visible channel

theorem channel?_eq_some_iff (args : List String) (p : Process) (channel : String) :
    channel? args.head? p.environment = some channel ↔ Asks args p channel ∧ Visible channel := by
  rw [channel?, Option.filter_eq_some_iff, Option.or_eq_some_iff, List.head?_eq_none_iff,
    Environment.text?_eq_some_iff, Bool.not_eq_true', Text.isBlankText_eq_false_iff]
  exact Iff.rfl

/-- A blank argument is an argument: the environment does not make up for it. -/
example : channel? (some "\u3000") (fun _ => some [0x64, 0x65, 0x6E]) = none := by decide

section
variable {s : Settings} {args : List String} {p : Process}

theorem target_eq_ok_iff {channel : String} :
    target s args.head? p.environment = .ok channel ↔ Target s args p channel := by
  have hchannel := channel?_eq_some_iff args p channel
  constructor
  · intro h
    unfold target at h
    split at h
    · cases h
    · next good =>
      split at h
      · cases h
      · next found =>
        cases h
        obtain ⟨asked, visible⟩ := hchannel.1 found
        exact ⟨good, asked, visible⟩
  · rintro ⟨good, asked, visible⟩
    simp only [target, good, hchannel.2 ⟨asked, visible⟩]

/-- Only one channel is to be pinged. -/
theorem Target.unique {channel channel' : String} (h : Target s args p channel) (h' : Target s args p channel') :
    channel' = channel :=
  Except.ok.inj ((target_eq_ok_iff.2 h').symm.trans (target_eq_ok_iff.2 h))

end

/-! ## Every diagnosis -/

section
variable (around : Surroundings) (s : Settings) (args : List String) (p : Process)

end

section
variable {around : Surroundings} {s : Settings} {args : List String} {p : Process} {channel : String}
  {client : Http.Client Id}

end

end Diagnosis

end AgentDesk
