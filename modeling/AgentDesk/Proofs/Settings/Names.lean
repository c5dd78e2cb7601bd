import AgentDesk.Proofs.Catalog.Tags
import AgentDesk.Proofs.Settings.Demands

/-! # What settings call a language and a voice

Settings keep both as they were written. Each is what its text names, and a text that names nothing is blamed as it
stands (`named_up_to_case`). -/
namespace AgentDesk.Settings
open Catalog

/-- A setting is what its text names; otherwise the blame is on the variable, with the text unchanged. -/
structure Names {α : Type} (parse : String → Except String α) (look : Settings → Except Error α)
    (text : Settings → String) (name : String) : Prop where
  ok : ∀ s a, look s = .ok a ↔ parse (text s) = .ok a
  error : ∀ s e, look s = .error e ↔ (∃ complaint, parse (text s) = .error complaint) ∧ e = .invalidValue name (text s)

theorem names_of_ok {α : Type} {parse : String → Except String α} {look : Settings → Except Error α}
    {text : Settings → String} {name : String} (hok : ∀ s a, look s = .ok a ↔ parse (text s) = .ok a)
    (herror : ∀ s e, look s = .error e → e = .invalidValue name (text s)) : Names parse look text name := by
  refine ⟨hok, fun s e => ⟨fun h => ⟨?_, herror s e h⟩, ?_⟩⟩
  · cases hparse : parse (text s) with
    | ok a =>
      rw [(hok s a).2 hparse] at h
      cases h
    | error complaint => exact ⟨complaint, rfl⟩
  · rintro ⟨⟨complaint, hparse⟩, rfl⟩
    cases h : look s with
    | ok a =>
      rw [(hok s a).1 h] at hparse
      cases hparse
    | error e => rw [herror s e h]

theorem names_language : Names Language.parse language? Settings.language "AGENT_LANGUAGE" := by
  refine names_of_ok (fun s l => ?_) fun s e => language?_error
  rw [language?_eq_ok_iff, Language.ofText?_eq_some_iff, Language.parse_ok_iff_lower]

theorem names_voice : Names Voice.parse voice? Settings.voice "AGENT_VOICE_TYPE" := by
  refine names_of_ok (fun s v => ?_) fun s e => voice?_error
  rw [voice?_eq_ok_iff, Voice.ofText?_eq_some_iff, Voice.parse_ok_iff_lower]

/-- **A text names a language, or a voice, exactly if it is its tag in any case of the 26 letters**, and no blank, no
other character and no second value comes into it. The two are read in different ways, by one law; JSON takes the
tag itself only, and what names nothing is told with its text unchanged. -/
theorem named_up_to_case :
    NamedByTag Language.tag Language.parse Language.decode "unsupported language: " ∧
    NamedByTag Voice.tag Voice.parse Voice.decode "unsupported voice type: " ∧
    Names Language.parse language? Settings.language "AGENT_LANGUAGE" ∧
    Names Voice.parse voice? Settings.voice "AGENT_VOICE_TYPE" :=
  ⟨namedByTag_of_lower Language.parse_ok_iff_lower (fun _ _ => Language.parse_eq_error) Language.decode_eq_ok_iff,
    namedByTag_of_lower Voice.parse_ok_iff_lower (fun _ _ => Voice.parse_eq_error) Voice.decode_eq_ok_iff,
    names_language, names_voice⟩

/-- The Kelvin sign is a letter in no case. -/
example : Language.parse "\u212Ao-kr" = .error "unsupported language: \u212Ao-kr" := by decide

end AgentDesk.Settings
