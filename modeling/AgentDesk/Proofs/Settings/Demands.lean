import AgentDesk.Desk.Run
import AgentDesk.Proofs.Http.Endpoint

/-! # What settings must be for a desk to be opened

The demands on settings are on a list, each with the error that blames it. A desk is opened if all are met; else the
first that is not is blamed (`told_ofSettings`). -/
namespace AgentDesk.Settings

/-- What must hold, and what is told if it does not. -/
structure Demand where
  met : Prop
  blame : Error

/-- What is told where demands are checked one after the other. -/
inductive Told {α : Type} : List Demand → Except Error α → Prop
  | granted (a : α) : Told [] (.ok a)
  | goesOn {x : Demand} {xs : List Demand} {r : Except Error α} (met : x.met) (rest : Told xs r) : Told (x :: xs) r
  | blamed {x : Demand} {xs : List Demand} (unmet : ¬ x.met) : Told (x :: xs) (.error x.blame)

/-- The first demand that is not met is the one that the error blames. -/
def FirstUnmet (xs : List Demand) (e : Error) : Prop :=
  ∃ before x after, xs = before ++ x :: after ∧ (∀ y ∈ before, y.met) ∧ ¬ x.met ∧ x.blame = e

theorem not_firstUnmet_nil (e : Error) : ¬ FirstUnmet [] e := by
  rintro ⟨before, x, after, hxs, -⟩
  exact absurd hxs.symm (List.append_ne_nil_of_right_ne_nil _ (List.cons_ne_nil _ _))

theorem firstUnmet_cons {x : Demand} {xs : List Demand} {e : Error} :
    FirstUnmet (x :: xs) e ↔ ¬ x.met ∧ x.blame = e ∨ x.met ∧ FirstUnmet xs e := by
  constructor
  · rintro ⟨before, y, after, hxs, hbefore, hy, he⟩
    cases before with
    | nil =>
      obtain ⟨rfl, rfl⟩ := List.cons.inj hxs
      exact .inl ⟨hy, he⟩
    | cons z before =>
      obtain ⟨rfl, rfl⟩ := List.cons.inj hxs
      obtain ⟨hz, hbefore⟩ := List.forall_mem_cons.1 hbefore
      exact .inr ⟨hz, before, y, after, rfl, hbefore, hy, he⟩
  · rintro (⟨hx, he⟩ | ⟨hx, before, y, after, rfl, hbefore, hy, he⟩)
    · exact ⟨[], x, xs, rfl, List.forall_mem_nil _, hx, he⟩
    · exact ⟨x :: before, y, after, rfl, List.forall_mem_cons.2 ⟨hx, hbefore⟩, hy, he⟩

namespace Told

variable {α β : Type} {xs : List Demand} {r : Except Error α}

theorem ok_iff (h : Told xs r) : (∃ a, r = .ok a) ↔ ∀ x ∈ xs, x.met := by
  induction h with
  | granted a => simp
  | goesOn met rest ih => rw [ih, List.forall_mem_cons, and_iff_right met]
  | blamed unmet => simp [unmet]

theorem error_iff (h : Told xs r) (e : Error) : r = .error e ↔ FirstUnmet xs e := by
  induction h with
  | granted a => simp [not_firstUnmet_nil]
  | goesOn met rest ih => rw [ih, firstUnmet_cons, and_iff_right met, or_iff_right fun h => h.1 met]
  | @blamed x xs unmet => rw [firstUnmet_cons, and_iff_right unmet, or_iff_left fun h => unmet h.1, Except.error.injEq]

/-- A demand that is checked by refusing what does not meet it. -/
theorem guard {x : Demand} {c : Prop} [Decidable c] {refusal next : Except Error α} (hc : x.met ↔ ¬ c)
    (hrefusal : refusal = .error x.blame) (rest : Told xs next) : Told (x :: xs) (if c then refusal else next) := by
  by_cases h : c
  · rw [if_pos h, hrefusal]
    exact .blamed fun hmet => hc.1 hmet h
  · rw [if_neg h]
    exact .goesOn (hc.2 h) rest

/-- A demand that is checked by looking for a value. -/
theorem look {x : Demand} {found : Except Error β} {next : β → Except Error α} (hmet : x.met ↔ ∃ b, found = .ok b)
    (herror : ∀ e, found = .error e → e = x.blame) (rest : ∀ b, found = .ok b → Told xs (next b)) :
    Told (x :: xs) (found >>= next) := by
  cases hfound : found with
  | error e =>
    obtain rfl := herror e hfound
    refine .blamed fun h => ?_
    obtain ⟨b, hb⟩ := hmet.1 h
    rw [hfound] at hb
    cases hb
  | ok b => exact .goesOn (hmet.2 ⟨b, hfound⟩) (rest b hfound)

/-- What is made of a result only when it is good is told of the same demands. -/
theorem transfer (h : Told xs r) {r' : Except Error β} (herror : ∀ e, r = .error e → r' = .error e)
    (hok : ∀ a, r = .ok a → ∃ b, r' = .ok b) : Told xs r' := by
  induction h with
  | granted a =>
    obtain ⟨b, rfl⟩ := hok a rfl
    exact .granted b
  | goesOn met rest ih => exact .goesOn met (ih herror hok)
  | blamed unmet =>
    rw [herror _ rfl]
    exact .blamed unmet

end Told

/-- The demands on settings, in the order in which they are checked. -/
def demands (s : Settings) : List Demand :=
  [⟨∃ rest, s.serverUrl = "http://" ++ rest ∨ s.serverUrl = "https://" ++ rest,
      .invalidValue "AGENT_SERVER_URL" s.serverUrl⟩,
    ⟨s.requestTimeoutSecs ≠ 0, .notPositive "AGENT_REQUEST_TIMEOUT_SECS"⟩,
    ⟨1 ≤ s.pingIntervalMs, .notPositive "PING_INTERVAL_MS"⟩,
    ⟨s.pingIntervalMs ≤ 3600000, .tooLarge "PING_INTERVAL_MS" 3600000⟩,
    ⟨∃ l, Catalog.Language.ofText? s.language = some l, .invalidValue "AGENT_LANGUAGE" s.language⟩,
    ⟨∃ v, Catalog.Voice.ofText? s.voice = some v, .invalidValue "AGENT_VOICE_TYPE" s.voice⟩]

theorem hasWebScheme_iff_or (url : String) :
    hasWebScheme url = true ↔ ∃ rest, url = "http://" ++ rest ∨ url = "https://" ++ rest := by
  have hhttp : "http:" ++ "//" = "http://" := by decide
  have hhttps : "https:" ++ "//" = "https://" := by decide
  rw [hasWebScheme_iff]
  simp only [webSchemes, List.mem_cons, List.not_mem_nil, or_false, exists_eq_or_imp, exists_eq_left, hhttp, hhttps,
    exists_or]

theorem language?_eq_ok_iff (s : Settings) (l : Catalog.Language) :
    s.language? = .ok l ↔ Catalog.Language.ofText? s.language = some l := by
  unfold language?
  split <;> simp [*]

theorem language?_error {s : Settings} {e : Error} (h : s.language? = .error e) :
    e = .invalidValue "AGENT_LANGUAGE" s.language := by
  unfold language? at h
  split at h
  · cases h
  · cases h
    rfl

theorem voice?_eq_ok_iff (s : Settings) (v : Catalog.Voice) :
    s.voice? = .ok v ↔ Catalog.Voice.ofText? s.voice = some v := by
  unfold voice?
  split <;> simp [*]

theorem voice?_error {s : Settings} {e : Error} (h : s.voice? = .error e) :
    e = .invalidValue "AGENT_VOICE_TYPE" s.voice := by
  unfold voice? at h
  split at h
  · cases h
  · cases h
    rfl

theorem told_check (s : Settings) : Told s.demands s.check := by
  unfold check demands
  refine .guard ?_ rfl (.guard Iff.rfl rfl (.guard ?_ rfl (.guard ?_ rfl (.look ?_ ?_ fun l _ => .look ?_ ?_
    fun v _ => .granted ()))))
  · rw [← hasWebScheme_iff_or, Bool.not_eq_true', Bool.not_eq_false]
  · exact Nat.one_le_iff_ne_zero
  · exact Nat.not_lt.symm
  · simp only [language?_eq_ok_iff]
  · exact fun e => language?_error
  · simp only [voice?_eq_ok_iff]
  · exact fun e => voice?_error

end AgentDesk.Settings

namespace AgentDesk.Desk
open Settings

/-- A desk is opened with checked settings, and with the language and the voice that they name. -/
theorem ofSettings_eq_ok_iff (s : Settings) (d : Desk) :
    ofSettings s = .ok d ↔ s.check = .ok () ∧ ∃ l v, Catalog.Language.ofText? s.language = some l ∧
      Catalog.Voice.ofText? s.voice = some v ∧
      { controller := { pingIntervalMs := s.pingIntervalMs }, store := s.initialStore l v } = d := by
  simp only [← language?_eq_ok_iff, ← voice?_eq_ok_iff]
  unfold ofSettings
  cases s.check with
  | error e => simp [bind, Except.bind]
  | ok =>
    cases s.language? with
    | error e => simp [bind, Except.bind]
    | ok l =>
      cases s.voice? with
      | error e => simp [bind, Except.bind]
      | ok v => simp [bind, Except.bind, pure, Except.pure]

theorem told_ofSettings (s : Settings) : Settings.Told s.demands (ofSettings s) := by
  refine (told_check s).transfer (fun e he => ?_) fun _ hok => ?_
  · rw [ofSettings, he]
    rfl
  · have hmet := (told_check s).ok_iff.1 ⟨_, hok⟩
    obtain ⟨l, hl⟩ := hmet ⟨∃ l, Catalog.Language.ofText? s.language = some l, .invalidValue "AGENT_LANGUAGE" s.language⟩
      (by simp [demands])
    obtain ⟨v, hv⟩ := hmet ⟨∃ v, Catalog.Voice.ofText? s.voice = some v, .invalidValue "AGENT_VOICE_TYPE" s.voice⟩
      (by simp [demands])
    exact ⟨_, (ofSettings_eq_ok_iff s _).2 ⟨hok, l, v, hl, hv, rfl⟩⟩

end AgentDesk.Desk
