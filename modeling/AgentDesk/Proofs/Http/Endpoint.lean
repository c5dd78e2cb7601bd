import AgentDesk.Http.Exchange
import AgentDesk.Http.Url
import AgentDesk.Settings.Basic
import Mathlib.Data.List.DropRight

/-! # Where the requests of checked settings go

A server's URL is checked for how it begins and used without the slashes at its end. The two do not know of each
other: where only slashes stand behind the scheme, the slashes that were checked are among those taken off. -/
namespace AgentDesk

namespace Settings

/-- The web schemes with their colons. -/
def webSchemes : List String := ["http:", "https:"]

theorem hasWebScheme_iff (url : String) :
    hasWebScheme url = true ↔ ∃ scheme ∈ webSchemes, ∃ rest, url = scheme ++ "//" ++ rest := by
  have hprefix (scheme : String) :
      scheme.toList.isPrefixOf url.toList = true ↔ ∃ rest, url = scheme ++ rest := by
    rw [List.isPrefixOf_iff_prefix]
    constructor
    · rintro ⟨rest, hrest⟩
      exact ⟨String.ofList rest, String.toList_inj.1 (by simp [hrest])⟩
    · rintro ⟨rest, rfl⟩
      exact ⟨rest.toList, String.toList_append.symm⟩
  rw [hasWebScheme, Bool.or_eq_true, hprefix, hprefix]
  simp [webSchemes]

theorem hasWebScheme_of_check {s : Settings} (h : s.check = .ok ()) : hasWebScheme s.serverUrl = true := by
  cases hscheme : hasWebScheme s.serverUrl with
  | true => rfl
  | false =>
    rw [check, hscheme] at h
    cases h

/-- Something other than slashes stands behind the scheme. -/
def namesPlace (url : String) : Bool := ((url.toList.dropWhile (· != ':')).drop 1).any (· != '/')

theorem namesPlace_of_mem {scheme : String} (h : scheme ∈ webSchemes) (rest : String) :
    namesPlace (scheme ++ "//" ++ rest) = rest.toList.any (· != '/') := by
  simp only [webSchemes, List.mem_cons, List.not_mem_nil, or_false] at h
  rcases h with rfl | rfl <;> simp [namesPlace]

end Settings

namespace Http

open Settings Wire

/-! ### Slashes at the end -/

theorem toList_trimSlashes (s : String) : (trimSlashes s).toList = s.toList.rdropWhile (· == '/') := by
  rw [trimSlashes, String.toList_ofList, List.rdropWhile]

/-- Nothing but slashes is taken off. -/
theorem trimSlashes_append_slashes (s : String) :
    ∃ n, s.toList = (trimSlashes s).toList ++ List.replicate n '/' := by
  have hslashes : ∀ c ∈ s.toList.rtakeWhile (· == '/'), c = '/' := fun c hc => by
    simpa using List.mem_rtakeWhile_imp hc
  refine ⟨(s.toList.rtakeWhile (· == '/')).length, ?_⟩
  rw [← List.eq_replicate_of_mem hslashes, toList_trimSlashes, List.rdropWhile_append_rtakeWhile]

/-- No slash is left. -/
theorem getLast?_trimSlashes (s : String) : (trimSlashes s).toList.getLast? ≠ some '/' := by
  intro hlast
  obtain ⟨hne, hslash⟩ := List.getLast?_eq_some_iff.1 hlast
  have hnot := List.rdropWhile_last_not (· == '/') s.toList
  simp only [← toList_trimSlashes, hslash] at hnot
  simp at hnot

theorem trimSlashes_append (front rest : String) :
    trimSlashes (front ++ rest) =
      if rest.toList.any (· != '/') then front ++ trimSlashes rest else trimSlashes front := by
  have hempty : (rest.toList.reverse.dropWhile (· == '/')).isEmpty = !rest.toList.any (· != '/') := by
    rw [Bool.eq_iff_iff]
    simp
  rw [← String.toList_inj, toList_trimSlashes, String.toList_append, List.rdropWhile, List.reverse_append,
    List.dropWhile_append, hempty]
  cases rest.toList.any (· != '/') with
  | true => simp [trimSlashes]
  | false => simp [trimSlashes]

/-! ### Endpoints -/

/-- A path starts with its one slash. -/
theorem exists_path (kind : RequestKind) : ∃ path, Request.path kind = "/" ++ path ∧ path.toList.head? ≠ some '/' := by
  cases kind
  · exact ⟨"api/agents/start", rfl, by decide⟩
  · exact ⟨"api/agents/stop", rfl, by decide⟩
  · exact ⟨"api/agents/ping", rfl, by decide⟩

variable {scheme : String}

theorem endpoint_of_place (hscheme : scheme ∈ webSchemes) {rest : String}
    (hrest : rest.toList.any (· != '/') = true) (kind : RequestKind) :
    hasWebScheme (endpoint (scheme ++ "//" ++ rest) kind) = true := by
  refine (hasWebScheme_iff _).2 ⟨scheme, hscheme, trimSlashes rest ++ Request.path kind, ?_⟩
  rw [endpoint, trimSlashes_append, if_pos hrest, String.append_assoc]

theorem endpoint_of_slashes (hscheme : scheme ∈ webSchemes) {rest : String}
    (hrest : rest.toList.any (· != '/') = false) (kind : RequestKind) :
    endpoint (scheme ++ "//" ++ rest) kind = scheme ++ Request.path kind := by
  have hbare : trimSlashes (scheme ++ "//") = scheme := by
    simp only [webSchemes, List.mem_cons, List.not_mem_nil, or_false] at hscheme
    rcases hscheme with rfl | rfl <;> rfl
  rw [endpoint, trimSlashes_append, hrest, if_neg Bool.false_ne_true, hbare]

/-- Whoever reads URLs does not count the slashes between the colon of a web scheme and the host. -/
def IgnoresSlashes {α : Type} (read : String → α) : Prop :=
  ∀ scheme ∈ webSchemes, ∀ rest, read (scheme ++ "/" ++ rest) = read (scheme ++ rest)

theorem IgnoresSlashes.double {α : Type} {read : String → α} (h : IgnoresSlashes read) (hscheme : scheme ∈ webSchemes)
    (rest : String) : read (scheme ++ "//" ++ rest) = read (scheme ++ rest) := by
  have htwo : scheme ++ "//" ++ rest = scheme ++ "/" ++ ("/" ++ rest) := by
    rw [show ("//" : String) = "/" ++ "/" from rfl]
    simp only [String.append_assoc]
  rw [htwo, h scheme hscheme, ← String.append_assoc, h scheme hscheme]

/-- A path may be taken for a host and the rest of a path. -/
theorem exists_target (kind : RequestKind) : ∃ target, Request.path kind = "/" ++ ("api" ++ target) := by
  cases kind
  · exact ⟨"/agents/start", rfl⟩
  · exact ⟨"/agents/stop", rfl⟩
  · exact ⟨"/agents/ping", rfl⟩

theorem hasWebScheme_bare (hscheme : scheme ∈ webSchemes) (kind : RequestKind) :
    hasWebScheme (scheme ++ Request.path kind) = false := by
  simp only [webSchemes, List.mem_cons, List.not_mem_nil, or_false] at hscheme
  rcases hscheme with rfl | rfl <;> cases kind <;> decide

/-- **Where the requests go.** The settings that are checked give a base without the slashes at its end, then one
slash and the endpoint. That is on the scheme that was checked exactly if the base names a place behind it;
otherwise the slashes of the scheme are gone too, and whoever does not count them reads what comes first in the path
as the host. -/
theorem endpoint_of_check {s : Settings} (h : s.check = .ok ()) (kind : RequestKind) :
    (∃ n, s.serverUrl.toList = (trimSlashes s.serverUrl).toList ++ List.replicate n '/') ∧
    (trimSlashes s.serverUrl).toList.getLast? ≠ some '/' ∧
    (∃ path, Request.path kind = "/" ++ path ∧ path.toList.head? ≠ some '/' ∧
      endpoint s.serverUrl kind = trimSlashes s.serverUrl ++ "/" ++ path) ∧
    (hasWebScheme (endpoint s.serverUrl kind) = true ↔ namesPlace s.serverUrl = true) ∧
    (namesPlace s.serverUrl = false → ∃ scheme ∈ webSchemes, ∃ target,
      Request.path kind = "/" ++ ("api" ++ target) ∧ endpoint s.serverUrl kind = scheme ++ Request.path kind ∧
      ∀ (α : Type) (read : String → α), IgnoresSlashes read →
        read (endpoint s.serverUrl kind) = read (scheme ++ "//" ++ ("api" ++ target))) := by
  refine ⟨trimSlashes_append_slashes _, getLast?_trimSlashes _, ?_, ?_⟩
  · obtain ⟨path, hpath, hfirst⟩ := exists_path kind
    refine ⟨path, hpath, hfirst, ?_⟩
    rw [endpoint, hpath, String.append_assoc]
  · obtain ⟨scheme, hscheme, rest, hurl⟩ := (hasWebScheme_iff _).1 (hasWebScheme_of_check h)
    rw [hurl, namesPlace_of_mem hscheme]
    cases hrest : rest.toList.any (· != '/') with
    | true =>
      refine ⟨?_, nofun⟩
      rw [endpoint_of_place hscheme hrest]
    | false =>
      obtain ⟨target, htarget⟩ := exists_target kind
      rw [endpoint_of_slashes hscheme hrest]
      refine ⟨?_, fun _ => ⟨scheme, hscheme, target, htarget, rfl, fun α read hread => ?_⟩⟩
      · rw [hasWebScheme_bare hscheme]
      · rw [hread.double hscheme, htarget, ← String.append_assoc, hread scheme hscheme]

theorem endpoint_of_check_local :
    ({ channel := "room-1", userId := 123456, serverUrl := "https://host//" } : Settings).check = .ok () ∧
    endpoint "https://host//" .ping = "https://host/api/agents/ping" ∧
    hasWebScheme (endpoint "https://host//" .ping) = true := by
  have hcheck : ({ channel := "room-1", userId := 123456, serverUrl := "https://host//" } : Settings).check =
    .ok () := by decide
  obtain ⟨-, -, -, hplace, -⟩ := endpoint_of_check hcheck .ping
  exact ⟨hcheck, by decide, hplace.2 (by decide)⟩

/-- The scheme that was checked is damaged where nothing stands behind it. -/
theorem endpoint_scheme_lost :
    ({ channel := "room-1", userId := 123456, serverUrl := "http://" } : Settings).check = .ok () ∧
    endpoint "http://" .ping = "http:/api/agents/ping" ∧
    hasWebScheme (endpoint "http://" .ping) = false :=
  ⟨by decide, by decide, by decide⟩

/-! ### A plain client does not count them -/

namespace Url

/-- What is dropped from the end is dropped behind the last character that stays. -/
theorem rdropWhile_append_cons {p : Char → Bool} {c : Char} (hc : p c = false) (front back : List Char) :
    (front ++ c :: back).rdropWhile p = front ++ c :: back.rdropWhile p := by
  rw [List.rdropWhile, List.rdropWhile, List.reverse_append, List.reverse_cons, List.append_assoc,
    List.dropWhile_append]
  cases hback : back.reverse.dropWhile p with
  | nil => simp [hc]
  | cons d rest => simp

/-- Cleaning touches neither a web scheme nor a slash behind it. -/
theorem clean_scheme {scheme : String} (hscheme : scheme ∈ webSchemes) (cs : List Char) :
    ∃ rest, clean (scheme.toList ++ cs) = scheme.toList ++ rest ∧
      clean (scheme.toList ++ '/' :: cs) = scheme.toList ++ '/' :: rest := by
  let outer (c : Char) : Bool := c.toNat ≤ 0x20
  let kept (c : Char) : Bool := c != '\t' && c != '\n' && c != '\r'
  have hslash (cs : List Char) : ('/' :: cs).rdropWhile outer = '/' :: cs.rdropWhile outer :=
    rdropWhile_append_cons (by decide) [] cs
  have hcolon (front cs : List Char) : (front ++ ':' :: cs).rdropWhile outer = front ++ ':' :: cs.rdropWhile outer :=
    rdropWhile_append_cons (by decide) front cs
  refine ⟨(cs.rdropWhile outer).filter kept, ?_⟩
  simp only [webSchemes, List.mem_cons, List.not_mem_nil, or_false] at hscheme
  rcases hscheme with rfl | rfl
  · have hclean (cs : List Char) : clean ("http:".toList ++ cs) =
      (("http".toList ++ ':' :: cs).rdropWhile outer).filter kept := rfl
    rw [hclean, hclean, hcolon, hcolon, hslash]
    exact ⟨rfl, rfl⟩
  · have hclean (cs : List Char) : clean ("https:".toList ++ cs) =
      (("https".toList ++ ':' :: cs).rdropWhile outer).filter kept := rfl
    rw [hclean, hclean, hcolon, hcolon, hslash]
    exact ⟨rfl, rfl⟩

theorem parse?_ignoresSlashes : IgnoresSlashes parse? := by
  intro scheme hscheme rest
  obtain ⟨cs, hplain, hslashed⟩ := clean_scheme hscheme rest.toList
  have hsplit : ∃ name, ∀ cs, splitScheme? (scheme.toList ++ cs) = some (name, cs) := by
    simp only [webSchemes, List.mem_cons, List.not_mem_nil, or_false] at hscheme
    rcases hscheme with rfl | rfl
    · exact ⟨_, fun _ => rfl⟩
    · exact ⟨_, fun _ => rfl⟩
  obtain ⟨name, hsplit⟩ := hsplit
  have htext : (scheme ++ "/" ++ rest).toList = scheme.toList ++ '/' :: rest.toList := by simp
  simp only [parse?, htext, String.toList_append, hplain, hslashed, hsplit, Option.bind_eq_bind, Option.bind_some]
  rfl

end Url

end Http

end AgentDesk
