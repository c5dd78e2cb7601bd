import AgentDesk.Proofs.Desk.Settle
import AgentDesk.Proofs.Session.Period
import AgentDesk.Proofs.Settings.Demands

/-! # A desk is as its settings say

A desk is opened exactly if its settings meet all demands. It begins with what they say, and keeps to it: the limit of
its log and the period of its probes are those of the settings after anything that may happen (`ofSettings_wired`). -/
namespace AgentDesk.Desk
open Session Liveness Settings Store

/-! ## The log -/

/-- A log with this limit; none of its toasts is lost if the limit is 0. -/
structure HasLimit (limit : Nat) (log : NotificationLog) : Prop where
  limit_eq : log.limit = limit
  bounded : limit ≠ 0 → log.entries.length ≤ limit
  unbounded : limit = 0 → ∀ n, (log.push n).entries = log.entries ++ [n]

theorem hasLimit_of_le {limit : Nat} {log : NotificationLog} (hlimit : log.limit = limit)
    (hle : limit ≠ 0 → log.entries.length ≤ limit) : HasLimit limit log := by
  refine ⟨hlimit, hle, fun hzero n => ?_⟩
  rw [NotificationLog.push, if_neg (by omega)]

namespace HasLimit

variable {limit : Nat}

theorem push {log : NotificationLog} (h : HasLimit limit log) (n : Notification) : HasLimit limit (log.push n) := by
  obtain ⟨hlimit, hle, -⟩ := h
  refine hasLimit_of_le ((log.limit_push n).trans hlimit) fun hne => ?_
  have hentries := hle hne
  rw [NotificationLog.length_push]
  split <;> omega

theorem dispatch {s : Store} (h : HasLimit limit s.notifications) (a : Action) :
    HasLimit limit (s.dispatch a).notifications := by
  cases a with
  | notify n => exact h.push n
  | clearNotifications => exact hasLimit_of_le h.limit_eq fun _ => Nat.zero_le _
  | _ => exact h

theorem step {s s' : Scene} {x : Option Occurrence} (h : HasLimit limit s.store.notifications) (st : s.Step x s') :
    HasLimit limit s'.store.notifications := by
  cases st with
  | edited e => exact h.dispatch e.action
  | resumed cause stood =>
    cases cause with
    | changes w => exact h.dispatch w.action
    | _ => exact h
  | _ => exact h

/-- Nothing but an action on the store changes its log. -/
theorem undergo {d : Desk} (h : HasLimit limit d.store.notifications) (hd : d.Orderly) (stroke : Stroke) :
    HasLimit limit (d.undergo stroke).store.notifications := by
  cases stroke with
  | event e => exact h.step (scene_perform hd e)
  | drop name =>
    rw [Desk.undergo, store_abort]
    exact h

end HasLimit

theorem HasLimit.undergoes {limit : Nat} {d : Desk} (h : HasLimit limit d.store.notifications) (hd : d.Orderly)
    (strokes : List Stroke) : HasLimit limit (strokes.foldl Desk.undergo d).store.notifications := by
  induction strokes generalizing d with
  | nil => exact h
  | cons stroke strokes ih => exact ih (h.undergo hd stroke) (hd.undergo stroke)

/-! ## Desks of settings -/

/-- A desk as it is opened: it has what the settings say, and nothing goes on at it yet. -/
structure Fresh (s : Settings) (d : Desk) : Prop where
  identity : d.store.identity = ⟨s.channel, s.userName, s.userId⟩
  language : Catalog.Language.ofText? s.language = some d.store.language
  voice : Catalog.Voice.ofText? s.voice = some d.store.voice
  log : d.store.notifications = ⟨s.notificationLimit, []⟩
  selection : d.store.selectedId = none
  unconnected : d.store.agentConnected = false
  state : d.controller.state = .disconnected
  gate : d.controller.gate = .idle
  session : d.controller.session = none
  probe : d.controller.probe = none
  probes : d.probes = []
  tasks : d.tasks = []

/-- What opening a desk with settings comes to, and what stays so after anything that happens then. -/
structure Wired (s : Settings) : Prop where
  opens : (∃ d, ofSettings s = .ok d) ↔ ∀ x ∈ s.demands, x.met
  refuses : ∀ e, ofSettings s = .error e ↔ FirstUnmet s.demands e
  fresh : ∀ d, ofSettings s = .ok d → Fresh s d
  limit : ∀ d, ofSettings s = .ok d → ∀ strokes : List Stroke,
    HasLimit s.notificationLimit (strokes.foldl undergo d).store.notifications
  period : ∀ d, ofSettings s = .ok d → ∀ (strokes : List Stroke) (stroke : Stroke),
    OnPeriod (max s.pingIntervalMs 100) (strokes.foldl undergo d) stroke
  uncut : ∀ d, ofSettings s = .ok d → 0 < max s.pingIntervalMs 100 ∧ max s.pingIntervalMs 100 ≤ longestPeriodMs

theorem fresh_of_ofSettings {s : Settings} {d : Desk} (h : ofSettings s = .ok d) : Fresh s d := by
  obtain ⟨-, l, v, hl, hv, rfl⟩ := (ofSettings_eq_ok_iff s d).1 h
  exact ⟨rfl, hl, hv, rfl, rfl, rfl, rfl, rfl, rfl, rfl, rfl, rfl⟩

theorem steady_of_ofSettings {s : Settings} {d : Desk} (h : ofSettings s = .ok d) :
    Steady s.pingIntervalMs d := by
  obtain ⟨-, l, v, -, -, rfl⟩ := (ofSettings_eq_ok_iff s d).1 h
  exact ⟨rfl, rfl, nofun⟩

theorem interval_of_ofSettings {s : Settings} {d : Desk} (h : ofSettings s = .ok d) :
    s.pingIntervalMs ≤ longestPeriodMs :=
  (told_ofSettings s).ok_iff.1 ⟨d, h⟩ ⟨s.pingIntervalMs ≤ 3600000, .tooLarge "PING_INTERVAL_MS" 3600000⟩
    (by simp [demands])

/-- **A desk is opened exactly if the settings meet every demand, and else the first that is unmet is blamed.** It
begins as they say; and whatever happens at it, its log keeps their limit, and every probe that it starts ticks with
their interval, or with the shortest period if that is longer. -/
theorem ofSettings_wired (s : Settings) : Wired s := by
  refine ⟨(told_ofSettings s).ok_iff, (told_ofSettings s).error_iff, fun d h => fresh_of_ofSettings h,
    fun d h strokes => ?_, fun d h strokes stroke => ?_, fun d h => ?_⟩
  · have hd : d.Orderly := by
      obtain ⟨o, rfl⟩ := exists_opening h
      exact o.orderly []
    refine HasLimit.undergoes ?_ hd strokes
    rw [(fresh_of_ofSettings h).log]
    exact hasLimit_of_le rfl fun _ => Nat.zero_le _
  · have hsteady := ((steady_of_ofSettings h).undergoes strokes).onPeriod stroke
    rw [clampPeriod_eq (interval_of_ofSettings h)] at hsteady
    exact hsteady
  · have hinterval := interval_of_ofSettings h
    have hshortest : 100 ≤ longestPeriodMs := by decide
    omega

/-- Settings with an interval shorter than any period. -/
def hasty : Settings := { channel := "room-1", userId := 7, pingIntervalMs := 50 }

/-- A graph is chosen and a session started; another action is dropped meanwhile. -/
def hastyRun : List Stroke :=
  .event (.edit ⟨.selectGraph (some "va_openai_azure"), fun _ h => by cases h⟩) ::
    .event (.begin (.command "other") .check) :: .drop "other" :: .event (.begin .lookout .connect) ::
      List.replicate 6 (.event (.move 1))

theorem hasty_wired :
    ∃ d, ofSettings hasty = .ok d ∧ d.store.identity = ⟨"room-1", "", 7⟩ ∧
      ∃ p, (hastyRun.foldl undergo d).probes = [p] ∧ p.periodMs = 100 ∧
        Ticks 100 0 p.phase (.waiting 100) := by
  have hopen : ofSettings hasty = .ok
      { controller := { pingIntervalMs := 50 }, store := hasty.initialStore .english .male } := rfl
  have hwired := ofSettings_wired hasty
  have hperiod := hwired.period _ hopen hastyRun (.event (.probe 0))
  have hticks := hperiod.ticks ⟨0, "room-1", 100, .fresh⟩ (List.mem_singleton_self _)
    ⟨0, "room-1", 100, .waiting 100⟩ (List.mem_singleton_self _) rfl
  exact ⟨_, hopen, (hwired.fresh _ hopen).identity, _, rfl, hperiod.has _ (List.mem_singleton_self _), hticks⟩

end AgentDesk.Desk
