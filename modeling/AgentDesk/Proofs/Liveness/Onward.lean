import AgentDesk.Proofs.Liveness.Rest

/-! # There is always another ping

Wherever a probe rests, it is one wait nearer to its next ping when the wait is over (`Rests.exists_nearer`), whatever
its pings are answered. So if the server lets go what it keeps and time passes, the pings go on. -/
namespace AgentDesk.Desk
open Session Liveness

/-- How far a probe is from its next ping. -/
def toNext : Phase → Nat
  | .pinging _ .ready => 1
  | .waiting _ => 2
  | .pinging _ .answering => 3
  | .fresh => 3
  | .pinging _ .delayed => 4
  | .pinging _ .heard => 5
  | .pinging _ .held => 6

/-- More pings have been sent, or the next is nearer. -/
def Nearer (pings far : Nat) (d : Desk) : Prop :=
  pings < d.calls.length ∨ pings ≤ d.calls.length ∧ ∃ p, d.probes = [p] ∧ toNext p.phase < far

theorem Nearer.trans {pings far : Nat} {d d' : Desk} {p : Probe} (hp : d.probes = [p])
    (h : d.Nearer pings far) (h' : d'.Nearer d.calls.length (toNext p.phase)) : d'.Nearer pings far := by
  have hle : d.calls.length ≤ d'.calls.length := by
    rcases h' with hmore | ⟨hle, -⟩
    · exact Nat.le_of_lt hmore
    · exact hle
  rcases h with hmore | ⟨hsame, p', hp', hfar⟩
  · exact .inl (Nat.lt_of_lt_of_le hmore hle)
  · obtain rfl : p = p' := by simpa using hp.symm.trans hp'
    rcases h' with hmore | ⟨-, p'', hp'', hfar'⟩
    · exact .inl (Nat.lt_of_le_of_lt hsame hmore)
    · exact .inr ⟨Nat.le_trans hsame hle, p'', hp'', Nat.lt_trans hfar' hfar⟩

/-- A tick is nearer to the next ping than any answer. -/
theorem lt_toNext_of_isReady {server : Server} {progress : Progress} (h : server.isReady progress = true) (next : Nat) :
    2 < toNext (.pinging next progress) := by
  cases progress with
  | heard => exact Nat.lt_of_sub_eq_succ rfl
  | answering => exact Nat.lt_succ_self 2
  | _ => cases h

/-- A probe that is called up sends its ping with its next move, or comes nearer to it. -/
theorem Called.nearer_beat {d : Desk} {p : Probe} (h : d.Called p) {result : Desk × Bool} (hbeat : Beat d p result) :
    result.1.Nearer d.calls.length (toNext p.phase) := by
  have hgo := h.goes_on
  have hone {q : Probe} (hq : p.serial = q.serial) : (d.setProbe q).probes = [q] := probes_setProbe h.probe hq
  have hsends (request : Wire.Request) : d.calls.length < (d.calls ++ [request]).length := by simp
  cases hbeat with
  | sets fresh =>
    rw [fresh]
    exact .inr ⟨Nat.le_refl _, _, hone rfl, Nat.lt_succ_self 2⟩
  | early waits later =>
    rw [waits] at hgo
    exact absurd hgo (Nat.not_le_of_lt later)
  | ticks waits past =>
    rw [waits]
    exact .inr ⟨Nat.le_refl _, _, hone rfl, Nat.lt_succ_self 1⟩
  | kept sends keeps => exact .inl (hsends _)
  | heard sends lets => exact .inl (hsends _)
  | delayed hears slow =>
    rw [hears]
    exact .inr ⟨Nat.le_refl _, _, hone rfl, Nat.lt_succ_self 4⟩
  | bides pings stays =>
    rw [pings] at hgo
    rcases stays with rfl | rfl
    · exact hgo.elim
    · exact hgo.elim
  | @answered next progress pings ready later =>
    rw [pings]
    exact .inr ⟨Nat.le_refl _, _, hone rfl, lt_toNext_of_isReady ready next⟩
  | @late next progress pings ready past =>
    rw [pings]
    exact .inr ⟨Nat.le_refl _, _, hone rfl, Nat.lt_trans (Nat.lt_succ_self 1) (lt_toNext_of_isReady ready next)⟩

theorem Called.nearer_runProbe {d : Desk} {p : Probe} (h : d.Called p) {moves : Nat}
    (hmoves : movesLeft d.clock p.phase < moves) :
    (runProbe moves 0 d).Nearer d.calls.length (toNext p.phase) := by
  induction moves generalizing d p with
  | zero => cases hmoves
  | succ moves ih =>
    have hbeat := stepProbe_beat d p
    have hnext := h.beat hbeat
    have hnearer := h.nearer_beat hbeat
    simp only [runProbe, probe?_of_probes h.probe h.serial]
    generalize d.stepProbe p = result at hnext hnearer ⊢
    obtain ⟨d', more⟩ := result
    cases more with
    | true =>
      obtain ⟨p', hcalled, hleft⟩ := hnext
      exact hnearer.trans hcalled.probe (ih hcalled (by omega))
    | false => exact hnearer

/-- What is waited for: the server lets go the pings that it keeps, or time passes. -/
inductive Treatment.IsWait : Treatment → Prop
  | release : IsWait (.release .ping)
  | advance (ms : Nat) : IsWait (.advance ms)

/-- Time that passes up to the next timer ends with its strike. -/
theorem Rests.advance_strike {d : Desk} (h : d.Rests) {due : Nat} (hdue : d.nextDue? = some due) :
    d.advance (due - d.clock) = (d.strike due).settle := by
  have hlater := (nextDue?_eq_some h hdue).2
  have hrests := (h.strike hdue).1
  have hclock : (d.strike due).settle.clock = due :=
    ((clock_settle _).trans (clock_wakeAll _ _)).trans (Nat.max_eq_right (Nat.le_of_lt hlater))
  have htarget : d.clock + (due - d.clock) = due := by omega
  have hstay : { (d.strike due).settle with clock := due } = (d.strike due).settle := by
    generalize (d.strike due).settle = d' at hclock
    subst hclock
    rfl
  show advanceTo (due - d.clock + 1 + 1) (d.clock + (due - d.clock)) d = _
  rw [htarget, advanceTo, hdue]
  simp only [Nat.le_refl, if_true]
  rw [advanceTo]
  split
  · next due' hdue' =>
    have hlater' := (nextDue?_eq_some hrests hdue').2
    rw [if_neg (by omega), hstay]
  · exact hstay

theorem Called.nearer_settle {d : Desk} {p : Probe} (h : Called { d with ready := [] } p)
    (hready : d.ready = [.probe 0]) : d.settle.Nearer d.calls.length (toNext p.phase) := by
  rw [h.settle hready]
  exact h.nearer_runProbe h.enough

/-- What wakes a probe brings it no further from its next ping. -/
theorem toNext_woken (p : Probe) : toNext p.woken.phase ≤ toNext p.phase := by
  obtain ⟨_, _, _, phase⟩ := p
  cases phase with
  | fresh => exact Nat.le_refl _
  | waiting due => exact Nat.le_refl _
  | pinging next progress =>
    cases progress with
    | held => exact Nat.le_succ 5
    | delayed => exact Nat.le_succ 3
    | _ => exact Nat.le_refl _

theorem Nearer.mono {pings far far' : Nat} {d : Desk} (h : d.Nearer pings far) (hle : far ≤ far') :
    d.Nearer pings far' := by
  rcases h with hmore | ⟨hsame, p, hp, hfar⟩
  · exact .inl hmore
  · exact .inr ⟨hsame, p, hp, Nat.lt_of_lt_of_le hfar hle⟩

/-- A probe that rests is nearer to its next ping when its wait is over, or has sent it. -/
theorem Rests.exists_nearer {d : Desk} {p : Probe} (h : d.Rests) (hp : d.probes = [p]) :
    ∃ t : Treatment, t.IsWait ∧ (d.treat t).Nearer d.calls.length (toNext p.phase) := by
  obtain ⟨p', hhosts, hawaits⟩ := id h
  obtain rfl : p = p' := by simpa using hp.symm.trans hhosts.probe
  rcases h.timers with htimers | ⟨due, htimers, hlater⟩
  · obtain ⟨_, _, _, phase⟩ := p
    cases hawaits with
    | tick timers _ _ => rw [htimers] at timers; cases timers
    | answer timers _ _ => rw [htimers] at timers; cases timers
    | release timers kept =>
      obtain ⟨hcalled, hready⟩ := hhosts.called_release rfl timers kept
      have hnearer := hcalled.nearer_settle hready
      refine ⟨.release .ping, .release, ?_⟩
      show (d.release .ping).settle.Nearer _ _
      rw [release_eq_wake kept] at hnearer ⊢
      exact hnearer.mono (toNext_woken _)
  · obtain ⟨hcalled, hready, -⟩ := hhosts.called_strike hawaits htimers hlater
    have hnearer := hcalled.nearer_settle hready
    have hdue : d.nextDue? = some due := by rw [nextDue?, htimers]; rfl
    refine ⟨.advance (due - d.clock), .advance _, ?_⟩
    show (d.advance (due - d.clock)).Nearer _ _
    rw [h.advance_strike hdue]
    rw [strike_eq_wake htimers hlater] at hnearer ⊢
    exact hnearer.mono (toNext_woken p)

/-- The server lets go what it keeps and time passes, and another ping is sent. -/
theorem Rests.exists_ping {d : Desk} (h : d.Rests) :
    ∃ ts : List Treatment, (∀ t ∈ ts, t.IsWait) ∧ d.calls.length < (ts.foldl Desk.treat d).calls.length := by
  suffices ∀ far d p, d.Rests → d.probes = [p] → toNext p.phase = far →
      ∃ ts : List Treatment, (∀ t ∈ ts, t.IsWait) ∧ d.calls.length < (ts.foldl Desk.treat d).calls.length by
    obtain ⟨p, hhosts, -⟩ := id h
    exact this _ d p h hhosts.probe rfl
  intro far
  induction far using Nat.strongRecOn with
  | ind far ih =>
    intro d p h hp hfar
    obtain ⟨t, ht, hnearer⟩ := h.exists_nearer hp
    rcases hnearer with hmore | ⟨hsame, p', hp', hless⟩
    · exact ⟨[t], List.forall_mem_singleton.mpr ht, hmore⟩
    · obtain ⟨ts, hts, hmore⟩ := ih _ (hfar ▸ hless) (d.treat t) p' (h.treat t).1 hp' rfl
      exact ⟨t :: ts, List.forall_mem_cons.mpr ⟨ht, hts⟩, Nat.lt_of_le_of_lt hsame hmore⟩

end AgentDesk.Desk
