import Mathlib.Algebra.Group.Basic
import PzServer.Watchdog.Idle

/-!
# When the watchdog restarts the service

A management outage is a tick whose observation is unknown while the service is unhealthy or
stopped. The engine remembers when the present outage began, in a field that four places of the
source clear. The law below does without the field: a tick restarts the service exactly when the
block of outage ticks that ends with it, and that no restart interrupts, is as old as the policy
asks.

`tickOn_outage` is the only place where the engine is run; the field is then the first tick since
the last reset, by the rule for such fields.

## Main results

* `restart_law` — the exact condition for a restart, for every sequence of inputs
-/

namespace PzServer

namespace Watchdog

open Interaction

variable {T : Type}

/-! ### Outages and restarts -/

/-- The observation is unknown and the service unhealthy or stopped. -/
def Outage (i : TickInput T) : Prop :=
  i.observation.isUnknown = true ∧ i.health ∈ [ServiceHealth.unhealthy, .stopped]

instance (i : TickInput T) : Decidable (Outage i) :=
  inferInstanceAs (Decidable (_ = true ∧ _ ∈ _))

/-- `service.restart` was called. -/
def Restarts (asked : List (AskedEngine T)) : Prop := .restart ∈ effects asked

/-- The state carries no idle progress at all. -/
structure WatchdogState.Idleless (s : WatchdogState T) : Prop where
  emptySince : s.emptySince = none
  lastProgressAt : s.lastProgressAt = none
  dryRunReported : s.dryRunReported = false

section Tick

variable [LinearOrder T] [Zero T] [Sub T] {p : WatchdogPolicy T} {i : TickInput T}
  {s : WatchdogState T} {t : T}

/-! ### One tick -/

/-- The outage timer of a state that an idle tick leaves: none of its steps sets it. -/
theorem follow_handleEmpty_failure (hs : s.managementFailureSince = none) :
    ((handleEmpty p i.now s).follow i.script
      [⟨.query, i.observation⟩]).1.managementFailureSince = none := by
  obtain ⟨emptySince, failureSince, progressAt, reported⟩ := s
  obtain rfl : failureSince = none := hs
  cases emptySince with
  | none => rfl
  | some t =>
    have hnote : (noteProgress p i.now ⟨some t, none, progressAt, reported⟩).managementFailureSince
        = none := by
      rw [noteProgress]
      split <;> rfl
    rw [handleEmpty]
    dsimp only
    split
    · exact hnote
    · obtain ⟨-, -, hstate⟩ := follow_finalShutdownValidation (p := p) (i := i)
        (s := noteProgress p i.now ⟨some t, none, progressAt, reported⟩)
      rw [hstate]
      split <;> exact hnote

/-- A known zero restarts nothing. -/
theorem not_restarts_of_zero (hzero : i.observation.KnownZero) : ¬ Restarts (tickOn p i s).2 := by
  cases hs : s.emptySince with
  | none =>
    obtain ⟨-, -, hasked⟩ := tickOn_first (p := p) hzero hs
    rw [hasked]
    exact List.not_mem_nil
  | some t =>
    by_cases hwait : i.now - t < p.idleTimeoutSeconds ∨ s.dryRunReported = true
    · obtain ⟨-, -, hasked⟩ := tickOn_waiting hzero hs hwait
      rw [hasked]
      exact List.not_mem_nil
    · obtain ⟨hle, hdry⟩ : p.idleTimeoutSeconds ≤ i.now - t ∧ s.dryRunReported = false := by
        simpa using hwait
      obtain ⟨heffects, -⟩ := tickOn_due hzero hs hle hdry
      rw [Restarts, heffects]
      split
      · intro hmem
        cases List.mem_singleton.mp hmem
      · exact List.not_mem_nil

/-- Outside an outage nothing is restarted, and the timer is cleared. -/
theorem tickOn_quiet (h : ¬ Outage i) :
    ¬ Restarts (tickOn p i s).2 ∧ (tickOn p i s).1.managementFailureSince = none := by
  rcases i.observation.cases_count with ⟨hu, -⟩ | ⟨hu, hp, -⟩ | ⟨hu, hp, hzero⟩
  · have hhealth : i.health ∉ [ServiceHealth.unhealthy, .stopped] := fun hh => h ⟨hu, hh⟩
    rw [tickOn_eq, if_pos hu, handleUnknown, Program.follow_bind, Program.follow_request]
    dsimp only
    rw [if_pos (show i.script _ .health ∉ _ from hhealth)]
    exact ⟨List.not_mem_nil, rfl⟩
  · rw [tickOn_eq, if_neg (by simp [hu]), if_pos hp]
    exact ⟨List.not_mem_nil, rfl⟩
  · refine ⟨not_restarts_of_zero hzero, ?_⟩
    rw [tickOn_of_zero hzero]
    exact follow_handleEmpty_failure rfl

/-- What an outage does to the timer, and when it restarts. -/
theorem tickOn_outage (h : Outage i) : (tickOn p i s) =
    match s.managementFailureSince with
    | none => ({ s.resetEmpty with managementFailureSince := some i.now },
        [⟨.health, i.health⟩, ⟨.query, i.observation⟩])
    | some t =>
      if i.now - t < p.healthFailureTimeoutSeconds then
        (s.resetEmpty, [⟨.health, i.health⟩, ⟨.query, i.observation⟩])
      else
        ({ s.resetEmpty with managementFailureSince := none },
          [⟨.restart, i.restarted⟩, ⟨.health, i.health⟩, ⟨.query, i.observation⟩]) := by
  obtain ⟨hu, hhealth⟩ := h
  rw [tickOn_eq, if_pos hu, handleUnknown, Program.follow_bind, Program.follow_request]
  dsimp only
  rw [if_neg (show ¬ i.script _ .health ∉ _ from not_not_intro hhealth)]
  obtain ⟨emptySince, failureSince, progressAt, reported⟩ := s
  cases failureSince with
  | none => rfl
  | some t =>
    dsimp only [WatchdogState.resetEmpty]
    split <;> rfl

/-- **One tick.** When it restarts, and what it leaves in the timer. -/
theorem tickOn_restart :
    (Restarts (tickOn p i s).2 ↔ Outage i ∧ ∃ t, s.managementFailureSince = some t ∧
      p.healthFailureTimeoutSeconds ≤ i.now - t) ∧
    (Restarts (tickOn p i s).2 → (tickOn p i s).1.managementFailureSince = none ∧
      (tickOn p i s).1.Idleless) ∧
    (Outage i → ¬ Restarts (tickOn p i s).2 →
      (tickOn p i s).1.managementFailureSince = some (s.managementFailureSince.getD i.now)) := by
  by_cases h : Outage i
  · have hquiet : ¬ Restarts [(⟨.health, i.health⟩ : AskedEngine T), ⟨.query, i.observation⟩] :=
      List.not_mem_nil
    rw [tickOn_outage h]
    cases hs : s.managementFailureSince with
    | none =>
      refine ⟨iff_of_false hquiet ?_, fun hx => absurd hx hquiet, fun _ _ => rfl⟩
      rintro ⟨-, _, ht, -⟩
      cases ht
    | some t =>
      by_cases hwait : i.now - t < p.healthFailureTimeoutSeconds
      · dsimp only
        rw [if_pos hwait]
        refine ⟨iff_of_false hquiet ?_, fun hx => absurd hx hquiet, fun _ _ => hs⟩
        rintro ⟨-, t', ht, hle⟩
        obtain rfl : t = t' := Option.some.inj ht
        exact absurd hwait (not_lt.mpr hle)
      · dsimp only
        rw [if_neg hwait]
        have hrestarts : Restarts [(⟨.restart, i.restarted⟩ : AskedEngine T), ⟨.health, i.health⟩,
            ⟨.query, i.observation⟩] := List.mem_cons_self
        exact ⟨iff_of_true hrestarts ⟨h, t, rfl, not_lt.mp hwait⟩,
          fun _ => ⟨rfl, rfl, rfl, rfl⟩, fun _ hno => absurd hrestarts hno⟩
  · obtain ⟨hno, -⟩ := tickOn_quiet (p := p) (s := s) h
    exact ⟨iff_of_false hno fun hx => h hx.1, fun hx => absurd hx hno, fun hx => absurd hx h⟩

end Tick

/-! ### The law -/

section Law

variable [AddGroup T] [LinearOrder T] (p : WatchdogPolicy T) (input : ℕ → TickInput T)

/-- `service.restart` is called in tick `n`. -/
def RestartsAt (n : ℕ) : Prop := Restarts (askedAt p input n)

/-- The ticks from `s` to `n` are the longest run of outages that ends with tick `n` and has no
restart in it before tick `n`. -/
structure OutageBlock (s n : ℕ) : Prop where
  le : s ≤ n
  outage : ∀ k, s ≤ k → k ≤ n → Outage (input k)
  afterRestart : ∀ k, s ≤ k → k < n → ¬ RestartsAt p input k
  /-- The tick before it is no outage, or it restarted. -/
  maximal : ∀ k, k + 1 = s → ¬ Outage (input k) ∨ RestartsAt p input k

/-- Tick `s` is where the outage timer began that is running before tick `n`. -/
def OutageSince (s n : ℕ) : Prop :=
  FirstSince (fun j => Outage (input j)) (fun j => ¬ Outage (input j) ∨ RestartsAt p input j) s n

variable {p input} {s n : ℕ}

theorem OutageSince.block (h : OutageSince p input s n) (hn : Outage (input n)) :
    OutageBlock p input s n where
  le := h.lt.le
  outage k hs hk := by
    rcases hk.lt_or_eq with hlt | rfl
    · by_contra hno
      exact h.lasting k hs hlt (.inl hno)
    · exact hn
  afterRestart k hs hk hx := h.lasting k hs hk (.inr hx)
  maximal k hk := by
    by_contra hno
    rw [not_or, not_not] at hno
    obtain ⟨r, hle, hlt, hr⟩ := h.first k (by omega) hno.1
    obtain rfl : r = k := by omega
    rcases hr with hr | hr
    · exact hr hno.1
    · exact hno.2 hr

theorem OutageBlock.since (h : OutageBlock p input s n) (hlt : s < n) :
    OutageSince p input s n where
  lt := hlt
  holds := h.outage s le_rfl h.le
  lasting j hs hj := by
    rintro (hno | hx)
    · exact hno (h.outage j hs hj.le)
    · exact h.afterRestart j hs hj hx
  first j hj _ := by
    obtain ⟨k, rfl⟩ : ∃ k, s = k + 1 := ⟨s - 1, by omega⟩
    exact ⟨k, by omega, by omega, h.maximal k rfl⟩

/-- **The timer is a summary of the inputs.** -/
theorem managementFailureSince_eq (n : ℕ) :
    ((∀ s, ¬ OutageSince p input s n) → (stateAt p input n).managementFailureSince = none) ∧
    ∀ s, OutageSince p input s n →
      (stateAt p input n).managementFailureSince = some (input s).now := by
  induction n with
  | zero => exact ⟨fun _ => rfl, fun s h => absurd h.lt (Nat.not_lt_zero s)⟩
  | succ n ih =>
    obtain ⟨-, hrestart, hkeep⟩ :=
      tickOn_restart (p := p) (i := input n) (s := stateAt p input n)
    by_cases hR : ¬ Outage (input n) ∨ RestartsAt p input n
    · refine ⟨fun _ => ?_, fun s h => absurd hR (firstSince_succ.mp h).1⟩
      rcases hR with hno | hx
      · exact (tickOn_quiet hno).2
      · exact (hrestart hx).1
    · obtain ⟨hn, hx⟩ : Outage (input n) ∧ ¬ RestartsAt p input n := by
        rwa [not_or, not_not] at hR
      have hnext := hkeep hn hx
      by_cases hex : ∃ s, OutageSince p input s n
      · obtain ⟨s, hs⟩ := hex
        have hs' : OutageSince p input s (n + 1) := firstSince_succ.mpr ⟨hR, .inl hs⟩
        refine ⟨fun h => absurd hs' (h s), fun s' h' => ?_⟩
        obtain rfl := hs'.unique h'
        rw [ih.2 s hs] at hnext
        exact hnext
      · have hnone : ∀ s, ¬ OutageSince p input s n := not_exists.mp hex
        have hs' : OutageSince p input n (n + 1) := firstSince_succ.mpr ⟨hR, .inr ⟨rfl, hn, hnone⟩⟩
        refine ⟨fun h => absurd hs' (h n), fun s' h' => ?_⟩
        obtain rfl := hs'.unique h'
        rw [ih.1 hnone] at hnext
        exact hnext

/-- **The exact restart law.** For every policy and every sequence of inputs, `service.restart` is
called in tick `n` if and only if the tick is an outage and the block of outages that ends with it,
and begins after the last restart, is at least as old as the failure timeout; no tick both restarts
the service and shuts down, and after a restart there is no idle progress. -/
theorem restart_law (p : WatchdogPolicy T) (input : ℕ → TickInput T) (n : ℕ) :
    (RestartsAt p input n ↔ Outage (input n) ∧ ∃ j, OutageBlock p input j n ∧
      p.healthFailureTimeoutSeconds ≤ (input n).now - (input j).now) ∧
    ¬ (RestartsAt p input n ∧ ExecutesAt p input n) ∧
    (RestartsAt p input n → (stateAt p input (n + 1)).Idleless) := by
  obtain ⟨hrestarts, hidle, -⟩ :=
    tickOn_restart (p := p) (i := input n) (s := stateAt p input n)
  obtain ⟨hnone, hsome⟩ := @managementFailureSince_eq _ _ _ p input n
  refine ⟨?_, ?_, fun h => (hidle h).2⟩
  · constructor
    · intro hx
      obtain ⟨hn, t, ht, hle⟩ := hrestarts.mp hx
      have hex : ∃ s, OutageSince p input s n := by
        by_contra hno
        rw [hnone (not_exists.mp hno)] at ht
        cases ht
      obtain ⟨s, hs⟩ := hex
      rw [hsome s hs] at ht
      obtain rfl : (input s).now = t := Option.some.inj ht
      exact ⟨hn, s, hs.block hn, hle⟩
    · rintro ⟨hn, j, hblock, hle⟩
      refine hrestarts.mpr ⟨hn, (input j).now, hsome j (hblock.since ?_), hle⟩
      -- a block of one tick has no age
      refine hblock.le.lt_of_ne fun heq => ?_
      subst heq
      rw [sub_self] at hle
      exact absurd p.health_pos (not_lt.mpr hle)
  · rintro ⟨hrestart, hexecute⟩
    obtain ⟨-, -, hexecutes, -⟩ :=
      tickOn_idle (p := p) (i := input n) (s := stateAt p input n)
    exact not_restarts_of_zero (hexecutes.mp hexecute).1 hrestart

end Law

end Watchdog

end PzServer
