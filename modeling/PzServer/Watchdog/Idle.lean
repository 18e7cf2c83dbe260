import Mathlib.Order.MinMax
import PzServer.Interaction.FirstSince
import PzServer.Watchdog.Engine

/-!
# When the watchdog shuts down

The engine keeps four fields; what it is for can be said without them. The inputs of a run are the
time, the observations, the health and the outcomes of every tick. `shutdown.execute` is called in
a tick if and only if the server was empty, without a reset, since a tick that is at least the idle
timeout ago, no dry run was reported since, and every final check of the tick finds it empty too.

`tickOn_idle` is the only place where the engine is run; the law is an induction over it.

## Main results

* `idle_law` — the exact condition for a shutdown, for every sequence of inputs
-/

namespace PzServer

namespace Watchdog

open Interaction

variable {T : Type}

/-! ### The inputs of a tick -/

/-- What the surroundings contribute to one tick. -/
structure TickInput (T : Type) where
  now : T
  /-- The tick's own query. -/
  observation : PlayerObservation
  /-- The delayed re-queries of the final validation. -/
  recheck : ℕ → PlayerObservation
  outcome : ShutdownOutcome
  health : ServiceHealth
  restarted : Bool

/-- What was asked of the components. -/
abbrev AskedEngine (T : Type) : Type := Asked (EngineRequest T) EngineReply

/-- The observation that was received, if it was a query. -/
def observed : AskedEngine T → Option PlayerObservation
  | ⟨.query, o⟩ => some o
  | _ => none

/-- The request, if it has an effect outside the watchdog. -/
def effect : AskedEngine T → Option (EngineRequest T)
  | ⟨.execute dryRun, _⟩ => some (.execute dryRun)
  | ⟨.restart, _⟩ => some .restart
  | _ => none

section Asked

variable (o : PlayerObservation) (t : T) (u : Unit) (dryRun : Bool) (r : ShutdownOutcome)

@[simp] theorem observed_query : observed (T := T) ⟨.query, o⟩ = some o := rfl

@[simp] theorem observed_sleep : observed ⟨.sleep t, u⟩ = none := rfl

@[simp] theorem observed_execute : observed (T := T) ⟨.execute dryRun, r⟩ = none := rfl

@[simp] theorem effect_query : effect (T := T) ⟨.query, o⟩ = none := rfl

@[simp] theorem effect_sleep : effect ⟨.sleep t, u⟩ = none := rfl

@[simp] theorem effect_execute :
    effect (T := T) ⟨.execute dryRun, r⟩ = some (.execute dryRun) := rfl

end Asked

namespace TickInput

/-- The answers of a tick: the first query receives the observation, the later ones the
re-checks. -/
def script (i : TickInput T) (past : List (AskedEngine T)) : (q : EngineRequest T) → EngineReply q
  | .query =>
    match (past.filterMap observed).length with
    | 0 => i.observation
    | n + 1 => i.recheck n
  | .health => i.health
  | .restart => i.restarted
  | .execute _ => i.outcome
  | .sleep _ => ()

end TickInput

/-! ### A run -/

variable [LinearOrder T] [Zero T] [Sub T]

/-- One tick: the next state, and what was asked, newest first. -/
def tickOn (p : WatchdogPolicy T) (i : TickInput T) (s : WatchdogState T) :
    WatchdogState T × List (AskedEngine T) :=
  (tick p i.now s).follow i.script []

/-- The state before tick `n`. -/
def stateAt (p : WatchdogPolicy T) (input : ℕ → TickInput T) : ℕ → WatchdogState T
  | 0 => {}
  | n + 1 => (tickOn p (input n) (stateAt p input n)).1

/-- What tick `n` asked. -/
def askedAt (p : WatchdogPolicy T) (input : ℕ → TickInput T) (n : ℕ) : List (AskedEngine T) :=
  (tickOn p (input n) (stateAt p input n)).2

/-- The calls of `restart` and `execute` in a tick. -/
def effects (asked : List (AskedEngine T)) : List (EngineRequest T) := asked.filterMap effect

/-- The observations of the final validation: all but the first. -/
def rechecks (asked : List (AskedEngine T)) : List PlayerObservation :=
  (asked.filterMap observed).dropLast

/-- `shutdown.execute` was called. -/
def Executes (asked : List (AskedEngine T)) : Prop :=
  ∃ dryRun, .execute dryRun ∈ effects asked

/-- The tick ends every idle interval: its own observation is unknown or positive, or its final
validation met an unknown or positive count, or its shutdown was no dry run. -/
def Resets (i : TickInput T) (asked : List (AskedEngine T)) : Prop :=
  ¬ i.observation.KnownZero ∨ (∃ o ∈ rechecks asked, ¬ o.KnownZero) ∨
    Executes asked ∧ i.outcome ≠ .dryRun

/-! ### The final validation -/

section Tick

variable {p : WatchdogPolicy T} {i : TickInput T} {s : WatchdogState T}
  {past : List (AskedEngine T)}

/-- The two questions of the check that receives re-check `k`. -/
def checked (p : WatchdogPolicy T) (i : TickInput T) (k : ℕ) : List (AskedEngine T) :=
  [⟨.query, i.recheck k⟩, ⟨.sleep p.finalCheckDelaySeconds, ()⟩]

omit [Sub T] in
/-- One check: the validation goes on exactly at a known zero. -/
theorem follow_finalChecks_succ (n k : ℕ) (hpast : (past.filterMap observed).length = k + 1) :
    (finalChecks p (n + 1)).follow i.script past =
      if (i.recheck k).KnownZero then (finalChecks p n).follow i.script (checked p i k ++ past)
      else (false, checked p i k ++ past) := by
  have hquery : i.script (⟨.sleep p.finalCheckDelaySeconds, ()⟩ :: past) .query = i.recheck k := by
    simp [TickInput.script, List.filterMap_cons, hpast]
  rw [finalChecks, Program.follow_bind, Program.follow_request, Program.follow_bind,
    Program.follow_request]
  dsimp only
  rw [show i.script past (.sleep p.finalCheckDelaySeconds) = () from rfl, hquery]
  rcases (i.recheck k).cases_count with ⟨hu, hz⟩ | ⟨hu, hp, hz⟩ | ⟨hu, hp, hz⟩
  · rw [if_pos hu, if_neg hz]
    rfl
  · rw [if_neg (by simp [hu]), if_pos hp, if_neg hz]
    rfl
  · rw [if_neg (by simp [hu]), if_neg (by simp [hp]), if_pos hz]
    rfl

omit [Sub T] in
/-- The loop of checks asks only for counts, up to the first that is not a known zero. -/
theorem follow_finalChecks (n : ℕ) : ∀ (k : ℕ) (past : List (AskedEngine T)),
    (past.filterMap observed).length = k + 1 →
    ∃ ok asked, (finalChecks p n).follow i.script past = (ok, asked ++ past) ∧
      effects asked = [] ∧
      (ok = true ↔ ∀ j < n, (i.recheck (k + j)).KnownZero) ∧
      ((∀ o ∈ asked.filterMap observed, o.KnownZero) ↔ ok = true) := by
  induction n with
  | zero => exact fun k past _ => ⟨true, [], rfl, rfl, by simp, by simp⟩
  | succ n ih =>
    intro k past hpast
    have hsplit : (∀ j < n + 1, (i.recheck (k + j)).KnownZero) ↔
        (i.recheck k).KnownZero ∧ ∀ j < n, (i.recheck (k + 1 + j)).KnownZero := by
      simp only [Nat.forall_lt_succ_left, Nat.add_zero, Nat.add_assoc, Nat.add_comm 1]
    rw [follow_finalChecks_succ n k hpast]
    by_cases hzero : (i.recheck k).KnownZero
    · obtain ⟨ok, asked, hfollow, heffects, hok, hobserved⟩ :=
        ih (k + 1) (checked p i k ++ past) (by simp [checked, List.filterMap_cons, hpast])
      refine ⟨ok, asked ++ checked p i k, ?_, ?_, ?_, ?_⟩
      · rw [if_pos hzero, hfollow, List.append_assoc]
      · simpa [effects, checked] using heffects
      · rw [hsplit, hok, and_iff_right hzero]
      · rw [← hobserved]
        simp [checked, hzero, or_imp, forall_and]
    · refine ⟨false, checked p i k, ?_, rfl, ?_, ?_⟩
      · rw [if_neg hzero]
      · rw [hsplit]
        exact iff_of_false (fun h => by cases h) fun h => hzero h.1
      · simp [checked, hzero]

/-! ### One tick -/

omit [LinearOrder T] [Zero T] [Sub T] in
theorem effects_append (a b : List (AskedEngine T)) :
    effects (a ++ b) = effects a ++ effects b := List.filterMap_append

/-- The state carries no idle interval. -/
structure WatchdogState.Fresh (s : WatchdogState T) : Prop where
  emptySince : s.emptySince = none
  dryRunReported : s.dryRunReported = false

omit [LinearOrder T] [Zero T] [Sub T] in
theorem WatchdogState.resetEmpty_fresh (s : WatchdogState T) : s.resetEmpty.Fresh := ⟨rfl, rfl⟩

/-- An unknown count: only the service is asked, and perhaps restarted. -/
theorem follow_handleUnknown (now : T) (past : List (AskedEngine T)) :
    ((handleUnknown p now s).follow i.script past).1.Fresh ∧
    ∃ asked, ((handleUnknown p now s).follow i.script past).2 = asked ++ past ∧
      (effects asked = [] ∨ effects asked = [.restart]) ∧ asked.filterMap observed = [] := by
  rw [handleUnknown]
  rw [Program.follow_bind, Program.follow_request]
  dsimp only
  split
  · exact ⟨⟨rfl, rfl⟩, [⟨.health, i.health⟩], rfl, .inl rfl, rfl⟩
  · split
    · exact ⟨⟨rfl, rfl⟩, [⟨.health, i.health⟩], rfl, .inl rfl, rfl⟩
    · split
      · exact ⟨⟨rfl, rfl⟩, [⟨.health, i.health⟩], rfl, .inl rfl, rfl⟩
      · exact ⟨⟨rfl, rfl⟩, [⟨.restart, i.restarted⟩, ⟨.health, i.health⟩], rfl, .inr rfl, rfl⟩

/-- A tick begins with its own query. -/
theorem tickOn_eq : tickOn p i s =
    (if i.observation.isUnknown then handleUnknown p i.now s
      else if i.observation.hasPlayers then
        return { s with managementFailureSince := none }.resetEmpty
      else handleEmpty p i.now { s with managementFailureSince := none }).follow i.script
        [⟨.query, i.observation⟩] := by
  rw [tickOn, tick, Program.follow_bind, Program.follow_request]
  rfl

/-- A tick that sees no known zero. -/
theorem tickOn_of_not_zero (h : ¬ i.observation.KnownZero) :
    (tickOn p i s).1.Fresh ∧ rechecks (tickOn p i s).2 = [] ∧
      (effects (tickOn p i s).2 = [] ∨ effects (tickOn p i s).2 = [.restart]) := by
  rw [tickOn_eq]
  rcases i.observation.cases_count with ⟨hu, -⟩ | ⟨hu, hp, -⟩ | ⟨-, -, hz⟩
  · rw [if_pos hu]
    obtain ⟨hfresh, asked, hasked, heffects, hobserved⟩ :=
      follow_handleUnknown (p := p) (i := i) (s := s) i.now [⟨.query, i.observation⟩]
    refine ⟨hfresh, ?_, ?_⟩
    · rw [hasked, rechecks, List.filterMap_append, hobserved]
      rfl
    · rw [hasked, effects_append]
      simpa [effects, List.filterMap_cons] using heffects
  · rw [if_neg (by simp [hu]), if_pos hp]
    exact ⟨⟨rfl, rfl⟩, rfl, .inl rfl⟩
  · exact absurd hz h

theorem tickOn_of_zero (h : i.observation.KnownZero) : tickOn p i s =
    (handleEmpty p i.now { s with managementFailureSince := none }).follow i.script
      [⟨.query, i.observation⟩] := by
  rw [tickOn_eq]
  rcases i.observation.cases_count with ⟨-, hz⟩ | ⟨-, -, hz⟩ | ⟨hu, hp, -⟩
  · exact absurd h hz
  · exact absurd h hz
  · rw [if_neg (by simp [hu]), if_neg (by simp [hp])]

/-- The first known zero starts the timer. -/
theorem tickOn_first (h : i.observation.KnownZero) (hs : s.emptySince = none) :
    (tickOn p i s).1.emptySince = some i.now ∧ (tickOn p i s).1.dryRunReported = false ∧
      (tickOn p i s).2 = [⟨.query, i.observation⟩] := by
  rw [tickOn_of_zero h, handleEmpty, hs]
  exact ⟨rfl, rfl, rfl⟩

/-- The final validation of this tick finds nobody. -/
def Confirmed (p : WatchdogPolicy T) (i : TickInput T) : Prop :=
  ∀ k < p.finalCheckCount - 1, (i.recheck k).KnownZero

instance : Decidable (Confirmed p i) :=
  inferInstanceAs (Decidable (∀ k < p.finalCheckCount - 1, (i.recheck k).KnownZero))

omit [Zero T] [Sub T] in
/-- The elapsed time is compared as if it were not cut off at zero. -/
theorem max_lt_pos_iff [Zero T] {a b : T} (hb : 0 < b) : max 0 a < b ↔ a < b := by
  rw [max_lt_iff, and_iff_right hb]

/-- The timer runs, and its time has not come, or a dry run was reported. -/
theorem tickOn_waiting {t : T} (h : i.observation.KnownZero) (hs : s.emptySince = some t)
    (hwait : i.now - t < p.idleTimeoutSeconds ∨ s.dryRunReported = true) :
    (tickOn p i s).1.emptySince = some t ∧
      (tickOn p i s).1.dryRunReported = s.dryRunReported ∧
      (tickOn p i s).2 = [⟨.query, i.observation⟩] := by
  rw [tickOn_of_zero h, handleEmpty, hs]
  dsimp only
  rw [if_pos (by simpa [max_lt_pos_iff p.idle_pos] using hwait)]
  exact ⟨by simp, by simp, rfl⟩

omit [LinearOrder T] [Zero T] [Sub T] in
theorem rechecks_append_own (asked : List (AskedEngine T)) (o : PlayerObservation) :
    rechecks (asked ++ [⟨.query, o⟩]) = asked.filterMap observed := by
  rw [rechecks, List.filterMap_append, show [(⟨.query, o⟩ : AskedEngine T)].filterMap observed = [o]
    from rfl, List.dropLast_concat]

omit [Sub T] in
/-- The final validation shuts down exactly when it finds nobody, and keeps the timer only after a
dry run. -/
theorem follow_finalShutdownValidation :
    let r := (finalShutdownValidation p s).follow i.script [⟨.query, i.observation⟩]
    effects r.2 = (if Confirmed p i then [.execute p.dryRun] else []) ∧
    ((∀ o ∈ rechecks r.2, o.KnownZero) ↔ Confirmed p i) ∧
    r.1 = if Confirmed p i ∧ i.outcome = .dryRun then { s with dryRunReported := true }
      else s.resetEmpty := by
  obtain ⟨ok, asked, hfollow, heffects, hok, hobserved⟩ :=
    follow_finalChecks (p := p) (i := i) (p.finalCheckCount - 1) 0 [⟨.query, i.observation⟩] rfl
  simp only [Nat.zero_add] at hok
  replace hok : ok = true ↔ Confirmed p i := hok
  have hasked : effects (asked ++ [⟨.query, i.observation⟩]) = [] := by
    rw [effects_append, heffects]
    rfl
  have hrechecks : (∀ o ∈ rechecks (asked ++ [⟨.query, i.observation⟩]), o.KnownZero) ↔
      Confirmed p i := by
    rw [rechecks_append_own, hobserved, hok]
  dsimp only
  rw [finalShutdownValidation, Program.follow_bind, hfollow]
  cases ok with
  | true =>
    have hconfirmed := hok.mp rfl
    -- the shutdown is one more call, and no query
    have hcall : ∀ r : ShutdownOutcome, rechecks (⟨.execute p.dryRun, r⟩ :: (asked ++
        [⟨.query, i.observation⟩])) = rechecks (asked ++ [⟨.query, i.observation⟩]) := fun _ => rfl
    rw [if_pos rfl, Program.follow_bind, Program.follow_request]
    dsimp only
    rw [if_pos hconfirmed]
    simp only [show i.script _ (.execute p.dryRun) = i.outcome from rfl]
    by_cases hdry : i.outcome = .dryRun
    · rw [if_pos hdry, if_pos ⟨hconfirmed, hdry⟩]
      exact ⟨congrArg (_ :: ·) hasked, hrechecks, rfl⟩
    · rw [if_neg hdry, if_neg fun h => hdry h.2]
      exact ⟨congrArg (_ :: ·) hasked, hrechecks, rfl⟩
  | false =>
    have hconfirmed : ¬ Confirmed p i := fun h => by simpa using hok.mpr h
    rw [if_neg (by simp), if_neg hconfirmed, if_neg fun h => hconfirmed h.1]
    exact ⟨hasked, hrechecks, rfl⟩

/-- The timer runs, its time has come, and no dry run was reported. -/
theorem tickOn_due {t : T} (h : i.observation.KnownZero) (hs : s.emptySince = some t)
    (hdue : p.idleTimeoutSeconds ≤ i.now - t) (hdry : s.dryRunReported = false) :
    effects (tickOn p i s).2 = (if Confirmed p i then [.execute p.dryRun] else []) ∧
    ((∀ o ∈ rechecks (tickOn p i s).2, o.KnownZero) ↔ Confirmed p i) ∧
    if Confirmed p i ∧ i.outcome = .dryRun then
      (tickOn p i s).1.emptySince = some t ∧ (tickOn p i s).1.dryRunReported = true
    else (tickOn p i s).1.Fresh := by
  have hnot : ¬ (max 0 (i.now - t) < p.idleTimeoutSeconds ∨ s.dryRunReported = true) := by
    simp [max_lt_pos_iff p.idle_pos, hdry, hdue]
  obtain ⟨emptySince, failureSince, progressAt, reported⟩ := s
  obtain rfl : emptySince = some t := hs
  rw [tickOn_of_zero h, handleEmpty]
  dsimp only
  rw [if_neg (by simpa using hnot)]
  obtain ⟨heffects, hrechecks, hstate⟩ := follow_finalShutdownValidation (p := p) (i := i)
    (s := noteProgress p i.now ⟨some t, none, progressAt, reported⟩)
  refine ⟨heffects, hrechecks, ?_⟩
  rw [hstate]
  split
  · exact ⟨by simp, rfl⟩
  · exact WatchdogState.resetEmpty_fresh _

/-! ### The law of one tick -/

omit [LinearOrder T] [Zero T] [Sub T] in
/-- A tick that asks for nothing but its own count, and finds nobody. -/
theorem quiet_of_asked (hzero : i.observation.KnownZero) {asked : List (AskedEngine T)}
    (hasked : asked = [⟨.query, i.observation⟩]) :
    ¬ Executes asked ∧ ¬ Resets i asked ∧ (effects asked).length ≤ 1 := by
  subst hasked
  refine ⟨nofun, ?_, Nat.zero_le 1⟩
  rintro (h | ⟨o, ho, -⟩ | ⟨⟨_, h⟩, -⟩)
  · exact h hzero
  · exact nomatch ho
  · exact nomatch h

/-- **One tick.** What it does to the idle interval, and when it shuts down. -/
theorem tickOn_idle :
    (Resets i (tickOn p i s).2 → (tickOn p i s).1.Fresh) ∧
    (¬ Resets i (tickOn p i s).2 → i.observation.KnownZero ∧
      (tickOn p i s).1.emptySince = some (s.emptySince.getD i.now) ∧
      ((tickOn p i s).1.dryRunReported = true ↔
        s.emptySince.isSome ∧ (s.dryRunReported = true ∨ Executes (tickOn p i s).2))) ∧
    (Executes (tickOn p i s).2 ↔ i.observation.KnownZero ∧ (∃ t, s.emptySince = some t ∧
      p.idleTimeoutSeconds ≤ i.now - t) ∧ s.dryRunReported = false ∧ Confirmed p i) ∧
    (effects (tickOn p i s).2).length ≤ 1 := by
  by_cases hzero : i.observation.KnownZero
  · cases hs : s.emptySince with
    | none =>
      obtain ⟨hsince, hdry, hasked⟩ := tickOn_first (p := p) hzero hs
      obtain ⟨hexecutes, hresets, hlength⟩ := quiet_of_asked hzero hasked
      refine ⟨fun h => absurd h hresets, fun _ => ⟨hzero, hsince, by simp [hdry]⟩, ?_, hlength⟩
      exact iff_of_false hexecutes fun ⟨_, ⟨_, h, _⟩, _⟩ => nomatch h
    | some t =>
      by_cases hwait : i.now - t < p.idleTimeoutSeconds ∨ s.dryRunReported = true
      · obtain ⟨hsince, hdry, hasked⟩ := tickOn_waiting hzero hs hwait
        obtain ⟨hexecutes, hresets, hlength⟩ := quiet_of_asked hzero hasked
        refine ⟨fun h => absurd h hresets, fun _ => ⟨hzero, hsince, ?_⟩, ?_, hlength⟩
        · simp [hdry, hexecutes]
        · refine iff_of_false hexecutes fun ⟨_, ⟨t', ht', hle⟩, hno, _⟩ => ?_
          obtain rfl : t = t' := Option.some.inj ht'
          rcases hwait with hlt | hyes
          · exact absurd hle (not_le.mpr hlt)
          · simp [hyes] at hno
      · obtain ⟨hle, hdry⟩ : p.idleTimeoutSeconds ≤ i.now - t ∧ s.dryRunReported = false := by
          simpa using hwait
        obtain ⟨heffects, hrechecks, hstate⟩ := tickOn_due hzero hs hle hdry
        by_cases hconfirmed : Confirmed p i
        · rw [if_pos hconfirmed] at heffects
          have hexecutes : Executes (tickOn p i s).2 := by simp [Executes, heffects]
          refine ⟨fun hresets => ?_, fun hresets => ?_, ?_, by simp [heffects]⟩
          · rw [if_neg] at hstate
            · exact hstate
            · rintro ⟨-, hdry'⟩
              rcases hresets with h | ⟨o, ho, h⟩ | ⟨-, h⟩
              · exact h hzero
              · exact h (hrechecks.mpr hconfirmed o ho)
              · exact h hdry'
          · have hdry' : i.outcome = .dryRun := by
              by_contra h
              exact hresets (.inr (.inr ⟨hexecutes, h⟩))
            rw [if_pos ⟨hconfirmed, hdry'⟩] at hstate
            exact ⟨hzero, hstate.1, by simp [hstate.2, hexecutes]⟩
          · exact iff_of_true hexecutes ⟨hzero, ⟨t, rfl, hle⟩, hdry, hconfirmed⟩
        · rw [if_neg hconfirmed] at heffects
          rw [if_neg fun h => hconfirmed h.1] at hstate
          have hresets : Resets i (tickOn p i s).2 := by
            by_contra h
            simp only [Resets, not_or, not_exists, not_and, not_not] at h
            exact hconfirmed (hrechecks.mp h.2.1)
          refine ⟨fun _ => hstate, fun h => absurd hresets h, ?_, by simp [heffects]⟩
          exact iff_of_false (by simp [Executes, heffects]) fun h => hconfirmed h.2.2.2
  · obtain ⟨hfresh, hrechecks, heffects⟩ := tickOn_of_not_zero (p := p) (s := s) hzero
    have hexecutes : ¬ Executes (tickOn p i s).2 := by
      rcases heffects with h | h <;> simp [Executes, h]
    refine ⟨fun _ => hfresh, fun h => absurd (.inl hzero) h, ?_, ?_⟩
    · exact iff_of_false hexecutes fun h => hzero h.1
    · rcases heffects with h | h <;> simp [h]

end Tick

/-! ### The law -/

section Law

variable (p : WatchdogPolicy T) (input : ℕ → TickInput T)

/-- `shutdown.execute` is called in tick `n`. -/
def ExecutesAt (n : ℕ) : Prop := Executes (askedAt p input n)

/-- Tick `s` is the first known zero after the last reset before tick `n`. -/
def IdleSince (s n : ℕ) : Prop :=
  FirstSince (fun j => (input j).observation.KnownZero)
    (fun j => Resets (input j) (askedAt p input j)) s n

/-- A dry run was reported in a tick from `s` on, before `n`. -/
def DryRunSince (s n : ℕ) : Prop :=
  ∃ j, s ≤ j ∧ j < n ∧ ExecutesAt p input j ∧ (input j).outcome = .dryRun

variable {p input}

theorem dryRunSince_succ {s n : ℕ} (hs : s ≤ n) : DryRunSince p input s (n + 1) ↔
    DryRunSince p input s n ∨ ExecutesAt p input n ∧ (input n).outcome = .dryRun := by
  constructor
  · rintro ⟨j, hsj, hjn, hj⟩
    rcases Nat.lt_succ_iff_lt_or_eq.mp hjn with hlt | rfl
    · exact .inl ⟨j, hsj, hlt, hj⟩
    · exact .inr hj
  · rintro (⟨j, hsj, hjn, hj⟩ | h)
    · exact ⟨j, hsj, Nat.lt_succ_of_lt hjn, hj⟩
    · exact ⟨n, hs, Nat.lt_succ_self n, h⟩

/-- What the state remembers before tick `n`. -/
structure Remembers (p : WatchdogPolicy T) (input : ℕ → TickInput T) (n : ℕ) : Prop where
  fresh : (∀ s, ¬ IdleSince p input s n) → (stateAt p input n).Fresh
  idle : ∀ s, IdleSince p input s n → (stateAt p input n).emptySince = some (input s).now ∧
    ((stateAt p input n).dryRunReported = true ↔ DryRunSince p input s n)

/-- **The state is a summary of the inputs.** -/
theorem remembers (n : ℕ) : Remembers p input n := by
  induction n with
  | zero => exact ⟨fun _ => ⟨rfl, rfl⟩, fun s h => absurd h.lt (Nat.not_lt_zero s)⟩
  | succ n ih =>
    obtain ⟨hreset, hkeep, hexecutes, -⟩ :=
      tickOn_idle (p := p) (i := input n) (s := stateAt p input n)
    by_cases hR : Resets (input n) (askedAt p input n)
    · exact ⟨fun _ => hreset hR, fun s h => absurd hR (firstSince_succ.mp h).1⟩
    · obtain ⟨hzero, hsince, hdry⟩ := hkeep hR
      by_cases hex : ∃ s, IdleSince p input s n
      · obtain ⟨s, hs⟩ := hex
        have hs' : IdleSince p input s (n + 1) := firstSince_succ.mpr ⟨hR, .inl hs⟩
        obtain ⟨hempty, hreported⟩ := ih.idle s hs
        refine ⟨fun h => absurd hs' (h s), fun s' h' => ?_⟩
        obtain rfl := hs'.unique h'
        refine ⟨hsince.trans (by simp [hempty]), ?_⟩
        have houtcome : ExecutesAt p input n → (input n).outcome = .dryRun := fun hx => by
          by_contra hne
          exact hR (.inr (.inr ⟨hx, hne⟩))
        rw [dryRunSince_succ hs.lt.le, ← hreported]
        refine hdry.trans ?_
        simp only [hempty, Option.isSome_some, true_and]
        exact or_congr_right ⟨fun hx => ⟨hx, houtcome hx⟩, fun hx => hx.1⟩
      · have hnone : ∀ s, ¬ IdleSince p input s n := not_exists.mp hex
        have hs' : IdleSince p input n (n + 1) := firstSince_succ.mpr ⟨hR, .inr ⟨rfl, hzero, hnone⟩⟩
        have hfresh := ih.fresh hnone
        refine ⟨fun h => absurd hs' (h n), fun s' h' => ?_⟩
        obtain rfl := hs'.unique h'
        refine ⟨hsince.trans (by simp [hfresh.emptySince]), ?_⟩
        refine iff_of_false (fun hx => ?_) ?_
        · simpa [hfresh.emptySince] using hdry.mp hx
        · rintro ⟨j, hle, hlt, hx, -⟩
          obtain rfl : j = n := by omega
          obtain ⟨-, ⟨t, ht, -⟩, -⟩ := hexecutes.mp hx
          simp [hfresh.emptySince] at ht

/-- **The exact idle law.** For every policy and every sequence of inputs, `shutdown.execute` is
called in tick `n` if and only if the tick's own count is a known zero, the first known zero since
the last reset is at least the idle timeout ago, no dry run was reported since, and all final
re-queries are known zeros; and a tick makes at most one such call. -/
theorem idle_law (p : WatchdogPolicy T) (input : ℕ → TickInput T) (n : ℕ) :
    (ExecutesAt p input n ↔ (input n).observation.KnownZero ∧ ∃ s, IdleSince p input s n ∧
      p.idleTimeoutSeconds ≤ (input n).now - (input s).now ∧ ¬ DryRunSince p input s n ∧
      ∀ k < p.finalCheckCount - 1, ((input n).recheck k).KnownZero) ∧
    (effects (askedAt p input n)).length ≤ 1 := by
  obtain ⟨-, -, hexecutes, hlength⟩ :=
    tickOn_idle (p := p) (i := input n) (s := stateAt p input n)
  refine ⟨?_, hlength⟩
  have hstate : Remembers p input n := remembers n
  constructor
  · intro hx
    obtain ⟨hzero, ⟨t, ht, hle⟩, hdry, hconfirmed⟩ := hexecutes.mp hx
    have hex : ∃ s, IdleSince p input s n := by
      by_contra hno
      simp [(hstate.fresh (not_exists.mp hno)).emptySince] at ht
    obtain ⟨s, hs⟩ := hex
    obtain ⟨hempty, hreported⟩ := hstate.idle s hs
    obtain rfl : (input s).now = t := by simpa [hempty] using ht
    exact ⟨hzero, s, hs, hle, fun h => by simp [hreported.mpr h] at hdry, hconfirmed⟩
  · rintro ⟨hzero, s, hs, hle, hno, hconfirmed⟩
    obtain ⟨hempty, hreported⟩ := hstate.idle s hs
    refine hexecutes.mpr ⟨hzero, ⟨_, hempty, hle⟩, ?_, hconfirmed⟩
    simpa using fun h => hno (hreported.mp h)

end Law

end Watchdog

end PzServer
