import Mathlib.Order.Lattice
import Mathlib.Order.Defs.LinearOrder
import PzServer.Interaction.Handlers

/-!
# The watchdog engine

`WatchdogEngine` decides, once every poll interval, from a player count and the health of the
service, whether to restart the service or to shut the host down. It knows its components only by
what they offer (`query`, `health`, `restart`, `execute`) and these are its requests here.

Times are elements of any linearly ordered type with a subtraction. The engine only compares
differences of times, and no law of arithmetic is used anywhere, so what is proved about it holds
for the floating-point seconds of the source as well as for exact ones.
-/

namespace PzServer

namespace Watchdog

open Interaction

/-! ### What the components answer -/

/-- A confirmed player count or an explicitly unknown result. -/
structure PlayerObservation where
  count : Option ℕ
  detail : String := ""
  deriving DecidableEq, Repr

namespace PlayerObservation

/-- `is_unknown` -/
def isUnknown (o : PlayerObservation) : Bool := o.count.isNone

/-- `PlayerObservation.known` -/
def known (count : ℕ) : PlayerObservation := { count := some count }

/-- `PlayerObservation.unknown` -/
def unknown (detail : String) : PlayerObservation := { count := none, detail := detail }

/-- `observation.count and observation.count > 0` -/
def hasPlayers (o : PlayerObservation) : Bool := o.count.any (0 < ·)

/-- The count is known, and nobody is connected. -/
def KnownZero (o : PlayerObservation) : Prop := o.count = some 0

instance : DecidablePred KnownZero := fun o => inferInstanceAs (Decidable (o.count = some 0))

/-- The engine tells three kinds of observations apart. -/
theorem cases_count (o : PlayerObservation) :
    o.isUnknown = true ∧ ¬ o.KnownZero ∨
    o.isUnknown = false ∧ o.hasPlayers = true ∧ ¬ o.KnownZero ∨
    o.isUnknown = false ∧ o.hasPlayers = false ∧ o.KnownZero := by
  obtain ⟨count, detail⟩ := o
  rcases count with _ | _ | n <;> simp [isUnknown, hasPlayers, KnownZero]

theorem knownZero_of {o : PlayerObservation} (hknown : ¬ o.isUnknown = true)
    (hnone : ¬ o.hasPlayers = true) : o.KnownZero := by
  rcases o.cases_count with ⟨h, -⟩ | ⟨-, h, -⟩ | ⟨-, -, h⟩
  · exact absurd h hknown
  · exact absurd h hnone
  · exact h

end PlayerObservation

/-- `ServiceHealth` -/
inductive ServiceHealth where
  | healthy
  | unhealthy
  | stopped
  | unknown
  deriving DecidableEq, Repr

/-- `ShutdownOutcome` -/
inductive ShutdownOutcome where
  | completed
  | dryRun
  | aborted
  deriving DecidableEq, Repr

/-! ### Policy and state -/

/-- `WatchdogPolicy`, with what `__post_init__` checks. -/
structure WatchdogPolicy (T : Type) [LinearOrder T] [Zero T] where
  idleTimeoutSeconds : T
  healthFailureTimeoutSeconds : T
  finalCheckCount : ℕ
  finalCheckDelaySeconds : T
  progressIntervalSeconds : T
  dryRun : Bool
  idle_pos : 0 < idleTimeoutSeconds
  health_pos : 0 < healthFailureTimeoutSeconds
  checks : 2 ≤ finalCheckCount
  delay_pos : 0 < finalCheckDelaySeconds

/-- `WatchdogState` -/
structure WatchdogState (T : Type) where
  emptySince : Option T := none
  managementFailureSince : Option T := none
  lastProgressAt : Option T := none
  dryRunReported : Bool := false

/-- `_reset_empty` -/
def WatchdogState.resetEmpty {T : Type} (s : WatchdogState T) : WatchdogState T :=
  { s with emptySince := none, lastProgressAt := none, dryRunReported := false }

/-! ### The engine -/

/-- What the engine asks of its components. -/
inductive EngineRequest (T : Type) where
  /-- `players.query` -/
  | query
  /-- `service.health` -/
  | health
  /-- `service.restart` -/
  | restart
  /-- `shutdown.execute` -/
  | execute (dryRun : Bool)
  /-- `sleeper` -/
  | sleep (seconds : T)
  deriving DecidableEq

/-- What they answer. -/
@[reducible] def EngineReply {T : Type} : EngineRequest T → Type
  | .query => PlayerObservation
  | .health => ServiceHealth
  | .restart => Bool
  | .execute _ => ShutdownOutcome
  | .sleep _ => Unit

/-- The engine's programs. -/
abbrev EngineM (T : Type) : Type → Type := Program (EngineRequest T) EngineReply

/-- Call a component. -/
abbrev call {T : Type} (q : EngineRequest T) : EngineM T (EngineReply q) := request q

section Engine

variable {T : Type} [LinearOrder T] [Zero T] [Sub T] (p : WatchdogPolicy T)

/-- The loop of `_final_shutdown_validation`, for the `n` checks that are left. -/
def finalChecks : ℕ → EngineM T Bool
  | 0 => return true
  | n + 1 => do
    call (.sleep p.finalCheckDelaySeconds)
    let observation ← call .query
    if observation.isUnknown then return false
    else if observation.hasPlayers then return false
    else finalChecks n

/-- `_final_shutdown_validation` -/
def finalShutdownValidation (s : WatchdogState T) : EngineM T (WatchdogState T) := do
  if ← finalChecks p (p.finalCheckCount - 1) then
    let outcome ← call (.execute p.dryRun)
    if outcome = .dryRun then
      return { s with dryRunReported := true }
    else
      return s.resetEmpty
  else
    return s.resetEmpty

/-- `_handle_empty`: the time of the last progress report. -/
def noteProgress (now : T) (s : WatchdogState T) : WatchdogState T :=
  if s.lastProgressAt.all fun at_ => p.progressIntervalSeconds ≤ now - at_ then
    { s with lastProgressAt := some now }
  else s

@[simp] theorem noteProgress_emptySince (now : T) (s : WatchdogState T) :
    (noteProgress p now s).emptySince = s.emptySince := by
  rw [noteProgress]
  split <;> rfl

@[simp] theorem noteProgress_dryRunReported (now : T) (s : WatchdogState T) :
    (noteProgress p now s).dryRunReported = s.dryRunReported := by
  rw [noteProgress]
  split <;> rfl

/-- `_handle_empty` -/
def handleEmpty (now : T) (s : WatchdogState T) : EngineM T (WatchdogState T) :=
  match s.emptySince with
  | none =>
    return { s with emptySince := some now, lastProgressAt := some now, dryRunReported := false }
  | some emptySince =>
    let elapsed := max 0 (now - emptySince)
    let s := noteProgress p now s
    if elapsed < p.idleTimeoutSeconds ∨ s.dryRunReported then
      return s
    else
      finalShutdownValidation p s

/-- `_handle_unknown` -/
def handleUnknown (now : T) (s : WatchdogState T) : EngineM T (WatchdogState T) := do
  let s := s.resetEmpty
  let health ← call .health
  if health ∉ [.unhealthy, .stopped] then
    return { s with managementFailureSince := none }
  else
    match s.managementFailureSince with
    | none => return { s with managementFailureSince := some now }
    | some failureSince =>
      if now - failureSince < p.healthFailureTimeoutSeconds then
        return s
      else
        let _ ← call .restart
        return { s with managementFailureSince := none }.resetEmpty

/-- `WatchdogEngine.tick` -/
def tick (now : T) (s : WatchdogState T) : EngineM T (WatchdogState T) := do
  let observation ← call .query
  if observation.isUnknown then
    handleUnknown p now s
  else
    let s := { s with managementFailureSince := none }
    if observation.hasPlayers then
      return s.resetEmpty
    else
      handleEmpty p now s

end Engine

end Watchdog

end PzServer
