import Mathlib.Algebra.Order.Ring.Rat
import Mathlib.Data.Nat.Cast.Order.Ring
import PzServer.Watchdog.Service

/-!
# Shutting the host down

`SystemdPowerController` issues `systemctl poweroff` when the host is eligible, and
`ShutdownCoordinator` calls it at the end of a sequence of checks. `buildComponents` connects both,
the RCON components and the service to the engine, as `run_watchdog` does in docker mode, and
`WatchdogRun` is the loop.
-/

namespace PzServer

namespace Watchdog

open Interaction

/-! ### Settings -/

/-- The part of `Settings` that the watchdog's loop reads in docker mode, with the bounds that
`from_environment` checks. -/
structure Settings where
  rconRetryCount : ℕ
  rconRetryDelaySeconds : ℕ
  idleTimeoutSeconds : ℕ
  healthFailureTimeoutSeconds : ℕ
  finalCheckCount : ℕ
  finalCheckDelaySeconds : ℕ
  serviceStopTimeoutSeconds : ℕ
  dryRun : Bool
  deploymentEnvironment : String
  hostShutdownEnabled : Bool
  composeService : String
  retries : 1 ≤ rconRetryCount
  idle_pos : 0 < idleTimeoutSeconds
  health_pos : 0 < healthFailureTimeoutSeconds
  checks : 2 ≤ finalCheckCount
  delay_pos : 0 < finalCheckDelaySeconds

/-- `os.name` and `platform.system()` -/
structure Platform where
  osName : String
  system : String
  deriving DecidableEq, Repr

/-- `GUARD_CONTENT` -/
def guardContent : Text := "PZ_HOST_SHUTDOWN=ENABLED".toList

/-! ### The power controller -/

namespace SystemdPowerController

variable (settings : Settings) (platform : Platform)

/-- The guard file is exactly as it should be. -/
def isExactGuard (metadata : FileStatus) (content : Text) : Bool :=
  metadata.regular && metadata.uid = 0 && metadata.permissions = 0o600 &&
    Text.strip content = guardContent

/-- `eligible`; an exception other than `OSError` gets through. -/
def eligible : HostM Bool := do
  if platform.osName = "nt" ∨ platform.system ≠ "Linux" then
    return false
  else if settings.deploymentEnvironment ≠ "aws" ∨ !settings.hostShutdownEnabled then
    return false
  else
    tryCatch
      (do
        let metadata ← raising (← ask .lstatGuard)
        let content ← raising (← ask .readGuard)
        return isExactGuard metadata content)
      fun error => match error with
      | .os _ => return false
      | error => throw error

/-- `shutdown` -/
def shutdown : HostM Bool := do
  if ← eligible settings platform then
    match ← ask .poweroff with
    | .completed returncode _ _ => return returncode = 0
    | .osError _ | .timeoutExpired => return false
    | .valueError message => throw (.value message)
  else
    return false

end SystemdPowerController

/-! ### The coordinator -/

namespace ShutdownCoordinator

variable (settings : Settings) (platform : Platform)

/-- `players.query` -/
def queryPlayers : HostM PlayerObservation :=
  RetryingPlayerCounter.query settings.rconRetryCount settings.rconRetryDelaySeconds

/-- `_players_allow_shutdown` -/
def playersAllowShutdown (allowConnectedPlayers : Bool) : HostM Bool := do
  let observation ← queryPlayers settings
  if observation.isUnknown then
    return false
  else if observation.hasPlayers ∧ !allowConnectedPlayers then
    return false
  else
    return true

/-- `execute`, once the container is stopped -/
def powerOff : HostM ShutdownOutcome := do
  if ← SystemdPowerController.shutdown settings platform then
    return .completed
  else
    let _ ← DockerComposeService.start settings.composeService
    return .aborted

/-- `execute`, once the world is saved and nobody is connected -/
def stopAndPowerOff : HostM (ShutdownOutcome × Option Text) := do
  let (stopped, verified) ← DockerComposeService.gracefulStop settings.composeService
    settings.serviceStopTimeoutSeconds
  if !stopped then
    return (.aborted, verified)
  else if !(← DockerComposeService.isStopped settings.composeService verified) then
    return (.aborted, verified)
  else
    return (← powerOff settings platform, verified)

/-- `execute`. Takes and returns the identifier that the service remembers. -/
def execute (dryRun allowConnectedPlayers : Bool) (verified : Option Text) :
    HostM (ShutdownOutcome × Option Text) := do
  if dryRun then
    return (.dryRun, verified)
  else if !(← SystemdPowerController.eligible settings platform) then
    return (.aborted, verified)
  else if !(← playersAllowShutdown settings allowConnectedPlayers) then
    return (.aborted, verified)
  else if !(← RconAdmin.save settings.rconRetryCount settings.rconRetryDelaySeconds) then
    return (.aborted, verified)
  else
    ask (.sleep 10)
    if !(← playersAllowShutdown settings allowConnectedPlayers) then
      return (.aborted, verified)
    else
      stopAndPowerOff settings platform

end ShutdownCoordinator

/-! ### The watchdog -/

section Watchdog

variable (settings : Settings) (platform : Platform)

/-- The policy of `run_watchdog`; the progress interval is the default. -/
def policy : WatchdogPolicy ℚ where
  idleTimeoutSeconds := settings.idleTimeoutSeconds
  healthFailureTimeoutSeconds := settings.healthFailureTimeoutSeconds
  finalCheckCount := settings.finalCheckCount
  finalCheckDelaySeconds := settings.finalCheckDelaySeconds
  progressIntervalSeconds := 5 * 60
  dryRun := settings.dryRun
  idle_pos := Nat.cast_pos.mpr settings.idle_pos
  health_pos := Nat.cast_pos.mpr settings.health_pos
  checks := settings.checks
  delay_pos := Nat.cast_pos.mpr settings.delay_pos

/-- `build_components`: who answers the engine's calls. -/
def buildComponents : (q : EngineRequest ℚ) → Option Text → HostM (EngineReply q × Option Text)
  | .query, verified => return (← ShutdownCoordinator.queryPlayers settings, verified)
  | .health, verified =>
    return (← DockerComposeService.health settings.composeService, verified)
  | .restart, verified =>
    return (← DockerComposeService.restart settings.composeService, verified)
  | .execute dryRun, verified =>
    ShutdownCoordinator.execute settings platform dryRun false verified
  | .sleep seconds, verified => do
    ask (.sleep seconds)
    return ((), verified)

/-- What the watchdog keeps between ticks: the engine's state, and the identifier that the service
remembers. -/
abbrev WatchdogMemory : Type := WatchdogState ℚ × Option Text

/-- One tick of the loop of `run_watchdog`, at time `now`. -/
def watchdogTick (now : ℚ) (memory : WatchdogMemory) : HostM WatchdogMemory :=
  (tick (policy settings) now memory.1).interpret (buildComponents settings platform) memory.2

end Watchdog

/-! ### The loop -/

/-- One question to the host. -/
abbrev HostMove : Type := Move HostRequest HostReply Unit

/-- The host answers anything. -/
def host : World HostRequest HostReply Unit := ⟨HostReply, fun _ _ _ => true, fun s _ c => (c, s)⟩

/-- What a tick leaves: the memory if it came to its end, nothing if it was killed or raised. -/
def memoryAfter : Program HostRequest HostReply (Except Err WatchdogMemory) → Option WatchdogMemory
  | .done (.ok memory) => some memory
  | _ => none

/-- `run_watchdog`: the moves of its ticks, newest first, and its memory while it is running. -/
inductive WatchdogRun (settings : Settings) (platform : Platform) :
    List (List HostMove) → Option WatchdogMemory → Prop where
  | start : WatchdogRun settings platform [] (some ({}, none))
  | tick {ticks : List (List HostMove)} {memory : WatchdogMemory} {moves : List HostMove}
      {p : Program HostRequest HostReply (Except Err WatchdogMemory)} (now : ℚ)
      (hrun : WatchdogRun settings platform ticks (some memory))
      (he : host.Exec (watchdogTick settings platform now memory).run [] () p moves ()) :
      WatchdogRun settings platform (moves :: ticks) (memoryAfter p)

end Watchdog

end PzServer
