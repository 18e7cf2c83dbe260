import PzServer.Lifecycle.Host
import PzServer.Interaction.Handlers

/-!
# `pzctl` and `pz-backup`

The commands that hold the lifecycle lock, function by function. `deploy_commit` is the one of
`Deploy.Transaction`; here its commands are answered by `deployHandler`, which runs
`quiesce_for_deployment` and `install-host.sh` command by command.

The scripts run under `set -Eeuo pipefail`. As there, a command that fails outside a condition is an
exception, and a function in a condition is an `attempt`. `start_stack` is called both ways.

## Main definitions

* `gracefulStopWithWatchdog`, `startStack`, `quiesceForDeployment` — the functions
* `deployHandler`, `ofDeploy` — the functions of the deployment
* `backup` — `pz-backup` and the processes it starts
* `LifecycleCommand`, `LifecycleHistory` — the commands, one after another
-/

namespace PzServer

namespace Lifecycle

open Interaction
open Deploy (Text Directory DeployRequest DeployReply DeployM DeployCommand Failure)

/-- The scripts' monad. -/
abbrev LifecycleM : Type → Type := ExceptT Failure (Program LifecycleRequest LifecycleReply)

/-- Run a command. -/
def ask (q : LifecycleRequest) : LifecycleM (LifecycleReply q) := ExceptT.lift (request q)

/-- Print a message and fail with status 1. -/
def refuse {α : Type} (message : String) : LifecycleM α :=
  throw { status := 1, message := message }

/-- Go on only if a command succeeded. -/
def expect (succeeded : Bool) (message : String := "") : LifecycleM Unit :=
  if succeeded then pure () else refuse message

/-- A function in a condition: whether it succeeds. -/
def attempt (body : LifecycleM Unit) : LifecycleM Bool :=
  tryCatch (do body; return true) fun _ => return false

/-! ### Stopping -/

/-- The watchdog that is stopped before the server is started again, if the stack is active. -/
def restoreWatchdog (caller : Process) (watchdogWasActive : Bool) : LifecycleM Unit := do
  if watchdogWasActive then
    if ← ask (.isActive .stack) then
      let _ ← ask (.start caller .watchdog)

/-- What `graceful_stop_with_watchdog` does when `pz-stack.service` cannot be stopped. -/
def recoverStack (caller : Process) (watchdogWasActive : Bool) : LifecycleM Unit := do
  let _ ← ask (.restart caller .stack)
  if watchdogWasActive then
    let _ ← ask (.start caller .watchdog)

/-- `graceful_stop_with_watchdog` -/
def gracefulStopWithWatchdog (caller : Process) (version : Directory) (arguments : List Text) :
    LifecycleM Unit := do
  let watchdogWasActive ← ask (.isActive .watchdog)
  if !(← ask (.stop caller [.watchdog])) then
    refuse "Could not stop the watchdog before the guarded PZ stop."
  else if !(← ask (.watchdog version .gracefulStop arguments)) then
    restoreWatchdog caller watchdogWasActive
    refuse "Safe stop validation failed; host shutdown is prohibited."
  else if !(← ask (.stop caller [.stack])) then
    recoverStack caller watchdogWasActive
    refuse "Could not transition pz-stack.service to stopped; attempting recovery."

/-- `graceful_stop` -/
def gracefulStop (caller : Process) (arguments : List Text) : LifecycleM Unit :=
  gracefulStopWithWatchdog caller .watchdog arguments

/-- `shutdown_host` -/
def shutdownHost (caller : Process) (arguments : List Text) : LifecycleM Unit := do
  let watchdogWasActive ← ask (.isActive .watchdog)
  if !(← ask (.stop caller [.watchdog])) then
    refuse "Could not stop the watchdog before guarded host shutdown."
  else if !(← ask (.watchdog .watchdog .shutdownHost arguments)) then
    restoreWatchdog caller watchdogWasActive
    refuse "Guarded host shutdown failed; the host remains online."

/-- `quiesce_for_deployment` -/
def quiesceForDeployment (caller : Process) (version : Directory) (arguments : List Text) :
    LifecycleM Unit := do
  match ← ask .serverState with
  | .running => gracefulStopWithWatchdog caller version arguments
  | .cleanStopped | .missing =>
    expect (← ask (.stop caller [.watchdog, .stack]))
      "Could not stop inactive deployment units safely."
    let state ← ask .serverState
    expect (state = .cleanStopped ∨ state = .missing)
      "Container state changed while preparing deployment; refusing to continue."
  | .unknown =>
    refuse ("Deployment requires a running service that can stop safely, one clean stopped " ++
      "container, or no container.")

/-! ### The deployment -/

/-- `verify_watchdog_active` -/
def verifyWatchdogActive : LifecycleM Unit := do
  expect (← ask (.isActive .watchdog)) "The watchdog service is not active."
  expect (← ask (.isActive .watchdog)) "The watchdog service did not remain active."

/-- `install-host.sh` -/
def installHost (caller : Process) (preserve : Bool) : LifecycleM Unit := do
  expect (← ask (.installFiles preserve))
  expect (← ask (.restart caller .stack))
  expect (← ask (.restart caller .watchdog))
  expect (← ask (.isActive .watchdog))
    "Project Zomboid watchdog did not remain active after installation."

/-- `"${stop_arguments[@]}"` -/
def stopArguments (allowConnectedPlayers : Bool) : List Text :=
  if allowConnectedPlayers then ["--allow-connected-players".toList] else []

/-- Whether a function succeeds. -/
def succeeds (body : LifecycleM Unit) : Program LifecycleRequest LifecycleReply Bool :=
  body.run >>= fun
    | .ok _ => pure true
    | .error _ => pure false

/-- The commands of `deploy_commit`. -/
def deployCommand (caller : Process) :
    (q : DeployRequest) → Program LifecycleRequest LifecycleReply (DeployReply q)
  | .processStartTime => request (LifecycleRequest.startTime caller)
  | .quiesce version allowConnectedPlayers =>
    succeeds (quiesceForDeployment caller version (stopArguments allowConnectedPlayers))
  | .installHost preserve => succeeds (installHost caller preserve)
  | q => request (LifecycleRequest.deploy q)

/-- The same, for a program without a state of its own. -/
def deployHandler (caller : Process) (q : DeployRequest) (_ : Unit) :
    Program LifecycleRequest LifecycleReply (DeployReply q × Unit) :=
  deployCommand caller q >>= fun reply => pure (reply, ())

/-- A function of the deployment. -/
def ofDeploy {α : Type} (caller : Process) (body : DeployM α) : LifecycleM α :=
  ExceptT.mk (body.run.interpret (deployHandler caller) () >>= fun r => pure r.1)

/-! ### Starting -/

/-- The part of `start_stack` that starts the units. -/
def startUnits (caller : Process) : LifecycleM Unit := do
  ofDeploy caller (Deploy.authorizeDeploymentStart caller.id false)
  expect (← ask (.restart caller .stack))
  expect (← ask (.restart caller .watchdog))

/-- `start_stack`, where the server is stopped -/
def startStopped (caller : Process) : LifecycleM Unit := do
  if !(← attempt (startUnits caller)) then
    let _ ← attempt (ofDeploy caller Deploy.revokeDeploymentStart)
    refuse "Could not start Project Zomboid under lifecycle authorization."
  else if !(← attempt (ofDeploy caller Deploy.revokeDeploymentStart)) then
    refuse "Could not revoke lifecycle start authorization."

/-- `start_stack`, in a condition or not, where the server is running -/
def startRunning (caller : Process) (inCondition : Bool) : LifecycleM Unit := do
  expect (← ask (.isActive .stack))
    ("The server container is running outside an active pz-stack.service; use a guarded " ++
      "restart to reconcile it.")
  let started ← ask (.start caller .watchdog)
  expect (started || inCondition)

/-- The cases of `start_stack`. -/
def startFrom (caller : Process) (inCondition : Bool) : ServerState → LifecycleM Unit
  | .running => startRunning caller inCondition
  | .cleanStopped | .missing => startStopped caller
  | .unknown => refuse "Container state is unknown or unclean; refusing to start over it."

/-- `start_stack` -/
def startStack (caller : Process) (inCondition : Bool) : LifecycleM Unit := do
  if ← ask .pendingExists then
    refuse "A deployment is pending; retry its exact SHA instead of starting partial state."
  else
    startFrom caller inCondition (← ask .serverState)
    expect ((← ask .serverState) = .running)
      "pz-stack.service did not start the server container."
    verifyWatchdogActive

/-- The arguments of `game_update`: whether to validate. -/
def updateArguments : List Text → Option Bool
  | [] => some false
  | [option] => if option = "--validate".toList then some true else none
  | _ => none

/-- `game_update` -/
def gameUpdate (caller : Process) (arguments : List Text) : LifecycleM Unit := do
  match updateArguments arguments with
  | none => throw ⟨64, "Usage: pzctl update [--validate]"⟩
  | some validate =>
    if ← ask .pendingExists then
      refuse "Repository deployment is pending; game update refused."
    else
      quiesceForDeployment caller .watchdog []
      let updated ← ask (.updateGame validate)
      if !(← attempt (startStack caller true)) then
        refuse "Project Zomboid could not restart after the game update transaction."
      else
        expect (← ask .waitReady)
          "Project Zomboid restarted but game release acceptance failed."
        expect updated

/-! ### Backups -/

/-- The processes of one `pz-backup`: its own, and those of `pzctl graceful-stop` and
`pzctl start`. -/
structure BackupProcesses where
  backup : Process
  stop : Process
  start : Process

/-- `acquire_lifecycle_lock` -/
def acquireLifecycleLock (caller : Process) : LifecycleM Unit := do
  if !(← ask (.acquireLock caller)) then
    throw ⟨75, "Another Project Zomboid backup or lifecycle command holds the lock; refusing " ++
      "this command."⟩

/-- `PZ_LIFECYCLE_LOCK_HELD=true pzctl graceful-stop` -/
def pzctlGracefulStop (caller : Process) (arguments : List Text) : LifecycleM Unit := do
  acquireLifecycleLock caller
  gracefulStop caller arguments

/-- `PZ_LIFECYCLE_LOCK_HELD=true pzctl start` -/
def pzctlStart (caller : Process) : LifecycleM Unit := do
  acquireLifecycleLock caller
  startStack caller false

/-- `pz-backup`: whether the server has to be stopped -/
def inspectServer (allowConnectedPlayers : Bool) : LifecycleM Bool := do
  match ← ask .inspectServer with
  | none => refuse "Compose returned multiple server containers; backup is unsafe."
  | some .restarting => refuse "Server container is restarting; refusing backup."
  | some .absent => return false
  | some .stopped =>
    expect (← ask .verifyQuiescent)
    return false
  | some .running =>
    match ← ask .players with
    | none => refuse "Player state is UNKNOWN; refusing backup without exception."
    | some players =>
      if 0 < players ∧ !allowConnectedPlayers then
        refuse s!"Refusing backup while {players} player(s) are connected."
      else
        return true

/-- `pz-backup`, until it stops the server. -/
def inspectRunning (caller : Process) (watchdogWasActive allowConnectedPlayers : Bool) :
    LifecycleM Bool := do
  if watchdogWasActive then
    expect (← ask (.stop caller [.watchdog]))
  inspectServer allowConnectedPlayers

/-- `pz-backup`, from the stop of the server to the end. -/
def archiveStopped (processes : BackupProcesses) (wasRunning allowConnectedPlayers : Bool) :
    LifecycleM Unit := do
  if wasRunning then
    pzctlGracefulStop processes.stop (stopArguments allowConnectedPlayers)
  expect (← ask .writeArchive)

/-- `restart_if_needed`: whether everything is started again. -/
def restartIfNeeded (processes : BackupProcesses) (wasRunning watchdogWasActive : Bool) :
    LifecycleM Unit := do
  if wasRunning then
    if !(← attempt (pzctlStart processes.start)) then
      refuse "Project Zomboid restart failed; manual intervention is required."
  else if watchdogWasActive then
    expect (← ask (.start processes.backup .watchdog))
      "Project Zomboid watchdog restore failed; manual intervention is required."

/-- `main` of `pz-backup`, once it has the lock; its `EXIT` trap is `restart_if_needed`. -/
def backupLocked (processes : BackupProcesses) (allowConnectedPlayers : Bool) :
    LifecycleM Unit := do
  let watchdogWasActive ← ask (.isActive .watchdog)
  let inspected ← tryCatch
    (do return .ok (← inspectRunning processes.backup watchdogWasActive allowConnectedPlayers))
    fun failure => return Except.error failure
  match inspected with
  | .error failure =>
    restartIfNeeded processes false watchdogWasActive
    throw failure
  | .ok wasRunning =>
    withCleanup (archiveStopped processes wasRunning allowConnectedPlayers)
      fun _ => restartIfNeeded processes wasRunning watchdogWasActive

/-- The arguments of `pz-backup`: whether players may be connected. -/
def backupArguments : List Text → Option Bool
  | [] => some false
  | option :: _ => if option = "--allow-connected-players".toList then some true else none

/-- `main` of `pz-backup` -/
def backup (processes : BackupProcesses) (arguments : List Text) : LifecycleM Unit := do
  match backupArguments arguments with
  | none => throw ⟨64, "Usage: pz-backup [--allow-connected-players]"⟩
  | some allowConnectedPlayers =>
    if !(← ask (.acquireLock processes.backup)) then
      throw ⟨75, "Another Project Zomboid backup is already running."⟩
    else
      backupLocked processes allowConnectedPlayers

/-! ### Commands -/

/-- One command, with its process and its arguments. -/
inductive LifecycleCommand where
  | start (caller : Process)
  | gracefulStop (caller : Process) (arguments : List Text)
  | restart (caller : Process) (arguments : List Text)
  | update (caller : Process) (arguments : List Text)
  | deploy (caller : Process) (target : Text) (arguments : List Text)
  | shutdownHost (caller : Process) (arguments : List Text)
  | backup (processes : BackupProcesses) (arguments : List Text)

/-- `main` of `pzctl`, where the command takes the lock -/
def LifecycleCommand.run : LifecycleCommand → LifecycleM Unit
  | .start caller => pzctlStart caller
  | .gracefulStop caller arguments => pzctlGracefulStop caller arguments
  | .restart caller arguments => do
    acquireLifecycleLock caller
    Lifecycle.gracefulStop caller arguments
    startStack caller false
  | .update caller arguments => do
    acquireLifecycleLock caller
    gameUpdate caller arguments
  | .deploy caller target arguments => do
    acquireLifecycleLock caller
    ofDeploy caller (Deploy.deployCommit ⟨caller.id, target, arguments⟩)
  | .shutdownHost caller arguments => do
    acquireLifecycleLock caller
    Lifecycle.shutdownHost caller arguments
  | .backup processes arguments => Lifecycle.backup processes arguments

/-- Commands, one after another: they hold the lock. Each may stop anywhere. -/
abbrev LifecycleHistory (init : Host → Prop) :=
  History lifecycleHost (fun command : LifecycleCommand => command.run.run) init

/-- One command of one run. -/
abbrev LifecycleEntry : Type := Entry LifecycleCommand LifecycleRequest LifecycleReply Host

end Lifecycle

end PzServer
