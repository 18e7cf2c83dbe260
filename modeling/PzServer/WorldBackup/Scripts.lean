import PzServer.WorldBackup.Directory

/-!
# `pz-backup` and `Backup-PZLocal.ps1`

The scripts from the moment they hold the lock. A command that fails, or is interrupted, ends the
body of either script with an exit status, and the variables as they stand are left to the handler:
`restart_if_needed` is the EXIT trap of one, and the `finally` block the counterpart in the other.
What is only printed is left out, but a printed line can fail like any command.

## Main definitions

* `main`, `restartIfNeeded`, `pzBackup` — `pz-backup`
* `backupBody`, `backupFinally`, `backupPZLocal` — `Backup-PZLocal.ps1`
-/

namespace PzServer

namespace WorldBackup

open Interaction

/-! ### The variables -/

/-- The variables that the handlers read. -/
structure Variables where
  /-- `was_running` -/
  wasRunning : Bool
  /-- `watchdog_was_active`, of `pz-backup` -/
  watchdogWasActive : Bool
  /-- `locationPushed`, of `Backup-PZLocal.ps1` -/
  locationPushed : Bool
  /-- `partial_archive` -/
  partialArchive : Option FileName
  /-- `final_archive` -/
  finalArchive : Option FileName
  /-- `backup_complete` -/
  backupComplete : Bool
  deriving DecidableEq

def Variables.initial : Variables := ⟨false, false, false, none, none, false⟩

/-- How the body of a script ends early. -/
structure Failure where
  status : ℕ
  state : Variables
  deriving DecidableEq

/-- How a script ends. -/
structure Result where
  status : ℕ
  state : Variables
  deriving DecidableEq

abbrev ScriptM : Type → Type := ExceptT Failure (Program Command Reply)

/-- Run a command; if it fails, the body ends. -/
def perform (v : Variables) (q : Command) : ScriptM (Value q) := do
  match ← ExceptT.lift (request q) with
  | .ok value => return value
  | .error status => throw ⟨status, v⟩

/-- `exit 1`, or `throw` -/
def fail {α : Type} (v : Variables) : ScriptM α := throw ⟨1, v⟩

/-- What a script is started with. -/
structure Settings where
  allowConnectedPlayers : Bool
  /-- `RETENTION_COUNT` -/
  retentionCount : ℕ
  /-- `$$`, `$PID` -/
  pid : ℕ

/-- `prune_archives`: the archives after the first `RETENTION_COUNT`. -/
def expired (c : Settings) (listed : List FileName) : List FileName := listed.drop c.retentionCount

/-! ### `pz-backup` -/

/-- The identifier of the server container: empty if there is none. -/
def composeIdentifier (v : Variables) : ScriptM String := do
  match ← perform v .composePs with
  | [] => return ""
  | [identifier] => return identifier
  | _ => fail v

/-- `verify_quiescent` -/
def verifyQuiescent (v : Variables) (expectedIdentifier : String) : ScriptM Unit := do
  let currentIdentifier ← composeIdentifier v
  if currentIdentifier ≠ expectedIdentifier then fail v
  else if expectedIdentifier = "" then return
  else
    let state ← perform v (.inspect expectedIdentifier)
    if !state.quiescent then fail v

/-- The part of `main` that leaves a stopped server. -/
def stopForBackup (c : Settings) (v : Variables) (identifier : String) : ScriptM Variables := do
  if identifier = "" then return v
  else
    let state ← perform v (.inspect identifier)
    if state.restarting then fail v
    else if state.running then
      match ← perform v .players with
      | none => fail v
      | some players =>
        if 0 < players ∧ ¬ c.allowConnectedPlayers then fail v
        else
          let v := { v with wasRunning := true }
          perform v (.stopServer c.allowConnectedPlayers)
          return v
    else
      verifyQuiescent v identifier
      return v

/-- `prune_archives` -/
def pruneArchives (c : Settings) (v : Variables) : ScriptM Unit := do
  let listed ← perform v .list
  (expired c listed).forM fun archive => perform v (.prune [archive, .checksum archive])

/-- The part of `main` that publishes the archive. -/
def publish (c : Settings) (v : Variables) (identifier : String) : ScriptM Variables := do
  let (date, time) ← perform v .date
  let archive := FileName.stamped date time
  let partialArchive := FileName.partialOf archive c.pid
  let v := { v with finalArchive := some archive, partialArchive := some partialArchive }
  if ← perform v (.exists archive) then fail v
  else
    perform v .log
    perform v (.tar partialArchive)
    verifyQuiescent v identifier
    perform v (.move partialArchive archive)
    let v := { v with partialArchive := none }
    perform v (.writeChecksum archive)
    perform v (.chmod archive)
    pruneArchives c v
    let v := { v with backupComplete := true }
    perform v .log
    return v

/-- `main`, from the trap on -/
def main (c : Settings) : ScriptM Variables := do
  let v := Variables.initial
  let active ← perform v .watchdogIsActive
  let v := { v with watchdogWasActive := active }
  if active then perform v .stopWatchdog
  let identifier ← composeIdentifier v
  let v ← stopForBackup c v identifier
  publish c v identifier

/-- The files that `restart_if_needed` removes, in its two steps. -/
def discardPartial (v : Variables) : ScriptM Unit :=
  match v.partialArchive with
  | some partialArchive => perform v (.discard [partialArchive])
  | none => pure ()

def discardFinal (v : Variables) : ScriptM Unit :=
  match v.finalArchive with
  | some archive =>
    if v.backupComplete then pure () else perform v (.discard [archive, .checksum archive])
  | none => pure ()

/-- A command in a condition: whether it succeeds. -/
def succeeds {q : Command} : Reply q → Bool
  | .ok _ => true
  | .error _ => false

/-- `restart_if_needed` with the exit status of the script so far. The shell ends at a command that
fails here as well. -/
def restartIfNeeded (status : ℕ) (v : Variables) : ScriptM ℕ := do
  discardPartial v
  discardFinal v
  let mut status := status
  if v.wasRunning then
    perform v .log
    if !succeeds (← ExceptT.lift (request .startServer)) then status := 1
  else if v.watchdogWasActive then
    if !succeeds (← ExceptT.lift (request .startWatchdog)) then status := 1
  let _ ← ExceptT.lift (request .unlock)
  return status

/-- The handler, and the status that the script ends with. -/
def conclude (handler : ℕ → Variables → ScriptM ℕ) (status : ℕ) (v : Variables) :
    Program Command Reply Result := do
  match ← (handler status v).run with
  | .ok status => return ⟨status, v⟩
  | .error failure => return ⟨failure.status, v⟩

/-- A script: its body, and then the handler. -/
def handled (body : ScriptM Variables) (handler : ℕ → Variables → ScriptM ℕ) :
    Program Command Reply Result := do
  match ← body.run with
  | .ok v => conclude handler 0 v
  | .error failure => conclude handler failure.status failure.state

/-- `pz-backup` -/
def pzBackup (c : Settings) : Program Command Reply Result := handled (main c) restartIfNeeded

/-! ### `Backup-PZLocal.ps1` -/

/-- `Get-ComposeContainerId` -/
def getComposeContainerId (v : Variables) : ScriptM (Option String) := do
  match ← perform v .composePs with
  | [] => return none
  | [identifier] => return some identifier
  | _ => fail v

/-- `Assert-ContainerQuiescent` -/
def assertContainerQuiescent (v : Variables) (expectedIdentifier : Option String) :
    ScriptM Unit := do
  let currentIdentifier ← getComposeContainerId v
  if currentIdentifier ≠ expectedIdentifier then fail v
  else match expectedIdentifier with
    | none => return
    | some identifier =>
      let state ← perform v (.inspect identifier)
      if !state.quiescent then fail v

/-- `Get-ConfirmedPlayerCount`, and the refusal -/
def confirmPlayers (c : Settings) (v : Variables) : ScriptM Unit := do
  match ← perform v .players with
  | none => fail v
  | some players => if 0 < players ∧ ¬ c.allowConnectedPlayers then fail v

/-- The part of the body that leaves a stopped server. -/
def stopLocal (c : Settings) (v : Variables) (containerId : Option String) :
    ScriptM Variables := do
  match containerId with
  | none => return v
  | some identifier =>
    let state ← perform v (.inspect identifier)
    if state.restarting then fail v
    else
      let v := { v with wasRunning := state.running }
      if !state.running then
        assertContainerQuiescent v containerId
        return v
      else
        confirmPlayers c v
        perform v .save
        perform v (.sleep 10)
        confirmPlayers c v
        perform v (.stopServer c.allowConnectedPlayers)
        assertContainerQuiescent v containerId
        return v

/-- `Remove-Item -ErrorAction SilentlyContinue` -/
def removeSilently (q : Command) : ScriptM Unit := do
  let _ ← ExceptT.lift (request q)

/-- The expired archives; their checksum files are removed silently. -/
def removeExpired (c : Settings) (v : Variables) : ScriptM Unit := do
  let listed ← perform v .list
  (expired c listed).forM fun archive => do
    perform v (.prune [archive])
    removeSilently (.prune [.checksum archive])

/-- The part of the body that publishes the archive. -/
def publishLocal (c : Settings) (v : Variables) (containerId : Option String) :
    ScriptM Variables := do
  let (date, time) ← perform v .date
  let finalArchive := FileName.stamped date time
  let partialArchive := FileName.partialOf finalArchive c.pid
  let v := { v with finalArchive := some finalArchive, partialArchive := some partialArchive }
  if ← perform v (.exists finalArchive) then fail v
  else
    perform v (.tar partialArchive)
    assertContainerQuiescent v containerId
    perform v (.move partialArchive finalArchive)
    let v := { v with partialArchive := none }
    perform v (.writeChecksum finalArchive)
    removeExpired c v
    let v := { v with backupComplete := true }
    perform v .log
    return v

/-- The `try` block -/
def backupBody (c : Settings) : ScriptM Variables := do
  let v := Variables.initial
  perform v .location
  let v := { v with locationPushed := true }
  let containerId ← getComposeContainerId v
  let v ← stopLocal c v containerId
  publishLocal c v containerId

/-- The files that the `finally` block removes, in its two steps. -/
def removePartial (v : Variables) : ScriptM Unit :=
  match v.partialArchive with
  | some partialArchive => removeSilently (.discard [partialArchive])
  | none => pure ()

def removeFinal (v : Variables) : ScriptM Unit :=
  match v.finalArchive with
  | some finalArchive =>
    if v.backupComplete then pure () else do
      removeSilently (.discard [finalArchive])
      removeSilently (.discard [.checksum finalArchive])
  | none => pure ()

/-- The `finally` block; it raises if the server cannot be restarted. -/
def backupFinally (status : ℕ) (v : Variables) : ScriptM ℕ := do
  removePartial v
  removeFinal v
  let mut status := status
  if v.wasRunning then
    if !succeeds (← ExceptT.lift (request .startServer)) then status := 1
  if v.locationPushed then perform v .location
  perform v .unlock
  return status

/-- `Backup-PZLocal.ps1` -/
def backupPZLocal (c : Settings) : Program Command Reply Result :=
  handled (backupBody c) backupFinally

/-- The two scripts. -/
inductive Script where
  | pzBackup
  | backupPZLocal
  deriving DecidableEq

def Script.run (c : Settings) : Script → Program Command Reply Result
  | .pzBackup => WorldBackup.pzBackup c
  | .backupPZLocal => WorldBackup.backupPZLocal c

end WorldBackup

end PzServer
