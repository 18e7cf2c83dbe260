import PzServer.Deploy.Host

/-!
# `pzctl deploy`

The deployment transaction, function by function. The script runs under `set -Eeuo pipefail`: a
command that fails outside a condition ends the script, and a function that is called in a condition
returns its status instead. Both are exceptions here, with the exit status and the message on
standard error; a condition is an `attempt`. What a run says while it goes well is left out.

The parts of `deploy_commit` are functions of their own: `resumePending` and `adoptTarget` are its
entry, with and without a pending marker, `beginTransaction` writes the marker, and `switchToTarget`
is what follows the safe stop.
-/

namespace PzServer

namespace Deploy

open Interaction

/-! ### Failing -/

/-- How a function of the script fails: its status and its message. -/
structure Failure where
  status : ℕ
  message : String := ""
  deriving DecidableEq, Repr

/-- The script's monad. -/
abbrev DeployM : Type → Type := ExceptT Failure (Program DeployRequest DeployReply)

/-- Run a command. -/
def ask (q : DeployRequest) : DeployM (DeployReply q) := ExceptT.lift (request q)

/-- Print a message and fail with status 1. -/
def refuse {α : Type} (message : String) : DeployM α := throw { status := 1, message := message }

/-- Go on only if a command succeeded. -/
def expect (succeeded : Bool) (message : String := "") : DeployM Unit :=
  if succeeded then pure () else refuse message

/-- A function in a condition: whether it succeeds. -/
def attempt (body : DeployM Unit) : DeployM Bool :=
  tryCatch (do body; return true) fun _ => return false

instance : ToString Sha := ⟨fun c => String.ofList c.text⟩

/-! ### State files -/

/-- `write_deployment_state` -/
def writeDeploymentState (destination : StateFile) (content : Text) : DeployM Unit := do
  expect (← ask (.printTemporary destination (line content)))
  if !(← ask (.chmodTemporary destination)) then
    let _ ← ask (.removeTemporary destination)
    refuse ""
  else if !(← ask (.moveTemporary destination (line content))) then
    let _ ← ask (.removeTemporary destination)
    refuse ""
  else
    expect (← ask (.syncFile destination))
    expect (← ask (.syncDirectoryOf destination))

/-- `record_deployed_commit` -/
def recordDeployedCommit (commit : Sha) : DeployM Unit := do
  if !(← attempt (writeDeploymentState .deployed commit.text)) then
    refuse "Could not record deployed commit; pending recovery state is retained."
  else
    expect (← ask (.remove .pending)) "Could not clear pending deployment state."
    expect (← ask .syncStateDirectory) "Could not persist pending deployment removal."

/-! ### Authorized starts -/

/-- What is written to the authorization file. -/
def authorization (processId startTime : Text) : Text :=
  "PZ_DEPLOY_START=".toList ++ processId ++ ':' :: startTime

/-- `authorize_deployment_start` -/
def authorizeDeploymentStart (processId : Text) (guardianRequired : Bool := true) :
    DeployM Unit := do
  match ← ask .processStartTime with
  | none => refuse ""
  | some startTime =>
    writeDeploymentState .authorization (authorization processId startTime)
    if guardianRequired then
      if !(← ask (.startGuardian startTime)) then
        let _ ← ask (.remove .authorization)
        refuse ""

/-- `revoke_deployment_start` -/
def revokeDeploymentStart : DeployM Unit := do
  let stopped ← ask .stopGuardian
  let removed ← ask (.remove .authorization)
  expect (stopped && removed)

/-- The guarded stop of `rollback_deployment` and of `deploy_commit`: whether the service is
provably quiescent. -/
def quiesceAuthorized (processId : Text) (guardianRequired : Bool) (version : Directory)
    (allowConnectedPlayers : Bool) : DeployM Bool := do
  let quiesced ← attempt do
    authorizeDeploymentStart processId guardianRequired
    expect (← ask (.quiesce version allowConnectedPlayers))
  let revoked ← attempt revokeDeploymentStart
  return quiesced && revoked

/-! ### Rollback -/

/-- `rollback_deployment`, once the previous environment is back in its place. -/
def startPrevious (processId : Text) (previous : Sha) : DeployM Unit := do
  if !(← attempt (authorizeDeploymentStart processId)) then
    refuse "Could not authorize the guarded previous-service start."
  else
    expect (← ask (.installHost true))
      "Previous commit installation also failed; manual recovery is required."
    expect (← ask (.verifyReady .watchdog))
      "Previous commit was restored but did not become ready; manual recovery is required."
    recordDeployedCommit previous
    if !(← attempt revokeDeploymentStart) then
      refuse "Could not revoke deployment start authorization."
    else
      let _ ← ask .removeRecovery

/-- `rollback_deployment` -/
def rollbackDeployment (processId : Text) (previous : Sha) (allowConnectedPlayers : Bool) :
    DeployM Unit := do
  if !(← quiesceAuthorized processId true .rollback allowConnectedPlayers) then
    refuse ("Automatic rollback is prohibited because the target service is not provably " ++
      "quiescent.")
  else
    expect (← ask (.checkout previous))
      s!"Could not restore repository commit {previous}; services remain stopped."
    expect (← ask (.removeDirectory .watchdog))
      "Could not remove the partial target watchdog environment."
    expect (← ask (.moveDirectory .rollback .watchdog))
      "Could not restore the preserved previous watchdog environment."
    startPrevious processId previous

/-! ### Entry -/

/-- What the entry of `deploy_commit` finds. -/
inductive Admission where
  | alreadyDeployed
  /-- A transaction from `previous`, with the present `HEAD` if it is one that was interrupted. -/
  | transaction (previous : Sha) (interruptedAt : Option Sha)
  deriving DecidableEq

/-- `git rev-parse --verify HEAD`, which must print something. -/
def headCommit : DeployM Sha := do
  match ← ask .revParseHead with
  | none => refuse ""
  | some head => return head

/-- A checkout of the target must come with the preserved previous environment. -/
def requirePreserved (current previous target : Sha) : DeployM Unit := do
  if current = target ∧ previous ≠ target then
    expect (← ask (.isDirectory .rollback))
      "Pending target checkout has no preserved previous watchdog; refusing unsafe recovery."

/-- An interrupted deployment is resumed without the network. -/
def requireFetched (target : Sha) : DeployM Unit := do
  if (← ask (.revParse target)) ≠ some target then
    refuse ("The already-fetched pending commit is unavailable locally; refusing " ++
      "network-dependent recovery.")
  else
    expect (← ask (.preflight target))

/-- The entry, when there is a pending marker. -/
def resumePending (target : Sha) (content : Text) : DeployM Admission := do
  match parseMarker content with
  | none => refuse "Pending deployment state is malformed; refusing automatic recovery."
  | some (previous, pendingTarget) =>
    if pendingTarget ≠ target then
      refuse (s!"Commit {pendingTarget} is pending; retry that exact SHA before another " ++
        "deployment.")
    else
      let current ← headCommit
      if current ≠ previous ∧ current ≠ target then
        refuse "The checkout no longer matches either side of the pending deployment."
      else
        requirePreserved current previous target
        requireFetched target
        return .transaction previous (some current)

/-- `[[ "${remote}" == https://* && "${remote}" != *"@"* ]]` -/
def isCredentialFree (remote : Text) : Bool := "https://".toList.isPrefixOf remote && '@' ∉ remote

/-- `HEAD` must be the commit that was deployed last, if one was recorded. -/
def checkDeployed (previous target : Sha) (deployed : Text) : DeployM Admission := do
  if deployed ≠ [] ∧ !isSha deployed then
    refuse "Recorded deployed commit is malformed; refusing deployment."
  else if deployed = [] ∧ previous ≠ target then
    refuse (s!"No deployed-commit marker exists. First deploy the current HEAD {previous} " ++
      "to establish a verified baseline.")
  else if deployed ≠ [] ∧ deployed ≠ previous.text then
    refuse ("Git HEAD does not match the last completed deployment; refusing to adopt " ++
      "repository drift.")
  else if deployed = target.text then
    return .alreadyDeployed
  else
    return .transaction previous none

/-- The entry, when there is none. -/
def adoptTarget (target : Sha) : DeployM Admission := do
  match ← ask .remoteUrl with
  | none => refuse ""
  | some remote =>
    expect (isCredentialFree remote) "The origin must remain a credential-free HTTPS URL."
    expect (← ask (.fetch target))
    match ← ask .revParseFetchHead with
    | none => refuse ""
    | some fetched =>
      expect (fetched = target) "Fetched commit does not match the requested immutable SHA."
      expect (← ask (.preflight target))
      let previous ← headCommit
      checkDeployed previous target (recorded (← ask .catDeployed))

/-- The entry. -/
def enter (target : Sha) : DeployM Admission := do
  match ← ask .readPending with
  | some content => resumePending target content
  | none => adoptTarget target

/-! ### The transaction -/

/-- What `deploy_commit` does before it writes to the checkout, when there is no marker yet. -/
def beginTransaction (previous target : Sha) : DeployM Unit := do
  expect (← ask (.removeDirectory .rollback))
  expect (← ask .installRecovery) "Could not preserve the current deployment orchestrator."
  if !(← attempt do
      expect (← ask .syncRecovery)
      expect (← ask .syncRecoveryDirectory)) then
    let _ ← ask .removeRecovery
    refuse "Could not persist the recovery orchestrator."
  else if !(← attempt (writeDeploymentState .pending (marker previous target))) then
    let _ ← ask .removeRecovery
    refuse ""

/-- The service did not stop: a transaction that this run began is taken back. -/
def abandonTransaction (interrupted : Bool) : DeployM Unit := do
  if !interrupted then
    expect (← ask (.remove .pending))
    expect (← ask .removeRecovery)
    let _ ← ask .syncStateDirectory
  refuse ""

/-- The target did not become ready. -/
def rollBackAndFail (processId : Text) (previous : Sha) (allowConnectedPlayers : Bool)
    (message : String) : DeployM Unit := do
  if ← attempt (rollbackDeployment processId previous allowConnectedPlayers) then
    refuse message
  else
    refuse "Guarded rollback failed; pending recovery state is retained."

/-- Install the target and wait until it is ready. -/
def installTarget (processId : Text) : DeployM Unit := do
  authorizeDeploymentStart processId
  expect (← ask (.installHost false))
  expect (← ask (.verifyReady .rollback))

/-- The previous environment is put aside, unless an earlier run has done so. -/
def preserveWatchdog : DeployM Unit := do
  if !(← ask (.isDirectory .rollback)) then
    expect (← ask (.moveDirectory .watchdog .rollback))
      "Could not preserve the previous watchdog environment."

/-- The end of a deployment that went well. -/
def finishTransaction : DeployM Unit := do
  if !(← attempt revokeDeploymentStart) then
    refuse "Could not revoke deployment start authorization."
  else
    let _ ← ask (.removeDirectory .rollback)
    let _ ← ask .removeRecovery

/-- `deploy_commit`, after the safe stop. -/
def switchToTarget (processId : Text) (previous target : Sha) (allowConnectedPlayers : Bool) :
    DeployM Unit := do
  preserveWatchdog
  if !(← ask (.checkout target)) then
    rollBackAndFail processId previous allowConnectedPlayers
      "Checkout failed after the safe stop; attempting guarded rollback."
  else if !(← attempt (installTarget processId)) then
    rollBackAndFail processId previous allowConnectedPlayers
      s!"Deployment {target} failed installation or readiness checks."
  else if !(← attempt (recordDeployedCommit target)) then
    rollBackAndFail processId previous allowConnectedPlayers
      s!"Deployment {target} failed installation or readiness checks."
  else
    finishTransaction

/-- There is an environment to stop the service with. -/
def requireWatchdog : DeployM Unit := do
  if !(← ask (.isDirectory .rollback)) then
    expect (← ask (.hasPython .watchdog))
      "The current watchdog environment is missing; refusing an unprotected deployment."

/-- `deploy_commit`, once it knows where it starts from. -/
def runTransaction (processId : Text) (previous target : Sha) (interruptedAt : Option Sha)
    (allowConnectedPlayers : Bool) : DeployM Unit := do
  requireWatchdog
  if interruptedAt = none then
    beginTransaction previous target
  let preserved ← ask (.isDirectory .rollback)
  let version := if preserved then .rollback else .watchdog
  let guardianRequired := decide (interruptedAt = some target ∧ previous ≠ target)
  if !(← quiesceAuthorized processId guardianRequired version allowConnectedPlayers) then
    abandonTransaction interruptedAt.isSome
  else
    switchToTarget processId previous target allowConnectedPlayers

/-- What follows the entry. -/
def deployAdmitted (processId : Text) (target : Sha) (allowConnectedPlayers : Bool) :
    Admission → DeployM Unit
  | .alreadyDeployed => do expect (← ask (.verifyReady .watchdog))
  | .transaction previous interruptedAt =>
    runTransaction processId previous target interruptedAt allowConnectedPlayers

/-- The arguments after the commit. -/
def parseArguments : List Text → Option Bool
  | [] => some false
  | [option] => if option = "--allow-connected-players".toList then some true else none
  | _ => none

/-- One run of `pzctl deploy`: its process and its arguments. -/
structure DeployCommand where
  /-- `$$` -/
  processId : Text
  target : Text
  arguments : List Text
  deriving DecidableEq

/-- `deploy_commit` -/
def deployCommit (command : DeployCommand) : DeployM Unit := do
  match Sha.ofTarget command.target, parseArguments command.arguments with
  | none, _ => throw ⟨64, "Deployment requires one exact 40-character Git commit SHA."⟩
  | _, none => throw ⟨64, "Usage: pzctl deploy COMMIT [--allow-connected-players]"⟩
  | some target, some allowConnectedPlayers =>
    expect (← ask .isRepository) "/opt/pz-stack is not a Git checkout."
    expect (← ask .status)
      "The production checkout is dirty; refusing to overwrite local changes."
    expect (← ask .createStateDirectory)
    expect (← ask .disableServerRestartPolicy)
    let admission ← enter target
    deployAdmitted command.processId target allowConnectedPlayers admission

/-- Runs of `pzctl deploy`, one after another, each of which may stop anywhere. -/
abbrev DeployHistory (init : Disk → Prop) :=
  History deployHost (fun command : DeployCommand => (deployCommit command).run) init

/-- One command of one run. -/
abbrev DeployEntry : Type := Entry DeployCommand DeployRequest DeployReply Disk

end Deploy

end PzServer
