import PzServer.Updater.Requests

/-!
# The operations of `GameUpdater`

The six operations of `pz_updater/core.py`, statement by statement. Every `try` is a `tryCatch`
whose handler rethrows what the source's `except` clause does not name; `raise` is `throw`. Log
lines are left out, and so are the checks for symbolic links: the updater makes none, and starts
from an empty install root.

Long methods are cut at their `try` blocks into named parts, in the order of the source.
-/

namespace PzServer

namespace Updater

/-! ### Small pieces -/

/-- `text[:500]` -/
def first500 (text : String) : String := String.ofList (text.toList.take 500)

/-- `StateStore.write`: persist the record and return it. -/
def writeState (value : Record) : UpdaterM Record := do
  ask (.writeState value)
  return value

/-- `try: body`, with an `except` clause for the exceptions that `catches` names. -/
def exceptOn {α : Type} (catches : Err → Bool) (body : UpdaterM α) (handler : Err → UpdaterM α) :
    UpdaterM α :=
  tryCatch body fun error => if catches error then handler error else throw error

/-- `except (UpdateError, OSError)` -/
abbrev exceptUpdateOrOS {α : Type} (body : UpdaterM α) (handler : Err → UpdaterM α) : UpdaterM α :=
  exceptOn (fun error => error.isUpdateError || error.isOSError) body handler

/-- `except UpdateError` -/
abbrev exceptUpdate {α : Type} (body : UpdaterM α) (handler : Err → UpdaterM α) : UpdaterM α :=
  exceptOn Err.isUpdateError body handler

/-- `except OSError` -/
abbrev exceptOS {α : Type} (body : UpdaterM α) (handler : Err → UpdaterM α) : UpdaterM α :=
  exceptOn Err.isOSError body handler

/-- `shutil.rmtree(path, ignore_errors=True)` -/
def rmtreeIgnoringErrors (r : Release) : UpdaterM Unit :=
  tryCatch (ask (.rmtree r)) fun _ => pure ()

/-- `if isinstance(error, UpdateError): raise`, and otherwise `raise UpdateError(text)`. -/
def reraise {α : Type} (error : Err) (text : String) : UpdaterM α :=
  if error.isUpdateError then throw error else throw (.update text)

/-- `LauncherValidator.prepare` -/
def launcherPrepare (c : UpdateConfiguration) (r : Release) : UpdaterM SteamBuildMetadata := do
  let metadata ← ask (.inspectLauncher r c.pzXms c.pzXmx)
  ask (.writeLauncherJson r c.pzXms c.pzXmx)
  ask (.replaceWrapper r)
  return metadata

/-- `ReleaseLayout.write_previous` -/
def writePrevious : Option Release → UpdaterM Unit
  | none => ask .unlinkPrevious
  | some r => ask (.writePrevious r)

/-- `if path is not None and path.exists(): shutil.rmtree(path)` -/
def removeIfPresent : Option Release → UpdaterM Unit
  | none => pure ()
  | some path => do
    if ← ask (.pathExists path) then
      ask (.rmtree path)

/-- `ReleaseLayout.discard_old_previous` -/
def discardOldPrevious (active : Release) : UpdaterM Unit := do
  let previous ← ask .readPrevious
  removeIfPresent (previous.filter fun release => release ≠ active)
  writePrevious none

/-! ### Records of outcomes -/

/-- `_write_observation` -/
def writeObservation (c : UpdateConfiguration) (state : Record)
    (current : Option SteamBuildMetadata) (result : LastResult) : UpdaterM Record := do
  let now ← ask .utcNow
  writeState { state with
    state := if current.isSome then .current else .uninitialized
    currentBuild := current.map SteamBuildMetadata.buildId
    candidateBuild := none
    lastResult := some result
    updatePolicy := some c.policy.value
    steamBranch := some c.steamBranch
    updatedAt := some now }

/-- `_record_pre_world_failure` -/
def recordPreWorldFailure (state : Record) (current : Option SteamBuildMetadata)
    (candidate : Option ℕ) (result : LastResult) (detail : String) (block : Bool) :
    UpdaterM Record := do
  let checkedAt ← ask .utcNow
  let now ← ask .utcNow
  writeState { state with
    state := .failedBeforeWorldOpen
    currentBuild := current.map SteamBuildMetadata.buildId
    candidateBuild := candidate
    candidateRelease := none
    promotedRelease := none
    blockedBuild := if block then candidate else none
    lastResult := some result
    detail := some (first500 detail)
    lastCheckAt := some checkedAt
    updatedAt := some now }

/-! ### Recovery -/

/-- `_recover_activation`, when the candidate is the active release. -/
def completeActivation (state : Record) : UpdaterM Record := do
  let now ← ask .utcNow
  writeState { state with
    state := .pendingReadiness
    currentBuild := state.candidateBuild
    updatedAt := some now }

/-- `_recover_activation`, when the previous release is still the active one. -/
def abandonActivation (state : Record) : UpdaterM Record := do
  removeIfPresent state.candidateRelease
  let now ← ask .utcNow
  writeState { state with
    state := .failedBeforeWorldOpen
    candidateRelease := none
    lastResult := some .activationFailed
    blockedBuild := none
    detail := some "Activation was interrupted before the candidate became active"
    updatedAt := some now }

/-- `_recover_activation` -/
def recoverActivation (state : Record) : UpdaterM Record := do
  if state.state ≠ .activating then
    return state
  let active ← ask .readActive
  if active.isSome ∧ state.candidateRelease.isSome ∧ active = state.candidateRelease then
    completeActivation state
  else if active = state.previousRelease then
    abandonActivation state
  else
    let never ← ask .raiseAmbiguous
    return never.elim

/-- One iteration of the cleanup loop of `_recover_interrupted`. -/
def removeInterrupted : Option Release → UpdaterM Unit
  | none => pure ()
  | some path => do
    if ← ask (.pathExists path) then
      exceptOS (ask (.rmtree path)) fun _ =>
        throw (.update "Could not clean an interrupted candidate release")

/-- `_recover_interrupted` -/
def recoverInterrupted (state : Record) : UpdaterM Record := do
  if state.state ≠ .downloadingCandidate ∧ state.state ≠ .promotingCandidate then
    recoverActivation state
  else if state.candidateRelease.isNone ∧ state.promotedRelease.isNone then
    throw (.update "Interrupted candidate state does not identify its staged release")
  else
    removeInterrupted state.candidateRelease
    removeInterrupted state.promotedRelease
    let now ← ask .utcNow
    writeState { state with
      state := .failedBeforeWorldOpen
      candidateRelease := none
      promotedRelease := none
      blockedBuild := none
      lastResult := some .candidateInterrupted
      detail := some "Candidate preparation was interrupted before activation"
      updatedAt := some now }

/-! ### The update transaction -/

/-- `_stage_and_activate`: the checks before a candidate directory is made. -/
def checkPreconditions (active : Option Release) (current : Option SteamBuildMetadata)
    (latest : ℕ) (state : Record) : UpdaterM Unit := do
  if ← ask .gameServerRunning then
    let detail := "A Project Zomboid GameServer process is active; update refused"
    let _ ← recordPreWorldFailure state current (some latest) .updatePreconditionFailed detail false
    throw (.update detail)
  else
    exceptUpdateOrOS
      (do
        match active with
        | some release => discardOldPrevious release
        | none => pure ()
        ask (.requireCandidateSpace current))
      fun error => do
        let detail := error.detail
        let _ ←
          recordPreWorldFailure state current (some latest) .updatePreconditionFailed detail false
        reraise error s!"Candidate precondition failed: {detail}"

/-- `_stage_and_activate`: the candidate directory and the record that names it. -/
def beginDownload (c : UpdateConfiguration) (current : Option SteamBuildMetadata) (latest : ℕ)
    (state : Record) : UpdaterM Release := do
  let candidate ← ask (.uniqueCandidate latest)
  exceptOS (ask (.mkdir candidate)) fun error => do
    let _ ← recordPreWorldFailure state current (some latest) .updatePreconditionFailed
      error.typeName false
    throw (.update "Could not create the isolated candidate directory")
  exceptUpdate
    (do
      let checkedAt ← ask .utcNow
      let now ← ask .utcNow
      let _ ← writeState { state with
        state := .downloadingCandidate
        currentBuild := current.map SteamBuildMetadata.buildId
        candidateBuild := some latest
        candidateRelease := some candidate
        lastCheckAt := some checkedAt
        updatePolicy := some c.policy.value
        steamBranch := some c.steamBranch
        updatedAt := some now })
    fun error => do
      rmtreeIgnoringErrors candidate
      throw error
  return candidate

/-- `_stage_and_activate`: the Steam download. -/
def download (c : UpdateConfiguration) (candidate : Release)
    (current : Option SteamBuildMetadata) (latest : ℕ) (state : Record) (validate : Bool) :
    UpdaterM Unit :=
  tryCatch (ask (.install candidate c.steamBranch c.branchPassword validate)) fun error => do
    rmtreeIgnoringErrors candidate
    let detail := error.detail
    let _ ←
      recordPreWorldFailure state current (some latest) .candidateDownloadFailed detail false
    reraise error s!"Candidate installation failed: {detail}"

/-- `_stage_and_activate`: launcher validation of the candidate. -/
def validateCandidate (c : UpdateConfiguration) (candidate : Release)
    (current : Option SteamBuildMetadata) (latest : ℕ) (state : Record) : UpdaterM Unit :=
  tryCatch
    (do
      let metadata ← launcherPrepare c candidate
      if metadata.buildId ≠ latest then
        throw (.incompatible
          s!"Candidate manifest build {metadata.buildId} does not match expected {latest}"))
    fun error => do
      rmtreeIgnoringErrors candidate
      match error with
      | .incompatible text =>
        let _ ← recordPreWorldFailure state current (some latest) .candidateIncompatible text true
        throw error
      | error =>
        let detail := error.detail
        let _ ←
          recordPreWorldFailure state current (some latest) .candidateValidationFailed detail false
        reraise error s!"Candidate validation failed: {detail}"

/-- `_stage_and_activate`: the pre-update backup. -/
def createBackup (candidate : Release) (current : Option SteamBuildMetadata) (latest : ℕ)
    (state : Record) : UpdaterM String :=
  tryCatch (ask (.createBackup (current.map SteamBuildMetadata.buildId) latest)) fun error => do
    rmtreeIgnoringErrors candidate
    let detail := error.detail
    let _ ← recordPreWorldFailure state current (some latest) .backupFailed detail false
    reraise error s!"Pre-update backup failed: {detail}"

/-- `_stage_and_activate`: back up when there is anything to back up. -/
def backUp (active : Option Release) (candidate : Release)
    (current : Option SteamBuildMetadata) (latest : ℕ) (state : Record) :
    UpdaterM (Option String) := do
  let needed ← if active.isSome then pure true else ask .worldHasState
  if needed then
    let path ← createBackup candidate current latest state
    return some path
  else
    return none

/-- Remove a directory of a failed promotion, if it is there. -/
def discardFailed (r : Release) : UpdaterM Unit := do
  if ← ask (.pathExists r) then
    rmtreeIgnoringErrors r

/-- `_stage_and_activate`: the candidate gets its final name, and the record becomes
`activating`. -/
def renameCandidate (candidate final : Release) (current : Option SteamBuildMetadata)
    (latest : ℕ) (state promoting : Record) : UpdaterM Record :=
  exceptUpdateOrOS
    (do
      ask (.promote candidate final)
      let now ← ask .utcNow
      writeState { promoting with
        state := .activating
        candidateRelease := some final
        promotedRelease := none
        updatedAt := some now })
    fun error => do
      discardFailed candidate
      discardFailed final
      let _ ← recordPreWorldFailure state current (some latest) .promotionFailed
        error.typeName false
      reraise error "Candidate promotion failed before activation"

/-- `_stage_and_activate`: promotion. Returns the final name and the `activating` record. -/
def promoteCandidate (active : Option Release) (candidate : Release)
    (current : Option SteamBuildMetadata) (latest : ℕ) (state : Record)
    (backupPath : Option String) : UpdaterM (Release × Record) := do
  let final ← ask (.finalRelease latest)
  let now ← ask .utcNow
  let promoting ← writeState { state with
    state := .promotingCandidate
    currentBuild := current.map SteamBuildMetadata.buildId
    previousBuild := current.map SteamBuildMetadata.buildId
    candidateBuild := some latest
    previousRelease := active
    candidateRelease := some candidate
    promotedRelease := some final
    preUpdateBackup := backupPath
    worldOpened := some false
    updatedAt := some now }
  let activating ← renameCandidate candidate final current latest state promoting
  return (final, activating)

/-- `_stage_and_activate`: the two pointer writes. -/
def switchPointers (active : Option Release) (final : Release) : UpdaterM Unit := do
  writePrevious active
  ask (.writeActive final)

/-- `_stage_and_activate`: activation and the `pending-readiness` record. -/
def activate (active : Option Release) (final : Release) (latest : ℕ) (activating : Record) :
    UpdaterM Record := do
  exceptOS (switchPointers active final) fun _ => do
    let recovered ← recoverActivation activating
    if recovered.state ≠ .pendingReadiness then
      throw (.update
        "Atomic candidate activation failed; the previous release remains selected")
  let now ← ask .utcNow
  writeState { activating with
    state := .pendingReadiness
    currentBuild := some latest
    lastResult := some .candidateActivated
    updatedAt := some now }

/-- `_stage_and_activate` -/
def stageAndActivate (c : UpdateConfiguration) (active : Option Release)
    (current : Option SteamBuildMetadata) (latest : ℕ) (state : Record) (validate : Bool) :
    UpdaterM Record := do
  checkPreconditions active current latest state
  let candidate ← beginDownload c current latest state
  download c candidate current latest state validate
  validateCandidate c candidate current latest state
  let backupPath ← backUp active candidate current latest state
  let (final, activating) ← promoteCandidate active candidate current latest state backupPath
  activate active final latest activating

/-- The record of `_check_and_update` when there is nothing to do. -/
def recordNoUpdate (c : UpdateConfiguration) (currentBuild : Option ℕ) (state : Record) :
    UpdaterM Record := do
  let checkedAt ← ask .utcNow
  let now ← ask .utcNow
  writeState { state with
    state := .current
    currentBuild := currentBuild
    candidateBuild := none
    blockedBuild := none
    detail := none
    lastCheckAt := some checkedAt
    lastResult := some .noUpdate
    updatePolicy := some c.policy.value
    steamBranch := some c.steamBranch
    updatedAt := some now }

/-- `_check_and_update` -/
def checkAndUpdate (c : UpdateConfiguration) (active : Option Release)
    (current : Option SteamBuildMetadata) (state : Record) (validate allowBlocked : Bool) :
    UpdaterM Record := do
  let latest ← exceptUpdate (ask (.latestBuild c.steamBranch)) fun error => do
    let _ ← recordPreWorldFailure state current none .metadataQueryFailed error.message false
    throw error
  let currentBuild := current.map SteamBuildMetadata.buildId
  if currentBuild = some latest ∧ !validate then
    recordNoUpdate c currentBuild state
  else if currentBuild.any (latest < ·) then
    let text :=
      "Steam branch build is older than the active build; automatic downgrade refused"
    let value ← recordPreWorldFailure state current (some latest) .downgradeBlocked text false
    throw (.update (value.detail.getD "None"))
  else if currentBuild.isSome ∧ state.blockedBuild = some latest ∧ !allowBlocked then
    throw (.update
      (s!"Steam build {latest} was previously rejected before world open; " ++
        "use manual policy or a reviewed repair"))
  else
    stageAndActivate c active current latest state validate

/-! ### Entry points -/

/-- The `except UpdateError` clause of `prepare_start`. -/
def afterFailedUpdate (active : Option Release) (error : Err) : UpdaterM Record := do
  let failed ← ask .loadState
  let selected ← ask .readActive
  let failed ←
    if failed.state = .downloadingCandidate ∨ failed.state = .promotingCandidate then
      exceptUpdate (recoverInterrupted failed) fun _ => pure failed
    else
      pure failed
  if active.isSome ∧ selected = active ∧
      failed.state ∉ [.activating, .pendingReadiness, .startingCandidate, .runtimeReady,
        .failedAfterWorldOpen] then
    return failed
  else
    throw error

/-- Preparing the launcher of the active release, if there is one. -/
def prepareActive (c : UpdateConfiguration) : Option Release → UpdaterM (Option SteamBuildMetadata)
  | some release => do
    let metadata ← launcherPrepare c release
    return some metadata
  | none => return none

/-- `prepare_start`: what the update policy allows, and the update. -/
def applyPolicy (c : UpdateConfiguration) (active : Option Release)
    (current : Option SteamBuildMetadata) (state : Record) : UpdaterM Record := do
  if active.isSome ∧ c.policy = .manual then
    if state.state = .failedBeforeWorldOpen then
      return state
    else
      writeObservation c state current .manualPolicy
  else if active.isSome ∧ c.modsConfigured ∧ !c.allowAutoUpdateWithMods then
    writeObservation c state current .blockedMods
  else
    exceptUpdate (checkAndUpdate c active current state false false) (afterFailedUpdate active)

/-- `prepare_start`, once no candidate waits for readiness and no deployment is pending. -/
def prepareSettled (c : UpdateConfiguration) : UpdaterM Record := do
  ask .ensureRoot
  let ensured ← ask .readActive
  let state ← ask .loadState
  let reread ← ask .readActive
  let active := reread <|> ensured
  let current ← prepareActive c active
  applyPolicy c active current state

/-- `GameUpdater.prepare_start` -/
def prepareStart (c : UpdateConfiguration) : UpdaterM Record := do
  ask .lock
  let state ← recoverInterrupted (← ask .loadState)
  let active ← ask .readActive
  if state.state ∈ [.pendingReadiness, .startingCandidate, .runtimeReady,
      .failedAfterWorldOpen] then
    match active with
    | none => throw (.update "Candidate update state has no active release")
    | some release =>
      let _ ← launcherPrepare c release
      return state
  else if ← ask .markerExists then
    match active with
    | none =>
      throw (.update "Repository deployment suppressed updates but no game release exists")
    | some release =>
      let current ← ask (.readInstalledMetadata release)
      writeObservation c state (some current) .repositoryDeploySuppressed
  else
    prepareSettled c

/-- `GameUpdater.CANDIDATE_STATES` -/
def candidateStates : List StateName :=
  [.activating, .downloadingCandidate, .pendingReadiness, .promotingCandidate,
    .startingCandidate, .runtimeReady, .failedAfterWorldOpen]

/-- `GameUpdater.explicit_update` -/
def explicitUpdate (c : UpdateConfiguration) (validate : Bool) : UpdaterM Record := do
  ask .lock
  let _ ← recoverInterrupted (← ask .loadState)
  if ← ask .markerExists then
    throw (.update "Repository deployment is pending; explicit game update refused")
  ask .ensureRoot
  let active ← ask .readActive
  let state ← ask .loadState
  if state.state ∈ candidateStates then
    throw (.update ("A candidate has already touched or is awaiting the real world; " ++
      "another update is prohibited"))
  let current ← prepareActive c active
  checkAndUpdate c active current state validate true

/-- `_verify_candidate_active` -/
def verifyCandidateActive (state : Record) : UpdaterM Unit := do
  let active ← ask .readActive
  match state.candidateRelease, state.candidateBuild, active with
  | some candidate, some build, some release =>
    if release ≠ candidate then
      throw (.update "Candidate state does not match the active release pointer")
    else
      let metadata ← ask (.readInstalledMetadata release)
      if metadata.buildId ≠ build then
        throw (.update "Candidate state does not match the active Steam manifest")
  | _, _, _ => throw (.update "Candidate state does not match the active release pointer")

/-- `_complete_acceptance` -/
def completeAcceptance (state : Record) : UpdaterM Record := do
  match state.candidateBuild with
  | none => throw (.update "Candidate state contains an invalid candidate Steam build")
  | some candidateBuild =>
    let acceptedAt ← ask .utcNow
    let now ← ask .utcNow
    writeState { state with
      state := .current
      currentBuild := some candidateBuild
      candidateBuild := none
      candidateRelease := none
      promotedRelease := none
      lastResult := some (if state.previousBuild.isNone then .installed else .updated)
      lastUpdateFromBuild := state.previousBuild
      lastUpdateToBuild := some candidateBuild
      lastSuccessfulUpdateAt := some acceptedAt
      worldOpened := some true
      detail := none
      blockedBuild := none
      updatedAt := some now }

/-- `GameUpdater.mark_world_opened` -/
def markWorldOpened : UpdaterM Bool := do
  ask .lock
  let state ← ask .loadState
  if state.state ∉ [.pendingReadiness, .startingCandidate] then
    return false
  else
    verifyCandidateActive state
    let openedAt ← match state.worldOpenedAt with
      | some openedAt => pure openedAt
      | none => ask .utcNow
    let now ← ask .utcNow
    let _ ← writeState { state with
      state := .startingCandidate
      worldOpened := some true
      worldOpenedAt := some openedAt
      updatedAt := some now }
    return true

/-- `GameUpdater.mark_runtime_ready` -/
def markRuntimeReady (c : UpdateConfiguration) (pzVersion pzRevision : Option String) :
    UpdaterM Unit := do
  ask .lock
  let state ← ask .loadState
  if state.state = .current then
    let ready ← ask .utcNow
    let now ← ask .utcNow
    let _ ← writeState { state with
      pzVersion := pzVersion
      pzRevision := pzRevision
      runtimeReadyAt := some ready
      updatedAt := some now }
  else if state.state ∉ [.pendingReadiness, .startingCandidate, .runtimeReady] then
    return
  else if state.worldOpened ≠ some true then
    throw (.update "Candidate readiness cannot be recorded before the world-open boundary")
  else
    verifyCandidateActive state
    let ready ← ask .utcNow
    let now ← ask .utcNow
    let value := { state with
      state := .runtimeReady
      pzVersion := pzVersion
      pzRevision := pzRevision
      runtimeReadyAt := some ready
      updatedAt := some now }
    if c.deploymentEnvironment = .local then
      let _ ← completeAcceptance value
    else
      let _ ← writeState value

/-- `GameUpdater.accept` -/
def accept : UpdaterM Record := do
  ask .lock
  let state ← ask .loadState
  if state.state ≠ .runtimeReady then
    return state
  else if state.worldOpened ≠ some true then
    throw (.update "Candidate acceptance requires a recorded world-open boundary")
  else
    verifyCandidateActive state
    completeAcceptance state

/-- `GameUpdater.fail_readiness` -/
def failReadiness (detail : String) : UpdaterM Unit := do
  ask .lock
  let state ← ask .loadState
  if state.state ∉ [.pendingReadiness, .startingCandidate, .runtimeReady] then
    return
  else if state.worldOpened ≠ some true then
    throw (.update "Readiness failure cannot cross the world-open boundary implicitly")
  else
    verifyCandidateActive state
    let now ← ask .utcNow
    let _ ← writeState { state with
      state := .failedAfterWorldOpen
      lastResult := some .readinessFailed
      detail := some (first500 detail)
      updatedAt := some now }

/-! ### Operations as one type -/

/-- The six operations that take the transaction lock, with their arguments. The configuration is
an argument of each: two runs of the updater need not share it. -/
inductive Operation where
  | prepareStart (c : UpdateConfiguration)
  | explicitUpdate (c : UpdateConfiguration) (validate : Bool)
  | markWorldOpened
  | markRuntimeReady (c : UpdateConfiguration) (pzVersion pzRevision : Option String)
  | accept
  | failReadiness (detail : String)
  deriving DecidableEq, Repr

namespace Operation

/-- What an operation returns. -/
@[reducible] def Result : Operation → Type
  | prepareStart _ | explicitUpdate .. | accept => Record
  | markWorldOpened => Bool
  | markRuntimeReady .. | failReadiness _ => Unit

/-- The operation's body. -/
def body : (o : Operation) → UpdaterM o.Result
  | prepareStart c => Updater.prepareStart c
  | explicitUpdate c validate => Updater.explicitUpdate c validate
  | markWorldOpened => Updater.markWorldOpened
  | markRuntimeReady c version revision => Updater.markRuntimeReady c version revision
  | accept => Updater.accept
  | failReadiness detail => Updater.failReadiness detail

end Operation

end Updater

end PzServer
