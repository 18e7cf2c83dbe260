import PzServer.Interaction.History
import PzServer.Updater.Disk

/-!
# What the updater asks for

Everything `GameUpdater` does outside its own process is one of the requests below: the durable
steps on the install root, and the questions it puts to Steam, to the launcher validation, to the
backup provider, to `/proc` and to the clock. `world` says what each does to the disk.

## Failures

A read can fail. A durable write is `atomic_write` or one system call, and fails in one of two
ways: `failedBefore`, where nothing changed, and `failedAfter`, where the rename took effect and
only the directory sync after it failed. Removing a directory tree can fail half way and leave any
part of it. Steam, the launcher validation and the backup provider are foreign code: they may raise
anything.

The one assumption is that `uuid4` names are fresh: `final_release` appends a uuid when its first
choice of name is taken, and does not check again.

The `raise` of `_recover_activation` for an ambiguous pointer is a request too. It asks nothing and
always fails, but it leaves a trace, so that runs can be asked whether they ever reach it.
-/

namespace PzServer

namespace Updater

open Interaction

/-! ### Exceptions -/

/-- The exceptions the updater tells apart. -/
inductive Err where
  /-- `UpdateError` -/
  | update (message : String)
  /-- `CandidateIncompatibility`, a subclass of `UpdateError` -/
  | incompatible (message : String)
  /-- `OSError`, with the name of its type -/
  | os (typeName : String)
  /-- Any other exception, with the name of its type -/
  | other (typeName : String)
  deriving DecidableEq, Repr

namespace Err

/-- `isinstance(error, UpdateError)` -/
def isUpdateError : Err → Bool
  | update _ | incompatible _ => true
  | os _ | other _ => false

/-- `isinstance(error, OSError)` -/
def isOSError : Err → Bool
  | os _ => true
  | _ => false

/-- `type(error).__name__` -/
def typeName : Err → String
  | update _ => "UpdateError"
  | incompatible _ => "CandidateIncompatibility"
  | os name | other name => name

/-- `str(error)` of an `UpdateError`; the source asks only those for their text. -/
def message : Err → String
  | update text | incompatible text => text
  | os name | other name => name

/-- `str(error) if isinstance(error, UpdateError) else type(error).__name__` -/
def detail (e : Err) : String := if e.isUpdateError then e.message else e.typeName

end Err

/-! ### Configuration -/

/-- `PZ_UPDATE_POLICY` -/
inductive UpdatePolicy where
  | stableOnStart
  | manual
  deriving DecidableEq, Repr

/-- `UpdatePolicy.value` -/
def UpdatePolicy.value : UpdatePolicy → String
  | stableOnStart => "stable-on-start"
  | manual => "manual"

/-- `DEPLOYMENT_ENVIRONMENT` -/
inductive DeploymentEnvironment where
  | «local»
  | aws
  deriving DecidableEq, Repr

/-- The part of `UpdateConfiguration` that the operations read. Paths are not modelled: there is
one install root. -/
structure UpdateConfiguration where
  branch : String
  branchPassword : String
  policy : UpdatePolicy
  allowAutoUpdateWithMods : Bool
  mods : String
  workshopItems : String
  pzXms : String
  pzXmx : String
  deploymentEnvironment : DeploymentEnvironment
  deriving DecidableEq, Repr

namespace UpdateConfiguration

/-- `steam_branch` -/
def steamBranch (c : UpdateConfiguration) : String := if c.branch = "" then "public" else c.branch

/-- `mods_configured` -/
def modsConfigured (c : UpdateConfiguration) : Bool := c.mods ≠ "" || c.workshopItems ≠ ""

end UpdateConfiguration

/-! ### Requests -/

/-- The requests of the updater. -/
inductive Request where
  /-- `TransactionLock.__enter__` -/
  | lock
  /-- `utc_now` -/
  | utcNow
  /-- `StateStore.load` -/
  | loadState
  /-- the `atomic_write` of `StateStore.write` -/
  | writeState (value : Record)
  /-- `ReleaseLayout.active` -/
  | readActive
  /-- `ReleaseLayout.previous` -/
  | readPrevious
  /-- `ReleaseLayout.write_active` -/
  | writeActive (release : Release)
  /-- `ReleaseLayout.write_previous` of a release -/
  | writePrevious (release : Release)
  /-- `ReleaseLayout.write_previous(None)` -/
  | unlinkPrevious
  /-- the two `mkdir` calls of `ReleaseLayout.ensure` -/
  | ensureRoot
  /-- `repository_deployment_marker.exists()` -/
  | markerExists
  /-- `SteamProvider.latest_build` -/
  | latestBuild (branch : String)
  /-- `SteamProvider.install` -/
  | install (destination : Release) (branch branchPassword : String) (validate : Bool)
  /-- `game_server_running` -/
  | gameServerRunning
  /-- `_world_has_state` -/
  | worldHasState
  /-- `_require_candidate_space` -/
  | requireCandidateSpace (current : Option SteamBuildMetadata)
  /-- `ReleaseLayout.unique_candidate` -/
  | uniqueCandidate (build : ℕ)
  /-- `ReleaseLayout.final_release` -/
  | finalRelease (build : ℕ)
  /-- `candidate.mkdir` -/
  | mkdir (release : Release)
  /-- `path.exists()` -/
  | pathExists (release : Release)
  /-- `shutil.rmtree` -/
  | rmtree (release : Release)
  /-- `ReleaseLayout.promote_candidate` -/
  | promote (candidate final : Release)
  /-- `LauncherValidator._inspect`, and `_validated_wrapper` with the Bash syntax check -/
  | inspectLauncher (release : Release) (xms xmx : String)
  /-- the `atomic_write` of `ProjectZomboid64.json` in `LauncherValidator.prepare` -/
  | writeLauncherJson (release : Release) (xms xmx : String)
  /-- the `os.replace` of `.pz-start-server.sh` in `LauncherValidator.prepare` -/
  | replaceWrapper (release : Release)
  /-- `read_installed_metadata` -/
  | readInstalledMetadata (release : Release)
  /-- `BackupProvider.create` -/
  | createBackup (oldBuild : Option ℕ) (newBuild : ℕ)
  /-- `raise UpdateError` of `_recover_activation`: the active pointer is ambiguous -/
  | raiseAmbiguous
  deriving DecidableEq, Repr

/-- What a request returns when it does not raise. -/
@[reducible] def Value : Request → Type
  | .lock | .writeState _ | .writeActive _ | .writePrevious _ | .unlinkPrevious | .ensureRoot
  | .install .. | .requireCandidateSpace _ | .mkdir _ | .rmtree _ | .promote ..
  | .writeLauncherJson .. | .replaceWrapper _ => Unit
  | .utcNow | .createBackup .. => String
  | .loadState => Record
  | .readActive | .readPrevious => Option Release
  | .markerExists | .gameServerRunning | .worldHasState | .pathExists _ => Bool
  | .latestBuild _ => ℕ
  | .uniqueCandidate _ | .finalRelease _ => Release
  | .inspectLauncher .. | .readInstalledMetadata _ => SteamBuildMetadata
  | .raiseAmbiguous => Empty

/-- Replies: a value or an exception. -/
abbrev Reply (q : Request) : Type := Except Err (Value q)

/-- One step of the updater. -/
abbrev UpdaterMove : Type := Move Request Reply Disk

/-- The updater's monad: conversations that can raise. -/
abbrev UpdaterM : Type → Type := ExceptT Err (Program Request Reply)

/-- Ask, and raise the exception that comes back. -/
def ask (q : Request) : UpdaterM (Value q) := askRaising q

/-! ### What nature chooses -/

/-- How taking the transaction lock ends. -/
inductive LockOutcome where
  | acquired
  | contended
  | failed (typeName : String)
  deriving DecidableEq, Repr

/-- How a read ends. -/
inductive ReadOutcome where
  | ok
  | failed
  deriving DecidableEq, Repr

/-- How a durable write ends. -/
inductive WriteOutcome where
  | ok
  | failedBefore (typeName : String)
  | failedAfter (typeName : String)
  deriving DecidableEq, Repr

/-- How removing a directory tree ends. -/
inductive RemoveOutcome where
  | removed
  | failed (typeName : String) (left : Directory)
  deriving DecidableEq, Repr

/-- How launcher validation ends, when the directory has a manifest. -/
inductive InspectOutcome where
  | passed
  | raised (error : Err)
  deriving DecidableEq, Repr

/-- The timestamp and the uuid that `final_release` draws. -/
structure FinalName where
  date : ℕ
  time : ℕ
  uuid : ℕ
  deriving DecidableEq, Repr

/-- Nature's choices for each request. -/
@[reducible] def Choice : Request → Type
  | .lock => LockOutcome
  | .utcNow => String
  | .loadState | .readActive | .readPrevious | .readInstalledMetadata _ => ReadOutcome
  | .writeState _ | .writeActive _ | .writePrevious _ | .promote ..
  | .writeLauncherJson .. | .replaceWrapper _ => WriteOutcome
  | .unlinkPrevious | .ensureRoot | .mkdir _ => Option String
  | .markerExists | .worldHasState => Bool
  | .latestBuild _ => Except Err ℕ
  | .install .. => Except Err Unit × Directory
  | .gameServerRunning => Except Err Bool
  | .requireCandidateSpace _ => Option String
  | .uniqueCandidate _ => ℕ
  | .finalRelease _ => FinalName
  | .pathExists _ => Unit
  | .rmtree _ => RemoveOutcome
  | .inspectLauncher .. => InspectOutcome
  | .createBackup .. => Except Err String
  | .raiseAmbiguous => Unit

/-- `_unique_release`: the timestamped name, or the same with a uuid when it is taken. -/
def Disk.uniqueRelease (d : Disk) (build : ℕ) (n : FinalName) : Release :=
  if (d.releases (.steam build n.date n.time)).isSome then
    .steamUnique build n.date n.time n.uuid
  else .steam build n.date n.time

/-- Freshness of `uuid4` names; nothing else is excluded. -/
def allowed (d : Disk) : (q : Request) → Choice q → Bool
  | .finalRelease build, n => (d.releases (d.uniqueRelease build n)).isNone
  | _, _ => true

/-! ### The effect of each request -/

/-- A durable write that sets the disk to `d'`: its outcome decides what is raised and which disk
is left. -/
def durably (raise : String → Err) (d d' : Disk) : WriteOutcome → Except Err Unit × Disk
  | .ok => (.ok (), d')
  | .failedBefore name => (.error (raise name), d)
  | .failedAfter name => (.error (raise name), d')

/-- `_read_pointer`: the pointer must name an existing directory. -/
def Disk.readPointer (d : Disk) (name : String) (pointer : Option Release) :
    ReadOutcome → Except Err (Option Release)
  | .failed => .error (.update s!"Could not read {name}")
  | .ok => match pointer with
    | none => .ok none
    | some r =>
      if (d.releases r).isSome then .ok (some r)
      else .error (.update s!"{name} points to a missing release")

/-- Overwrite part of a release directory, if it is there. -/
def Disk.inDirectory (d : Disk) (r : Release) (f : Directory → Directory) : Disk :=
  match d.releases r with
  | none => d
  | some D => d.setDirectory r (some (f D))

theorem Disk.inDirectory_of_some {d : Disk} {r : Release} {D : Directory}
    (h : d.releases r = some D) (f : Directory → Directory) :
    d.inDirectory r f = d.setDirectory r (some (f D)) := by simp [inDirectory, h]

/-- `read_installed_metadata` of a release. -/
def Disk.readInstalled (d : Disk) (r : Release) : ReadOutcome → Except Err SteamBuildMetadata
  | .failed => .error (.update s!"Installed Steam manifest is missing: {r.relative}")
  | .ok => match (d.releases r).bind Directory.manifest with
    | none => .error (.update s!"Installed Steam manifest is missing: {r.relative}")
    | some m => .ok m

/-- The reply of each request and the disk it leaves. -/
def answer (d : Disk) : (q : Request) → Choice q → Reply q × Disk
  | .lock, .acquired => (.ok (), d)
  | .lock, .contended =>
    (.error (.update
      "Another Project Zomboid game update transaction is active or unavailable"), d)
  | .lock, .failed name => (.error (.os name), d)
  | .utcNow, now => (.ok now, d)
  | .loadState, .ok => (.ok d.loaded, d)
  | .loadState, .failed => (.error (.update "Update state is unreadable"), d)
  | .writeState value, c =>
    durably (fun _ => .update "Could not persist update state") d { d with record := some value } c
  | .readActive, c => (d.readPointer "active-release" d.active c, d)
  | .readPrevious, c => (d.readPointer "previous-release" d.previous c, d)
  | .writeActive r, c => durably .os d { d with active := some r } c
  | .writePrevious r, c => durably .os d { d with previous := some r } c
  | .unlinkPrevious, none => (.ok (), { d with previous := none })
  | .unlinkPrevious, some name => (.error (.os name), d)
  | .ensureRoot, none => (.ok (), d)
  | .ensureRoot, some name => (.error (.os name), d)
  | .markerExists, b => (.ok b, d)
  | .latestBuild _, c => (c, d)
  | .install r _ _ _, (c, D) => (c, d.inDirectory r fun _ => { D with validated := false })
  | .gameServerRunning, c => (c, d)
  | .worldHasState, b => (.ok b, d)
  | .requireCandidateSpace _, none => (.ok (), d)
  | .requireCandidateSpace _, some text => (.error (.update text), d)
  | .uniqueCandidate build, uuid => (.ok (.candidate build uuid), d)
  | .finalRelease build, n => (.ok (d.uniqueRelease build n), d)
  | .mkdir r, c =>
    if (d.releases r).isSome then (.error (.os "FileExistsError"), d)
    else match c with
      | none => (.ok (), d.setDirectory r (some .empty))
      | some name => (.error (.os name), d)
  | .pathExists r, _ => (.ok (d.releases r).isSome, d)
  | .rmtree r, c =>
    if (d.releases r).isNone then (.error (.os "FileNotFoundError"), d)
    else match c with
      | .removed => (.ok (), d.setDirectory r none)
      | .failed name left =>
        (.error (.os name), d.setDirectory r (some { left with validated := false }))
  | .promote candidate final, c =>
    match d.releases candidate with
    | none => (.error (.os "FileNotFoundError"), d)
    | some D =>
      if (d.releases final).isSome then (.error (.os "OSError"), d)
      else durably .os d ((d.setDirectory candidate none).setDirectory final (some D)) c
  | .inspectLauncher r _ _, c =>
    match c with
    | .raised error => (.error error, d)
    | .passed => match (d.releases r).bind Directory.manifest with
      | none => (.error (.incompatible s!"Candidate is incomplete; {r.relative}"), d)
      | some m => (.ok m, d)
  | .writeLauncherJson r xms xmx, c =>
    durably .os d (d.inDirectory r fun D => { D with heap := some (xms, xmx) }) c
  | .replaceWrapper r, c =>
    match c with
    | .ok => (.ok (), d.inDirectory r fun D => { D with wrapper := true, validated := true })
    | c => durably .os d (d.inDirectory r fun D => { D with wrapper := true }) c
  | .readInstalledMetadata r, c => (d.readInstalled r c, d)
  | .createBackup .., c => (c, d)
  | .raiseAmbiguous, _ =>
    (.error (.update "Interrupted activation left an ambiguous active release pointer"), d)

/-- The updater's surroundings. -/
def world : World Request Reply Disk := ⟨Choice, allowed, answer⟩

/-! ### What a reply tells

`Effect` says once what each request can have done; proofs about the operations use it and never
unfold `answer`. -/

/-- How a durable write to `d'` can have ended, in terms of its reply. -/
def Written (d d' new : Disk) : Except Err Unit → Prop
  | .ok _ => new = d'
  | .error _ => new = d ∨ new = d'

/-- What is known about the disk `new` after request `q` on disk `d` was answered. -/
def Effect (d new : Disk) : (q : Request) → Reply q → Prop
  | .loadState, .ok v => v = d.loaded ∧ new = d
  | .readActive, .ok v => v = d.active ∧ new = d
  | .readPrevious, .ok v => v = d.previous ∧ new = d
  | .pathExists r, .ok v => v = (d.releases r).isSome ∧ new = d
  | .inspectLauncher r _ _, .ok m => (∃ D, d.releases r = some D ∧ D.manifest = some m) ∧ new = d
  | .readInstalledMetadata r, .ok m =>
    (∃ D, d.releases r = some D ∧ D.manifest = some m) ∧ new = d
  | .finalRelease _, .ok r => d.releases r = none ∧ new = d
  | .writeState value, r => Written d { d with record := some value } new r
  | .writeActive release, r => Written d { d with active := some release } new r
  | .writePrevious release, r => Written d { d with previous := some release } new r
  | .unlinkPrevious, .ok _ => new = { d with previous := none }
  | .install r _ _ _, _ => ∃ D, new = d.inDirectory r fun _ => D
  | .mkdir r, .ok _ => d.releases r = none ∧ new = d.setDirectory r (some .empty)
  | .rmtree r, .ok _ => new = d.setDirectory r none
  | .rmtree r, .error _ => new = d ∨ ∃ left, new = d.setDirectory r (some left)
  | .promote candidate final, .ok _ => ∃ D, d.releases candidate = some D ∧
      new = (d.setDirectory candidate none).setDirectory final (some D)
  | .promote candidate final, .error _ => new = d ∨ ∃ D, d.releases candidate = some D ∧
      new = (d.setDirectory candidate none).setDirectory final (some D)
  | .writeLauncherJson r xms xmx, reply =>
    Written d (d.inDirectory r fun D => { D with heap := some (xms, xmx) }) new reply
  | .replaceWrapper r, .ok _ =>
    new = d.inDirectory r fun D => { D with wrapper := true, validated := true }
  | .replaceWrapper r, .error _ =>
    new = d ∨ new = d.inDirectory r fun D => { D with wrapper := true }
  | _, _ => new = d

theorem written_durably (raise : String → Err) (d d' : Disk) (c : WriteOutcome) :
    Written d d' (durably raise d d' c).2 (durably raise d d' c).1 := by
  cases c <;> simp [durably, Written]

theorem Disk.readPointer_ok {d : Disk} {name : String} {pointer v : Option Release}
    {c : ReadOutcome} (h : d.readPointer name pointer c = .ok v) : v = pointer := by
  cases c with
  | failed => simp [readPointer] at h
  | ok =>
    cases pointer with
    | none => simpa [readPointer] using h.symm
    | some r =>
      simp only [readPointer] at h
      split at h
      · simpa using h.symm
      · simp at h

theorem Disk.readInstalled_ok {d : Disk} {r : Release} {m : SteamBuildMetadata}
    {c : ReadOutcome} (h : d.readInstalled r c = .ok m) :
    ∃ D, d.releases r = some D ∧ D.manifest = some m := by
  cases c with
  | failed => simp [readInstalled] at h
  | ok =>
    simp only [readInstalled] at h
    split at h
    · simp at h
    · rename_i heq
      obtain rfl := Except.ok.inj h
      exact Option.bind_eq_some_iff.mp heq

/-- **Every answer has the effect described.** -/
theorem effect_answer {d : Disk} {q : Request} {c : Choice q} (h : allowed d q c = true) :
    Effect d (answer d q c).2 q (answer d q c).1 := by
  cases q with
  | writeState | writeActive | writePrevious | writeLauncherJson => exact written_durably _ _ _ _
  | loadState | unlinkPrevious | requireCandidateSpace | ensureRoot | lock =>
    cases c <;> simp [answer, Effect]
  | readActive =>
    cases hr : d.readPointer "active-release" d.active c with
    | ok v => simp [answer, hr, Effect, Disk.readPointer_ok hr]
    | error e => simp [answer, hr, Effect]
  | readPrevious =>
    cases hr : d.readPointer "previous-release" d.previous c with
    | ok v => simp [answer, hr, Effect, Disk.readPointer_ok hr]
    | error e => simp [answer, hr, Effect]
  | readInstalledMetadata r =>
    cases hr : d.readInstalled r c with
    | ok m => simpa [answer, hr, Effect] using Disk.readInstalled_ok hr
    | error e => simp [answer, hr, Effect]
  | inspectLauncher r =>
    cases c with
    | raised e => simp [answer, Effect]
    | passed =>
      cases hm : (d.releases r).bind Directory.manifest with
      | none => simp [answer, hm, Effect]
      | some m => simpa [answer, hm, Effect] using Option.bind_eq_some_iff.mp hm
  | finalRelease => simpa [answer, Effect, allowed] using h
  | install => exact ⟨_, rfl⟩
  | mkdir r =>
    cases hr : d.releases r with
    | some D => simp [answer, hr, Effect]
    | none => cases c <;> simp [answer, hr, Effect]
  | rmtree r =>
    cases hr : d.releases r with
    | none => simp [answer, hr, Effect]
    | some D =>
      cases c with
      | removed => simp [answer, hr, Effect]
      | failed name left =>
        simp only [answer, hr, Effect]
        exact .inr ⟨_, rfl⟩
  | promote candidate final =>
    cases hc : d.releases candidate with
    | none => simp [answer, hc, Effect]
    | some D =>
      by_cases hf : (d.releases final).isSome
      · simp [answer, hc, hf, Effect]
      · cases c <;> simp [answer, hc, hf, durably, Effect]
  | replaceWrapper => cases c <;> simp [answer, durably, Effect]
  | latestBuild | gameServerRunning | createBackup => rcases c with _ | _ <;> simp [answer, Effect]
  | utcNow | markerExists | worldHasState | uniqueCandidate | pathExists | raiseAmbiguous =>
    simp [answer, Effect]

end Updater

end PzServer
