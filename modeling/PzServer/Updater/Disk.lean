import Mathlib.Logic.Function.Basic
import Mathlib.Data.Nat.Notation

/-!
# What the updater keeps on disk

The install root holds one JSON record (`update-state.json`), two text pointers (`active-release`,
`previous-release`) and the directories under `releases/`. Everything the updater decides, it
decides from these, and each is replaced atomically, so a `Disk` is a value and a durable step is
a function on it.

## The record

The source passes the record around as a dictionary and writes `{**state, ...}`. Here a `Record` has
one field per key, and an absent key and a key holding `null` are both `none`: the source only ever
reads keys with `get`. Merging is then `{ state with ... }`, and a field that a branch forgets to
reset stays, as it does in the source.

## Release names

A release is a direct child of `releases/`. The updater makes three kinds of names; they are kept
structured, with the number spelled by the uuid and by the timestamp, and `Release.relative` is the
text that the pointers and the record hold.
-/

namespace PzServer

namespace Updater

/-! ### Releases -/

/-- The text of `n` in base `b`, padded with zeros to at least `width` digits. -/
def padded (b width n : ℕ) : String :=
  let digits := Nat.toDigits b n
  String.ofList (List.replicate (width - digits.length) '0' ++ digits)

/-- A managed release directory. -/
inductive Release where
  /-- `.candidate-{build}-{uuid}` -/
  | candidate (build uuid : ℕ)
  /-- `steam-{build}-{timestamp}` -/
  | steam (build date time : ℕ)
  /-- `steam-{build}-{timestamp}-{uuid}`, when the name without the suffix is taken -/
  | steamUnique (build date time uuid : ℕ)
  deriving DecidableEq, Repr

/-- The timestamp `%Y%m%dT%H%M%SZ` of a release name. -/
def timestamp (date time : ℕ) : String := s!"{padded 10 8 date}T{padded 10 6 time}Z"

/-- The name of the directory under `releases/`. -/
def Release.name : Release → String
  | candidate build uuid => s!".candidate-{build}-{padded 16 12 uuid}"
  | steam build date time => s!"steam-{build}-{timestamp date time}"
  | steamUnique build date time uuid =>
    s!"steam-{build}-{timestamp date time}-{padded 16 8 uuid}"

/-- `ReleaseLayout.relative`: the path of a release below the install root. -/
def Release.relative (r : Release) : String := s!"releases/{r.name}"

/-- What `read_installed_metadata` reads from the Steam manifest of a release. -/
structure SteamBuildMetadata where
  buildId : ℕ
  sizeOnDisk : Option ℕ
  deriving DecidableEq, Repr

/-- The contents of a release directory, as far as the updater looks at them. -/
structure Directory where
  /-- The fully-installed manifest, if there is one that parses. -/
  manifest : Option SteamBuildMetadata
  /-- The `-Xms` and `-Xmx` values the updater last wrote into `ProjectZomboid64.json`. -/
  heap : Option (String × String)
  /-- Whether `.pz-start-server.sh` is the wrapper generated from `start-server.sh`. -/
  wrapper : Bool
  /-- Whether the launcher validation of this directory has succeeded. No code reads this. -/
  validated : Bool
  deriving DecidableEq, Repr

/-- A directory as `mkdir` leaves it. -/
def Directory.empty : Directory := ⟨none, none, false, false⟩

/-- The manifest build, once there is one. -/
def Directory.build (D : Directory) : Option ℕ := D.manifest.map SteamBuildMetadata.buildId

/-! ### The record -/

/-- The recorded state name. -/
inductive StateName where
  | uninitialized
  | current
  | downloadingCandidate
  | promotingCandidate
  | activating
  | pendingReadiness
  | startingCandidate
  | runtimeReady
  | failedAfterWorldOpen
  | failedBeforeWorldOpen
  deriving DecidableEq, Repr

/-- The recorded `last_result`, one constructor for each text the source writes. -/
inductive LastResult where
  | noUpdate
  | installed
  | updated
  | candidateActivated
  | candidateInterrupted
  | activationFailed
  | readinessFailed
  | repositoryDeploySuppressed
  | manualPolicy
  | blockedMods
  | metadataQueryFailed
  | downgradeBlocked
  | updatePreconditionFailed
  | candidateDownloadFailed
  | candidateIncompatible
  | candidateValidationFailed
  | backupFailed
  | promotionFailed
  deriving DecidableEq, Repr

/-- `update-state.json`. -/
structure Record where
  state : StateName := .uninitialized
  currentBuild : Option ℕ := none
  previousBuild : Option ℕ := none
  candidateBuild : Option ℕ := none
  previousRelease : Option Release := none
  candidateRelease : Option Release := none
  promotedRelease : Option Release := none
  preUpdateBackup : Option String := none
  worldOpened : Option Bool := none
  worldOpenedAt : Option String := none
  blockedBuild : Option ℕ := none
  lastResult : Option LastResult := none
  lastUpdateFromBuild : Option ℕ := none
  lastUpdateToBuild : Option ℕ := none
  detail : Option String := none
  lastCheckAt : Option String := none
  lastSuccessfulUpdateAt : Option String := none
  pzVersion : Option String := none
  pzRevision : Option String := none
  runtimeReadyAt : Option String := none
  updatePolicy : Option String := none
  steamBranch : Option String := none
  updatedAt : Option String := none
  deriving DecidableEq, Repr

/-- What `StateStore.load` returns when there is no record. -/
def Record.initial : Record := {}

/-! ### Groups of states

The source spells these sets out at each use; the operations below do the same. Proofs speak of
the following four groups, which partition the states. -/

namespace StateName

/-- No transaction is open: nothing is staged, and no candidate waits for readiness. -/
def Settled : StateName → Prop
  | uninitialized | current | failedBeforeWorldOpen => True
  | _ => False

/-- A candidate is being downloaded or moved to its final name. -/
def Staging : StateName → Prop
  | downloadingCandidate | promotingCandidate => True
  | _ => False

/-- The candidate is the active release, and the world may have been opened with it. -/
def Committed : StateName → Prop
  | pendingReadiness | startingCandidate | runtimeReady | failedAfterWorldOpen => True
  | _ => False

/-- `mark_world_opened` has been recorded and the candidate has not been accepted. -/
def Opened : StateName → Prop
  | startingCandidate | runtimeReady | failedAfterWorldOpen => True
  | _ => False

instance : DecidablePred Settled := fun s => by cases s <;> unfold Settled <;> infer_instance
instance : DecidablePred Staging := fun s => by cases s <;> unfold Staging <;> infer_instance
instance : DecidablePred Committed := fun s => by cases s <;> unfold Committed <;> infer_instance
instance : DecidablePred Opened := fun s => by cases s <;> unfold Opened <;> infer_instance

theorem Opened.committed {s : StateName} (h : s.Opened) : s.Committed := by
  cases s <;> simp_all [Opened, Committed]

theorem Settled.not_committed {s : StateName} (h : s.Settled) : ¬ s.Committed := by
  cases s <;> simp_all [Settled, Committed]

theorem Staging.not_committed {s : StateName} (h : s.Staging) : ¬ s.Committed := by
  cases s <;> simp_all [Staging, Committed]

theorem Staging.not_settled {s : StateName} (h : s.Staging) : ¬ s.Settled := by
  cases s <;> simp_all [Settled, Staging]

/-- The partition. -/
theorem cases_group (s : StateName) : s.Settled ∨ s.Staging ∨ s = activating ∨ s.Committed := by
  cases s <;> simp [Settled, Staging, Committed]

end StateName

/-! ### The disk -/

/-- The install root. -/
structure Disk where
  record : Option Record
  active : Option Release
  previous : Option Release
  releases : Release → Option Directory

namespace Disk

/-- An install root nothing has been written to. -/
def empty : Disk := ⟨none, none, none, fun _ => none⟩

/-- The record, as `StateStore.load` reads it. -/
def loaded (d : Disk) : Record := d.record.getD Record.initial

/-- The recorded state name. -/
abbrev state (d : Disk) : StateName := d.loaded.state

/-- The manifest build of a release directory. -/
def buildOf (d : Disk) (r : Release) : Option ℕ := (d.releases r).bind Directory.build

/-- The manifest build of the active release. -/
def activeBuild (d : Disk) : Option ℕ := d.active.bind d.buildOf

/-- Put a directory at a name, or remove the one there. -/
def setDirectory (d : Disk) (r : Release) (D : Option Directory) : Disk :=
  { d with releases := Function.update d.releases r D }

@[simp] theorem loaded_some (r : Record) (a p : Option Release)
    (f : Release → Option Directory) : (Disk.mk (some r) a p f).loaded = r := rfl

section setDirectory

variable (d : Disk) (r : Release) (D : Option Directory)

@[simp] theorem setDirectory_record : (d.setDirectory r D).record = d.record := rfl

@[simp] theorem setDirectory_loaded : (d.setDirectory r D).loaded = d.loaded := rfl

@[simp] theorem setDirectory_active : (d.setDirectory r D).active = d.active := rfl

@[simp] theorem setDirectory_previous : (d.setDirectory r D).previous = d.previous := rfl

@[simp] theorem setDirectory_self : (d.setDirectory r D).releases r = D := by simp [setDirectory]

variable {r} in
theorem setDirectory_of_ne {r' : Release} (h : r' ≠ r) :
    (d.setDirectory r D).releases r' = d.releases r' := by simp [setDirectory, h]

variable {r} in
theorem buildOf_setDirectory_of_ne {r' : Release} (h : r' ≠ r) :
    (d.setDirectory r D).buildOf r' = d.buildOf r' := by simp [buildOf, setDirectory_of_ne d D h]

/-- The build of the active release does not depend on the other directories. -/
theorem activeBuild_setDirectory_of_ne {r : Release} (h : d.active ≠ some r) :
    (d.setDirectory r D).activeBuild = d.activeBuild := by
  cases ha : d.active with
  | none => simp [activeBuild, ha]
  | some a =>
    have hne : a ≠ r := fun hc => h (ha.trans (hc ▸ rfl))
    simp [activeBuild, ha, d.buildOf_setDirectory_of_ne D hne]

/-- Changing the active directory keeps its build when it keeps the manifest. -/
theorem activeBuild_setDirectory_self {D D' : Directory} {r : Release} (ha : d.active = some r)
    (hD : d.releases r = some D) (hm : D'.manifest = D.manifest) :
    (d.setDirectory r (some D')).activeBuild = d.activeBuild := by
  simp [activeBuild, buildOf, Directory.build, ha, hD, hm]

/-- Writing back what is there changes nothing. -/
theorem setDirectory_eta : d.setDirectory r (d.releases r) = d := by simp [setDirectory]

end setDirectory

end Disk

end Updater

end PzServer
