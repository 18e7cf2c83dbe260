import PzServer.Launcher.Configured
import PzServer.Launcher.Wrapper
import PzServer.Persistent.Files

/-!
# Validating a candidate

A release that Steam has delivered is looked at before it is selected: whether its files are there
and can be executed, what its manifest says, whether its launcher document and its start script can
be rewritten, and whether bash takes the wrapper. What it contains may be wrong, and every one of
these operations may fail.

An exception is given with where it comes from: `io` says that it began with an operation that
failed, and not with what was found. A handler that raises another exception in its place leaves
that as it is.

## Main definitions

* `Candidate`, `Faults` — the directory, and the operations that fail
* `prepare` — `LauncherValidator.prepare`
-/

namespace PzServer

namespace Launcher

open Persistent (manifestText)

open Updater (Err SteamBuildMetadata malformed universalNewlines)

open Watchdog (Text)

/-! ### The directory -/

/-- `REQUIRED_PATHS` -/
inductive Required where
  | startServer
  | game
  | launcher
  | java
  | jar
  deriving DecidableEq, Repr

def Required.relative : Required → String
  | startServer => "start-server.sh"
  | game => "ProjectZomboid64"
  | launcher => "ProjectZomboid64.json"
  | java => "jre64/bin/java"
  | jar => "java/projectzomboid.jar"

def requiredPaths : List Required := [.startServer, .game, .launcher, .java, .jar]

def executablePaths : List Required := [.startServer, .game, .java]

/-- What validation looks at in a release. -/
structure Candidate where
  path : String
  /-- the regular files -/
  content : Required → Option ByteArray
  /-- `os.access(path, os.X_OK)` -/
  executable : Required → Bool
  /-- `path.stat().st_mode & 0o777` -/
  mode : Required → ℕ
  manifest : Option ByteArray

/-- The operations that fail. Their `OSError` is given by its type; of the writes it is also said
whether they have taken effect. -/
structure Faults where
  isFile : Required → Option String
  /-- `os.access` raises nothing: the answer is `False`. -/
  access : Required → Bool
  readManifest : Option String
  readLauncher : Option String
  readScript : Option String
  statLauncher : Option String
  statScript : Option String
  writeTemporary : Option String
  readTemporary : Option String
  /-- bash cannot be run, or not in time. -/
  bash : Bool
  unlinkTemporary : Option String
  writeLauncher : Option (String × Bool)
  replaceWrapper : Option (String × Bool)
  syncRelease : Option String
  unlinkFinally : Option String

/-- Where validation runs. -/
structure Host where
  python : Interpreter
  /-- the calls of `_parse_vdf_object` that can be active -/
  vdf : ℕ
  /-- what `bash -n` has to say about a text -/
  bash : Text → Option String

/-- The stack for the reader of the manifest. -/
def Host.stack (host : Host) : Persistent.Stack := ⟨host.python.limits.depth, host.vdf⟩

/-! ### Exceptions -/

/-- An exception, and whether it began with an operation that failed. -/
structure Raised where
  error : Err
  io : Bool
  deriving DecidableEq, Repr

/-- An operation that may fail. -/
def attempt : Option String → Except Raised Unit
  | some typeName => .error ⟨.os typeName, true⟩
  | none => .ok ()

/-- What is found is not accepted. -/
def reject {α : Type} (message : String) : Except Raised α := .error ⟨.update message, false⟩

/-- A file is read and looked at. The reader has its own way with an `OSError`, which is also what
there is where the file is not. -/
def reading {α : Type} (fault : Option String) (reader : Option ByteArray → Except Err α)
    (file : Option ByteArray) : Except Raised α :=
  match fault with
  | some _ => (reader none).mapError (⟨·, true⟩)
  | none => (reader file).mapError (⟨·, false⟩)

/-! ### Inspection -/

section Inspection

variable (host : Host) (settings : Settings) (candidate : Candidate) (faults : Faults)

/-- `(release / relative).is_file()` -/
def requireFile (path : Required) : Except Raised Unit := do
  attempt (faults.isFile path)
  if (candidate.content path).isSome then return ()
  else reject s!"Candidate is incomplete; missing {path.relative}"

/-- `os.access(release / relative, os.X_OK)` -/
def requireExecutable (path : Required) : Except Raised Unit :=
  if faults.access path then
    .error ⟨.update s!"Candidate executable bit is missing on {path.relative}", true⟩
  else if candidate.executable path then .ok ()
  else reject s!"Candidate executable bit is missing on {path.relative}"

/-- `read_installed_metadata(release, 380870)` -/
def readManifest (file : Option ByteArray) : Except Err SteamBuildMetadata :=
  Updater.readInstalledMetadata s!"{candidate.path}/steamapps/appmanifest_380870.acf"
    (manifestText host.stack (file.elim (.error "FileNotFoundError") .ok)) 380870

/-- What `_inspect` returns. -/
structure Inspected where
  metadata : SteamBuildMetadata
  launcherJson : Text
  wrapper : Text
  launcherMode : ℕ
  wrapperMode : ℕ

/-- `LauncherValidator._inspect` -/
def inspect : Except Raised Inspected := do
  requiredPaths.forM (requireFile candidate faults)
  executablePaths.forM (requireExecutable candidate faults)
  let metadata ← reading faults.readManifest (readManifest host candidate) candidate.manifest
  let launcherJson ← reading faults.readLauncher
    (fun file => configuredLauncherJson host.python file settings) (candidate.content .launcher)
  let wrapper ← reading faults.readScript statusPreservingWrapper (candidate.content .startServer)
  attempt faults.statLauncher
  attempt faults.statScript
  return ⟨metadata, launcherJson, wrapper, candidate.mode .launcher, candidate.mode .startServer⟩

/-- `raise CandidateIncompatibility(str(error)) from error` -/
def incompatible : Raised → Raised
  | ⟨.update message, io⟩ => ⟨.incompatible message, io⟩
  | raised => raised

/-- `LauncherValidator._check_bash_syntax` -/
def checkBashSyntax (wrapper : Text) : Except Raised Unit :=
  if faults.readTemporary.isSome || faults.bash then
    .error ⟨.update "Could not syntax-check the generated start wrapper", true⟩
  else
    match host.bash (universalNewlines wrapper) with
    | some detail => reject s!"Generated start wrapper failed Bash syntax validation: {detail}"
    | none => .ok ()

/-- `LauncherValidator._validated_wrapper` -/
def validatedWrapper (wrapper : Text) : Except Raised Unit :=
  tryCatch (do
    attempt faults.writeTemporary
    checkBashSyntax host faults wrapper) fun raised => do
      attempt faults.unlinkTemporary
      throw raised

/-- What `prepare` does before it writes. -/
def validate : Except Raised Inspected := do
  let inspected ← (inspect host settings candidate faults).mapError incompatible
  validatedWrapper host faults inspected.wrapper
  return inspected

/-! ### Writing -/

/-- What has been written to `ProjectZomboid64.json` and `.pz-start-server.sh`. -/
structure Written where
  launcherJson : Option Text
  wrapper : Option Text

/-- The two writes, one after the other, and the directory's. -/
def writeBoth (inspected : Inspected) : Except Raised Unit × Written :=
  match faults.writeLauncher with
  | some (typeName, effect) =>
    (.error ⟨.os typeName, true⟩, ⟨if effect then some inspected.launcherJson else none, none⟩)
  | none =>
    match faults.replaceWrapper with
    | some (typeName, effect) =>
      (.error ⟨.os typeName, true⟩,
        ⟨some inspected.launcherJson, if effect then some inspected.wrapper else none⟩)
    | none => (attempt faults.syncRelease, ⟨some inspected.launcherJson, some inspected.wrapper⟩)

/-- `LauncherValidator.prepare` -/
def prepare : Except Raised SteamBuildMetadata × Written :=
  match validate host settings candidate faults with
  | .error raised => (.error raised, ⟨none, none⟩)
  | .ok inspected =>
    let (result, written) := writeBoth faults inspected
    -- the temporary file is removed in any case
    match faults.unlinkFinally, result with
    | some typeName, _ => (.error ⟨.os typeName, true⟩, written)
    | none, .error raised => (.error raised, written)
    | none, .ok () => (.ok inspected.metadata, written)

end Inspection

end Launcher

end PzServer
