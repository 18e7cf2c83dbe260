import Mathlib.Algebra.Group.Nat.Defs
import PzServer.Json.Double
import PzServer.Updater.Readers
import PzServer.Updater.Vdf

/-!
# The files of an install root

The updater keeps its state in three files at the top of the install root, and Steam keeps a
manifest in every release. All four are read by anybody's hand or none: what is in them is a row of
bytes, and each reader goes from the bytes to a value by decoding, parsing and checking. Every stage
has exceptions of its own, and the readers name only some of them.

Two limits of the interpreter show in the result. `Stack` says how deep the two recursive parsers
can go where a reader is called; and `int` converts no more than 4300 digits.

## Main definitions

* `Node`, `InstallRoot` — what is in the install root
* `load` — `StateStore.load`
* `readPointer`, `active`, `previous` — `ReleaseLayout._read_pointer` and its callers
* `installedMetadata` — `read_installed_metadata`
-/

namespace PzServer

namespace Persistent

open Updater (Err SteamBuildMetadata malformed universalNewlines decodeText readText vdfTokens
  decimal)

open Watchdog (Text)

/-! ### What is on the disk -/

/-- What is at the path of a file. -/
inductive Node where
  | absent
  | symlink
  /-- a directory, a socket or the like -/
  | special
  | regular (content : ByteArray)
  /-- Looking at it or reading it fails with an `OSError`. -/
  | failing

/-- The install root, as the readers find it. -/
structure InstallRoot where
  path : String
  /-- `update-state.json` -/
  updateState : Node
  /-- `active-release` -/
  activeRelease : Node
  /-- `previous-release` -/
  previousRelease : Node
  /-- `is_dir` of a path below `releases/`. An `OSError` of another kind than that nothing is there,
  such as `PermissionError`, is raised, here by its type. -/
  isDir : Text → Except String Bool
  /-- the parts of such a path below the install root when both are resolved, unless it leads out -/
  resolve : Text → Except String (Option (List Text))
  /-- `is_file` of `start-server.sh` in the install root itself -/
  flat : Except String Bool
  /-- opening and reading the manifest of a release, or of the install root itself; an `OSError`
  by its type -/
  manifest : Option Text → Except String ByteArray

/-- The levels of recursion that are left where a reader is called. -/
structure Stack where
  /-- the arrays and objects that `json.loads` can be in -/
  json : ℕ
  /-- the calls of `_parse_vdf_object` that can be active -/
  vdf : ℕ

/-- `json.loads`, with the limit on digits. -/
def Stack.limits (stack : Stack) : Json.Limits := ⟨stack.json, 4300⟩

/-! ### The state file -/

/-- A `dict` that came out of `json.loads`. -/
abbrev Document : Type := List (List ℕ × Json.Value)

/-- A `str` of the source. -/
def text (s : String) : Json.Value := .str (Json.codePoints s)

/-- The double next to the literal is 1: halves of the gaps around 1 are rounded to it. The
constants and negative numbers count as zero. -/
def roundsToOne (literal : List Char) : Bool :=
  let (numerator, denominator) := Json.Double.fractionOf literal
  (2 ^ 54 - 1) * denominator ≤ 2 ^ 54 * numerator &&
    2 ^ 53 * numerator ≤ (2 ^ 53 + 1) * denominator

/-- `value == 1`; `True` is 1, too. -/
def equalsOne : Json.Value → Bool
  | .int n => n = 1
  | .bool value => value
  | .float literal => roundsToOne literal
  | _ => false

/-- The document of a state file that is not there. -/
def uninitialized : Document :=
  [(Json.codePoints "schema_version", .int 1), (Json.codePoints "state", text "uninitialized")]

/-- `isinstance(value, dict)`, and the schema version. -/
def checkSchema (path : String) : Json.Value → Except Err Document
  | .object document =>
    match Json.get document "schema_version" with
    | some version =>
      if equalsOne version then .ok document
      else malformed s!"Update state has an unsupported schema: {path}"
    | none => malformed s!"Update state has an unsupported schema: {path}"
  | _ => malformed s!"Update state has an unsupported schema: {path}"

/-- `StateStore.load` -/
def loadNode (stack : Stack) (path : String) : Node → Except Err Document
  | .failing => malformed s!"Update state is unreadable: {path}"
  | .symlink | .special => malformed s!"Update state is not a safe regular file: {path}"
  | .absent => .ok uninitialized
  | .regular content =>
    if content.size > 1024 * 1024 then
      malformed s!"Update state is not a safe regular file: {path}"
    else do
      let t ← readText content
      match Json.loads stack.limits t with
      | .ok value => checkSchema path value
      | .error .jsonDecodeError => malformed s!"Update state is unreadable: {path}"
      | .error .recursionError => .error (.other "RecursionError")
      | .error .valueError => .error (.other "ValueError")

/-- `StateStore.load` -/
def load (stack : Stack) (root : InstallRoot) : Except Err Document :=
  loadNode stack s!"{root.path}/update-state.json" root.updateState

/-! ### The pointers -/

/-- `[A-Za-z0-9._-]` -/
def isNameChar (c : Char) : Bool :=
  ('A' ≤ c && c ≤ 'Z') || ('a' ≤ c && c ≤ 'z') || ('0' ≤ c && c ≤ '9') ||
    c = '.' || c = '_' || c = '-'

/-- `re.fullmatch(r"releases/[A-Za-z0-9._-]+", value)`: the name below `releases/`. -/
def releaseName (value : Text) : Option Text :=
  let directory := "releases/".toList
  let name := value.drop directory.length
  if value.take directory.length = directory ∧ name ≠ [] ∧ name.all isNameChar then some name
  else none

/-- The longest name that a file system takes. A longer one is an `OSError` of a kind that `is_dir`
does not keep to itself either. -/
def nameMax : ℕ := 255

/-- A question about a path, which can raise. -/
def pathQuery {α : Type} (reply : Except String α) : Except Err α := reply.mapError .os

/-- `ReleaseLayout.relative` of a path below `releases/` -/
def relative (root : InstallRoot) (name : Text) : Except Err Text := do
  match ← pathQuery (root.resolve name) with
  | none => malformed "Release path escaped the managed installation root"
  | some [releases, release] =>
    if releases = "releases".toList then return "releases/".toList ++ release
    else malformed "Release pointer must identify one direct managed release"
  | some _ => malformed "Release pointer must identify one direct managed release"

/-- `_read_pointer`, from the name below `releases/` on. This is no longer in its `try`. -/
def selectRelease (root : InstallRoot) (name : String) (release : Text) :
    Except Err (Option Text) :=
  if release.length > nameMax then .error (.os "OSError")
  else do
    if ← pathQuery (root.isDir release) then
      let _ ← relative root release
      return some release
    else malformed s!"{name} points to a missing release"

/-- `ReleaseLayout._read_pointer`: the name of the release below `releases/`. -/
def readPointer (root : InstallRoot) (name : String) : Node → Except Err (Option Text)
  | .failing => malformed s!"Could not read {name}"
  | .symlink | .special => malformed s!"{name} is not a safe regular file"
  | .absent => .ok none
  | .regular content =>
    if content.size > 4096 then malformed s!"{name} is not a safe regular file"
    else do
      let value ← readText content
      match releaseName (Watchdog.Text.strip value) with
      | none => malformed s!"{name} is malformed"
      | some release => selectRelease root name release

/-- `ReleaseLayout.active` -/
def active (root : InstallRoot) : Except Err (Option Text) :=
  readPointer root "active-release" root.activeRelease

/-- `ReleaseLayout.previous` -/
def previous (root : InstallRoot) : Except Err (Option Text) :=
  readPointer root "previous-release" root.previousRelease

/-! ### The manifest -/

mutual

/-- How many calls of `_parse_vdf_object` are active at most while it reads an object, itself
included. -/
def objectDepth : ℕ → List Text → ℕ
  | 0, _ => 0
  | fuel + 1, tokens =>
    match tokens with
    | token :: rest => if token = ['\x7b'] then fieldsDepth fuel rest [] + 1 else 1
    | [] => 1

/-- The same for its loop, with the keys read so far: the calls that it makes. -/
def fieldsDepth : ℕ → List Text → List Text → ℕ
  | 0, _, _ => 0
  | fuel + 1, tokens, keys =>
    match tokens with
    | key :: value :: after =>
      if key = ['\x7d'] ∨ key = ['\x7b'] then 0
      else if value = ['\x7b'] then
        max (objectDepth fuel (value :: after)) <|
          match Updater.parseVdfObject fuel (value :: after) with
          | .ok (_, after) => if key ∈ keys then 0 else fieldsDepth fuel after (key :: keys)
          | .error _ => 0
      else if key ∈ keys then 0
      else fieldsDepth fuel after (key :: keys)
    | _ => 0

end

/-- The same for the loop of `parse_vdf_root`. -/
def rootDepth (rootKey : Text) : List Text → ℕ
  | token :: next :: rest =>
    if token = rootKey ∧ next = ['\x7b'] then objectDepth (rest.length + 2) (next :: rest)
    else rootDepth rootKey (next :: rest)
  | _ => 0

/-- How deep `parse_vdf_root` goes in a manifest. -/
def vdfDepth (file : Text) : ℕ :=
  rootDepth "AppState".toList (vdfTokens (universalNewlines file))

/-- `manifest.read_text` and `parse_vdf_root`: an exception that ends them before the text is
looked at, or the text. -/
def manifestText (stack : Stack) : Except String ByteArray → Except Err Text
  | .error typeName => .error (.os typeName)
  | .ok content => do
    let file ← decodeText content
    if vdfDepth file > stack.vdf then .error (.other "RecursionError") else return file

/-- The path of a manifest. -/
def manifestPath (root : InstallRoot) (release : Option Text) (appId : ℕ) : String :=
  let release := match release with
    | some name => s!"{root.path}/releases/{String.ofList name}"
    | none => root.path
  s!"{release}/steamapps/appmanifest_{appId}.acf"

/-- `read_installed_metadata` of a release, or of the install root itself. -/
def installedMetadata (stack : Stack) (root : InstallRoot) (release : Option Text) (appId : ℕ) :
    Except Err SteamBuildMetadata :=
  Updater.readInstalledMetadata (manifestPath root release appId)
    (manifestText stack (root.manifest release)) appId

end Persistent

end PzServer
