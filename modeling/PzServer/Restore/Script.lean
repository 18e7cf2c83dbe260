import Mathlib.Data.Nat.Notation
import Mathlib.Logic.Function.Basic
import PzServer.Interaction.Ensures

/-!
# `Restore-PZLocal.ps1`

The script puts the world of an archive into the data directory. It checks the archive against its
checksum, makes sure that the server is down, and extracts the archive next to the data directory;
then the data directory gets another name, and the extracted one takes its place.

Every command can raise, and the script can be interrupted while a command runs: `tar` then leaves
anything, and a directory has been moved or not. An interruption passes the `catch` block by, and
only the `finally` block runs.

## Main definitions

* `Place`, `Site` — the directories
* `RestoreCommand`, `Trees.world` — the commands of the script
* `restorePZLocal`
-/

namespace PzServer

namespace Restore

open Interaction

/-! ### The directories -/

/-- A directory, by what its path is made of. -/
inductive Place where
  /-- `$dataPath` -/
  | data
  /-- `"$dataPath.restore-$timestamp"` -/
  | extraction (date time : ℕ)
  /-- `"$dataPath.before-restore-$timestamp"` -/
  | previous (date time : ℕ)
  deriving DecidableEq

/-- What is in the directories that are there. -/
abbrev Site (α : Type) : Type := Place → Option α

/-- What can be in a directory, and what is in the archive. -/
structure Trees (α : Type) where
  empty : α
  /-- a directory with another one in it -/
  nest : α → α → α
  /-- the content of the archive -/
  archived : α

/-- `Move-Item` of a directory: into the target, if that is there. -/
def Site.move {α : Type} (trees : Trees α) (site : Site α) (source target : Place) : Site α :=
  let moved := match site source, site target with
    | some tree, some there => some (trees.nest there tree)
    | tree, there => tree.or there
  Function.update (Function.update site source none) target moved

/-! ### Commands -/

/-- What the script looks at of a container's state. -/
structure LocalState where
  running : Bool
  restarting : Bool

/-- The commands of the script. -/
inductive RestoreCommand where
  /-- `Test-Path` of the archive, or of its checksum file -/
  | testArchive
  | testChecksum
  /-- `ReadAllText` of the checksum file, trimmed -/
  | readChecksum
  /-- `Get-FileHash` of the archive -/
  | fileHash
  /-- `Get-Command tar.exe` -/
  | findTar
  /-- `docker compose config`: the number of data mounts -/
  | composeConfig
  /-- `WaitOne(0)` -/
  | lock
  | date
  /-- `Push-Location`, `Pop-Location` -/
  | location
  /-- `docker compose ps --all --quiet server` -/
  | composePs
  | inspect (identifier : String)
  | composeDown
  /-- `Test-Path` of the directory that all of them are in -/
  | testParent
  | makeParent
  | test (place : Place)
  /-- `New-Item -ItemType Directory` -/
  | make (place : Place)
  /-- `tar.exe -xzf` -/
  | tar (place : Place)
  | move (source target : Place)
  | log
  | composeUp
  /-- `Remove-Item -Recurse -Force` -/
  | remove (place : Place)
  /-- `ReleaseMutex`, `Dispose` -/
  | unlock
  deriving DecidableEq

/-- What a command answers. -/
@[reducible] def RestoreValue : RestoreCommand → Type
  | .testArchive | .testChecksum | .findTar | .lock | .testParent | .test _ => Bool
  | .readChecksum | .fileHash => String
  | .composeConfig => ℕ
  | .date => ℕ × ℕ
  | .composePs => List String
  | .inspect _ => LocalState
  | _ => Unit

/-- How a command ends that does not return. -/
inductive Ending where
  | exception
  | interrupted
  deriving DecidableEq

abbrev RestoreReply (q : RestoreCommand) : Type := Except Ending (RestoreValue q)

/-- How a command that changes a directory ends, and what is left there if it was touched. -/
structure Extracted (α : Type) where
  ending : Option Ending
  left : Option (Option α)

/-- How a move ends. -/
structure MovedItem where
  ending : Option Ending
  done : Bool

/-- Nature's choice. -/
@[reducible] def RestoreChoice (α : Type) : RestoreCommand → Type
  | .test _ => Option Ending
  | .make _ | .tar _ | .remove _ => Extracted α
  | .move .. => MovedItem
  | q => RestoreReply q

/-- What is left in a directory. -/
def Extracted.leaves {α : Type} (c : Extracted α) (success : Option α) (site : Site α)
    (place : Place) : Site α :=
  match c.ending, c.left with
  | none, _ => Function.update site place success
  | some _, none => site
  | some _, some left => Function.update site place left

/-- A command that returns `value`, if it returns. -/
def returning {β : Type} (value : β) : Option Ending → Except Ending β
  | none => .ok value
  | some ending => .error ending

/-- What a command answers, and the directories it leaves. -/
def Trees.answer {α : Type} (trees : Trees α) (site : Site α) :
    (q : RestoreCommand) → RestoreChoice α q → RestoreReply q × Site α
  | .test place, c => (returning (site place).isSome c, site)
  | .make place, c => (returning () c.ending, c.leaves (some trees.empty) site place)
  | .tar place, c => (returning () c.ending, c.leaves (some trees.archived) site place)
  | .remove place, c => (returning () c.ending, c.leaves none site place)
  | .move source target, c =>
    (returning () c.ending, if c.done then site.move trees source target else site)
  | .testArchive, c | .testChecksum, c | .readChecksum, c | .fileHash, c | .findTar, c
  | .composeConfig, c | .lock, c | .date, c | .location, c | .composePs, c | .inspect _, c
  | .composeDown, c | .testParent, c | .makeParent, c | .log, c | .composeUp, c
  | .unlock, c => (c, site)

/-- A move that succeeds is done, and there is something to move. -/
def restoreAllowed {α : Type} (site : Site α) : (q : RestoreCommand) → RestoreChoice α q → Bool
  | .move source _, c => (c.ending.isSome || c.done) && (!c.done || (site source).isSome)
  | _, _ => true

/-- The surroundings of the script. -/
def Trees.world {α : Type} (trees : Trees α) : World RestoreCommand RestoreReply (Site α) :=
  ⟨RestoreChoice α, restoreAllowed, trees.answer⟩

/-! ### The script -/

/-- The variables that the `finally` block reads. -/
structure RestoreVariables where
  locationPushed : Bool
  extracted : Bool
  deriving DecidableEq

/-- How the script ends early, with the variables as they stand. -/
structure Ended where
  ending : Ending
  state : RestoreVariables

abbrev RestoreM : Type → Type := ExceptT Ended (Program RestoreCommand RestoreReply)

/-- Run a command. -/
def invoke (v : RestoreVariables) (q : RestoreCommand) : RestoreM (RestoreValue q) := do
  match ← ExceptT.lift (request q) with
  | .ok value => return value
  | .error ending => throw ⟨ending, v⟩

/-- `throw` -/
def raise {β : Type} (v : RestoreVariables) : RestoreM β := throw ⟨.exception, v⟩

/-- `[0-9a-fA-F]` -/
def isHexDigit (c : Char) : Bool :=
  ('0' ≤ c && c ≤ '9') || ('a' ≤ c && c ≤ 'f') || ('A' ≤ c && c ≤ 'F')

/-- `\s` -/
def isSpace (c : Char) : Bool :=
  let n := c.toNat
  (0x9 ≤ n && n ≤ 0xd) || n = 0x20 || n = 0x85 || n = 0xa0 || n = 0x1680 ||
    (0x2000 ≤ n && n ≤ 0x200a) || n = 0x2028 || n = 0x2029 || n = 0x202f || n = 0x205f ||
    n = 0x3000

/-- `-notmatch '^([0-9a-fA-F]{64})\s+'`: the hash, if the line matches. -/
def expectedHash (line : String) : Option String :=
  let hash := line.toList.take 64
  if hash.length = 64 ∧ hash.all isHexDigit ∧ (line.toList.drop 64).head?.any isSpace then
    some (String.ofList hash)
  else none

/-- `-eq` of strings, which knows no case. -/
def equals (a b : String) : Bool := a.toList.map Char.toLower = b.toList.map Char.toLower

/-- The checks before the lock. -/
def verifyArchive (v : RestoreVariables) : RestoreM Unit := do
  if !(← invoke v .testArchive) then raise v
  if !(← invoke v .testChecksum) then raise v
  match expectedHash (← invoke v .readChecksum) with
  | none => raise v
  | some expected =>
    let actual ← invoke v .fileHash
    if !equals actual expected then raise v
  if !(← invoke v .findTar) then raise v
  let mounts ← invoke v .composeConfig
  if mounts ≠ 1 then raise v

/-- The server is down. -/
def stopCompose (v : RestoreVariables) : RestoreM Unit := do
  match ← invoke v .composePs with
  | [] => pure ()
  | [identifier] =>
    let state ← invoke v (.inspect identifier)
    if state.running || state.restarting then raise v
  | _ => raise v
  invoke v .composeDown

/-- The archive is extracted. -/
def extract (date time : ℕ) (v : RestoreVariables) : RestoreM RestoreVariables := do
  if !(← invoke v .testParent) then invoke v .makeParent
  if ← invoke v (.test (.extraction date time)) then raise v
  invoke v (.make (.extraction date time))
  let v := { v with extracted := true }
  invoke v (.tar (.extraction date time))
  return v

/-- The data directory gets another name, if it is there. -/
def setAside (date time : ℕ) (v : RestoreVariables) : RestoreM Unit := do
  if ← invoke v (.test .data) then
    if ← invoke v (.test (.previous date time)) then raise v
    invoke v (.move .data (.previous date time))

/-- The `catch` block. -/
def moveBack (date time : ℕ) (v : RestoreVariables) : RestoreM Unit := do
  if ← invoke v (.test (.previous date time)) then
    if !(← invoke v (.test .data)) then invoke v (.move (.previous date time) .data)
  raise v

/-- An exception is caught; an interruption is not. -/
def caught (date time : ℕ) (e : Ended) : RestoreM Unit :=
  match e.ending with
  | .exception => moveBack date time e.state
  | .interrupted => throw e

/-- The extracted directory takes its place. -/
def putInPlace (date time : ℕ) (v : RestoreVariables) : RestoreM RestoreVariables := do
  tryCatch (invoke v (.move (.extraction date time) .data)) (caught date time)
  return { v with extracted := false }

/-- What is printed, and the start. -/
def announce (start : Bool) (date time : ℕ) (v : RestoreVariables) : RestoreM Unit := do
  invoke v .log
  if ← invoke v (.test (.previous date time)) then invoke v .log
  if start then invoke v .composeUp
  invoke v .log

/-- The `try` block -/
def restoreBody (start : Bool) (date time : ℕ) (v : RestoreVariables) :
    RestoreM RestoreVariables := do
  invoke v .location
  let v := { v with locationPushed := true }
  stopCompose v
  let v ← extract date time v
  setAside date time v
  let v ← putInPlace date time v
  announce start date time v
  return v

/-- The `finally` block -/
def restoreFinally (date time : ℕ) (v : RestoreVariables) : RestoreM Unit := do
  if v.extracted then
    if ← invoke v (.test (.extraction date time)) then
      let _ ← ExceptT.lift (request (.remove (.extraction date time)))
  if v.locationPushed then invoke v .location
  invoke v .unlock

/-- `try { … } finally { … }` -/
def restoreLocked (start : Bool) (date time : ℕ) (v : RestoreVariables) : RestoreM Unit :=
  ExceptT.mk do
    match ← (restoreBody start date time v).run with
    | .ok v => (restoreFinally date time v).run
    | .error e => ExceptT.run do
      restoreFinally date time e.state
      throw e

/-- `Restore-PZLocal.ps1` -/
def restorePZLocal (start : Bool) : RestoreM Unit := do
  let v : RestoreVariables := ⟨false, false⟩
  verifyArchive v
  if !(← invoke v .lock) then
    invoke v .unlock
    raise v
  let (date, time) ← invoke v .date
  restoreLocked start date time v

end Restore

end PzServer
