import PzServer.Backup.Directory
import PzServer.Collections.Ranking
import PzServer.Interaction.Traces

/-!
# `BackupManager`

`create` writes a compressed archive of the data tree under a name of its own, verifies it, puts
it in place, writes its two sidecars, verifies it again and removes the oldest archives. Everything
it does to the backup directory, or reads from it, is a request below.

## Failures

Every request may raise anything. A file that is being written may be left behind with any content,
or not at all; a rename or an unlink that raises has changed nothing. A directory is listed
completely, in any order.

A disk is `faithful` if a file that is read is the file that was written. The digest of a file
and the members of an archive may be anything on a disk that is not; the two verifications are for
such disks.

## Main definitions

* `BackupManager.create`, `BackupManager.prune`, `atomicWrite` — the source's functions
* `Media.world` — what the requests do to the backup directory
-/

namespace PzServer

namespace Backup

open Interaction Collections

/-! ### Exceptions -/

/-- The exceptions `create` tells apart. -/
inductive Err where
  /-- `UpdateError` -/
  | update (message : String)
  /-- `OSError`, with the name of its type -/
  | os (typeName : String)
  /-- `tarfile.TarError`, with the name of its type -/
  | tar (typeName : String)
  /-- any other exception -/
  | other (typeName : String)
  deriving DecidableEq, Repr

/-! ### Requests -/

/-- The requests of `BackupManager`. -/
inductive Request where
  /-- `data_root.is_dir()` -/
  | dataRootIsDir
  /-- `backup_root.mkdir(parents=True, exist_ok=True)` -/
  | mkdirBackupRoot
  /-- `path.exists()` -/
  | exists (name : FileName)
  /-- `tarfile.open(partial, mode="w:gz")` and `bundle.add(data_root, ...)` -/
  | writeArchive (name : FileName)
  /-- `os.fsync` of an open file -/
  | fsync (name : FileName)
  /-- the names of the members, read with `tarfile.open(partial, mode="r:gz")` -/
  | memberNames (name : FileName)
  /-- `_sha256` -/
  | sha256 (name : FileName)
  /-- `os.chmod` -/
  | chmod (name : FileName)
  /-- `os.replace` -/
  | replace (source target : FileName)
  /-- `_fsync_directory(backup_root)` -/
  | fsyncDirectory
  /-- `utc_now` -/
  | utcNow
  /-- `uuid.uuid4().hex` -/
  | uuid
  /-- `open("x")`, `write`, `flush` and `os.fsync` in `atomic_write` -/
  | writeNew (name : FileName) (content : String)
  /-- `backup_root.glob("pz-pre-update-*.tar.gz")` -/
  | glob
  /-- `path.stat().st_mtime_ns` -/
  | mtime (name : FileName)
  /-- `path.unlink` in `_prune` -/
  | unlink (name : FileName) (missingOk : Bool)
  /-- `path.unlink(missing_ok=True)` in a `finally` block -/
  | discard (name : FileName)
  deriving DecidableEq, Repr

/-- What a request returns when it does not raise. -/
@[reducible] def Value : Request → Type
  | .dataRootIsDir | .exists _ => Bool
  | .memberNames _ => List String
  | .sha256 _ | .utcNow | .uuid => String
  | .glob => List FileName
  | .mtime _ => ℤ
  | .mkdirBackupRoot | .writeArchive _ | .fsync _ | .chmod _ | .replace .. | .fsyncDirectory
  | .writeNew .. | .unlink .. | .discard _ => Unit

/-- Replies: a value or an exception. -/
abbrev Reply (q : Request) : Type := Except Err (Value q)

/-- The monad of `BackupManager`: conversations that can raise. -/
abbrev BackupM : Type → Type := ExceptT Err (Program Request Reply)

/-- Ask, and raise the exception that comes back. -/
def ask (q : Request) : BackupM (Value q) := askRaising q

/-! ### The functions of the source -/

/-- `atomic_write`, of a file in the backup directory. -/
def atomicWrite (pid : ℕ) (path : FileName) (content : String) : BackupM Unit := do
  ask .mkdirBackupRoot
  let temporary := FileName.temporary path pid (← ask .uuid)
  withCleanup
    (do
      ask (.writeNew temporary content)
      ask (.chmod temporary)
      ask (.replace temporary path)
      ask .fsyncDirectory)
    fun _ => ask (.discard temporary)

/-- `BackupManager` -/
structure BackupManager where
  dataRoot : String
  backupRoot : String
  retention : ℕ

/-- What a call of `create` is given, with the reading of the clock and the process id it finds. -/
structure Attempt where
  oldBuild : Option ℕ
  newBuild : ℕ
  timestamp : String
  pid : ℕ

namespace Attempt

/-- `old_label` -/
def oldLabel (a : Attempt) : String := match a.oldBuild with
  | some build => toString build
  | none => "unknown"

/-- `archive` -/
def archive (a : Attempt) : FileName :=
  .preUpdate (a.oldLabel ++ "-to-" ++ toString a.newBuild ++ "-" ++ a.timestamp)

/-- `partial` -/
def partialArchive (a : Attempt) : FileName := .partialOf a.archive a.pid

/-- `checksum` -/
def checksum (a : Attempt) : FileName := .checksum a.archive

/-- `metadata` -/
def metadata (a : Attempt) : FileName := .metadata a.archive

/-- The `json.dumps` of the metadata, with sorted keys and an indent of two. -/
def metadataText (a : Attempt) (createdAt : String) : String :=
  "\x7b\n  \"created_at\": \"" ++ createdAt ++ "\",\n" ++
  "  \"new_steam_build\": " ++ toString a.newBuild ++ ",\n" ++
  "  \"old_steam_build\": " ++ (match a.oldBuild with
    | some build => toString build
    | none => "null") ++ ",\n  \"type\": \"pre-update-world\"\n\x7d\n"

end Attempt

/-- `any(member.name == "data" or member.name.startswith("data/") ...)` -/
def hasDataTree (names : List String) : Bool :=
  names.any fun name => name == "data" || "data/".isPrefixOf name

namespace BackupManager

/-- The keys of `sorted` in `_prune`, with what they belong to. -/
def readTimes : List FileName → BackupM (List (ℤ × FileName))
  | [] => return []
  | name :: names => do
    let time ← ask (.mtime name)
    return (time, name) :: (← readTimes names)

/-- The loop of `_prune`. -/
def unlinkArchives : List FileName → BackupM Unit
  | [] => return
  | archive :: archives => do
    ask (.unlink archive false)
    ask (.unlink (.checksum archive) true)
    ask (.unlink (.metadata archive) true)
    unlinkArchives archives

/-- `_prune` -/
def prune (m : BackupManager) : BackupM Unit := do
  let archives := descending Prod.fst (← readTimes (← ask .glob))
  unlinkArchives ((archives.drop m.retention).map Prod.snd)

/-- The protected part of `create`, up to `_prune`. -/
def writeBackup (a : Attempt) : BackupM Unit := do
  ask (.writeArchive a.partialArchive)
  ask (.fsync a.partialArchive)
  if !hasDataTree (← ask (.memberNames a.partialArchive)) then
    throw (.update "Pre-update backup verification found no data tree")
  let digest ← ask (.sha256 a.partialArchive)
  ask (.chmod a.partialArchive)
  ask (.replace a.partialArchive a.archive)
  ask .fsyncDirectory
  atomicWrite a.pid a.checksum (digest ++ "  " ++ a.archive.text ++ "\n")
  atomicWrite a.pid a.metadata (a.metadataText (← ask .utcNow))
  if (← ask (.sha256 a.archive)) ≠ digest then
    throw (.update "Pre-update backup checksum verification failed")

/-- `except (OSError, tarfile.TarError)` in `create` -/
def reraise : Err → BackupM FileName
  | .os typeName | .tar typeName => throw (.update ("Pre-update backup failed: " ++ typeName))
  | e => throw e

/-- The `finally` block of `create` -/
def cleanUp (a : Attempt) (succeeded : Bool) : BackupM Unit := do
  ask (.discard a.partialArchive)
  if !succeeded then
    ask (.discard a.archive)
    ask (.discard a.checksum)
    ask (.discard a.metadata)

/-- `create` -/
def create (m : BackupManager) (a : Attempt) : BackupM FileName := do
  if !(← ask .dataRootIsDir) then
    throw (.update ("Project Zomboid data directory is missing: " ++ m.dataRoot))
  ask .mkdirBackupRoot
  if ← ask (.exists a.archive) then
    throw (.update ("Pre-update backup filename collision: " ++ m.backupRoot ++ "/" ++
      a.archive.text))
  withCleanup
    (tryCatch
      (do
        writeBackup a
        m.prune
        return a.archive)
      reraise)
    (cleanUp a)

end BackupManager

/-! ### The world -/

variable {B : Type}

/-- What `create` reads besides the backup directory: the data tree, the digest of a content, and
whether a file that is read is the one that was written. -/
structure Media (B : Type) where
  data : DataTree B
  digest : Content B → String
  faithful : Bool

/-- How writing a file ends: with its modification time, or with an exception and what is left of
the file, if it was touched at all. -/
inductive WriteOutcome (B : Type) where
  | written (mtime : ℤ)
  | failed (error : Err) (left : Option (File B))

/-- Nature's choices. Of a request whose reply is computed, it chooses whether it raises. -/
@[reducible] def Choice (B : Type) : Request → Type
  | .dataRootIsDir => Except Err Bool
  | .memberNames _ => Except Err (List String)
  | .sha256 _ => Except Err String
  | .utcNow | .uuid => String
  | .glob => Except Err (List FileName)
  | .writeArchive _ | .writeNew .. => WriteOutcome B
  | .mkdirBackupRoot | .exists _ | .fsync _ | .chmod _ | .replace .. | .fsyncDirectory | .mtime _
  | .unlink .. | .discard _ => Option Err

/-- What cannot happen: a file that is not there is not read, renamed, unlinked with
`missing_ok=False` or taken for new; a faithful disk does not misread a file. -/
def Media.allowed (w : Media B) (d : Directory B) : (q : Request) → Choice B q → Bool
  | .memberNames name, .ok names =>
    !w.faithful || (d.lookup name).bind (·.content.memberNames) == some names
  | .sha256 name, .ok digest =>
    !w.faithful || (d.lookup name).map (w.digest ·.content) == some digest
  | .fsync name, none | .chmod name, none | .replace name _, none | .mtime name, none
  | .unlink name false, none => (d.lookup name).isSome
  | .writeNew name _, .written _ => (d.lookup name).isNone
  | .glob, .ok names => decide (names.Perm (archives d))
  | _, _ => true

/-- Reply with `v` and leave `d'`, or raise and leave `d`. -/
def orRaise {V : Type} (d d' : Directory B) (v : V) : Option Err → Except Err V × Directory B
  | none => (.ok v, d')
  | some e => (.error e, d)

/-- Write a file. -/
def writing (d : Directory B) (name : FileName) (content : Content B) :
    WriteOutcome B → Except Err Unit × Directory B
  | .written mtime => (.ok (), d.insert name ⟨content, mtime⟩)
  | .failed e none => (.error e, d)
  | .failed e (some file) => (.error e, d.insert name file)

/-- `os.replace` -/
def renamed (d : Directory B) (source target : FileName) : Directory B :=
  match d.lookup source with
  | some file => (d.erase source).insert target file
  | none => d

/-- The reply of each request and the directory it leaves. -/
def Media.answer (w : Media B) (d : Directory B) :
    (q : Request) → Choice B q → Reply q × Directory B
  | .dataRootIsDir, c | .memberNames _, c | .sha256 _, c | .glob, c => (c, d)
  | .utcNow, c | .uuid, c => (.ok c, d)
  | .mkdirBackupRoot, c | .fsync _, c | .chmod _, c | .fsyncDirectory, c => orRaise d d () c
  | .exists name, c => orRaise d d (d.lookup name).isSome c
  | .mtime name, c => orRaise d d ((d.lookup name).elim 0 File.mtime) c
  | .writeArchive name, c => writing d name (.tar w.data.members) c
  | .writeNew name content, c => writing d name (.text content) c
  | .replace source target, c => orRaise d (renamed d source target) () c
  | .unlink name _, c | .discard name, c => orRaise d (d.erase name) () c

/-- What the requests do to the backup directory. -/
def Media.world (w : Media B) : World Request Reply (Directory B) where
  Choice := Choice B
  allowed := w.allowed
  answer := w.answer

end Backup

end PzServer
