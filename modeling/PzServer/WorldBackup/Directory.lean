import Mathlib.Data.Nat.Notation
import Mathlib.Data.Int.Notation
import Mathlib.Logic.Function.Basic
import PzServer.Interaction.Ensures
import PzServer.Updater.Disk

/-!
# The directory of the world backups

`pz-backup` and `Backup-PZLocal.ps1` archive the world of a stopped server. Both put the archive
under the second at which they name it, next to a checksum file, and remove the oldest archives.
Everything they do, they do with commands, and each command below is one of them.

Only what happens in the backup directory is modelled; the commands on containers, services and
players answer whatever they like. A command can fail, and the script can be interrupted while it
runs: a file that is being written is then left with any content or not at all, a rename has been
made or not, and of the files to remove any may be left. The lock keeps other backups away.

## Main definitions

* `FileName`, `File`, `Directory` — the backup directory
* `Command`, `world` — the commands of the two scripts
-/

namespace PzServer

namespace WorldBackup

open Interaction

/-! ### Files -/

/-- A name in the backup directory, by its form. -/
inductive FileName where
  /-- `pz-world-{timestamp}.tar.gz`, with a timestamp that `date` has written -/
  | stamped (date time : ℕ)
  /-- any other `pz-world-{label}.tar.gz` -/
  | labelled (label : String)
  /-- `{name}.sha256` -/
  | checksum (name : FileName)
  /-- `.{name}.{pid}.partial` -/
  | partialOf (name : FileName) (pid : ℕ)
  /-- a name of no other form -/
  | other (name : String)
  deriving DecidableEq, Repr

namespace FileName

/-- The name as the directory spells it. -/
def text : FileName → String
  | stamped date time => "pz-world-" ++ Updater.timestamp date time ++ ".tar.gz"
  | labelled label => "pz-world-" ++ label ++ ".tar.gz"
  | checksum name => name.text ++ ".sha256"
  | partialOf name pid => "." ++ name.text ++ "." ++ toString pid ++ ".partial"
  | other name => name

/-- `-name 'pz-world-*.tar.gz'` -/
def isArchive : FileName → Bool
  | stamped .. | labelled _ => true
  | _ => false

/-- An archive whose name has a line feed in it. -/
def isBroken : FileName → Bool
  | labelled label => label.contains '\n'
  | _ => false

end FileName

structure File where
  content : String
  mtime : ℤ
  deriving DecidableEq, Repr

/-- The backup directory. -/
abbrev Directory : Type := FileName → Option File

namespace Directory

/-- Without the files that `removed` names. -/
def without (d : Directory) (removed : FileName → Bool) : Directory :=
  fun name => if removed name then none else d name

/-- One file replaced. -/
def put (d : Directory) (name : FileName) (file : Option File) : Directory :=
  Function.update d name file

/-- A file renamed; a file of the new name is replaced. -/
def move (d : Directory) (source target : FileName) : Directory :=
  (d.put source none).put target (d source)

/-- `later` may stand behind `earlier` in a listing by modification time, the newest first. -/
def ordered (d : Directory) (earlier later : FileName) : Bool :=
  match d earlier, d later with
  | some file, some file' => file'.mtime ≤ file.mtime
  | _, _ => false

/-- A listing of archives, each once, the newest first. It need not be complete: that `find` has
failed is not noticed. -/
def lists (d : Directory) : List FileName → Bool
  | [] => true
  | name :: names => name.isArchive && (d name).isSome && !names.contains name &&
      names.all (d.ordered name) && d.lists names

end Directory

/-! ### Commands -/

/-- What the filters of the scripts say of the state of a container. -/
structure ContainerState where
  /-- `.Restarting == true` -/
  restarting : Bool
  /-- `.Running == true` -/
  running : Bool
  /-- It is in a verified clean stopped state. -/
  quiescent : Bool

/-- The commands of the two scripts. -/
inductive Command where
  /-- `systemctl is-active --quiet pz-watchdog.service` -/
  | watchdogIsActive
  /-- `systemctl stop pz-watchdog.service` -/
  | stopWatchdog
  /-- `docker compose ps --all --quiet server`: the lines that it prints -/
  | composePs
  /-- `docker inspect` of a container -/
  | inspect (identifier : String)
  /-- the number of connected players, if one is printed -/
  | players
  /-- RCON `save`, and its confirmation -/
  | save
  /-- `pzctl graceful-stop`, or `docker compose stop` -/
  | stopServer (allowConnectedPlayers : Bool)
  | sleep (seconds : ℕ)
  /-- `Push-Location`, `Pop-Location` -/
  | location
  /-- the date and the time of day, in UTC -/
  | date
  /-- whether a file exists -/
  | exists (name : FileName)
  /-- a line on the terminal -/
  | log
  /-- `tar` of the world -/
  | tar (name : FileName)
  /-- `mv`, `Move-Item` -/
  | move (source target : FileName)
  /-- the checksum file of an archive -/
  | writeChecksum (archive : FileName)
  /-- `chmod 0640` -/
  | chmod (archive : FileName)
  /-- the archives in the directory, the newest first -/
  | list
  /-- removal of an expired file, by `prune_archives` or its counterpart -/
  | prune (names : List FileName)
  /-- removal of what an unfinished run has left, when the script ends -/
  | discard (names : List FileName)
  /-- `pzctl start`, or `docker compose up` -/
  | startServer
  /-- `systemctl start pz-watchdog.service` -/
  | startWatchdog
  /-- `flock --unlock`, `ReleaseMutex` -/
  | unlock
  deriving DecidableEq

/-- What a command answers when it succeeds. -/
@[reducible] def Value : Command → Type
  | .watchdogIsActive | .exists _ => Bool
  | .composePs => List String
  | .inspect _ => ContainerState
  | .players => Option ℕ
  | .date => ℕ × ℕ
  | .list => List FileName
  | _ => Unit

/-- A command that fails has an exit status. -/
abbrev Reply (q : Command) : Type := Except ℕ (Value q)

/-- How a command that writes a file ends: the exit status of a failure, and what is in the file if
it was touched. -/
structure Written where
  failure : Option ℕ
  file : Option (Option File)

/-- How a rename ends. -/
structure Moved where
  failure : Option ℕ
  done : Bool

/-- How a removal ends, and which files it has removed. -/
structure Removed where
  failure : Option ℕ
  removed : FileName → Bool

/-- What `find` and `sort` print: archives by modification time, or, if the name of one has a line
feed, anything. -/
structure Listed where
  names : List FileName
  broken : Option FileName

/-- Nature's choice. -/
@[reducible] def Choice : Command → Type
  | .exists _ => Option ℕ
  | .tar _ | .writeChecksum _ => Written
  | .move .. => Moved
  | .prune _ | .discard _ => Removed
  | .list => Except ℕ Listed
  | q => Reply q

/-- A removal that succeeds has removed all its files. -/
def removalAllowed (d : Directory) (names : List FileName) (c : Removed) : Bool :=
  c.failure.isSome || names.all fun name => c.removed name || (d name).isNone

def listAllowed (d : Directory) (c : Listed) : Bool :=
  match c.broken with
  | some name => name.isArchive && name.isBroken && (d name).isSome
  | none => d.lists c.names

def allowed (d : Directory) : (q : Command) → Choice q → Bool
  | .tar _, c | .writeChecksum _, c =>
    c.failure.isSome || (c.file.bind id).isSome
  | .move source _, c => (c.failure.isSome || c.done) && (!c.done || (d source).isSome)
  | .prune names, c | .discard names, c => removalAllowed d names c
  | .list, .ok c => listAllowed d c
  | _, _ => true

/-- A reply without a value. -/
def reply : Option ℕ → Except ℕ Unit
  | none => .ok ()
  | some status => .error status

/-- What a command leaves in a file. -/
def Written.leaves (c : Written) (d : Directory) (name : FileName) : Directory :=
  match c.file with
  | none => d
  | some file => d.put name file

/-- What a command answers, and the directory it leaves. -/
def answer (d : Directory) : (q : Command) → Choice q → Reply q × Directory
  | .exists name, none => (.ok (d name).isSome, d)
  | .exists _, some status => (.error status, d)
  | .tar name, c => (reply c.failure, c.leaves d name)
  | .writeChecksum archive, c => (reply c.failure, c.leaves d (.checksum archive))
  | .move source target, c => (reply c.failure, if c.done then d.move source target else d)
  | .prune names, c | .discard names, c =>
    (reply c.failure, d.without fun name => names.contains name && c.removed name)
  | .list, c => (c.map Listed.names, d)
  | .watchdogIsActive, c | .stopWatchdog, c | .composePs, c | .inspect _, c | .players, c
  | .save, c | .stopServer _, c | .sleep _, c | .location, c | .date, c | .log, c | .chmod _, c
  | .startServer, c | .startWatchdog, c | .unlock, c => (c, d)

/-- The surroundings of the scripts. -/
@[reducible] def world : World Command Reply Directory := ⟨Choice, allowed, answer⟩

abbrev BackupMove : Type := Move Command Reply Directory

end WorldBackup

end PzServer
