import Mathlib.Data.List.AList

/-!
# The backup directory

`BackupManager` keeps its archives in one directory. A name in it is an archive of a pre-update
world, one of the two sidecars of an archive, a file that is still being written, or anything
else. What a file holds matters in two ways only: the members of a tar archive, and the text of
a sidecar.

## Main definitions

* `FileName`, `FileName.text` — the names, and how they are spelled
* `Content`, `File`, `Directory` — what they name
* `DataTree.members` — what archiving a data tree puts into the archive
-/

namespace PzServer

namespace Backup

/-! ### Names -/

/-- A name in the backup directory, by its form. -/
inductive FileName where
  /-- `pz-pre-update-{label}.tar.gz` -/
  | preUpdate (label : String)
  /-- `{name}.sha256` -/
  | checksum (name : FileName)
  /-- `{name}.json` -/
  | metadata (name : FileName)
  /-- `.{name}.{pid}.partial` -/
  | partialOf (name : FileName) (pid : ℕ)
  /-- `.{name}.{pid}.{uuid}.tmp` -/
  | temporary (name : FileName) (pid : ℕ) (uuid : String)
  /-- a name of no other form -/
  | other (name : String)
  deriving DecidableEq, Repr

namespace FileName

/-- The name as the directory spells it. -/
def text : FileName → String
  | preUpdate label => "pz-pre-update-" ++ label ++ ".tar.gz"
  | checksum name => name.text ++ ".sha256"
  | metadata name => name.text ++ ".json"
  | partialOf name pid => "." ++ name.text ++ "." ++ toString pid ++ ".partial"
  | temporary name pid uuid => "." ++ name.text ++ "." ++ toString pid ++ "." ++ uuid ++ ".tmp"
  | other name => name

/-- `glob("pz-pre-update-*.tar.gz")` -/
def isArchive : FileName → Bool
  | preUpdate _ => true
  | _ => false

/-- A sidecar of an archive. -/
def isSidecar : FileName → Bool
  | checksum name | metadata name => name.isArchive
  | _ => false

/-- An archive that is still being written. -/
def isPartial : FileName → Bool
  | partialOf name _ => name.isArchive
  | _ => false

end FileName

/-! ### Files -/

variable {B : Type}

/-- A directory tree: its root and, by their paths below it, everything in it. `B` is what an
archive keeps of each. -/
structure DataTree (B : Type) where
  root : B
  entries : List (String × B)

/-- `bundle.add(data_root, arcname="data", recursive=True)` -/
def DataTree.members (t : DataTree B) : List (String × B) :=
  ("data", t.root) :: t.entries.map fun e => ("data/" ++ e.1, e.2)

/-- What a file holds: the members of a tar archive, or any other text. -/
inductive Content (B : Type) where
  | tar (members : List (String × B))
  | text (content : String)

/-- The member names of a tar archive; any other content is not one. -/
def Content.memberNames : Content B → Option (List String)
  | tar members => some (members.map Prod.fst)
  | text _ => none

/-- A file with its modification time in nanoseconds. -/
structure File (B : Type) where
  content : Content B
  mtime : ℤ

/-- The files of the backup directory by name. -/
abbrev Directory (B : Type) : Type := AList fun _ : FileName => File B

/-- The archives in the directory. -/
def archives (d : Directory B) : List FileName := d.keys.filter FileName.isArchive

theorem archives_nodup (d : Directory B) : (archives d).Nodup := d.keys_nodup.filter _

theorem mem_archives {d : Directory B} {n : FileName} :
    n ∈ archives d ↔ n.isArchive ∧ n ∈ d := by
  rw [archives, List.mem_filter, AList.mem_keys, and_comm]

theorem lookup_erase (d : Directory B) (name n : FileName) :
    (d.erase name).lookup n = if n = name then none else d.lookup n := by
  by_cases h : n = name
  · rw [if_pos h, h, AList.lookup_erase]
  · rw [if_neg h, AList.lookup_erase_ne h]

end Backup

end PzServer
