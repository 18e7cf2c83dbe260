import PzServer.Collections.Overlay
import Mathlib.Logic.Function.Basic

/-!
# `merge_managed_ini`

The entrypoint renders the settings it manages and merges them into the INI file of the server,
which holds the identity of the world and other keys of its own. The merge is an `awk` program: it
reads the rendered file into arrays, copies the old file with the managed lines replaced, and
appends what was missing.

A text is the list of its characters, and `awk` reads it as records that end with a newline or
with the text. The state of the program is `Awk`, its three rules are the three functions below.

## Main definitions

* `records`, `unrecords` — reading and printing lines
* `isKeyLine`, `keyOf` — lines with a setting, and their keys
* `Awk`, `mergeManagedIni` — the program
-/

namespace PzServer

namespace Config

/-- A text of the entrypoint. -/
abbrev Text : Type := List Char

instance : LawfulBEq Text := inferInstance

/-! ### Lines -/

/-- The records of a file. -/
def records : Text → List Text
  | [] => []
  | c :: t =>
    if c = '\n' then [] :: records t
    else match records t with
      | [] => [[c]]
      | line :: lines => (c :: line) :: lines

/-- The `print` of lines. -/
def unrecords (lines : List Text) : Text := lines.flatMap fun line => line ++ ['\n']

section Lines

variable {line : Text} {lines : List Text} {t : Text}

theorem not_mem_of_mem_records (h : line ∈ records t) : '\n' ∉ line := by
  induction t generalizing line with
  | nil => cases h
  | cons c t ih =>
    rw [records] at h
    split at h
    · rcases List.mem_cons.mp h with rfl | h
      · exact List.not_mem_nil
      · exact ih h
    · rename_i hc
      split at h
      · rw [List.mem_singleton.mp h, List.mem_singleton]
        exact Ne.symm hc
      · rename_i first rest hrest
        rw [hrest] at ih
        rcases List.mem_cons.mp h with rfl | h
        · rw [List.mem_cons, not_or]
          exact ⟨Ne.symm hc, ih List.mem_cons_self⟩
        · exact ih (List.mem_cons_of_mem _ h)

/-- A line, and what follows it. -/
theorem records_append (h : '\n' ∉ line) : records (line ++ '\n' :: t) = line :: records t := by
  induction line with
  | nil => rw [List.nil_append, records, if_pos rfl]
  | cons c line ih =>
    rw [List.mem_cons, not_or] at h
    rw [List.cons_append, records, if_neg (Ne.symm h.1), ih h.2]

theorem records_ne_nil (h : t ≠ []) : records t ≠ [] := by
  cases t with
  | nil => exact absurd rfl h
  | cons c t =>
    rw [records]
    split
    · exact List.cons_ne_nil _ _
    · split <;> exact List.cons_ne_nil _ _

/-- The lines before a newline do not depend on what follows it. -/
theorem records_append_newline (s t : Text) :
    records (s ++ '\n' :: t) = records (s ++ ['\n']) ++ records t := by
  induction s with
  | nil => simp [records]
  | cons c s ih =>
    rw [List.cons_append, List.cons_append, records, records, ih]
    split
    · rfl
    · cases hs : records (s ++ ['\n']) with
      | nil => exact absurd hs (records_ne_nil (by simp))
      | cons line lines => rfl

/-- Lines that are printed are read back. -/
theorem records_unrecords (h : ∀ line ∈ lines, '\n' ∉ line) :
    records (unrecords lines) = lines := by
  induction lines with
  | nil => rfl
  | cons line lines ih =>
    rw [unrecords, List.flatMap_cons, List.append_assoc, List.singleton_append,
      records_append (h line List.mem_cons_self)]
    exact congrArg _ (ih fun l hl => h l (List.mem_cons_of_mem _ hl))

end Lines

/-- `[[:space:]]` -/
def isSpace (c : Char) : Bool :=
  c = ' ' || c = '\t' || c = '\n' || c = '\x0b' || c = '\x0c' || c = '\r'

/-- `gsub(/^[[:space:]]+|[[:space:]]+$/, "", ...)` -/
def trim (t : Text) : Text := ((t.dropWhile isSpace).reverse.dropWhile isSpace).reverse

/-- `$0 ~ /^[[:space:]]*[#;]/` -/
def isComment (line : Text) : Bool := match line.dropWhile isSpace with
  | c :: _ => c = '#' || c = ';'
  | [] => false

/-- `index($0, "=") > 0` -/
def hasEquals (line : Text) : Bool := '=' ∈ line

/-- `$1`, trimmed, with `=` between the fields -/
def keyOf (line : Text) : Text := trim (line.takeWhile (· ≠ '='))

/-- A line with a setting. -/
def isKeyLine (line : Text) : Bool := !isComment line && hasEquals line

/-! ### The program -/

/-- The arrays of the program, and what it has printed. -/
structure Awk where
  managed : Text → Option Text
  order : List Text
  emitted : List Text
  printed : List Text

namespace Awk

/-- Nothing was read. -/
def start : Awk := ⟨fun _ => none, [], [], []⟩

/-- The rule for a line of the first file. -/
def readManaged (s : Awk) (line : Text) : Awk :=
  if isKeyLine line then
    { s with
      managed := Function.update s.managed (keyOf line) (some line)
      order := s.order ++ [keyOf line] }
  else s

/-- The rule for a line of the second file. -/
def copy (s : Awk) (line : Text) : Awk :=
  if hasEquals line then match s.managed (keyOf line) with
    | some managed =>
      if keyOf line ∈ s.emitted then s
      else { s with emitted := keyOf line :: s.emitted, printed := s.printed ++ [managed] }
    | none => { s with printed := s.printed ++ [line] }
  else { s with printed := s.printed ++ [line] }

/-- The `END` rule. -/
def finish (s : Awk) : List Text :=
  s.printed ++ (s.order.filter (· ∉ s.emitted)).map fun key => (s.managed key).getD []

end Awk

/-- The lines that are printed. While no line was read, `NR == FNR` takes the second file for the
first. -/
def mergeLines (rendered old : List Text) : List Text :=
  let s := rendered.foldl Awk.readManaged .start
  (if rendered = [] then old.foldl Awk.readManaged s else old.foldl Awk.copy s).finish

/-- `merge_managed_ini` of an existing file -/
def mergeManagedIni (rendered destination : Text) : Text :=
  unrecords (mergeLines (records rendered) (records destination))

end Config

end PzServer
