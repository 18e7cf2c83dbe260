import Mathlib.Data.List.TakeWhile
import Mathlib.Data.Nat.Notation

/-!
# Commits, and the two state files that name them

`pzctl deploy` keeps two small files under `/var/lib/pz-deploy`: `deployed-commit` holds one commit,
and `deployment-pending` holds two, the one to go back to and the one to go to. Commits are spelled
as the script insists on, with exactly forty lowercase hexadecimal digits; `Sha` carries the proof.

## Main results

* `parseMarker_line` — a pending marker that was written is read back
* `Sha.ofText_recorded` — so is a deployed commit
-/

namespace PzServer

namespace Deploy

/-- What the shell holds in a variable. -/
abbrev Text : Type := List Char

/-! ### Commits -/

/-- `[0-9a-f]` -/
def isLowerHex (c : Char) : Bool := c ∈ "0123456789abcdef".toList

/-- `[0-9a-fA-F]` -/
def isHex (c : Char) : Bool := isLowerHex c || c ∈ "ABCDEF".toList

/-- `^[0-9a-f]{40}$` -/
def isSha (t : Text) : Bool := t.length = 40 && t.all isLowerHex

/-- A commit, by its full name. -/
structure Sha where
  text : Text
  valid : isSha text = true
  deriving DecidableEq

namespace Sha

/-- A commit name that a file or a command gave. -/
def ofText (t : Text) : Option Sha := if h : isSha t = true then some ⟨t, h⟩ else none

/-- The argument of the command: `^[0-9a-fA-F]{40}$`, and then `${target,,}`. -/
def ofTarget (t : Text) : Option Sha :=
  if t.length = 40 ∧ t.all isHex = true then ofText (t.map Char.toLower) else none

variable (c : Sha)

@[simp] theorem ofText_text : ofText c.text = some c := by
  rw [ofText, dif_pos c.valid]

theorem length_text : c.text.length = 40 := by
  have h := c.valid
  rw [isSha, Bool.and_eq_true, decide_eq_true_eq] at h
  exact h.1

theorem isLowerHex_of_mem {a : Char} (h : a ∈ c.text) : isLowerHex a = true := by
  have hvalid := c.valid
  rw [isSha, Bool.and_eq_true, List.all_eq_true] at hvalid
  exact hvalid.2 a h

theorem text_ne_nil : c.text ≠ [] := by
  intro h
  have hlength := c.length_text
  rw [h] at hlength
  cases hlength

/-- Digits are neither blank nor upper case. -/
theorem of_isLowerHex {a : Char} (h : isLowerHex a = true) :
    a ≠ ' ' ∧ a ≠ '\t' ∧ a ≠ '\n' ∧ a.toLower = a := by
  -- a list is searched here, not all characters
  have hall : "0123456789abcdef".toList.all (fun b =>
      decide (b ≠ ' ' ∧ b ≠ '\t' ∧ b ≠ '\n' ∧ b.toLower = b)) = true := by decide
  exact of_decide_eq_true (List.all_eq_true.mp hall a (of_decide_eq_true h))

@[simp] theorem ofTarget_text : ofTarget c.text = some c := by
  have hhex : c.text.all isHex = true := by
    rw [List.all_eq_true]
    intro a ha
    rw [isHex, c.isLowerHex_of_mem ha, Bool.true_or]
  have hlower : c.text.map Char.toLower = c.text := by
    rw [List.map_eq_iff]
    intro i
    cases ha : c.text[i]? with
    | none => rfl
    | some a => simp [(of_isLowerHex (c.isLowerHex_of_mem (List.mem_of_getElem? ha))).2.2.2]
  rw [ofTarget, if_pos ⟨c.length_text, hhex⟩, hlower, ofText_text]

end Sha

/-! ### Lines -/

/-- `printf '%s\n'` -/
def line (t : Text) : Text := t ++ ['\n']

/-- The line that `read` reads. -/
def readLine (t : Text) : Text := t.takeWhile (· ≠ '\n')

/-- `IFS`, within a line -/
def isBlank (c : Char) : Bool := c = ' ' || c = '\t'

/-- The next word of a line, and the rest. -/
def nextWord (t : Text) : Text × Text :=
  let t := t.dropWhile isBlank
  (t.takeWhile fun c => !isBlank c, t.dropWhile fun c => !isBlank c)

/-- `$(cat file)`: the content without the newlines it ends with. -/
def recorded (t : Text) : Text := (t.reverse.dropWhile (· = '\n')).reverse

/-- What is written to `deployment-pending`. -/
def marker (previous target : Sha) : Text := previous.text ++ ' ' :: target.text

/-- `read -r previous pending_target pending_extra`, and the checks that follow it. -/
def parseMarker (content : Text) : Option (Sha × Sha) :=
  let (previous, rest) := nextWord (readLine content)
  let (target, rest) := nextWord rest
  match Sha.ofText previous, Sha.ofText target, rest.dropWhile isBlank with
  | some previous, some target, [] => some (previous, target)
  | _, _, _ => none

/-! ### Reading back -/

theorem readLine_line {t : Text} (h : ∀ a ∈ t, a ≠ '\n') : readLine (line t) = t := by
  rw [readLine, line, List.takeWhile_append_of_pos (by simpa using h)]
  simp

theorem Sha.not_isBlank (c : Sha) {a : Char} (h : a ∈ c.text) : isBlank a = false := by
  obtain ⟨hspace, htab, -⟩ := of_isLowerHex (c.isLowerHex_of_mem h)
  simp [isBlank, hspace, htab]

/-- The next word of a line that begins with a commit. -/
theorem nextWord_text (c : Sha) (rest : Text) (h : rest.head?.all isBlank = true) :
    nextWord (c.text ++ rest) = (c.text, rest) := by
  have hword : ∀ a ∈ c.text, (!isBlank a) = true := by
    intro a ha
    rw [c.not_isBlank ha, Bool.not_false]
  have hdrop : (c.text ++ rest).dropWhile isBlank = c.text ++ rest := by
    obtain ⟨a, t, ht⟩ := List.exists_cons_of_ne_nil c.text_ne_nil
    have ha : isBlank a = false := c.not_isBlank (by rw [ht]; exact List.mem_cons_self)
    rw [ht, List.cons_append, List.dropWhile_cons, if_neg (by simp [ha])]
  rw [nextWord, hdrop, List.takeWhile_append_of_pos hword, List.dropWhile_append_of_pos hword]
  cases rest with
  | nil => simp
  | cons a rest => simp_all

theorem nextWord_blank (t : Text) : nextWord (' ' :: t) = nextWord t := by
  rw [nextWord, List.dropWhile_cons_of_pos (by decide)]
  rfl

/-- **Markers are read back.** -/
theorem parseMarker_line (previous target : Sha) :
    parseMarker (line (marker previous target)) = some (previous, target) := by
  have hline : ∀ a ∈ marker previous target, a ≠ '\n' := by
    intro a ha
    rcases List.mem_append.mp ha with h | h
    · exact (Sha.of_isLowerHex (previous.isLowerHex_of_mem h)).2.2.1
    · rcases List.mem_cons.mp h with rfl | h
      · decide
      · exact (Sha.of_isLowerHex (target.isLowerHex_of_mem h)).2.2.1
  have hprevious := nextWord_text previous (' ' :: target.text) rfl
  have htarget := nextWord_text target [] rfl
  rw [List.append_nil] at htarget
  rw [parseMarker, readLine_line hline, marker]
  simp only [hprevious, nextWord_blank, htarget,
    Sha.ofText_text, List.dropWhile_nil]

theorem recorded_line (c : Sha) : recorded (line c.text) = c.text := by
  obtain ⟨a, t, ht⟩ := List.exists_cons_of_ne_nil (List.reverse_ne_nil_iff.mpr c.text_ne_nil)
  have ha : a ≠ '\n' := by
    refine (Sha.of_isLowerHex (c.isLowerHex_of_mem ?_)).2.2.1
    rw [← List.mem_reverse, ht]
    exact List.mem_cons_self
  rw [recorded, line, List.reverse_append, List.reverse_singleton, List.singleton_append,
    List.dropWhile_cons_of_pos (by decide), ht, List.dropWhile_cons_of_neg (by simpa using ha),
    ← ht, List.reverse_reverse]

/-- A deployed commit that was written is read back. -/
theorem Sha.ofText_recorded (c : Sha) : ofText (recorded (line c.text)) = some c := by
  rw [recorded_line, ofText_text]

end Deploy

end PzServer
