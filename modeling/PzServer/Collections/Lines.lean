import Mathlib.Data.Nat.Notation

/-!
# The lines of a text

A line ends with a line feed, the last one also with the text.

## Main results

* `Collections.lines_append`, `Collections.lines_line`
-/

namespace Collections

variable {line t s : List Char}

/-- The lines of a text, with the line that is being read in reverse. -/
def linesFrom : List Char → List Char → List (List Char)
  | [], [] => []
  | line, [] => [line.reverse]
  | line, '\n' :: t => line.reverse :: linesFrom [] t
  | line, c :: t => linesFrom (c :: line) t

/-- The lines of a text, without their line feeds. -/
def lines (t : List Char) : List (List Char) := linesFrom [] t

theorem linesFrom_feed (line t : List Char) :
    linesFrom line ('\n' :: t) = line.reverse :: lines t := by
  cases line with
  | nil => rfl
  | cons c line => rfl

theorem linesFrom_cons {c : Char} (h : c ≠ '\n') :
    linesFrom line (c :: t) = linesFrom (c :: line) t := by
  cases line with
  | nil => rw [linesFrom]; exact fun hc => h hc
  | cons d line => rw [linesFrom]; exact fun hc => h hc

theorem linesFrom_append (line t s : List Char) :
    linesFrom line (t ++ '\n' :: s) = linesFrom line (t ++ ['\n']) ++ lines s := by
  induction t generalizing line with
  | nil =>
    rw [List.nil_append, List.nil_append, linesFrom_feed, linesFrom_feed]
    rfl
  | cons c t ih =>
    rw [List.cons_append, List.cons_append]
    by_cases hc : c = '\n'
    · rw [hc, linesFrom_feed, linesFrom_feed, lines, lines, ih, List.cons_append]
    · rw [linesFrom_cons hc, linesFrom_cons hc, ih]

/-- A text that ends with a line is read on its own. -/
theorem lines_append (h : t = [] ∨ t.getLast? = some '\n') :
    lines (t ++ s) = lines t ++ lines s := by
  rcases h with rfl | h
  · rfl
  · obtain ⟨t, rfl⟩ := List.getLast?_eq_some_iff.mp h
    rw [List.append_assoc, List.singleton_append]
    exact linesFrom_append [] t s

theorem linesFrom_line (h : '\n' ∉ t) : linesFrom line (t ++ ['\n']) = [line.reverse ++ t] := by
  induction t generalizing line with
  | nil => rw [List.nil_append, linesFrom_feed, List.append_nil]; rfl
  | cons c t ih =>
    rw [List.mem_cons, not_or] at h
    rw [List.cons_append, linesFrom_cons (Ne.symm h.1), ih h.2, List.reverse_cons,
      List.append_assoc]
    rfl

/-- A single line. -/
theorem lines_line (h : '\n' ∉ t) : lines (t ++ ['\n']) = [t] := linesFrom_line h

end Collections
