import Mathlib.Data.Nat.Notation

/-!
# The latest of several answers

Some elements of a list answer a question, and a later answer replaces an earlier one.

## Main results

* `Collections.latest_append`
-/

namespace Collections

variable {β : Type} {xs ys : List (Option β)}

/-- The latest answer, if there is one. -/
def latest : List (Option β) → Option β
  | [] => none
  | x :: xs => (latest xs).or x

theorem latest_append : latest (xs ++ ys) = (latest ys).or (latest xs) := by
  induction xs with
  | nil => rw [List.nil_append, latest, Option.or_none]
  | cons x xs ih => rw [List.cons_append, latest, latest, ih, Option.or_assoc]

end Collections
