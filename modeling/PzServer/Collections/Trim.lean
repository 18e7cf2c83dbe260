import Mathlib.Data.Nat.Notation

/-!
# Trimming

What is left of a list when elements of a kind are taken away at both ends.

## Main results

* `Collections.exists_trim` — what was taken away
* `Collections.trim_cons` — where nothing is taken away in front
* `Collections.trim_map` — where the elements are replaced
* `Collections.trim_takeWhile`, `Collections.trim_dropWhile` — the parts before and after a
  separator
-/

namespace Collections

variable {α : Type} {p q : α → Bool} {x : α} {s t r : List α}

/-- Take away the elements of a kind at both ends. -/
def trim (p : α → Bool) (t : List α) : List α := ((t.dropWhile p).reverse.dropWhile p).reverse

/-- Take away the elements of a kind at the end. -/
def trimEnd (p : α → Bool) (t : List α) : List α := (t.reverse.dropWhile p).reverse

theorem trim_eq (p : α → Bool) (t : List α) : trim p t = trimEnd p (t.dropWhile p) := rfl

theorem dropWhile_eq_nil (h : ∀ x ∈ t, p x = true) : t.dropWhile p = [] := by
  have happend : (t ++ []).dropWhile p = [] := List.dropWhile_append_of_pos h
  rw [List.append_nil] at happend
  exact happend

theorem takeWhile_eq_self (h : ∀ x ∈ t, p x = true) : t.takeWhile p = t := by
  have happend : (t ++ []).takeWhile p = t ++ [] := List.takeWhile_append_of_pos h
  rw [List.append_nil] at happend
  exact happend

theorem dropWhile_self (h : ∀ x, t.head? = some x → p x = false) : t.dropWhile p = t := by
  cases t with
  | nil => rfl
  | cons x t => exact List.dropWhile_cons_of_neg (by rw [h x rfl]; decide)

/-- A list is what is dropped in front, and the rest. -/
theorem exists_dropWhile (p : α → Bool) (t : List α) : ∃ s, t = s ++ t.dropWhile p ∧
    (∀ x ∈ s, p x = true) ∧ ∀ x, (t.dropWhile p).head? = some x → p x = false := by
  induction t with
  | nil => exact ⟨[], rfl, (fun x hx => by cases hx), fun x hx => by cases hx⟩
  | cons y t ih =>
    by_cases hy : p y = true
    · obtain ⟨s, hs, hall, hhead⟩ := ih
      rw [List.dropWhile_cons_of_pos hy]
      exact ⟨y :: s, congrArg _ hs, List.forall_mem_cons.mpr ⟨hy, hall⟩, hhead⟩
    · rw [List.dropWhile_cons_of_neg hy]
      refine ⟨[], rfl, (fun x hx => by cases hx), fun x hx => ?_⟩
      cases hx
      exact Bool.not_eq_true _ ▸ hy

theorem trimEnd_append (h : ∀ x ∈ r, p x = true) : trimEnd p (t ++ r) = trimEnd p t := by
  rw [trimEnd, trimEnd, List.reverse_append, List.dropWhile_append_of_pos]
  intro x hx
  exact h x (List.mem_reverse.mp hx)

theorem trim_append_left (h : ∀ x ∈ s, p x = true) : trim p (s ++ t) = trim p t := by
  rw [trim, trim, List.dropWhile_append_of_pos h]

theorem trim_append_right (h : ∀ x ∈ r, p x = true) : trim p (t ++ r) = trim p t := by
  obtain ⟨s, hs, hall, hhead⟩ := exists_dropWhile p t
  rw [trim_eq, trim_eq]
  generalize t.dropWhile p = rest at hs hhead
  subst hs
  rw [List.append_assoc, List.dropWhile_append_of_pos hall]
  cases rest with
  | nil =>
    rw [List.nil_append, dropWhile_eq_nil h]
  | cons x rest =>
    have hx : ¬ p x = true := by
      rw [hhead x rfl]
      decide
    rw [List.cons_append, List.dropWhile_cons_of_neg hx, ← List.cons_append, trimEnd_append h]

/-- What was taken away. -/
theorem exists_trim (p : α → Bool) (t : List α) : ∃ s r, t = s ++ (trim p t ++ r) ∧
    (∀ x ∈ s, p x = true) ∧ (∀ x ∈ r, p x = true) ∧
    ∀ x, (trim p t).getLast? = some x → p x = false := by
  obtain ⟨s, hs, hall, -⟩ := exists_dropWhile p t
  obtain ⟨r, hr, hall', hhead⟩ := exists_dropWhile p (t.dropWhile p).reverse
  refine ⟨s, r.reverse, ?_, hall, fun x hx => hall' x (List.mem_reverse.mp hx), ?_⟩
  · have hsplit : t.dropWhile p = trim p t ++ r.reverse := by
      rw [trim, ← List.reverse_append, ← hr, List.reverse_reverse]
    rw [← hsplit]
    exact hs
  · intro x hx
    rw [trim, List.getLast?_reverse] at hx
    exact hhead x hx

/-- Where nothing is taken away in front. -/
theorem trim_cons (hx : p x = false) (t : List α) : trim p (x :: t) = x :: trimEnd p t := by
  have hx' : ¬ p x = true := by
    rw [hx]
    decide
  rw [trim_eq, List.dropWhile_cons_of_neg hx', trimEnd, trimEnd, List.reverse_cons]
  rw [List.dropWhile_append]
  cases hrest : t.reverse.dropWhile p with
  | nil =>
    rw [if_pos List.isEmpty_nil, List.dropWhile_cons_of_neg hx']
    rfl
  | cons y rest =>
    rw [if_neg (by simp), List.reverse_append]
    rfl

/-- Only the elements that are there matter. -/
theorem trim_congr (h : ∀ x ∈ t, p x = q x) : trim p t = trim q t := by
  have hdrop : ∀ {l : List α}, (∀ x ∈ l, p x = q x) → l.dropWhile p = l.dropWhile q := by
    intro l hl
    induction l with
    | nil => rfl
    | cons x l ih =>
      rw [List.dropWhile_cons, List.dropWhile_cons, hl x (List.mem_cons_self ..),
        ih fun y hy => hl y (List.mem_cons_of_mem x hy)]
  rw [trim, trim, hdrop h, hdrop]
  intro x hx
  exact h x ((List.dropWhile_suffix q).subset (List.mem_reverse.mp hx))

/-- Replacing the elements, each by one that is of the kind if it was. -/
theorem trim_map {β : Type} {p : β → Bool} {q : α → Bool} {f : α → β} (h : ∀ x, p (f x) = q x)
    (t : List α) : trim p (t.map f) = (trim q t).map f := by
  have hpq : p ∘ f = q := funext h
  rw [trim, trim, List.dropWhile_map, hpq, ← List.map_reverse, List.dropWhile_map, hpq,
    ← List.map_reverse]

/-- The part before a separator. -/
theorem trim_takeWhile (h : ∀ x, p x = true → q x = true) (t : List α) :
    trim p ((trim p t).takeWhile q) = trim p (t.takeWhile q) := by
  obtain ⟨s, r, ht, hs, hr, -⟩ := exists_trim p t
  have hsq : ∀ x ∈ s, q x = true := fun x hx => h x (hs x hx)
  have hrq : ∀ x ∈ r, q x = true := fun x hx => h x (hr x hx)
  generalize trim p t = core at ht
  subst ht
  rw [List.takeWhile_append_of_pos hsq, trim_append_left hs, List.takeWhile_append]
  split
  · rw [takeWhile_eq_self hrq, trim_append_right hr]
    rename_i hall
    rw [(List.takeWhile_prefix q).eq_of_length hall]
  · rfl

/-- The part after a separator. -/
theorem trim_dropWhile (h : ∀ x, p x = true → q x = true) (t : List α) :
    trim p (((trim p t).dropWhile q).drop 1) = trim p ((t.dropWhile q).drop 1) := by
  obtain ⟨s, r, ht, hs, hr, -⟩ := exists_trim p t
  have hsq : ∀ x ∈ s, q x = true := fun x hx => h x (hs x hx)
  have hrq : ∀ x ∈ r, q x = true := fun x hx => h x (hr x hx)
  generalize trim p t = core at ht
  subst ht
  rw [List.dropWhile_append_of_pos hsq, List.dropWhile_append]
  cases hcore : core.dropWhile q with
  | nil =>
    rw [if_pos List.isEmpty_nil, dropWhile_eq_nil hrq]
  | cons x rest =>
    rw [if_neg (by simp), List.cons_append, List.drop_one, List.drop_one, List.tail_cons,
      List.tail_cons, trim_append_right hr]

end Collections
