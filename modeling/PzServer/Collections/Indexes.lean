import Mathlib.Data.Nat.Notation

/-!
# Where the elements of a kind are

The places of the elements with a property, in order. Where there is just one, the list falls into
what is before it and what is after it, and to write to the place is to replace the element.

## Main results

* `Collections.indexes_eq_nil`, `Collections.indexes_eq_singleton`,
  `Collections.indexes_eq_singleton_iff`
* `Collections.set_length`, `Collections.insertIdx_length` — writing to a place
* `Collections.indexes_skip_iff`, `Collections.forall_mem_drop_skip` — one element more
-/

namespace Collections

variable {α : Type} {p : α → Bool} {x y : α} {xs pre post : List α} {i k : ℕ}

/-- The places of the elements with a property, counted from `i`. -/
def indexesFrom (p : α → Bool) : ℕ → List α → List ℕ
  | _, [] => []
  | i, x :: xs => if p x then i :: indexesFrom p (i + 1) xs else indexesFrom p (i + 1) xs

/-- `[index for index, x in enumerate(xs) if p(x)]` -/
def indexes (p : α → Bool) (xs : List α) : List ℕ := indexesFrom p 0 xs

theorem indexesFrom_eq_nil : indexesFrom p i xs = [] ↔ ∀ x ∈ xs, p x = false := by
  induction xs generalizing i with
  | nil => simp [indexesFrom]
  | cons x xs ih =>
    rw [indexesFrom, List.forall_mem_cons]
    by_cases hx : p x = true
    · simp [hx]
    · rw [if_neg hx, ih, Bool.not_eq_true] at *
      exact ⟨fun h => ⟨hx, h⟩, fun h => h.2⟩

theorem indexes_eq_nil : indexes p xs = [] ↔ ∀ x ∈ xs, p x = false := indexesFrom_eq_nil

theorem indexesFrom_split (hx : p x = true) (hpre : ∀ y ∈ pre, p y = false)
    (hpost : ∀ y ∈ post, p y = false) : indexesFrom p i (pre ++ x :: post) = [i + pre.length] := by
  induction pre generalizing i with
  | nil => rw [List.nil_append, indexesFrom, if_pos hx, indexesFrom_eq_nil.mpr hpost]; rfl
  | cons y pre ih =>
    have hy : ¬ p y = true := by
      rw [hpre y (List.mem_cons_self ..)]
      decide
    rw [List.cons_append, indexesFrom, if_neg hy,
      ih fun z hz => hpre z (List.mem_cons_of_mem y hz), List.length_cons]
    congr 1
    omega

theorem split_of_indexesFrom (h : indexesFrom p i xs = [k]) :
    ∃ pre x post, xs = pre ++ x :: post ∧ i + pre.length = k ∧ p x = true ∧
      (∀ y ∈ pre, p y = false) ∧ ∀ y ∈ post, p y = false := by
  induction xs generalizing i with
  | nil => cases h
  | cons x xs ih =>
    rw [indexesFrom] at h
    by_cases hx : p x = true
    · rw [if_pos hx] at h
      obtain ⟨rfl, hnil⟩ := List.cons.inj h
      exact ⟨[], x, xs, rfl, rfl, hx, (fun y hy => by cases hy), indexesFrom_eq_nil.mp hnil⟩
    · rw [if_neg hx] at h
      obtain ⟨pre, z, post, rfl, hk, hz, hpre, hpost⟩ := ih h
      refine ⟨x :: pre, z, post, rfl, ?_, hz, ?_, hpost⟩
      · rw [List.length_cons]
        omega
      · rw [Bool.not_eq_true] at hx
        exact List.forall_mem_cons.mpr ⟨hx, hpre⟩

/-- There is just one element with the property. -/
theorem indexes_eq_singleton : indexes p xs = [i] ↔
    ∃ pre x post, xs = pre ++ x :: post ∧ pre.length = i ∧ p x = true ∧
      (∀ y ∈ pre, p y = false) ∧ ∀ y ∈ post, p y = false := by
  constructor
  · intro h
    obtain ⟨pre, x, post, hxs, hi, hrest⟩ := split_of_indexesFrom h
    exact ⟨pre, x, post, hxs, by omega, hrest⟩
  · rintro ⟨pre, x, post, rfl, rfl, hx, hpre, hpost⟩
    rw [indexes, indexesFrom_split hx hpre hpost, Nat.zero_add]

/-- A place that is the only one with the property. -/
theorem indexes_eq_singleton_iff : indexes p xs = [i] ↔ (∃ x, xs[i]? = some x ∧ p x = true) ∧
    ∀ j x, xs[j]? = some x → p x = true → j = i := by
  rw [indexes_eq_singleton]
  constructor
  · rintro ⟨pre, x, post, rfl, rfl, hx, hpre, hpost⟩
    refine ⟨⟨x, by simp, hx⟩, fun j y hj hy => ?_⟩
    rcases Nat.lt_trichotomy j pre.length with hlt | heq | hgt
    · rw [List.getElem?_append_left hlt] at hj
      rw [hpre y (List.mem_of_getElem? hj)] at hy
      cases hy
    · exact heq
    · obtain ⟨n, rfl⟩ : ∃ n, j = pre.length + (n + 1) := ⟨j - pre.length - 1, by omega⟩
      rw [List.getElem?_append_right (Nat.le_add_right _ _), Nat.add_sub_cancel_left,
        List.getElem?_cons_succ] at hj
      rw [hpost y (List.mem_of_getElem? hj)] at hy
      cases hy
  · rintro ⟨⟨x, hi, hx⟩, hone⟩
    obtain ⟨hlt, hget⟩ := List.getElem?_eq_some_iff.mp hi
    have hno : ∀ j y, xs[j]? = some y → j ≠ i → p y = false := by
      intro j y hj hne
      exact Bool.eq_false_iff.mpr fun hy => hne (hone j y hj hy)
    refine ⟨xs.take i, x, xs.drop (i + 1), ?_, List.length_take_of_le (Nat.le_of_lt hlt), hx,
      fun y hy => ?_, fun y hy => ?_⟩
    · rw [← hget, List.getElem_cons_drop, List.take_append_drop]
    · obtain ⟨j, hj⟩ := List.mem_iff_getElem?.mp hy
      rw [List.getElem?_take] at hj
      by_cases hji : j < i
      · rw [if_pos hji] at hj
        exact hno j y hj (by omega)
      · rw [if_neg hji] at hj
        cases hj
    · obtain ⟨j, hj⟩ := List.mem_iff_getElem?.mp hy
      rw [List.getElem?_drop] at hj
      exact hno _ y hj (by omega)

/-- Two places in one list: the one comes before the other. -/
theorem split_two {pre' post' : List α} (h : pre ++ x :: post = pre' ++ y :: post')
    (hne : x ≠ y) : (∃ mid, pre = pre' ++ y :: mid ∧ post' = mid ++ x :: post) ∨
      ∃ mid, pre' = pre ++ x :: mid ∧ post = mid ++ y :: post' := by
  rcases List.append_eq_append_iff.mp h with ⟨mid, hpre, hpost⟩ | ⟨mid, hpre, hpost⟩
  · cases mid with
    | nil => exact absurd (List.cons.inj hpost).1 hne
    | cons z mid =>
      obtain ⟨rfl, -⟩ := List.cons.inj hpost
      exact .inr ⟨mid, hpre, (List.cons.inj hpost).2⟩
  · cases mid with
    | nil => exact absurd (List.cons.inj hpost).1.symm hne
    | cons z mid =>
      obtain ⟨rfl, -⟩ := List.cons.inj hpost
      exact .inl ⟨mid, hpre, (List.cons.inj hpost).2⟩

theorem set_length (pre post : List α) (x y : α) :
    (pre ++ x :: post).set pre.length y = pre ++ y :: post := by
  rw [List.set_append_right _ _ (Nat.le_refl _), Nat.sub_self, List.set_cons_zero]

theorem insertIdx_length (pre post : List α) (y : α) :
    (pre ++ post).insertIdx pre.length y = pre ++ y :: post := by
  induction pre with
  | nil => rfl
  | cons x pre ih => rw [List.cons_append, List.length_cons, List.insertIdx_succ_cons, ih]; rfl

/-! ### One element more -/

/-- The place of an element after another one is put at `n`. -/
def skip (n i : ℕ) : ℕ := if i < n then i else i + 1

section Skip

variable {n j : ℕ}

theorem skip_lt_skip : skip n i < skip n j ↔ i < j := by
  unfold skip
  split <;> split <;> omega

theorem skip_lt : skip n i < n ↔ i < n := by
  unfold skip
  split <;> omega

theorem skip_injective (h : skip n i = skip n j) : i = j := by
  unfold skip at h
  split at h <;> split at h <;> omega

/-- All other places are such. -/
theorem exists_skip (h : i ≠ n) : ∃ j, skip n j = i := by
  rcases Nat.lt_or_gt_of_ne h with hlt | hgt
  · exact ⟨i, if_pos hlt⟩
  · refine ⟨i - 1, ?_⟩
    rw [skip, if_neg (by omega)]
    omega

theorem getElem?_self : (pre ++ x :: post)[pre.length]? = some x := by
  rw [List.getElem?_append_right (Nat.le_refl _), Nat.sub_self, List.getElem?_cons_zero]

theorem getElem?_skip : (pre ++ x :: post)[skip pre.length i]? = (pre ++ post)[i]? := by
  rw [skip]
  split
  · rename_i hlt
    rw [List.getElem?_append_left hlt, List.getElem?_append_left hlt]
  · rename_i hge
    have hle : pre.length ≤ i := Nat.le_of_not_lt hge
    rw [List.getElem?_append_right (Nat.le_succ_of_le hle), Nat.succ_sub hle,
      List.getElem?_cons_succ, List.getElem?_append_right hle]

/-- Without the property, the new element is at none of the places. -/
theorem indexes_skip_iff (hx : p x = false) :
    indexes p (pre ++ x :: post) = [skip pre.length i] ↔ indexes p (pre ++ post) = [i] := by
  rw [indexes_eq_singleton_iff, indexes_eq_singleton_iff, getElem?_skip]
  refine and_congr_right fun _ => ⟨fun h j y hj hy => ?_, fun h j y hj hy => ?_⟩
  · exact skip_injective (h (skip pre.length j) y (by rw [getElem?_skip, hj]) hy)
  · have hne : j ≠ pre.length := by
      rintro rfl
      rw [getElem?_self] at hj
      rw [Option.some.inj hj, hy] at hx
      cases hx
    obtain ⟨j, rfl⟩ := exists_skip hne
    rw [h j y (by rw [← hj, getElem?_skip]) hy]

/-- What is after a place, with the new element and without it. -/
theorem forall_mem_drop_skip {P : α → Prop} :
    (∀ y ∈ (pre ++ x :: post).drop (skip pre.length i + 1), P y) ↔
      (∀ y ∈ (pre ++ post).drop (i + 1), P y) ∧ (i < pre.length → P x) := by
  rw [skip]
  split
  · rename_i hlt
    have hle : i + 1 ≤ pre.length := hlt
    rw [List.drop_append_of_le_length hle, List.drop_append_of_le_length hle]
    simp only [List.forall_mem_append, List.forall_mem_cons, hlt, true_imp_iff]
    exact ⟨fun h => ⟨⟨h.1, h.2.2⟩, h.2.1⟩, fun h => ⟨h.1.1, h.2, h.1.2⟩⟩
  · rename_i hge
    have hle : pre.length ≤ i + 1 := Nat.le_succ_of_le (Nat.le_of_not_lt hge)
    rw [List.drop_append, List.drop_append, List.drop_eq_nil_of_le hle,
      List.drop_eq_nil_of_le (Nat.le_succ_of_le hle), Nat.succ_sub hle, List.drop_succ_cons]
    exact ⟨fun h => ⟨h, fun hlt => absurd hlt hge⟩, fun h => h.1⟩

end Skip

end Collections
