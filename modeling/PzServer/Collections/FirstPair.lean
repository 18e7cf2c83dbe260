import Mathlib.Data.List.Chain

/-!
# The first two neighbours that are related

A loop that looks at two neighbours of a list at a time stops at the first pair that satisfies its
test. `FirstPair` says which pair that is, with what stands before it and after it.

## Main results

* `FirstPair.unique` — there is at most one
* `firstPair_cons` — one turn of the loop
* `firstPair_map` — the loop over the images of a list
-/

namespace Collections

variable {α β : Type} {P Q : α → α → Prop} {l before before' rest rest' : List α}
  {a b x y x' y' : α}

/-- `x` and `y` are the first neighbours with `P`; they stand between `before` and `rest`. -/
structure FirstPair (P : α → α → Prop) (l before : List α) (x y : α) (rest : List α) : Prop where
  eq : l = before ++ x :: y :: rest
  holds : P x y
  first : (before ++ [x]).IsChain fun a b => ¬ P a b

/-- One turn of the loop. -/
theorem firstPair_cons : FirstPair P (a :: b :: l) before x y rest ↔
    P a b ∧ before = [] ∧ x = a ∧ y = b ∧ rest = l ∨
    ¬ P a b ∧ ∃ before', before = a :: before' ∧ FirstPair P (b :: l) before' x y rest := by
  constructor
  · rintro ⟨heq, hholds, hfirst⟩
    cases before with
    | nil =>
      obtain ⟨rfl, htail⟩ := List.cons_eq_cons.mp heq
      obtain ⟨rfl, rfl⟩ := List.cons_eq_cons.mp htail
      exact .inl ⟨hholds, rfl, rfl, rfl, rfl⟩
    | cons c before =>
      obtain ⟨rfl, htail⟩ := List.cons_eq_cons.mp heq
      have hnot : ¬ P a b := by
        cases before with
        | nil =>
          obtain ⟨rfl, -⟩ := List.cons_eq_cons.mp htail
          exact (List.isChain_cons_cons.mp hfirst).1
        | cons c before =>
          obtain ⟨rfl, -⟩ := List.cons_eq_cons.mp htail
          exact (List.isChain_cons_cons.mp hfirst).1
      exact .inr ⟨hnot, before, rfl, htail, hholds, hfirst.tail⟩
  · rintro (⟨h, rfl, rfl, rfl, rfl⟩ | ⟨hnot, before, rfl, heq, hholds, hfirst⟩)
    · exact ⟨rfl, h, List.isChain_singleton _⟩
    · refine ⟨congrArg (a :: ·) heq, hholds, ?_⟩
      cases before with
      | nil =>
        obtain ⟨rfl, -⟩ := List.cons_eq_cons.mp heq
        exact List.isChain_cons_cons.mpr ⟨hnot, hfirst⟩
      | cons c before =>
        obtain ⟨rfl, -⟩ := List.cons_eq_cons.mp heq
        exact List.isChain_cons_cons.mpr ⟨hnot, hfirst⟩

theorem not_firstPair_nil : ¬ FirstPair P [] before x y rest := by
  rintro ⟨heq, -, -⟩
  cases before <;> cases heq

theorem not_firstPair_singleton : ¬ FirstPair P [a] before x y rest := by
  rintro ⟨heq, -, -⟩
  rcases before with _ | ⟨c, _ | ⟨d, before⟩⟩ <;> cases heq

/-- A list has at most one first pair. -/
theorem FirstPair.unique (h : FirstPair P l before x y rest)
    (h' : FirstPair P l before' x' y' rest') :
    before = before' ∧ x = x' ∧ y = y' ∧ rest = rest' := by
  induction l generalizing before before' with
  | nil => exact absurd h not_firstPair_nil
  | cons a l ih =>
    cases l with
    | nil => exact absurd h not_firstPair_singleton
    | cons b l =>
      rcases firstPair_cons.mp h with ⟨hP, rfl, rfl, rfl, rfl⟩ | ⟨hnot, t, rfl, htail⟩
      · rcases firstPair_cons.mp h' with ⟨-, rfl, rfl, rfl, rfl⟩ | ⟨hnot, -⟩
        · exact ⟨rfl, rfl, rfl, rfl⟩
        · exact absurd hP hnot
      · rcases firstPair_cons.mp h' with ⟨hP, -⟩ | ⟨-, t', rfl, htail'⟩
        · exact absurd hP hnot
        · obtain ⟨rfl, hrest⟩ := ih htail htail'
          exact ⟨rfl, hrest⟩

/-- The first pair with a weaker relation is the first with a stronger one, if it has that. -/
theorem FirstPair.strengthen (h : FirstPair Q l before x y rest) (hPQ : ∀ a b, P a b → Q a b)
    (hP : P x y) : FirstPair P l before x y rest :=
  ⟨h.eq, hP, h.first.imp fun a b hno hyes => hno (hPQ a b hyes)⟩

/-- The loop over the images of a list. -/
theorem firstPair_map {f : β → α} {l : List β} : FirstPair P (l.map f) before x y rest ↔
    ∃ before' x' y' rest', FirstPair (fun a b => P (f a) (f b)) l before' x' y' rest' ∧
      before = before'.map f ∧ x = f x' ∧ y = f y' ∧ rest = rest'.map f := by
  constructor
  · rintro ⟨heq, hholds, hfirst⟩
    obtain ⟨before', l₁, rfl, rfl, h₁⟩ := List.map_eq_append_iff.mp heq
    obtain ⟨x', l₂, rfl, rfl, h₂⟩ := List.map_eq_cons_iff.mp h₁
    obtain ⟨y', rest', rfl, rfl, rfl⟩ := List.map_eq_cons_iff.mp h₂
    refine ⟨before', x', y', rest', ⟨rfl, hholds, ?_⟩, rfl, rfl, rfl, rfl⟩
    have hmap : before'.map f ++ [f x'] = (before' ++ [x']).map f := by simp
    rw [hmap] at hfirst
    exact (List.isChain_map f).mp hfirst
  · rintro ⟨before', x', y', rest', ⟨rfl, hholds, hfirst⟩, rfl, rfl, rfl, rfl⟩
    refine ⟨by simp, hholds, ?_⟩
    have hmap : before'.map f ++ [f x'] = (before' ++ [x']).map f := by simp
    rw [hmap]
    exact (List.isChain_map f).mpr hfirst

end Collections
