import Mathlib.Data.Nat.Find

/-!
# The first step since the last reset

A monitor that waits for something to last remembers when it began, and forgets it at every reset.
`FirstSince P R s i` says which step that is without the monitor: `s` is the first step before `i`
at which `P` held after the last step at which `R` did. `firstSince_succ` is how the step changes
when time advances, so a monitor is shown to compute it by one induction.

## Main results

* `FirstSince.unique` — there is at most one such step
* `firstSince_succ` — how it advances
-/

namespace Interaction

variable {P R : ℕ → Prop} {s s' i : ℕ}

/-- `s` is the first step with `P` after the last step with `R` before `i`. -/
structure FirstSince (P R : ℕ → Prop) (s i : ℕ) : Prop where
  lt : s < i
  holds : P s
  /-- No reset since. -/
  lasting : ∀ j, s ≤ j → j < i → ¬ R j
  /-- Every earlier step with `P` was undone by a reset before `s`. -/
  first : ∀ j, j < s → P j → ∃ r, j ≤ r ∧ r < s ∧ R r

namespace FirstSince

theorem le_of (h : FirstSince P R s i) (h' : FirstSince P R s' i) : s' ≤ s := by
  by_contra hlt
  obtain ⟨r, hle, hlt', hr⟩ := h'.first s (by omega) h.holds
  exact h.lasting r hle (Nat.lt_trans hlt' h'.lt) hr

theorem unique (h : FirstSince P R s i) (h' : FirstSince P R s' i) : s = s' :=
  Nat.le_antisymm (h'.le_of h) (h.le_of h')

end FirstSince

/-- A step with `P` that no reset undid comes at or after the first one. -/
theorem exists_firstSince {j : ℕ} (hj : j < i) (hP : P j)
    (hR : ∀ k, j ≤ k → k < i → ¬ R k) : ∃ s, FirstSince P R s i := by
  classical
  have hex : ∃ j, j < i ∧ P j ∧ ∀ k, j ≤ k → k < i → ¬ R k := ⟨j, hj, hP, hR⟩
  obtain ⟨hlt, hholds, hlasting⟩ := Nat.find_spec hex
  refine ⟨Nat.find hex, hlt, hholds, hlasting, fun k hk hPk => ?_⟩
  have hnot := Nat.find_min hex hk
  simp only [not_and, not_forall, not_not] at hnot
  obtain ⟨r, hle, hri, hr⟩ := hnot (Nat.lt_trans hk hlt) hPk
  refine ⟨r, hle, ?_, hr⟩
  by_contra hge
  exact hlasting r (by omega) hri hr

/-- **How the first step advances.** It stays until a reset, and where there is none the present
step becomes it. -/
theorem firstSince_succ :
    FirstSince P R s (i + 1) ↔
      ¬ R i ∧ (FirstSince P R s i ∨ s = i ∧ P i ∧ ∀ s', ¬ FirstSince P R s' i) := by
  constructor
  · intro h
    have hR := h.lasting i (Nat.le_of_lt_succ h.lt) (Nat.lt_succ_self i)
    refine ⟨hR, ?_⟩
    rcases Nat.lt_succ_iff_lt_or_eq.mp h.lt with hlt | rfl
    · exact .inl ⟨hlt, h.holds, fun j hj hji => h.lasting j hj (by omega), h.first⟩
    · refine .inr ⟨rfl, h.holds, fun s' h' => ?_⟩
      obtain ⟨r, hle, hlt, hr⟩ := h.first s' h'.lt h'.holds
      exact h'.lasting r hle hlt hr
  · rintro ⟨hR, h | ⟨rfl, hP, hnone⟩⟩
    · refine ⟨by have := h.lt; omega, h.holds, fun j hj hji => ?_, h.first⟩
      rcases Nat.lt_succ_iff_lt_or_eq.mp hji with hlt | rfl
      · exact h.lasting j hj hlt
      · exact hR
    · refine ⟨Nat.lt_succ_self s, hP, fun j hj hji => ?_, fun j hj hPj => ?_⟩
      · obtain rfl : j = s := by omega
        exact hR
      · by_contra hno
        simp only [not_exists, not_and] at hno
        obtain ⟨s', h'⟩ := exists_firstSince hj hPj hno
        exact hnone s' h'

end Interaction
