import Mathlib.Data.List.Nodup

/-!
# Overlaying a list

Some elements of a list have a key. Overlaying the list puts one given element in the place of the
first element of each key, and drops the later ones; elements without a key stay where they are.
The keys that were met before are passed along, so that a list can be overlaid in parts.

## Main results

* `Collections.overlay_append` — a list is overlaid from left to right
* `Collections.filter_overlay_none`, `Collections.filter_overlay_some` — what is left of the
  elements without a key, and of those with a given one
* `Collections.overlay_eq_self` — a list that is overlaid already stays as it is
-/

namespace Collections

variable {α κ : Type} [DecidableEq κ]

/-- Overlay a list, given the keys that were `seen` before. -/
def overlay (key : α → Option κ) (put : κ → α) : List κ → List α → List α
  | _, [] => []
  | seen, x :: xs => match key x with
    | none => x :: overlay key put seen xs
    | some k =>
      if k ∈ seen then overlay key put seen xs else put k :: overlay key put (k :: seen) xs

variable {key : α → Option κ} {put : κ → α} {seen seen' : List κ} {x : α} {xs ys : List α} {k : κ}

@[simp] theorem overlay_nil : overlay key put seen [] = [] := rfl

theorem overlay_cons_none (h : key x = none) :
    overlay key put seen (x :: xs) = x :: overlay key put seen xs := by rw [overlay, h]

theorem overlay_cons_seen (h : key x = some k) (hk : k ∈ seen) :
    overlay key put seen (x :: xs) = overlay key put seen xs := by
  rw [overlay, h]
  exact if_pos hk

theorem overlay_cons_new (h : key x = some k) (hk : k ∉ seen) :
    overlay key put seen (x :: xs) = put k :: overlay key put (k :: seen) xs := by
  rw [overlay, h]
  exact if_neg hk

/-- Only which keys were seen matters. -/
theorem overlay_congr (h : ∀ k, k ∈ seen ↔ k ∈ seen') :
    overlay key put seen xs = overlay key put seen' xs := by
  induction xs generalizing seen seen' with
  | nil => rfl
  | cons x xs ih =>
    cases hx : key x with
    | none => rw [overlay_cons_none hx, overlay_cons_none hx, ih h]
    | some k =>
      by_cases hk : k ∈ seen
      · rw [overlay_cons_seen hx hk, overlay_cons_seen hx ((h k).mp hk), ih h]
      · rw [overlay_cons_new hx hk, overlay_cons_new hx fun hk' => hk ((h k).mpr hk')]
        refine congrArg _ (ih fun k' => ?_)
        rw [List.mem_cons, List.mem_cons, h k']

/-- **A list is overlaid from left to right.** -/
theorem overlay_append :
    overlay key put seen (xs ++ ys) =
      overlay key put seen xs ++ overlay key put (xs.filterMap key ++ seen) ys := by
  induction xs generalizing seen with
  | nil => rfl
  | cons x xs ih =>
    rw [List.cons_append]
    cases hx : key x with
    | none =>
      rw [overlay_cons_none hx, overlay_cons_none hx, ih, List.filterMap_cons_none hx,
        List.cons_append]
    | some k =>
      rw [List.filterMap_cons_some hx]
      by_cases hk : k ∈ seen
      · rw [overlay_cons_seen hx hk, overlay_cons_seen hx hk, ih]
        refine congrArg _ (overlay_congr fun k' => ?_)
        simp only [List.mem_append, List.mem_cons, List.cons_append]
        constructor
        · exact .inr
        · rintro (rfl | h)
          · exact .inr hk
          · exact h
      · rw [overlay_cons_new hx hk, overlay_cons_new hx hk, ih, List.cons_append]
        refine congrArg _ (congrArg _ (overlay_congr fun k' => ?_))
        simp only [List.mem_append, List.mem_cons, List.cons_append]
        exact or_left_comm

/-- What is left was there, or was put there. -/
theorem mem_overlay (h : x ∈ overlay key put seen xs) :
    x ∈ xs ∨ ∃ k ∈ xs.filterMap key, x = put k := by
  induction xs generalizing seen with
  | nil => cases h
  | cons y ys ih =>
    have htail : x ∈ ys ∨ (∃ k ∈ ys.filterMap key, x = put k) →
        x ∈ y :: ys ∨ ∃ k ∈ (y :: ys).filterMap key, x = put k := by
      rintro (hx | ⟨k, hk, rfl⟩)
      · exact .inl (List.mem_cons_of_mem _ hx)
      · refine .inr ⟨k, ?_, rfl⟩
        rw [List.mem_filterMap] at hk ⊢
        obtain ⟨z, hz, hkey⟩ := hk
        exact ⟨z, List.mem_cons_of_mem _ hz, hkey⟩
    cases hy : key y with
    | none =>
      rw [overlay_cons_none hy] at h
      rcases List.mem_cons.mp h with rfl | h
      · exact .inl List.mem_cons_self
      · exact htail (ih h)
    | some k =>
      by_cases hk : k ∈ seen
      · rw [overlay_cons_seen hy hk] at h
        exact htail (ih h)
      · rw [overlay_cons_new hy hk] at h
        rcases List.mem_cons.mp h with rfl | h
        · exact .inr ⟨k, by rw [List.filterMap_cons_some hy]; exact List.mem_cons_self, rfl⟩
        · exact htail (ih h)

omit [DecidableEq κ] in
private theorem put_tail
    (hput : ∀ k, k ∈ (x :: xs).filterMap key → key (put k) = some k) :
    ∀ k, k ∈ xs.filterMap key → key (put k) = some k := by
  intro k hk
  refine hput k ?_
  rw [List.mem_filterMap] at hk ⊢
  obtain ⟨y, hy, hkey⟩ := hk
  exact ⟨y, List.mem_cons_of_mem _ hy, hkey⟩

section Filters

variable (hput : ∀ k, k ∈ xs.filterMap key → key (put k) = some k)
include hput

/-- **Elements without a key stay**, in their order. -/
theorem filter_overlay_none :
    (overlay key put seen xs).filter (fun x => (key x).isNone) =
      xs.filter fun x => (key x).isNone := by
  induction xs generalizing seen with
  | nil => rfl
  | cons x xs ih =>
    have htail := put_tail hput
    cases hx : key x with
    | none =>
      rw [overlay_cons_none hx, List.filter_cons_of_pos (by rw [hx]; rfl),
        List.filter_cons_of_pos (by rw [hx]; rfl), ih htail]
    | some k =>
      rw [List.filter_cons_of_neg (by rw [hx]; nofun)]
      by_cases hk : k ∈ seen
      · rw [overlay_cons_seen hx hk, ih htail]
      · have hkey : key (put k) = some k := hput k (by rw [List.filterMap_cons_some hx]; simp)
        rw [overlay_cons_new hx hk, List.filter_cons_of_neg (by rw [hkey]; nofun), ih htail]

/-- **Of the elements with a key one is left**, unless the key was seen before. -/
theorem filter_overlay_some (k : κ) :
    (overlay key put seen xs).filter (fun x => decide (key x = some k)) =
      if k ∈ xs.filterMap key ∧ k ∉ seen then [put k] else [] := by
  induction xs generalizing seen with
  | nil => simp
  | cons x xs ih =>
    have htail := put_tail hput
    cases hx : key x with
    | none =>
      rw [overlay_cons_none hx, List.filter_cons_of_neg (by rw [hx]; simp), ih htail,
        List.filterMap_cons_none hx]
    | some k' =>
      rw [List.filterMap_cons_some hx]
      have hkey : key (put k') = some k' := hput k' (by rw [List.filterMap_cons_some hx]; simp)
      by_cases hk' : k' ∈ seen
      · rw [overlay_cons_seen hx hk', ih htail]
        refine if_congr ?_ rfl rfl
        constructor
        · exact fun h => ⟨List.mem_cons_of_mem _ h.1, h.2⟩
        · rintro ⟨h, hk⟩
          refine ⟨(List.mem_cons.mp h).resolve_left ?_, hk⟩
          rintro rfl
          exact hk hk'
      · rw [overlay_cons_new hx hk']
        by_cases hkk : k = k'
        · subst hkk
          rw [List.filter_cons_of_pos (by simpa using hkey), ih htail, if_neg (by simp),
            if_pos ⟨List.mem_cons_self, hk'⟩]
        · rw [List.filter_cons_of_neg (by rw [hkey]; simpa using Ne.symm hkk), ih htail]
          simp [hkk]

/-- The keys that are left: those that were there and not seen before. -/
theorem mem_filterMap_overlay :
    k ∈ (overlay key put seen xs).filterMap key ↔ k ∈ xs.filterMap key ∧ k ∉ seen := by
  constructor
  · intro hmem
    obtain ⟨x, hx, hkey⟩ := List.mem_filterMap.mp hmem
    have hx' : x ∈ (overlay key put seen xs).filter fun x => decide (key x = some k) :=
      List.mem_filter.mpr ⟨hx, by simpa using hkey⟩
    rw [filter_overlay_some hput] at hx'
    split at hx'
    · assumption
    · cases hx'
  · intro h
    have hk : put k ∈ (overlay key put seen xs).filter fun x => decide (key x = some k) := by
      rw [filter_overlay_some hput, if_pos h]
      exact List.mem_singleton_self _
    obtain ⟨hmem, hkey⟩ := List.mem_filter.mp hk
    exact List.mem_filterMap.mpr ⟨put k, hmem, by simpa using hkey⟩

/-- Each of them once. -/
theorem nodup_filterMap_overlay : ((overlay key put seen xs).filterMap key).Nodup := by
  induction xs generalizing seen with
  | nil => exact List.nodup_nil
  | cons x xs ih =>
    have htail := put_tail hput
    cases hx : key x with
    | none =>
      rw [overlay_cons_none hx, List.filterMap_cons_none hx]
      exact ih htail
    | some k =>
      have hkey : key (put k) = some k := hput k (by rw [List.filterMap_cons_some hx]; simp)
      by_cases hk : k ∈ seen
      · rw [overlay_cons_seen hx hk]
        exact ih htail
      · rw [overlay_cons_new hx hk, List.filterMap_cons_some hkey, List.nodup_cons]
        refine ⟨fun hmem => ?_, ih htail⟩
        exact ((mem_filterMap_overlay htail).mp hmem).2 List.mem_cons_self

/-- What is left with a key was put there. -/
theorem eq_put_of_mem_overlay (hx : x ∈ overlay key put seen xs) (hkey : key x = some k) :
    x = put k := by
  have hmem : x ∈ (overlay key put seen xs).filter fun x => decide (key x = some k) :=
    List.mem_filter.mpr ⟨hx, by simpa using hkey⟩
  rw [filter_overlay_some hput] at hmem
  split at hmem
  · exact List.mem_singleton.mp hmem
  · cases hmem

end Filters

/-- **A list that is overlaid already stays as it is.** -/
theorem overlay_eq_self (hnodup : (xs.filterMap key).Nodup)
    (hseen : ∀ k ∈ xs.filterMap key, k ∉ seen)
    (hput : ∀ x ∈ xs, ∀ k, key x = some k → x = put k) : overlay key put seen xs = xs := by
  induction xs generalizing seen with
  | nil => rfl
  | cons x xs ih =>
    have htail : ∀ y ∈ xs, ∀ k, key y = some k → y = put k :=
      fun y hy => hput y (List.mem_cons_of_mem _ hy)
    cases hx : key x with
    | none =>
      rw [List.filterMap_cons_none hx] at hnodup hseen
      rw [overlay_cons_none hx, ih hnodup hseen htail]
    | some k =>
      rw [List.filterMap_cons_some hx] at hnodup hseen
      obtain ⟨hk, hnodup⟩ := List.nodup_cons.mp hnodup
      rw [overlay_cons_new hx (hseen k List.mem_cons_self), ← hput x List.mem_cons_self k hx,
        ih hnodup _ htail]
      intro k' hk' hmem
      rcases List.mem_cons.mp hmem with rfl | hmem
      · exact hk hk'
      · exact hseen k' (List.mem_cons_of_mem _ hk') hmem

end Collections
