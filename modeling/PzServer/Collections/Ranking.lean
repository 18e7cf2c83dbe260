import Mathlib.Data.List.Sort

/-!
# Where an element lands in a stable sort

Sorting by a key with the largest first, elements of equal key keeping their order, and keeping
the first `n` of the result: whether an element is kept depends only on how many others *outrank*
it, that is, have a larger key, or the same key and an earlier place.

## Main results

* `Collections.descending_eq_append` — an element splits the sorted list into those that outrank
  it and those that it outranks
* `Collections.mem_take_descending` — it is among the first `n` iff fewer than `n` outrank it
-/

namespace Collections

variable {α κ : Type} [LinearOrder κ]

/-- Sort by `key`, the largest first; `sorted(xs, key=key, reverse=True)`, which keeps the order
of elements with equal keys. -/
def descending (key : α → κ) (xs : List α) : List α :=
  xs.insertionSort fun x y => key y ≤ key x

section Order

variable {key : α → κ} {xs : List α}

theorem descending_perm : (descending key xs).Perm xs := List.perm_insertionSort _ _

@[simp] theorem length_descending : (descending key xs).length = xs.length :=
  List.length_insertionSort _ _

@[simp] theorem mem_descending {x : α} : x ∈ descending key xs ↔ x ∈ xs :=
  List.mem_insertionSort _

theorem pairwise_descending : (descending key xs).Pairwise fun x y => key y ≤ key x := by
  have : Std.Total fun x y : α => key y ≤ key x := ⟨fun x y => le_total (key y) (key x)⟩
  have : IsTrans α fun x y => key y ≤ key x := ⟨fun _ _ _ hxy hyz => hyz.trans hxy⟩
  exact List.pairwise_insertionSort _ xs

/-- Two elements that are in order stay in order. -/
theorem pair_sublist_descending {x y : α} (hkey : key y ≤ key x) (h : [x, y].Sublist xs) :
    [x, y].Sublist (descending key xs) := by
  have : Std.Total fun x y : α => key y ≤ key x := ⟨fun x y => le_total (key y) (key x)⟩
  have : IsTrans α fun x y => key y ≤ key x := ⟨fun _ _ _ hxy hyz => hyz.trans hxy⟩
  exact List.pair_sublist_insertionSort hkey h

/-- Sorting elements that carry their keys. -/
theorem descending_map_key (key : α → κ) (xs : List α) :
    descending Prod.fst (xs.map fun x => (key x, x)) =
      (descending key xs).map fun x => (key x, x) :=
  (List.map_insertionSort (fun x y => key y ≤ key x) (fun x y : κ × α => y.1 ≤ x.1)
    (fun x => (key x, x)) xs fun _ _ _ _ => Iff.rfl).symm

end Order

/-! ### Rank -/

section Rank

variable [DecidableEq α]

/-- `y` comes before `x` in the sorted list: its key is larger, or the same with an earlier
place. -/
def Outranks (key : α → κ) (xs : List α) (x y : α) : Prop :=
  key x < key y ∨ key y = key x ∧ xs.idxOf y < xs.idxOf x

instance (key : α → κ) (xs : List α) (x y : α) : Decidable (Outranks key xs x y) :=
  inferInstanceAs (Decidable (_ ∨ _ ∧ _))

variable {key : α → κ} {xs : List α} {x y : α}

theorem not_outranks_self : ¬ Outranks key xs x x := by
  rintro (h | ⟨-, h⟩)
  · exact lt_irrefl _ h
  · exact lt_irrefl _ h

/-- An earlier place, said with sublists. -/
theorem pair_sublist_of_idxOf_lt (hy : y ∈ xs) (h : xs.idxOf x < xs.idxOf y) :
    [x, y].Sublist xs := by
  induction xs with
  | nil => cases hy
  | cons z zs ih =>
    by_cases hzx : z = x
    · subst hzx
      have hne : y ≠ z := by
        rintro rfl
        exact lt_irrefl _ h
      exact (List.singleton_sublist.mpr ((List.mem_cons.mp hy).resolve_left hne)).cons_cons z
    · have hzy : z ≠ y := by
        rintro rfl
        rw [List.idxOf_cons_self] at h
        exact absurd h (Nat.not_lt_zero _)
      rw [List.idxOf_cons_ne _ hzx, List.idxOf_cons_ne _ hzy] at h
      have hy' : y ∈ zs := (List.mem_cons.mp hy).resolve_left (Ne.symm hzy)
      exact (ih hy' (Nat.lt_of_succ_lt_succ h)).cons z

theorem idxOf_lt_of_pair_sublist (hnodup : xs.Nodup) (h : [x, y].Sublist xs) :
    xs.idxOf x < xs.idxOf y := by
  induction xs with
  | nil => cases h
  | cons z zs ih =>
    obtain ⟨hz, hzs⟩ := List.nodup_cons.mp hnodup
    cases h with
    | cons _ h =>
      have hx : z ≠ x := fun heq => hz (heq ▸ h.subset List.mem_cons_self)
      have hy : z ≠ y := fun heq => hz (heq ▸ h.subset (List.mem_cons_of_mem _ List.mem_cons_self))
      rw [List.idxOf_cons_ne _ hx, List.idxOf_cons_ne _ hy]
      exact Nat.succ_lt_succ (ih hzs h)
    | cons_cons _ h =>
      have hy : x ≠ y := fun heq => hz (heq ▸ List.singleton_sublist.mp h)
      rw [List.idxOf_cons_self, List.idxOf_cons_ne _ hy]
      exact Nat.succ_pos _

/-- Of two different elements one outranks the other. -/
theorem outranks_or (hx : x ∈ xs) (hne : x ≠ y) :
    Outranks key xs x y ∨ Outranks key xs y x := by
  rcases lt_trichotomy (key x) (key y) with hlt | heq | hgt
  · exact .inl (.inl hlt)
  · rcases lt_trichotomy (xs.idxOf y) (xs.idxOf x) with hlt | hidx | hgt
    · exact .inl (.inr ⟨heq.symm, hlt⟩)
    · exact absurd ((List.idxOf_inj hx).mp hidx.symm) hne
    · exact .inr (.inr ⟨heq, hgt⟩)
  · exact .inr (.inl hgt)

/-- What outranks an element stands before it in the sorted list. -/
theorem idxOf_lt_of_outranks (hnodup : xs.Nodup) (hx : x ∈ xs) (hy : y ∈ xs)
    (h : Outranks key xs x y) : (descending key xs).idxOf y < (descending key xs).idxOf x := by
  have hsorted : (descending key xs).Nodup := descending_perm.nodup_iff.mpr hnodup
  rcases h with hlt | ⟨hkey, hidx⟩
  · by_contra hle
    have hne : (descending key xs).idxOf x ≠ (descending key xs).idxOf y := by
      intro heq
      have hxy : x = y := (List.idxOf_inj (mem_descending.mpr hx)).mp heq
      exact (hxy ▸ hlt).false
    have hsub : [x, y].Sublist (descending key xs) :=
      pair_sublist_of_idxOf_lt (mem_descending.mpr hy) (lt_of_le_of_ne (not_lt.mp hle) hne)
    have hpair : [x, y].Pairwise fun x y => key y ≤ key x := pairwise_descending.sublist hsub
    have hkey : key y ≤ key x := by simpa using hpair
    exact absurd hlt (not_lt.mpr hkey)
  · exact idxOf_lt_of_pair_sublist hsorted
      (pair_sublist_descending hkey.ge (pair_sublist_of_idxOf_lt hx hidx))

/-- **An element splits the sorted list**: those that outrank it come first. -/
theorem descending_eq_append (hnodup : xs.Nodup) (hx : x ∈ xs) :
    ∃ above below, descending key xs = above ++ x :: below ∧ x ∉ above ∧
      (∀ y ∈ above, Outranks key xs x y) ∧ ∀ y ∈ below, ¬ Outranks key xs x y := by
  have hsorted : (descending key xs).Nodup := descending_perm.nodup_iff.mpr hnodup
  have hx' : x ∈ descending key xs := mem_descending.mpr hx
  obtain ⟨above, below, hsplit⟩ := List.append_of_mem hx'
  have hmem : ∀ y ∈ above ++ x :: below, y ∈ xs := fun y hy => mem_descending.mp (hsplit ▸ hy)
  have hnot : x ∉ above := fun habove =>
    (List.nodup_append.mp (hsplit ▸ hsorted)).2.2 x habove x List.mem_cons_self rfl
  refine ⟨above, below, hsplit, hnot, fun y hy => ?_, fun y hy hout => ?_⟩
  · have hyx : [y, x].Sublist (descending key xs) := hsplit ▸
      (List.singleton_sublist.mpr hy).append (List.singleton_sublist.mpr List.mem_cons_self)
    have hy' := hmem y (List.mem_append_left _ hy)
    have hne : x ≠ y := fun heq => hnot (heq ▸ hy)
    refine (outranks_or hx hne).resolve_right fun hout => ?_
    exact (idxOf_lt_of_outranks hnodup hy' hx hout).asymm (idxOf_lt_of_pair_sublist hsorted hyx)
  · have hxy : [x, y].Sublist (descending key xs) := hsplit ▸
      ((List.singleton_sublist.mpr hy).cons_cons x).trans (List.sublist_append_right _ _)
    have hy' := hmem y (List.mem_append_right _ (List.mem_cons_of_mem _ hy))
    exact (idxOf_lt_of_outranks hnodup hx hy' hout).asymm (idxOf_lt_of_pair_sublist hsorted hxy)

/-- **Who is kept.** An element is among the first `n` of the sorted list if and only if fewer than
`n` elements outrank it. -/
theorem mem_take_descending (hnodup : xs.Nodup) (hx : x ∈ xs) (n : ℕ) :
    x ∈ (descending key xs).take n ↔ (xs.filter fun y => Outranks key xs x y).length < n := by
  obtain ⟨above, below, hsplit, hnot, habove, hbelow⟩ : ∃ above below,
      descending key xs = above ++ x :: below ∧ x ∉ above ∧
        (∀ y ∈ above, Outranks key xs x y) ∧ ∀ y ∈ below, ¬ Outranks key xs x y :=
    descending_eq_append hnodup hx
  have hcount : (xs.filter fun y => Outranks key xs x y).length = above.length := by
    have hsorted : (descending key xs).Perm xs := descending_perm
    have hperm := hsorted.symm.filter fun y => decide (Outranks key xs x y)
    rw [hperm.length_eq, hsplit, List.filter_append, List.filter_cons_of_neg
      (by simpa using not_outranks_self), List.filter_eq_self.mpr (by simpa using habove),
      List.filter_eq_nil_iff.mpr (by simpa using hbelow), List.append_nil]
  rw [hcount, hsplit, List.take_append]
  constructor
  · intro hmem
    by_contra hle
    rw [not_lt] at hle
    rw [Nat.sub_eq_zero_of_le hle, List.take_zero, List.append_nil] at hmem
    exact hnot (List.mem_of_mem_take hmem)
  · intro hlt
    obtain ⟨k, hk⟩ := Nat.exists_eq_succ_of_ne_zero (Nat.sub_ne_zero_of_lt hlt)
    rw [hk, List.take_succ_cons]
    exact List.mem_append_right _ List.mem_cons_self

end Rank

end Collections
