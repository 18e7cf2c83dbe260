import Mathlib.Data.List.Sort
import Mathlib.Order.Lattice.Nat
import PzServer.Json.RoundTrip

/-!
# `json.dumps(…, sort_keys=True)`

The printer can sort the entries of every dictionary by their keys, as Python compares strings: by
code points. The text is then that of another dictionary, with the same value under every key, and
two dictionaries that differ only in their order have one text.

## Main definitions

* `Data.sorted` — the data that is printed
* `setItems` — entering items one after the other

## Main results

* `getItem_sortEntries`, `Data.Kept.sorted`, `Data.Kept.depth_sorted` — what sorting does not change
* `sortEntries_eq` — dictionaries with the same items have one text
* `getItem_setItems` — of the items with one key, the last counts
-/

namespace Json

/-! ### Sorting -/

/-- The order of the entries: by their keys. -/
def KeyLe (a b : List ℕ × Data) : Prop := a.1 ≤ b.1

instance : DecidableRel KeyLe := fun a b => inferInstanceAs (Decidable (a.1 ≤ b.1))

instance : Std.Total KeyLe := ⟨fun a b => le_total a.1 b.1⟩

instance : IsTrans (List ℕ × Data) KeyLe :=
  ⟨fun a b c (hab : a.1 ≤ b.1) (hbc : b.1 ≤ c.1) => (hab.trans hbc : a.1 ≤ c.1)⟩

mutual

/-- What is printed: `sorted(dct.items())` for every dictionary. -/
def Data.sorted : Data → Data
  | .list items => .list (sortItems items)
  | .dict entries => .dict ((sortValues entries).insertionSort KeyLe)
  | data => data

def sortItems : List Data → List Data
  | [] => []
  | item :: items => item.sorted :: sortItems items

def sortValues : List (List ℕ × Data) → List (List ℕ × Data)
  | [] => []
  | (key, value) :: entries => (key, value.sorted) :: sortValues entries

end

/-- The entries of a dictionary as they are printed. -/
def sortEntries (entries : List (List ℕ × Data)) : List (List ℕ × Data) :=
  (sortValues entries).insertionSort KeyLe

theorem sorted_dict (entries : List (List ℕ × Data)) :
    (Data.dict entries).sorted = .dict (sortEntries entries) := by
  rw [Data.sorted, sortEntries]

variable {limits : Limits} {depth n : ℕ} {data : Data} {items : List Data}
  {entries entries' : List (List ℕ × Data)} {entry : List ℕ × Data} {key : List ℕ}

theorem sortItems_eq (items : List Data) : sortItems items = items.map Data.sorted := by
  induction items with
  | nil => rw [sortItems, List.map_nil]
  | cons item items ih => rw [sortItems, ih, List.map_cons]

theorem sortValues_eq (entries : List (List ℕ × Data)) :
    sortValues entries = entries.map fun entry => (entry.1, entry.2.sorted) := by
  induction entries with
  | nil => rw [sortValues, List.map_nil]
  | cons entry entries ih => rw [sortValues, ih, List.map_cons]

theorem sortEntries_perm (entries : List (List ℕ × Data)) :
    (sortEntries entries).Perm (entries.map fun entry => (entry.1, entry.2.sorted)) := by
  rw [sortEntries, sortValues_eq]
  exact List.perm_insertionSort KeyLe _

theorem mem_sortEntries :
    entry ∈ sortEntries entries ↔ ∃ old ∈ entries, (old.1, old.2.sorted) = entry := by
  rw [(sortEntries_perm entries).mem_iff, List.mem_map]

theorem nodup_sortEntries :
    ((sortEntries entries).map Prod.fst).Nodup ↔ (entries.map Prod.fst).Nodup := by
  rw [((sortEntries_perm entries).map Prod.fst).nodup_iff, List.map_map]
  rfl

/-! ### The values of the keys -/

section Items

variable {α β : Type} {dict : List (List ℕ × α)} {value : α}

theorem getItem_eq_some (h : (dict.map Prod.fst).Nodup) :
    getItem dict key = some value ↔ (key, value) ∈ dict := by
  induction dict with
  | nil => exact iff_of_false nofun List.not_mem_nil
  | cons first dict ih =>
    obtain ⟨k, v⟩ := first
    obtain ⟨hnew, hdict⟩ := List.nodup_cons.mp h
    rw [getItem, List.find?_cons, List.mem_cons, Prod.mk.injEq]
    by_cases hk : k = key
    · subst hk
      rw [decide_eq_true rfl]
      have hrest : (k, value) ∉ dict := fun hmem => hnew (List.mem_map.mpr ⟨_, hmem, rfl⟩)
      change some v = some value ↔ _
      rw [or_iff_left hrest, Option.some.injEq, and_iff_right rfl, eq_comm]
    · rw [decide_eq_false hk]
      refine (ih hdict).trans (or_iff_right ?_).symm
      rintro ⟨rfl, -⟩
      exact hk rfl

theorem getItem_map (f : α → β) :
    getItem (dict.map fun entry => (entry.1, f entry.2)) key = (getItem dict key).map f := by
  induction dict with
  | nil => rfl
  | cons first dict ih =>
    rw [getItem] at ih ⊢
    rw [getItem, List.map_cons, List.find?_cons, List.find?_cons]
    by_cases hk : first.1 = key
    · rw [decide_eq_true hk]
      rfl
    · rw [decide_eq_false hk]
      exact ih

theorem getItem_perm {dict' : List (List ℕ × α)} (hperm : dict.Perm dict')
    (h : (dict.map Prod.fst).Nodup) : getItem dict key = getItem dict' key := by
  refine Option.ext fun value => ?_
  rw [getItem_eq_some h, getItem_eq_some ((hperm.map Prod.fst).nodup_iff.mp h), hperm.mem_iff]

/-- Entering items, one after the other. -/
def setItems (dict items : List (List ℕ × α)) : List (List ℕ × α) :=
  items.foldl (fun dict item => setItem dict item.1 item.2) dict

theorem setItems_append (dict items items' : List (List ℕ × α)) :
    setItems dict (items ++ items') = setItems (setItems dict items) items' := List.foldl_append

/-- **Of the items with one key, the last counts.** -/
theorem getItem_setItems (dict items : List (List ℕ × α)) (key : List ℕ) :
    getItem (setItems dict items) key = (getItem items.reverse key).or (getItem dict key) := by
  induction items generalizing dict with
  | nil => rfl
  | cons item items ih =>
    have hone : (getItem [item] key).or (getItem dict key) =
        getItem (setItem dict item.1 item.2) key := by
      rw [getItem_setItem, getItem, List.find?_cons]
      by_cases hk : item.1 = key
      · rw [decide_eq_true hk, if_pos hk.symm]
        rfl
      · rw [decide_eq_false hk, if_neg (Ne.symm hk)]
        rfl
    have hsplit : getItem (items.reverse ++ [item]) key =
        (getItem items.reverse key).or (getItem [item] key) := by
      rw [getItem, List.find?_append, Option.map_or]
      rfl
    rw [setItems, List.foldl_cons, ← setItems, ih, List.reverse_cons, hsplit, Option.or_assoc, hone]

theorem nodup_setItems {items : List (List ℕ × α)} (h : (dict.map Prod.fst).Nodup) :
    ((setItems dict items).map Prod.fst).Nodup := by
  induction items generalizing dict with
  | nil => exact h
  | cons item items ih => exact ih (nodup_setItem h item.1 item.2)

theorem forall_setItems {P : List ℕ × α → Prop} {items : List (List ℕ × α)}
    (h : ∀ entry ∈ dict, P entry) (hitems : ∀ item ∈ items, P item) :
    ∀ entry ∈ setItems dict items, P entry := by
  induction items generalizing dict with
  | nil => exact h
  | cons item items ih =>
    obtain ⟨hitem, hitems⟩ := List.forall_mem_cons.mp hitems
    exact ih (forall_setItem h hitem) hitems

/-- Two dictionaries that say the same still do after the same items were entered. -/
theorem getItem_setItems_congr {dict' items : List (List ℕ × α)} {f : α → β}
    (h : (getItem dict key).map f = (getItem dict' key).map f) :
    (getItem (setItems dict items) key).map f = (getItem (setItems dict' items) key).map f := by
  rw [getItem_setItems, getItem_setItems, Option.map_or, Option.map_or, h]

end Items

theorem getItem_sortEntries (h : (entries.map Prod.fst).Nodup) :
    getItem (sortEntries entries) key = (getItem entries key).map Data.sorted := by
  rw [getItem_perm (sortEntries_perm entries) (nodup_sortEntries.mpr h)]
  exact getItem_map Data.sorted

/-- **Dictionaries with the same items have one text.** -/
theorem sortEntries_eq (h : (entries.map Prod.fst).Nodup) (h' : (entries'.map Prod.fst).Nodup)
    (hitems : ∀ key, (getItem entries key).map Data.sorted =
      (getItem entries' key).map Data.sorted) : sortEntries entries = sortEntries entries' := by
  have hnodup := nodup_sortEntries.mpr h
  have hnodup' := nodup_sortEntries.mpr h'
  have hmem : ∀ entry, entry ∈ sortEntries entries ↔ entry ∈ sortEntries entries' := by
    rintro ⟨key, value⟩
    rw [← getItem_eq_some hnodup, ← getItem_eq_some hnodup', getItem_sortEntries h,
      getItem_sortEntries h', hitems key]
  have hperm : (sortEntries entries).Perm (sortEntries entries') :=
    (List.perm_ext_iff_of_nodup (.of_map _ hnodup) (.of_map _ hnodup')).mpr hmem
  refine hperm.eq_of_pairwise (fun a b ha hb (hab : a.1 ≤ b.1) (hba : b.1 ≤ a.1) => ?_)
    (List.pairwise_insertionSort KeyLe _) (List.pairwise_insertionSort KeyLe _)
  have hkey : a.1 = b.1 := le_antisymm hab hba
  have hvalue : some a.2 = some b.2 := by
    rw [← (getItem_eq_some hnodup).mpr ha, ← (getItem_eq_some hnodup).mpr ((hmem b).mpr hb), hkey]
  exact Prod.ext hkey (Option.some.inj hvalue)

/-! ### Nesting and limits -/

theorem depthEntries_le :
    depthEntries entries ≤ n ↔ ∀ entry ∈ entries, entry.2.depth ≤ n := by
  induction entries with
  | nil => exact iff_of_true (Nat.zero_le n) fun _ h => absurd h List.not_mem_nil
  | cons entry entries ih =>
    rw [depthEntries, Nat.max_le, ih, List.forall_mem_cons]

theorem depthItems_le : depthItems items ≤ n ↔ ∀ item ∈ items, item.depth ≤ n := by
  induction items with
  | nil => exact iff_of_true (Nat.zero_le n) fun _ h => absurd h List.not_mem_nil
  | cons item items ih => rw [depthItems, Nat.max_le, ih, List.forall_mem_cons]

/-- What is kept is kept when it is sorted. -/
theorem Data.Kept.sorted (h : data.Kept limits depth) : data.sorted.Kept limits depth := by
  induction h with
  | none => exact .none
  | bool => exact .bool
  | int hdigits => exact .int hdigits
  | float => exact .float
  | str htext => exact .str htext
  | list hdepth _ ih =>
    rw [Data.sorted, sortItems_eq]
    refine .list hdepth fun item hitem => ?_
    obtain ⟨old, hold, rfl⟩ := List.mem_map.mp hitem
    exact ih old hold
  | dict hdepth hkeys htexts _ ih =>
    rw [sorted_dict]
    refine .dict hdepth (nodup_sortEntries.mpr hkeys) (fun entry hentry => ?_)
      fun entry hentry => ?_
    · obtain ⟨old, hold, rfl⟩ := mem_sortEntries.mp hentry
      exact htexts old hold
    · obtain ⟨old, hold, rfl⟩ := mem_sortEntries.mp hentry
      exact ih old hold

theorem Data.Kept.depth_sorted (h : data.Kept limits depth) : data.sorted.depth = data.depth := by
  induction h with
  | none | bool | int | float | str => rfl
  | list _ _ ih =>
    rw [Data.sorted, sortItems_eq, Data.depth, Data.depth]
    refine congrArg (· + 1) (eq_of_forall_ge_iff fun n => ?_)
    rw [depthItems_le, depthItems_le, List.forall_mem_map]
    exact forall₂_congr fun item hitem => by rw [ih item hitem]
  | dict _ _ _ _ ih =>
    rw [sorted_dict, Data.depth, Data.depth]
    refine congrArg (· + 1) (eq_of_forall_ge_iff fun n => ?_)
    rw [depthEntries_le, depthEntries_le]
    constructor
    · intro hn entry hentry
      rw [← ih entry hentry]
      exact hn _ (mem_sortEntries.mpr ⟨entry, hentry, rfl⟩)
    · rintro hn entry hentry
      obtain ⟨old, hold, rfl⟩ := mem_sortEntries.mp hentry
      exact (ih old hold).trans_le (hn old hold)

/-- Sorting what is sorted changes nothing. -/
theorem Data.Kept.sorted_sorted (h : data.Kept limits depth) :
    data.sorted.sorted = data.sorted := by
  induction h with
  | none | bool | int | float | str => rfl
  | list _ _ ih =>
    rw [Data.sorted, sortItems_eq, Data.sorted, sortItems_eq, List.map_map]
    exact congrArg Data.list (List.map_congr_left ih)
  | @dict _ entries _ _ _ _ ih =>
    rw [sorted_dict, sorted_dict]
    refine congrArg Data.dict ?_
    have hvalues : sortValues (sortEntries entries) = sortEntries entries := by
      rw [sortValues_eq]
      refine (List.map_congr_left fun entry hentry => ?_).trans (List.map_id _)
      obtain ⟨old, hold, rfl⟩ := mem_sortEntries.mp hentry
      rw [ih old hold, id]
    rw [sortEntries, hvalues]
    exact (List.pairwise_insertionSort KeyLe _).insertionSort_eq

/-! ### What an object holds -/

theorem dataMembers_eq (entries : List (List ℕ × Data)) (members : List (List ℕ × Value)) :
    dataMembers entries members =
      setItems entries (members.map fun member => (member.1, member.2.data)) := by
  induction members generalizing entries with
  | nil => rw [dataMembers, List.map_nil, setItems, List.foldl_nil]
  | cons member members ih =>
    rw [dataMembers, ih, List.map_cons, setItems, setItems, List.foldl_cons]

theorem map_get (members : List (List ℕ × Value)) (key : String) :
    (get members key).map Value.data = getItem (dataMembers [] members) (codePoints key) := by
  rw [dataMembers_eq, getItem_setItems, ← List.map_reverse, getItem_map Value.data]
  exact (Option.or_none).symm

end Json
