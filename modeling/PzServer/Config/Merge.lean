import PzServer.Config.Ini

/-!
# What the merge keeps and what it replaces

The program is an overlay: the lines of the old file that have a managed key are overlaid with the
rendered settings, and the settings whose keys were not met are appended. `mergeLines_eq` says so,
for every rendered file, also one that sets a key twice; what a merge does to each kind of line
follows from what an overlay does.

## Main results

* `isComment_eq` — whether a line is a comment is seen from its key
* `mergeLines_eq` — the program is an overlay
* `filter_mergeLines_key` — the lines of one managed key in the merged file
* `mergeManagedIni_merged` — the merge of a template with distinct keys
-/

namespace PzServer

namespace Config

open Collections

variable {line : Text} {rendered old : List Text} {key : Text}

/-! ### Comments -/

/-- A key that a comment would have. -/
def isCommentKey (key : Text) : Bool := key.head? = some '#' || key.head? = some ';'

theorem head?_dropWhile_reverse (c : Char) (t : Text) (hc : isSpace c = false) :
    (((c :: t).reverse.dropWhile isSpace).reverse).head? = some c := by
  rw [List.reverse_cons, List.dropWhile_append]
  split
  · simp [hc]
  · simp

theorem head?_trim (t : Text) : (trim t).head? = (t.dropWhile isSpace).head? := by
  rw [trim]
  cases h : t.dropWhile isSpace with
  | nil => rfl
  | cons c t' =>
    have hc : isSpace c = false := by
      have := List.head?_dropWhile_not isSpace t
      rw [h] at this
      simpa using this
    rw [head?_dropWhile_reverse c t' hc]
    rfl

theorem dropWhile_takeWhile (t : Text) :
    (t.takeWhile (· ≠ '=')).dropWhile isSpace = (t.dropWhile isSpace).takeWhile (· ≠ '=') := by
  induction t with
  | nil => rfl
  | cons c t ih =>
    by_cases hc : isSpace c
    · have hne : c ≠ '=' := by
        rintro rfl
        exact absurd hc (by decide)
      rw [List.takeWhile_cons_of_pos (by simpa using hne), List.dropWhile_cons_of_pos hc,
        List.dropWhile_cons_of_pos hc, ih]
    · rw [List.dropWhile_cons_of_neg hc]
      by_cases hne : c = '='
      · simp [hne]
      · rw [List.takeWhile_cons_of_pos (by simpa using hne), List.dropWhile_cons_of_neg hc]

/-- **Whether a line is a comment is seen from its key.** -/
theorem isComment_eq (line : Text) : isComment line = isCommentKey (keyOf line) := by
  rw [isComment, isCommentKey, keyOf, head?_trim, dropWhile_takeWhile]
  cases line.dropWhile isSpace with
  | nil => rfl
  | cons c t =>
    by_cases hc : c = '='
    · subst hc
      rfl
    · rw [List.takeWhile_cons_of_pos (by simpa using hc)]
      simp

/-- Lines with the same key are both comments or both not. -/
theorem isKeyLine_of_keyOf {line' : Text} (h : isKeyLine line') (hkey : keyOf line = keyOf line')
    (hequals : hasEquals line) : isKeyLine line := by
  rw [isKeyLine, Bool.and_eq_true, Bool.not_eq_true', isComment_eq] at h ⊢
  exact ⟨hkey ▸ h.1, hequals⟩

/-! ### Reading the rendered file -/

/-- The lines with a setting. -/
def settings (lines : List Text) : List Text := lines.filter isKeyLine

/-- The keys that are set. -/
def keys (lines : List Text) : List Text := (settings lines).map keyOf

/-- The line that sets `key`, the last one if there are several. -/
def setting? (lines : List Text) (key : Text) : Option Text :=
  (settings lines).reverse.find? fun line => keyOf line = key

theorem setting?_isSome : (setting? rendered key).isSome ↔ key ∈ keys rendered := by
  rw [setting?, List.find?_isSome, keys, List.mem_map]
  simp

theorem setting?_eq_some (h : setting? rendered key = some line) :
    line ∈ settings rendered ∧ keyOf line = key := by
  refine ⟨List.mem_reverse.mp (List.mem_of_find?_eq_some h), ?_⟩
  simpa using List.find?_some h

theorem isKeyLine_of_mem_settings (h : line ∈ settings rendered) : isKeyLine line :=
  (List.mem_filter.mp h).2

namespace Awk

/-- Reading the first file. -/
theorem foldl_readManaged (s : Awk) :
    rendered.foldl readManaged s =
      { s with
        managed := fun key => (setting? rendered key).or (s.managed key)
        order := s.order ++ keys rendered } := by
  induction rendered generalizing s with
  | nil => simp [setting?, settings, keys]
  | cons line rendered ih =>
    rw [List.foldl_cons, ih, readManaged]
    split
    · rename_i hline
      have hsettings : settings (line :: rendered) = line :: settings rendered :=
        List.filter_cons_of_pos hline
      simp only [Awk.mk.injEq, and_true]
      refine ⟨funext fun key => ?_, ?_⟩
      · rw [setting?, setting?, hsettings, List.reverse_cons, List.find?_append, Option.or_assoc]
        congr 1
        by_cases hkey : keyOf line = key
        · simp [hkey]
        · simp [hkey, Function.update_of_ne (Ne.symm hkey)]
      · rw [keys, keys, hsettings, List.map_cons, List.append_assoc, List.singleton_append]
    · rename_i hline
      have hsettings : settings (line :: rendered) = settings rendered :=
        List.filter_cons_of_neg hline
      simp only [setting?, keys, hsettings]

/-- The key of a line that is replaced or dropped. -/
def managedKey (s : Awk) (line : Text) : Option Text :=
  if hasEquals line ∧ (s.managed (keyOf line)).isSome then some (keyOf line) else none

/-- The line that takes its place. -/
def put (s : Awk) (key : Text) : Text := (s.managed key).getD []

theorem managedKey_eq_some {s : Awk} (h : s.managedKey line = some key) :
    hasEquals line ∧ keyOf line = key ∧ s.managed key = some (s.put key) := by
  rw [managedKey] at h
  split at h
  · rename_i hline
    obtain rfl := Option.some.inj h
    obtain ⟨managed, hmanaged⟩ := Option.isSome_iff_exists.mp hline.2
    exact ⟨hline.1, rfl, by rw [put, hmanaged]; rfl⟩
  · cases h

theorem copy_none {s : Awk} (h : s.managedKey line = none) :
    s.copy line = { s with printed := s.printed ++ [line] } := by
  rw [managedKey] at h
  rw [copy]
  split
  · rename_i hequals
    cases hmanaged : s.managed (keyOf line) with
    | none => rfl
    | some managed => simp [hequals, hmanaged] at h
  · rfl

theorem copy_seen {s : Awk} (h : s.managedKey line = some key) (hseen : key ∈ s.emitted) :
    s.copy line = s := by
  obtain ⟨hequals, rfl, hmanaged⟩ := managedKey_eq_some h
  rw [copy, if_pos hequals, hmanaged]
  exact if_pos hseen

theorem copy_new {s : Awk} (h : s.managedKey line = some key) (hseen : key ∉ s.emitted) :
    s.copy line = { s with
      emitted := key :: s.emitted
      printed := s.printed ++ [s.put key] } := by
  obtain ⟨hequals, rfl, hmanaged⟩ := managedKey_eq_some h
  rw [copy, if_pos hequals, hmanaged]
  exact if_neg hseen

/-- **Copying the second file is an overlay of its lines.** -/
theorem foldl_copy (s : Awk) :
    ∃ emitted, old.foldl copy s =
      { s with
        emitted := emitted
        printed := s.printed ++ overlay s.managedKey s.put s.emitted old } ∧
      ∀ key, key ∈ emitted ↔ key ∈ old.filterMap s.managedKey ∨ key ∈ s.emitted := by
  induction old generalizing s with
  | nil => exact ⟨s.emitted, by simp, fun key => by simp⟩
  | cons line old ih =>
    obtain ⟨emitted, hrest, hemitted⟩ := ih (s.copy line)
    rw [List.foldl_cons]
    refine ⟨emitted, ?_⟩
    cases h : s.managedKey line with
    | none =>
      rw [copy_none h] at hrest hemitted ⊢
      rw [overlay_cons_none h, List.filterMap_cons_none h]
      refine ⟨hrest.trans ?_, hemitted⟩
      rw [Awk.mk.injEq]
      exact ⟨rfl, rfl, rfl, List.append_assoc ..⟩
    | some key =>
      rw [List.filterMap_cons_some h]
      by_cases hseen : key ∈ s.emitted
      · rw [copy_seen h hseen] at hrest hemitted ⊢
        rw [overlay_cons_seen h hseen]
        refine ⟨hrest, fun k => (hemitted k).trans ?_⟩
        rw [List.mem_cons]
        constructor
        · rintro (hk | hk)
          · exact .inl (.inr hk)
          · exact .inr hk
        · rintro ((rfl | hk) | hk)
          · exact .inr hseen
          · exact .inl hk
          · exact .inr hk
      · rw [copy_new h hseen] at hrest hemitted ⊢
        rw [overlay_cons_new h hseen]
        refine ⟨hrest.trans ?_, fun k => (hemitted k).trans ?_⟩
        · rw [Awk.mk.injEq]
          exact ⟨rfl, rfl, rfl, List.append_assoc ..⟩
        · simp only [List.mem_cons]
          exact (or_left_comm).trans or_assoc.symm

end Awk

/-! ### The merged lines -/

/-- The key of a line of the old file that the rendered file manages. -/
def managedKey (rendered : List Text) (line : Text) : Option Text :=
  if isKeyLine line ∧ keyOf line ∈ keys rendered then some (keyOf line) else none

/-- The line that sets `key`. -/
def setting (rendered : List Text) (key : Text) : Text := (setting? rendered key).getD []

theorem managedKey_eq_some : managedKey rendered line = some key ↔
    isKeyLine line ∧ keyOf line = key ∧ key ∈ keys rendered := by
  rw [managedKey]
  split
  · rename_i h
    constructor
    · intro heq
      obtain rfl := Option.some.inj heq
      exact ⟨h.1, rfl, h.2⟩
    · rintro ⟨-, rfl, -⟩
      rfl
  · rename_i h
    refine iff_of_false nofun ?_
    rintro ⟨hline, rfl, hkey⟩
    exact h ⟨hline, hkey⟩

theorem managedKey_of_mem_settings (h : line ∈ settings rendered) :
    managedKey rendered line = some (keyOf line) :=
  managedKey_eq_some.mpr ⟨isKeyLine_of_mem_settings h, rfl, List.mem_map_of_mem h⟩

theorem setting?_eq (h : key ∈ keys rendered) :
    setting? rendered key = some (setting rendered key) := by
  obtain ⟨line, hline⟩ := Option.isSome_iff_exists.mp (setting?_isSome.mpr h)
  rw [setting, hline]
  rfl

theorem managedKey_setting (h : key ∈ keys rendered) :
    managedKey rendered (setting rendered key) = some key := by
  obtain ⟨hline, hkey⟩ := setting?_eq_some (setting?_eq h)
  rw [managedKey_of_mem_settings hline, hkey]

/-- The program does not look for comments in the old file, and need not: a line that begins as a
comment has no key that is managed. -/
theorem hasEquals_iff (h : keyOf line ∈ keys rendered) : hasEquals line ↔ isKeyLine line := by
  obtain ⟨line', hline', hkey⟩ := List.mem_map.mp h
  constructor
  · exact isKeyLine_of_keyOf (isKeyLine_of_mem_settings hline') hkey.symm
  · intro hline
    rw [isKeyLine, Bool.and_eq_true] at hline
    exact hline.2

/-- **The program is an overlay**: the old lines are overlaid with the rendered settings, and the
settings with other keys are appended. -/
theorem mergeLines_eq (hrendered : rendered ≠ []) :
    mergeLines rendered old = overlay (managedKey rendered) (setting rendered) [] old ++
      ((keys rendered).filter (· ∉ old.filterMap (managedKey rendered))).map
        (setting rendered) := by
  have hread : rendered.foldl Awk.readManaged .start =
      ⟨setting? rendered, keys rendered, [], []⟩ := by
    rw [Awk.foldl_readManaged, Awk.start]
    simp
  have hmanaged : Awk.managedKey ⟨setting? rendered, keys rendered, [], []⟩ =
      managedKey rendered := by
    funext line
    rw [Awk.managedKey, managedKey]
    refine if_congr ?_ rfl rfl
    exact (and_congr_right fun _ => setting?_isSome).trans (and_congr_left hasEquals_iff)
  obtain ⟨emitted, hcopy, hemitted⟩ :=
    @Awk.foldl_copy old ⟨setting? rendered, keys rendered, [], []⟩
  rw [hmanaged] at hcopy hemitted
  rw [mergeLines, if_neg hrendered, hread, hcopy, Awk.finish]
  have hfilter : (keys rendered).filter (· ∉ emitted) =
      (keys rendered).filter (· ∉ old.filterMap (managedKey rendered)) := by
    refine List.filter_congr fun key _ => ?_
    simp [hemitted key]
  rw [hfilter]
  rfl

/-! ### What a merge does to the lines of one key -/

theorem put_managed : ∀ key, key ∈ old.filterMap (managedKey rendered) →
    managedKey rendered (setting rendered key) = some key := by
  intro key hkey
  obtain ⟨line, -, hline⟩ := List.mem_filterMap.mp hkey
  exact managedKey_setting (managedKey_eq_some.mp hline).2.2

/-- **The lines of one managed key in the merged file.** If the old file had one, there is one; if
not, as many as the rendered file has. -/
theorem filter_mergeLines_key (hrendered : rendered ≠ []) (hkey : key ∈ keys rendered) :
    (mergeLines rendered old).filter (fun line => isKeyLine line ∧ keyOf line = key) =
      if key ∈ old.filterMap (managedKey rendered) then [setting rendered key]
      else List.replicate ((keys rendered).count key) (setting rendered key) := by
  have hsame : ∀ line, decide (isKeyLine line ∧ keyOf line = key) =
      decide (managedKey rendered line = some key) := by
    intro line
    refine decide_eq_decide.mpr ?_
    rw [managedKey_eq_some]
    exact ⟨fun h => ⟨h.1, h.2, hkey⟩, fun h => ⟨h.1, h.2.1⟩⟩
  rw [List.filter_congr fun line _ => hsame line, mergeLines_eq hrendered, List.filter_append,
    filter_overlay_some put_managed, List.filter_map]
  have hkeys : ((keys rendered).filter (· ∉ old.filterMap (managedKey rendered))).filter
      ((fun line => decide (managedKey rendered line = some key)) ∘ setting rendered) =
      ((keys rendered).filter (· ∉ old.filterMap (managedKey rendered))).filter (· = key) := by
    refine List.filter_congr fun k hk => ?_
    rw [Function.comp_apply, managedKey_setting (List.mem_filter.mp hk).1, decide_eq_decide]
    exact Option.some_inj
  rw [hkeys]
  by_cases hold : key ∈ old.filterMap (managedKey rendered)
  · have hnone : ((keys rendered).filter (· ∉ old.filterMap (managedKey rendered))).filter
        (· = key) = [] := by
      refine List.filter_eq_nil_iff.mpr fun k hk heq => ?_
      rw [decide_eq_true_eq] at heq
      subst heq
      simpa [hold] using (List.mem_filter.mp hk).2
    rw [hnone, if_pos ⟨hold, List.not_mem_nil⟩, if_pos hold]
    rfl
  · have hall : ((keys rendered).filter (· ∉ old.filterMap (managedKey rendered))).filter
        (· = key) = List.replicate ((keys rendered).count key) key := by
      rw [List.filter_filter, ← List.filter_eq]
      refine List.filter_congr fun k _ => ?_
      by_cases heq : k = key
      · subst heq
        simp [hold]
      · simp [heq]
    rw [hall, if_neg fun h => hold h.1, if_neg hold, List.map_replicate, List.nil_append]

/-! ### Other lines, places, and merging again -/

/-- **The other lines are kept**, in their order. -/
theorem filter_mergeLines_none (hrendered : rendered ≠ []) :
    (mergeLines rendered old).filter (fun line => (managedKey rendered line).isNone) =
      old.filter fun line => (managedKey rendered line).isNone := by
  rw [mergeLines_eq hrendered, List.filter_append, filter_overlay_none put_managed,
    List.append_right_eq_self, List.filter_eq_nil_iff]
  intro line hline
  obtain ⟨key, hkey, rfl⟩ := List.mem_map.mp hline
  rw [managedKey_setting (List.mem_filter.mp hkey).1]
  nofun

/-- **A managed key keeps its place.** Before it stand the other lines that stood before it, and
the managed keys that did. -/
theorem mergeLines_place {before : List Text} (after : List Text) (hrendered : rendered ≠ [])
    (hline : managedKey rendered line = some key)
    (hfirst : key ∉ before.filterMap (managedKey rendered)) :
    ∃ before' after', mergeLines rendered (before ++ line :: after) =
        before' ++ setting rendered key :: after' ∧
      before'.filter (fun line => (managedKey rendered line).isNone) =
        before.filter (fun line => (managedKey rendered line).isNone) ∧
      ∀ key, key ∈ before'.filterMap (managedKey rendered) ↔
        key ∈ before.filterMap (managedKey rendered) := by
  rw [mergeLines_eq hrendered, overlay_append, overlay_cons_new hline (by simpa using hfirst),
    List.append_assoc, List.cons_append]
  refine ⟨_, _, rfl, filter_overlay_none put_managed, fun key => ?_⟩
  rw [mem_filterMap_overlay put_managed]
  exact and_iff_left List.not_mem_nil

section Distinct

variable (hdistinct : (keys rendered).Nodup)
include hdistinct

/-- Where keys are distinct, each is set by the one line that has it. -/
theorem setting_of_mem (hline : line ∈ settings rendered) :
    setting rendered (keyOf line) = line := by
  obtain ⟨hmem, hkey⟩ := setting?_eq_some (setting?_eq (List.mem_map_of_mem hline))
  exact List.inj_on_of_nodup_map hdistinct hmem hline hkey

/-- The settings that are appended are those of the rendered file that the old one has not. -/
theorem map_setting :
    ((keys rendered).filter (· ∉ old.filterMap (managedKey rendered))).map (setting rendered) =
      (settings rendered).filter fun line => keyOf line ∉ old.filterMap (managedKey rendered) := by
  rw [keys, List.filter_map, List.map_map]
  refine (List.map_congr_left fun line hline => ?_).trans (List.map_id _)
  exact setting_of_mem hdistinct (List.mem_filter.mp hline).1

/-- **Merging again changes nothing.** -/
theorem mergeLines_mergeLines (hrendered : rendered ≠ []) :
    mergeLines rendered (mergeLines rendered old) = mergeLines rendered old := by
  have hmerged := @mergeLines_eq rendered old hrendered
  have hkeys : (mergeLines rendered old).filterMap (managedKey rendered) =
      (overlay (managedKey rendered) (setting rendered) [] old).filterMap (managedKey rendered) ++
        (keys rendered).filter (· ∉ old.filterMap (managedKey rendered)) := by
    rw [hmerged, List.filterMap_append, List.filterMap_map]
    refine congrArg _ ((List.filterMap_congr fun key hkey => ?_).trans List.filterMap_some)
    exact managedKey_setting (List.mem_filter.mp hkey).1
  have hold : ∀ key, key ∈ (overlay (managedKey rendered) (setting rendered) [] old).filterMap
      (managedKey rendered) ↔ key ∈ old.filterMap (managedKey rendered) := fun key =>
    (mem_filterMap_overlay put_managed).trans (and_iff_left List.not_mem_nil)
  have hnodup : ((mergeLines rendered old).filterMap (managedKey rendered)).Nodup := by
    rw [hkeys]
    refine List.nodup_append.mpr ⟨nodup_filterMap_overlay put_managed, hdistinct.filter _, ?_⟩
    rintro key hkey _ hmissing rfl
    simpa [(hold key).mp hkey] using (List.mem_filter.mp hmissing).2
  have hall : ∀ key ∈ keys rendered,
      key ∈ (mergeLines rendered old).filterMap (managedKey rendered) := by
    intro key hkey
    rw [hkeys, List.mem_append, hold]
    by_cases hthere : key ∈ old.filterMap (managedKey rendered)
    · exact .inl hthere
    · exact .inr (List.mem_filter.mpr ⟨hkey, by simpa using hthere⟩)
  have hput : ∀ line ∈ mergeLines rendered old, ∀ key, managedKey rendered line = some key →
      line = setting rendered key := by
    intro line hline key hkey
    rw [hmerged, List.mem_append] at hline
    rcases hline with hline | hline
    · exact eq_put_of_mem_overlay put_managed hline hkey
    · obtain ⟨key', hkey', rfl⟩ := List.mem_map.mp hline
      rw [managedKey_setting (List.mem_filter.mp hkey').1] at hkey
      exact congrArg _ (Option.some.inj hkey)
  have hnone : (keys rendered).filter
      (· ∉ (mergeLines rendered old).filterMap (managedKey rendered)) = [] :=
    List.filter_eq_nil_iff.mpr fun key hkey => by simpa using hall key hkey
  rw [@mergeLines_eq rendered (mergeLines rendered old) hrendered, hnone, List.map_nil,
    List.append_nil]
  exact overlay_eq_self hnodup (fun _ _ => List.not_mem_nil) hput

end Distinct

/-! ### The merged file -/

/-- The lines of the merged file are lines of the two files. -/
theorem mem_mergeLines (hrendered : rendered ≠ []) (h : line ∈ mergeLines rendered old) :
    line ∈ old ∨ line ∈ rendered := by
  have hsetting : ∀ key ∈ keys rendered, setting rendered key ∈ rendered := fun key hkey =>
    (List.mem_filter.mp (setting?_eq_some (setting?_eq hkey)).1).1
  rw [mergeLines_eq hrendered, List.mem_append] at h
  rcases h with h | h
  · rcases mem_overlay h with hold | ⟨key, hkey, rfl⟩
    · exact .inl hold
    · obtain ⟨line, -, hline⟩ := List.mem_filterMap.mp hkey
      exact .inr (hsetting key (managedKey_eq_some.mp hline).2.2)
  · obtain ⟨key, hkey, rfl⟩ := List.mem_map.mp h
    exact .inr (hsetting key (List.mem_filter.mp hkey).1)

/-- The merged file, line by line. -/
theorem records_mergeManagedIni {rendered : Text} (old : Text) (hrendered : rendered ≠ []) :
    records (mergeManagedIni rendered old) = mergeLines (records rendered) (records old) := by
  refine records_unrecords fun line hline => ?_
  rcases mem_mergeLines (records_ne_nil hrendered) hline with h | h
  · exact not_mem_of_mem_records h
  · exact not_mem_of_mem_records h

/-- **What a merge does to a file.** -/
structure Merged (rendered old merged : Text) : Prop where
  /-- each managed key is set by one line, the rendered one -/
  once : ∀ line ∈ settings (records rendered), (records merged).filter
    (fun line' => isKeyLine line' ∧ keyOf line' = keyOf line) = [line]
  /-- the lines that have no managed key are kept, unchanged and in their order -/
  kept : (records merged).filter (fun line => (managedKey (records rendered) line).isNone) =
    (records old).filter fun line => (managedKey (records rendered) line).isNone
  /-- a managed key keeps the place of its first old occurrence -/
  place : ∀ before line after key, records old = before ++ line :: after →
    managedKey (records rendered) line = some key →
    key ∉ before.filterMap (managedKey (records rendered)) →
    ∃ before' line' after', records merged = before' ++ line' :: after' ∧
      line' ∈ settings (records rendered) ∧ keyOf line' = key ∧
      before'.filter (fun line => (managedKey (records rendered) line).isNone) =
        before.filter (fun line => (managedKey (records rendered) line).isNone) ∧
      ∀ key, key ∈ before'.filterMap (managedKey (records rendered)) ↔
        key ∈ before.filterMap (managedKey (records rendered))
  /-- the missing ones are appended, in the order of the template -/
  appended : ∃ before, records merged = before ++ (settings (records rendered)).filter
      (fun line => keyOf line ∉ (records old).filterMap (managedKey (records rendered))) ∧
    ∀ key, key ∈ before.filterMap (managedKey (records rendered)) ↔
      key ∈ (records old).filterMap (managedKey (records rendered))
  /-- every line is complete -/
  complete : unrecords (records merged) = merged
  /-- merging the same template again changes nothing -/
  again : mergeManagedIni rendered merged = merged

/-- **The merge is as it should be**, for every old file and every rendered file that is not empty
and sets no key twice. -/
theorem mergeManagedIni_merged {rendered : Text} (old : Text) (hrendered : rendered ≠ [])
    (hdistinct : (keys (records rendered)).Nodup) :
    Merged rendered old (mergeManagedIni rendered old) := by
  have hlines := records_mergeManagedIni old hrendered
  have hne := records_ne_nil hrendered
  refine ⟨fun line hline => ?_, ?_, fun before line after key hold hline hfirst => ?_, ?_, ?_, ?_⟩
  · have hkey : keyOf line ∈ keys (records rendered) := List.mem_map_of_mem hline
    rw [hlines, filter_mergeLines_key hne hkey, List.count_eq_one_of_mem hdistinct hkey,
      setting_of_mem hdistinct hline, List.replicate_one, ite_self]
  · rw [hlines, filter_mergeLines_none hne]
  · obtain ⟨before', after', hmerged, hkept, hkeys⟩ :=
      mergeLines_place after hne hline hfirst
    obtain ⟨hmem, hkey⟩ := setting?_eq_some (setting?_eq (managedKey_eq_some.mp hline).2.2)
    exact ⟨before', _, after', by rw [hlines, hold, hmerged], hmem, hkey, hkept, hkeys⟩
  · refine ⟨overlay (managedKey (records rendered)) (setting (records rendered)) [] (records old),
      ?_, fun key => ?_⟩
    · rw [hlines, mergeLines_eq hne, map_setting hdistinct]
    · exact (mem_filterMap_overlay put_managed).trans (and_iff_left List.not_mem_nil)
  · rw [hlines]
    rfl
  · rw [mergeManagedIni, hlines, mergeLines_mergeLines hdistinct hne]
    rfl

/-- A comment, spaces around a key, a repeated key, an unknown key and no final newline. -/
example : String.ofList (mergeManagedIni "# managed\nPublic=false\nUPnP=false\n".toList
    "#Public=x\n UPnP = true\nResetID=7\nUPnP=x\nLast=1".toList) =
    "#Public=x\nUPnP=false\nResetID=7\nLast=1\nPublic=false\n" := by decide

theorem mergeManagedIni_merged_upnp :
    Merged "# managed\nPublic=false\nUPnP=false\n".toList
      "#Public=x\n UPnP = true\nResetID=7\nUPnP=x\nLast=1".toList
      "#Public=x\nUPnP=false\nResetID=7\nLast=1\nPublic=false\n".toList :=
  mergeManagedIni_merged "#Public=x\n UPnP = true\nResetID=7\nUPnP=x\nLast=1".toList (by decide)
    (by decide)

end Config

end PzServer
