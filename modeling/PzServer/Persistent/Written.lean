import PzServer.Json.Sorted
import PzServer.Launcher.Configured
import PzServer.Persistent.Readable

/-!
# The state file over many writes

Every command of the updater loads the state file, changes some keys and writes the whole document
again, keys in order; keys that it does not know stay. The text of one write is what the next
command loads, so the values go through the printer and the decoder once for every write.

A key then holds what was written last under it, or what the first file had there. The one thing
that ends this is the size: `StateStore.write` has no bound, and `StateStore.load` has one.

## Main definitions

* `write` — `StateStore.write`
* `Change`, `update` — a command of the updater
* `lastWritten` — what a key should hold
* `Fits` — the next command can load what was written

## Main results

* `load_written_iff` — what was written is loaded again
* `updates_iff` — when every key holds what was written last
-/

namespace PzServer

namespace Persistent

open Updater (Err malformed readText readText_written)
open Json (Data codePoints getItem setItems)

/-! ### Writing -/

/-- The entries of a dictionary. -/
abbrev Entries : Type := List (List ℕ × Data)

/-- The dictionary that a document is in Python. -/
def Document.entries (document : Document) : Entries := Json.dataMembers [] document

/-- `STATE_SCHEMA_VERSION`, under its key. -/
def schemaVersion : List ℕ × Data := (codePoints "schema_version", .int 1)

/-- `json.dumps(…, indent=2, sort_keys=True) + "\n"`, as bytes. -/
def stateFile (entries : Entries) : ByteArray :=
  (String.ofList (Json.encode 0 (Data.dict entries).sorted ++ ['\n'])).toByteArray

/-- `StateStore.write`, where no file operation fails. -/
def write (printable : ℕ) (state : Entries) : Except Err Node :=
  let value := setItems state [schemaVersion]
  match Json.dumps printable (Data.dict value).sorted with
  | .ok t => .ok (.regular (String.ofList (t ++ ['\n'])).toByteArray)
  | .error _ => .error (.other "RecursionError")

/-- What a command enters: strings, integers, `True`, `None` and the like. -/
structure Change (limits : Json.Limits) where
  items : Entries
  keys : ∀ item ∈ items, Json.IsText item.1
  values : ∀ item ∈ items, item.2.Kept limits 1

/-- Everything that a command writes. -/
def Change.written {limits : Json.Limits} (change : Change limits) : Entries :=
  change.items ++ [schemaVersion]

/-- `store.write({**store.load(), …})` -/
def update (stack : Stack) (printable : ℕ) (path : String) (node : Node)
    (change : Change stack.limits) : Except Err Node := do
  let document ← loadNode stack path node
  write printable (setItems document.entries change.items)

/-- The dictionary after some commands. -/
def after {limits : Json.Limits} (entries : Entries) (changes : List (Change limits)) : Entries :=
  setItems entries (changes.flatMap Change.written)

/-- What was written last under a key, or was there at the beginning. -/
def lastWritten {limits : Json.Limits} (entries : Entries) (changes : List (Change limits))
    (key : List ℕ) : Option Data :=
  (getItem (changes.flatMap Change.written).reverse key).or (getItem entries key)

/-- The printer can print the dictionary, and the text is not too large to be loaded. -/
def Fits (printable : ℕ) (entries : Entries) : Prop :=
  (Data.dict entries).depth ≤ printable ∧ (stateFile entries).size ≤ 1024 * 1024

instance (printable : ℕ) (entries : Entries) : Decidable (Fits printable entries) :=
  inferInstanceAs (Decidable (_ ∧ _))

variable {stack : Stack} {limits : Json.Limits} {printable : ℕ} {path : String} {node node' : Node}
  {document : Document} {entries entries' : Entries} {change : Change stack.limits}
  {changes : List (Change stack.limits)} {key : List ℕ}

theorem after_cons (entries : Entries) (change : Change limits) (changes : List (Change limits)) :
    after entries (change :: changes) = after (setItems entries change.written) changes := by
  rw [after, List.flatMap_cons, Json.setItems_append, after]

theorem after_nil (entries : Entries) : after entries ([] : List (Change limits)) = entries := rfl

theorem getItem_after (entries : Entries) (changes : List (Change limits)) (key : List ℕ) :
    getItem (after entries changes) key = lastWritten entries changes key :=
  Json.getItem_setItems entries _ key

/-! ### What can be written and loaded again -/

/-- The dictionary can be loaded again. -/
def Storable (stack : Stack) (entries : Entries) : Prop := (Data.dict entries).Kept stack.limits 0

theorem Storable.nodup (h : Storable stack entries) : (entries.map Prod.fst).Nodup := by
  cases h with
  | dict _ hkeys _ _ => exact hkeys

theorem kept_one (depth : ℕ) : (Data.int 1).Kept stack.limits depth := by
  have hdigits : (Nat.toDigits 10 (Int.natAbs 1)).length ≤ 4300 := by decide
  exact .int hdigits

theorem storable_uninitialized (hstack : 0 < stack.json) :
    Storable stack uninitialized.entries := by
  have htext : ∀ s : String, Json.IsText (codePoints s) := fun s => Launcher.isText_chars s.toList
  refine .dict hstack (by decide) (fun entry h => ?_) fun entry h => ?_
  · rcases List.mem_cons.mp h with rfl | h
    · exact htext _
    · rw [List.mem_singleton.mp h]
      exact htext _
  · rcases List.mem_cons.mp h with rfl | h
    · exact kept_one 1
    · rw [List.mem_singleton.mp h]
      exact .str (htext _)

theorem Storable.value {entry : List ℕ × Data} (h : Storable stack entries)
    (hentry : entry ∈ entries) : entry.2.Kept stack.limits 1 := by
  cases h with
  | dict _ _ _ hvalues => exact hvalues entry hentry

/-- A file is loaded where all stages succeed. -/
theorem loadNode_eq_ok {content : ByteArray} :
    loadNode stack path (.regular content) = .ok document ↔ content.size ≤ 1024 * 1024 ∧
      ∃ t value, readText content = .ok t ∧ Json.loads stack.limits t = .ok value ∧
        checkSchema path value = .ok document := by
  rw [loadNode]
  split
  · rename_i hsize
    refine iff_of_false (fun h => by cases h) fun h => Nat.not_le.mpr hsize h.1
  rename_i hsize
  rw [and_iff_right (Nat.not_lt.mp hsize)]
  cases ht : readText content with
  | error e =>
    refine iff_of_false (fun h => by cases h) ?_
    rintro ⟨t, value, h, -⟩
    cases h
  | ok t =>
    dsimp only [Bind.bind, Except.bind]
    cases hloads : Json.loads stack.limits t with
    | error e =>
      refine iff_of_false (fun h => by cases e <;> cases h) ?_
      rintro ⟨t', value, h, hvalue, -⟩
      cases h
      rw [hloads] at hvalue
      cases hvalue
    | ok value =>
      constructor
      · exact fun h => ⟨t, value, rfl, hloads, h⟩
      · rintro ⟨t', value', h, hvalue, hcheck⟩
        cases h
        rw [hloads] at hvalue
        cases hvalue
        exact hcheck

theorem checkSchema_eq_ok {value : Json.Value} (h : checkSchema path value = .ok document) :
    value = .object document := by
  rw [checkSchema.eq_def] at h
  split at h
  · split at h
    · split at h
      · cases h
        rfl
      · cases h
    · cases h
  · cases h

theorem storable_of_load (hstack : 0 < stack.json) (h : loadNode stack path node = .ok document) :
    Storable stack document.entries := by
  cases node with
  | absent =>
    cases h
    exact storable_uninitialized hstack
  | symlink | special | failing => cases h
  | regular content =>
    obtain ⟨-, t, value, -, hloads, hcheck⟩ := loadNode_eq_ok.mp h
    have hkept : value.data.Kept stack.limits 0 := by
      refine Json.kept_of_parse (t := t) ?_
      rw [Json.parse, hloads]
      rfl
    rwa [checkSchema_eq_ok hcheck, Json.Value.data] at hkept

theorem Storable.setItems (h : Storable stack entries) {items : Entries}
    (hkeys : ∀ item ∈ items, Json.IsText item.1)
    (hvalues : ∀ item ∈ items, item.2.Kept stack.limits 1) :
    Storable stack (setItems entries items) := by
  cases h with
  | dict hdepth hnodup htexts hkept =>
    exact .dict hdepth (Json.nodup_setItems hnodup) (Json.forall_setItems htexts hkeys)
      (Json.forall_setItems hkept hvalues)

theorem Storable.written (h : Storable stack entries) (change : Change stack.limits) :
    Storable stack (Json.setItems entries change.written) := by
  have hversion : Json.IsText schemaVersion.1 := Launcher.isText_chars _
  refine h.setItems (fun item hitem => ?_) fun item hitem => ?_
  · rcases List.mem_append.mp hitem with hitem | hitem
    · exact change.keys item hitem
    · rwa [List.mem_singleton.mp hitem]
  · rcases List.mem_append.mp hitem with hitem | hitem
    · exact change.values item hitem
    · rw [List.mem_singleton.mp hitem]
      exact kept_one 1

/-! ### Loading what was written -/

/-- The file is loaded, and every key holds its value. -/
def Holds (stack : Stack) (path : String) (node : Node) (entries : Entries) : Prop :=
  ∃ document, loadNode stack path node = .ok document ∧
    ∀ key, (getItem document.entries key).map Data.sorted = (getItem entries key).map Data.sorted

theorem checkSchema_of_data (path : String) {value : Json.Value}
    (hvalue : value.data = .dict entries)
    (hversion : getItem entries (codePoints "schema_version") = some (.int 1)) :
    ∃ document, checkSchema path value = .ok document ∧ document.entries = entries := by
  cases value with
  | object document =>
    rw [Json.Value.data, Data.dict.injEq] at hvalue
    refine ⟨document, ?_, hvalue⟩
    have hget := Json.map_get document "schema_version"
    rw [hvalue, hversion] at hget
    obtain ⟨version, hversion, hdata⟩ := Option.map_eq_some_iff.mp hget
    rw [checkSchema, hversion]
    cases version with
    | int n =>
      rw [Json.Value.data, Data.int.injEq] at hdata
      change (if decide (n = 1) then _ else _) = _
      rw [hdata]
      rfl
    | null | bool | float | str | array | object =>
      rw [Json.Value.data] at hdata
      cases hdata
  | null | bool | int | float | str | array =>
    rw [Json.Value.data] at hvalue
    cases hvalue

theorem readText_stateFile (h : Storable stack entries) :
    readText (stateFile entries) =
      .ok (Json.encode 0 (Data.dict entries).sorted ++ ['\n']) :=
  readText_written ((Json.isUnix_encode h.sorted 0).append (.cons (by decide) Json.isUnix_nil))

/-- **What was written is loaded again**, unless it is too large. -/
theorem load_written_iff (h : Storable stack entries)
    (hversion : getItem entries (codePoints "schema_version") = some (.int 1)) :
    Holds stack path (.regular (stateFile entries)) entries ↔
      (stateFile entries).size ≤ 1024 * 1024 := by
  constructor
  · rintro ⟨document, hload, -⟩
    exact (loadNode_eq_ok.mp hload).1
  · intro hsize
    have hparse := Json.parse_encode h.sorted
    rw [Json.parse] at hparse
    cases hloads : Json.loads stack.limits (Json.encode 0 (Data.dict entries).sorted ++ ['\n']) with
    | error e =>
      rw [hloads] at hparse
      cases hparse
    | ok value =>
      rw [hloads] at hparse
      have hvalue : value.data = .dict (Json.sortEntries entries) := by
        rw [← Json.sorted_dict]
        exact Except.ok.inj hparse
      have hone : getItem (Json.sortEntries entries) (codePoints "schema_version") =
          some (.int 1) := by
        rw [Json.getItem_sortEntries h.nodup, hversion]
        rfl
      obtain ⟨document, hcheck, hdocument⟩ := checkSchema_of_data path hvalue hone
      refine ⟨document, ?_, fun key => ?_⟩
      · exact loadNode_eq_ok.mpr ⟨hsize, _, value, readText_stateFile h, hloads, hcheck⟩
      · rw [hdocument, Json.getItem_sortEntries h.nodup, Option.map_map]
        refine Option.map_congr fun value hvalue => ?_
        exact (h.value ((Json.getItem_eq_some h.nodup).mp hvalue)).sorted_sorted

/-- A file that was too large is not loaded any more. -/
theorem load_oversized (stack : Stack) (path : String)
    (hsize : ¬ (stateFile entries).size ≤ 1024 * 1024) :
    ∃ e, loadNode stack path (.regular (stateFile entries)) = .error e := by
  rw [loadNode, if_pos (Nat.lt_of_not_le hsize)]
  exact ⟨_, rfl⟩

/-! ### One command after the other -/

/-- A command writes the dictionary with its changes, if the printer can print it. -/
theorem update_holds (hentries : Storable stack entries) (hstack : 0 < stack.json)
    (h : Holds stack path node entries) (change : Change stack.limits) :
    update stack printable path node change =
      if (Data.dict (setItems entries change.written)).depth ≤ printable then
        .ok (.regular (stateFile (setItems entries change.written)))
      else .error (.other "RecursionError") := by
  obtain ⟨document, hload, hitems⟩ := h
  have hdocument := (storable_of_load hstack hload).written change
  have hwritten := hentries.written change
  have hsorted : (Data.dict (setItems document.entries change.written)).sorted =
      (Data.dict (setItems entries change.written)).sorted := by
    rw [Json.sorted_dict, Json.sorted_dict]
    refine congrArg Data.dict (Json.sortEntries_eq hdocument.nodup hwritten.nodup fun key => ?_)
    exact Json.getItem_setItems_congr (hitems key)
  have hsplit : setItems (setItems document.entries change.items) [schemaVersion] =
      setItems document.entries change.written := (Json.setItems_append _ _ _).symm
  rw [update, hload]
  change write printable (setItems document.entries change.items) = _
  rw [write, hsplit, hsorted, Json.dumps, hwritten.depth_sorted]
  by_cases hdepth : (Data.dict (setItems entries change.written)).depth ≤ printable
  · rw [if_neg (Nat.not_lt.mpr hdepth), if_pos hdepth]
    rfl
  · rw [if_pos (Nat.lt_of_not_le hdepth), if_neg hdepth]

/-- Nothing comes after a file that is not loaded. -/
theorem not_holds_of_error {e : Updater.Err} (h : loadNode stack path node = .error e) :
    ¬ ∃ node', changes.foldlM (update stack printable path) node = .ok node' ∧
      Holds stack path node' entries := by
  rintro ⟨node', hrun, document, hload, -⟩
  cases changes with
  | nil =>
    cases hrun
    rw [h] at hload
    cases hload
  | cons change changes =>
    rw [List.foldlM_cons, update, h] at hrun
    cases hrun

theorem getItem_schemaVersion (entries : Entries) (change : Change stack.limits) :
    getItem (setItems entries change.written) (codePoints "schema_version") = some (.int 1) := by
  rw [Json.getItem_setItems, Change.written, List.reverse_append]
  rfl

theorem holds_after_iff (hentries : Storable stack entries) (hstack : 0 < stack.json)
    (h : Holds stack path node entries) :
    (∃ node', changes.foldlM (update stack printable path) node = .ok node' ∧
        Holds stack path node' (after entries changes)) ↔
      ∀ n < changes.length, Fits printable (after entries (changes.take (n + 1))) := by
  induction changes generalizing node entries with
  | nil => exact iff_of_true ⟨node, rfl, h⟩ fun n hn => absurd hn (Nat.not_lt_zero n)
  | cons change changes ih =>
    have hwritten := hentries.written change
    have hrest : (∀ n < (change :: changes).length,
          Fits printable (after entries ((change :: changes).take (n + 1)))) ↔
        Fits printable (setItems entries change.written) ∧ ∀ n < changes.length,
          Fits printable (after (setItems entries change.written) (changes.take (n + 1))) := by
      rw [List.length_cons, Nat.forall_lt_succ_left]
      simp only [List.take_succ_cons, List.take_zero, after_cons, after_nil]
    rw [hrest, List.foldlM_cons, update_holds hentries hstack h, after_cons]
    by_cases hdepth : (Data.dict (setItems entries change.written)).depth ≤ printable
    · rw [if_pos hdepth]
      change (∃ node', changes.foldlM (update stack printable path)
        (.regular (stateFile (setItems entries change.written))) = .ok node' ∧ _) ↔ _
      by_cases hsize : (stateFile (setItems entries change.written)).size ≤ 1024 * 1024
      · have hholds : Holds stack path (.regular (stateFile (setItems entries change.written)))
            (setItems entries change.written) :=
          (load_written_iff hwritten (getItem_schemaVersion entries change)).mpr hsize
        rw [ih hwritten hholds]
        exact (and_iff_right ⟨hdepth, hsize⟩).symm
      · obtain ⟨e, he⟩ := load_oversized stack path hsize
        exact iff_of_false (not_holds_of_error he) fun h => hsize h.1.2
    · rw [if_neg hdepth]
      refine iff_of_false ?_ fun h => hdepth h.1.1
      rintro ⟨node', hrun, -⟩
      cases hrun

/-- **Every key holds what was written last under it**, or what was in the first file, after any
number of commands; and this ends with the first document that is too large to be loaded, or too
deep to be printed. -/
theorem updates_iff (hstack : 0 < stack.json) (h : loadNode stack path node = .ok document)
    (changes : List (Change stack.limits)) :
    (∃ node' document', changes.foldlM (update stack printable path) node = .ok node' ∧
        loadNode stack path node' = .ok document' ∧
        ∀ key, (getItem document'.entries key).map Data.sorted =
          (lastWritten document.entries changes key).map Data.sorted) ↔
      ∀ n < changes.length, Fits printable (after document.entries (changes.take (n + 1))) := by
  rw [← holds_after_iff (storable_of_load hstack h) hstack ⟨document, h, fun _ => rfl⟩]
  simp only [Holds, getItem_after]
  exact exists_congr fun node' => exists_and_left

/-! ### A record with a note -/

/-- A record with a key that the updater does not know. -/
def annotated : Document :=
  [(codePoints "schema_version", .int 1), (codePoints "state", text "current"),
    (codePoints "current_build", .int 5), (codePoints "note", text "kept by hand")]

/-- The file of the record. -/
def annotatedFile : Watchdog.Text :=
  ("\x7b\"schema_version\": 1, \"state\": \"current\", \"current_build\": 5, " ++
    "\"note\": \"kept by hand\"\x7d").toList

theorem load_annotated (path : String) :
    loadNode ⟨100, 100⟩ path (.regular (String.ofList annotatedFile).toByteArray) =
      .ok annotated := by
  have hloads : (Json.loads (Stack.limits ⟨100, 100⟩) annotatedFile).toOption =
      some (.object annotated) := by
    decide +kernel
  exact (loadNode_text (by decide +kernel) (by decide +kernel) hloads).trans rfl

/-- A command that enters a state and a build. -/
def entering (state key : String) (build : ℤ)
    (h : (Data.int build).Kept (Stack.limits ⟨100, 100⟩) 1) :
    Change (Stack.limits ⟨100, 100⟩) where
  items := [(codePoints "state", .str (codePoints state)), (codePoints key, .int build)]
  keys item hitem := by
    rcases List.mem_cons.mp hitem with rfl | hitem
    · exact Launcher.isText_chars _
    · rw [List.mem_singleton.mp hitem]
      exact Launcher.isText_chars _
  values item hitem := by
    rcases List.mem_cons.mp hitem with rfl | hitem
    · exact .str (Launcher.isText_chars _)
    · rw [List.mem_singleton.mp hitem]
      exact h

/-- A command that records build 7 as the candidate that is downloaded. -/
def downloading : Change (Stack.limits ⟨100, 100⟩) :=
  entering "downloading-candidate" "candidate_build" 7 (.int (by decide))

/-- A command that records build 7 as current. -/
def recorded : Change (Stack.limits ⟨100, 100⟩) :=
  entering "current" "current_build" 7 (.int (by decide))

/-- Two commands, of which the note is left alone and the candidate by the second one. -/
theorem updates_recorded : ∃ node' document',
    [downloading, recorded].foldlM (update ⟨100, 100⟩ 100 "update-state.json")
        (.regular (String.ofList annotatedFile).toByteArray) = .ok node' ∧
      loadNode ⟨100, 100⟩ "update-state.json" node' = .ok document' ∧
      ∀ key, (getItem document'.entries key).map Data.sorted =
        (lastWritten annotated.entries [downloading, recorded] key).map Data.sorted :=
  (@updates_iff ⟨100, 100⟩ 100 _ _ _ (by decide) (load_annotated _) [downloading, recorded]).mpr
    (by decide +kernel)

end Persistent

end PzServer
