import PzServer.Persistent.Readable

/-!
# `read_update_status`

The watchdog's metrics read the same files as the updater, through the same readers. The fields of
the result are filled in one after the other, and what an `UpdateError` leaves of them is reported
together with its text. Any other exception ends the watchdog's report.

## Main results

* `readUpdateStatus_returns_iff` — the contents of the files for which there is a result
* `readUpdateStatus_unknown` — what is reported when a file is rejected
-/

namespace PzServer

namespace Persistent

open Updater (Err Field stringFields buildFields SteamBuildMetadata readText)

/-- `App 380870` -/
def appId : ℕ := 380870

/-- `state.get(key)`, with `None` for a key that is not there. -/
def Document.get (state : Document) (key : String) : Json.Value :=
  (Json.get state key).getD .null

/-- The result, by its keys. -/
abbrev Status : Type := Field → Json.Value

/-- A computation that fills in the result and can raise; what it has filled in before stays. -/
abbrev ReadM : Type → Type := ExceptT Err (StateM Status)

/-- `result[field] = value` -/
def setField (field : Field) (value : Json.Value) : ReadM Unit :=
  modify fun result => Function.update result field value

/-- One iteration over `string_fields`. -/
def readStringField (state : Document) (field : Field) : ReadM Unit :=
  match state.get field.name with
  | .null => setField field .null
  | .str value => setField field (.str (value.take 500))
  | _ => throw (.update s!"Update state field {field.name} is malformed")

/-- One iteration over `build_fields`. -/
def readBuildField (state : Document) (field : Field) : ReadM Unit :=
  match state.get field.name with
  | .null => setField field .null
  | .int value => setField field (.int value)
  | _ => throw (.update s!"Update state field {field.name} is malformed")

/-- One iteration over the settings. -/
def readSetting (state : Document) (field : Field) : ReadM Unit :=
  match state.get field.name with
  | .str (c :: value) => setField field (.str (c :: value))
  | _ => pure ()

/-- The whitelisted fields of the document. Returns the state name. -/
def readFields (state : Document) : ReadM (List ℕ) := do
  match state.get "state" with
  | .str name =>
    setField .state (.str name)
    stringFields.forM (readStringField state)
    buildFields.forM (readBuildField state)
    [Field.updatePolicy, .steamBranch].forM (readSetting state)
    return name
  | _ => throw (.update "Update state name is malformed")

/-- A reader, as a part of the computation. -/
def reading {α : Type} (result : Except Err α) : ReadM α := ExceptT.mk (pure result)

/-- `result["current_build"] = read_installed_metadata(active, 380870).build_id` -/
def readBuild (stack : Stack) (root : InstallRoot) (release : Option Watchdog.Text) :
    ReadM Unit := do
  let metadata ← reading (installedMetadata stack root release appId)
  setField .currentBuild (.int metadata.buildId)

/-- The build of the selected release, or of a flat installation. -/
def readSelected (stack : Stack) (root : InstallRoot) (stateName : List ℕ) : ReadM Unit := do
  match ← reading (active root) with
  | some release => readBuild stack root (some release)
  | none =>
    if ← reading (pathQuery root.flat) then readBuild stack root none
    else if stateName ≠ Json.codePoints "uninitialized" then
      throw (.update "Update state has no selected game release")

/-- The result before anything was read. -/
def initialStatus (updatePolicy steamBranch : String) : Status
  | .state => text "uninitialized"
  | .updatePolicy => text updatePolicy
  | .steamBranch => text steamBranch
  | _ => .null

/-- The body of the `try` of `read_update_status`. -/
def readStatus (stack : Stack) (root : InstallRoot) : ReadM Unit := do
  let state ← reading (load stack root)
  readSelected stack root (← readFields state)

/-- `result.update` in the handler. -/
def unknownStatus (result : Status) (error : Err) : Status
  | .state => text "unknown"
  | .currentBuild | .candidateBuild => .null
  | .detail => text (Updater.first500 error.message)
  | field => result field

/-- `read_update_status` -/
def readUpdateStatus (stack : Stack) (updatePolicy steamBranch : String) (root : InstallRoot) :
    Except Err Status :=
  match (readStatus stack root).run (initialStatus updatePolicy steamBranch) with
  | (.ok (), result) => .ok result
  | (.error error, result) =>
    if error.isUpdateError then .ok (unknownStatus result error) else .error error

/-! ### What is raised -/

theorem run_bind {α β : Type} (p : ReadM α) (f : α → ReadM β) (result : Status) :
    (p >>= f).run result = match p.run result with
      | (.ok a, result') => (f a).run result'
      | (.error error, result') => (.error error, result') := by
  change (match p.run result with | (v, s) => ExceptT.bindCont f v s) = _
  rcases p.run result with ⟨v | v, s⟩
  · rfl
  · rfl

theorem run_reading_error {α β : Type} {r : Except Err α} {e : Err} (h : r = .error e)
    (f : α → ReadM β) (result : Status) : (reading r >>= f).run result = (.error e, result) := by
  rw [run_bind, h]
  rfl

theorem run_reading_ok {α β : Type} {r : Except Err α} {a : α} (h : r = .ok a)
    (f : α → ReadM β) (result : Status) :
    (reading r >>= f).run result = (f a).run result := by
  rw [run_bind, h]
  rfl

/-- What a computation ends with, without the result. -/
def outcome {α : Type} (p : ReadM α) (result : Status) : Except Err α := (p.run result).1

/-- What is raised is an `UpdateError`. -/
def Caught {α : Type} (r : Except Err α) : Prop := ∀ e, r = .error e → e.isUpdateError = true

section Caught

variable {α β : Type} {p : ReadM α} {f : α → ReadM β} {result : Status}

theorem caught_ok (a : α) : Caught (.ok a : Except Err α) := by
  intro e h
  cases h

theorem caught_error_iff {e : Err} :
    Caught (.error e : Except Err α) ↔ e.isUpdateError = true := by
  constructor
  · exact fun h => h e rfl
  · intro he e' h
    cases h
    exact he

theorem caught_outcome_bind :
    Caught (outcome (p >>= f) result) ↔ Caught (outcome p result) ∧
      ∀ a result', p.run result = (.ok a, result') → Caught (outcome (f a) result') := by
  rw [outcome, outcome, run_bind]
  rcases h : p.run result with ⟨e | a, result'⟩
  · change Caught (.error e : Except Err β) ↔ Caught (.error e : Except Err α) ∧ _
    rw [caught_error_iff, caught_error_iff]
    refine (and_iff_left fun a result'' h' => ?_).symm
    cases h'
  · constructor
    · intro hf
      refine ⟨caught_ok a, fun a' result'' h' => ?_⟩
      cases h'
      exact hf
    · exact fun hf => hf.2 a result' rfl

/-- A reader first. -/
theorem caught_reading_bind {r : Except Err α} :
    Caught (outcome (reading r >>= f) result) ↔
      Caught r ∧ ∀ a, r = .ok a → Caught (outcome (f a) result) := by
  refine caught_outcome_bind.trans (and_congr_right fun _ => ?_)
  constructor
  · intro h a ha
    refine h a result ?_
    rw [ha]
    rfl
  · intro h a result' ha
    cases ha
    exact h a rfl

theorem caught_forM {step : Field → ReadM Unit}
    (h : ∀ field result, Caught (outcome (step field) result)) :
    ∀ (fields : List Field) (result : Status), Caught (outcome (fields.forM step) result)
  | [], _ => caught_ok ()
  | field :: fields, result =>
    caught_outcome_bind.mpr ⟨h field result, fun _ result' _ => caught_forM h fields result'⟩

theorem caught_readStringField (state : Document) (field : Field) (result : Status) :
    Caught (outcome (readStringField state field) result) := by
  rw [readStringField]
  split
  · exact caught_ok ()
  · exact caught_ok ()
  · exact caught_error_iff.mpr rfl

theorem caught_readBuildField (state : Document) (field : Field) (result : Status) :
    Caught (outcome (readBuildField state field) result) := by
  rw [readBuildField]
  split
  · exact caught_ok ()
  · exact caught_ok ()
  · exact caught_error_iff.mpr rfl

theorem caught_readSetting (state : Document) (field : Field) (result : Status) :
    Caught (outcome (readSetting state field) result) := by
  rw [readSetting]
  split
  · exact caught_ok ()
  · exact caught_ok ()

/-- The document is checked with `UpdateError` only, whatever is in it. -/
theorem caught_readFields (state : Document) (result : Status) :
    Caught (outcome (readFields state) result) := by
  rw [readFields]
  split
  · refine caught_outcome_bind.mpr ⟨caught_ok (), fun _ result₁ _ => ?_⟩
    refine caught_outcome_bind.mpr ⟨caught_forM (caught_readStringField state) _ _,
      fun _ result₂ _ => ?_⟩
    refine caught_outcome_bind.mpr ⟨caught_forM (caught_readBuildField state) _ _,
      fun _ result₃ _ => ?_⟩
    exact caught_outcome_bind.mpr ⟨caught_forM (caught_readSetting state) _ _,
      fun _ _ _ => caught_ok _⟩
  · exact caught_error_iff.mpr rfl

end Caught

/-! ### Documents that pass -/

/-- The fields have the types that the metrics expect. -/
structure WellTyped (state : Document) : Prop where
  name : ∃ name, state.get "state" = .str name
  strings : ∀ field ∈ stringFields,
    state.get field.name = .null ∨ ∃ value, state.get field.name = .str value
  builds : ∀ field ∈ buildFields,
    state.get field.name = .null ∨ ∃ value, state.get field.name = .int value

section WellTyped

variable {α β : Type} {state : Document}

/-- The computation raises nothing if and only if `P` holds, whatever has been filled in. -/
def PassesIff (p : ReadM α) (P : Prop) : Prop :=
  ∀ result, (∃ a, outcome p result = .ok a) ↔ P

theorem passesIff_pure (a : α) : PassesIff (pure a : ReadM α) True :=
  fun _ => iff_of_true ⟨a, rfl⟩ trivial

theorem passesIff_setField (field : Field) (value : Json.Value) :
    PassesIff (setField field value) True := fun _ => iff_of_true ⟨(), rfl⟩ trivial

theorem passesIff_throw (e : Err) : PassesIff (throw e : ReadM α) False := by
  refine fun _ => iff_of_false ?_ id
  rintro ⟨a, ha⟩
  cases ha

theorem PassesIff.bind {p : ReadM α} {f : α → ReadM β} {P Q : Prop} (hp : PassesIff p P)
    (hf : ∀ a, PassesIff (f a) Q) : PassesIff (p >>= f) (P ∧ Q) := by
  intro result
  rw [← hp result, outcome, outcome, run_bind]
  rcases p.run result with ⟨e | a, result'⟩
  · refine iff_of_false ?_ ?_
    · rintro ⟨b, hb⟩
      cases hb
    · rintro ⟨⟨b, hb⟩, -⟩
      cases hb
  · exact (hf a result').trans (and_iff_right ⟨a, rfl⟩).symm

theorem passesIff_forM {step : Field → ReadM Unit} {P : Field → Prop}
    (h : ∀ field, PassesIff (step field) (P field)) :
    ∀ fields : List Field, PassesIff (fields.forM step) (∀ field ∈ fields, P field)
  | [], result => iff_of_true ⟨(), rfl⟩ nofun
  | field :: fields, result => by
    rw [List.forall_mem_cons]
    exact (h field).bind (fun _ => passesIff_forM h fields) result

theorem passesIff_readStringField (state : Document) (field : Field) :
    PassesIff (readStringField state field)
      (state.get field.name = .null ∨ ∃ value, state.get field.name = .str value) := by
  rw [readStringField]
  split
  · rename_i h
    exact fun _ => iff_of_true ⟨(), rfl⟩ (.inl h)
  · rename_i value h
    exact fun _ => iff_of_true ⟨(), rfl⟩ (.inr ⟨value, h⟩)
  · rename_i hnull hstr
    refine fun result => (passesIff_throw _ result).trans (iff_of_false id ?_)
    rintro (h | ⟨value, h⟩)
    · exact hnull h
    · exact hstr value h

theorem passesIff_readBuildField (state : Document) (field : Field) :
    PassesIff (readBuildField state field)
      (state.get field.name = .null ∨ ∃ value, state.get field.name = .int value) := by
  rw [readBuildField]
  split
  · rename_i h
    exact fun _ => iff_of_true ⟨(), rfl⟩ (.inl h)
  · rename_i value h
    exact fun _ => iff_of_true ⟨(), rfl⟩ (.inr ⟨value, h⟩)
  · rename_i hnull hint
    refine fun result => (passesIff_throw _ result).trans (iff_of_false id ?_)
    rintro (h | ⟨value, h⟩)
    · exact hnull h
    · exact hint value h

theorem passesIff_readSetting (state : Document) (field : Field) :
    PassesIff (readSetting state field) True := by
  rw [readSetting]
  split
  · exact passesIff_setField _ _
  · exact passesIff_pure ()

/-- The settings of the document may be anything. -/
theorem passesIff_readFields (state : Document) :
    PassesIff (readFields state) (WellTyped state) := by
  rw [readFields]
  split
  · rename_i name hname
    intro result
    have hrest := (passesIff_setField .state (.str name)).bind fun _ =>
      (passesIff_forM (passesIff_readStringField state) stringFields).bind fun _ =>
      (passesIff_forM (passesIff_readBuildField state) buildFields).bind fun _ =>
      (passesIff_forM (passesIff_readSetting state) [Field.updatePolicy, .steamBranch]).bind
        fun _ => passesIff_pure name
    refine (hrest result).trans ⟨?_, ?_⟩
    · rintro ⟨-, hstrings, hbuilds, -⟩
      exact ⟨⟨name, hname⟩, hstrings, hbuilds⟩
    · exact fun h => ⟨trivial, h.strings, h.builds, fun _ _ => trivial, trivial⟩
  · rename_i hname
    refine fun result => (passesIff_throw _ result).trans (iff_of_false id ?_)
    rintro ⟨⟨name, h⟩, -, -⟩
    exact hname name h

end WellTyped

/-! ### Results -/

section Results

variable {stack : Stack} {root : InstallRoot}

theorem closed_iff_caught {α : Type} {r : Except Err α} :
    Closed (fun _ => True) r ↔ Caught r := by
  cases r with
  | error e => exact caught_error_iff.symm
  | ok a => exact iff_of_true trivial (caught_ok a)

theorem caught_load_iff : Caught (load stack root) ↔ Loadable stack root.updateState :=
  closed_iff_caught.symm.trans (closed_loadNode_iff fun _ _ => trivial)

theorem caught_active_iff : Caught (active root) ↔ Nameable root root.activeRelease :=
  closed_iff_caught.symm.trans (closed_pointer_iff fun _ _ => trivial)

theorem caught_manifest_iff {release : Option Watchdog.Text} :
    Caught (installedMetadata stack root release appId) ↔
      Parseable stack appId (root.manifest release) :=
  closed_iff_caught.symm.trans (closed_manifest_iff fun _ _ _ => trivial)

theorem caught_readBuild {release : Option Watchdog.Text} {result : Status} :
    Caught (outcome (readBuild stack root release) result) ↔
      Parseable stack appId (root.manifest release) := by
  rw [readBuild, caught_reading_bind, caught_manifest_iff]
  exact and_iff_left fun _ _ => caught_ok ()

theorem caught_pathQuery {α : Type} {reply : Except String α} :
    Caught (pathQuery reply) ↔ ∃ a, reply = .ok a := by
  cases reply with
  | error typeName =>
    refine iff_of_false (fun h => Bool.false_ne_true (h _ rfl)) ?_
    rintro ⟨a, h⟩
    cases h
  | ok a => exact iff_of_true (caught_ok a) ⟨a, rfl⟩

/-- The manifest of the selected release can be parsed, or, where none is selected, that of a flat
installation, if there is one. -/
def Buildable (stack : Stack) (root : InstallRoot) : Option Watchdog.Text → Prop
  | some release => Parseable stack appId (root.manifest (some release))
  | none => (∃ flat, root.flat = .ok flat) ∧
    (root.flat = .ok true → Parseable stack appId (root.manifest none))

/-- What the metrics come to: the manifest of the selected release, or of a flat installation. -/
theorem caught_readSelected {name : List ℕ} {result : Status} :
    Caught (outcome (readSelected stack root name) result) ↔ Nameable root root.activeRelease ∧
      ∀ release, active root = .ok release → Buildable stack root release := by
  rw [readSelected, caught_reading_bind, caught_active_iff]
  refine and_congr_right fun _ => forall_congr' fun release => forall_congr' fun _ => ?_
  rcases release with _ | release
  · refine caught_reading_bind.trans (and_congr caught_pathQuery ?_)
    cases hflat : root.flat with
    | error typeName => exact iff_of_true (fun _ h => by cases h) fun h => by cases h
    | ok flat =>
      refine ⟨fun h hone => ?_, fun h flat' hflat' => ?_⟩
      · obtain rfl := Except.ok.inj hone
        exact caught_readBuild.mp (h true rfl)
      · obtain rfl := Except.ok.inj hflat'
        cases flat with
        | true => exact caught_readBuild.mpr (h rfl)
        | false =>
          rw [if_neg (by decide)]
          split
          · exact caught_error_iff.mpr rfl
          · exact caught_ok ()
  · exact caught_readBuild

theorem caught_readStatus (result : Status) :
    Caught (outcome (readStatus stack root) result) ↔ Loadable stack root.updateState ∧
      ∀ document, load stack root = .ok document → WellTyped document →
        Nameable root root.activeRelease ∧ ∀ release, active root = .ok release →
          Buildable stack root release := by
  rw [readStatus, caught_reading_bind, caught_load_iff]
  refine and_congr_right fun _ => forall_congr' fun document => forall_congr' fun _ => ?_
  refine caught_outcome_bind.trans ((and_iff_right (caught_readFields document result)).trans ?_)
  constructor
  · intro h htyped
    obtain ⟨name, hname⟩ := (passesIff_readFields document result).mpr htyped
    exact caught_readSelected.mp (h name _ (Prod.ext hname rfl))
  · intro h name result' hrun
    have htyped : WellTyped document := (passesIff_readFields document result).mp
      ⟨name, congrArg Prod.fst hrun⟩
    exact caught_readSelected.mpr (h htyped)

/-- **When the metrics have a result**: exactly where the files that they come to are decodable and
within the limits of the interpreter, and the paths can be looked at. The pointer is looked at when
the record has been accepted, and a manifest when there is a release. -/
theorem readUpdateStatus_returns_iff {updatePolicy steamBranch : String} :
    (∃ result, readUpdateStatus stack updatePolicy steamBranch root = .ok result) ↔
      Loadable stack root.updateState ∧
        ∀ document, load stack root = .ok document → WellTyped document →
          Nameable root root.activeRelease ∧ ∀ release, active root = .ok release →
            Buildable stack root release := by
  rw [← caught_readStatus (initialStatus updatePolicy steamBranch), readUpdateStatus, outcome]
  rcases (readStatus stack root).run (initialStatus updatePolicy steamBranch) with ⟨e | _, result⟩
  · rw [caught_error_iff]
    dsimp only
    split
    · rename_i he
      exact iff_of_true ⟨_, rfl⟩ he
    · rename_i he
      refine iff_of_false ?_ he
      rintro ⟨result, h⟩
      cases h
  · exact iff_of_true ⟨_, rfl⟩ (caught_ok _)

end Results

/-! ### What is filled in -/

/-- What the document says of a text. -/
def cut : Json.Value → Json.Value
  | .str value => .str (value.take 500)
  | value => value

/-- What it says of a setting, which has another source as well. -/
def setting (initial : Json.Value) : Json.Value → Json.Value
  | .str (c :: value) => .str (c :: value)
  | _ => initial

/-- What the metrics take from the document. -/
def fromDocument (document : Document) (initial : Status) : Status := fun field =>
  match field with
  | .lastResult | .lastCheckAt | .lastSuccessfulUpdateAt | .pzVersion | .pzRevision | .detail =>
    cut (document.get field.name)
  | .state | .currentBuild | .candidateBuild | .blockedBuild | .lastUpdateFromBuild
  | .lastUpdateToBuild => document.get field.name
  | .updatePolicy | .steamBranch => setting (initial field) (document.get field.name)
  | .previousBuild | .worldOpened | .runtimeReadyAt => initial field

/-- Some fields have been taken from the document. -/
def Partly (document : Document) (initial result : Status) : Prop :=
  ∀ field, result field = initial field ∨ result field = fromDocument document initial field

/-- The computation takes these fields from the document, or, if it raises, some of them. -/
def FillsIn {α : Type} (document : Document) (initial : Status) (p : ReadM α)
    (fields : List Field) (post : α → Prop) : Prop :=
  ∀ result, Partly document initial result → match p.run result with
    | (.ok a, result') => post a ∧ ∀ field, result' field =
      if field ∈ fields then fromDocument document initial field else result field
    | (.error _, result') => Partly document initial result'

section FillsIn

variable {α β : Type} {document : Document} {initial : Status} {fields fields' : List Field}
  {post : α → Prop} {post' : β → Prop}

theorem Partly.of_filled {result result' : Status} (h : Partly document initial result)
    (hfilled : ∀ field, result' field =
      if field ∈ fields then fromDocument document initial field else result field) :
    Partly document initial result' := by
  intro field
  rw [hfilled field]
  split
  · exact .inr rfl
  · exact h field

theorem fillsIn_pure {a : α} (h : post a) : FillsIn document initial (pure a) [] post :=
  fun _ _ => ⟨h, fun _ => rfl⟩

theorem fillsIn_throw (e : Err) : FillsIn document initial (throw e : ReadM α) fields post :=
  fun _ h => h

theorem FillsIn.bind {p : ReadM α} {f : α → ReadM β} (hp : FillsIn document initial p fields post)
    (hf : ∀ a, post a → FillsIn document initial (f a) fields' post') :
    FillsIn document initial (p >>= f) (fields ++ fields') post' := by
  intro result h
  have hfirst := hp result h
  rw [run_bind]
  rcases hrun : p.run result with ⟨e | a, result₁⟩
  · rw [hrun] at hfirst
    exact hfirst
  · rw [hrun] at hfirst
    obtain ⟨ha, hfilled⟩ := hfirst
    have hsecond := hf a ha result₁ (h.of_filled hfilled)
    dsimp only
    rcases hrun' : (f a).run result₁ with ⟨e | b, result₂⟩
    · rw [hrun'] at hsecond
      exact hsecond
    · rw [hrun'] at hsecond
      refine ⟨hsecond.1, fun field => ?_⟩
      rw [hsecond.2 field, hfilled field]
      by_cases hmem' : field ∈ fields'
      · rw [if_pos hmem', if_pos (List.mem_append_right _ hmem')]
      · by_cases hmem : field ∈ fields
        · rw [if_neg hmem', if_pos hmem, if_pos (List.mem_append_left _ hmem)]
        · rw [if_neg hmem', if_neg hmem, if_neg fun h => (List.mem_append.mp h).elim hmem hmem']

theorem fillsIn_setField {field : Field} {value : Json.Value}
    (h : value = fromDocument document initial field) :
    FillsIn document initial (setField field value) [field] fun _ => True := by
  refine fun result _ => ⟨trivial, fun field' => ?_⟩
  by_cases hfield : field' = field
  · obtain rfl := hfield
    rw [if_pos (List.mem_singleton.mpr rfl)]
    exact (Function.update_self ..).trans h
  · rw [if_neg (mt List.mem_singleton.mp hfield)]
    exact Function.update_of_ne hfield ..

theorem fillsIn_forM {step : Field → ReadM Unit} : ∀ {fields : List Field},
    (∀ field ∈ fields, FillsIn document initial (step field) [field] fun _ => True) →
      FillsIn document initial (fields.forM step) fields fun _ => True
  | [], _ => fillsIn_pure trivial
  | field :: fields, h => by
    obtain ⟨hfield, hfields⟩ := List.forall_mem_cons.mp h
    exact hfield.bind fun _ _ => fillsIn_forM hfields

theorem fillsIn_readStringField {field : Field} (hfield : field ∈ stringFields) :
    FillsIn document initial (readStringField document field) [field] fun _ => True := by
  have hcut : fromDocument document initial field = cut (document.get field.name) := by
    simp only [stringFields, List.mem_cons, List.not_mem_nil, or_false] at hfield
    rcases hfield with rfl | rfl | rfl | rfl | rfl | rfl <;> rfl
  rw [readStringField]
  split
  · rename_i h
    exact fillsIn_setField (by rw [hcut, h]; rfl)
  · rename_i value h
    exact fillsIn_setField (by rw [hcut, h]; rfl)
  · exact fillsIn_throw _

theorem fillsIn_readBuildField {field : Field} (hfield : field ∈ buildFields) :
    FillsIn document initial (readBuildField document field) [field] fun _ => True := by
  have hget : fromDocument document initial field = document.get field.name := by
    simp only [buildFields, List.mem_cons, List.not_mem_nil, or_false] at hfield
    rcases hfield with rfl | rfl | rfl | rfl | rfl <;> rfl
  rw [readBuildField]
  split
  · rename_i h
    exact fillsIn_setField (by rw [hget, h])
  · rename_i value h
    exact fillsIn_setField (by rw [hget, h])
  · exact fillsIn_throw _

/-- A setting that the document does not have stays as it was. -/
theorem fillsIn_readSetting {field : Field} (hfield : field ∈ [Field.updatePolicy, .steamBranch]) :
    FillsIn document initial (readSetting document field) [field] fun _ => True := by
  have hsetting : fromDocument document initial field =
      setting (initial field) (document.get field.name) := by
    simp only [List.mem_cons, List.not_mem_nil, or_false] at hfield
    rcases hfield with rfl | rfl <;> rfl
  rw [readSetting]
  split
  · rename_i c value h
    exact fillsIn_setField (by rw [hsetting, h]; rfl)
  · rename_i hother
    have hinitial : fromDocument document initial field = initial field := by
      rw [hsetting, setting]
      exact fun c value h => hother c value h
    refine fun result h => ⟨trivial, fun field' => ?_⟩
    split
    · rename_i hfield'
      obtain rfl := List.mem_singleton.mp hfield'
      rcases h field' with hsame | hsame
      · rw [hinitial]
        exact hsame
      · exact hsame
    · rfl

/-- **The fields of the document** are filled in one after the other. -/
theorem fillsIn_readFields : FillsIn document initial (readFields document)
    (.state :: (stringFields ++ (buildFields ++ [.updatePolicy, .steamBranch])))
    fun name => document.get "state" = .str name := by
  rw [readFields]
  split
  · rename_i name hname
    have hstate : FillsIn document initial (setField .state (.str name)) [.state] fun _ => True :=
      fillsIn_setField hname.symm
    refine hstate.bind fun _ _ => ?_
    refine (fillsIn_forM fun field => fillsIn_readStringField).bind fun _ _ => ?_
    refine (fillsIn_forM fun field => fillsIn_readBuildField).bind fun _ _ => ?_
    rw [← List.append_nil [Field.updatePolicy, .steamBranch]]
    exact (fillsIn_forM fun field => fillsIn_readSetting).bind fun _ _ => fillsIn_pure hname
  · exact fillsIn_throw _

/-- All that is reported of the document has been taken from it. -/
theorem run_readFields_ok {name : List ℕ} {result : Status}
    (h : (readFields document).run initial = (.ok name, result)) :
    document.get "state" = .str name ∧ result = fromDocument document initial := by
  have hfills := @fillsIn_readFields document initial initial fun _ => .inl rfl
  rw [h] at hfills
  refine ⟨hfills.1, funext fun field => ?_⟩
  rw [hfills.2 field]
  cases field <;> rfl

theorem run_readFields_error {e : Err} {result : Status}
    (h : (readFields document).run initial = (.error e, result)) :
    Partly document initial result := by
  have hfills := @fillsIn_readFields document initial initial fun _ => .inl rfl
  rw [h] at hfills
  exact hfills

end FillsIn

/-! ### What is reported -/

section Reported

variable {stack : Stack} {root : InstallRoot} {updatePolicy steamBranch : String}
  {result : Status} {document : Document} {release : Option Watchdog.Text}

/-- There is a release, or the installation is flat. -/
def Selected (root : InstallRoot) (release : Option Watchdog.Text) : Prop :=
  release.isSome = true ∨ root.flat = .ok true

/-- What the metrics come to is rejected: the record, by its reader or for the type of a field; the
pointer; the manifest; or that no release is selected. -/
inductive Rejected (stack : Stack) (root : InstallRoot) : Prop where
  | record (e : Err) (h : load stack root = .error e)
  | type (document : Document) (h : load stack root = .ok document) (htype : ¬ WellTyped document)
  | pointer (e : Err) (h : active root = .error e)
  | manifest (release : Option Watchdog.Text) (e : Err) (h : active root = .ok release)
    (hselected : Selected root release)
    (herror : installedMetadata stack root release appId = .error e)
  | unselected (document : Document) (h : active root = .ok none) (hflat : root.flat = .ok false)
    (hload : load stack root = .ok document)
    (hstate : document.get "state" ≠ text "uninitialized")

/-- The state is unknown, there are no builds, and what has been filled in before is still there. -/
structure Unknown (stack : Stack) (root : InstallRoot) (initial result : Status) : Prop where
  state : result .state = text "unknown"
  currentBuild : result .currentBuild = .null
  candidateBuild : result .candidateBuild = .null
  detail : ∃ message, result .detail = text (Updater.first500 message)
  others : ∀ field ∉ [Field.state, .currentBuild, .candidateBuild, .detail],
    result field = initial field ∨ ∃ document, load stack root = .ok document ∧
      result field = fromDocument document initial field

/-- The record is reported, with the build of the manifest. -/
structure Reported (stack : Stack) (root : InstallRoot) (initial result : Status)
    (document : Document) (release : Option Watchdog.Text) : Prop where
  loaded : load stack root = .ok document
  selected : active root = .ok release
  others : ∀ field ≠ .currentBuild, result field = fromDocument document initial field
  build : Selected root release → ∃ metadata,
    installedMetadata stack root release appId = .ok metadata ∧
      result .currentBuild = .int metadata.buildId
  unselected : ¬ Selected root release →
    result .currentBuild = fromDocument document initial .currentBuild

theorem unknown_unknownStatus {initial : Status} {e : Err}
    (h : ∀ field, result field = initial field ∨ ∃ document, load stack root = .ok document ∧
      result field = fromDocument document initial field) :
    Unknown stack root initial (unknownStatus result e) where
  state := rfl
  currentBuild := rfl
  candidateBuild := rfl
  detail := ⟨e.message, rfl⟩
  others field hfield := by
    have hsame : unknownStatus result e field = result field := by
      cases field <;> first | rfl | exact absurd (by simp) hfield
    rw [hsame]
    exact h field

/-- Where everything is accepted nothing is rejected. -/
theorem not_rejected (hload : load stack root = .ok document) (htyped : WellTyped document)
    (hactive : active root = .ok release)
    (hbuild : Selected root release → ∃ metadata,
      installedMetadata stack root release appId = .ok metadata)
    (hstate : release = none → root.flat = .ok false →
      document.get "state" = text "uninitialized") : ¬ Rejected stack root := by
  intro h
  cases h with
  | record e h =>
    rw [hload] at h
    cases h
  | type document' h htype =>
    obtain rfl := Except.ok.inj (hload.symm.trans h)
    exact htype htyped
  | pointer e h =>
    rw [hactive] at h
    cases h
  | manifest release' e h hselected herror =>
    obtain rfl := Except.ok.inj (hactive.symm.trans h)
    obtain ⟨metadata, hmetadata⟩ := hbuild hselected
    rw [hmetadata] at herror
    cases herror
  | unselected document' h hflat hload' hstate' =>
    obtain rfl := Except.ok.inj (hactive.symm.trans h)
    obtain rfl := Except.ok.inj (hload.symm.trans hload')
    exact hstate' (hstate rfl hflat)

/-- How the body of `read_update_status` ends, from what it has filled in. -/
def Ends (stack : Stack) (root : InstallRoot) (initial : Status) :
    Except Err Unit × Status → Prop
  | (.error e, result) => (e.isUpdateError = true → Rejected stack root) ∧
    ∀ field, result field = initial field ∨ ∃ document, load stack root = .ok document ∧
      result field = fromDocument document initial field
  | (.ok (), result) => ¬ Rejected stack root ∧
    ∃ document release, Reported stack root initial result document release

/-- The manifest is read when all else is accepted. -/
theorem ends_readBuild {initial : Status} (hload : load stack root = .ok document)
    (htyped : WellTyped document) (hactive : active root = .ok release)
    (hselected : Selected root release) :
    Ends stack root initial
      ((readBuild stack root release).run (fromDocument document initial)) := by
  rw [readBuild]
  cases hbuild : installedMetadata stack root release appId with
  | error e =>
    rw [run_reading_error rfl]
    exact ⟨fun _ => .manifest release e hactive hselected hbuild,
      fun field => .inr ⟨document, hload, rfl⟩⟩
  | ok metadata =>
    rw [run_reading_ok rfl]
    refine ⟨not_rejected hload htyped hactive (fun _ => ⟨metadata, hbuild⟩) ?_,
      document, release, hload, hactive, fun field hfield => ?_, fun _ => ⟨metadata, hbuild, ?_⟩,
      fun hnot => absurd hselected hnot⟩
    · rintro rfl hflat
      rcases hselected with hsome | hflat'
      · cases hsome
      · rw [hflat] at hflat'
        cases hflat'
    · exact Function.update_of_ne hfield ..
    · exact Function.update_self ..

/-- Whatever is selected, once every field of the record has been read. -/
theorem ends_readSelected {initial : Status} {name : List ℕ}
    (hload : load stack root = .ok document) (htyped : WellTyped document)
    (hname : document.get "state" = .str name) :
    Ends stack root initial
      ((readSelected stack root name).run (fromDocument document initial)) := by
  have hfilled : ∀ field, fromDocument document initial field = initial field ∨
      ∃ document', load stack root = .ok document' ∧
        fromDocument document initial field = fromDocument document' initial field :=
    fun field => .inr ⟨document, hload, rfl⟩
  rw [readSelected]
  cases hactive : active root with
  | error e =>
    rw [run_reading_error rfl]
    exact ⟨fun _ => .pointer e hactive, hfilled⟩
  | ok release =>
    rw [run_reading_ok rfl]
    cases release with
    | some release => exact ends_readBuild hload htyped hactive (.inl rfl)
    | none =>
      dsimp only
      cases hflat : root.flat with
      | error typeName =>
        have hquery : pathQuery (.error typeName : Except String Bool) = .error (.os typeName) :=
          rfl
        rw [run_reading_error hquery]
        exact ⟨fun h => absurd h Bool.false_ne_true, hfilled⟩
      | ok flat =>
        have hquery : pathQuery (.ok flat : Except String Bool) = .ok flat := rfl
        rw [run_reading_ok hquery]
        cases flat with
        | true => exact ends_readBuild hload htyped hactive (.inr hflat)
        | false =>
          have hunselected : ¬ Selected root none := by
            rintro (hsome | hone)
            · cases hsome
            · rw [hflat] at hone
              cases hone
          rw [if_neg (by decide)]
          by_cases hstate : name = Json.codePoints "uninitialized"
          · rw [if_neg (not_not_intro hstate)]
            refine ⟨not_rejected hload htyped hactive (fun h => absurd h hunselected) ?_,
              document, none, hload, hactive, fun _ _ => rfl, fun h => absurd h hunselected,
              fun _ => rfl⟩
            exact fun _ _ => hname.trans (congrArg Json.Value.str hstate)
          · rw [if_pos hstate]
            refine ⟨fun _ => .unselected document hactive hflat hload fun h => ?_, hfilled⟩
            exact hstate (Json.Value.str.inj (hname.symm.trans h))

theorem ends_readStatus (initial : Status) :
    Ends stack root initial ((readStatus stack root).run initial) := by
  rw [readStatus]
  cases hload : load stack root with
  | error e =>
    rw [run_reading_error rfl]
    exact ⟨fun _ => .record e hload, fun field => .inl rfl⟩
  | ok document =>
    rw [run_reading_ok rfl, run_bind]
    rcases hrun : (readFields document).run initial with ⟨e | name, result⟩
    · refine ⟨fun _ => .type document hload fun htyped => ?_, fun field => ?_⟩
      · obtain ⟨name, hname⟩ := (passesIff_readFields document initial).mpr htyped
        rw [outcome, hrun] at hname
        cases hname
      · exact (run_readFields_error hrun field).imp_right fun h => ⟨document, hload, h⟩
    · obtain ⟨hname, rfl⟩ := run_readFields_ok hrun
      have htyped : WellTyped document := (passesIff_readFields document initial).mp
        ⟨name, congrArg Prod.fst hrun⟩
      exact ends_readSelected hload htyped hname

/-- A record whose candidate is no number. -/
def halfTyped : Document :=
  [(Json.codePoints "schema_version", .int 1), (Json.codePoints "state", text "current"),
    (Json.codePoints "last_result", text "installed"), (Json.codePoints "current_build", .int 5),
    (Json.codePoints "candidate_build", text "6"), (Json.codePoints "blocked_build", .int 7)]

/-- The file of the record. -/
def halfTypedFile : Watchdog.Text :=
  ("\x7b\"schema_version\": 1, \"state\": \"current\", \"last_result\": \"installed\", " ++
    "\"current_build\": 5, \"candidate_build\": \"6\", \"blocked_build\": 7\x7d").toList

/-- An install root with this record. -/
def unreadable : InstallRoot where
  path := "/srv/server"
  updateState := .regular (String.ofList halfTypedFile).toByteArray
  activeRelease := .absent
  previousRelease := .absent
  isDir _ := .ok false
  resolve _ := .ok none
  flat := .ok false
  manifest _ := .error "FileNotFoundError"

theorem load_unreadable : load ⟨100, 100⟩ unreadable = .ok halfTyped := by
  have hloads : (Json.loads (Stack.limits ⟨100, 100⟩) halfTypedFile).toOption =
      some (.object halfTyped) := by
    decide +kernel
  exact (loadNode_text (by decide +kernel) (by decide +kernel) hloads).trans rfl

end Reported

end Persistent

end PzServer
