import PzServer.Updater.Runs

/-!
# The two readers of the update state

`GameUpdater.status` reads the record for the operator, and `read_update_status` reads it for the
watchdog's metrics. They were written independently: each checks other fields, and each has its own
way to the current build. Both read the record as JSON, so the record is turned into a dictionary
first, and the checks of the source are made on that.

The readers agree where a release is active, and before anything was recorded. Where the record
says more and no release is active, as during a first installation and after a failed one, the
metrics report `unknown` on purpose, and `status` the recorded name.

## Main results

* `UpdaterHistory.readers_agree_iff` — when the readers agree
* `UpdaterHistory.readers_differ` — they do not after a failed first installation
-/

namespace PzServer

namespace Updater

open Interaction

variable {d : Disk} {c : UpdateConfiguration}

/-! ### The record as JSON -/

/-- A JSON value, of the kinds the record holds. -/
inductive Scalar where
  | null
  | bool (value : Bool)
  | int (value : ℕ)
  | str (value : String)
  deriving DecidableEq, Repr

namespace Scalar

def ofBuild : Option ℕ → Scalar
  | none => null
  | some build => int build

def ofText : Option String → Scalar
  | none => null
  | some text => str text

def ofBool : Option Bool → Scalar
  | none => null
  | some value => bool value

end Scalar

/-- The fields that a reader looks at. -/
inductive Field where
  | state
  | currentBuild
  | previousBuild
  | candidateBuild
  | blockedBuild
  | lastResult
  | lastUpdateFromBuild
  | lastUpdateToBuild
  | detail
  | lastCheckAt
  | lastSuccessfulUpdateAt
  | pzVersion
  | pzRevision
  | worldOpened
  | runtimeReadyAt
  | updatePolicy
  | steamBranch
  deriving DecidableEq, Repr

/-- The key of a field. -/
def Field.name : Field → String
  | state => "state"
  | currentBuild => "current_build"
  | previousBuild => "previous_build"
  | candidateBuild => "candidate_build"
  | blockedBuild => "blocked_build"
  | lastResult => "last_result"
  | lastUpdateFromBuild => "last_update_from_build"
  | lastUpdateToBuild => "last_update_to_build"
  | detail => "detail"
  | lastCheckAt => "last_check_at"
  | lastSuccessfulUpdateAt => "last_successful_update_at"
  | pzVersion => "pz_version"
  | pzRevision => "pz_revision"
  | worldOpened => "world_opened"
  | runtimeReadyAt => "runtime_ready_at"
  | updatePolicy => "update_policy"
  | steamBranch => "steam_branch"

/-- A dictionary, read with `get`. -/
abbrev Dict : Type := Field → Scalar

/-- The text of a state name. -/
def StateName.text : StateName → String
  | uninitialized => "uninitialized"
  | current => "current"
  | downloadingCandidate => "downloading-candidate"
  | promotingCandidate => "promoting-candidate"
  | activating => "activating"
  | pendingReadiness => "pending-readiness"
  | startingCandidate => "starting-candidate"
  | runtimeReady => "runtime-ready"
  | failedAfterWorldOpen => "failed-after-world-open"
  | failedBeforeWorldOpen => "failed-before-world-open"

/-- The text of a result. -/
def LastResult.text : LastResult → String
  | noUpdate => "no-update"
  | installed => "installed"
  | updated => "updated"
  | candidateActivated => "candidate-activated"
  | candidateInterrupted => "candidate-interrupted"
  | activationFailed => "activation-failed"
  | readinessFailed => "readiness-failed"
  | repositoryDeploySuppressed => "repository-deploy-suppressed"
  | manualPolicy => "manual-policy"
  | blockedMods => "blocked-mods"
  | metadataQueryFailed => "metadata-query-failed"
  | downgradeBlocked => "downgrade-blocked"
  | updatePreconditionFailed => "update-precondition-failed"
  | candidateDownloadFailed => "candidate-download-failed"
  | candidateIncompatible => "candidate-incompatible"
  | candidateValidationFailed => "candidate-validation-failed"
  | backupFailed => "backup-failed"
  | promotionFailed => "promotion-failed"

/-- What `json.loads` makes of the record. -/
def Record.dict (r : Record) : Dict
  | .state => .str r.state.text
  | .currentBuild => .ofBuild r.currentBuild
  | .previousBuild => .ofBuild r.previousBuild
  | .candidateBuild => .ofBuild r.candidateBuild
  | .blockedBuild => .ofBuild r.blockedBuild
  | .lastResult => .ofText (r.lastResult.map LastResult.text)
  | .lastUpdateFromBuild => .ofBuild r.lastUpdateFromBuild
  | .lastUpdateToBuild => .ofBuild r.lastUpdateToBuild
  | .detail => .ofText r.detail
  | .lastCheckAt => .ofText r.lastCheckAt
  | .lastSuccessfulUpdateAt => .ofText r.lastSuccessfulUpdateAt
  | .pzVersion => .ofText r.pzVersion
  | .pzRevision => .ofText r.pzRevision
  | .worldOpened => .ofBool r.worldOpened
  | .runtimeReadyAt => .ofText r.runtimeReadyAt
  | .updatePolicy => .ofText r.updatePolicy
  | .steamBranch => .ofText r.steamBranch

/-! ### `GameUpdater.status` -/

/-- `GameUpdater.status` -/
def status (c : UpdateConfiguration) (d : Disk) : Except Err Dict := do
  let state := d.loaded.dict
  let active ← d.readPointer "active-release" d.active .ok
  let state := match active with
    | none => state
    | some release => match d.readInstalled release .ok with
      | .ok metadata => Function.update state .currentBuild (.int metadata.buildId)
      | .error _ =>
        Function.update (Function.update state .currentBuild .null) .state (.str "unknown")
  return fun
    | .updatePolicy => .str c.policy.value
    | .steamBranch => .str c.steamBranch
    | field => state field

/-! ### `read_update_status` -/

/-- A computation that fills in the result and can raise an `UpdateError`; what it has filled in
before stays. -/
abbrev ReadM : Type → Type := ExceptT Err (StateM Dict)

/-- `result[field] = value` -/
def setField (field : Field) (value : Scalar) : ReadM Unit :=
  modify fun result => Function.update result field value

def stringFields : List Field :=
  [.lastResult, .lastCheckAt, .lastSuccessfulUpdateAt, .pzVersion, .pzRevision, .detail]

def buildFields : List Field :=
  [.currentBuild, .candidateBuild, .blockedBuild, .lastUpdateFromBuild, .lastUpdateToBuild]

/-- One iteration over `string_fields`. -/
def readStringField (state : Dict) (field : Field) : ReadM Unit :=
  match state field with
  | .null => setField field .null
  | .str value => setField field (.str (first500 value))
  | _ => throw (.update s!"Update state field {field.name} is malformed")

/-- One iteration over `build_fields`. -/
def readBuildField (state : Dict) (field : Field) : ReadM Unit :=
  match state field with
  | .null => setField field .null
  | .int value => setField field (.int value)
  | _ => throw (.update s!"Update state field {field.name} is malformed")

/-- One iteration over the settings. -/
def readSetting (state : Dict) (field : Field) : ReadM Unit :=
  match state field with
  | .str value => if value = "" then pure () else setField field (.str value)
  | _ => pure ()

/-- The whitelisted fields of the record. Returns the state name. -/
def readFields (state : Dict) : ReadM String := do
  match state .state with
  | .str name =>
    setField .state (.str name)
    stringFields.forM (readStringField state)
    buildFields.forM (readBuildField state)
    [Field.updatePolicy, .steamBranch].forM (readSetting state)
    return name
  | _ => throw (.update "Update state name is malformed")

/-- The build of the selected release. `flat` is the manifest of a flat installation, where
`start-server.sh` is in the install root itself. -/
def readSelected (flat : Option (Option SteamBuildMetadata)) (d : Disk) (stateName : String) :
    ReadM Unit := do
  match ← ExceptT.mk (pure (d.readPointer "active-release" d.active .ok)) with
  | some release =>
    let metadata ← ExceptT.mk (pure (d.readInstalled release .ok))
    setField .currentBuild (.int metadata.buildId)
  | none =>
    match flat with
    | some (some metadata) => setField .currentBuild (.int metadata.buildId)
    | some none => throw (.update "Installed Steam manifest is missing")
    | none =>
      if stateName ≠ "uninitialized" then
        throw (.update "Update state has no selected game release")

/-- The result before anything was read. -/
def initialStatus (updatePolicy steamBranch : String) : Dict
  | .state => .str "uninitialized"
  | .updatePolicy => .str updatePolicy
  | .steamBranch => .str steamBranch
  | _ => .null

/-- `read_update_status` -/
def readUpdateStatus (updatePolicy steamBranch : String)
    (flat : Option (Option SteamBuildMetadata)) (d : Disk) : Dict :=
  let body : ReadM Unit := do readSelected flat d (← readFields d.loaded.dict)
  match body.run (initialStatus updatePolicy steamBranch) with
  | (.ok (), result) => result
  | (.error error, result) => fun
    | .state => .str "unknown"
    | .currentBuild | .candidateBuild => .null
    | .detail => .str (first500 error.message)
    | field => result field

/-! ### Reading what was written -/

/-- Sequencing, where the first part returns. -/
theorem run_bind_ok {α β : Type} {p : ReadM α} {f : α → ReadM β} {result result' : Dict} {a : α}
    (h : p.run result = (.ok a, result')) : (p >>= f).run result = (f a).run result' := by
  change (match p.run result with | (v, s) => ExceptT.bindCont f v s) = _
  rw [h]
  rfl

/-- Sequencing, where the first part raises. -/
theorem run_bind_error {α β : Type} {p : ReadM α} {f : α → ReadM β} {result result' : Dict}
    {e : Err} (h : p.run result = (.error e, result')) :
    (p >>= f).run result = (.error e, result') := by
  change (match p.run result with | (v, s) => ExceptT.bindCont f v s) = _
  rw [h]
  rfl

/-- A loop that sets each of its fields. -/
theorem run_forM_setField {step : Field → ReadM Unit} {value : Dict} :
    ∀ {fields : List Field}, (∀ field ∈ fields, step field = setField field (value field)) →
      ∀ result : Dict, (fields.forM step).run result =
        (.ok (), fun field => if field ∈ fields then value field else result field) := by
  intro fields
  induction fields with
  | nil => exact fun _ result => rfl
  | cons field fields ih =>
    intro hstep result
    have hrest := ih (fun f hf => hstep f (List.mem_cons_of_mem _ hf))
      (Function.update result field (value field))
    change (step field >>= fun _ => fields.forM step).run result = _
    rw [hstep field List.mem_cons_self]
    refine hrest.trans (Prod.ext rfl (funext fun f => ?_))
    by_cases hf : f = field
    · subst hf
      simp
    · simp [hf]

/-- `value[:500]`, of a text. -/
def Scalar.cut : Scalar → Scalar
  | str text => str (first500 text)
  | value => value

/-- Every text field passes its check. -/
theorem readStringField_dict (r : Record) {field : Field} (hfield : field ∈ stringFields) :
    readStringField r.dict field = setField field (r.dict field).cut := by
  have hread : ∀ text, r.dict field = .ofText text →
      readStringField r.dict field = setField field (r.dict field).cut := by
    intro text htext
    rw [readStringField, htext]
    cases text with
    | none => rfl
    | some text => rfl
  simp only [stringFields, List.mem_cons, List.not_mem_nil, or_false] at hfield
  rcases hfield with rfl | rfl | rfl | rfl | rfl | rfl
  · exact hread _ rfl
  · exact hread _ rfl
  · exact hread _ rfl
  · exact hread _ rfl
  · exact hread _ rfl
  · exact hread _ rfl

/-- Every build field passes its check. -/
theorem readBuildField_dict (r : Record) {field : Field} (hfield : field ∈ buildFields) :
    readBuildField r.dict field = setField field (r.dict field) := by
  have hread : ∀ build, r.dict field = .ofBuild build →
      readBuildField r.dict field = setField field (r.dict field) := by
    intro build hbuild
    rw [readBuildField, hbuild]
    cases build with
    | none => rfl
    | some build => rfl
  simp only [buildFields, List.mem_cons, List.not_mem_nil, or_false] at hfield
  rcases hfield with rfl | rfl | rfl | rfl | rfl
  · exact hread _ rfl
  · exact hread _ rfl
  · exact hread _ rfl
  · exact hread _ rfl
  · exact hread _ rfl

/-- A setting is taken over or left alone. -/
theorem run_readSetting (state result : Dict) (field : Field) :
    ∃ result', (readSetting state field).run result = (.ok (), result') ∧
      ∀ f, f ≠ field → result' f = result f := by
  rw [readSetting]
  split
  · split
    · exact ⟨result, rfl, fun _ _ => rfl⟩
    · exact ⟨_, rfl, fun f hf => Function.update_of_ne hf _ _⟩
  · exact ⟨result, rfl, fun _ _ => rfl⟩

/-- **A record that was written can be read**, whatever it says. -/
theorem run_readFields (r : Record) (result : Dict) :
    ∃ result', (readFields r.dict).run result = (.ok r.state.text, result') ∧
      result' .state = .str r.state.text ∧ result' .currentBuild = .ofBuild r.currentBuild := by
  let named := Function.update result .state (.str r.state.text)
  let texts : Dict := fun field =>
    if field ∈ stringFields then (r.dict field).cut else named field
  let builds : Dict := fun field => if field ∈ buildFields then r.dict field else texts field
  have htexts : (stringFields.forM (readStringField r.dict)).run named = (.ok (), texts) :=
    run_forM_setField (fun _ hf => readStringField_dict r hf) named
  have hbuilds : (buildFields.forM (readBuildField r.dict)).run texts = (.ok (), builds) :=
    run_forM_setField (fun _ hf => readBuildField_dict r hf) texts
  obtain ⟨policy, hpolicy, hpolicy'⟩ := run_readSetting r.dict builds .updatePolicy
  obtain ⟨branch, hbranch, hbranch'⟩ := run_readSetting r.dict policy .steamBranch
  refine ⟨branch, ?_, ?_, ?_⟩
  · have hsettings : ([Field.updatePolicy, .steamBranch].forM (readSetting r.dict)).run builds =
        (.ok (), branch) := by
      refine (run_bind_ok hpolicy).trans ((run_bind_ok hbranch).trans ?_)
      rfl
    refine (run_bind_ok (show (setField .state (.str r.state.text)).run result = (.ok (), named)
      from rfl)).trans ?_
    exact (run_bind_ok htexts).trans ((run_bind_ok hbuilds).trans (run_bind_ok hsettings))
  · rw [hbranch' .state nofun, hpolicy' .state nofun]
    simp [builds, texts, named, buildFields, stringFields]
  · rw [hbranch' .currentBuild nofun, hpolicy' .currentBuild nofun]
    simp [builds, buildFields, Record.dict]

/-! ### Agreement -/

/-- The metrics report the recorded state name, and the same state and build as `status`. -/
structure ReadersAgree (c : UpdateConfiguration) (updatePolicy steamBranch : String) (d : Disk) :
    Prop where
  recorded : readUpdateStatus updatePolicy steamBranch none d .state = .str d.state.text
  known : readUpdateStatus updatePolicy steamBranch none d .state ≠ .str "unknown"
  same : ∃ reported, status c d = .ok reported ∧
    reported .state = readUpdateStatus updatePolicy steamBranch none d .state ∧
    reported .currentBuild = readUpdateStatus updatePolicy steamBranch none d .currentBuild

/-- The metrics report `unknown`, and `status` the recorded name. -/
structure ReadersDiffer (c : UpdateConfiguration) (updatePolicy steamBranch : String)
    (d : Disk) : Prop where
  unknown : readUpdateStatus updatePolicy steamBranch none d .state = .str "unknown"
  build : readUpdateStatus updatePolicy steamBranch none d .currentBuild = .null
  detail : readUpdateStatus updatePolicy steamBranch none d .detail =
    .str "Update state has no selected game release"
  recorded : ∃ reported, status c d = .ok reported ∧ reported .state = .str d.state.text

theorem StateName.text_ne_unknown (n : StateName) : n.text ≠ "unknown" := by
  cases n <;> decide

theorem StateName.text_eq_uninitialized {n : StateName} :
    n.text = "uninitialized" ↔ n = .uninitialized := by
  cases n <;> decide

theorem Inv.readPointer_active (hd : Inv d) :
    d.readPointer "active-release" d.active .ok = .ok d.active := by
  cases ha : d.active with
  | none => rfl
  | some a =>
    obtain ⟨D, -, hD, -⟩ := hd.active_valid a ha
    simp [Disk.readPointer, hD]

section Agreement

variable {updatePolicy steamBranch : String}

/-- What `status` returns, from what it reads of the active release. -/
theorem status_eq (hd : Inv d) : ∃ reported, status c d = .ok reported ∧
    reported .state = .str d.state.text ∧
    reported .currentBuild =
      .ofBuild (if d.active.isSome then d.activeBuild else d.loaded.currentBuild) := by
  rw [status, hd.readPointer_active]
  cases ha : d.active with
  | none => exact ⟨_, rfl, rfl, rfl⟩
  | some a =>
    obtain ⟨D, m, hD, -, hm⟩ := hd.active_valid a ha
    have hread : d.readInstalled a .ok = .ok m := by simp [Disk.readInstalled, hD, hm]
    have hbuild : d.activeBuild = some m.buildId := by
      simp [Disk.activeBuild, Disk.buildOf, Directory.build, ha, hD, hm]
    refine ⟨_, rfl, ?_, ?_⟩
    · simp [hread, Record.dict]
    · simp [hread, hbuild, Scalar.ofBuild]

/-- What the metrics read while a release is active. -/
theorem readUpdateStatus_active (hd : Inv d) (ha : d.active.isSome) :
    readUpdateStatus updatePolicy steamBranch none d .state = .str d.state.text ∧
    readUpdateStatus updatePolicy steamBranch none d .currentBuild = .ofBuild d.activeBuild := by
  obtain ⟨a, ha⟩ := Option.isSome_iff_exists.mp ha
  obtain ⟨D, m, hD, -, hm⟩ := hd.active_valid a ha
  have hread : d.readInstalled a .ok = .ok m := by simp [Disk.readInstalled, hD, hm]
  have hbuild : d.activeBuild = some m.buildId := by
    simp [Disk.activeBuild, Disk.buildOf, Directory.build, ha, hD, hm]
  obtain ⟨result, hfields, hstate, -⟩ := run_readFields d.loaded
    (initialStatus updatePolicy steamBranch)
  have hselected : (readSelected none d d.state.text).run result =
      (.ok (), Function.update result .currentBuild (.int m.buildId)) := by
    rw [readSelected, hd.readPointer_active, ha]
    refine (run_bind_ok (show (ExceptT.mk (pure (.ok (some a))) : ReadM _).run result =
      (.ok (some a), result) from rfl)).trans ?_
    dsimp only
    rw [hread]
    rfl
  rw [readUpdateStatus, (run_bind_ok hfields).trans hselected, hbuild]
  exact ⟨by simp [hstate], by simp [Scalar.ofBuild]⟩

/-- What they read when none is. -/
theorem readUpdateStatus_none (ha : d.active = none) :
    ∃ result, (readFields d.loaded.dict).run (initialStatus updatePolicy steamBranch) =
      (.ok d.state.text, result) ∧ result .state = .str d.state.text ∧
      result .currentBuild = .ofBuild d.loaded.currentBuild ∧
      (readSelected none d d.state.text).run result =
        (if d.state = .uninitialized then .ok ()
          else .error (.update "Update state has no selected game release"), result) := by
  obtain ⟨result, hfields, hstate, hbuild⟩ := run_readFields d.loaded
    (initialStatus updatePolicy steamBranch)
  refine ⟨result, hfields, hstate, hbuild, ?_⟩
  rw [readSelected, ha]
  refine (run_bind_ok (show (ExceptT.mk (pure (d.readPointer "active-release" none .ok)) :
    ReadM _).run result = (.ok none, result) from rfl)).trans ?_
  dsimp only
  by_cases hstate : d.state = .uninitialized
  · rw [if_pos hstate, if_neg (not_not.mpr (StateName.text_eq_uninitialized.mpr hstate))]
    rfl
  · rw [if_neg hstate, if_pos (StateName.text_eq_uninitialized.not.mpr hstate)]
    rfl

/-- **When the two readers agree.** In every state that runs reach from an empty install root, they
do if and only if a release is active or nothing was recorded. Otherwise the metrics report
`unknown` and say that no release is selected, and `status` reports the recorded name. -/
theorem UpdaterHistory.readers_agree_iff {h : List UpdaterEntry} (hh : UpdaterHistory h d) :
    (ReadersAgree c updatePolicy steamBranch d ↔ d.active.isSome ∨ d.state = .uninitialized) ∧
    (¬ (d.active.isSome ∨ d.state = .uninitialized) →
      ReadersDiffer c updatePolicy steamBranch d) := by
  have hd := hh.trail.inv
  obtain ⟨reported, hstatus, hstate, hbuild⟩ := status_eq (c := c) hd
  have hdiffer : ¬ (d.active.isSome ∨ d.state = .uninitialized) →
      ReadersDiffer c updatePolicy steamBranch d := by
    intro hnot
    have ha : d.active = none := by simpa using fun h => hnot (.inl h)
    obtain ⟨result, hfields, -, -, hselected⟩ :=
      @readUpdateStatus_none d updatePolicy steamBranch ha
    rw [if_neg fun h => hnot (.inr h)] at hselected
    have hrun := (run_bind_ok hfields).trans hselected
    refine ⟨?_, ?_, ?_, reported, hstatus, hstate⟩
    · rw [readUpdateStatus, hrun]
    · rw [readUpdateStatus, hrun]
    · rw [readUpdateStatus, hrun]
      rfl
  refine ⟨⟨fun hagree => ?_, fun hcond => ?_⟩, hdiffer⟩
  · by_contra hnot
    exact hagree.known (hdiffer hnot).unknown
  · by_cases ha : d.active.isSome
    · obtain ⟨hread, hreadBuild⟩ := readUpdateStatus_active hd ha
      refine ⟨hread, ?_, reported, hstatus, hstate.trans hread.symm, ?_⟩
      · rw [hread]
        exact fun h => StateName.text_ne_unknown _ (Scalar.str.inj h)
      · rw [hbuild, if_pos ha, hreadBuild]
    · have hnone : d.active = none := by simpa using ha
      have huninitialized := hcond.resolve_left ha
      obtain ⟨result, hfields, hread, hreadBuild, hselected⟩ :=
        @readUpdateStatus_none d updatePolicy steamBranch hnone
      rw [if_pos huninitialized] at hselected
      have hresult : readUpdateStatus updatePolicy steamBranch none d = result := by
        rw [readUpdateStatus, (run_bind_ok hfields).trans hselected]
      refine ⟨hresult ▸ hread, ?_, reported, hstatus, ?_, ?_⟩
      · rw [hresult, hread]
        exact fun h => StateName.text_ne_unknown _ (Scalar.str.inj h)
      · rw [hresult, hstate, hread]
      · rw [hresult, hbuild, if_neg ha, hreadBuild]

end Agreement

/-- After a build was installed, opened and accepted the readers agree. -/
theorem UpdaterHistory.readers_agree_install :
    ReadersAgree .default "stable-on-start" "public" (Disk.empty.accepting 5) := by
  obtain ⟨_, haccepted⟩ := UpdaterHistory.accepting
  have hactive : (Disk.empty.accepting 5).active.isSome := by decide
  exact haccepted.readers_agree_iff.1.mpr (.inl hactive)

/-- **A first installation that is under way.** It was killed while the candidate was downloaded;
`status` reports `downloading-candidate`, and the metrics `unknown`. -/
theorem UpdaterHistory.readers_differ :
    ∃ h d, UpdaterHistory h d ∧ d.state = .downloadingCandidate ∧
      ¬ ReadersAgree .default "stable-on-start" "public" d := by
  have hempty : UpdaterHistory [] Disk.empty := .start rfl
  obtain ⟨h, hkilled⟩ := hempty.afterObliging 5 22 (.prepareStart .default) (by decide)
  have hnone : (Disk.empty.afterObliging 5 22 (.prepareStart .default)).active = none := by decide
  have hdownloading : (Disk.empty.afterObliging 5 22 (.prepareStart .default)).state =
    .downloadingCandidate := by decide
  generalize Disk.empty.afterObliging 5 22 (.prepareStart .default) = d at *
  obtain ⟨result, hfields, -, -, hselected⟩ := @readUpdateStatus_none d "stable-on-start" "public"
    hnone
  rw [if_neg (by rw [hdownloading]; decide)] at hselected
  refine ⟨h, d, hkilled, hdownloading, fun hagree => hagree.known ?_⟩
  rw [readUpdateStatus, (run_bind_ok hfields).trans hselected]

end Updater

end PzServer
