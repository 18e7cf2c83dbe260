import PzServer.Persistent.Files
import PzServer.Updater.VdfGrammar
import PzServer.Watchdog.Matching

/-!
# When the readers fail closed

A reader fails closed if it returns a value that satisfies its checks or raises `UpdateError`. None
of the readers does for every content of its file. They name `OSError`, and the state file's reader
`JSONDecodeError`; what they let through comes from the stages before and between their checks: text
that is not UTF-8, data that is nested too deeply, numerals that are too long, a path that cannot be
looked at, and a dictionary where a string is looked up in a set.

## Main results

* `closed_load_iff`, `closed_readPointer_iff`, `closed_installedMetadata_iff` — for each reader, the
  contents for which it fails closed
-/

namespace PzServer

namespace Persistent

open Updater (Err SteamBuildMetadata VdfObject nestedString isDecimal decimal universalNewlines
  decodeText readText parseVdfRoot checkUpdateResult)

open Watchdog (Text)

variable {stack : Stack} {root : InstallRoot} {α β : Type} {check : α → Prop}

/-- A value that satisfies the checks, or `UpdateError`. -/
def Closed (check : α → Prop) : Except Err α → Prop
  | .ok a => check a
  | .error e => e.isUpdateError = true

theorem closed_malformed (message : String) : Closed check (Updater.malformed message) := rfl

theorem not_closed_other (typeName : String) : ¬ Closed check (.error (.other typeName)) :=
  Bool.false_ne_true

/-- After a first step. -/
theorem closed_bind {x : Except Err β} {f : β → Except Err α}
    (hx : ∀ e, x = .error e → e.isUpdateError = true) :
    Closed check (x >>= f) ↔ ∀ b, x = .ok b → Closed check (f b) := by
  cases x with
  | error e =>
    refine iff_of_true (hx e rfl) ?_
    intro b hb
    cases hb
  | ok b =>
    constructor
    · rintro h b' hb
      cases hb
      exact h
    · exact fun h => h b rfl

/-! ### Decoding -/

theorem decodeText_cases (content : ByteArray) : (∃ file, decodeText content = .ok file) ∨
    decodeText content = .error (.other "UnicodeDecodeError") := by
  rw [decodeText]
  split
  · exact .inl ⟨_, rfl⟩
  · exact .inr rfl

/-- A reader that begins by decoding. -/
theorem closed_readText_bind {content : ByteArray} {f : Text → Except Err α} :
    Closed check (readText content >>= f) ↔ ∃ t, readText content = .ok t ∧ Closed check (f t) := by
  rw [readText]
  rcases decodeText_cases content with ⟨file, h⟩ | h
  · rw [h]
    constructor
    · exact fun hf => ⟨_, rfl, hf⟩
    · rintro ⟨t, ht, hf⟩
      cases ht
      exact hf
  · rw [h]
    refine iff_of_false (not_closed_other _) ?_
    rintro ⟨t, ht, -⟩
    cases ht

/-! ### The state file -/

/-- The checks of `StateStore.load`. -/
def Versioned (document : Document) : Prop :=
  ∃ version, Json.get document "schema_version" = some version ∧ equalsOne version = true

/-- A state file that is read is UTF-8, and what the decoder comes to in it is neither nested too
deeply nor a numeral that is too long. -/
def Loadable (stack : Stack) : Node → Prop
  | .regular content => content.size ≤ 1024 * 1024 →
    ∃ t, readText content = .ok t ∧ Json.Within stack.limits t
  | _ => True

theorem versioned_uninitialized : Versioned uninitialized := ⟨.int 1, rfl, rfl⟩

/-- A file whose text is read as it was written. -/
theorem loadNode_text {path : String} {t : Text} {value : Json.Value} (hends : '\r' ∉ t)
    (hsize : (String.ofList t).toByteArray.size ≤ 1024 * 1024)
    (hloads : (Json.loads stack.limits t).toOption = some value) :
    loadNode stack path (.regular (String.ofList t).toByteArray) = checkSchema path value := by
  have hvalue : Json.loads stack.limits t = .ok value := by
    cases h : Json.loads stack.limits t with
    | error e =>
      rw [h] at hloads
      cases hloads
    | ok v =>
      rw [h] at hloads
      exact congrArg Except.ok (Option.some.inj hloads)
  have hread : readText (String.ofList t).toByteArray = .ok t :=
    Updater.readText_written fun c hc heq => hends (heq ▸ hc)
  rw [loadNode, if_neg (Nat.not_lt.mpr hsize), hread]
  dsimp only [Bind.bind, Except.bind]
  rw [hvalue]

section Load

variable {check : Document → Prop} (hcheck : ∀ document, Versioned document → check document)
include hcheck

theorem closed_checkSchema (path : String) (value : Json.Value) :
    Closed check (checkSchema path value) := by
  rw [checkSchema.eq_def]
  split
  · split
    · rename_i hget
      split
      · rename_i hone
        exact hcheck _ ⟨_, hget, hone⟩
      · exact closed_malformed _
    · exact closed_malformed _
  · exact closed_malformed _

theorem closed_loadNode_iff {path : String} {node : Node} :
    Closed check (loadNode stack path node) ↔ Loadable stack node := by
  cases node with
  | absent => exact iff_of_true (hcheck _ versioned_uninitialized) trivial
  | symlink => exact iff_of_true (closed_malformed _) trivial
  | special => exact iff_of_true (closed_malformed _) trivial
  | failing => exact iff_of_true (closed_malformed _) trivial
  | regular content =>
    rw [loadNode, Loadable]
    split
    · rename_i hsize
      exact iff_of_true (closed_malformed _) fun h => absurd h (Nat.not_le.mpr hsize)
    · rename_i hsize
      rw [closed_readText_bind]
      refine Iff.trans ?_ (forall_prop_of_true (Nat.not_lt.mp hsize)).symm
      refine exists_congr fun t => and_congr_right fun _ => ?_
      by_cases hwithin : Json.Within stack.limits t
      · refine iff_of_true ?_ hwithin
        rw [Json.loads_of_within hwithin]
        cases (Json.scan t).result with
        | none => exact closed_malformed _
        | some value => exact closed_checkSchema hcheck path value
      · refine iff_of_false ?_ hwithin
        rcases Json.loads_of_not_within hwithin with h | h
        · rw [h]
          exact not_closed_other _
        · rw [h]
          exact not_closed_other _

end Load

/-- **The state file** is read closed if and only if its content is decodable and within limits. -/
theorem closed_load_iff :
    Closed Versioned (load stack root) ↔ Loadable stack root.updateState :=
  closed_loadNode_iff fun _ => id

/-! ### The pointers -/

/-- The checks of `ReleaseLayout._read_pointer`. -/
def Selectable (root : InstallRoot) (release : Option Text) : Prop :=
  ∀ name, release = some name → name ≠ [] ∧ name.all isNameChar = true ∧
    root.isDir name = .ok true ∧ ∃ path, relative root name = .ok path

/-- A path can be looked at and, if a directory is there, resolved. -/
structure Reachable (root : InstallRoot) (name : Text) : Prop where
  length : name.length ≤ nameMax
  looked : ∃ there, root.isDir name = .ok there
  resolved : root.isDir name = .ok true → ∃ parts, root.resolve name = .ok parts

/-- A pointer that is read is UTF-8, and the path that it names can be looked at. -/
def Nameable (root : InstallRoot) : Node → Prop
  | .regular content => content.size ≤ 4096 → ∃ value, readText content = .ok value ∧
    ∀ name, releaseName (Watchdog.Text.strip value) = some name → Reachable root name
  | _ => True

theorem releaseName_eq_some {value name : Text} (h : releaseName value = some name) :
    name ≠ [] ∧ name.all isNameChar = true := by
  rw [releaseName] at h
  obtain ⟨⟨-, hne, hall⟩, hname⟩ := Option.ite_none_right_eq_some.mp h
  cases hname
  exact ⟨hne, hall⟩

/-- A path that is resolved is one of a release, or is refused. -/
theorem relative_cases {name : Text} {parts : Option (List Text)}
    (h : root.resolve name = .ok parts) : (∃ path, relative root name = .ok path) ∨
      ∃ message, relative root name = .error (.update message) := by
  rw [relative, h]
  rcases parts with _ | _ | ⟨releases, _ | ⟨release, _ | _⟩⟩
  · exact .inr ⟨_, rfl⟩
  · exact .inr ⟨_, rfl⟩
  · exact .inr ⟨_, rfl⟩
  · change (∃ path, (if releases = "releases".toList then _ else _) = _) ∨
      ∃ message, (if releases = "releases".toList then _ else _) = _
    split
    · exact .inl ⟨_, rfl⟩
    · exact .inr ⟨_, rfl⟩
  · exact .inr ⟨_, rfl⟩

theorem selectable_none : Selectable root none := by
  intro name h
  cases h

section Pointer

variable {check : Option Text → Prop} (hcheck : ∀ release, Selectable root release → check release)
include hcheck

/-- The path is all that is left to go wrong. -/
theorem closed_selectRelease_iff {name : String} {release : Text} (hne : release ≠ [])
    (hall : release.all isNameChar = true) :
    Closed check (selectRelease root name release) ↔ Reachable root release := by
  rw [selectRelease]
  by_cases hlong : release.length > nameMax
  · rw [if_pos hlong]
    exact iff_of_false Bool.false_ne_true fun h => Nat.not_le.mpr hlong h.length
  rw [if_neg hlong]
  have hlength := Nat.not_lt.mp hlong
  cases hdir : root.isDir release with
  | error typeName =>
    refine iff_of_false Bool.false_ne_true fun h => ?_
    obtain ⟨there, hthere⟩ := h.looked
    rw [hdir] at hthere
    cases hthere
  | ok there =>
    cases there with
    | false =>
      refine iff_of_true (closed_malformed _) ⟨hlength, ⟨false, hdir⟩, fun h => ?_⟩
      rw [hdir] at h
      cases h
    | true =>
      have hreach : Reachable root release ↔ ∃ parts, root.resolve release = .ok parts :=
        ⟨fun h => h.resolved hdir, fun h => ⟨hlength, ⟨true, hdir⟩, fun _ => h⟩⟩
      rw [hreach]
      change Closed check (relative root release >>= fun _ => pure (some release)) ↔ _
      cases hresolve : root.resolve release with
      | error typeName =>
        rw [relative, hresolve]
        refine iff_of_false Bool.false_ne_true ?_
        rintro ⟨parts, h⟩
        cases h
      | ok parts =>
        refine iff_of_true ?_ ⟨parts, rfl⟩
        rcases relative_cases hresolve with ⟨path, h⟩ | ⟨message, h⟩
        · rw [h]
          refine hcheck (some release) fun name hname => ?_
          cases hname
          exact ⟨hne, hall, hdir, path, h⟩
        · rw [h]
          rfl

theorem closed_pointer_iff {name : String} {node : Node} :
    Closed check (readPointer root name node) ↔ Nameable root node := by
  cases node with
  | absent => exact iff_of_true (hcheck none selectable_none) trivial
  | symlink => exact iff_of_true (closed_malformed _) trivial
  | special => exact iff_of_true (closed_malformed _) trivial
  | failing => exact iff_of_true (closed_malformed _) trivial
  | regular content =>
    rw [readPointer, Nameable]
    split
    · rename_i hsize
      exact iff_of_true (closed_malformed _) fun h => absurd h (Nat.not_le.mpr hsize)
    · rename_i hsize
      rw [closed_readText_bind]
      refine Iff.trans ?_ (forall_prop_of_true (Nat.not_lt.mp hsize)).symm
      refine exists_congr fun value => and_congr_right fun _ => ?_
      cases hname : releaseName (Watchdog.Text.strip value) with
      | none =>
        refine iff_of_true (closed_malformed _) ?_
        intro release h
        cases h
      | some release =>
        obtain ⟨hne, hall⟩ := releaseName_eq_some hname
        refine (closed_selectRelease_iff hcheck hne hall).trans ⟨?_, fun h => h release rfl⟩
        intro h name hname
        cases hname
        exact h

end Pointer

/-- **A pointer** is read closed if and only if it can be decoded and the path that it names can be
looked at. -/
theorem closed_readPointer_iff {name : String} {node : Node} :
    Closed (Selectable root) (readPointer root name node) ↔ Nameable root node :=
  closed_pointer_iff fun _ => id

/-! ### The manifest -/

/-- The checks of `read_installed_metadata`. -/
structure Installed (appId : ℕ) (o : VdfObject) (metadata : SteamBuildMetadata) : Prop where
  appId : nestedString o ["appid".toList] = .ok (decimal appId)
  buildId : ∃ raw, nestedString o ["buildid".toList] = .ok raw ∧ isDecimal raw = true ∧
    Watchdog.Text.value raw = metadata.buildId ∧ 0 < metadata.buildId
  stateFlags : nestedString o ["StateFlags".toList] = .ok ['4']
  updateResult : checkUpdateResult (o.get "UpdateResult".toList) = .ok ()

/-- What `read_installed_metadata` converts is not too long, and what it looks up in a set is no
dictionary. Each condition is on a field that is reached: those before it are in order. -/
def Convertible (appId : ℕ) (o : VdfObject) : Prop :=
  nestedString o ["appid".toList] = .ok (decimal appId) →
  ∀ raw, nestedString o ["buildid".toList] = .ok raw → isDecimal raw = true →
    raw.length ≤ 4300 ∧
    (0 < Watchdog.Text.value raw → nestedString o ["StateFlags".toList] = .ok ['4'] →
      (∀ sub, o.get "UpdateResult".toList ≠ some (.object sub)) ∧
      (checkUpdateResult (o.get "UpdateResult".toList) = .ok () →
        ∀ size, o.get "SizeOnDisk".toList = some (.text size) → isDecimal size = true →
          size.length ≤ 4300))

/-- A manifest that is read is UTF-8 and not nested too deeply, and its fields can be converted. -/
def Parseable (stack : Stack) (appId : ℕ) : Except String ByteArray → Prop
  | .ok content => ∃ file, decodeText content = .ok file ∧ vdfDepth file ≤ stack.vdf ∧
    ∀ o, parseVdfRoot (universalNewlines file) "AppState".toList = .ok o → Convertible appId o
  | .error _ => True

theorem isUpdateError_of_nestedValue {path keys : List Text} {value : Updater.VdfValue} {e : Err}
    (h : Updater.nestedValue path keys value = .error e) : e.isUpdateError = true := by
  induction keys generalizing value with
  | nil => cases h
  | cons key keys ih =>
    cases value with
    | text t =>
      cases h
      rfl
    | object o =>
      rw [Updater.nestedValue] at h
      split at h
      · exact ih h
      · cases h
        rfl

theorem isUpdateError_of_nestedString {o : VdfObject} {path : List Text} {e : Err}
    (h : nestedString o path = .error e) : e.isUpdateError = true := by
  rw [nestedString] at h
  cases hvalue : Updater.nestedValue path path (.object o) with
  | error e' =>
    rw [hvalue] at h
    cases h
    exact isUpdateError_of_nestedValue hvalue
  | ok value =>
    rw [hvalue] at h
    cases value with
    | object o =>
      cases h
      rfl
    | text value =>
      change (if value = [] then _ else _) = _ at h
      split at h
      · cases h
        rfl
      · cases h

theorem requireEqual_cases (actual expected : Text) (message : String) :
    actual = expected ∧ Updater.requireEqual actual expected message = .ok () ∨
      actual ≠ expected ∧ Updater.requireEqual actual expected message =
        Updater.malformed message := by
  rw [Updater.requireEqual]
  by_cases h : actual = expected
  · rw [if_neg (not_not_intro h)]
    exact .inl ⟨h, rfl⟩
  · rw [if_pos h]
    exact .inr ⟨h, rfl⟩

/-- A string that has to be equal to another. -/
theorem closed_requireEqual {actual expected : Text} {message : String}
    {f : Unit → Except Err α} :
    Closed check (Updater.requireEqual actual expected message >>= f) ↔
      (actual = expected → Closed check (f ())) := by
  rcases requireEqual_cases actual expected message with ⟨heq, h⟩ | ⟨hne, h⟩
  · rw [h]
    exact ⟨fun hf _ => hf, fun hf => hf heq⟩
  · rw [h]
    exact iff_of_true (closed_malformed _) fun heq => absurd heq hne

/-- A positive number in decimal digits. -/
theorem closed_positiveDecimal {raw : Text} {message : String} {f : ℕ → Except Err α} :
    Closed check (Updater.positiveDecimal raw message >>= f) ↔
      (isDecimal raw = true → raw.length ≤ 4300 ∧
        (0 < Watchdog.Text.value raw → Closed check (f (Watchdog.Text.value raw)))) := by
  rw [Updater.positiveDecimal]
  by_cases hdecimal : isDecimal raw = true
  · rw [if_pos hdecimal, Updater.intOf, forall_prop_of_true hdecimal]
    by_cases hlength : raw.length ≤ 4300
    · have hint : Watchdog.Text.toInt raw = some (Watchdog.Text.value raw) :=
        Watchdog.Text.toInt_eq_some_iff.mpr ⟨hlength, rfl⟩
      rw [hint]
      change Closed check ((if Watchdog.Text.value raw ≤ 0 then _ else _) >>= f) ↔ _
      by_cases hpos : Watchdog.Text.value raw ≤ 0
      · rw [if_pos hpos]
        exact iff_of_true (closed_malformed _) ⟨hlength, fun h => absurd h (Nat.not_lt.mpr hpos)⟩
      · rw [if_neg hpos]
        exact ⟨fun h => ⟨hlength, fun _ => h⟩, fun h => h.2 (Nat.not_le.mp hpos)⟩
    · have hint : Watchdog.Text.toInt raw = none := if_neg hlength
      rw [hint]
      exact iff_of_false (not_closed_other _) fun h => hlength h.1
  · rw [if_neg hdecimal]
    exact iff_of_true (closed_malformed _) fun h => absurd h hdecimal

/-- The result of Steam's last update. -/
theorem closed_checkUpdateResult {value : Option Updater.VdfValue} {f : Unit → Except Err α} :
    Closed check (checkUpdateResult value >>= f) ↔
      (∀ sub, value ≠ some (.object sub)) ∧
        (checkUpdateResult value = .ok () → Closed check (f ())) := by
  rcases value with _ | value | sub
  · exact ⟨fun h => ⟨fun _ hsub => (by cases hsub), fun _ => h⟩, fun h => h.2 rfl⟩
  · rw [checkUpdateResult]
    split
    · exact ⟨fun h => ⟨fun _ hsub => (by cases hsub), fun _ => h⟩, fun h => h.2 rfl⟩
    · exact iff_of_true (closed_malformed _)
        ⟨fun _ hsub => (by cases hsub), fun h => (by cases h)⟩
  · exact iff_of_false (not_closed_other _) fun h => h.1 sub rfl

/-- The size, which is optional. -/
theorem closed_sizeOf {value : Option Updater.VdfValue} {f : Option ℕ → Except Err α}
    (hf : ∀ size, Closed check (f size)) :
    Closed check (Updater.sizeOf value >>= f) ↔
      ∀ size, value = some (.text size) → isDecimal size = true → size.length ≤ 4300 := by
  rcases value with _ | raw | sub
  · exact iff_of_true (hf none) fun _ h => by cases h
  · rw [Updater.sizeOf]
    by_cases hdecimal : isDecimal raw = true
    · rw [if_pos hdecimal, Updater.intOf]
      by_cases hlength : raw.length ≤ 4300
      · have hint : Watchdog.Text.toInt raw = some (Watchdog.Text.value raw) :=
          Watchdog.Text.toInt_eq_some_iff.mpr ⟨hlength, rfl⟩
        rw [hint]
        refine iff_of_true (hf _) ?_
        intro size hsize _
        cases hsize
        exact hlength
      · have hint : Watchdog.Text.toInt raw = none := if_neg hlength
        rw [hint]
        exact iff_of_false (not_closed_other _) fun h => hlength (h raw rfl hdecimal)
    · rw [if_neg hdecimal]
      refine iff_of_true (hf none) ?_
      intro size hsize h
      cases hsize
      exact absurd h hdecimal
  · exact iff_of_true (hf none) fun _ h => by cases h

/-- The checks of a manifest, from its root object on. -/
theorem closed_installed_iff {appId : ℕ} {o : VdfObject} {check : SteamBuildMetadata → Prop}
    (hcheck : ∀ metadata, Installed appId o metadata → check metadata) :
    Closed check (Updater.installedMetadata o appId) ↔ Convertible appId o := by
  have hinstalled : ∀ {raw} (size : Option ℕ),
      nestedString o ["appid".toList] = .ok (decimal appId) →
      nestedString o ["buildid".toList] = .ok raw → isDecimal raw = true →
      0 < Watchdog.Text.value raw → nestedString o ["StateFlags".toList] = .ok ['4'] →
      checkUpdateResult (o.get "UpdateResult".toList) = .ok () →
      check ⟨Watchdog.Text.value raw, size⟩ :=
    fun _ happ hraw hdecimal hpos hflags hresult =>
      hcheck _ ⟨happ, ⟨_, hraw, hdecimal, rfl, hpos⟩, hflags, hresult⟩
  rw [Updater.installedMetadata, closed_bind fun _ => isUpdateError_of_nestedString]
  constructor
  · intro h happ raw hraw hdecimal
    have hbuild := (closed_bind fun _ => isUpdateError_of_nestedString).mp
      (closed_requireEqual.mp (h _ happ) rfl) raw hraw
    obtain ⟨hlength, hrest⟩ := closed_positiveDecimal.mp hbuild hdecimal
    refine ⟨hlength, fun hpos hflags => ?_⟩
    have hflag := (closed_bind fun _ => isUpdateError_of_nestedString).mp (hrest hpos) _ hflags
    obtain ⟨hobject, hsize⟩ := closed_checkUpdateResult.mp (closed_requireEqual.mp hflag rfl)
    refine ⟨hobject, fun hresult => ?_⟩
    refine (closed_sizeOf ?_).mp (hsize hresult)
    exact fun size => hinstalled size happ hraw hdecimal hpos hflags hresult
  · intro h app happ
    refine closed_requireEqual.mpr ?_
    rintro rfl
    refine (closed_bind fun _ => isUpdateError_of_nestedString).mpr fun raw hraw => ?_
    refine closed_positiveDecimal.mpr fun hdecimal => ?_
    obtain ⟨hlength, hrest⟩ := h happ raw hraw hdecimal
    refine ⟨hlength, fun hpos => ?_⟩
    refine (closed_bind fun _ => isUpdateError_of_nestedString).mpr fun flags hflags => ?_
    refine closed_requireEqual.mpr ?_
    rintro rfl
    obtain ⟨hobject, hsize⟩ := hrest hpos hflags
    refine closed_checkUpdateResult.mpr ⟨hobject, fun hresult => ?_⟩
    refine (closed_sizeOf ?_).mpr (hsize hresult)
    exact fun size => hinstalled size happ hraw hdecimal hpos hflags hresult

/-- What is read of a manifest, if it can be read at all. -/
theorem closed_manifest_iff {manifest : String} {file : Except String ByteArray} {appId : ℕ}
    {check : SteamBuildMetadata → Prop}
    (hcheck : ∀ o metadata, Installed appId o metadata → check metadata) :
    Closed check (Updater.readInstalledMetadata manifest (manifestText stack file) appId) ↔
      Parseable stack appId file := by
  cases file with
  | error typeName => exact iff_of_true (closed_malformed _) trivial
  | ok content =>
    rw [manifestText, Parseable]
    rcases decodeText_cases content with ⟨file, h⟩ | h
    · have hparse : Closed check (parseVdfRoot (universalNewlines file)
            "AppState".toList >>= fun o => Updater.installedMetadata o appId) ↔
          ∀ o, parseVdfRoot (universalNewlines file) "AppState".toList = .ok o →
            Convertible appId o := by
        refine (closed_bind fun _ => Updater.parseVdfRootFrom_updateError).trans ?_
        exact forall_congr' fun o => forall_congr' fun _ => closed_installed_iff (hcheck o)
      by_cases hdepth : vdfDepth file > stack.vdf
      · refine iff_of_false ?_ ?_
        · rw [h]
          change ¬ Closed _ (Updater.readInstalledMetadata _ (if _ then _ else _) _)
          rw [if_pos hdepth]
          exact not_closed_other _
        · rintro ⟨file', hfile, hle, -⟩
          rw [h] at hfile
          cases hfile
          exact absurd hle (Nat.not_le.mpr hdepth)
      · rw [h]
        change Closed _ (Updater.readInstalledMetadata _ (if _ then _ else _) _) ↔ _
        rw [if_neg hdepth]
        refine hparse.trans ⟨fun ho => ⟨file, rfl, Nat.not_lt.mp hdepth, ho⟩, ?_⟩
        rintro ⟨file', hfile, -, ho⟩
        cases hfile
        exact ho
    · rw [h]
      refine iff_of_false (not_closed_other _) ?_
      rintro ⟨file, hfile, -⟩
      cases hfile

/-- The metadata is that of a manifest with this root object. -/
def InstalledBy (appId : ℕ) (metadata : SteamBuildMetadata) : Prop :=
  ∃ o, Installed appId o metadata

/-- **A manifest** is read closed if and only if it can be parsed and converted. -/
theorem closed_installedMetadata_iff {release : Option Text} {appId : ℕ} :
    Closed (InstalledBy appId) (installedMetadata stack root release appId) ↔
      Parseable stack appId (root.manifest release) :=
  closed_manifest_iff fun o _ h => ⟨o, h⟩

end Persistent

end PzServer
