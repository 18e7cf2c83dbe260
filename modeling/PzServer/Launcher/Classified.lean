import PzServer.Launcher.Prepare
import PzServer.Persistent.Readable

/-!
# How a rejection is classified

The updater blocks a build for good when validation raises `CandidateIncompatibility`, and tries it
again on the next start when it raises anything else. A build that is bad should be blocked, and a
disk that is bad should not.

The line is drawn by exception type, in one place: what `_inspect` raises as an `UpdateError` is an
incompatibility. But its readers turn an `OSError` into `UpdateError` too, and let through what text
decoding, deep nesting and long numerals raise; and the syntax check of the wrapper is outside.

## Main definitions

* `Classified` — the exception tells apart what was found from what failed
* `Discerned` — where it does

## Main results

* `rejected_iff` — a rejection is what there is without failures
* `classified_iff`
-/

namespace PzServer

namespace Launcher

open Persistent (Closed Parseable closed_bind closed_malformed closed_manifest_iff
  closed_readText_bind not_closed_other)

open Updater (Err SteamBuildMetadata bind_eq_ok_iff malformed readText universalNewlines)

open Watchdog (Text)

open Watchdog.Text (strip)

variable {α β : Type}

/-! ### Rejections -/

/-- `CandidateIncompatibility` -/
def Blocks (r : Except Raised α) : Prop :=
  ∃ message io, r = .error ⟨.incompatible message, io⟩

/-- Every operation was carried out, and what is there is not accepted. -/
def Rejected (r : Except Raised α) : Prop := ∃ error, r = .error ⟨error, false⟩

/-- A candidate is blocked if and only if what it contains was rejected, and then nothing has been
written. -/
def Classified (outcome : Except Raised α × Written) : Prop :=
  (Blocks outcome.1 ↔ Rejected outcome.1) ∧ (Rejected outcome.1 → outcome.2 = ⟨none, none⟩)

/-- No operation fails. -/
def Faults.none : Faults where
  isFile _ := .none
  access _ := false
  readManifest := .none
  readLauncher := .none
  readScript := .none
  statLauncher := .none
  statScript := .none
  writeTemporary := .none
  readTemporary := .none
  bash := false
  unlinkTemporary := .none
  writeLauncher := .none
  replaceWrapper := .none
  syncRelease := .none
  unlinkFinally := .none

/-! ### Without failures -/

/-- A result with failures, and the one without. -/
structure Compares (r ideal : Except Raised α) : Prop where
  same : (∃ error, r = .error ⟨error, true⟩) ∨ r = ideal
  ideal : ∀ error, ideal ≠ .error ⟨error, true⟩

section Compares

variable {r ideal : Except Raised α}

theorem Compares.refl (h : ∀ error, r ≠ .error ⟨error, true⟩) : Compares r r := ⟨.inr rfl, h⟩

theorem Compares.of_io (h : ∀ error, ideal ≠ .error ⟨error, true⟩) (error : Err) :
    Compares (.error ⟨error, true⟩) ideal :=
  ⟨.inl ⟨error, rfl⟩, h⟩

theorem compares_ok (a : α) : Compares (.ok a) (.ok a) := .refl fun _ h => by cases h

theorem compares_reject (message : String) :
    Compares (reject message : Except Raised α) (reject message) :=
  .refl fun _ h => by cases h

theorem Compares.bind {f g : α → Except Raised β} (h : Compares r ideal)
    (hf : ∀ a, Compares (f a) (g a)) : Compares (r >>= f) (ideal >>= g) := by
  have hideal : ∀ error, (ideal >>= g) ≠ .error ⟨error, true⟩ := by
    intro error he
    cases hi : ideal with
    | error raised =>
      rw [hi] at he
      obtain rfl := Except.error.inj he
      exact h.ideal error hi
    | ok a =>
      rw [hi] at he
      exact (hf a).ideal error he
  rcases h.same with ⟨error, hr⟩ | hr
  · rw [hr]
    exact .of_io hideal error
  · refine ⟨?_, hideal⟩
    rw [hr]
    cases ideal with
    | error raised => exact .inr rfl
    | ok a => exact (hf a).same

theorem compares_attempt (fault : Option String) : Compares (attempt fault) (attempt none) := by
  cases fault with
  | none => exact compares_ok ()
  | some typeName => exact .of_io (fun _ h => by cases h) _

theorem compares_forM {ι : Type} {f g : ι → Except Raised Unit}
    (h : ∀ i, Compares (f i) (g i)) (l : List ι) : Compares (l.forM f) (l.forM g) := by
  induction l with
  | nil => exact compares_ok ()
  | cons i l ih => exact (h i).bind fun _ => ih

theorem compares_reading (fault : Option String) (reader : Option ByteArray → Except Err α)
    (file : Option ByteArray) (hnone : ∃ error, reader none = .error error) :
    Compares (reading fault reader file) (reading none reader file) := by
  have hideal : ∀ error, reading none reader file ≠ .error ⟨error, true⟩ := by
    intro error h
    rw [reading] at h
    cases hfile : reader file with
    | error e =>
      rw [hfile] at h
      cases h
    | ok a =>
      rw [hfile] at h
      cases h
  cases fault with
  | none => exact .refl hideal
  | some typeName =>
    obtain ⟨error, herror⟩ := hnone
    rw [reading, herror]
    exact .of_io hideal error

theorem eq_of_io {raised : Raised} (h : raised.io = true) : raised = ⟨raised.error, true⟩ := by
  cases raised
  cases h
  rfl

theorem Compares.mapError {f : Raised → Raised} (h : Compares r ideal)
    (hf : ∀ raised, (f raised).io = raised.io) : Compares (r.mapError f) (ideal.mapError f) := by
  constructor
  · rcases h.same with ⟨error, hr⟩ | hr
    · rw [hr]
      exact .inl ⟨(f ⟨error, true⟩).error, congrArg Except.error (eq_of_io (hf _))⟩
    · exact .inr (by rw [hr])
  · intro error he
    cases hi : ideal with
    | error raised =>
      rw [hi] at he
      have hio : raised.io = true := by rw [← hf raised, Except.error.inj he]
      exact h.ideal raised.error (hi.trans (congrArg Except.error (eq_of_io hio)))
    | ok a =>
      rw [hi] at he
      cases he

end Compares

section Validation

variable (host : Host) (settings : Settings) (candidate : Candidate) (faults : Faults)

theorem compares_requireFile (path : Required) :
    Compares (requireFile candidate faults path) (requireFile candidate .none path) := by
  refine (compares_attempt _).bind fun _ => ?_
  by_cases h : (candidate.content path).isSome = true
  · rw [if_pos h]
    exact compares_ok ()
  · rw [if_neg h]
    exact compares_reject _

theorem compares_requireExecutable (path : Required) :
    Compares (requireExecutable candidate faults path)
      (requireExecutable candidate .none path) := by
  have hideal : Compares (requireExecutable candidate .none path)
      (requireExecutable candidate .none path) := by
    rw [requireExecutable, if_neg (show ¬ Faults.none.access path = true from Bool.false_ne_true)]
    split
    · exact compares_ok ()
    · exact compares_reject _
  cases h : faults.access path with
  | true =>
    rw [requireExecutable, if_pos h]
    exact .of_io hideal.ideal _
  | false =>
    have hsame : requireExecutable candidate faults path =
        requireExecutable candidate .none path := by
      rw [requireExecutable, if_neg (by rw [h]; exact Bool.false_ne_true)]
      rfl
    rw [hsame]
    exact hideal

theorem compares_inspect :
    Compares (inspect host settings candidate faults) (inspect host settings candidate .none) := by
  refine (compares_forM (compares_requireFile candidate faults) _).bind fun _ => ?_
  refine (compares_forM (compares_requireExecutable candidate faults) _).bind fun _ => ?_
  refine (compares_reading _ _ _ ⟨_, rfl⟩).bind fun _ => ?_
  refine (compares_reading _ _ _ ⟨_, rfl⟩).bind fun _ => ?_
  refine (compares_reading _ _ _ ⟨_, rfl⟩).bind fun _ => ?_
  refine (compares_attempt _).bind fun _ => ?_
  exact (compares_attempt _).bind fun _ => compares_ok _

end Validation

/-! ### What is raised -/

/-- What is raised satisfies a condition. -/
def Raises (P : Raised → Prop) (r : Except Raised α) : Prop :=
  ∀ raised, r = .error raised → P raised

section Raises

variable {P : Raised → Prop}

theorem raises_ok (a : α) : Raises P (.ok a) := fun _ h => by cases h

theorem raises_error {raised : Raised} :
    Raises P (.error raised : Except Raised α) ↔ P raised := by
  constructor
  · exact fun h => h raised rfl
  · intro h raised' heq
    cases heq
    exact h

theorem raises_bind {r : Except Raised α} {f : α → Except Raised β} :
    Raises P (r >>= f) ↔ Raises P r ∧ ∀ a, r = .ok a → Raises P (f a) := by
  cases r with
  | error raised =>
    refine ⟨fun h => ⟨raises_error.mpr (raises_error.mp h), fun a ha => by cases ha⟩, ?_⟩
    exact fun h => raises_error.mpr (raises_error.mp h.1)
  | ok a =>
    constructor
    · intro h
      refine ⟨raises_ok a, fun a' ha => ?_⟩
      cases ha
      exact h
    · exact fun h => h.2 a rfl

theorem raises_mapError {f : Raised → Raised} {r : Except Raised α} :
    Raises P (r.mapError f) ↔ Raises (fun raised => P (f raised)) r := by
  cases r with
  | error raised =>
    refine Iff.trans ?_ raises_error.symm
    exact raises_error
  | ok a => exact iff_of_true (raises_ok a) (raises_ok a)

/-- A loop raises what the first step raises that does. -/
theorem raises_forM {ι : Type} {f : ι → Except Raised Unit} {l : List ι} :
    Raises P (l.forM f) ↔ ∀ before i after, l = before ++ i :: after →
      (∀ j ∈ before, f j = .ok ()) → Raises P (f i) := by
  induction l with
  | nil =>
    refine iff_of_true (raises_ok ()) ?_
    intro before i after h
    cases before <;> cases h
  | cons j l ih =>
    change Raises P (f j >>= fun _ => l.forM f) ↔ _
    rw [raises_bind]
    constructor
    · rintro ⟨hfirst, hrest⟩ before i after heq hbefore
      cases before with
      | nil =>
        cases heq
        exact hfirst
      | cons j' before =>
        cases heq
        obtain ⟨hj, hbefore⟩ := List.forall_mem_cons.mp hbefore
        exact ih.mp (hrest () hj) before i after rfl hbefore
    · intro h
      refine ⟨h [] j l rfl (fun _ hmem => by cases hmem), fun u hj => ih.mpr ?_⟩
      intro before i after heq hbefore
      rw [heq] at h
      exact h (j :: before) i after rfl (List.forall_mem_cons.mpr ⟨hj, hbefore⟩)

theorem forM_eq_ok {ι : Type} {f : ι → Except Raised Unit} {l : List ι} :
    l.forM f = .ok () ↔ ∀ i ∈ l, f i = .ok () := by
  induction l with
  | nil => exact iff_of_true rfl fun _ h => by cases h
  | cons i l ih =>
    change (f i >>= fun _ => l.forM f) = .ok () ↔ _
    rw [List.forall_mem_cons, ← ih]
    cases hi : f i with
    | error raised =>
      refine iff_of_false (fun h => by cases h) ?_
      rintro ⟨h, -⟩
      cases h
    | ok u => exact ⟨fun h => ⟨rfl, h⟩, fun h => h.2⟩

end Raises

/-! ### Inspection -/

/-- The exceptions that become incompatibilities are those that come from what was found. -/
def Fair (raised : Raised) : Prop := raised.error.isUpdateError = true ↔ raised.io = false

theorem raises_attempt (fault : Option String) : Raises Fair (attempt fault) := by
  cases fault with
  | none => exact raises_ok ()
  | some typeName =>
    exact raises_error.mpr (iff_of_false Bool.false_ne_true Bool.false_ne_true.symm)

theorem raises_reject (message : String) : Raises Fair (reject message : Except Raised α) :=
  raises_error.mpr (iff_of_true rfl rfl)

/-- A reader with its own way with an `OSError` has to be spared them. -/
theorem raises_reading {fault : Option String} {reader : Option ByteArray → Except Err α}
    {file : Option ByteArray} (hnone : ∃ message, reader none = malformed message) :
    Raises Fair (reading fault reader file) ↔
      fault = none ∧ Closed (fun _ => True) (reader file) := by
  cases fault with
  | some typeName =>
    obtain ⟨message, hmessage⟩ := hnone
    refine iff_of_false ?_ fun h => by cases h.1
    rw [reading, hmessage]
    exact fun h => absurd ((raises_error.mp h).mp rfl) Bool.false_ne_true.symm
  | none =>
    rw [reading]
    cases reader file with
    | error e =>
      constructor
      · exact fun h => ⟨rfl, (raises_error.mp h).mpr rfl⟩
      · exact fun h => raises_error.mpr (iff_of_true h.2 rfl)
    | ok a => exact iff_of_true (raises_ok a) ⟨rfl, trivial⟩

section Inspection

variable {host : Host} {settings : Settings} {candidate : Candidate} {faults : Faults}

theorem raises_requireFile (path : Required) : Raises Fair (requireFile candidate faults path) := by
  refine raises_bind.mpr ⟨raises_attempt _, fun _ _ => ?_⟩
  split
  · exact raises_ok ()
  · exact raises_reject _

theorem requireFile_eq_ok {path : Required} : requireFile candidate faults path = .ok () ↔
    faults.isFile path = none ∧ (candidate.content path).isSome = true := by
  rw [requireFile]
  cases hfault : faults.isFile path with
  | some typeName =>
    refine iff_of_false (fun h => by cases h) ?_
    rintro ⟨h, -⟩
    cases h
  | none =>
    change (if (candidate.content path).isSome = true then _ else _) = _ ↔ _
    by_cases h : (candidate.content path).isSome = true
    · rw [if_pos h]
      exact iff_of_true rfl ⟨rfl, h⟩
    · rw [if_neg h]
      exact iff_of_false (fun h => by cases h) fun hand => h hand.2

/-- `os.access` does not say why. -/
theorem raises_requireExecutable {path : Required} :
    Raises Fair (requireExecutable candidate faults path) ↔ faults.access path = false := by
  rw [requireExecutable]
  cases h : faults.access path with
  | true =>
    rw [if_pos rfl]
    refine iff_of_false (fun h => ?_) Bool.false_ne_true.symm
    exact absurd ((raises_error.mp h).mp rfl) Bool.false_ne_true.symm
  | false =>
    rw [if_neg Bool.false_ne_true]
    refine iff_of_true ?_ rfl
    split
    · exact raises_ok ()
    · exact raises_reject _

theorem requireExecutable_eq_ok {path : Required} :
    requireExecutable candidate faults path = .ok () ↔
      faults.access path = false ∧ candidate.executable path = true := by
  rw [requireExecutable]
  cases haccess : faults.access path with
  | true =>
    rw [if_pos rfl]
    exact iff_of_false (fun h => by cases h) fun h => Bool.false_ne_true.symm h.1
  | false =>
    rw [if_neg Bool.false_ne_true]
    by_cases h : candidate.executable path = true
    · rw [if_pos h]
      exact iff_of_true rfl ⟨rfl, h⟩
    · rw [if_neg h]
      exact iff_of_false (fun h => by cases h) fun hand => h hand.2

/-! ### The readers -/

/-- A launcher document that is read is UTF-8 and within the limits of the decoder, and its change
is within those of the printer. -/
def Renderable (python : Interpreter) (settings : Settings) (content : ByteArray) : Prop :=
  ∃ t, readText content = .ok t ∧ Json.Within python.limits t ∧
    ∀ document configured, Json.parse python.limits t = .ok document →
      configure settings document = .ok configured → configured.depth ≤ python.printable

theorem closed_configure {document : Json.Data} :
    ∀ e, configure settings document = .error e → e.isUpdateError = true := by
  intro e he
  rw [configure.eq_def] at he
  repeat' split at he
  all_goals
    cases he
    try rfl

theorem closed_printDocument {python : Interpreter} {configured : Json.Data} :
    Closed (fun _ => True) (printDocument python configured) ↔
      configured.depth ≤ python.printable := by
  rw [printDocument, Json.dumps]
  by_cases h : python.printable < configured.depth
  · rw [if_pos h]
    exact iff_of_false (not_closed_other _) (Nat.not_le.mpr h)
  · rw [if_neg h]
    exact iff_of_true trivial (Nat.not_lt.mp h)

theorem closed_configuredLauncherJson {python : Interpreter} {content : ByteArray} :
    Closed (fun _ => True) (configuredLauncherJson python (some content) settings) ↔
      Renderable python settings content := by
  have hstages : configuredLauncherJson python (some content) settings =
      readText content >>= fun t => (Json.parse python.limits t).mapError loadsError >>=
        fun document => configure settings document >>= printDocument python := by
    rw [configuredLauncherJson, readDocument]
    cases readText content with
    | error e => rfl
    | ok t => rfl
  rw [hstages, closed_readText_bind]
  refine exists_congr fun t => and_congr_right fun _ => ?_
  by_cases hwithin : Json.Within python.limits t
  · have hparse : ∀ e, (Json.parse python.limits t).mapError loadsError = .error e →
        e.isUpdateError = true := by
      intro e he
      rw [Json.parse, Json.loads_of_within hwithin] at he
      cases hresult : (Json.scan t).result with
      | none =>
        rw [hresult] at he
        cases he
        rfl
      | some value =>
        rw [hresult] at he
        cases he
    rw [closed_bind hparse]
    constructor
    · intro h
      refine ⟨hwithin, fun document configured hdocument hconfigured => ?_⟩
      have hclosed := h document (by rw [hdocument]; rfl)
      rw [closed_bind closed_configure] at hclosed
      exact closed_printDocument.mp (hclosed configured hconfigured)
    · rintro ⟨-, h⟩ document hdocument
      refine (closed_bind closed_configure).mpr fun configured hconfigured => ?_
      refine closed_printDocument.mpr (h document configured ?_ hconfigured)
      cases hok : Json.parse python.limits t with
      | error e =>
        rw [hok] at hdocument
        cases hdocument
      | ok document' =>
        rw [hok] at hdocument
        cases hdocument
        rfl
  · refine iff_of_false ?_ fun h => hwithin h.1
    rw [Json.parse]
    rcases Json.loads_of_not_within hwithin with h | h
    · rw [h]
      exact not_closed_other _
    · rw [h]
      exact not_closed_other _

/-- Every start script that can be decoded is read closed. -/
theorem closed_statusPreservingWrapper {content : ByteArray} :
    Closed (fun _ => True) (statusPreservingWrapper (some content)) ↔
      ∃ t, readText content = .ok t := by
  have hstages : statusPreservingWrapper (some content) = readText content >>= fun t =>
      (lifecycle ((keptLines t).map strip)) >>= fun place =>
        .ok (rewrite (keptLines t) place).flatten := by
    rw [statusPreservingWrapper, readLines]
    cases readText content with
    | error e => rfl
    | ok t => rfl
  rw [hstages, closed_readText_bind]
  refine exists_congr fun t => and_iff_left ?_
  exact (closed_bind fun _ => isUpdateError_of_lifecycle).mpr fun _ _ => trivial

end Inspection

/-! ### How far validation gets -/

section Stages

variable (host : Host) (settings : Settings) (candidate : Candidate) (faults : Faults)

/-- The files are there. -/
def Complete : Prop :=
  ∀ path ∈ requiredPaths, faults.isFile path = none ∧ (candidate.content path).isSome = true

/-- And can be executed. -/
def Executable : Prop :=
  Complete candidate faults ∧
    ∀ path ∈ executablePaths, faults.access path = false ∧ candidate.executable path = true

/-- And the manifest is accepted. -/
def Identified : Prop :=
  Executable candidate faults ∧ faults.readManifest = none ∧
    ∃ metadata, readManifest host candidate candidate.manifest = .ok metadata

/-- And so is the launcher document. -/
def Configured : Prop :=
  Identified host candidate faults ∧ faults.readLauncher = none ∧ ∃ launcherJson,
    configuredLauncherJson host.python (candidate.content .launcher) settings = .ok launcherJson

/-- And the start script. -/
def Wrapped (wrapper : Text) : Prop :=
  Configured host settings candidate faults ∧ faults.readScript = none ∧
    statusPreservingWrapper (candidate.content .startServer) = .ok wrapper

/-- And bash has read the wrapper. -/
def Checked : Prop :=
  faults.statLauncher = none ∧ faults.statScript = none ∧ faults.writeTemporary = none ∧
    faults.readTemporary = none ∧ faults.bash = false ∧ faults.unlinkTemporary = none

/-- Where the exception tells what was found from what failed. Each condition is on an operation
that is reached. -/
structure Discerned : Prop where
  /-- No answer about a permission is `False` for another reason. -/
  access : Complete candidate faults → ∀ before path after,
    executablePaths = before ++ path :: after →
    (∀ p ∈ before, faults.access p = false ∧ candidate.executable p = true) →
    faults.access path = false
  manifest : Executable candidate faults → faults.readManifest = none ∧
    Parseable host.stack 380870 (candidate.manifest.elim (.error "FileNotFoundError") .ok)
  launcher : Identified host candidate faults → faults.readLauncher = none ∧
    ∀ content, candidate.content .launcher = some content →
      Renderable host.python settings content
  script : Configured host settings candidate faults → faults.readScript = none ∧
    ∀ content, candidate.content .startServer = some content → ∃ t, readText content = .ok t
  /-- The wrapper is a script for bash. -/
  wrapper (t : Text) : Wrapped host settings candidate faults t → Checked faults →
    host.bash (universalNewlines t) = none

end Stages

section Stages

variable {host : Host} {settings : Settings} {candidate : Candidate} {faults : Faults}
  {inspected : Inspected} {t : Text}

theorem forM_requireFile : requiredPaths.forM (requireFile candidate faults) = .ok () ↔
    Complete candidate faults :=
  forM_eq_ok.trans (forall₂_congr fun _ _ => requireFile_eq_ok)

theorem forM_requireExecutable :
    executablePaths.forM (requireExecutable candidate faults) = .ok () ↔
      ∀ path ∈ executablePaths, faults.access path = false ∧ candidate.executable path = true :=
  forM_eq_ok.trans (forall₂_congr fun _ _ => requireExecutable_eq_ok)

theorem attempt_eq_ok {fault : Option String} : attempt fault = .ok () ↔ fault = none := by
  cases fault with
  | none => exact iff_of_true rfl rfl
  | some typeName => exact iff_of_false (fun h => by cases h) fun h => by cases h

theorem reading_eq_ok {fault : Option String} {reader : Option ByteArray → Except Err α}
    {file : Option ByteArray} (hnone : ∃ message, reader none = malformed message) {a : α} :
    reading fault reader file = .ok a ↔ fault = none ∧ reader file = .ok a := by
  cases fault with
  | some typeName =>
    obtain ⟨message, hmessage⟩ := hnone
    rw [reading, hmessage]
    refine iff_of_false (fun h => by cases h) ?_
    rintro ⟨h, -⟩
    cases h
  | none =>
    rw [reading]
    cases reader file with
    | error e =>
      refine iff_of_false (fun h => by cases h) ?_
      rintro ⟨-, h⟩
      cases h
    | ok a' =>
      constructor
      · rintro ⟨⟩
        exact ⟨rfl, rfl⟩
      · rintro ⟨-, ⟨⟩⟩
        rfl

/-- The wrappers that inspection comes to. -/
theorem inspect_eq_ok :
    (∃ inspected, inspect host settings candidate faults = .ok inspected ∧ inspected.wrapper = t) ↔
      Wrapped host settings candidate faults t ∧ faults.statLauncher = none ∧
        faults.statScript = none := by
  constructor
  · rintro ⟨inspected, h, rfl⟩
    obtain ⟨_, hcomplete, h⟩ := bind_eq_ok_iff.mp h
    obtain ⟨_, hexecutable, h⟩ := bind_eq_ok_iff.mp h
    obtain ⟨metadata, hmanifest, h⟩ := bind_eq_ok_iff.mp h
    obtain ⟨launcherJson, hlauncher, h⟩ := bind_eq_ok_iff.mp h
    obtain ⟨wrapper, hscript, h⟩ := bind_eq_ok_iff.mp h
    obtain ⟨_, hstat, h⟩ := bind_eq_ok_iff.mp h
    obtain ⟨_, hstat', h⟩ := bind_eq_ok_iff.mp h
    cases h
    obtain ⟨hread, hmanifest⟩ := (reading_eq_ok ⟨_, rfl⟩).mp hmanifest
    obtain ⟨hread', hlauncher⟩ := (reading_eq_ok ⟨_, rfl⟩).mp hlauncher
    exact ⟨⟨⟨⟨⟨forM_requireFile.mp hcomplete, forM_requireExecutable.mp hexecutable⟩, hread,
      _, hmanifest⟩, hread', _, hlauncher⟩, (reading_eq_ok ⟨_, rfl⟩).mp hscript⟩,
      attempt_eq_ok.mp hstat, attempt_eq_ok.mp hstat'⟩
  · rintro ⟨⟨⟨⟨⟨hcomplete, hexecutable⟩, hread, metadata, hmanifest⟩, hread', launcherJson,
      hlauncher⟩, hscript⟩, hstat, hstat'⟩
    refine ⟨⟨metadata, launcherJson, t, candidate.mode .launcher, candidate.mode .startServer⟩,
      ?_, rfl⟩
    refine bind_eq_ok_iff.mpr ⟨(), forM_requireFile.mpr hcomplete, ?_⟩
    refine bind_eq_ok_iff.mpr ⟨(), forM_requireExecutable.mpr hexecutable, ?_⟩
    refine bind_eq_ok_iff.mpr ⟨metadata, (reading_eq_ok ⟨_, rfl⟩).mpr ⟨hread, hmanifest⟩, ?_⟩
    refine bind_eq_ok_iff.mpr
      ⟨launcherJson, (reading_eq_ok ⟨_, rfl⟩).mpr ⟨hread', hlauncher⟩, ?_⟩
    refine bind_eq_ok_iff.mpr ⟨t, (reading_eq_ok ⟨_, rfl⟩).mpr hscript, ?_⟩
    refine bind_eq_ok_iff.mpr ⟨(), attempt_eq_ok.mpr hstat, ?_⟩
    exact bind_eq_ok_iff.mpr ⟨(), attempt_eq_ok.mpr hstat', rfl⟩

/-- A file that validation has found to be there. -/
theorem Complete.exists_content (h : Complete candidate faults) {path : Required}
    (hpath : path ∈ requiredPaths) : ∃ content, candidate.content path = some content :=
  Option.isSome_iff_exists.mp (h path hpath).2

theorem raises_accesses : Raises Fair (executablePaths.forM (requireExecutable candidate faults)) ↔
    ∀ before path after, executablePaths = before ++ path :: after →
      (∀ p ∈ before, faults.access p = false ∧ candidate.executable p = true) →
      faults.access path = false := by
  refine raises_forM.trans ?_
  refine forall₄_congr fun before path after heq => ?_
  refine imp_congr (forall₂_congr fun _ _ => requireExecutable_eq_ok) raises_requireExecutable

/-- What `_inspect` raises is what it found to be wrong. -/
theorem raises_inspect : Raises Fair (inspect host settings candidate faults) ↔
    (Complete candidate faults → ∀ before path after, executablePaths = before ++ path :: after →
      (∀ p ∈ before, faults.access p = false ∧ candidate.executable p = true) →
      faults.access path = false) ∧
    (Executable candidate faults → faults.readManifest = none ∧
      Parseable host.stack 380870 (candidate.manifest.elim (.error "FileNotFoundError") .ok)) ∧
    (Identified host candidate faults → faults.readLauncher = none ∧
      ∀ content, candidate.content .launcher = some content →
        Renderable host.python settings content) ∧
    (Configured host settings candidate faults → faults.readScript = none ∧
      ∀ content, candidate.content .startServer = some content →
        ∃ t, readText content = .ok t) := by
  have hmanifest : Raises Fair (reading faults.readManifest (readManifest host candidate)
      candidate.manifest) ↔ faults.readManifest = none ∧
        Parseable host.stack 380870 (candidate.manifest.elim (.error "FileNotFoundError") .ok) :=
    (raises_reading ⟨_, rfl⟩).trans
      (and_congr_right fun _ => closed_manifest_iff fun _ _ _ => trivial)
  have hlauncher (h : Complete candidate faults) : Raises Fair (reading faults.readLauncher
      (fun file => configuredLauncherJson host.python file settings)
      (candidate.content .launcher)) ↔ faults.readLauncher = none ∧
        ∀ content, candidate.content .launcher = some content →
          Renderable host.python settings content := by
    refine (raises_reading ⟨_, rfl⟩).trans (and_congr_right fun _ => ?_)
    obtain ⟨content, hcontent⟩ := h.exists_content (by decide : Required.launcher ∈ requiredPaths)
    rw [hcontent]
    refine closed_configuredLauncherJson.trans ⟨?_, fun h => h content rfl⟩
    rintro h _ ⟨⟩
    exact h
  have hscript (h : Complete candidate faults) : Raises Fair (reading faults.readScript
      statusPreservingWrapper (candidate.content .startServer)) ↔ faults.readScript = none ∧
        ∀ content, candidate.content .startServer = some content →
          ∃ t, readText content = .ok t := by
    refine (raises_reading ⟨_, rfl⟩).trans (and_congr_right fun _ => ?_)
    have hrequired : Required.startServer ∈ requiredPaths := by decide
    obtain ⟨content, hcontent⟩ := h.exists_content hrequired
    rw [hcontent]
    refine closed_statusPreservingWrapper.trans ⟨?_, fun h => h content rfl⟩
    rintro h _ ⟨⟩
    exact h
  constructor
  · intro h
    have hcomplete (hc : Complete candidate faults) :=
      raises_bind.mp ((raises_bind.mp h).2 () (forM_requireFile.mpr hc))
    have hexecutable (he : Executable candidate faults) :=
      raises_bind.mp ((hcomplete he.1).2 () (forM_requireExecutable.mpr he.2))
    refine ⟨fun hc => raises_accesses.mp (hcomplete hc).1,
      fun he => hmanifest.mp (hexecutable he).1, ?_, ?_⟩
    · rintro ⟨he, hread, metadata, hm⟩
      have hread' := (reading_eq_ok ⟨_, rfl⟩).mpr ⟨hread, hm⟩
      exact (hlauncher he.1).mp (raises_bind.mp ((hexecutable he).2 metadata hread')).1
    · rintro ⟨⟨he, hread, metadata, hm⟩, hread', launcherJson, hj⟩
      have hidentified := raises_bind.mp
        ((hexecutable he).2 metadata ((reading_eq_ok ⟨_, rfl⟩).mpr ⟨hread, hm⟩))
      have hconfigured := raises_bind.mp
        (hidentified.2 launcherJson ((reading_eq_ok ⟨_, rfl⟩).mpr ⟨hread', hj⟩))
      exact (hscript he.1).mp hconfigured.1
  · rintro ⟨haccess, hmanifest', hlauncher', hscript'⟩
    refine raises_bind.mpr ⟨raises_forM.mpr fun _ _ _ _ _ => raises_requireFile _,
      fun _ hfound => ?_⟩
    have hc := forM_requireFile.mp hfound
    refine raises_bind.mpr ⟨raises_accesses.mpr (haccess hc), fun _ hexec => ?_⟩
    have he : Executable candidate faults := ⟨hc, forM_requireExecutable.mp hexec⟩
    refine raises_bind.mpr ⟨hmanifest.mpr (hmanifest' he), fun metadata hm => ?_⟩
    obtain ⟨hread, hm⟩ := (reading_eq_ok ⟨_, rfl⟩).mp hm
    have hi : Identified host candidate faults := ⟨he, hread, metadata, hm⟩
    refine raises_bind.mpr ⟨(hlauncher hc).mpr (hlauncher' hi), fun launcherJson hj => ?_⟩
    obtain ⟨hread', hj⟩ := (reading_eq_ok ⟨_, rfl⟩).mp hj
    refine raises_bind.mpr
      ⟨(hscript hc).mpr (hscript' ⟨hi, hread', launcherJson, hj⟩), fun _ _ => ?_⟩
    refine raises_bind.mpr ⟨raises_attempt _, fun _ _ => ?_⟩
    exact raises_bind.mpr ⟨raises_attempt _, fun _ _ => raises_ok _⟩

/-! ### The syntax check -/

/-- The exceptions that are incompatibilities are those that come from what was found. -/
def Told (raised : Raised) : Prop :=
  (∃ message, raised.error = .incompatible message) ↔ raised.io = false

theorem told_incompatible {raised : Raised} : Told (incompatible raised) ↔ Fair raised := by
  obtain ⟨e, io⟩ := raised
  cases e with
  | update message =>
    exact iff_congr (iff_of_true ⟨_, rfl⟩ rfl) Iff.rfl
  | incompatible message =>
    exact iff_congr (iff_of_true ⟨_, rfl⟩ rfl) Iff.rfl
  | os typeName =>
    exact iff_congr (iff_of_false (fun ⟨_, h⟩ => by cases h) Bool.false_ne_true) Iff.rfl
  | other typeName =>
    exact iff_congr (iff_of_false (fun ⟨_, h⟩ => by cases h) Bool.false_ne_true) Iff.rfl

theorem told_io {e : Err} (h : ∀ message, e ≠ .incompatible message) : Told ⟨e, true⟩ :=
  iff_of_false (fun ⟨message, he⟩ => h message he) Bool.false_ne_true.symm

theorem raises_validatedWrapper : Raises Told (validatedWrapper host faults t) ↔
    (faults.writeTemporary = none → faults.readTemporary = none → faults.bash = false →
      faults.unlinkTemporary = none → host.bash (universalNewlines t) = none) := by
  -- an exception that the handler passes on
  have hhandler (raised : Raised) : Raises Told (attempt faults.unlinkTemporary >>= fun _ =>
      (throw raised : Except Raised Unit)) ↔ (faults.unlinkTemporary = none → Told raised) := by
    cases faults.unlinkTemporary with
    | none => exact ⟨fun h _ => raises_error.mp h, fun h => raises_error.mpr (h rfl)⟩
    | some typeName =>
      refine iff_of_true (raises_error.mpr (told_io ?_)) fun h => by cases h
      intro message he
      cases he
  rw [validatedWrapper]
  cases hwrite : faults.writeTemporary with
  | some typeName =>
    refine iff_of_true ((hhandler ⟨.os typeName, true⟩).mpr fun _ => told_io ?_) fun h => by cases h
    intro message he
    cases he
  | none =>
    change Raises Told (tryCatch (checkBashSyntax host faults t) _) ↔ _
    rw [checkBashSyntax]
    by_cases hrun : (faults.readTemporary.isSome || faults.bash) = true
    · rw [if_pos hrun]
      refine iff_of_true ((hhandler ⟨.update _, true⟩).mpr fun _ => told_io ?_) ?_
      · intro message he
        cases he
      · intro _ hread hbash
        rw [hread, hbash] at hrun
        cases hrun
    · rw [if_neg hrun]
      obtain ⟨hread, hbash⟩ := Bool.or_eq_false_iff.mp (Bool.eq_false_iff.mpr hrun)
      cases hverdict : host.bash (universalNewlines t) with
      | none => exact iff_of_true (raises_ok ()) fun _ _ _ _ => rfl
      | some detail =>
        refine (hhandler ⟨.update _, false⟩).trans ⟨fun h _ _ _ hunlink => ?_, fun h hunlink => ?_⟩
        · obtain ⟨message, he⟩ := (h hunlink).mpr rfl
          cases he
        · have hread := Option.isNone_iff_eq_none.mp (Option.isSome_eq_false_iff.mp hread)
          cases h rfl hread hbash hunlink

theorem raises_validate : Raises Told (validate host settings candidate faults) ↔
    Discerned host settings candidate faults := by
  have hinspect : Raises Told ((inspect host settings candidate faults).mapError incompatible) ↔
      Raises Fair (inspect host settings candidate faults) :=
    raises_mapError.trans (forall₂_congr fun _ _ => told_incompatible)
  have hok {inspected : Inspected} :
      (inspect host settings candidate faults).mapError incompatible = .ok inspected ↔
        inspect host settings candidate faults = .ok inspected := by
    cases inspect host settings candidate faults with
    | error raised => exact iff_of_false (fun h => by cases h) fun h => by cases h
    | ok inspected' => exact Iff.rfl
  have hrest (inspected : Inspected) :
      Raises Told (validatedWrapper host faults inspected.wrapper >>= fun _ =>
        (pure inspected : Except Raised Inspected)) ↔
        Raises Told (validatedWrapper host faults inspected.wrapper) :=
    raises_bind.trans (and_iff_left fun _ _ => raises_ok _)
  rw [validate, raises_bind, hinspect, raises_inspect]
  constructor
  · rintro ⟨⟨haccess, hmanifest, hlauncher, hscript⟩, hbash⟩
    refine ⟨haccess, hmanifest, hlauncher, hscript, fun t hwrapped hchecked => ?_⟩
    obtain ⟨hstat, hstat', hwrite, hread, hrun, hunlink⟩ := hchecked
    obtain ⟨inspected, h, rfl⟩ := inspect_eq_ok.mpr ⟨hwrapped, hstat, hstat'⟩
    exact raises_validatedWrapper.mp ((hrest inspected).mp (hbash inspected (hok.mpr h)))
      hwrite hread hrun hunlink
  · rintro ⟨haccess, hmanifest, hlauncher, hscript, hbash⟩
    refine ⟨⟨haccess, hmanifest, hlauncher, hscript⟩, fun inspected h => ?_⟩
    obtain ⟨hwrapped, hstat, hstat'⟩ := inspect_eq_ok.mp ⟨inspected, hok.mp h, rfl⟩
    refine (hrest inspected).mpr (raises_validatedWrapper.mpr fun hwrite hread hrun hunlink => ?_)
    exact hbash _ hwrapped ⟨hstat, hstat', hwrite, hread, hrun, hunlink⟩

/-! ### The outcome -/

theorem blocks_iff {raised : Raised} : Blocks (.error raised : Except Raised α) ↔
    ∃ message, raised.error = .incompatible message := by
  constructor
  · rintro ⟨message, io, ⟨⟩⟩
    exact ⟨message, rfl⟩
  · rintro ⟨message, h⟩
    obtain ⟨e, io⟩ := raised
    obtain rfl := h
    exact ⟨message, io, rfl⟩

theorem rejected_error_iff {raised : Raised} : Rejected (.error raised : Except Raised α) ↔
    raised.io = false := by
  constructor
  · rintro ⟨e, ⟨⟩⟩
    rfl
  · intro h
    obtain ⟨e, io⟩ := raised
    obtain rfl := h
    exact ⟨e, rfl⟩

theorem classified_error {raised : Raised} :
    Classified ((.error raised, ⟨none, none⟩) : Except Raised α × Written) ↔ Told raised :=
  (and_iff_left fun _ => rfl).trans (iff_congr blocks_iff rejected_error_iff)

theorem not_rejected_ok {r : Except Raised α} {a : α} (h : r = .ok a) : ¬ Rejected r := by
  rintro ⟨e, he⟩
  rw [h] at he
  cases he

theorem not_rejected_os {r : Except Raised α} {typeName : String}
    (h : r = .error ⟨.os typeName, true⟩) : ¬ Rejected r := by
  rintro ⟨e, he⟩
  rw [h] at he
  cases he

theorem classified_of_not {outcome : Except Raised α × Written} (hblocks : ¬ Blocks outcome.1)
    (hrejected : ¬ Rejected outcome.1) : Classified outcome :=
  ⟨iff_of_false hblocks hrejected, fun h => absurd h hrejected⟩

theorem writeBoth_cases (inspected : Inspected) :
    (∃ typeName, (writeBoth faults inspected).1 = .error ⟨.os typeName, true⟩) ∨
      (writeBoth faults inspected).1 = .ok () := by
  rw [writeBoth]
  split
  · exact .inl ⟨_, rfl⟩
  · split
    · exact .inl ⟨_, rfl⟩
    · cases hsync : faults.syncRelease with
      | none => exact .inr rfl
      | some typeName => exact .inl ⟨typeName, rfl⟩

theorem prepare_error {raised : Raised}
    (h : validate host settings candidate faults = .error raised) :
    prepare host settings candidate faults = (.error raised, ⟨none, none⟩) := by
  rw [prepare, h]

theorem prepare_ok (h : validate host settings candidate faults = .ok inspected) :
    (∃ typeName, (prepare host settings candidate faults).1 = .error ⟨.os typeName, true⟩) ∨
      (prepare host settings candidate faults).1 = .ok inspected.metadata := by
  rw [prepare, h]
  dsimp only
  split
  · exact .inl ⟨_, rfl⟩
  · rename_i hresult
    rcases @writeBoth_cases faults inspected with ⟨typeName, he⟩ | he
    · rw [he] at hresult
      cases hresult
      exact .inl ⟨typeName, rfl⟩
    · rw [he] at hresult
      cases hresult
  · exact .inr rfl

theorem checkBashSyntax_eq (h : (faults.readTemporary.isSome || faults.bash) = false) (t : Text) :
    checkBashSyntax host faults t = checkBashSyntax host .none t := by
  rw [checkBashSyntax, checkBashSyntax, if_neg (by rw [h]; exact Bool.false_ne_true)]
  rfl

theorem checkBashSyntax_none (t : Text) : checkBashSyntax host .none t = .ok () ∨
    ∃ e, checkBashSyntax host .none t = .error ⟨e, false⟩ := by
  rw [checkBashSyntax, if_neg (by exact Bool.false_ne_true)]
  split
  · exact .inr ⟨_, rfl⟩
  · exact .inl rfl

theorem validatedWrapper_none (t : Text) :
    validatedWrapper host .none t = checkBashSyntax host .none t := by
  change tryCatch (checkBashSyntax host .none t) _ = _
  rcases @checkBashSyntax_none host t with h | ⟨e, h⟩
  · rw [h]
    rfl
  · rw [h]
    rfl

theorem compares_validatedWrapper (t : Text) :
    Compares (validatedWrapper host faults t) (validatedWrapper host .none t) := by
  -- an exception that begins with a failure goes on to do so
  have hhandler (e : Err) : ∃ e', (attempt faults.unlinkTemporary >>= fun _ =>
      (throw ⟨e, true⟩ : Except Raised Unit)) = .error ⟨e', true⟩ := by
    cases faults.unlinkTemporary with
    | none => exact ⟨e, rfl⟩
    | some typeName => exact ⟨.os typeName, rfl⟩
  rw [validatedWrapper_none]
  constructor
  · rw [validatedWrapper]
    cases hwrite : faults.writeTemporary with
    | some typeName => exact .inl (hhandler _)
    | none =>
      change (∃ e, tryCatch (checkBashSyntax host faults t) _ = _) ∨
        tryCatch (checkBashSyntax host faults t) _ = _
      cases hrun : faults.readTemporary.isSome || faults.bash with
      | true =>
        rw [checkBashSyntax, if_pos hrun]
        exact .inl (hhandler _)
      | false =>
        rw [checkBashSyntax_eq hrun]
        rcases @checkBashSyntax_none host t with h | ⟨e, h⟩
        · rw [h]
          exact .inr rfl
        · rw [h]
          cases hunlink : faults.unlinkTemporary with
          | none => exact .inr rfl
          | some typeName => exact .inl ⟨.os typeName, rfl⟩
  · intro e he
    rcases @checkBashSyntax_none host t with h | ⟨e', h⟩
    · rw [h] at he
      cases he
    · rw [h] at he
      cases he

theorem compares_validate : Compares (validate host settings candidate faults)
    (validate host settings candidate .none) := by
  refine Compares.bind ?_ fun inspected => ?_
  · refine (compares_inspect host settings candidate faults).mapError fun raised => ?_
    obtain ⟨e, io⟩ := raised
    cases e <;> rfl
  · exact (compares_validatedWrapper inspected.wrapper).bind fun _ => compares_ok inspected

theorem prepare_none (h : validate host settings candidate .none = .ok inspected) :
    (prepare host settings candidate .none).1 = .ok inspected.metadata := by
  rw [prepare, h]
  rfl

/-- **A rejection is what there is without failures**: an exception that does not begin with a
failure is the one that is raised where no operation fails. -/
theorem rejected_iff : Rejected (prepare host settings candidate faults).1 ↔
    (∃ raised, (prepare host settings candidate faults).1 = .error raised) ∧
      prepare host settings candidate faults = prepare host settings candidate .none := by
  have hcompares := @compares_validate host settings candidate faults
  constructor
  · rintro ⟨e, he⟩
    refine ⟨⟨_, he⟩, ?_⟩
    cases hvalidate : validate host settings candidate faults with
    | ok inspected =>
      rcases prepare_ok hvalidate with ⟨typeName, h⟩ | h
      · exact absurd ⟨e, he⟩ (not_rejected_os h)
      · exact absurd ⟨e, he⟩ (not_rejected_ok h)
    | error raised =>
      rw [prepare_error hvalidate] at he ⊢
      cases he
      rcases hcompares.same with ⟨e', h⟩ | h
      · rw [hvalidate] at h
        cases h
      · rw [prepare_error (h.symm.trans hvalidate)]
  · rintro ⟨⟨raised, he⟩, hsame⟩
    rw [hsame] at he ⊢
    cases hvalidate : validate host settings candidate .none with
    | ok inspected =>
      rw [prepare_none hvalidate] at he
      cases he
    | error raised' =>
      rw [prepare_error hvalidate]
      refine rejected_error_iff.mpr ?_
      cases hio : raised'.io with
      | false => rfl
      | true =>
        exact absurd (hvalidate.trans (congrArg Except.error (eq_of_io hio))) (hcompares.ideal _)

/-- **A candidate is blocked if and only if it is rejected**, and nothing is written then, exactly
where the exceptions of the readers and of bash tell what was found from what failed. -/
theorem classified_iff : Classified (prepare host settings candidate faults) ↔
    Discerned host settings candidate faults := by
  rw [← raises_validate]
  cases hvalidate : validate host settings candidate faults with
  | error raised =>
    rw [prepare_error hvalidate]
    exact classified_error.trans raises_error.symm
  | ok inspected =>
    refine iff_of_true ?_ (raises_ok inspected)
    rcases prepare_ok hvalidate with ⟨typeName, h⟩ | h
    · refine classified_of_not ?_ (not_rejected_os h)
      rintro ⟨message, io, he⟩
      rw [h] at he
      cases he
    · refine classified_of_not ?_ (not_rejected_ok h)
      rintro ⟨message, io, he⟩
      rw [h] at he
      cases he

end Stages

/-! ### Two candidates -/

/-- A computer with little to say. -/
def quiet : Host := ⟨cpython, 900, fun _ => none⟩

/-- The files are there, and empty. -/
def emptied : Candidate := ⟨"candidate", fun _ => some .empty, fun _ => true, fun _ => 0o755,
  some .empty⟩

/-- The manifest cannot be read, and the build is blocked; then it can be read, and its first byte
is not text, and the build is not. -/
theorem transient_blocks :
    ¬ Classified (prepare quiet (gigabytes 2 4) emptied
      { Faults.none with readManifest := some "PermissionError" }) ∧
    ¬ Classified (prepare quiet (gigabytes 2 4)
      { emptied with manifest := some ⟨#[0xff]⟩ } .none) := by
  constructor
  · intro h
    have hraised : prepare quiet (gigabytes 2 4) emptied
        { Faults.none with readManifest := some "PermissionError" } =
        (.error ⟨.incompatible _, true⟩, ⟨none, none⟩) := rfl
    rw [hraised] at h
    cases (classified_error.mp h).mp ⟨_, rfl⟩
  · intro h
    have hraised : prepare quiet (gigabytes 2 4) { emptied with manifest := some ⟨#[0xff]⟩ } .none =
        (.error ⟨.other "UnicodeDecodeError", false⟩, ⟨none, none⟩) := by
      rfl
    rw [hraised] at h
    obtain ⟨message, he⟩ := (classified_error.mp h).mpr rfl
    cases he

end Launcher

end PzServer
