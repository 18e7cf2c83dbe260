import PzServer.Interaction.Traces
import PzServer.Updater.Conformance

/-!
# What an update asks for

The requests that the functions of `prepare_start` can make, whatever the disk is and however the
requests end. Two things are read off from them: the launcher is only ever written with the
configured heap, and only the validation of a candidate writes a record that rejects its build.

## Main results

* `recoverInterrupted_uses` — recovery only removes and records
* `applyPolicy_uses`, `checkAndUpdate_uses` — the launcher writes of an update
* `afterFailedUpdate_uses`, `activate_uses` — and its records, apart from `validateCandidate`
-/

namespace PzServer

namespace Updater

open Interaction

variable {α β : Type} {N : Request → Prop}

/-! ### Rules -/

/-- All requests of `p` satisfy `N`. -/
abbrev Uses (N : Request → Prop) (p : UpdaterM α) : Prop := world.Only (fun m => N m.request) p

theorem ask_uses {q : Request} (h : N q) : Uses N (ask q) := World.only_ask fun _ _ _ => h

theorem pure_uses {a : α} : Uses N (pure a : UpdaterM α) := World.only_pure

theorem throw_uses {e : Err} : Uses N (throw e : UpdaterM α) := World.only_throw

theorem ask_bind_uses {q : Request} {f : Value q → UpdaterM α} (h : N q)
    (hf : ∀ v, Uses N (f v)) : Uses N (ask q >>= f) :=
  World.Only.bind (ask_uses h) hf

theorem exceptOn_uses {catches : Err → Bool} {body : UpdaterM α} {handler : Err → UpdaterM α}
    (h : Uses N body) (hhandler : ∀ e, Uses N (handler e)) :
    Uses N (exceptOn catches body handler) := by
  refine World.Only.tryCatch h fun e => ?_
  split
  · exact hhandler e
  · exact throw_uses

theorem writeState_uses {value : Record} (h : N (.writeState value)) :
    Uses N (writeState value) :=
  ask_bind_uses h fun _ => pure_uses

theorem reraise_uses {e : Err} {text : String} : Uses N (reraise e text : UpdaterM α) := by
  rw [reraise]
  split
  · exact throw_uses
  · exact throw_uses

/-! ### Three footprints -/

/-- The record rejects a build. -/
def Record.Rejects (r : Record) : Prop :=
  r.state = .failedBeforeWorldOpen ∧ r.lastResult = some .candidateIncompatible

instance (r : Record) : Decidable r.Rejects := inferInstanceAs (Decidable (_ ∧ _))

/-- The launcher is written with the configured heap, a record that rejects a build blocks it, and
the marker is not looked at. -/
def Configured (c : UpdateConfiguration) : Request → Prop
  | .writeState r => r.Rejects → r.blockedBuild = r.candidateBuild
  | .writeLauncherJson _ xms xmx => xms = c.pzXms ∧ xmx = c.pzXmx
  | .markerExists => False
  | _ => True

/-- The same, and no build is rejected. -/
def Ordinary (c : UpdateConfiguration) : Request → Prop
  | .writeState r => ¬ r.Rejects
  | .writeLauncherJson _ xms xmx => xms = c.pzXms ∧ xmx = c.pzXmx
  | .markerExists => False
  | _ => True

/-- Recovery: no launcher is written, no directory is made or filled, no pointer moves. -/
def Recovering : Request → Prop
  | .writeState r => ¬ r.Rejects
  | .utcNow | .readActive | .pathExists _ | .rmtree _ | .raiseAmbiguous => True
  | _ => False

theorem Ordinary.configured {c : UpdateConfiguration} {q : Request} (h : Ordinary c q) :
    Configured c q := by
  cases q with
  | writeState => exact fun hr => absurd hr h
  | writeLauncherJson | markerExists => exact h
  | _ => trivial

theorem Recovering.ordinary {c : UpdateConfiguration} {q : Request} (h : Recovering q) :
    Ordinary c q := by
  cases q with
  | writeState => exact h
  | writeLauncherJson | markerExists => exact h.elim
  | _ => trivial

/-- What recovers is ordinary, whatever is configured. -/
theorem uses_ordinary {c : UpdateConfiguration} {p : UpdaterM α} (h : Uses Recovering p) :
    Uses (Ordinary c) p :=
  h.mono fun _ => Recovering.ordinary

/-- What is ordinary writes the launcher as configured. -/
theorem uses_configured {c : UpdateConfiguration} {p : UpdaterM α} (h : Uses (Ordinary c) p) :
    Uses (Configured c) p :=
  h.mono fun _ => Ordinary.configured

section Update

variable {c : UpdateConfiguration} {active : Option Release} {current : Option SteamBuildMetadata}
  {latest : ℕ} {state : Record} {validate : Bool}

theorem launcherPrepare_uses {r : Release} : Uses (Ordinary c) (launcherPrepare c r) :=
  ask_bind_uses trivial fun _ => ask_bind_uses ⟨rfl, rfl⟩ fun _ => ask_bind_uses trivial fun _ =>
    pure_uses

theorem rmtreeIgnoringErrors_uses {r : Release} : Uses (Ordinary c) (rmtreeIgnoringErrors r) :=
  World.Only.tryCatch (ask_uses trivial) fun _ => pure_uses

theorem removeIfPresent_uses {r : Option Release} : Uses Recovering (removeIfPresent r) := by
  cases r with
  | none => exact pure_uses
  | some path =>
    refine ask_bind_uses trivial fun present => ?_
    split
    · exact ask_uses trivial
    · exact pure_uses

theorem writePrevious_uses {r : Option Release} : Uses (Ordinary c) (writePrevious r) := by
  cases r with
  | none => exact ask_uses trivial
  | some r => exact ask_uses trivial

/-- A record that is written after one or two looks at the clock. -/
theorem recordPreWorldFailure_uses {candidate : Option ℕ} {result : LastResult} {detail : String}
    {block : Bool} (h : result ≠ .candidateIncompatible) :
    Uses (Ordinary c) (recordPreWorldFailure state current candidate result detail block) := by
  refine ask_bind_uses trivial fun _ => ask_bind_uses trivial fun _ => writeState_uses ?_
  rintro ⟨-, hresult⟩
  exact h (Option.some.inj hresult)

theorem writeObservation_uses {result : LastResult} :
    Uses Recovering (writeObservation c state current result) := by
  refine ask_bind_uses trivial fun _ => writeState_uses ?_
  rintro ⟨hstate, -⟩
  cases current with
  | none => exact nomatch hstate
  | some _ => exact nomatch hstate

/-! ### Recovery -/

theorem recoverActivation_uses : Uses Recovering (recoverActivation state) := by
  rw [recoverActivation]
  split
  · exact pure_uses
  · refine ask_bind_uses trivial fun active => ?_
    split
    · refine ask_bind_uses trivial fun _ => writeState_uses ?_
      rintro ⟨hstate, -⟩
      cases hstate
    · split
      · refine World.Only.bind removeIfPresent_uses fun _ => ?_
        refine ask_bind_uses trivial fun _ => writeState_uses ?_
        rintro ⟨-, hresult⟩
        cases hresult
      · exact ask_bind_uses trivial fun never => never.elim

theorem removeInterrupted_uses {r : Option Release} : Uses Recovering (removeInterrupted r) := by
  cases r with
  | none => exact pure_uses
  | some path =>
    refine ask_bind_uses trivial fun present => ?_
    split
    · exact exceptOn_uses (ask_uses trivial) fun _ => throw_uses
    · exact pure_uses

theorem recoverInterrupted_uses : Uses Recovering (recoverInterrupted state) := by
  rw [recoverInterrupted]
  split
  · exact recoverActivation_uses
  · split
    · exact throw_uses
    · refine World.Only.bind removeInterrupted_uses fun _ => ?_
      refine World.Only.bind removeInterrupted_uses fun _ => ?_
      refine ask_bind_uses trivial fun _ => writeState_uses ?_
      rintro ⟨-, hresult⟩
      cases hresult

/-! ### The transaction -/

/-- Recording a failure and raising it again. -/
theorem recordAndReraise_uses {candidate : Option ℕ} {result : LastResult} {detail text : String}
    {e : Err} (h : result ≠ .candidateIncompatible) : Uses (Ordinary c) (do
      let _ ← recordPreWorldFailure state current candidate result detail false
      (reraise e text : UpdaterM α)) :=
  World.Only.bind (recordPreWorldFailure_uses h) fun _ => reraise_uses

theorem checkPreconditions_uses :
    Uses (Ordinary c) (checkPreconditions active current latest state) := by
  refine ask_bind_uses trivial fun running => ?_
  split
  · exact World.Only.bind (recordPreWorldFailure_uses nofun) fun _ => throw_uses
  · refine exceptOn_uses ?_ fun e => recordAndReraise_uses nofun
    cases active with
    | none => exact ask_uses trivial
    | some release =>
      refine World.Only.bind ?_ fun _ => ask_uses trivial
      refine ask_bind_uses trivial fun previous => ?_
      exact World.Only.bind (uses_ordinary removeIfPresent_uses) fun _ => writePrevious_uses

theorem beginDownload_uses : Uses (Ordinary c) (beginDownload c current latest state) := by
  refine ask_bind_uses trivial fun candidate => ?_
  refine World.Only.bind (exceptOn_uses (ask_uses trivial) fun _ => ?_) fun _ => ?_
  · exact World.Only.bind (recordPreWorldFailure_uses nofun) fun _ => throw_uses
  · refine World.Only.bind (exceptOn_uses ?_ fun _ => ?_) fun _ => pure_uses
    · refine ask_bind_uses trivial fun _ => ask_bind_uses trivial fun _ => ?_
      refine World.Only.bind (writeState_uses ?_) fun _ => pure_uses
      rintro ⟨hstate, -⟩
      cases hstate
    · exact World.Only.bind rmtreeIgnoringErrors_uses fun _ => throw_uses

theorem download_uses {candidate : Release} :
    Uses (Ordinary c) (download c candidate current latest state validate) := by
  refine World.Only.tryCatch (ask_uses trivial) fun e => ?_
  exact World.Only.bind rmtreeIgnoringErrors_uses fun _ => recordAndReraise_uses nofun

theorem backUp_uses {candidate : Release} :
    Uses (Ordinary c) (backUp active candidate current latest state) := by
  have hcreate : Uses (Ordinary c) (createBackup candidate current latest state) := by
    refine World.Only.tryCatch (ask_uses trivial) fun e => ?_
    exact World.Only.bind rmtreeIgnoringErrors_uses fun _ => recordAndReraise_uses nofun
  have hneeded : ∀ needed : Bool, Uses (Ordinary c)
      (if needed = true then do
        let path ← createBackup candidate current latest state
        return some path
      else return none) := by
    intro needed
    split
    · exact World.Only.bind hcreate fun _ => pure_uses
    · exact pure_uses
  rw [backUp]
  split
  · exact World.Only.bind pure_uses hneeded
  · exact ask_bind_uses trivial hneeded

theorem discardFailed_uses {r : Release} : Uses (Ordinary c) (discardFailed r) := by
  refine ask_bind_uses trivial fun present => ?_
  split
  · exact rmtreeIgnoringErrors_uses
  · exact pure_uses

theorem promoteCandidate_uses {candidate : Release} {backupPath : Option String} :
    Uses (Ordinary c) (promoteCandidate active candidate current latest state backupPath) := by
  refine ask_bind_uses trivial fun final => ask_bind_uses trivial fun _ => ?_
  refine World.Only.bind (writeState_uses ?_) fun promoting => ?_
  · rintro ⟨hstate, -⟩
    cases hstate
  · refine World.Only.bind (exceptOn_uses ?_ fun e => ?_) fun _ => pure_uses
    · refine ask_bind_uses trivial fun _ => ask_bind_uses trivial fun _ => writeState_uses ?_
      rintro ⟨hstate, -⟩
      cases hstate
    · refine World.Only.bind discardFailed_uses fun _ => ?_
      exact World.Only.bind discardFailed_uses fun _ => recordAndReraise_uses nofun

theorem activate_uses {final : Release} {activating : Record} :
    Uses (Ordinary c) (activate active final latest activating) := by
  refine World.Only.bind (exceptOn_uses ?_ fun _ => ?_) fun _ => ?_
  · exact World.Only.bind writePrevious_uses fun _ => ask_uses trivial
  · refine World.Only.bind (uses_ordinary recoverActivation_uses) fun recovered => ?_
    split
    · exact throw_uses
    · exact pure_uses
  · refine ask_bind_uses trivial fun _ => writeState_uses ?_
    rintro ⟨hstate, -⟩
    cases hstate

/-- The validation of the candidate is the one that rejects its build. -/
theorem validateCandidate_uses {candidate : Release} :
    Uses (Configured c) (validateCandidate c candidate current latest state) := by
  refine World.Only.tryCatch ?_ fun e => ?_
  · refine World.Only.bind (uses_configured launcherPrepare_uses) fun metadata => ?_
    split
    · exact throw_uses
    · exact pure_uses
  · refine World.Only.bind (uses_configured rmtreeIgnoringErrors_uses) fun _ => ?_
    cases e with
    | incompatible text =>
      refine World.Only.bind ?_ fun _ => throw_uses
      exact ask_bind_uses trivial fun _ => ask_bind_uses trivial fun _ =>
        writeState_uses fun _ => rfl
    | _ => exact uses_configured (recordAndReraise_uses nofun)

theorem stageAndActivate_uses :
    Uses (Configured c) (stageAndActivate c active current latest state validate) := by
  refine World.Only.bind (uses_configured checkPreconditions_uses) fun _ => ?_
  refine World.Only.bind (uses_configured beginDownload_uses) fun candidate => ?_
  refine World.Only.bind (uses_configured download_uses) fun _ => ?_
  refine World.Only.bind validateCandidate_uses fun _ => ?_
  refine World.Only.bind (uses_configured backUp_uses) fun backupPath => ?_
  refine World.Only.bind (uses_configured promoteCandidate_uses) fun promoted => ?_
  exact uses_configured activate_uses

/-- Asking Steam, with the handler that records a failed query. -/
def queryLatest (c : UpdateConfiguration) (current : Option SteamBuildMetadata) (state : Record) :
    UpdaterM ℕ :=
  exceptUpdate (ask (.latestBuild c.steamBranch)) fun error => do
    let _ ← recordPreWorldFailure state current none .metadataQueryFailed error.message false
    throw error

theorem queryLatest_uses : Uses (Ordinary c) (queryLatest c current state) :=
  exceptOn_uses (ask_uses trivial) fun _ =>
    World.Only.bind (recordPreWorldFailure_uses nofun) fun _ => throw_uses

theorem recordNoUpdate_uses {currentBuild : Option ℕ} :
    Uses (Ordinary c) (recordNoUpdate c currentBuild state) := by
  refine ask_bind_uses trivial fun _ => ask_bind_uses trivial fun _ => writeState_uses ?_
  rintro ⟨hstate, -⟩
  cases hstate

theorem checkAndUpdate_uses {allowBlocked : Bool} :
    Uses (Configured c) (checkAndUpdate c active current state validate allowBlocked) := by
  refine World.Only.bind (uses_configured queryLatest_uses) fun latest => ?_
  dsimp only
  split
  · exact uses_configured recordNoUpdate_uses
  · split
    · exact uses_configured (World.Only.bind (recordPreWorldFailure_uses nofun) fun _ => throw_uses)
    · split
      · exact throw_uses
      · exact stageAndActivate_uses

theorem afterFailedUpdate_uses {error : Err} :
    Uses (Ordinary c) (afterFailedUpdate active error) := by
  have hend : ∀ failed selected, Uses (Ordinary c)
      (if active.isSome ∧ selected = active ∧ failed.state ∉ [.activating, .pendingReadiness,
          .startingCandidate, .runtimeReady, .failedAfterWorldOpen] then
        (return failed : UpdaterM Record)
      else
        throw error) := by
    intro failed selected
    split
    · exact pure_uses
    · exact throw_uses
  refine ask_bind_uses trivial fun failed => ask_bind_uses trivial fun selected => ?_
  dsimp only
  split
  · refine World.Only.bind
      (exceptOn_uses (uses_ordinary recoverInterrupted_uses) fun _ => pure_uses) ?_
    exact fun r => hend r selected
  · exact World.Only.bind pure_uses fun r => hend r selected

/-- **The launcher writes of an update.** -/
theorem applyPolicy_uses : Uses (Configured c) (applyPolicy c active current state) := by
  rw [applyPolicy]
  split
  · split
    · exact pure_uses
    · exact uses_configured (uses_ordinary writeObservation_uses)
  · split
    · exact uses_configured (uses_ordinary writeObservation_uses)
    · exact exceptOn_uses checkAndUpdate_uses fun _ => uses_configured afterFailedUpdate_uses

end Update

end Updater

end PzServer
