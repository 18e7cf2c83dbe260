import Mathlib.Data.Set.Finite.Basic
import Mathlib.Data.Set.Finite.Range
import PzServer.Updater.Acceptance
import PzServer.Updater.Frame

/-!
# Progress after a crash

A container start after any run, in surroundings where everything succeeds: does it install the
newer build? `succeeding` is the updater's world with the failures left out, so a program is shown
to progress by the same rules as before, with an exception postcondition that is `False`.

It does, except in one case. `discard_old_previous` removes the directory of the previous release
and then the pointer to it; a kill in between leaves `previous-release` naming a directory that is
gone, `_read_pointer` refuses to read it, and so the removal of the pointer is never tried again.

## Main results

* `UpdaterHistory.progress_iff` — progress is made if and only if `previous-release` does not name
  a missing directory
* `UpdaterHistory.progress_fails` — a run that ends in such a state
-/

namespace PzServer

namespace Updater

open Interaction

variable {α : Type} {latest : ℕ} {s new d : Disk} {past : List UpdaterMove}
  {h : List UpdaterEntry}
  {ok : α → List UpdaterMove → Disk → Prop} {err : Err → List UpdaterMove → Disk → Prop}

/-! ### Surroundings without failures -/

/-- The choices that are successes, when Steam reports build `latest`. -/
def succeeds (latest : ℕ) (d : Disk) : (q : Request) → Choice q → Bool
  | .lock, c => c = .acquired
  | .loadState, c | .readActive, c | .readPrevious, c | .readInstalledMetadata _, c =>
    c = ReadOutcome.ok
  | .writeState _, c | .writeActive _, c | .writePrevious _, c | .promote .., c
  | .writeLauncherJson .., c | .replaceWrapper _, c => c = WriteOutcome.ok
  | .unlinkPrevious, c | .ensureRoot, c | .mkdir _, c | .requireCandidateSpace _, c =>
    c = (none : Option String)
  | .markerExists, b => !b
  | .latestBuild _, .ok build => build = latest
  | .latestBuild _, .error _ => false
  | .install .., (.ok _, D) => D.build = some latest
  | .install .., (.error _, _) => false
  | .gameServerRunning, .ok running => !running
  | .gameServerRunning, .error _ => false
  | .uniqueCandidate build, uuid => (d.releases (.candidate build uuid)).isNone
  | .rmtree _, c => c = .removed
  | .inspectLauncher .., c => c = .passed
  | .createBackup .., c => c.isOk
  | _, _ => true

/-- The updater's surroundings when nothing fails. -/
def succeeding (latest : ℕ) : World Request Reply Disk := world.restrict (succeeds latest)

/-- What a program does when nothing outside it fails. It may still raise. -/
abbrev Runs (latest : ℕ) (p : UpdaterM α) (ok : α → List UpdaterMove → Disk → Prop)
    (err : Err → List UpdaterMove → Disk → Prop) (past : List UpdaterMove) (s : Disk) : Prop :=
  (succeeding latest).Ensures (fun _ _ => True) p ok err past s

/-- The program succeeds when nothing outside it fails. -/
abbrev Succeeds (latest : ℕ) (p : UpdaterM α) (ok : α → Disk → Prop) (past : List UpdaterMove)
    (s : Disk) : Prop :=
  Runs latest p (fun a _ new => ok a new) (fun _ _ _ => False) past s

/-- The requests that can only succeed on disk `d`. -/
def Fine (d : Disk) : Request → Prop
  | .readActive => ∀ r, d.active = some r → (d.releases r).isSome
  | .readPrevious => ∀ r, d.previous = some r → (d.releases r).isSome
  | .inspectLauncher r _ _ | .readInstalledMetadata r => (d.buildOf r).isSome
  | .mkdir r => d.releases r = none
  | .rmtree r => (d.releases r).isSome
  | .promote candidate final => (d.releases candidate).isSome ∧ d.releases final = none
  | .raiseAmbiguous => False
  | _ => True

/-- What the surroundings add to the `Effect` of a request. -/
def Told (latest : ℕ) (d new : Disk) : (q : Request) → Value q → Prop
  | .latestBuild _, v => v = latest
  | .markerExists, v | .gameServerRunning, v => v = false
  | .uniqueCandidate _, r => d.releases r = none
  | .install r _ _ _, _ => (d.releases r).isSome → new.buildOf r = some latest
  | _, _ => True

theorem Disk.readPointer_of_exists {d : Disk} {pointer : Option Release} (name : String)
    (h : ∀ r, pointer = some r → (d.releases r).isSome) :
    d.readPointer name pointer .ok = .ok pointer := by
  cases pointer with
  | none => rfl
  | some r => simp [readPointer, h r rfl]

theorem Disk.manifest_of_buildOf (d : Disk) {r : Release} (h : (d.buildOf r).isSome) :
    ∃ m, (d.releases r).bind Directory.manifest = some m := by
  cases hD : d.releases r with
  | none => simp [Disk.buildOf, hD] at h
  | some D => simpa [Disk.buildOf, Directory.build, hD, Option.isSome_iff_exists] using h

theorem answer_succeeds {q : Request} {c : Choice q} (hfine : Fine s q)
    (h : allowed s q c = true) (hs : succeeds latest s q c = true) :
    ∃ v, (answer s q c).1 = .ok v ∧ Told latest s (answer s q c).2 q v := by
  cases q with
  | lock | loadState | writeState | writeActive | writePrevious | unlinkPrevious | ensureRoot
  | requireCandidateSpace | writeLauncherJson | replaceWrapper =>
    simp only [succeeds, decide_eq_true_eq] at hs
    subst hs
    exact ⟨_, rfl, trivial⟩
  | utcNow | worldHasState | pathExists | finalRelease => exact ⟨_, rfl, trivial⟩
  | markerExists => exact ⟨_, rfl, by simpa [succeeds, Told] using hs⟩
  | uniqueCandidate => exact ⟨_, rfl, by simpa [succeeds, Told] using hs⟩
  | latestBuild =>
    cases c with
    | ok build => exact ⟨_, rfl, by simpa [succeeds, Told] using hs⟩
    | error => simp [succeeds] at hs
  | gameServerRunning =>
    cases c with
    | ok running => exact ⟨_, rfl, by simpa [succeeds, Told] using hs⟩
    | error => simp [succeeds] at hs
  | createBackup =>
    cases c with
    | ok path => exact ⟨_, rfl, trivial⟩
    | error => simp [succeeds, Except.isOk, Except.toBool] at hs
  | install r =>
    obtain ⟨c, D⟩ := c
    cases c with
    | error => simp [succeeds] at hs
    | ok =>
      refine ⟨_, rfl, fun hr => ?_⟩
      obtain ⟨D', hD'⟩ := Option.isSome_iff_exists.mp hr
      have hbuild : D.build = some latest := by simpa [succeeds] using hs
      simpa [answer, Disk.inDirectory_of_some hD', Disk.buildOf, Directory.build] using hbuild
  | readActive =>
    simp only [succeeds, decide_eq_true_eq] at hs
    subst hs
    exact ⟨s.active, by simp [answer, Disk.readPointer_of_exists _ hfine], trivial⟩
  | readPrevious =>
    simp only [succeeds, decide_eq_true_eq] at hs
    subst hs
    exact ⟨s.previous, by simp [answer, Disk.readPointer_of_exists _ hfine], trivial⟩
  | mkdir r =>
    simp only [succeeds, decide_eq_true_eq] at hs
    subst hs
    have hnone : s.releases r = none := hfine
    exact ⟨(), by simp [answer, hnone], trivial⟩
  | rmtree r =>
    simp only [succeeds, decide_eq_true_eq] at hs
    subst hs
    obtain ⟨D, hD⟩ := Option.isSome_iff_exists.mp hfine
    exact ⟨(), by simp [answer, hD], trivial⟩
  | promote candidate final =>
    simp only [succeeds, decide_eq_true_eq] at hs
    subst hs
    obtain ⟨D, hD⟩ := Option.isSome_iff_exists.mp hfine.1
    exact ⟨(), by simp [answer, hD, hfine.2, durably], trivial⟩
  | inspectLauncher r =>
    simp only [succeeds, decide_eq_true_eq] at hs
    subst hs
    obtain ⟨m, hm⟩ := s.manifest_of_buildOf hfine
    exact ⟨m, by simp [answer, hm], trivial⟩
  | readInstalledMetadata r =>
    simp only [succeeds, decide_eq_true_eq] at hs
    subst hs
    obtain ⟨m, hm⟩ := s.manifest_of_buildOf hfine
    exact ⟨m, by simp [answer, Disk.readInstalled, hm], trivial⟩
  | raiseAmbiguous => exact hfine.elim

/-! ### Rules -/

theorem runs_ask {q : Request} {ok : Value q → List UpdaterMove → Disk → Prop} (hfine : Fine s q)
    (hok : ∀ v past' new, Effect s new q (.ok v) → Told latest s new q v → ok v past' new) :
    Runs latest (ask q) ok err past s := by
  refine World.ensures_ask fun c hc => ⟨trivial, ?_⟩
  have hboth : allowed s q c = true ∧ succeeds latest s q c = true :=
    (Bool.and_eq_true _ _).mp hc
  obtain ⟨v, hv, htold⟩ := answer_succeeds hfine hboth.1 hboth.2
  have heffect := effect_answer hboth.1
  rw [hv] at heffect
  have hpost := hok v ((succeeding latest).move s q c :: past) _ heffect htold
  simp only [succeeding, World.restrict, world] at hpost ⊢
  rw [hv]
  exact hpost

theorem runs_ask_bind {q : Request} {f : Value q → UpdaterM α} (hfine : Fine s q)
    (hok : ∀ v past' new, Effect s new q (.ok v) → Told latest s new q v →
      Runs latest (f v) ok err past' new) : Runs latest (ask q >>= f) ok err past s :=
  .bind (runs_ask hfine hok)

/-- What conforms, as part of any operation, does so when nothing fails: its specification can be
added. -/
theorem Succeeds.with_conforms {p : UpdaterM α} {ok' : α → Disk → Prop}
    (h' : Succeeds latest p ok' past s) (op : Operation) (start : Disk)
    (h : Conforms op start p ok err past s) :
    Runs latest p (fun a past new => ok a past new ∧ ok' a new) (fun _ _ _ => False) past s :=
  ((h.restrict (succeeds latest)).and h').mono (fun _ _ _ => id) fun _ _ _ he => he.2

/-- A body that succeeds leaves its handler unused. -/
theorem runs_exceptOn {catches : Err → Bool} {body : UpdaterM α} {handler : Err → UpdaterM α}
    (h : Runs latest body ok (fun _ _ _ => False) past s) :
    Runs latest (exceptOn catches body handler) ok err past s :=
  World.Ensures.handle h (fun _ _ _ _ ha => ha) fun _ _ _ _ => False.elim

theorem runs_tryCatch {body : UpdaterM α} {handler : Err → UpdaterM α}
    (h : Runs latest body ok (fun _ _ _ => False) past s) :
    Runs latest (tryCatch body handler) ok err past s :=
  World.Ensures.handle h (fun _ _ _ _ ha => ha) fun _ _ _ _ => False.elim

theorem writeState_runs {value : Record} {ok : Record → List UpdaterMove → Disk → Prop}
    (hok : ∀ past', ok value past' { s with record := some value }) :
    Runs latest (writeState value) ok err past s := by
  refine runs_ask_bind trivial fun _ past' new he _ => ?_
  obtain rfl := he
  exact World.ensures_pure (hok past')

/-! ### Recovery, and the launcher -/

/-- The record and both pointers are the same. -/
structure SameFiles (s new : Disk) : Prop where
  record : new.record = s.record
  active : new.active = s.active
  previous : new.previous = s.previous

theorem SameFiles.refl (s : Disk) : SameFiles s s := ⟨rfl, rfl, rfl⟩

theorem removeIfPresent_succeeds {r : Option Release} :
    Succeeds latest (removeIfPresent r) (fun _ new => SameFiles s new) past s := by
  cases r with
  | none => exact World.ensures_pure (.refl s)
  | some path =>
    refine runs_ask_bind trivial fun v _ new he _ => ?_
    obtain ⟨rfl, rfl⟩ := he
    split
    · rename_i hexists
      refine runs_ask hexists fun _ _ new' he _ => ?_
      obtain rfl := he
      exact ⟨rfl, rfl, rfl⟩
    · exact World.ensures_pure (.refl _)

theorem removeInterrupted_succeeds {r : Option Release} :
    Succeeds latest (removeInterrupted r) (fun _ new => SameFiles s new) past s := by
  cases r with
  | none => exact World.ensures_pure (.refl s)
  | some path =>
    refine runs_ask_bind trivial fun v _ new he _ => ?_
    obtain ⟨rfl, rfl⟩ := he
    split
    · rename_i hexists
      refine runs_exceptOn (runs_ask hexists fun _ _ new' he _ => ?_)
      obtain rfl := he
      exact ⟨rfl, rfl, rfl⟩
    · exact World.ensures_pure (.refl _)

/-- The recorded candidate is not one that waits for readiness, now or after recovery. -/
structure Restartable (s : Disk) : Prop where
  uncommitted : ¬ s.state.Committed
  unselected : s.state = .activating → s.active ≠ s.loaded.candidateRelease

/-- Recovery returns the record it found, or one that records the interruption. -/
theorem recoverInterrupted_succeeds (hs : Inv s) (h : Restartable s) :
    Succeeds latest (recoverInterrupted s.loaded)
      (fun r new => new.previous = s.previous ∧
        (s.state.Settled ∧ new = s ∧ r = s.loaded ∨
          ¬ s.state.Settled ∧ r.state = .failedBeforeWorldOpen ∧ r.blockedBuild = none))
      past s := by
  unfold recoverInterrupted
  rcases s.state.cases_group with hstate | hstate | hstate | hstate
  · have hnot : s.loaded.state ≠ .downloadingCandidate ∧ s.loaded.state ≠ .promotingCandidate ∧
        s.loaded.state ≠ .activating := by
      cases hn : s.state <;> simp_all [StateName.Settled]
    rw [if_pos ⟨hnot.1, hnot.2.1⟩]
    unfold recoverActivation
    rw [if_pos hnot.2.2]
    exact World.ensures_pure ⟨rfl, .inl ⟨hstate, rfl, rfl⟩⟩
  · have hnot : ¬ (s.loaded.state ≠ .downloadingCandidate ∧
        s.loaded.state ≠ .promotingCandidate) := by
      cases hn : s.state <;> simp_all [StateName.Staging]
    have hsome := hs.staging hstate
    rw [if_neg hnot, if_neg (by simp [Option.isSome_iff_ne_none.mp hsome])]
    refine removeInterrupted_succeeds.seq (fun _ _ s₁ _ h₁ => ?_) fun _ _ _ _ => False.elim
    refine removeInterrupted_succeeds.seq (fun _ _ s₂ _ h₂ => ?_) fun _ _ _ _ => False.elim
    refine runs_ask_bind trivial fun now _ s₃ he _ => ?_
    obtain rfl := he
    exact writeState_runs fun _ =>
      ⟨h₂.previous.trans h₁.previous, .inr ⟨hstate.not_settled, rfl, rfl⟩⟩
  · have hactivating : s.loaded.state = .activating := hstate
    rw [if_pos (by simp [hactivating])]
    unfold recoverActivation
    rw [if_neg (not_not.mpr hactivating)]
    refine runs_ask_bind (fun r hr => ?_) fun v _ s₁ he _ => ?_
    · obtain ⟨D, -, hD, -⟩ := hs.active_valid r hr
      simp [hD]
    obtain ⟨rfl, rfl⟩ := he
    have hne := h.unselected hstate
    have hprevious := (hs.activating hstate).2.2.2.resolve_left hne
    rw [if_neg fun hc => hne hc.2.2, if_pos hprevious]
    refine removeIfPresent_succeeds.seq (fun _ _ s₂ _ h₂ => ?_) fun _ _ _ _ => False.elim
    refine runs_ask_bind trivial fun now _ s₃ he _ => ?_
    obtain rfl := he
    refine writeState_runs fun _ => ⟨h₂.previous, .inr ⟨?_, rfl, rfl⟩⟩
    rw [hstate]
    exact id
  · exact absurd hstate h.uncommitted

/-- Only launcher files have been rewritten. -/
structure Rewritten (s new : Disk) : Prop extends SameFiles s new where
  present : ∀ r, (new.releases r).isSome = (s.releases r).isSome
  build : ∀ r, new.buildOf r = s.buildOf r

theorem Rewritten.inDirectory {r : Release} {f : Directory → Directory} (h : Rewritten s new)
    (hf : LauncherRewrite f) : Rewritten s (new.inDirectory r f) := by
  unfold Disk.inDirectory
  split
  · exact h
  · rename_i D hD
    refine ⟨⟨h.record, h.active, h.previous⟩, fun q => ?_, fun q => ?_⟩
    · by_cases hq : q = r
      · subst hq
        rw [← h.present]
        simp [hD]
      · rw [new.setDirectory_of_ne _ hq, h.present]
    · by_cases hq : q = r
      · subst hq
        rw [← h.build]
        simp [Disk.buildOf, Directory.build, hD, hf.manifest]
      · rw [new.buildOf_setDirectory_of_ne _ hq, h.build]

theorem launcherPrepare_succeeds {c : UpdateConfiguration} {r : Release} {b : ℕ}
    (hb : s.buildOf r = some b) : Succeeds latest (launcherPrepare c r)
      (fun m new => m.buildId = b ∧ Rewritten s new) past s := by
  unfold launcherPrepare
  refine runs_ask_bind (by simp [Fine, hb]) fun m _ s₁ he _ => ?_
  obtain ⟨⟨D, hD, hm⟩, rfl⟩ := he
  have hbuild : m.buildId = b := by simpa [Disk.buildOf, Directory.build, hD, hm] using hb
  have hs : Rewritten s₁ s₁ := ⟨.refl _, fun _ => rfl, fun _ => rfl⟩
  refine runs_ask_bind trivial fun _ _ s₂ he _ => ?_
  obtain rfl := he
  refine runs_ask_bind trivial fun _ _ s₃ he _ => ?_
  obtain rfl := he
  refine World.ensures_pure ⟨hbuild, (hs.inDirectory ?_).inDirectory ?_⟩
  · exact ⟨fun _ => rfl, fun _ => id⟩
  · exact ⟨fun _ => rfl, fun _ _ => rfl⟩

theorem prepareActive_succeeds {c : UpdateConfiguration} (hs : Inv s) :
    Succeeds latest (prepareActive c s.active) (fun _ new => Rewritten s new) past s := by
  cases ha : s.active with
  | none => exact World.ensures_pure ⟨.refl _, fun _ => rfl, fun _ => rfl⟩
  | some release =>
    obtain ⟨D, m, hD, -, hm⟩ := hs.active_valid release ha
    have hb : s.buildOf release = some m.buildId := by
      simp [Disk.buildOf, Directory.build, hD, hm]
    exact (launcherPrepare_succeeds hb).seq (fun _ _ _ _ h => World.ensures_pure h.2)
      fun _ _ _ _ => False.elim

/-! ### The update transaction -/

section Transaction

variable {active : Option Release} {build : Option ℕ} {c : UpdateConfiguration}
  {current : Option SteamBuildMetadata} {state : Record}

/-- `previous-release`, if it is there, names a directory. -/
def PreviousExists (s : Disk) : Prop := ∀ r, s.previous = some r → (s.releases r).isSome

theorem checkPreconditions_succeeds (hprevious : PreviousExists s) :
    Succeeds latest (checkPreconditions active current latest state) (fun _ _ => True) past s := by
  unfold checkPreconditions
  refine runs_ask_bind trivial fun running _ new he htold => ?_
  obtain rfl := he
  obtain rfl : running = false := htold
  refine runs_exceptOn ?_
  have hspace : ∀ past' s', Succeeds latest (ask (.requireCandidateSpace current))
      (fun _ _ => True) past' s' := fun _ _ => runs_ask trivial fun _ _ _ _ _ => trivial
  cases active with
  | none => exact hspace _ _
  | some release =>
    refine World.Ensures.seq (?_ : Succeeds latest (discardOldPrevious release)
      (fun _ _ => True) _ _) (fun _ _ _ _ _ => hspace _ _) fun _ _ _ _ => False.elim
    refine runs_ask_bind hprevious fun v _ s₁ he _ => ?_
    refine removeIfPresent_succeeds.seq (fun _ _ _ _ _ => ?_) fun _ _ _ _ => False.elim
    exact runs_ask trivial fun _ _ _ _ _ => trivial

theorem beginDownload_succeeds :
    Succeeds latest (beginDownload c current latest state)
      (fun candidate new => (new.releases candidate).isSome) past s := by
  unfold beginDownload
  refine runs_ask_bind trivial fun candidate _ s₁ he htold => ?_
  obtain rfl := he
  have hfree : s₁.releases candidate = none := htold
  refine .bind (runs_exceptOn (runs_ask hfree fun _ _ s₂ he _ => ?_))
  obtain ⟨-, rfl⟩ := he
  refine .bind (runs_exceptOn ?_)
  refine runs_ask_bind trivial fun checkedAt _ s₃ he _ => ?_
  obtain rfl := he
  refine runs_ask_bind trivial fun now _ s₄ he _ => ?_
  obtain rfl := he
  refine .bind (writeState_runs fun _ => World.ensures_pure (World.ensures_pure ?_))
  simp [Disk.setDirectory]

theorem download_succeeds {candidate : Release} {validate : Bool}
    (hexists : (s.releases candidate).isSome) :
    Succeeds latest (download c candidate current latest state validate)
      (fun _ new => new.buildOf candidate = some latest) past s :=
  runs_tryCatch (runs_ask trivial fun _ _ _ _ htold => htold hexists)

theorem validateCandidate_succeeds {candidate : Release}
    (hbuild : s.buildOf candidate = some latest) :
    Succeeds latest (validateCandidate c candidate current latest state) (fun _ _ => True)
      past s := by
  refine runs_tryCatch ((launcherPrepare_succeeds hbuild).seq (fun m _ s₁ _ hm => ?_)
    fun _ _ _ _ => False.elim)
  rw [if_neg (not_not.mpr hm.1)]
  exact World.ensures_pure trivial

theorem backUp_succeeds {candidate : Release} :
    Succeeds latest (backUp active candidate current latest state) (fun _ _ => True) past s := by
  have hcreate : ∀ past' s', Succeeds latest (do
      let path ← createBackup candidate current latest state
      return some path) (fun _ _ => True) past' s' := fun _ _ =>
    .bind (runs_tryCatch (runs_ask trivial fun _ _ _ _ _ => World.ensures_pure trivial))
  unfold backUp
  cases active with
  | some release => exact hcreate _ _
  | none =>
    refine runs_ask_bind trivial fun needed _ s₁ _ _ => ?_
    cases needed with
    | true => exact hcreate _ _
    | false => exact World.ensures_pure trivial

theorem promoteCandidate_succeeds {candidate : Release} {backupPath : Option String}
    (hexists : (s.releases candidate).isSome) :
    Succeeds latest (promoteCandidate active candidate current latest state backupPath)
      (fun _ _ => True) past s := by
  unfold promoteCandidate
  refine runs_ask_bind trivial fun f _ s₁ he _ => ?_
  obtain ⟨hf, rfl⟩ := he
  refine runs_ask_bind trivial fun now _ s₂ he _ => ?_
  obtain rfl := he
  refine .bind (writeState_runs fun _ => ?_)
  refine .bind (runs_exceptOn ?_)
  refine runs_ask_bind ⟨hexists, hf⟩ fun _ _ s₃ _ _ => ?_
  refine runs_ask_bind trivial fun _ _ s₄ _ _ => ?_
  exact writeState_runs fun _ => World.ensures_pure trivial

/-- What the transaction ends with. -/
structure Installed (latest : ℕ) (r : Record) (s : Disk) : Prop where
  record : s.record = some r
  state : r.state = .pendingReadiness
  active : ∃ f, s.active = some f ∧ s.buildOf f = some latest

theorem activate_succeeds {f : Release} {activating : Record} (hbuild : s.buildOf f = some latest) :
    Succeeds latest (activate active f latest activating) (Installed latest) past s := by
  have hpointers : Succeeds latest (switchPointers active f)
      (fun _ new => new.active = some f ∧ new.buildOf f = some latest) past s := by
    have hswitch : ∀ past' s', s'.buildOf f = some latest → Succeeds latest (ask (.writeActive f))
        (fun _ new => new.active = some f ∧ new.buildOf f = some latest) past' s' := by
      intro past' s' hs'
      refine runs_ask trivial fun _ _ new he _ => ?_
      obtain rfl := he
      exact ⟨rfl, hs'⟩
    cases active with
    | none =>
      refine runs_ask_bind trivial fun _ _ s₁ he _ => hswitch _ _ ?_
      obtain rfl := he
      exact hbuild
    | some a =>
      refine runs_ask_bind trivial fun _ _ s₁ he _ => hswitch _ _ ?_
      obtain rfl := he
      exact hbuild
  unfold activate
  refine .bind (runs_exceptOn (hpointers.mono (fun _ _ s₁ h => ?_) fun _ _ _ => id))
  refine runs_ask_bind trivial fun now _ s₂ he _ => ?_
  obtain rfl := he
  exact writeState_runs fun _ => ⟨rfl, rfl, f, h.1, h.2⟩

theorem stageAndActivate_succeeds {validate : Bool} (h : Unselected active build s)
    (hsettled : s.state.Settled) (hprevious : PreviousExists s)
    (hpromoted : state.promotedRelease = none)
    (hbuild : current.map SteamBuildMetadata.buildId = build) :
    Succeeds latest (stageAndActivate c active current latest state validate) (Installed latest)
      past s := by
  refine ((checkPreconditions_succeeds hprevious).with_conforms .accept s <|
    checkPreconditions_conforms h).seq (fun _ _ s₁ _ h₁ => ?_) fun _ _ _ _ => False.elim
  obtain ⟨⟨⟨hrecord, h₁⟩, hforgotten, -⟩, -⟩ := h₁
  have hsettled₁ : s₁.state.Settled := by simpa [Disk.state, Disk.loaded, hrecord] using hsettled
  refine (beginDownload_succeeds.with_conforms .accept s <|
    beginDownload_conforms h₁ hsettled₁ hforgotten hpromoted).seq
    (fun candidate _ s₂ _ h₂ => ?_) fun _ _ _ _ => False.elim
  refine ((download_succeeds h₂.2).with_conforms .accept s <| download_conforms h₂.1).seq
    (fun _ _ s₃ _ h₃ => ?_) fun _ _ _ _ => False.elim
  refine ((validateCandidate_succeeds h₃.2).with_conforms .accept s <|
    validateCandidate_conforms h₃.1).seq (fun _ _ s₄ _ h₄ => ?_) fun _ _ _ _ => False.elim
  obtain ⟨⟨m, hm, h₄⟩, -⟩ := h₄
  refine (backUp_succeeds.with_conforms .accept s <|
    backUp_conforms h₄.toUnselected h₄.candidate_ne hbuild).seq (fun path _ s₅ hsuf h₅ => ?_)
    fun _ _ _ _ => False.elim
  obtain ⟨⟨rfl, -⟩, -⟩ := h₅
  have hexists : (s₅.releases candidate).isSome := by
    obtain ⟨D, hD, -⟩ := h₄.directory
    simp [hD]
  refine ((promoteCandidate_succeeds hexists).with_conforms .accept s <|
    promoteCandidate_conforms (h₄.mono hsuf) hm hbuild).seq (fun v _ s₆ _ h₆ => ?_)
    fun _ _ _ _ => False.elim
  obtain ⟨D, hD, -, hmanifest⟩ := h₆.1.2.directory
  refine activate_succeeds ?_
  simpa [Disk.buildOf, Directory.build, hD, hmanifest] using hm

end Transaction

/-! ### Starting a container -/

section Start

variable {c : UpdateConfiguration}

/-- With a newer build that is not blocked, `_check_and_update` is the update transaction. -/
theorem checkAndUpdate_runs {start : Disk} {active : Option Release}
    {current : Option SteamBuildMetadata} {state : Record}
    {ok : Record → List UpdaterMove → Disk → Prop} (h : Quiet start active current state s)
    (hnewer : ∀ b, s.activeBuild = some b → b < latest)
    (hblocked : state.blockedBuild ≠ some latest)
    (hstage : ∀ past', Runs latest (stageAndActivate c active current latest state false) ok err
      past' s) :
    Runs latest (checkAndUpdate c active current state false false) ok err past s := by
  have hnewer' : ∀ b, current.map SteamBuildMetadata.buildId = some b → b < latest :=
    fun b hb => hnewer b (h.build_eq.trans hb)
  unfold checkAndUpdate
  refine .bind (runs_exceptOn (runs_ask trivial fun v past' s₁ he htold => ?_))
  obtain rfl := he
  obtain rfl : v = latest := htold
  dsimp only
  rw [if_neg, if_neg, if_neg]
  · exact hstage past'
  · exact fun hc => hblocked hc.2.1
  · cases hc : current.map SteamBuildMetadata.buildId with
    | none => simp
    | some b => simpa using Nat.le_of_lt (hnewer' b hc)
  · intro hc
    exact absurd (hnewer' v hc.1) (Nat.lt_irrefl v)

/-- A failure before anything was staged: it is recorded, and the active release is as it was. -/
structure GivenUp (e : Err) (s new : Disk) : Prop where
  update : e.isUpdateError = true
  state : new.state = .failedBeforeWorldOpen
  active : new.active = s.active
  releases : new.releases = s.releases

theorem recordPreWorldFailure_runs {state : Record} {current : Option SteamBuildMetadata}
    {candidate : Option ℕ} {result : LastResult} {detail : String} {block : Bool}
    {ok : Record → List UpdaterMove → Disk → Prop}
    (hok : ∀ r past', r.state = .failedBeforeWorldOpen →
      ok r past' { s with record := some r }) :
    Runs latest (recordPreWorldFailure state current candidate result detail block) ok err
      past s := by
  unfold recordPreWorldFailure
  refine runs_ask_bind trivial fun checkedAt _ s₁ he _ => ?_
  obtain rfl := he
  refine runs_ask_bind trivial fun now _ s₂ he _ => ?_
  obtain rfl := he
  exact writeState_runs fun past' => hok _ past' rfl

/-- The other case: reading a dangling `previous-release` raises, before its removal is reached. -/
theorem readPrevious_dangling {ok : Option Release → List UpdaterMove → Disk → Prop}
    (hprevious : ¬ PreviousExists s) :
    Runs latest (ask .readPrevious) ok (fun e _ new => e.isUpdateError = true ∧ new = s)
      past s := by
  refine World.ensures_ask fun (choice : ReadOutcome) hc => ⟨trivial, ?_⟩
  have hok : succeeds latest s .readPrevious choice = true := by
    simpa [succeeding, World.restrict, world, allowed] using hc
  replace hok : choice = ReadOutcome.ok := of_decide_eq_true hok
  simp only [PreviousExists, not_forall, exists_prop] at hprevious
  obtain ⟨r, hr, hmissing⟩ := hprevious
  have hreply : answer s .readPrevious .ok =
      (.error (.update "previous-release points to a missing release"), s) := by
    simp only [answer, Disk.readPointer, hr]
    rw [if_neg hmissing]
    rfl
  subst hok
  simp only [succeeding, World.restrict, world]
  rw [hreply]
  exact ⟨rfl, rfl⟩

theorem checkPreconditions_dangling {release : Release} {current : Option SteamBuildMetadata}
    {state : Record} (hprevious : ¬ PreviousExists s) :
    Runs latest (checkPreconditions (some release) current latest state) (fun _ _ _ => False)
      (fun e _ new => GivenUp e s new) past s := by
  unfold checkPreconditions
  refine runs_ask_bind trivial fun running _ new he htold => ?_
  obtain rfl := he
  obtain rfl : running = false := htold
  have hbody : ∀ past', Runs latest (do
      discardOldPrevious release
      ask (.requireCandidateSpace current)) (fun _ _ _ => False)
      (fun e _ s' => e.isUpdateError = true ∧ s' = new) past' new := fun _ =>
    .bind (.bind (readPrevious_dangling hprevious))
  refine World.Ensures.handle (hbody _) (fun _ _ _ _ => False.elim) fun e past' s' _ he => ?_
  obtain ⟨hupdate, rfl⟩ := he
  rw [if_pos (by simp [hupdate])]
  refine .bind (recordPreWorldFailure_runs fun r _ hr => ?_)
  unfold reraise
  rw [if_pos hupdate]
  exact World.ensures_throw ⟨hupdate, hr, rfl, rfl⟩

/-- An open transaction that can be restarted has no dangling `previous-release`, and recovery
leaves none. -/
theorem Inv.previousExists (hs : Inv s) (h : Restartable s) (hopen : ¬ s.state.Settled)
    (hnew : Inv new) (hactive : new.active = s.active) (hprevious : new.previous = s.previous) :
    PreviousExists new := by
  intro r hr
  rw [hprevious] at hr
  rcases s.state.cases_group with hstate | hstate | hstate | hstate
  · exact absurd hstate hopen
  · simp [hs.forgotten hstate] at hr
  · rcases hs.kept hstate (h.unselected hstate) with hkept | hkept
    · simp [hkept] at hr
    · obtain ⟨D, -, hD, -⟩ := hnew.active_valid r (hactive.trans (hkept.symm.trans hr))
      simp [hD]
  · exact absurd hstate h.uncommitted

theorem Rewritten.previousExists (h : Rewritten s new) : PreviousExists new ↔ PreviousExists s := by
  simp only [PreviousExists, h.previous, h.present]

/-- What `prepare_start` comes to when nothing stands in the way of an update. -/
theorem prepareStart_runs {ok : Record → List UpdaterMove → Disk → Prop} (hs : Inv s)
    (h : Restartable s) (hpolicy : c.policy = .stableOnStart) (hmods : c.modsConfigured = false)
    (hblocked : s.loaded.blockedBuild ≠ some latest)
    (hupdate : ∀ active current state past' s', Quiet s active current state s' →
      s'.activeBuild = s.activeBuild → state.blockedBuild ≠ some latest →
      (PreviousExists s' ↔ PreviousExists s) →
      Runs latest (exceptUpdate (checkAndUpdate c active current state false false)
        (afterFailedUpdate active)) ok err past' s') :
    Runs latest (prepareStart c) ok err past s := by
  unfold prepareStart
  refine runs_ask_bind trivial fun _ _ s₁ he _ => ?_
  obtain rfl := he
  refine runs_ask_bind trivial fun loaded _ s₂ he _ => ?_
  obtain ⟨rfl, rfl⟩ := he
  refine ((recoverInterrupted_succeeds hs h).with_conforms .accept s₂ <|
    recoverInterrupted_conforms hs).seq (fun state _ s₃ _ hr => ?_) fun _ _ _ _ => False.elim
  obtain ⟨hrecovered, hprevious, hstate⟩ := hr
  have hs₃ := hrecovered.inv
  -- recovery leaves a settled record that does not block the build
  have hfacts : s₃.state.Settled ∧ state.blockedBuild ≠ some latest ∧
      (PreviousExists s₃ ↔ PreviousExists s₂) := by
    rcases hstate with ⟨hsettled, rfl, rfl⟩ | ⟨hopen, hfailed, hunblocked⟩
    · exact ⟨hsettled, hblocked, Iff.rfl⟩
    · have hsettled : s₃.state.Settled := by
        rw [Disk.state, hrecovered.loaded, hfailed]
        trivial
      refine ⟨hsettled, by simp [hunblocked], iff_of_true ?_ ?_⟩
      · exact hs.previousExists h hopen hs₃ hrecovered.active hprevious
      · exact hs.previousExists h hopen hs rfl rfl
  obtain ⟨hsettled, hunblocked, hexists⟩ := hfacts
  have hactive : Fine s₃ .readActive := fun r hr => by
    obtain ⟨D, -, hD, -⟩ := hs₃.active_valid r hr
    simp [hD]
  obtain rfl := hrecovered.loaded
  refine runs_ask_bind hactive fun active _ s₄ he _ => ?_
  obtain ⟨rfl, rfl⟩ := he
  rw [if_neg (by cases hn : s₄.state <;> simp_all [StateName.Settled])]
  refine runs_ask_bind trivial fun marker _ s₅ he htold => ?_
  obtain rfl := he
  obtain rfl : marker = false := htold
  rw [if_neg (by simp)]
  unfold prepareSettled
  refine runs_ask_bind trivial fun _ _ s₆ he _ => ?_
  obtain rfl := he
  refine runs_ask_bind hactive fun ensured _ s₇ he _ => ?_
  obtain ⟨rfl, rfl⟩ := he
  refine runs_ask_bind trivial fun state _ s₈ he _ => ?_
  obtain ⟨rfl, rfl⟩ := he
  refine runs_ask_bind hactive fun reread _ s₉ he _ => ?_
  obtain ⟨rfl, rfl⟩ := he
  have hboth : (s₉.active <|> s₉.active) = s₉.active := by cases s₉.active <;> rfl
  dsimp only
  rw [hboth]
  refine ((prepareActive_succeeds hs₃).with_conforms .accept s₂ <|
    prepareActive_conforms hs₃ hsettled ⟨hrecovered.active, hrecovered.build⟩).seq
    (fun current _ s' _ hc => ?_) fun _ _ _ _ => False.elim
  obtain ⟨hquiet, hrewritten⟩ := hc
  unfold applyPolicy
  rw [if_neg (by simp [hpolicy]), if_neg (by simp [hmods])]
  refine hupdate _ _ _ _ _ hquiet ?_ hunblocked ?_
  · exact hquiet.build_eq.trans hquiet.unmoved.2
  · exact hrewritten.previousExists.trans hexists

end Start

/-- A failure that left no candidate behind is reported, or tolerated: either way nothing is
selected. -/
theorem afterFailedUpdate_runs {active : Option Release} {e : Err}
    (hstate : s.state = .failedBeforeWorldOpen) (hactive : Fine s .readActive) :
    Runs latest (afterFailedUpdate active e) (fun _ _ new => new = s) (fun _ _ new => new = s)
      past s := by
  unfold afterFailedUpdate
  refine runs_ask_bind trivial fun failed _ s₁ he _ => ?_
  obtain ⟨rfl, rfl⟩ := he
  refine runs_ask_bind hactive fun selected _ s₂ he _ => ?_
  obtain ⟨rfl, rfl⟩ := he
  have hnot : ¬ (s₂.loaded.state = .downloadingCandidate ∨
      s₂.loaded.state = .promotingCandidate) := by simp [hstate]
  dsimp only
  rw [if_neg hnot]
  refine .bind (World.ensures_pure ?_)
  split
  · exact World.ensures_pure rfl
  · exact World.ensures_throw rfl

/-! ### Complete executions -/

/-- The release directories. -/
def Disk.present (d : Disk) : Set Release := {r | (d.releases r).isSome}

theorem Effect.present_finite {q : Request} {r : Reply q} (h : Effect d new q r)
    (hd : d.present.Finite) : new.present.Finite := by
  refine (hd.union q.touches.finite_toSet).subset fun r' hr' => ?_
  by_cases htouched : r' ∈ q.touches
  · exact .inr htouched
  · left
    simpa [Disk.present, h.frame htouched] using hr'

/-- A run makes finitely many directories. -/
theorem UpdaterHistory.present_finite (hh : UpdaterHistory h d) : d.present.Finite := by
  refine hh.invariant (fun s hs => ?_) fun s q c hc => (effect_answer hc).present_finite
  obtain rfl := hs
  simp [Disk.present, Disk.empty]

/-- Some name of a kind is free. -/
theorem Disk.exists_free (hd : d.present.Finite) {f : ℕ → Release}
    (hf : Function.Injective f) : ∃ n, d.releases (f n) = none := by
  by_contra hall
  refine Set.infinite_range_of_injective hf (hd.subset ?_)
  rintro _ ⟨n, rfl⟩
  exact Option.isSome_iff_ne_none.mpr fun hn => hall ⟨n, hn⟩

/-- Every request can be answered by a success. -/
theorem exists_success (hd : d.present.Finite) (q : Request) :
    ∃ c, (succeeding latest).allowed d q c = true := by
  have hboth : ∀ c : Choice q, allowed d q c = true → succeeds latest d q c = true →
      ∃ c, (succeeding latest).allowed d q c = true := fun c ha hs =>
    ⟨c, (Bool.and_eq_true _ _).mpr ⟨ha, hs⟩⟩
  cases q with
  | uniqueCandidate build =>
    obtain ⟨uuid, hfree⟩ := Disk.exists_free hd (f := .candidate build)
      fun a b hab => by simpa using hab
    exact hboth uuid rfl (by simp [succeeds, hfree])
  | finalRelease build =>
    obtain ⟨date, hfree⟩ := Disk.exists_free hd (f := fun date => .steam build date 0)
      fun a b hab => by simpa using hab
    exact hboth ⟨date, 0, 0⟩ (by simp [allowed, Disk.uniqueRelease, hfree]) rfl
  | lock => exact hboth .acquired rfl rfl
  | utcNow => exact hboth "" rfl rfl
  | loadState | readActive | readPrevious | readInstalledMetadata =>
    exact hboth ReadOutcome.ok rfl rfl
  | writeState | writeActive | writePrevious | promote | writeLauncherJson | replaceWrapper =>
    exact hboth WriteOutcome.ok rfl rfl
  | unlinkPrevious | ensureRoot | mkdir | requireCandidateSpace =>
    exact hboth (none : Option String) rfl rfl
  | markerExists | worldHasState => exact hboth false rfl rfl
  | latestBuild => exact hboth (.ok latest) rfl (by simp [succeeds])
  | install =>
    exact hboth (.ok (), ⟨some ⟨latest, none⟩, none, false, false⟩) rfl
      (by simp [succeeds, Directory.build])
  | gameServerRunning => exact hboth (.ok false) rfl rfl
  | pathExists | raiseAmbiguous => exact hboth () rfl rfl
  | rmtree => exact hboth .removed rfl rfl
  | inspectLauncher => exact hboth .passed rfl rfl
  | createBackup => exact hboth (.ok "") rfl rfl

/-- Without failures every program comes to its end. -/
theorem exists_complete (hd : d.present.Finite) (p : Program Request Reply α) :
    ∃ a past s, (succeeding latest).Exec p [] d (.done a) past s := by
  refine (succeeding latest).exists_exec_done (P := fun d => d.present.Finite)
    (fun s q hs => ?_) p [] d hd
  obtain ⟨c, hc⟩ := exists_success hs q
  exact ⟨c, hc, (effect_answer ((Bool.and_eq_true _ _).mp hc).1).present_finite hs⟩

/-! ### Progress -/

/-- A container start without failures comes to an end, and always with a release of build
`latest` active and pending readiness. -/
def Progresses (c : UpdateConfiguration) (latest : ℕ) (d : Disk) : Prop :=
  (∃ r past s, (succeeding latest).Exec (prepareStart c).run [] d (.done r) past s) ∧
  ∀ r past s, (succeeding latest).Exec (prepareStart c).run [] d (.done r) past s →
    ∃ record, r = .ok record ∧ Installed latest record s

section Progress

variable {c : UpdateConfiguration}

/-- With a readable `previous-release`, the update goes through. -/
theorem prepareStart_succeeds (hd : Inv d) (hstart : Restartable d)
    (hpolicy : c.policy = .stableOnStart) (hmods : c.modsConfigured = false)
    (hnewer : ∀ b, d.activeBuild = some b → b < latest)
    (hblocked : d.loaded.blockedBuild ≠ some latest) (hprevious : PreviousExists d) :
    Succeeds latest (prepareStart c) (Installed latest) past d := by
  refine prepareStart_runs hd hstart hpolicy hmods hblocked
    fun active current state past' s hquiet hbuild hunblocked hexists => ?_
  refine runs_exceptOn (checkAndUpdate_runs hquiet (hbuild ▸ hnewer) hunblocked fun _ => ?_)
  exact stageAndActivate_succeeds hquiet.unselected hquiet.settled (hexists.mpr hprevious)
    hquiet.released.2 rfl

/-- Otherwise it is given up before anything is staged. -/
theorem prepareStart_dangling (hd : Inv d) (hstart : Restartable d)
    (hpolicy : c.policy = .stableOnStart) (hmods : c.modsConfigured = false)
    (hnewer : ∀ b, d.activeBuild = some b → b < latest)
    (hblocked : d.loaded.blockedBuild ≠ some latest) (hprevious : ¬ PreviousExists d) :
    Runs latest (prepareStart c) (fun _ _ new => new.state = .failedBeforeWorldOpen)
      (fun _ _ new => new.state = .failedBeforeWorldOpen) past d := by
  refine prepareStart_runs hd hstart hpolicy hmods hblocked
    fun active current state past' s hquiet hbuild hunblocked hexists => ?_
  have hdangling : ¬ PreviousExists s := fun hs => hprevious (hexists.mp hs)
  -- there is a previous release only after a first activation
  have hactive : active ≠ none := fun ha => hdangling fun r hr => by
    simp [hquiet.inv.previous_of_first (hquiet.active_eq.trans ha)] at hr
  obtain ⟨release, rfl⟩ := Option.ne_none_iff_exists'.mp hactive
  have hstage : ∀ past', Runs latest
      (stageAndActivate c (some release) current latest state false)
      (fun _ _ new => new.state = .failedBeforeWorldOpen)
      (fun e _ new => GivenUp e s new) past' s := fun _ =>
    .bind ((checkPreconditions_dangling hdangling).mono (fun _ _ _ => False.elim)
      fun _ _ _ => id)
  refine World.Ensures.handle (checkAndUpdate_runs hquiet (hbuild ▸ hnewer) hunblocked hstage)
    (fun _ _ _ _ => id) fun e past' s' _ he => ?_
  rw [if_pos he.update]
  have hread : Fine s' .readActive := fun r hr => by
    rw [he.releases]
    obtain ⟨D, -, hD, -⟩ := hquiet.inv.active_valid r (he.active ▸ hr)
    simp [hD]
  refine (afterFailedUpdate_runs he.state hread).mono ?_ ?_
  · rintro _ _ _ rfl
    exact he.state
  · rintro _ _ _ rfl
    exact he.state

/-- With a readable `previous-release`, a container start progresses. -/
theorem progresses (hd : Inv d) (hfinite : d.present.Finite) (hstart : Restartable d)
    (hpolicy : c.policy = .stableOnStart) (hmods : c.modsConfigured = false)
    (hnewer : ∀ b, d.activeBuild = some b → b < latest)
    (hblocked : d.loaded.blockedBuild ≠ some latest) (hprevious : PreviousExists d) :
    Progresses c latest d := by
  refine ⟨exists_complete hfinite _, fun r past s hexec => ?_⟩
  have hpost := (prepareStart_succeeds hd hstart hpolicy hmods hnewer hblocked
    hprevious).exec_done hexec
  cases r with
  | ok record => exact ⟨record, rfl, hpost⟩
  | error e => exact hpost.elim

/-- Without one, it ends with a failure on record, and no update. -/
theorem not_progresses (hd : Inv d) (hstart : Restartable d)
    (hpolicy : c.policy = .stableOnStart) (hmods : c.modsConfigured = false)
    (hnewer : ∀ b, d.activeBuild = some b → b < latest)
    (hblocked : d.loaded.blockedBuild ≠ some latest) (hprevious : ¬ PreviousExists d) :
    ¬ Progresses c latest d := by
  rintro ⟨⟨r, past, s, hexec⟩, hall⟩
  obtain ⟨record, rfl, hinstalled⟩ := hall r past s hexec
  have hfailed : s.state = .failedBeforeWorldOpen :=
    (prepareStart_dangling hd hstart hpolicy hmods hnewer hblocked
      hprevious).exec_done hexec
  rw [Disk.state, Disk.loaded, hinstalled.record] at hfailed
  simp [hinstalled.state] at hfailed

/-- **When crash recovery makes progress.** After any run, wherever its operations failed or were
killed, a container start without failures that is offered a newer build installs it if and only if
`previous-release` is absent or names a directory that is there. -/
theorem UpdaterHistory.progress_iff (hh : UpdaterHistory h d) (hstart : Restartable d)
    (hpolicy : c.policy = .stableOnStart) (hmods : c.modsConfigured = false)
    (hnewer : ∀ b, d.activeBuild = some b → b < latest)
    (hblocked : d.loaded.blockedBuild ≠ some latest) :
    Progresses c latest d ↔ PreviousExists d := by
  have hd := hh.trail.inv
  constructor
  · intro hprogress
    by_contra hprevious
    exact not_progresses hd hstart hpolicy hmods hnewer hblocked hprevious hprogress
  · exact progresses hd hh.present_finite hstart hpolicy hmods hnewer hblocked

/-- A download is killed; the next container start begins again and installs the build. -/
theorem UpdaterHistory.progress_killed :
    Progresses .default 5 (Disk.empty.afterObliging 5 17 (.prepareStart .default)) :=
  (UpdaterHistory.progress_iff (.runFor (.start rfl) (.prepareStart .default) (obliging 5) 17
    (by decide)) ⟨by decide, by decide⟩ rfl rfl (fun _ h => nomatch h) (by decide)).mpr
    fun _ h => nomatch h

/-! ### The case without progress -/

/-- Build 6 replaced build 5, and the container start that was to install build 7 was killed after
it removed the directory of build 5. -/
def Disk.wedged : Disk :=
  ((Disk.empty.accepting 5).accepting 6).afterObliging 7 16 (.prepareStart .default)

theorem UpdaterHistory.wedged : ∃ h, UpdaterHistory h Disk.wedged := by
  obtain ⟨_, h₃⟩ := UpdaterHistory.accepting
  obtain ⟨_, h₄⟩ := h₃.afterObliging 6 60 (.prepareStart .default) (by decide)
  obtain ⟨_, h₅⟩ := h₄.afterObliging 6 10 .markWorldOpened (by decide)
  obtain ⟨_, h₆⟩ := h₅.afterObliging 6 15 (.markRuntimeReady .default none none) (by decide)
  exact h₆.afterObliging 7 16 (.prepareStart .default) (by decide)

/-- **A crash without recovery.** The record is that of an accepted release and blocks nothing, and
yet the next container start cannot install build 7, whatever build it is offered later. -/
theorem UpdaterHistory.progress_fails :
    ∃ h d, UpdaterHistory h d ∧ Restartable d ∧ d.activeBuild = some 6 ∧
      d.loaded.blockedBuild ≠ some 7 ∧ ∀ latest, 6 < latest → ¬ Progresses .default latest d := by
  obtain ⟨h, hh⟩ := UpdaterHistory.wedged
  have hstart : Restartable Disk.wedged := ⟨by decide, by decide⟩
  have hbuild : Disk.wedged.activeBuild = some 6 := by decide
  have hblocked : Disk.wedged.loaded.blockedBuild = none := by decide
  refine ⟨h, Disk.wedged, hh, hstart, hbuild, by simp [hblocked], fun latest hnewer => ?_⟩
  refine not_progresses hh.trail.inv hstart rfl rfl (fun b hb => ?_) (by simp [hblocked])
    fun hprevious => ?_
  · obtain rfl : b = 6 := by simpa [hbuild] using hb.symm
    exact hnewer
  · exact absurd (hprevious (.steam 5 0 0) (by decide)) (by decide)

end Progress

end Updater

end PzServer
