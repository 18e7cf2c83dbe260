import PzServer.Updater.Operations

/-!
# The update protocol

What the updater is for, said without its code. A disk is in one of four groups of states: settled,
staging, activating, committed. A `Change` is one durable step, with the condition under which the
protocol permits it; the conditions speak of the disk, and of what the running operation has
already been told. No condition mentions where in an operation the step is taken.

`Inv` is what every disk of a run satisfies, and `Change.inv` says that permitted changes keep it.
That the code only ever makes permitted changes is `Conformance`.

## The two rules that matter

* `Change.select` is the only change of `active-release`. It carries every promise made about an
  update: no deployment marker, a metadata answer, no server, a validated candidate of exactly that
  build, a backup, no downgrade.
* While a candidate is committed, `Change` permits nothing but launcher files and the four records
  `pend`, `open`, `ready` and `fail` that keep it, and `accept` that ends it.
-/

namespace PzServer

namespace Updater

open Interaction

/-! ### What an operation has been told -/

/-- Request `q` was answered `r`. -/
def Seen (q : Request) (r : Reply q) (past : List UpdaterMove) : Prop :=
  ∃ before after, (⟨q, r, before, after⟩ : UpdaterMove) ∈ past

theorem Seen.cons {q : Request} {r : Reply q} {past : List UpdaterMove} {m : UpdaterMove}
    (h : Seen q r past) : Seen q r (m :: past) := by
  obtain ⟨before, after, hmem⟩ := h
  exact ⟨before, after, List.mem_cons_of_mem _ hmem⟩

theorem Seen.mono {q : Request} {r : Reply q} {past past' : List UpdaterMove}
    (h : Seen q r past) (hsub : past <:+ past') : Seen q r past' := by
  obtain ⟨before, after, hmem⟩ := h
  exact ⟨before, after, hsub.subset hmem⟩

namespace Operation

/-- The configuration of an operation that may install a build. -/
def updating : Operation → Option UpdateConfiguration
  | prepareStart c | explicitUpdate c _ => some c
  | _ => none

/-- A local `mark_runtime_ready`, which accepts the candidate itself. -/
def acceptsLocally : Operation → Prop
  | markRuntimeReady c _ _ => c.deploymentEnvironment = .local
  | _ => False

/-- Any `mark_runtime_ready`. -/
def marksReady : Operation → Prop
  | markRuntimeReady .. => True
  | _ => False

/-- Any `fail_readiness`. -/
def failsReadiness : Operation → Prop
  | failReadiness _ => True
  | _ => False

end Operation

/-! ### Records -/

/-- The two results that record an acceptance. -/
def LastResult.Accepted : LastResult → Prop
  | installed | updated => True
  | _ => False

/-- Two records describe the same candidate. -/
structure Record.SameCandidate (a b : Record) : Prop where
  release : b.candidateRelease = a.candidateRelease
  build : b.candidateBuild = a.candidateBuild
  previousRelease : b.previousRelease = a.previousRelease
  previousBuild : b.previousBuild = a.previousBuild
  promoted : b.promotedRelease = a.promotedRelease

namespace Record.SameCandidate

variable {a b c : Record}

theorem refl (a : Record) : a.SameCandidate a := ⟨rfl, rfl, rfl, rfl, rfl⟩

theorem symm (h : a.SameCandidate b) : b.SameCandidate a :=
  ⟨h.release.symm, h.build.symm, h.previousRelease.symm, h.previousBuild.symm, h.promoted.symm⟩

end Record.SameCandidate

/-- The records the protocol lets operation `op` write on disk `d`. -/
inductive RecordChange (op : Operation) (d : Disk) : Record → Prop where
  /-- Close or observe: a settled record that is no acceptance. -/
  | settle {r : Record} (hd : ¬ d.state.Committed)
      (hactive : d.state = .activating → d.active ≠ d.loaded.candidateRelease)
      (hr : r.state.Settled) (hcandidate : r.candidateRelease = none)
      (hpromoted : r.promotedRelease = none) (hresult : ∀ l ∈ r.lastResult, ¬ l.Accepted) :
      RecordChange op d r
  /-- A session on the accepted release reports its version. -/
  | refresh {r : Record} (hop : op.marksReady) (hd : d.state = .current) (hr : r.state = .current)
      (hsame : d.loaded.SameCandidate r) (hresult : r.lastResult = d.loaded.lastResult)
      (hfrom : r.lastUpdateFromBuild = d.loaded.lastUpdateFromBuild)
      (hto : r.lastUpdateToBuild = d.loaded.lastUpdateToBuild)
      (hcurrent : r.currentBuild = d.loaded.currentBuild) : RecordChange op d r
  /-- A download starts. -/
  | download {r : Record} {c : Release} (hd : d.state.Settled)
      (hr : r.state = .downloadingCandidate) (hcandidate : r.candidateRelease = some c)
      (hpromoted : r.promotedRelease = none) (hc : d.active ≠ some c)
      (hforgotten : d.previous = none) : RecordChange op d r
  /-- A validated and backed up candidate is about to get its final name. -/
  | promote {r : Record} {c f : Release} (hd : d.state = .downloadingCandidate)
      (hr : r.state = .promotingCandidate) (hcandidate : r.candidateRelease = some c)
      (hpromoted : r.promotedRelease = some f) (hc : d.active ≠ some c) (hf : d.active ≠ some f)
      (hprevious : r.previousRelease = d.active) (hbuild : r.previousBuild = d.activeBuild)
      (hworld : r.worldOpened = some false) : RecordChange op d r
  /-- The candidate has its final name, and the pointers are next. -/
  | activate {r : Record} (hd : d.state = .promotingCandidate) (hr : r.state = .activating)
      (hcandidate : r.candidateRelease = d.loaded.promotedRelease)
      (hsome : r.candidateRelease.isSome)
      (hpromoted : r.promotedRelease = none) (hprevious : r.previousRelease = d.active)
      (hbuild : r.previousBuild = d.activeBuild) (hworld : r.worldOpened = some false) :
      RecordChange op d r
  /-- The candidate is the active release. -/
  | pend {r : Record} (hd : d.state = .activating ∨ d.state = .pendingReadiness)
      (hr : r.state = .pendingReadiness) (hactive : d.active = d.loaded.candidateRelease)
      (hsame : d.loaded.SameCandidate r) (hworld : r.worldOpened = d.loaded.worldOpened) :
      RecordChange op d r
  /-- The world is about to be opened with the candidate. -/
  | open {r : Record} (hop : op = .markWorldOpened)
      (hd : d.state = .pendingReadiness ∨ d.state = .startingCandidate)
      (hr : r.state = .startingCandidate) (hsame : d.loaded.SameCandidate r)
      (hworld : r.worldOpened = some true) : RecordChange op d r
  /-- The candidate answered. -/
  | ready {r : Record} (hop : op.marksReady) (hd : d.state = .startingCandidate ∨
      d.state = .runtimeReady) (hr : r.state = .runtimeReady) (hsame : d.loaded.SameCandidate r)
      (hworld : r.worldOpened = some true) : RecordChange op d r
  /-- The candidate is accepted. -/
  | accept {r : Record} (hop : op = .accept ∧ d.state = .runtimeReady ∨
      op.acceptsLocally ∧ (d.state = .startingCandidate ∨ d.state = .runtimeReady))
      (hr : r.state = .current) (hcandidate : r.candidateRelease = none)
      (hpromoted : r.promotedRelease = none)
      (hresult : r.lastResult =
        some (if d.loaded.previousBuild.isNone then .installed else .updated))
      (hfrom : r.lastUpdateFromBuild = d.loaded.previousBuild)
      (hto : r.lastUpdateToBuild = d.loaded.candidateBuild)
      (hcurrent : r.currentBuild = d.loaded.candidateBuild) : RecordChange op d r
  /-- The candidate did not become ready after the world was opened. -/
  | fail {r : Record} (hop : op.failsReadiness) (hd : d.state = .startingCandidate ∨
      d.state = .runtimeReady) (hr : r.state = .failedAfterWorldOpen)
      (hsame : d.loaded.SameCandidate r) (hworld : r.worldOpened = some true) :
      RecordChange op d r

/-! ### Changes -/

/-- What must hold when `active-release` is made to name `f` with manifest `m`. -/
structure Selectable (op : Operation) (start : Disk) (past : List UpdaterMove) (d : Disk)
    (f : Release) (m : SteamBuildMetadata) : Prop where
  /-- The durable record says that `f` is being activated. -/
  state : d.state = .activating
  candidate : d.loaded.candidateRelease = some f
  previous : d.loaded.previousRelease = d.active
  previousBuild : d.loaded.previousBuild = d.activeBuild
  candidateBuild : d.loaded.candidateBuild = some m.buildId
  /-- `f` is another, complete and validated directory. -/
  fresh : d.active ≠ some f
  directory : ∃ D, d.releases f = some D ∧ D.validated = true ∧ D.manifest = some m
  /-- The selection has not changed since the operation started. -/
  unmoved : d.active = start.active ∧ d.activeBuild = start.activeBuild
  /-- The operation is an update, and was told that it may go ahead. -/
  config : ∃ c, op.updating = some c ∧ Seen (.latestBuild c.steamBranch) (.ok m.buildId) past
  marker : Seen .markerExists (.ok false) past
  server : Seen .gameServerRunning (.ok false) past
  /-- The candidate passed validation with exactly this manifest before it was moved to `f`. -/
  inspected : ∃ c xms xmx, Seen (.inspectLauncher c xms xmx) (.ok m) past ∧
    Seen (.promote c f) (.ok ()) past
  /-- The world was backed up, unless there was nothing to back up. -/
  backup : (∃ path, Seen (.createBackup d.activeBuild m.buildId) (.ok path) past) ∨
    d.active = none ∧ Seen .worldHasState (.ok false) past
  upgrade : ∀ b ∈ d.activeBuild, b ≤ m.buildId

/-- The durable steps the protocol permits to `op`, which started on `start` and made the moves
`past`. -/
inductive Change (op : Operation) (start : Disk) (past : List UpdaterMove) :
    Disk → Disk → Prop where
  /-- Nothing is written. -/
  | same (d : Disk) : Change op start past d d
  /-- The launcher files of the active release are rewritten. -/
  | launcher {d : Disk} {r : Release} {D D' : Directory} (hactive : d.active = some r)
      (hD : d.releases r = some D) (hmanifest : D'.manifest = D.manifest)
      (hvalidated : D.validated = true → D'.validated = true) :
      Change op start past d (d.setDirectory r (some D'))
  /-- A directory other than the active release is made, filled, changed or removed. -/
  | directory {d : Disk} {r : Release} (D : Option Directory) (hactive : d.active ≠ some r)
      (hd : ¬ d.state.Committed) : Change op start past d (d.setDirectory r D)
  /-- The candidate gets its final name. -/
  | rename {d : Disk} {c f : Release} {D : Directory} (hc : d.active ≠ some c)
      (hf : d.active ≠ some f) (hD : d.releases c = some D)
      (hd : ¬ d.state.Committed) :
      Change op start past d ((d.setDirectory c none).setDirectory f (some D))
  /-- `previous-release` is removed. -/
  | forgetPrevious {d : Disk} (hd : ¬ d.state.Committed) :
      Change op start past d { d with previous := none }
  /-- `previous-release` is made to name the active release. -/
  | keepPrevious {d : Disk} {a : Release} (ha : d.active = some a) (hd : d.state = .activating) :
      Change op start past d { d with previous := some a }
  /-- `active-release` is made to name the candidate. -/
  | select {d : Disk} {f : Release} {m : SteamBuildMetadata}
      (h : Selectable op start past d f m) : Change op start past d { d with active := some f }
  /-- The record is replaced. -/
  | record {d : Disk} {r : Record} (h : RecordChange op d r) :
      Change op start past d { d with record := some r }

/-- When an operation may ask Steam for the latest build. -/
structure MayQuery (op : Operation) (past : List UpdaterMove) (d : Disk) : Prop where
  marker : Seen .markerExists (.ok false) past
  policy : ∀ c, op = .prepareStart c → d.active.isSome →
    c.policy = .stableOnStart ∧ (c.modsConfigured = true → c.allowAutoUpdateWithMods = true)

/-- **What every move of an operation guarantees.** -/
structure Permitted (op : Operation) (start : Disk) (past : List UpdaterMove) (m : UpdaterMove) :
    Prop where
  change : Change op start past m.before m.after
  query : ∀ branch, m.request = .latestBuild branch → MayQuery op past m.before
  unambiguous : m.request ≠ .raiseAmbiguous

/-! ### The invariant -/

/-- What every disk of a run satisfies. -/
structure Inv (d : Disk) : Prop where
  /-- The active release is a validated directory with a manifest. -/
  active_valid : ∀ r ∈ d.active, ∃ D m, d.releases r = some D ∧ D.validated = true ∧
    D.manifest = some m
  /-- Before the first activation there is no previous release either. -/
  previous_of_first : d.active = none → d.previous = none
  settled : d.state.Settled → d.loaded.candidateRelease = none ∧ d.loaded.promotedRelease = none
  /-- Staging names what it stages, and never the active release. -/
  staging : d.state.Staging → d.loaded.candidateRelease.isSome
  staged : d.state.Staging → ∀ r, d.loaded.candidateRelease = some r ∨
    d.loaded.promotedRelease = some r → d.active ≠ some r
  /-- The old previous release is forgotten before anything is staged, and the active release takes
  its place only when the candidate is about to be selected. -/
  forgotten : d.state.Staging → d.previous = none
  kept : d.state = .activating → d.active ≠ d.loaded.candidateRelease →
    d.previous = none ∨ d.previous = d.active
  activating : d.state = .activating → d.loaded.candidateRelease.isSome ∧
    d.loaded.promotedRelease = none ∧ d.loaded.worldOpened = some false ∧
    (d.active = d.loaded.candidateRelease ∨ d.active = d.loaded.previousRelease)
  /-- Once selected, the candidate is described by the record. -/
  selected : d.state = .activating ∨ d.state.Committed →
    d.active = d.loaded.candidateRelease → d.loaded.candidateBuild = d.activeBuild
  committed : d.state.Committed → d.active.isSome ∧ d.active = d.loaded.candidateRelease
  opened : d.state.Committed → (d.loaded.worldOpened = some true ↔ d.state.Opened)

theorem inv_empty : Inv Disk.empty where
  active_valid := by simp [Disk.empty]
  previous_of_first := fun _ => rfl
  settled := fun _ => ⟨rfl, rfl⟩
  staging := fun h => h.elim
  staged := fun h => h.elim
  forgotten := fun h => h.elim
  kept := fun h => nomatch h
  activating := fun h => nomatch h
  selected := fun h => h.elim (fun h => nomatch h) False.elim
  committed := fun h => h.elim
  opened := fun h => h.elim

namespace Inv

variable {d : Disk}

/-- The active release has a build. -/
theorem activeBuild_isSome (h : Inv d) (ha : d.active.isSome) : d.activeBuild.isSome := by
  obtain ⟨r, hr⟩ := Option.isSome_iff_exists.mp ha
  obtain ⟨D, m, hD, -, hm⟩ := h.active_valid r hr
  simp [Disk.activeBuild, Disk.buildOf, Directory.build, hr, hD, hm]

theorem activeBuild_eq_none (h : Inv d) : d.activeBuild = none ↔ d.active = none := by
  constructor
  · intro hb
    by_contra ha
    have := h.activeBuild_isSome (Option.isSome_iff_ne_none.mpr ha)
    simp [hb] at this
  · intro ha
    simp [Disk.activeBuild, ha]

/-- Invariants about the record and the pointers survive a change of the directories that keeps
the active release valid and its build the same. -/
theorem setDirectory (h : Inv d) {r : Release} {D : Option Directory}
    (hvalid : ∀ a ∈ d.active, ∃ D' m, (d.setDirectory r D).releases a = some D' ∧
      D'.validated = true ∧ D'.manifest = some m)
    (hbuild : (d.setDirectory r D).activeBuild = d.activeBuild) : Inv (d.setDirectory r D) where
  active_valid := hvalid
  previous_of_first := h.previous_of_first
  settled := h.settled
  staging := h.staging
  staged := h.staged
  forgotten := h.forgotten
  kept := h.kept
  activating := h.activating
  selected := fun hs ha => (h.selected hs ha).trans hbuild.symm
  committed := h.committed
  opened := h.opened

/-- Changing a directory that is not the active release. -/
theorem setDirectory_of_ne (h : Inv d) {r : Release} (D : Option Directory)
    (hr : d.active ≠ some r) : Inv (d.setDirectory r D) := by
  have hne : ∀ a ∈ d.active, a ≠ r := fun a ha hc => hr (hc ▸ ha)
  refine h.setDirectory (fun a ha => ?_) (d.activeBuild_setDirectory_of_ne D hr)
  rw [d.setDirectory_of_ne D (hne a ha)]
  exact h.active_valid a ha

theorem forgetPrevious (h : Inv d) : Inv { d with previous := none } :=
  { h with
    previous_of_first := fun _ => rfl
    forgotten := fun _ => rfl
    kept := fun _ _ => .inl rfl }

theorem keepPrevious (h : Inv d) {a : Release} (ha : d.active = some a)
    (hstate : d.state = .activating) : Inv { d with previous := some a } :=
  { h with
    previous_of_first := fun hc => by simp [ha] at hc
    forgotten := fun hs => by
      change d.state.Staging at hs
      rw [hstate] at hs
      exact hs.elim
    kept := fun _ _ => .inr ha.symm }

end Inv

/-! ### Permitted changes keep the invariant

Replacing the record leaves the pointers and directories alone, so only the clauses about the group
of the new state have to be shown. There is one lemma for each group. -/

namespace Inv

variable {d : Disk} {r : Record}

theorem record_settled (hd : Inv d) (hr : r.state.Settled) (hcandidate : r.candidateRelease = none)
    (hpromoted : r.promotedRelease = none) : Inv { d with record := some r } where
  active_valid := hd.active_valid
  previous_of_first := hd.previous_of_first
  settled := fun _ => ⟨hcandidate, hpromoted⟩
  staging := fun h => absurd hr h.not_settled
  staged := fun h => absurd hr h.not_settled
  forgotten := fun h => absurd hr h.not_settled
  kept := fun h => by simp_all [Disk.state, StateName.Settled]
  activating := fun h => by simp_all [Disk.state, StateName.Settled]
  selected := fun h => by
    rcases h with h | h
    · simp_all [Disk.state, StateName.Settled]
    · exact absurd h hr.not_committed
  committed := fun h => absurd h hr.not_committed
  opened := fun h => absurd h hr.not_committed

theorem record_staging (hd : Inv d) (hr : r.state.Staging) (hforgotten : d.previous = none)
    (hsome : r.candidateRelease.isSome)
    (hstaged : ∀ q, r.candidateRelease = some q ∨ r.promotedRelease = some q →
      d.active ≠ some q) : Inv { d with record := some r } where
  active_valid := hd.active_valid
  previous_of_first := hd.previous_of_first
  settled := fun h => absurd h hr.not_settled
  staging := fun _ => hsome
  staged := fun _ => hstaged
  forgotten := fun _ => hforgotten
  kept := fun h => by simp_all [Disk.state, StateName.Staging]
  activating := fun h => by simp_all [Disk.state, StateName.Staging]
  selected := fun h => by
    rcases h with h | h
    · simp_all [Disk.state, StateName.Staging]
    · exact absurd h hr.not_committed
  committed := fun h => absurd h hr.not_committed
  opened := fun h => absurd h hr.not_committed

theorem record_activating (hd : Inv d) (hr : r.state = .activating) (hforgotten : d.previous = none)
    (hsome : r.candidateRelease.isSome) (hpromoted : r.promotedRelease = none)
    (hworld : r.worldOpened = some false) (hprevious : d.active = r.previousRelease)
    (hne : d.active ≠ r.candidateRelease) : Inv { d with record := some r } where
  active_valid := hd.active_valid
  previous_of_first := hd.previous_of_first
  settled := fun h => by simp_all [Disk.state, StateName.Settled]
  staging := fun h => by simp_all [Disk.state, StateName.Staging]
  staged := fun h => by simp_all [Disk.state, StateName.Staging]
  forgotten := fun _ => hforgotten
  kept := fun _ _ => .inl hforgotten
  activating := fun _ => ⟨hsome, hpromoted, hworld, .inr hprevious⟩
  selected := fun _ h => absurd h hne
  committed := fun h => by simp_all [Disk.state, StateName.Committed]
  opened := fun h => by simp_all [Disk.state, StateName.Committed]

theorem record_committed (hd : Inv d) (hr : r.state.Committed) (hsome : d.active.isSome)
    (hactive : d.active = r.candidateRelease) (hbuild : r.candidateBuild = d.activeBuild)
    (hworld : r.worldOpened = some true ↔ r.state.Opened) :
    Inv { d with record := some r } where
  active_valid := hd.active_valid
  previous_of_first := hd.previous_of_first
  settled := fun h => absurd hr h.not_committed
  staging := fun h => absurd hr h.not_committed
  staged := fun h => absurd hr h.not_committed
  forgotten := fun h => absurd hr h.not_committed
  kept := fun h => by simp_all [Disk.state, StateName.Committed]
  activating := fun h => by simp_all [Disk.state, StateName.Committed]
  selected := fun _ _ => hbuild
  committed := fun _ => ⟨hsome, hactive⟩
  opened := fun _ => hworld

/-- A record of a committed candidate is replaced by another record of the same candidate. -/
theorem record_same (hd : Inv d) (hc : d.state.Committed) (hsame : d.loaded.SameCandidate r)
    (hr : r.state.Committed) (hworld : r.worldOpened = some true ↔ r.state.Opened) :
    Inv { d with record := some r } := by
  obtain ⟨hsome, hactive⟩ := hd.committed hc
  refine hd.record_committed hr hsome (hactive.trans hsame.release.symm) ?_ hworld
  rw [hsame.build]
  exact hd.selected (.inr hc) hactive

end Inv

theorem RecordChange.inv {op : Operation} {d : Disk} {r : Record} (h : RecordChange op d r)
    (hd : Inv d) : Inv { d with record := some r } := by
  cases h with
  | settle _ _ hr hcandidate hpromoted _ => exact hd.record_settled hr hcandidate hpromoted
  | refresh _ hstate hr hsame =>
    have hsettled : d.state.Settled := by rw [hstate]; trivial
    obtain ⟨hc, hp⟩ := hd.settled hsettled
    exact hd.record_settled (by rw [hr]; trivial) (hsame.release.trans hc) (hsame.promoted.trans hp)
  | download _ hr hcandidate hpromoted hc hforgotten =>
    refine hd.record_staging (by rw [hr]; trivial) hforgotten (by simp [hcandidate]) fun q hq => ?_
    rcases hq with hq | hq
    · rw [← hq, hcandidate]; exact hc
    · simp [hpromoted] at hq
  | promote hstate hr hcandidate hpromoted hc hf _ _ _ =>
    have hforgotten := hd.forgotten (by rw [hstate]; trivial)
    refine hd.record_staging (by rw [hr]; trivial) hforgotten (by simp [hcandidate])
      fun q hq => ?_
    rcases hq with hq | hq
    · rw [← hq, hcandidate]; exact hc
    · rw [← hq, hpromoted]; exact hf
  | activate hstate hr hcandidate hsome hpromoted hprevious _ hworld =>
    have hstaging : d.state.Staging := by rw [hstate]; trivial
    refine hd.record_activating hr (hd.forgotten hstaging) hsome hpromoted hworld hprevious.symm
      fun hc => ?_
    obtain ⟨f, hf⟩ := Option.isSome_iff_exists.mp hsome
    exact hd.staged hstaging f (.inr (hcandidate ▸ hf)) (hc.trans hf)
  | pend hstate hr hactive hsame hworld =>
    have hcommitted : r.state.Committed := by rw [hr]; trivial
    rcases hstate with hstate | hstate
    · obtain ⟨hsome, -, hclosed, -⟩ := hd.activating hstate
      refine hd.record_committed hcommitted (hactive ▸ hsome)
        (hactive.trans hsame.release.symm) ?_ ?_
      · rw [hsame.build]
        exact hd.selected (.inl hstate) hactive
      · simp [hworld, hclosed, hr, StateName.Opened]
    · have hc : d.state.Committed := by rw [hstate]; trivial
      refine hd.record_same hc hsame hcommitted ?_
      rw [hworld, hd.opened hc, hstate, hr]
  | «open» _ hstate hr hsame hworld =>
    have hc : d.state.Committed := by rcases hstate with h | h <;> rw [h] <;> trivial
    exact hd.record_same hc hsame (by rw [hr]; trivial) (by simp [hworld, hr, StateName.Opened])
  | ready _ hstate hr hsame hworld =>
    have hc : d.state.Committed := by rcases hstate with h | h <;> rw [h] <;> trivial
    exact hd.record_same hc hsame (by rw [hr]; trivial) (by simp [hworld, hr, StateName.Opened])
  | accept _ hr hcandidate hpromoted =>
    exact hd.record_settled (by rw [hr]; trivial) hcandidate hpromoted
  | fail _ hstate hr hsame hworld =>
    have hc : d.state.Committed := by rcases hstate with h | h <;> rw [h] <;> trivial
    exact hd.record_same hc hsame (by rw [hr]; trivial) (by simp [hworld, hr, StateName.Opened])

theorem Selectable.inv {op : Operation} {start : Disk} {past : List UpdaterMove} {d : Disk}
    {f : Release} {m : SteamBuildMetadata} (h : Selectable op start past d f m) (hd : Inv d) :
    Inv { d with active := some f } := by
  obtain ⟨D, hD, hvalid, hm⟩ := h.directory
  have hstate : d.loaded.state = .activating := h.state
  have hnot : ∀ {P : StateName → Prop}, P d.loaded.state → ¬ P .activating → False :=
    fun hp hn => hn (hstate ▸ hp)
  exact {
    active_valid := fun r hr => by
      obtain rfl : f = r := by simpa using hr
      exact ⟨D, m, hD, hvalid, hm⟩
    previous_of_first := fun ha => by simp at ha
    settled := fun hs => (hnot hs id).elim
    staging := fun hs => (hnot hs id).elim
    staged := fun hs => (hnot hs id).elim
    forgotten := fun hs => (hnot hs id).elim
    kept := fun _ hne => absurd h.candidate.symm hne
    activating := fun hs => by
      obtain ⟨hsome, hpromoted, hworld, -⟩ := hd.activating hs
      exact ⟨hsome, hpromoted, hworld, .inl h.candidate.symm⟩
    selected := fun _ _ => by
      change d.loaded.candidateBuild = _
      simp [h.candidateBuild, Disk.activeBuild, Disk.buildOf, Directory.build, hD, hm]
    committed := fun hs => (hnot hs id).elim
    opened := fun hs => (hnot hs id).elim }

/-- **The invariant is inductive.** -/
theorem Change.inv {op : Operation} {start : Disk} {past : List UpdaterMove} {d d' : Disk}
    (h : Change op start past d d') (hd : Inv d) : Inv d' := by
  cases h with
  | same => exact hd
  | @launcher r D D' hactive hD hmanifest hvalidated =>
    refine hd.setDirectory (fun a ha => ?_) (d.activeBuild_setDirectory_self hactive hD hmanifest)
    obtain rfl : r = a := by simpa [hactive] using ha
    obtain ⟨E, m, hE, hv, hm⟩ := hd.active_valid r hactive
    obtain rfl : D = E := by simpa [hD] using hE
    exact ⟨D', m, by simp, hvalidated hv, hmanifest.trans hm⟩
  | directory D hactive => exact hd.setDirectory_of_ne D hactive
  | rename hc hf => exact (hd.setDirectory_of_ne none hc).setDirectory_of_ne _ hf
  | forgetPrevious => exact hd.forgetPrevious
  | keepPrevious ha hstate => exact hd.keepPrevious ha hstate
  | select h => exact h.inv hd
  | record h => exact h.inv hd

end Updater

end PzServer
