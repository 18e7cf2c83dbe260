import PzServer.Updater.Conformance

/-!
# What holds along every run

Safety of the updater over whole histories: the disk is consistent wherever a run is stopped, and a
candidate the world was opened with stays until it is accepted. Both are inductions on the trail of
a history, with one lemma about a single `Change`.

## Main results

* `UpdaterHistory.consistent` — the pointers, the record and the directories agree in every state
* `UpdaterHistory.no_rollback` — no rollback after the world was opened
-/

namespace PzServer

namespace Updater

open Interaction

/-- An entry of an updater history. -/
abbrev UpdaterEntry : Type := Entry Operation Request Reply Disk

variable {h later earlier : List UpdaterEntry} {d : Disk} {e : UpdaterEntry}

/-! ### Runs that are computed -/

/-- An operation that runs against an oracle for at most `n` requests extends a history. -/
theorem UpdaterHistory.runFor (hh : UpdaterHistory h d) (o : Operation) (oracle : world.Oracle)
    (n : ℕ) (hlegal : world.legal oracle n o.body.run [] d = true) :
    UpdaterHistory (entries o d (world.runFor oracle n o.body.run [] d).2.1 ++ h)
      (world.runFor oracle n o.body.run [] d).2.2 :=
  .run o hh (world.exec_runFor oracle n _ _ _ hlegal)

/-- Surroundings in which everything succeeds and Steam reports build `latest`. -/
def obliging (latest : ℕ) : world.Oracle := fun _ _ q => match q with
  | .lock => .acquired
  | .utcNow => "now"
  | .loadState | .readActive | .readPrevious | .readInstalledMetadata _ => ReadOutcome.ok
  | .writeState _ | .writeActive _ | .writePrevious _ | .promote ..
  | .writeLauncherJson .. | .replaceWrapper _ => WriteOutcome.ok
  | .unlinkPrevious | .ensureRoot | .mkdir _ | .requireCandidateSpace _ => (none : Option String)
  | .markerExists | .worldHasState => false
  | .latestBuild _ => .ok latest
  | .install .. => (.ok (), ⟨some ⟨latest, none⟩, none, false, false⟩)
  | .gameServerRunning => .ok false
  | .uniqueCandidate _ => (0 : ℕ)
  | .finalRelease _ => ⟨0, 0, 0⟩
  | .pathExists _ | .raiseAmbiguous => ()
  | .rmtree _ => .removed
  | .inspectLauncher .. => .passed
  | .createBackup .. => .ok "backup"

/-- A local installation with the default settings. -/
def UpdateConfiguration.default : UpdateConfiguration where
  branch := ""
  branchPassword := ""
  policy := .stableOnStart
  allowAutoUpdateWithMods := false
  mods := ""
  workshopItems := ""
  pzXms := "2g"
  pzXmx := "4g"
  deploymentEnvironment := .local

/-! ### Consistency -/

/-- The pointers, the record and the release directories agree. -/
structure Consistent (d : Disk) : Prop where
  /-- The active release exists and passed launcher validation. -/
  active : ∀ r, d.active = some r → ∃ D, d.releases r = some D ∧ D.validated = true
  /-- A candidate at or past `pending-readiness` is the active release, and has the recorded
  build. -/
  committed : d.state.Committed → ∃ r D m, d.active = some r ∧
    d.loaded.candidateRelease = some r ∧ d.releases r = some D ∧ D.manifest = some m ∧
    d.loaded.candidateBuild = some m.buildId
  /-- While activating, the active release is the candidate or the one before it. -/
  activating : d.state = .activating →
    (∃ r, d.active = some r ∧ d.loaded.candidateRelease = some r) ∨
      d.active = d.loaded.previousRelease
  /-- While a candidate is downloaded or promoted, the record names it, and neither of its names
  is the active release. -/
  staging : d.state.Staging → ∃ c, d.loaded.candidateRelease = some c ∧ d.active ≠ some c ∧
    ∀ f, d.loaded.promotedRelease = some f → d.active ≠ some f

theorem Inv.toConsistent (hd : Inv d) : Consistent d where
  active r hr := by
    obtain ⟨D, -, hD, hvalid, -⟩ := hd.active_valid r hr
    exact ⟨D, hD, hvalid⟩
  committed hs := by
    obtain ⟨hsome, hactive⟩ := hd.committed hs
    obtain ⟨r, hr⟩ := Option.isSome_iff_exists.mp hsome
    obtain ⟨D, m, hD, -, hm⟩ := hd.active_valid r hr
    refine ⟨r, D, m, hr, hactive.symm.trans hr, hD, hm, ?_⟩
    rw [hd.selected (.inr hs) hactive]
    simp [Disk.activeBuild, Disk.buildOf, Directory.build, hr, hD, hm]
  activating hs := by
    obtain ⟨hsome, -, -, hactive | hactive⟩ := hd.activating hs
    · obtain ⟨r, hr⟩ := Option.isSome_iff_exists.mp hsome
      exact .inl ⟨r, hactive.trans hr, hr⟩
    · exact .inr hactive
  staging hs := by
    obtain ⟨c, hc⟩ := Option.isSome_iff_exists.mp (hd.staging hs)
    exact ⟨c, hc, hd.staged hs c (.inl hc), fun f hf => hd.staged hs f (.inr hf)⟩

/-- **Every state of every run is consistent**, wherever operations fail or are killed, and no run
reaches the error for an ambiguous active pointer. -/
theorem UpdaterHistory.consistent (hh : UpdaterHistory h d) :
    Consistent d ∧ ∀ e ∈ h, e.move.request ≠ .raiseAmbiguous := by
  have ht := hh.trail
  refine ⟨ht.inv.toConsistent, fun e he => ?_⟩
  obtain ⟨-, -, hG⟩ := ht.of_mem he
  exact hG.unambiguous

/-- A first install that is killed after the switch: the record still says `activating`. -/
theorem UpdaterHistory.consistent_killed :
    let d := (world.runFor (obliging 5) 29 (Operation.prepareStart .default).body.run []
      Disk.empty).2.2
    d.state = .activating ∧ d.active = some (.steam 5 0 0) ∧ Consistent d :=
  ⟨by decide, by decide, (UpdaterHistory.consistent (.runFor (.start rfl)
    (.prepareStart .default) (obliging 5) 29 (by decide))).1⟩

/-! ### No rollback after the world was opened -/

/-- The record says that a candidate was accepted. -/
def Record.Accepted (r : Record) : Prop :=
  r.state = .current ∧ (r.lastResult = some .installed ∨ r.lastResult = some .updated)

instance (r : Record) : Decidable r.Accepted := inferInstanceAs (Decidable (_ ∧ _))

/-- The entry makes the record say so. -/
def UpdaterEntry.Accepts (e : UpdaterEntry) : Prop :=
  ¬ e.before.loaded.Accepted ∧ e.after.loaded.Accepted

instance (e : UpdaterEntry) : Decidable e.Accepts := inferInstanceAs (Decidable (_ ∧ _))

/-- Only the launcher files of the active release differ. -/
structure OnlyLauncher (d new : Disk) : Prop where
  record : new.record = d.record
  active : new.active = d.active
  previous : new.previous = d.previous
  present : ∀ r, (new.releases r).isSome = (d.releases r).isSome
  elsewhere : ∀ r, d.active ≠ some r → new.releases r = d.releases r
  manifest : ∀ r, (new.releases r).bind Directory.manifest = (d.releases r).bind Directory.manifest

namespace OnlyLauncher

variable {d₁ d₂ d₃ : Disk}

theorem refl (d : Disk) : OnlyLauncher d d :=
  ⟨rfl, rfl, rfl, fun _ => rfl, fun _ _ => rfl, fun _ => rfl⟩

theorem trans (h : OnlyLauncher d₁ d₂) (h' : OnlyLauncher d₂ d₃) : OnlyLauncher d₁ d₃ where
  record := h'.record.trans h.record
  active := h'.active.trans h.active
  previous := h'.previous.trans h.previous
  present r := (h'.present r).trans (h.present r)
  elsewhere r hr := (h'.elsewhere r (h.active ▸ hr)).trans (h.elsewhere r hr)
  manifest r := (h'.manifest r).trans (h.manifest r)

theorem loaded (h : OnlyLauncher d₁ d₂) : d₂.loaded = d₁.loaded := by
  simp [Disk.loaded, h.record]

end OnlyLauncher

/-- A permitted change while a candidate is committed rewrites launcher files or the record. -/
theorem Change.of_committed {op : Operation} {start new : Disk} {past : List UpdaterMove}
    (h : Change op start past d new) (hd : d.state.Committed) :
    OnlyLauncher d new ∨ ∃ r, RecordChange op d r ∧ new = { d with record := some r } := by
  cases h with
  | same => exact .inl (.refl d)
  | @launcher r D D' hactive hD hmanifest hvalidated =>
    refine .inl ⟨rfl, rfl, rfl, fun r' => ?_, fun r' hr' => ?_, fun r' => ?_⟩
    · by_cases hr : r' = r
      · subst hr; simp [hD]
      · rw [d.setDirectory_of_ne _ hr]
    · exact d.setDirectory_of_ne _ fun hr => hr' (hr ▸ hactive)
    · by_cases hr : r' = r
      · subst hr; simp [hD, hmanifest]
      · rw [d.setDirectory_of_ne _ hr]
  | directory _ _ hnot => exact absurd hd hnot
  | rename _ _ _ hnot => exact absurd hd hnot
  | forgetPrevious hnot => exact absurd hd hnot
  | keepPrevious _ hstate =>
    rw [hstate] at hd
    exact hd.elim
  | select hselect =>
    have hstate := hselect.state
    rw [hstate] at hd
    exact hd.elim
  | record hr => exact .inr ⟨_, hr, rfl⟩

/-- From an opened candidate, the record goes to the same candidate, still opened, or it accepts
it; and a failed candidate keeps its record. -/
theorem RecordChange.of_opened {op : Operation} {r : Record} (h : RecordChange op d r)
    (hd : d.state.Opened) : d.state ≠ .failedAfterWorldOpen ∧
      (r.state.Opened ∧ d.loaded.SameCandidate r ∨ r.Accepted) := by
  have hnot : ∀ {n : StateName}, d.state = n → ¬ n.Opened → False := fun hn hno => hno (hn ▸ hd)
  have hwaiting : d.state = .startingCandidate ∨ d.state = .runtimeReady →
      d.state ≠ .failedAfterWorldOpen := by rintro (h | h) <;> simp [h]
  cases h with
  | settle hd' => exact absurd hd.committed hd'
  | refresh _ hstate => exact (hnot hstate id).elim
  | download hstate => exact absurd hd.committed hstate.not_committed
  | promote hstate => exact (hnot hstate id).elim
  | activate hstate => exact (hnot hstate id).elim
  | pend hstate => rcases hstate with hstate | hstate <;> exact (hnot hstate id).elim
  | «open» _ hstate hr hsame =>
    rcases hstate with hstate | hstate
    · exact (hnot hstate id).elim
    · exact ⟨hwaiting (.inl hstate), .inl ⟨by rw [hr]; trivial, hsame⟩⟩
  | ready _ hstate hr hsame => exact ⟨hwaiting hstate, .inl ⟨by rw [hr]; trivial, hsame⟩⟩
  | accept hop hr _ _ hresult =>
    refine ⟨hwaiting ?_, .inr ⟨hr, ?_⟩⟩
    · rcases hop with hop | hop
      · exact .inr hop.2
      · exact hop.2
    · rw [hresult]
      split
      · exact .inl rfl
      · exact .inr rfl
  | fail _ hstate hr hsame => exact ⟨hwaiting hstate, .inl ⟨by rw [hr]; trivial, hsame⟩⟩

/-- The candidate `c` is active, in place, and the world was opened with it. -/
structure OpenedWith (c : Release) (d : Disk) : Prop where
  opened : d.state.Opened
  candidate : d.loaded.candidateRelease = some c

/-- One permitted change keeps an opened candidate, or accepts it. -/
theorem OpenedWith.change {c : Release} {op : Operation} {start new : Disk}
    {past : List UpdaterMove} (hd : OpenedWith c d) (h : Change op start past d new) :
    OpenedWith c new ∨ ¬ d.loaded.Accepted ∧ new.loaded.Accepted := by
  have hwaiting : ¬ d.loaded.Accepted := fun hn => by
    have hopened := hd.opened
    rw [Disk.state, hn.1] at hopened
    exact hopened
  rcases h.of_committed hd.opened.committed with hlauncher | ⟨r, hr, rfl⟩
  · exact .inl ⟨by rw [Disk.state, hlauncher.loaded]; exact hd.opened,
      by rw [hlauncher.loaded]; exact hd.candidate⟩
  · rcases (hr.of_opened hd.opened).2 with ⟨hopened, hsame⟩ | haccepted
    · exact .inl ⟨hopened, hsame.release.trans hd.candidate⟩
    · exact .inr ⟨hwaiting, haccepted⟩

/-- A failed candidate is not touched again. -/
theorem OnlyLauncher.of_failed {op : Operation} {start new : Disk} {past : List UpdaterMove}
    (h : Change op start past d new) (hd : d.state = .failedAfterWorldOpen) :
    OnlyLauncher d new := by
  have hopened : d.state.Opened := by rw [hd]; trivial
  rcases h.of_committed hopened.committed with hlauncher | ⟨r, hr, rfl⟩
  · exact hlauncher
  · exact absurd hd (hr.of_opened hopened).1

/-- **No rollback after the world was opened.** After `mark_world_opened` has recorded the world as
opened for candidate `c`, and as long as no entry accepts it, `active-release` names `c` and its
directory is in place. And once `failed-after-world-open` is recorded, nothing but launcher files
of the active release changes any more. -/
theorem UpdaterHistory.no_rollback {c : Release}
    (hh : UpdaterHistory (later ++ e :: earlier) d) :
    (e.op = .markWorldOpened → e.after.state = .startingCandidate →
      e.after.loaded.worldOpened = some true → e.after.loaded.candidateRelease = some c →
      (∀ e' ∈ later, ¬ UpdaterEntry.Accepts e') →
        d.active = some c ∧ (d.releases c).isSome) ∧
    (e.after.state = .failedAfterWorldOpen → OnlyLauncher e.after d) := by
  have ht := hh.trail
  constructor
  · intro _ hstate _ hcandidate haccept
    have hopened : OpenedWith c d := by
      refine ht.along (fun s' ht' => ?_) fun e' h' he' ht' hG hbefore => ?_
      · rw [ht'.eq_after]
        exact ⟨by rw [hstate]; trivial, hcandidate⟩
      · rcases hbefore.change hG.change with hafter | haccepted
        · exact hafter
        · exact absurd haccepted (haccept e' he')
    have hactive := (ht.inv.committed hopened.opened.committed).2.trans hopened.candidate
    obtain ⟨D, -, hD, -⟩ := ht.inv.active_valid c hactive
    exact ⟨hactive, by simp [hD]⟩
  · intro hfailed
    refine ht.along (fun s' ht' => ?_) fun e' h' he' ht' hG hbefore => ?_
    · rw [ht'.eq_after]
      exact .refl _
    · have hstate : e'.before.state = .failedAfterWorldOpen := by
        rw [Disk.state, hbefore.loaded]
        exact hfailed
      exact hbefore.trans (.of_failed hG.change hstate)

/-- The disk after an operation ran in obliging surroundings, for at most `n` requests. -/
def Disk.afterObliging (d : Disk) (latest n : ℕ) (o : Operation) : Disk :=
  (world.runFor (obliging latest) n o.body.run [] d).2.2

/-- A first install of build 5. -/
def Disk.installed : Disk := Disk.empty.afterObliging 5 40 (.prepareStart .default)

/-- The disk after build `b` was installed, opened and accepted in obliging surroundings. -/
def Disk.accepting (d : Disk) (b : ℕ) : Disk :=
  let opened := (d.afterObliging b 60 (.prepareStart .default)).afterObliging b 10 .markWorldOpened
  opened.afterObliging b 15 (.markRuntimeReady .default none none)

theorem UpdaterHistory.afterObliging (hh : UpdaterHistory h d) (latest n : ℕ) (o : Operation)
    (hlegal : world.legal (obliging latest) n o.body.run [] d = true) :
    ∃ h', UpdaterHistory h' (d.afterObliging latest n o) :=
  ⟨_, hh.runFor o (obliging latest) n hlegal⟩

theorem UpdaterHistory.accepting : ∃ h, UpdaterHistory h (Disk.empty.accepting 5) := by
  have hempty : UpdaterHistory [] Disk.empty := .start rfl
  obtain ⟨_, h₁⟩ := hempty.afterObliging 5 60 (.prepareStart .default) (by decide)
  obtain ⟨_, h₂⟩ := h₁.afterObliging 5 10 .markWorldOpened (by decide)
  exact h₂.afterObliging 5 15 (.markRuntimeReady .default none none) (by decide)

/-- The next container start finds Steam at build 6, and is killed after four requests: the
candidate stays. -/
theorem UpdaterHistory.no_rollback_restart :
    ((Disk.installed.afterObliging 5 10 .markWorldOpened).afterObliging 6 4
      (.prepareStart .default)).active = some (.steam 5 0 0) := by
  have hempty : UpdaterHistory [] Disk.empty := .start rfl
  have hinstall := hempty.runFor (.prepareStart .default) (obliging 5) 40 (by decide)
  have hopen := hinstall.runFor .markWorldOpened (obliging 5) 10 (by decide)
  have hrestart := hopen.runFor (.prepareStart .default) (obliging 6) 4 (by decide)
  have hmoved : (world.runFor (obliging 5) 10 Operation.markWorldOpened.body.run []
      Disk.installed).2.1 ≠ [] := List.ne_nil_of_length_pos (by decide)
  have hentry := entries_eq_cons Operation.markWorldOpened Disk.installed hmoved
  unfold Disk.installed Disk.afterObliging at hentry
  rw [hentry] at hrestart
  exact (hrestart.no_rollback.1 rfl rfl rfl rfl (by decide)).1

end Updater

end PzServer
