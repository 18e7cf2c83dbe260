import PzServer.Updater.Tracking

/-!
# No release directory is left behind

Over whole runs: where no operation leaves an orphan, every directory under `releases/` is named,
wherever an operation ends or is killed. An orphan stays for good, so nothing weaker would do.

## Main results

* `CarefulHistory.tidy` — careful runs leave every directory named
* `UpdaterHistory.leaked` — a kill between making the candidate directory and recording it, and the
  next container start, which returns normally and leaves the directory
-/

namespace PzServer

namespace Updater

open Interaction

variable {h : List UpdaterEntry} {d s : Disk} {op : Operation} {past : List UpdaterMove}

/-! ### A committed candidate has one name -/

/-- The record of a committed candidate no longer has the name it was to be given. -/
def OneName (d : Disk) : Prop := d.state.Committed → d.loaded.promotedRelease = none

theorem RecordChange.promoted {r : Record} (hr : RecordChange op d r) (hd : Inv d)
    (hone : OneName d) (hcommitted : r.state.Committed) : r.promotedRelease = none := by
  have hnot : ∀ {n : StateName}, r.state = n → ¬ n.Committed → r.promotedRelease = none :=
    fun hn hno => absurd (hn ▸ hcommitted) hno
  have hsame : d.state.Committed → d.loaded.SameCandidate r → r.promotedRelease = none :=
    fun hc hs => hs.promoted.trans (hone hc)
  cases hr with
  | settle _ _ hsettled => exact absurd hcommitted hsettled.not_committed
  | refresh _ _ hstate => exact hnot hstate id
  | download _ hstate => exact hnot hstate id
  | promote _ hstate => exact hnot hstate id
  | activate _ hstate => exact hnot hstate id
  | pend hstate _ _ hs =>
    rcases hstate with hstate | hstate
    · exact hs.promoted.trans (hd.activating hstate).2.1
    · exact hsame (by rw [hstate]; trivial) hs
  | «open» _ hstate _ hs => exact hsame (by rcases hstate with h | h <;> rw [h] <;> trivial) hs
  | ready _ hstate _ hs => exact hsame (by rcases hstate with h | h <;> rw [h] <;> trivial) hs
  | accept _ hstate => exact hnot hstate id
  | fail _ hstate _ hs => exact hsame (by rcases hstate with h | h <;> rw [h] <;> trivial) hs

theorem UpdaterTrail.oneName (ht : UpdaterTrail h d) : OneName d := by
  have hinit : ∀ s, s = Disk.empty → Inv s ∧ OneName s := by
    rintro s rfl
    exact ⟨inv_empty, fun hc => hc.elim⟩
  have hstep : ∀ o start past (m : UpdaterMove), Permitted o start past m →
      Inv m.before ∧ OneName m.before → Inv m.after ∧ OneName m.after := by
    rintro o start past ⟨q, reply, before, after⟩ hG ⟨hd, hone⟩
    have hchange : Change o start past before after := hG.change
    refine ⟨hchange.inv hd, ?_⟩
    cases hchange with
    | record hr => exact hr.promoted hd hone
    | _ => exact hone
  exact (ht.invariant hinit hstep).2

/-! ### Operations and runs -/

/-- **Every operation accounts for all directories**, at each of its moves. -/
theorem body_tracks (hs : Inv s) (hone : OneName s) (h : Tracked past s) :
    Tracks op.body (fun _ past' new => Tracked past' new) Tracking past s := by
  have hcommitted : s.state.Committed →
      s.active = s.loaded.candidateRelease ∧ s.loaded.promotedRelease = none := fun hc =>
    ⟨(hs.committed hc).2, hone hc⟩
  cases op with
  | prepareStart c => exact prepareStart_tracks hs h
  | explicitUpdate c validate => exact explicitUpdate_tracks hs h
  | markWorldOpened => exact markWorldOpened_tracks h
  | markRuntimeReady c version revision => exact markRuntimeReady_tracks h hcommitted
  | accept => exact accept_tracks h hcommitted
  | failReadiness detail => exact failReadiness_tracks h

/-- Runs from an empty install root, like those of `UpdaterHistory`, in which no operation leaves an
orphan. -/
inductive CarefulHistory : List UpdaterEntry → Disk → Prop where
  | start : CarefulHistory [] Disk.empty
  | run (o : Operation) {h : List UpdaterEntry} {d new : Disk}
      {p : Program Request Reply (Except Err o.Result)} {past : List UpdaterMove}
      (hh : CarefulHistory h d) (he : world.Exec o.body.run [] d p past new)
      (horphans : orphans past = []) : CarefulHistory (entries o d past ++ h) new

theorem CarefulHistory.history (hh : CarefulHistory h d) : UpdaterHistory h d := by
  induction hh with
  | start => exact .start rfl
  | run o _ he _ ih => exact ih.run o he

/-- **Careful runs leave nothing behind.** In a run in which no operation leaves an orphan, whatever
fails in it and wherever its operations are killed, every directory under `releases/` is the active
release, the previous one, or named by the record. -/
theorem CarefulHistory.tidy (hh : CarefulHistory h d) : Tidy d := by
  induction hh with
  | start =>
    intro r hr
    cases hr
  | @run o h d new p past hh he horphans ih =>
    have ht := hh.history.trail
    have hbody : Tracks o.body (fun _ past' new => Tracked past' new) Tracking [] d :=
      body_tracks ht.inv ht.oneName ih.tracked
    have htracked : Tracked past new :=
      World.Guarantees.exec_after (K := Tracked) (fun _ _ hmove => hmove) hbody he ih.tracked
    exact htracked.named horphans

/-- Surroundings like `obliging`, in which the next candidate gets another name. -/
def renewing (latest : ℕ) : world.Oracle := fun past d q => match q with
  | .uniqueCandidate _ => (1 : ℕ)
  | q => obliging latest past d q

/-- A first install that is killed while it downloads, and the next container start. -/
theorem CarefulHistory.tidy_killed :
    Tidy (world.runFor (renewing 5) 60 (Operation.prepareStart .default).body.run []
      (Disk.empty.afterObliging 5 17 (.prepareStart .default))).2.2 := by
  have hkilled := world.exec_runFor (obliging 5) 17 (Operation.prepareStart .default).body.run []
    Disk.empty (by decide)
  have hnext := world.exec_runFor (renewing 5) 60 (Operation.prepareStart .default).body.run []
    (Disk.empty.afterObliging 5 17 (.prepareStart .default)) (by decide)
  exact (CarefulHistory.tidy ((CarefulHistory.start.run (.prepareStart .default) hkilled
    (by decide)).run (.prepareStart .default) hnext (by decide)))

/-- **A directory that is left behind.** The first install is killed right after it made the
candidate directory. The next container start installs the build under another name and returns
normally; the first directory is still there, and nothing names it. -/
theorem UpdaterHistory.leaked : ∃ h d r past new, UpdaterHistory h d ∧
    world.Exec (prepareStart .default).run [] d (.done (.ok r)) past new ∧ ¬ Tidy new := by
  have hkilled := UpdaterHistory.runFor (.start rfl) (.prepareStart .default) (obliging 5) 13
    (by decide)
  have hnext := world.exec_runFor (renewing 5) 60 (prepareStart .default).run []
    (Disk.empty.afterObliging 5 13 (.prepareStart .default)) (by decide)
  exact ⟨_, _, _, _, _, hkilled, hnext, fun htidy =>
    absurd (htidy (.candidate 5 0) (by decide)) (by decide)⟩

end Updater

end PzServer
