import PzServer.Updater.Runs

/-!
# What precedes a switch of the active release

`active-release` is written in one place, and only at the end of a transaction that has asked
everything it must ask. The results below are about whole histories: about each entry that changes
the pointer, with the moves its operation made before it, and about the build that is active from
one entry to any later state.

## Main results

* `UpdaterHistory.switch_guarded` — every switch is guarded, builds never decrease, and Steam is
  asked only when the policy allows it
-/

namespace PzServer

namespace Updater

open Interaction

variable {h later earlier : List UpdaterEntry} {d new start : Disk} {e : UpdaterEntry}
  {op : Operation} {past : List UpdaterMove}

/-- What an operation did before it made `active-release` name another release: the entry is the
write of the pointer, and `latest` is the build Steam reported. -/
structure Guarded (e : UpdaterEntry) (latest : ℕ) : Prop where
  /-- The deployment marker was absent when it was checked. -/
  marker : Seen .markerExists (.ok false) e.earlier
  /-- Steam's metadata query returned the build. -/
  metadata : ∃ c, e.op.updating = some c ∧
    Seen (.latestBuild c.steamBranch) (.ok latest) e.earlier
  /-- No game server was running. -/
  server : Seen .gameServerRunning (.ok false) e.earlier
  /-- The candidate passed launcher validation with exactly that build, and was then moved to the
  name that becomes active. -/
  candidate : ∃ candidate final xms xmx m,
    Seen (.inspectLauncher candidate xms xmx) (.ok m) e.earlier ∧ m.buildId = latest ∧
    Seen (.promote candidate final) (.ok ()) e.earlier ∧
    e.after.active = some final ∧ e.after.activeBuild = some latest
  /-- The backup was made, unless there was no active release and the world was empty. -/
  backup : (∃ path, Seen (.createBackup e.before.activeBuild latest) (.ok path) e.earlier) ∨
    e.before.active = none ∧ Seen .worldHasState (.ok false) e.earlier
  /-- It is no downgrade. -/
  upgrade : ∀ b, e.before.activeBuild = some b → b ≤ latest

/-- The only change that moves the pointer is `select`. -/
theorem Change.selectable (h : Change op start past d new) (hactive : new.active ≠ d.active) :
    ∃ f m, Selectable op start past d f m ∧ new = { d with active := some f } := by
  cases h with
  | select h => exact ⟨_, _, h, rfl⟩
  | same | launcher | directory | rename | forgetPrevious | keepPrevious | record =>
    exact absurd rfl hactive

/-- The build of the release a selection makes active. -/
theorem Selectable.activeBuild {f : Release} {m : SteamBuildMetadata}
    (h : Selectable op start past d f m) :
    ({ d with active := some f } : Disk).activeBuild = some m.buildId := by
  obtain ⟨D, hD, -, hm⟩ := h.directory
  simp [Disk.activeBuild, Disk.buildOf, Directory.build, hD, hm]

/-- One change never lowers the active build. -/
theorem Change.activeBuild_le (h : Change op start past d new) {b : ℕ}
    (hb : d.activeBuild = some b) : ∃ b', new.activeBuild = some b' ∧ b ≤ b' := by
  cases h with
  | same | forgetPrevious | keepPrevious | record => exact ⟨b, hb, Nat.le_refl b⟩
  | launcher hactive hD hmanifest =>
    exact ⟨b, (d.activeBuild_setDirectory_self hactive hD hmanifest).trans hb, Nat.le_refl b⟩
  | directory D hactive =>
    exact ⟨b, (d.activeBuild_setDirectory_of_ne D hactive).trans hb, Nat.le_refl b⟩
  | @rename c f D hc hf =>
    have hrename : ((d.setDirectory c none).setDirectory f (some D)).activeBuild = d.activeBuild :=
      ((d.setDirectory c none).activeBuild_setDirectory_of_ne _ hf).trans
        (d.activeBuild_setDirectory_of_ne _ hc)
    exact ⟨b, hrename.trans hb, Nat.le_refl b⟩
  | select h => exact ⟨_, h.activeBuild, h.upgrade b hb⟩

/-- **Every switch is guarded.** In every history: an entry that makes `active-release` name
another release is `Guarded`; the active build never decreases from one entry to a later state; and
`prepare_start` asks Steam only without a deployment marker and, while a release is active, only
under `stable-on-start` with no mods or with mods allowed. -/
theorem UpdaterHistory.switch_guarded (hh : UpdaterHistory h d) :
    (∀ e ∈ h, e.after.active ≠ e.before.active → ∃ latest, Guarded e latest) ∧
    (∀ later e earlier, h = later ++ e :: earlier → ∀ b, e.before.activeBuild = some b →
      ∃ b', d.activeBuild = some b' ∧ b ≤ b') ∧
    (∀ e ∈ h, ∀ c branch, e.op = .prepareStart c → e.move.request = .latestBuild branch →
      Seen .markerExists (.ok false) e.earlier ∧
      (e.before.active.isSome → c.policy = .stableOnStart ∧
        (c.modsConfigured = true → c.allowAutoUpdateWithMods = true))) := by
  have ht := hh.trail
  refine ⟨fun e he hactive => ?_, fun later e earlier hsplit b hb => ?_,
    fun e he c branch ho hq => ?_⟩
  · obtain ⟨-, -, hG⟩ := ht.of_mem he
    obtain ⟨f, m, hselect, hnew⟩ := hG.change.selectable hactive
    obtain ⟨candidate, xms, xmx, hinspected, hpromoted⟩ := hselect.inspected
    refine ⟨m.buildId, hselect.marker, hselect.config, hselect.server, ?_, hselect.backup,
      hselect.upgrade⟩
    refine ⟨candidate, f, xms, xmx, m, hinspected, rfl, hpromoted, ?_, ?_⟩
    · rw [Entry.after, hnew]
    · rw [Entry.after, hnew]
      exact hselect.activeBuild
  · subst hsplit
    refine Trail.along (P := fun s => ∃ b', s.activeBuild = some b' ∧ b ≤ b') ht
      (fun s' ht' => ?_) fun e' h' _ _ hG hbefore => ?_
    · rw [ht'.eq_after]
      exact ht.of_append_cons.2.change.activeBuild_le hb
    · obtain ⟨b', hb', hle⟩ := hbefore
      obtain ⟨b'', hb'', hle'⟩ := hG.change.activeBuild_le hb'
      exact ⟨b'', hb'', Nat.le_trans hle hle'⟩
  · obtain ⟨-, -, hG⟩ := ht.of_mem he
    have hquery := hG.query branch hq
    exact ⟨hquery.marker, fun hactive => hquery.policy c ho hactive⟩

/-- The guard of the switch that ends a first install. -/
theorem UpdaterHistory.switch_guarded_install :
    ∃ e : UpdaterEntry, e.before.active = none ∧ e.after.active = some (.steam 5 0 0) ∧
      ∃ latest, Guarded e latest := by
  have hempty : UpdaterHistory [] Disk.empty := .start rfl
  have hinstall := hempty.runFor (.prepareStart .default) (obliging 5) 29 (by decide)
  have hmoved : (world.runFor (obliging 5) 29 (Operation.prepareStart .default).body.run []
      Disk.empty).2.1 ≠ [] := List.ne_nil_of_length_pos (by decide)
  rw [entries_eq_cons _ _ hmoved] at hinstall
  exact ⟨_, rfl, rfl, hinstall.switch_guarded.1 _ List.mem_cons_self nofun⟩

end Updater

end PzServer
