import PzServer.Updater.Footprint
import PzServer.Updater.Frame
import PzServer.Updater.Runs

/-!
# A rejected build

The validation of a candidate can reject its build for good: the record then carries the build as
`blocked_build`, and later starts refuse it. The field is passed along by most of the records that
follow, and reset by some. `Refused` is what keeps the build out, and each operation is shown to
keep it, as long as Steam reports that build.

A metadata query that fails with an `UpdateError` is the exception. Its failure is recorded with
`blocked_build` reset, so the next start downloads the rejected build again.

## Main results

* `UpdaterHistory.rejected_stays` — the build stays out while no such query fails
* `UpdaterHistory.rejected_returns` — it comes back after one
-/

namespace PzServer

namespace Updater

open Interaction

variable {α β : Type} {c : UpdateConfiguration} {a : Release} {latest : ℕ} {s : Disk}
  {past : List UpdaterMove}

/-- Steam is asked for a build. -/
def Request.Installs : Request → Prop
  | .install .. => True
  | _ => False

instance : DecidablePred Request.Installs := fun q =>
  match q with
  | .install .. => .isTrue trivial
  | .lock | .utcNow | .loadState | .writeState _ | .readActive | .readPrevious | .writeActive _
  | .writePrevious _ | .unlinkPrevious | .ensureRoot | .markerExists | .latestBuild _
  | .gameServerRunning | .worldHasState | .requireCandidateSpace _ | .uniqueCandidate _
  | .finalRelease _ | .mkdir _ | .pathExists _ | .rmtree _ | .promote .. | .inspectLauncher ..
  | .writeLauncherJson .. | .replaceWrapper _ | .readInstalledMetadata _ | .createBackup ..
  | .raiseAmbiguous => .isFalse id

/-- The move puts a record on the disk that rejects build `latest`. -/
def RejectsBuild (latest : ℕ) (m : UpdaterMove) : Prop :=
  ∃ r, m.request = .writeState r ∧ r.Rejects ∧ r.candidateBuild = some latest ∧
    m.after.record = some r

/-- What keeps build `latest` out while release `a` is active: it is blocked, or no newer than `a`
itself. -/
structure Refused (a : Release) (latest : ℕ) (d : Disk) : Prop where
  active : d.active = some a
  settled : d.state.Settled
  refused : d.loaded.blockedBuild = some latest ∨ ∃ b ∈ d.activeBuild, latest ≤ b

/-! ### Programs that keep a build out -/

/-- Nothing is installed, and the build stays out. -/
def KeepsOut (a : Release) (latest : ℕ) (_ : List UpdaterMove) (m : UpdaterMove) : Prop :=
  ¬ m.request.Installs ∧ Refused a latest m.after

/-- A program whose moves keep the build out. -/
abbrev Refuses (W : World Request Reply Disk) (a : Release) (latest : ℕ) (p : UpdaterM α)
    (ok : α → Disk → Prop) (past : List UpdaterMove) (s : Disk) : Prop :=
  W.Ensures (KeepsOut a latest) p (fun v _ new => ok v new ∧ Refused a latest new)
    (fun _ _ new => Refused a latest new) past s

section Refuses

variable {W : World Request Reply Disk} {ok : α → Disk → Prop}

theorem Refuses.seq {p : UpdaterM β} {f : β → UpdaterM α} {P : β → Disk → Prop}
    (h : Refuses W a latest p P past s)
    (hf : ∀ v past' s', P v s' → Refused a latest s' → Refuses W a latest (f v) ok past' s') :
    Refuses W a latest (p >>= f) ok past s :=
  World.Ensures.seq h (fun v past' s' _ hv => hf v past' s' hv.1 hv.2) fun _ _ _ _ he => he

theorem refuses_throw {e : Err} (hs : Refused a latest s) :
    Refuses W a latest (throw e : UpdaterM α) ok past s :=
  World.ensures_throw hs

theorem refuses_pure {v : α} (hs : Refused a latest s) (hv : ok v s) :
    Refuses W a latest (pure v : UpdaterM α) ok past s :=
  World.ensures_pure ⟨hv, hs⟩

end Refuses

theorem Request.Reads.not_installs {q : Request} (hq : q.Reads) : ¬ q.Installs := by
  cases q <;> first | exact hq.elim | exact id

/-- One request that changes nothing. -/
theorem read_refuses {q : Request} (hq : q.Reads) (hs : Refused a latest s) :
    Refuses world a latest (ask q) (fun v new => new = s ∧ Effect s s q (.ok v)) past s := by
  refine World.ensures_ask fun choice hc => ?_
  have heffect := effect_answer hc
  have hsame := heffect.eq_of_reads hq
  have hs' : Refused a latest (answer s q choice).2 := by
    rw [hsame]
    exact hs
  rw [hsame] at heffect
  refine ⟨⟨hq.not_installs, hs'⟩, ?_⟩
  simp only [world]
  cases hr : (answer s q choice).1 with
  | ok v =>
    rw [hr] at heffect
    exact ⟨⟨hsame, heffect⟩, hs'⟩
  | error e => exact hs'

/-- One request that changes nothing, and what follows it, in surroundings with fewer choices. -/
theorem read_refuses_bind {g : (s : Disk) → (q : Request) → Choice q → Bool} {q : Request}
    {f : Value q → UpdaterM α} {ok : α → Disk → Prop} (hq : q.Reads) (hs : Refused a latest s)
    (hf : ∀ v past', Effect s s q (.ok v) →
      Refuses (world.restrict g) a latest (f v) ok past' s) :
    Refuses (world.restrict g) a latest (ask q >>= f) ok past s := by
  refine Refuses.seq ((read_refuses hq hs).restrict g) fun v past' s' hv _ => ?_
  obtain ⟨rfl, heffect⟩ := hv
  exact hf v past' heffect

/-- A new record that keeps the build out. -/
theorem writeState_refuses {r : Record} (hs : Refused a latest s)
    (hr : Refused a latest { s with record := some r }) :
    Refuses world a latest (writeState r) (fun _ _ => True) past s := by
  refine .seq (P := fun _ _ => True) (World.ensures_ask fun choice hc => ?_)
    fun _ _ _ _ hnew => refuses_pure hnew trivial
  cases choice with
  | ok => exact ⟨⟨id, hr⟩, trivial, hr⟩
  | failedBefore => exact ⟨⟨id, hs⟩, hs⟩
  | failedAfter => exact ⟨⟨id, hr⟩, hr⟩

/-- Rewriting a launcher file. -/
theorem Refused.inDirectory {r : Release} {f : Directory → Directory} (h : Refused a latest s)
    (hf : LauncherRewrite f) : Refused a latest (s.inDirectory r f) ∧
      (s.inDirectory r f).loaded = s.loaded ∧ (s.inDirectory r f).activeBuild = s.activeBuild := by
  have hloaded : (s.inDirectory r f).loaded = s.loaded := by
    rw [Disk.loaded, Disk.inDirectory_record]
    rfl
  have hbuild : (s.inDirectory r f).activeBuild = s.activeBuild := by
    rw [Disk.activeBuild, Disk.inDirectory_active, Disk.activeBuild, h.active]
    cases hD : s.releases r with
    | none => simp [Disk.inDirectory, hD]
    | some D =>
      rw [Disk.inDirectory_of_some hD]
      by_cases hr : a = r
      · simp [Disk.buildOf, hr, hD, Directory.build, hf.manifest]
      · simp [s.buildOf_setDirectory_of_ne _ hr]
  refine ⟨⟨by rw [Disk.inDirectory_active]; exact h.active, ?_, ?_⟩, hloaded, hbuild⟩
  · rw [Disk.state, hloaded]
    exact h.settled
  · rw [hloaded, hbuild]
    exact h.refused

/-- `LauncherValidator.prepare` of the active release. -/
theorem launcherPrepare_refuses (hs : Refused a latest s) :
    Refuses world a latest (launcherPrepare c a) (fun m new => new.loaded = s.loaded ∧
      new.activeBuild = s.activeBuild ∧ s.activeBuild = some m.buildId) past s := by
  have hheap : LauncherRewrite fun D => { D with heap := some (c.pzXms, c.pzXmx) } :=
    ⟨fun _ => rfl, fun _ => id⟩
  have hwrapper : LauncherRewrite fun D => { D with wrapper := true } :=
    ⟨fun _ => rfl, fun _ => id⟩
  have hvalid : LauncherRewrite fun D => { D with wrapper := true, validated := true } :=
    ⟨fun _ => rfl, fun _ _ => rfl⟩
  have hinspect : Refuses world a latest (ask (.inspectLauncher a c.pzXms c.pzXmx)) _ past s :=
    read_refuses trivial hs
  refine hinspect.seq fun m past' s' hm _ => ?_
  obtain ⟨rfl, ⟨D, hD, hmanifest⟩, -⟩ := hm
  have hbuild : s'.activeBuild = some m.buildId := by
    simp [Disk.activeBuild, Disk.buildOf, Directory.build, hs.active, hD, hmanifest]
  obtain ⟨h₁, hloaded₁, hbuild₁⟩ := hs.inDirectory (r := a) hheap
  refine .seq (P := fun _ new => new.loaded = s'.loaded ∧ new.activeBuild = s'.activeBuild)
    (World.ensures_ask fun choice hc => ?_) fun _ past₁ s₁ hs₁ hrefused₁ => ?_
  · cases choice with
    | ok => exact ⟨⟨id, h₁⟩, ⟨hloaded₁, hbuild₁⟩, h₁⟩
    | failedBefore => exact ⟨⟨id, hs⟩, hs⟩
    | failedAfter => exact ⟨⟨id, h₁⟩, h₁⟩
  · refine .seq (P := fun _ new => new.loaded = s'.loaded ∧ new.activeBuild = s'.activeBuild)
      (World.ensures_ask fun choice hc => ?_) fun _ past₂ s₂ hs₂ hrefused₂ =>
        refuses_pure hrefused₂ ⟨hs₂.1, hs₂.2, hbuild⟩
    obtain ⟨h₂, hloaded₂, hbuild₂⟩ := hrefused₁.inDirectory (r := a) hvalid
    obtain ⟨h₃, -, -⟩ := hrefused₁.inDirectory (r := a) hwrapper
    cases choice with
    | ok => exact ⟨⟨id, h₂⟩, ⟨hloaded₂.trans hs₁.1, hbuild₂.trans hs₁.2⟩, h₂⟩
    | failedBefore => exact ⟨⟨id, hrefused₁⟩, hrefused₁⟩
    | failedAfter => exact ⟨⟨id, h₃⟩, h₃⟩

/-- Records that block the same build, and any settled record while `a` is new enough. -/
theorem Refused.record {r : Record} (hs : Refused a latest s) (hr : r.state.Settled)
    (hblocked : r.blockedBuild = s.loaded.blockedBuild ∨ ∃ b ∈ s.activeBuild, latest ≤ b) :
    Refused a latest { s with record := some r } where
  active := hs.active
  settled := hr
  refused := by
    rcases hblocked with hblocked | hle
    · rcases hs.refused with h | h
      · exact .inl (hblocked.trans h)
      · exact .inr h
    · exact .inr hle

/-- No transaction is open, so there is nothing to recover. -/
theorem afterFailedUpdate_refuses {active : Option Release} {error : Err}
    (hs : Refused a latest s) :
    Refuses world a latest (afterFailedUpdate active error) (fun _ _ => True) past s := by
  have hload : Refuses world a latest (ask .loadState) _ past s := read_refuses trivial hs
  refine hload.seq fun failed past₁ s₁ h₁ hs₁ => ?_
  obtain ⟨rfl, hfailed, -⟩ := h₁
  obtain rfl : failed = s₁.loaded := hfailed
  have hselected : Refuses world a latest (ask .readActive) _ past₁ s₁ := read_refuses trivial hs₁
  refine hselected.seq fun selected past₂ s₂ h₂ hs₂ => ?_
  obtain ⟨rfl, -⟩ := h₂
  have hstate : ¬ (s₂.loaded.state = .downloadingCandidate ∨
      s₂.loaded.state = .promotingCandidate) := by
    have hsettled := hs.settled
    rintro (h | h)
    · rw [Disk.state, h] at hsettled
      exact hsettled
    · rw [Disk.state, h] at hsettled
      exact hsettled
  dsimp only
  rw [if_neg hstate]
  refine .seq (P := fun _ new => new = s₂) (refuses_pure hs rfl) fun r past₃ s₃ h₃ hs₃ => ?_
  split
  · exact refuses_pure hs₃ trivial
  · exact refuses_throw hs₃

/-! ### While Steam reports the rejected build -/

/-- Steam reports build `latest`, or fails with something that is not an `UpdateError`. -/
def reportsOnly (latest : ℕ) : (s : Disk) → (q : Request) → Choice q → Bool
  | _, .latestBuild _, .ok b => b = latest
  | _, .latestBuild _, .error e => !e.isUpdateError
  | _, _, _ => true

/-- The surroundings in which it does. -/
def reporting (latest : ℕ) : World Request Reply Disk := world.restrict (reportsOnly latest)

section Reporting

variable {state : Record} {current : Option SteamBuildMetadata} {m : SteamBuildMetadata}

theorem writeState_reporting {r : Record} (hs : Refused a latest s) (hr : r.state.Settled)
    (hblocked : r.blockedBuild = s.loaded.blockedBuild ∨ ∃ b ∈ s.activeBuild, latest ≤ b) :
    Refuses (reporting latest) a latest (writeState r) (fun _ _ => True) past s :=
  World.Ensures.restrict (writeState_refuses hs (hs.record hr hblocked)) _

theorem writeObservation_refuses {result : LastResult} (hs : Refused a latest s)
    (hblocked : state.blockedBuild = s.loaded.blockedBuild) :
    Refuses (reporting latest) a latest (writeObservation c state current result)
      (fun _ _ => True) past s := by
  refine read_refuses_bind trivial hs fun now _ _ => ?_
  refine writeState_reporting hs ?_ (.inl hblocked)
  cases current <;> trivial

theorem recordPreWorldFailure_refuses {candidate : Option ℕ} {result : LastResult}
    {detail : String} (hs : Refused a latest s) (hle : ∃ b ∈ s.activeBuild, latest ≤ b) :
    Refuses (reporting latest) a latest
      (recordPreWorldFailure state current candidate result detail false) (fun _ _ => True)
      past s := by
  refine read_refuses_bind trivial hs fun _ _ _ => read_refuses_bind trivial hs fun _ _ _ => ?_
  exact writeState_reporting hs trivial (.inr hle)

theorem queryLatest_refuses (hs : Refused a latest s) :
    Refuses (reporting latest) a latest (queryLatest c current state)
      (fun b new => b = latest ∧ new = s) past s := by
  have hask : (reporting latest).Ensures (KeepsOut a latest) (ask (.latestBuild c.steamBranch))
      (fun b _ new => b = latest ∧ new = s) (fun e _ new => e.isUpdateError = false ∧ new = s)
      past s := by
    refine World.ensures_ask fun choice hc => ⟨⟨id, hs⟩, ?_⟩
    have hboth : (world.allowed s (.latestBuild c.steamBranch) choice &&
        reportsOnly latest s (.latestBuild c.steamBranch) choice) = true := hc
    have hreports := ((Bool.and_eq_true _ _).mp hboth).2
    cases choice with
    | ok b => exact ⟨by simpa [reportsOnly] using hreports, rfl⟩
    | error e => exact ⟨by simpa [reportsOnly] using hreports, rfl⟩
  refine hask.handle (fun b _ new _ hb => ⟨hb, hb.2 ▸ hs⟩) fun e _ new _ he => ?_
  rw [if_neg (by simp [he.1])]
  exact refuses_throw (he.2 ▸ hs)

/-- **The rejected build is refused**: it is the active build, older, or blocked. -/
theorem checkAndUpdate_refuses {active : Option Release} (hs : Refused a latest s)
    (hbuild : s.activeBuild = some m.buildId)
    (hblocked : state.blockedBuild = s.loaded.blockedBuild) :
    Refuses (reporting latest) a latest (checkAndUpdate c active (some m) state false false)
      (fun _ _ => True) past s := by
  have hactive : ∀ b ∈ s.activeBuild, b = m.buildId := fun b hb => by
    simpa [hbuild] using hb.symm
  refine Refuses.seq (queryLatest_refuses hs) fun b past' s' hb hs' => ?_
  obtain ⟨rfl, rfl⟩ := hb
  dsimp only
  split
  · rename_i hcurrent
    have hle : ∃ b' ∈ s'.activeBuild, b ≤ b' := by
      refine ⟨b, ?_, Nat.le_refl b⟩
      rw [hbuild]
      exact hcurrent.1
    refine read_refuses_bind trivial hs fun _ _ _ => read_refuses_bind trivial hs fun _ _ _ => ?_
    exact writeState_reporting hs trivial (.inr hle)
  · rename_i hcurrent
    split
    · rename_i hdowngrade
      have hlt : b < m.buildId := by simpa using hdowngrade
      refine Refuses.seq (recordPreWorldFailure_refuses hs ⟨m.buildId, hbuild, Nat.le_of_lt hlt⟩)
        fun _ _ _ _ hnew => refuses_throw hnew
    · rename_i hdowngrade
      have hlt : ¬ b < m.buildId := by simpa using hdowngrade
      have hne : m.buildId ≠ b := fun he => hcurrent ⟨by simp [he], rfl⟩
      have hrefused : state.blockedBuild = some b := by
        rcases hs.refused with h | ⟨b', hb', hle⟩
        · exact hblocked.trans h
        · obtain rfl := hactive b' hb'
          exact absurd (Nat.lt_of_le_of_ne hle (Ne.symm hne)) hlt
      rw [if_pos ⟨rfl, hrefused, rfl⟩]
      exact refuses_throw hs

theorem applyPolicy_refuses (hs : Refused a latest s) (hbuild : s.activeBuild = some m.buildId)
    (hblocked : state.blockedBuild = s.loaded.blockedBuild) :
    Refuses (reporting latest) a latest (applyPolicy c (some a) (some m) state)
      (fun _ _ => True) past s := by
  rw [applyPolicy]
  split
  · split
    · exact refuses_pure hs trivial
    · exact writeObservation_refuses hs hblocked
  · split
    · exact writeObservation_refuses hs hblocked
    · refine World.Ensures.handle (checkAndUpdate_refuses hs hbuild hblocked)
        (fun _ _ _ _ h => h) fun e _ s' _ hs' => ?_
      split
      · exact (afterFailedUpdate_refuses hs').restrict _
      · exact refuses_throw hs'

theorem prepareSettled_refuses (hs : Refused a latest s) :
    Refuses (reporting latest) a latest (prepareSettled c) (fun _ _ => True) past s := by
  rw [prepareSettled]
  refine read_refuses_bind trivial hs fun _ _ _ => ?_
  refine read_refuses_bind trivial hs fun ensured _ h₁ => ?_
  refine read_refuses_bind trivial hs fun state _ h₂ => ?_
  refine read_refuses_bind trivial hs fun reread _ h₃ => ?_
  obtain rfl : ensured = s.active := h₁.1
  obtain rfl : state = s.loaded := h₂.1
  obtain rfl : reread = s.active := h₃.1
  rw [hs.active]
  refine Refuses.seq (P := fun current new => ∃ m, current = some m ∧ new.loaded = s.loaded ∧
    new.activeBuild = some m.buildId) ?_ fun current _ new hnew hs' => ?_
  · refine Refuses.seq ((launcherPrepare_refuses hs).restrict _) fun m _ new hnew hs' => ?_
    exact refuses_pure hs' ⟨m, rfl, hnew.1, hnew.2.1.trans hnew.2.2⟩
  · obtain ⟨m, rfl, hloaded, hbuild⟩ := hnew
    exact applyPolicy_refuses hs' hbuild (by rw [hloaded])

theorem prepareStart_refuses (hs : Refused a latest s) :
    Refuses (reporting latest) a latest (prepareStart c) (fun _ _ => True) past s := by
  have hstate : s.loaded.state.Settled := hs.settled
  have hrecover : recoverInterrupted s.loaded = pure s.loaded := by
    rw [recoverInterrupted, if_pos, recoverActivation, if_pos]
    · exact fun h => by rw [h] at hstate; exact hstate
    · exact ⟨fun h => by rw [h] at hstate; exact hstate, fun h => by rw [h] at hstate; exact hstate⟩
  rw [prepareStart]
  refine read_refuses_bind trivial hs fun _ _ _ => read_refuses_bind trivial hs fun state _ h₁ => ?_
  obtain rfl : state = s.loaded := h₁.1
  rw [hrecover, pure_bind]
  refine read_refuses_bind trivial hs fun active _ h₂ => ?_
  obtain rfl : active = s.active := h₂.1
  rw [if_neg fun hmem => ?_]
  · refine read_refuses_bind trivial hs fun marker _ _ => ?_
    split
    · rw [hs.active]
      refine read_refuses_bind trivial hs fun metadata _ _ => ?_
      exact writeObservation_refuses hs rfl
    · exact prepareSettled_refuses hs
  · cases hn : s.loaded.state <;> simp_all [StateName.Settled]

/-- A settled state is none of the waiting ones. -/
theorem Refused.not_waiting (hs : Refused a latest s) {states : List StateName}
    (hstates : ∀ n ∈ states, ¬ n.Settled) : s.loaded.state ∉ states :=
  fun hmem => hstates _ hmem hs.settled

/-- Every operation but an explicit update keeps the build out. -/
theorem body_refuses {op : Operation} (hop : ∀ c validate, op ≠ .explicitUpdate c validate)
    (hs : Refused a latest s) :
    Refuses (reporting latest) a latest op.body (fun _ _ => True) past s := by
  cases op with
  | prepareStart c => exact prepareStart_refuses hs
  | explicitUpdate c validate => exact absurd rfl (hop c validate)
  | markWorldOpened =>
    refine read_refuses_bind trivial hs fun _ _ _ => ?_
    refine read_refuses_bind trivial hs fun state _ h => ?_
    obtain rfl : state = s.loaded := h.1
    rw [if_pos (hs.not_waiting (by simp [StateName.Settled]))]
    exact refuses_pure hs trivial
  | markRuntimeReady c version revision =>
    refine read_refuses_bind trivial hs fun _ _ _ => ?_
    refine read_refuses_bind trivial hs fun state _ h => ?_
    obtain rfl : state = s.loaded := h.1
    split
    · rename_i hcurrent
      refine read_refuses_bind trivial hs fun _ _ _ => read_refuses_bind trivial hs fun _ _ _ => ?_
      exact Refuses.seq (writeState_reporting hs hs.settled (.inl rfl))
        fun _ _ _ _ hnew => refuses_pure hnew trivial
    · rw [if_pos (hs.not_waiting (by simp [StateName.Settled]))]
      exact refuses_pure hs trivial
  | accept =>
    refine read_refuses_bind trivial hs fun _ _ _ => ?_
    refine read_refuses_bind trivial hs fun state _ h => ?_
    obtain rfl : state = s.loaded := h.1
    rw [if_pos fun hready => ?_]
    · exact refuses_pure hs trivial
    · have hsettled := hs.settled
      rw [Disk.state, hready] at hsettled
      exact hsettled
  | failReadiness detail =>
    refine read_refuses_bind trivial hs fun _ _ _ => ?_
    refine read_refuses_bind trivial hs fun state _ h => ?_
    obtain rfl : state = s.loaded := h.1
    rw [if_pos (hs.not_waiting (by simp [StateName.Settled]))]
    exact refuses_pure hs trivial

end Reporting

/-! ### The start that rejects the build -/

/-- The build was rejected while `a` was active. -/
def Rejected (a : Release) (latest : ℕ) (past : List UpdaterMove) : Prop :=
  ∃ m ∈ past, RejectsBuild latest m ∧ m.before.active = some a

theorem not_rejected_nil : ¬ Rejected a latest [] := fun ⟨_, hm, _⟩ => nomatch hm

/-- Once the build was rejected, it stays out and nothing is installed. -/
def Watched (a : Release) (latest : ℕ) (past : List UpdaterMove) (m : UpdaterMove) : Prop :=
  (Rejected a latest past → ¬ m.request.Installs) ∧
    (Rejected a latest (m :: past) → Refused a latest m.after)

/-- The same of the disk a program ends on. -/
def Follows (a : Release) (latest : ℕ) (past : List UpdaterMove) (s : Disk) : Prop :=
  Rejected a latest past → Refused a latest s

/-- A program that can reject the build only where it raises. -/
abbrev Watches (a : Release) (latest : ℕ) (p : UpdaterM α) (past : List UpdaterMove) (s : Disk) :
    Prop :=
  world.Ensures (Watched a latest) p (fun _ past' _ => ¬ Rejected a latest past')
    (fun _ => Follows a latest) past s

/-- A program that can end in any way after the rejection. -/
abbrev WatchesAll (a : Release) (latest : ℕ) (p : UpdaterM α) (past : List UpdaterMove)
    (s : Disk) : Prop :=
  world.Ensures (Watched a latest) p (fun _ => Follows a latest) (fun _ => Follows a latest) past s

theorem Watches.all {p : UpdaterM α} (h : Watches a latest p past s) :
    WatchesAll a latest p past s :=
  h.mono (fun _ _ _ hnot hr => absurd hr hnot) fun _ _ _ he => he

/-- No record rejects a build. -/
def Unrejecting : Request → Prop
  | .writeState r => ¬ r.Rejects
  | _ => True

theorem Ordinary.unrejecting {q : Request} (h : Ordinary c q) : Unrejecting q := by
  cases q with
  | writeState => exact h
  | _ => trivial

/-- Without such a record, the build is not rejected. -/
theorem uses_unrejected {p : UpdaterM α} (h : Uses Unrejecting p)
    (hpast : ¬ Rejected a latest past) :
    world.Ensures (Watched a latest) p (fun _ past' _ => ¬ Rejected a latest past')
      (fun _ past' _ => ¬ Rejected a latest past') past s := by
  refine h.preserves (K := fun past _ => ¬ Rejected a latest past) ?_ hpast
  intro past s q choice _ hq hs
  have hnext : ¬ Rejected a latest (world.move s q choice :: past) := by
    rintro ⟨m, hm, hrejects, hactive⟩
    rcases List.mem_cons.mp hm with rfl | hm
    · obtain ⟨r, hr, hrejects, -⟩ := hrejects
      obtain rfl : q = .writeState r := hr
      exact hq hrejects
    · exact hs ⟨m, hm, hrejects, hactive⟩
  exact ⟨⟨fun h => absurd h hs, fun h => absurd h hnext⟩, hnext⟩

theorem ordinary_unrejecting {p : UpdaterM α} (h : Uses (Ordinary c) p) : Uses Unrejecting p :=
  h.mono fun _ => Ordinary.unrejecting

theorem uses_watched {p : UpdaterM α} (h : Uses Unrejecting p)
    (hpast : ¬ Rejected a latest past) : Watches a latest p past s :=
  (uses_unrejected h hpast).mono (fun _ _ _ h => h) fun _ _ _ h hr => absurd hr h

theorem ordinary_watched {p : UpdaterM α} (h : Uses (Ordinary c) p)
    (hpast : ¬ Rejected a latest past) : Watches a latest p past s :=
  uses_watched (ordinary_unrejecting h) hpast

theorem Watches.seq {p : UpdaterM β} {f : β → UpdaterM α} (h : Watches a latest p past s)
    (hf : ∀ v past' s', ¬ Rejected a latest past' → Watches a latest (f v) past' s') :
    Watches a latest (p >>= f) past s :=
  World.Ensures.seq h (fun v past' s' _ hv => hf v past' s' hv) fun _ _ _ _ he => he

section Start

variable {active : Option Release} {current : Option SteamBuildMetadata} {state : Record}
  {validate : Bool} {b : ℕ} {candidate : Release}

/-- The record that rejects a build blocks it. -/
theorem writeState_watched {r : Record} (hblocks : r.Rejects → r.blockedBuild = r.candidateBuild)
    (hpast : ¬ Rejected a latest past) :
    WatchesAll a latest (ask (.writeState r)) past s := by
  refine World.ensures_ask fun choice hc => ?_
  have heffect : Effect s (answer s (.writeState r) choice).2 (.writeState r)
      (answer s (.writeState r) choice).1 := effect_answer hc
  have hnew : Rejected a latest (world.move s (.writeState r) choice :: past) →
      Refused a latest (answer s (.writeState r) choice).2 := by
    rintro ⟨m, hm, hrejects, hactive⟩
    rcases List.mem_cons.mp hm with rfl | hm
    · obtain ⟨r', hr', hrejects, hbuild, hrecord⟩ := hrejects
      obtain rfl : r = r' := by simpa using hr'
      have hloaded : (answer s (.writeState r) choice).2.loaded = r := by
        rw [Disk.loaded, show (answer s (.writeState r) choice).2.record = some r from hrecord]
        rfl
      refine ⟨?_, ?_, .inl ?_⟩
      · exact (heffect.active_eq (by simp)).trans hactive
      · rw [Disk.state, hloaded, hrejects.1]
        trivial
      · rw [hloaded, hblocks hrejects, hbuild]
    · exact absurd ⟨m, hm, hrejects, hactive⟩ hpast
  refine ⟨⟨fun h => absurd h hpast, hnew⟩, ?_⟩
  cases choice with
  | ok => exact hnew
  | failedBefore => exact hnew
  | failedAfter => exact hnew

/-- The rejection itself, at the end of a failed validation. -/
theorem validateCandidate_watched (hpast : ¬ Rejected a latest past) :
    Watches a latest (validateCandidate c candidate current b state) past s := by
  have hbody : Uses (Ordinary c) (do
      let metadata ← launcherPrepare c candidate
      if metadata.buildId ≠ b then
        throw (.incompatible
          s!"Candidate manifest build {metadata.buildId} does not match expected {b}")) := by
    refine World.Only.bind launcherPrepare_uses fun metadata => ?_
    split
    · exact throw_uses
    · exact pure_uses
  refine World.Ensures.handle (uses_unrejected (ordinary_unrejecting hbody) hpast)
    (fun _ _ _ _ h => h) fun e past' s' _ hpast' => ?_
  refine Watches.seq (ordinary_watched (c := c) rmtreeIgnoringErrors_uses hpast')
    fun _ past₁ s₁ hpast₁ => ?_
  cases e with
  | incompatible text =>
    have hclock : ∀ {past s}, ¬ Rejected a latest past → Watches a latest (ask .utcNow) past s :=
      fun hpast => uses_watched (ask_uses trivial) hpast
    refine .bind (World.Ensures.bind ((hclock hpast₁).mono ?_ fun _ _ _ h => h))
    intro checkedAt past₂ s₂ hpast₂
    refine World.Ensures.bind ((hclock hpast₂).mono ?_ fun _ _ _ h => h)
    intro now past₃ s₃ hpast₃
    refine .bind ((writeState_watched (fun _ => rfl) hpast₃).mono (fun _ past₄ s₄ h => ?_)
      fun _ _ _ h => h)
    exact World.ensures_pure (World.ensures_throw h)
  | _ => exact ordinary_watched (c := c) (recordAndReraise_uses nofun) hpast₁

theorem stageAndActivate_watched (hpast : ¬ Rejected a latest past) :
    Watches a latest (stageAndActivate c active current b state validate) past s := by
  refine (ordinary_watched (c := c) checkPreconditions_uses hpast).seq fun _ _ _ hpast => ?_
  refine Watches.seq (ordinary_watched (c := c) beginDownload_uses hpast)
    fun candidate _ _ hpast => ?_
  refine Watches.seq (ordinary_watched (c := c) download_uses hpast) fun _ _ _ hpast => ?_
  refine Watches.seq (validateCandidate_watched hpast) fun _ _ _ hpast => ?_
  refine Watches.seq (ordinary_watched (c := c) backUp_uses hpast) fun path _ _ hpast => ?_
  refine Watches.seq (ordinary_watched (c := c) promoteCandidate_uses hpast) fun v _ _ hpast => ?_
  exact ordinary_watched (c := c) activate_uses hpast

theorem checkAndUpdate_watched {allowBlocked : Bool} (hpast : ¬ Rejected a latest past) :
    Watches a latest (checkAndUpdate c active current state validate allowBlocked) past s := by
  refine Watches.seq (ordinary_watched (c := c) queryLatest_uses hpast) fun b _ _ hpast => ?_
  dsimp only
  split
  · exact ordinary_watched (c := c) recordNoUpdate_uses hpast
  · split
    · exact ordinary_watched (c := c) (World.Only.bind (recordPreWorldFailure_uses nofun)
        fun _ => throw_uses) hpast
    · split
      · exact uses_watched throw_uses hpast
      · exact stageAndActivate_watched hpast

/-- After the rejection only the record and the pointer are read. -/
theorem afterFailedUpdate_watched {error : Err} (h : Follows a latest past s) :
    WatchesAll a latest (afterFailedUpdate active error) past s := by
  by_cases hrejected : Rejected a latest past
  · refine World.Ensures.weaken ?_ fun past m (hm : KeepsOut a latest past m) =>
      ⟨fun _ => hm.1, fun _ => hm.2⟩
    exact (afterFailedUpdate_refuses (h hrejected)).mono (fun _ _ _ hnew _ => hnew.2)
      fun _ _ _ hnew _ => hnew
  · exact (ordinary_watched (c := .default) afterFailedUpdate_uses hrejected).all

theorem applyPolicy_watched (hpast : ¬ Rejected a latest past) :
    WatchesAll a latest (applyPolicy c active current state) past s := by
  have hobserve : ∀ result, WatchesAll a latest (writeObservation c state current result) past s :=
    fun _ => (ordinary_watched (c := c) (uses_ordinary writeObservation_uses) hpast).all
  rw [applyPolicy]
  split
  · split
    · exact (uses_watched pure_uses hpast).all
    · exact hobserve _
  · split
    · exact hobserve _
    · refine World.Ensures.handle (checkAndUpdate_watched hpast)
        (fun _ _ _ _ hnot hr => absurd hr hnot) fun e past' s' _ hfailed => ?_
      split
      · exact afterFailedUpdate_watched hfailed
      · exact World.ensures_throw hfailed

theorem Watches.seq_all {p : UpdaterM β} {f : β → UpdaterM α} (h : Watches a latest p past s)
    (hf : ∀ v past' s', ¬ Rejected a latest past' → WatchesAll a latest (f v) past' s') :
    WatchesAll a latest (p >>= f) past s :=
  World.Ensures.seq h (fun v past' s' _ hv => hf v past' s' hv) fun _ _ _ _ he => he

theorem ask_watched_bind {q : Request} {f : Value q → UpdaterM α} (hq : Unrejecting q)
    (hpast : ¬ Rejected a latest past)
    (hf : ∀ v past' s', ¬ Rejected a latest past' → WatchesAll a latest (f v) past' s') :
    WatchesAll a latest (ask q >>= f) past s :=
  Watches.seq_all (uses_watched (ask_uses hq) hpast) hf

/-- **A start that rejects a build** leaves it refused, wherever it is killed after that. -/
theorem prepareStart_watched (hpast : ¬ Rejected a latest past) :
    WatchesAll a latest (prepareStart c) past s := by
  rw [prepareStart]
  have hlauncher : ∀ {r : Release} {past s}, ¬ Rejected a latest past →
      Watches a latest (launcherPrepare c r) past s :=
    fun hpast => ordinary_watched (c := c) launcherPrepare_uses hpast
  refine ask_watched_bind trivial hpast fun _ _ _ hpast => ?_
  refine ask_watched_bind trivial hpast fun state _ _ hpast => ?_
  refine Watches.seq_all
    (ordinary_watched (c := c) (uses_ordinary recoverInterrupted_uses) hpast)
    fun state _ _ hpast => ?_
  refine ask_watched_bind trivial hpast fun active _ _ hpast => ?_
  split
  · cases active with
    | none => exact (uses_watched throw_uses hpast).all
    | some release =>
      exact (hlauncher hpast).seq_all fun _ _ _ hpast => (uses_watched pure_uses hpast).all
  · refine ask_watched_bind trivial hpast fun marker _ _ hpast => ?_
    split
    · cases active with
      | none => exact (uses_watched throw_uses hpast).all
      | some release =>
        refine ask_watched_bind trivial hpast fun metadata _ _ hpast => ?_
        exact (ordinary_watched (c := c) (uses_ordinary writeObservation_uses) hpast).all
    · refine ask_watched_bind trivial hpast fun _ _ _ hpast => ?_
      refine ask_watched_bind trivial hpast fun ensured _ _ hpast => ?_
      refine ask_watched_bind trivial hpast fun state _ _ hpast => ?_
      refine ask_watched_bind trivial hpast fun reread _ _ hpast => ?_
      refine Watches.seq_all (p := prepareActive c (reread <|> ensured)) ?_
        fun current _ _ hpast => applyPolicy_watched hpast
      cases reread <|> ensured with
      | none => exact uses_watched pure_uses hpast
      | some release =>
        exact (hlauncher hpast).seq fun _ _ _ hpast => uses_watched pure_uses hpast

end Start

/-! ### Whole runs -/

/-- Where the move asks Steam for the latest build, the answer is `latest`, if there is one. -/
def answered (latest : ℕ) : UpdaterMove → Bool
  | ⟨.latestBuild _, .ok b, _, _⟩ => b = latest
  | _ => true

/-- Where the move asks Steam for the latest build, it is told `latest`, or a failure that is not an
`UpdateError`. -/
def steady (latest : ℕ) : UpdaterMove → Bool
  | ⟨.latestBuild _, .ok b, _, _⟩ => b = latest
  | ⟨.latestBuild _, .error e, _, _⟩ => !e.isUpdateError
  | _ => true

/-- A step that belongs to no explicit update, with a steady answer from Steam. -/
structure Faithful (latest : ℕ) (e : UpdaterEntry) : Prop where
  op : ∀ c validate, e.op ≠ .explicitUpdate c validate
  steady : steady latest e.move = true

theorem reportsOnly_of_steady {q : Request} {choice : Choice q}
    (h : steady latest (world.move s q choice) = true) : reportsOnly latest s q choice = true := by
  cases q with
  | latestBuild branch =>
    cases choice with
    | ok b => exact h
    | error e => exact h
  | _ => rfl

/-- Operations that find the build refused leave it refused, and install nothing. -/
theorem History.refuses {h : List UpdaterEntry} {mid d : Disk} (hmid : Refused a latest mid)
    (hh : History world (fun o : Operation => o.body.run) (· = mid) h d)
    (hfaithful : ∀ e ∈ h, Faithful latest e) :
    Refused a latest d ∧ ∀ e ∈ h, ¬ e.move.request.Installs := by
  induction hh with
  | start hs =>
    obtain rfl := hs
    exact ⟨hmid, fun e he => absurd he List.not_mem_nil⟩
  | @run o h s s' p past hh he ih =>
    obtain ⟨hs, hbefore⟩ := ih fun e he => hfaithful e (List.mem_append_right _ he)
    cases past with
    | nil => exact ⟨he.eq_of_past ▸ hs, hbefore⟩
    | cons m rest =>
      have hop := (hfaithful ⟨o, s, rest, m⟩ List.mem_cons_self).op
      have hreporting : (reporting latest).Exec o.body.run [] s p (m :: rest) s' := by
        refine he.restrict fun s₀ q choice hm => reportsOnly_of_steady ?_
        obtain ⟨e', he', hmove⟩ : ∃ e' ∈ entries o s (m :: rest),
            e'.move = world.move s₀ q choice := exists_mem_entries hm
        rw [← hmove]
        exact (hfaithful e' (List.mem_append_left _ he')).steady
      have hbody : Refuses (reporting latest) a latest o.body (fun _ _ => True) [] s :=
        body_refuses hop hs
      refine ⟨World.Guarantees.exec_after (K := fun _ s => Refused a latest s) (fun _ _ hm => hm.2)
        hbody hreporting hs, fun e he => ?_⟩
      rcases List.mem_append.mp he with he | he
      · obtain ⟨later, earlier, hsplit⟩ := List.append_of_mem (move_mem_of_mem_entries he)
        exact ((World.Guarantees.exec hbody hreporting).2 later _ earlier hsplit
          (List.nil_suffix)).1
      · exact hbefore e he

/-- **A rejected build stays rejected.** Once a `prepare_start` has recorded build `latest` as
incompatible while release `a` was active, and while no explicit update runs and Steam reports
`latest` or fails in a way that is not recorded, `a` stays active and nothing is installed. -/
theorem UpdaterHistory.rejected_stays {later earlier : List UpdaterEntry} {e : UpdaterEntry}
    {d : Disk} (hh : UpdaterHistory (later ++ e :: earlier) d) (hop : e.op = .prepareStart c)
    (hrejects : RejectsBuild latest e.move) (hactive : e.before.active = some a)
    (hlater : ∀ e' ∈ later, Faithful latest e') :
    d.active = some a ∧ ∀ e' ∈ later, ¬ e'.move.request.Installs := by
  obtain ⟨-, p, mid, after, within, -, hrun, hafter, rfl⟩ := hh.split
  obtain ⟨op, start, past, m⟩ := e
  obtain rfl : op = .prepareStart c := hop
  have hwatched : WatchesAll a latest (prepareStart c) [] start :=
    prepareStart_watched not_rejected_nil
  have hmid : Refused a latest mid := by
    refine World.Guarantees.exec_after (K := Follows a latest) (fun _ _ hm => hm.2) hwatched hrun
      (fun h => absurd h not_rejected_nil) ?_
    exact ⟨m, by simp, hrejects, hactive⟩
  obtain ⟨hd, hnone⟩ := History.refuses hmid hafter fun e' he' =>
    hlater e' (List.mem_append_left _ he')
  refine ⟨hd.active, fun e' he' => ?_⟩
  rcases List.mem_append.mp he' with he' | he'
  · exact hnone e' he'
  · obtain ⟨newer, older, rfl⟩ := List.append_of_mem he'
    have hmoves := (World.Guarantees.exec hwatched hrun).2 (newer.map Entry.move) e'.move
      (older.map Entry.move ++ m :: past) (by simp) List.nil_suffix
    exact hmoves.1 ⟨m, by simp, hrejects, hactive⟩

/-! ### A build that comes back -/

/-- Surroundings like `obliging`, in which the validation of a candidate finds it incompatible. -/
def rejecting (latest : ℕ) : world.Oracle := fun past d q => match q with
  | .inspectLauncher (.candidate ..) _ _ => .raised (.incompatible "unsupported launcher")
  | q => obliging latest past d q

/-- Surroundings like `obliging`, in which Steam cannot be asked. -/
def unreachable : world.Oracle := fun past d q => match q with
  | .latestBuild _ => .error (.update "Steam is unreachable")
  | q => obliging 0 past d q

/-- Build 5 is accepted, and a container start has just recorded that build 6 is rejected. -/
def Disk.rejecting : Disk :=
  (world.runFor (Updater.rejecting 6) 27 (prepareStart .default).run []
    (Disk.empty.accepting 5)).2.2

/-- The history that ends there, with the rejection as its newest entry. -/
theorem UpdaterHistory.rejecting : ∃ e earlier, UpdaterHistory (e :: earlier) Disk.rejecting ∧
    e.op = .prepareStart .default ∧ RejectsBuild 6 e.move ∧
    e.before.active = some (.steam 5 0 0) := by
  obtain ⟨h, hh⟩ := UpdaterHistory.accepting
  have hrun := hh.runFor (.prepareStart .default) (Updater.rejecting 6) 27 (by decide)
  have hmoved : (world.runFor (Updater.rejecting 6) 27 (Operation.prepareStart .default).body.run []
      (Disk.empty.accepting 5)).2.1 ≠ [] := List.ne_nil_of_length_pos (by decide)
  rw [entries_eq_cons _ _ hmoved] at hrun
  exact ⟨_, _, hrun, rfl, ⟨_, rfl, by decide, rfl, rfl⟩, rfl⟩

/-- The next start, which is offered build 6 again, refuses it. -/
theorem UpdaterHistory.rejected_stays_restart :
    (Disk.rejecting.afterObliging 6 40 (.prepareStart .default)).active = some (.steam 5 0 0) := by
  obtain ⟨e, earlier, hh, hop, hrejects, hactive⟩ := UpdaterHistory.rejecting
  have hnext := hh.runFor (.prepareStart .default) (obliging 6) 40 (by decide)
  refine (hnext.rejected_stays hop hrejects hactive fun e' he' => ⟨?_, ?_⟩).1
  · rw [op_of_mem_entries he']
    exact nofun
  · have hsteady : ∀ m ∈ (world.runFor (obliging 6) 40 (Operation.prepareStart .default).body.run []
        Disk.rejecting).2.1, steady 6 m = true := by decide
    exact hsteady _ (move_mem_of_mem_entries he')

/-- **A failed query brings the build back.** After the rejection, one start cannot reach Steam and
the next installs build 6, while every answer from Steam is build 6 and build 5 stays active. -/
theorem UpdaterHistory.rejected_returns :
    ∃ later e earlier d, UpdaterHistory (later ++ e :: earlier) d ∧
      e.op = .prepareStart .default ∧ RejectsBuild 6 e.move ∧
      e.before.active = some (.steam 5 0 0) ∧
      (∀ e' ∈ later, e'.op = .prepareStart .default) ∧
      (∀ e' ∈ later, answered 6 e'.move = true) ∧
      (∀ e' ∈ later, e'.after.active = some (.steam 5 0 0)) ∧
      ∃ e' ∈ later, e'.move.request.Installs := by
  obtain ⟨e, earlier, hh, hop, hrejects, hactive⟩ := UpdaterHistory.rejecting
  have hfailed := hh.runFor (.prepareStart .default) unreachable 40 (by decide)
  have hinstall := hfailed.runFor (.prepareStart .default) (obliging 6) 22 (by decide)
  rw [← List.append_assoc] at hinstall
  refine ⟨_, e, earlier, _, hinstall, hop, hrejects, hactive, fun e' he' => ?_, ?_, ?_, ?_⟩
  · rcases List.mem_append.mp he' with he' | he'
    · exact op_of_mem_entries he'
    · exact op_of_mem_entries he'
  · decide
  · decide
  · decide

end Updater

end PzServer
