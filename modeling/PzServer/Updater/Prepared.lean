import PzServer.Interaction.Returns
import PzServer.Updater.Footprint
import PzServer.Updater.Frame
import PzServer.Updater.Acceptance

/-!
# The release a container start leaves selected

The entrypoint launches the wrapper of the release that is active when `prepare_start` has
returned, and trusts that its heap is the configured one. Every way `prepare_start` can return is
followed: the active release is prepared at the beginning, its directory is not touched after that,
and a candidate that takes its place was prepared when it was validated.

One way does not prepare anything. While a repository deployment is pending, `prepare_start` only
reads the manifest of the active release, and whatever heap an earlier start configured stays.

## Main results

* `UpdaterHistory.prepared_iff` — when the release is prepared
* `UpdaterHistory.stale_heap` — a start during a deployment launches with the old heap
-/

namespace PzServer

namespace Updater

open Interaction

variable {α : Type} {c : UpdateConfiguration} {op : Operation} {start s : Disk}
  {past : List UpdaterMove} {a r f candidate : Release}

/-- The launcher files of `r` are those of the configuration. -/
def Carries (c : UpdateConfiguration) (r : Release) (d : Disk) : Prop :=
  ∃ D ∈ d.releases r, D.heap = some (c.pzXms, c.pzXmx) ∧ D.wrapper = true

/-- A release is active, and its launcher files are those of the configuration. -/
def Prepared (c : UpdateConfiguration) (d : Disk) : Prop := ∃ r ∈ d.active, Carries c r d

instance (c : UpdateConfiguration) (r : Release) (d : Disk) : Decidable (Carries c r d) :=
  inferInstanceAs (Decidable (∃ D ∈ d.releases r, _))

instance (c : UpdateConfiguration) (d : Disk) : Decidable (Prepared c d) :=
  inferInstanceAs (Decidable (∃ r ∈ d.active, _))

theorem Carries.congr {d new : Disk} (h : Carries c r d)
    (hr : new.releases r = d.releases r) : Carries c r new := by
  rw [Carries, hr]
  exact h

/-- Where a program returns. -/
abbrev Returns (p : UpdaterM α) (ok : α → List UpdaterMove → Disk → Prop)
    (past : List UpdaterMove) (s : Disk) : Prop :=
  world.Returns p ok past s

/-! ### The release that was active before -/

/-- Requests do not unprepare the active release. -/
theorem Carries.answer {q : Request} {choice : Choice q} (h : Carries c a s)
    (hc : allowed s q choice = true) (hs : Inv s) (hnew : Inv (answer s q choice).2)
    (ha : s.active = some a) (ha' : (answer s q choice).2.active = some a)
    (hq : Configured c q) : Carries c a (answer s q choice).2 := by
  obtain ⟨D, hD, hheap, hwrapper⟩ := h
  by_cases hlaunches : q.launches a
  · cases q with
    | writeLauncherJson r =>
      obtain rfl : r = a := hlaunches
      obtain ⟨rfl, rfl⟩ := hq
      cases choice <;> simp [Updater.answer, durably, Disk.inDirectory_of_some hD, Carries,
        hheap, hwrapper, Option.mem_def.mp hD]
    | replaceWrapper r =>
      obtain rfl : r = a := hlaunches
      cases choice <;> simp [Updater.answer, durably, Disk.inDirectory_of_some hD, Carries,
        hheap, hwrapper, Option.mem_def.mp hD]
    | _ => exact hlaunches.elim
  · exact Carries.congr ⟨D, hD, hheap, hwrapper⟩
      (answer_active_directory hc hs hnew ha ha' hlaunches)

/-- While `a` is active it is prepared. -/
structure Held (c : UpdateConfiguration) (a : Release) (d : Disk) : Prop where
  inv : Inv d
  carries : d.active = some a → Carries c a d

/-- Once the operation has selected another release, it does not come back to `a`. -/
theorem Held.move {q : Request} {choice : Choice q} (h : Held c a s)
    (hstart : start.active = some a) (hc : world.allowed s q choice = true)
    (hG : Permitted op start past (world.move s q choice)) (hq : Configured c q) :
    Held c a (answer s q choice).2 := by
  have hnew : Inv (answer s q choice).2 := hG.change.inv h.inv
  refine ⟨hnew, fun ha' => ?_⟩
  by_cases ha : s.active = some a
  · exact (h.carries ha).answer hc h.inv hnew ha ha' hq
  · have hmoved : (answer s q choice).2.active ≠ s.active := fun he => ha (he.symm.trans ha')
    obtain ⟨f, m, hselect, -⟩ := hG.change.selectable hmoved
    exact absurd (hselect.unmoved.1.trans hstart) ha

/-- Programs hold it too. -/
theorem Held.maintain {p : UpdaterM α} {ok : α → List UpdaterMove → Disk → Prop}
    {err : Err → List UpdaterMove → Disk → Prop} (h : Held c a s)
    (hstart : start.active = some a) (hp : Conforms op start p ok err past s)
    (huses : Uses (Configured c) p) :
    Conforms op start p (fun v past' new => ok v past' new ∧ Held c a new)
      (fun e past' new => err e past' new ∧ Held c a new) past s :=
  World.Ensures.maintain (K := fun _ new => Held c a new) hp huses
    (fun _ _ _ _ hc hG hq hs => hs.move hstart hc hG hq) h

/-! ### What recovery and records leave alone -/

/-- `a` is active, with the directory it had on `d`. -/
structure Untouched (d : Disk) (a : Release) (s : Disk) : Prop where
  inv : Inv s
  active : s.active = some a
  directory : s.releases a = d.releases a

theorem Untouched.carries {d : Disk} (h : Untouched d a s) : Carries c a s ↔ Carries c a d := by
  rw [Carries, Carries, h.directory]

theorem Untouched.move {d : Disk} {q : Request} {choice : Choice q} (h : Untouched d a s)
    (hc : world.allowed s q choice = true)
    (hG : Permitted op start past (world.move s q choice)) (hq : Recovering q) :
    Untouched d a (answer s q choice).2 := by
  have hnew : Inv (answer s q choice).2 := hG.change.inv h.inv
  have hactive : (answer s q choice).2.active = some a := by
    refine ((effect_answer hc).active_eq fun r hr => ?_).trans h.active
    rw [hr] at hq
    exact hq
  refine ⟨hnew, hactive, ?_⟩
  have hlaunches : ¬ q.launches a := fun hl => by cases q <;> first | exact hl | exact hq
  exact (answer_active_directory hc h.inv hnew h.active hactive hlaunches).trans h.directory

theorem Untouched.maintain {d : Disk} {p : UpdaterM α} {ok : α → List UpdaterMove → Disk → Prop}
    {err : Err → List UpdaterMove → Disk → Prop} (h : Untouched d a s)
    (hp : Conforms op start p ok err past s) (huses : Uses Recovering p) :
    Conforms op start p (fun v past' new => ok v past' new ∧ Untouched d a new)
      (fun e past' new => err e past' new ∧ Untouched d a new) past s :=
  World.Ensures.maintain (K := fun _ new => Untouched d a new) hp huses
    (fun _ _ _ _ hc hG hq hs => hs.move hc hG hq) h

/-! ### The candidate -/

/-- One request, where it returns. -/
theorem returns_ask {q : Request} :
    Returns (ask q) (fun v _ new => Effect s new q (.ok v)) past s := by
  refine World.ensures_ask fun choice hc => ⟨trivial, ?_⟩
  have heffect := effect_answer hc
  simp only [world]
  cases hr : (answer s q choice).1 with
  | ok v =>
    rw [hr] at heffect
    exact heffect
  | error e => trivial

theorem returns_ask_bind {q : Request} {p : Value q → UpdaterM α}
    {ok : α → List UpdaterMove → Disk → Prop}
    (hp : ∀ v past' new, Effect s new q (.ok v) → Returns (p v) ok past' new) :
    Returns (ask q >>= p) ok past s :=
  returns_ask.seq fun v past' new _ he => hp v past' new he

/-- A directory is as it was, once the record has been written. -/
theorem writeState_returns {value : Record} {P : Record → List UpdaterMove → Disk → Prop}
    (hP : ∀ past', P value past' { s with record := some value }) :
    Returns (writeState value) P past s :=
  returns_ask_bind fun _ _ _ he => World.returns_pure (he ▸ hP _)

theorem exceptOn_returns {catches : Err → Bool} {body : UpdaterM α} {handler : Err → UpdaterM α}
    {ok : α → List UpdaterMove → Disk → Prop} (h : Returns body ok past s)
    (hhandler : ∀ e, world.Raises (handler e)) :
    Returns (exceptOn catches body handler) ok past s := by
  refine World.returns_tryCatch h fun e past' s' => ?_
  split
  · exact (hhandler e).returns
  · exact World.returns_throw

theorem reraise_raises {e : Err} {text : String} : world.Raises (reraise e text : UpdaterM α) := by
  rw [reraise]
  split
  · exact World.raises_throw
  · exact World.raises_throw

theorem launcherPrepare_returns :
    Returns (launcherPrepare c r) (fun _ _ new => Carries c r new) past s := by
  refine returns_ask_bind fun metadata _ s' he => ?_
  obtain ⟨⟨D, hD, -⟩, rfl⟩ := he
  refine returns_ask_bind fun _ _ s₁ h₁ => returns_ask_bind fun _ _ s₂ h₂ => ?_
  obtain rfl := h₁
  obtain rfl := h₂
  rw [Disk.inDirectory_of_some hD, Disk.inDirectory_of_some (Disk.setDirectory_self _ _ _)]
  exact World.returns_pure ⟨_, Disk.setDirectory_self _ _ _, rfl, rfl⟩

section Transaction

variable {active : Option Release} {current : Option SteamBuildMetadata} {latest : ℕ}
  {state : Record} {validate : Bool}

theorem validateCandidate_returns :
    Returns (validateCandidate c candidate current latest state)
      (fun _ _ new => Carries c candidate new) past s := by
  refine World.returns_tryCatch ?_ fun e past' s' => World.Raises.returns ?_
  · refine launcherPrepare_returns.seq fun metadata _ _ _ h => ?_
    split
    · exact World.returns_throw
    · exact World.returns_pure h
  · refine World.Raises.bind fun _ => ?_
    cases e with
    | incompatible => exact World.Raises.bind fun _ => World.raises_throw
    | _ => exact World.Raises.bind fun _ => reraise_raises

theorem backUp_returns : Returns (backUp active candidate current latest state)
    (fun _ _ new => new = s) past s := by
  have hcreate : ∀ past', Returns (do
      let path ← createBackup candidate current latest state
      return some path) (fun _ _ new => new = s) past' s := by
    intro past'
    refine World.Returns.seq (P := fun _ _ new => new = s) ?_ fun _ _ _ _ h => World.returns_pure h
    refine World.returns_tryCatch returns_ask fun e _ _ => ?_
    exact (World.Raises.bind fun _ => World.Raises.bind fun _ => reraise_raises).returns
  rw [backUp]
  cases active with
  | some release => exact hcreate past
  | none =>
    refine returns_ask_bind fun needed past' new he => ?_
    obtain rfl := he
    cases needed with
    | true => exact hcreate past'
    | false => exact World.returns_pure rfl

/-- The rename carries the launcher files along. -/
theorem promoteCandidate_returns {backupPath : Option String} (h : Carries c candidate s) :
    Returns (promoteCandidate active candidate current latest state backupPath)
      (fun v _ new => Carries c v.1 new ∧ v.2.state = .activating ∧
        v.2.candidateRelease = some v.1) past s := by
  rw [promoteCandidate]
  refine returns_ask_bind fun final _ s₁ h₁ => returns_ask_bind fun now _ s₂ h₂ => ?_
  obtain ⟨-, rfl⟩ := h₁
  obtain rfl := h₂
  refine World.Returns.seq (writeState_returns (P := fun _ _ new => Carries c candidate new)
    fun _ => h.congr rfl) fun promoting _ s₃ _ h₃ => ?_
  refine World.Returns.seq (P := fun v _ new => Carries c final new ∧ v.state = .activating ∧
    v.candidateRelease = some final) (exceptOn_returns ?_ fun e => ?_)
    fun _ _ _ _ hv => World.returns_pure hv
  · refine returns_ask_bind fun _ _ s₄ h₄ => returns_ask_bind fun now' _ s₅ h₅ => ?_
    obtain ⟨D, hD, rfl⟩ := h₄
    obtain rfl := h₅
    refine writeState_returns fun _ => ⟨?_, rfl, rfl⟩
    obtain ⟨E, hE, hfiles⟩ := h₃
    obtain rfl : D = E := by simpa [hD] using hE
    exact ⟨D, Disk.setDirectory_self _ _ _, hfiles⟩
  · exact World.Raises.bind fun _ => World.Raises.bind fun _ => World.Raises.bind fun _ =>
      reraise_raises

end Transaction

/-! ### The switch -/

/-- The directories are those of `s`. -/
theorem switchPointers_keeps {active : Option Release} (past : List UpdaterMove) :
    world.Ensures (fun _ _ => True) (switchPointers active f)
      (fun _ _ new => new.releases = s.releases ∧ new.active = some f)
      (fun _ _ new => new.releases = s.releases) past s := by
  have hactive : ∀ past' s', s'.releases = s.releases →
      world.Ensures (fun _ _ => True) (ask (.writeActive f))
        (fun _ _ new => new.releases = s.releases ∧ new.active = some f)
        (fun _ _ new => new.releases = s.releases) past' s' := by
    intro past' s' hs'
    refine World.ensures_ask fun choice hc => ⟨trivial, ?_⟩
    cases choice with
    | ok => exact ⟨hs', rfl⟩
    | failedBefore => exact hs'
    | failedAfter => exact hs'
  have hprevious : world.Ensures (fun _ _ => True) (writePrevious active)
      (fun _ _ new => new.releases = s.releases) (fun _ _ new => new.releases = s.releases)
      past s := by
    cases active with
    | none =>
      refine World.ensures_ask fun choice hc => ⟨trivial, ?_⟩
      cases choice with
      | none => rfl
      | some => rfl
    | some a =>
      refine World.ensures_ask fun choice hc => ⟨trivial, ?_⟩
      cases choice with
      | ok => rfl
      | failedBefore => rfl
      | failedAfter => rfl
  exact hprevious.seq (fun _ past' s' _ hs' => hactive past' s' hs') fun _ _ _ _ h => h

/-- Recovery returns `pending-readiness` only when the candidate is the active release. -/
theorem recoverActivation_returns {activating : Record} (hstate : activating.state = .activating)
    (hcandidate : activating.candidateRelease = some f) :
    Returns (recoverActivation activating)
      (fun v _ new => v.state = .pendingReadiness →
        new.releases = s.releases ∧ new.active = some f) past s := by
  rw [recoverActivation, if_neg (not_not.mpr hstate)]
  refine returns_ask_bind fun active _ s' he => ?_
  obtain ⟨rfl, rfl⟩ := he
  split
  · rename_i hselected
    refine returns_ask_bind fun now _ s₁ h₁ => ?_
    obtain rfl := h₁
    exact writeState_returns fun _ _ => ⟨rfl, hselected.2.2.trans hcandidate⟩
  · split
    · refine World.returns_trivial.seq fun _ _ _ _ _ => returns_ask_bind fun now _ _ _ => ?_
      refine writeState_returns fun _ hpending => ?_
      cases hpending
    · exact returns_ask_bind fun never => never.elim

theorem activate_returns {active : Option Release} {latest : ℕ} {activating : Record}
    (h : Carries c f s) (hstate : activating.state = .activating)
    (hcandidate : activating.candidateRelease = some f) :
    Returns (activate active f latest activating) (fun _ _ new => Prepared c new) past s := by
  have hend : ∀ new : Disk, new.releases = s.releases ∧ new.active = some f → Prepared c new :=
    fun new hnew => ⟨f, hnew.2, h.congr (congrFun hnew.1 f)⟩
  refine World.Returns.seq (P := fun _ _ new => new.releases = s.releases ∧ new.active = some f)
    ?_ fun _ _ s' _ hs' => returns_ask_bind fun now _ s₁ h₁ => ?_
  · refine World.Ensures.handle (switchPointers_keeps past) (fun _ _ _ _ hs' => hs')
      fun e _ s' _ hs' => ?_
    split
    · refine (recoverActivation_returns hstate hcandidate).seq fun v _ _ _ hv => ?_
      split
      · exact World.returns_throw
      · rename_i hpending
        obtain ⟨hreleases, hactive⟩ := hv (not_not.mp hpending)
        exact World.returns_pure ⟨hreleases.trans hs', hactive⟩
    · exact World.returns_throw
  · obtain rfl := h₁
    exact writeState_returns fun _ => hend _ hs'

/-- **The end of an update.** A transaction that returns leaves its candidate prepared. -/
theorem stageAndActivate_returns {active : Option Release} {current : Option SteamBuildMetadata}
    {latest : ℕ} {state : Record} {validate : Bool} :
    Returns (stageAndActivate c active current latest state validate)
      (fun _ _ new => Prepared c new) past s := by
  refine World.returns_trivial.seq fun _ _ _ _ _ => ?_
  refine World.returns_trivial.seq fun candidate _ _ _ _ => ?_
  refine World.returns_trivial.seq fun _ _ _ _ _ => ?_
  refine validateCandidate_returns.seq fun _ _ _ _ h => ?_
  refine backUp_returns.seq fun backupPath _ s₁ _ h₁ => ?_
  obtain rfl := h₁
  refine (promoteCandidate_returns h).seq fun v _ _ _ hv => ?_
  exact activate_returns hv.1 hv.2.1 hv.2.2

/-! ### Every way to return -/

section Start

variable {active : Option Release} {current : Option SteamBuildMetadata} {state : Record}

/-- Whether the release is prepared does not depend on the record. -/
theorem prepared_congr {d new : Disk} (hactive : new.active = d.active)
    (hreleases : new.releases = d.releases) : Prepared c new ↔ Prepared c d := by
  simp only [Prepared, Carries, hactive, hreleases]

theorem writeObservation_returns {result : LastResult} :
    Returns (writeObservation c state current result)
      (fun _ _ new => Prepared c new ↔ Prepared c s) past s := by
  refine returns_ask_bind fun now _ s₁ h₁ => ?_
  obtain rfl := h₁
  exact writeState_returns fun _ => prepared_congr rfl rfl

theorem checkAndUpdate_returns {validate allowBlocked : Bool}
    (h : Quiet start active current state s) (hprepared : s.active.isSome → Prepared c s) :
    Returns (checkAndUpdate c active current state validate allowBlocked)
      (fun _ _ new => Prepared c new) past s := by
  refine World.Returns.seq (P := fun _ _ new => new = s)
    (exceptOn_returns returns_ask fun _ => World.Raises.bind fun _ => World.raises_throw)
    fun latest _ s' _ hs' => ?_
  · obtain rfl := hs'
    dsimp only
    split
    · rename_i hcurrent
      have hactive : s'.active.isSome := by
        rw [Option.isSome_iff_ne_none, ne_eq, ← h.inv.activeBuild_eq_none, h.build_eq, hcurrent.1]
        simp
      refine returns_ask_bind fun _ _ s₁ h₁ => returns_ask_bind fun _ _ s₂ h₂ => ?_
      obtain rfl := h₁
      obtain rfl := h₂
      exact writeState_returns fun _ => (prepared_congr rfl rfl).mpr (hprepared hactive)
    · split
      · exact (World.Raises.bind fun _ => World.raises_throw).returns
      · split
        · exact World.returns_throw
        · exact stageAndActivate_returns

/-- A failure is swallowed only while the release that was prepared is selected. -/
theorem afterFailedUpdate_returns {error : Err} (hs : Inv s)
    (hcarries : s.active = some a → Carries c a s) :
    Returns (afterFailedUpdate (some a) error) (fun _ _ new => Prepared c new) past s := by
  rw [afterFailedUpdate]
  refine returns_ask_bind fun failed _ s₁ h₁ => returns_ask_bind fun selected past' s₂ h₂ => ?_
  obtain ⟨rfl, rfl⟩ := h₁
  obtain ⟨rfl, rfl⟩ := h₂
  have hend : ∀ (failed : Record) past' new, (s₂.active = some a → Prepared c new) → Returns
      (if (some a).isSome = true ∧ s₂.active = some a ∧ failed.state ∉ [.activating,
          .pendingReadiness, .startingCandidate, .runtimeReady, .failedAfterWorldOpen] then
        (return failed : UpdaterM Record)
      else
        throw error) (fun _ _ new => Prepared c new) past' new := by
    intro failed past' new hnew
    split
    · rename_i hcond
      exact World.returns_pure (hnew hcond.2.1)
    · exact World.returns_throw
  -- recovery leaves the selected release as it is, whether it succeeds or raises
  have hrecover : Returns (exceptUpdate (recoverInterrupted s₂.loaded) fun _ => pure s₂.loaded)
      (fun _ _ new => s₂.active = some a → Prepared c new) past' s₂ := by
    by_cases ha : s₂.active = some a
    · have hprepared : ∀ new, Untouched s₂ a new → Prepared c new := fun new hnew =>
        ⟨a, hnew.active, hnew.carries.mpr (hcarries ha)⟩
      have hkeeps : Conforms .accept s₂ (recoverInterrupted s₂.loaded)
          (fun v _ new => Recovered s₂ v new ∧ Untouched s₂ a new)
          (fun e past new => Fails Inv e past new ∧ Untouched s₂ a new) past' s₂ :=
        Untouched.maintain ⟨hs, ha, rfl⟩ (recoverInterrupted_conforms hs) recoverInterrupted_uses
      refine World.Ensures.handle (hkeeps.weaken fun _ _ _ => trivial)
        (fun _ _ new _ hnew _ => hprepared new hnew.2) fun e _ new _ hnew => ?_
      split
      · exact World.returns_pure fun _ => hprepared new hnew.2
      · exact World.returns_throw
    · exact World.returns_trivial.mono fun _ _ _ _ h => absurd h ha
  dsimp only
  split
  · exact hrecover.seq fun failed _ new _ hnew => hend failed _ new hnew
  · exact hend _ _ _ fun ha => ⟨a, ha, hcarries ha⟩

theorem afterFailedUpdate_none {error : Err} :
    world.Raises (afterFailedUpdate none error) := by
  refine World.Raises.bind fun failed => World.Raises.bind fun selected => ?_
  have hend : ∀ failed : Record, world.Raises
      (if (none : Option Release).isSome = true ∧ selected = none ∧ failed.state ∉ [.activating,
          .pendingReadiness, .startingCandidate, .runtimeReady, .failedAfterWorldOpen] then
        (return failed : UpdaterM Record)
      else
        throw error) := by
    intro failed
    rw [if_neg fun hcond => nomatch hcond.1]
    exact World.raises_throw
  dsimp only
  split
  · exact World.Raises.bind hend
  · exact hend failed

theorem applyPolicy_returns (hop : op = .prepareStart c) (h : Quiet start active current state s)
    (hmarker : Seen .markerExists (.ok false) past)
    (hprepared : s.active.isSome → Prepared c s) :
    Returns (applyPolicy c active current state) (fun _ _ new => Prepared c new) past s := by
  have hsome : active.isSome → Prepared c s := fun ha => hprepared (h.active_eq ▸ ha)
  rw [applyPolicy]
  split
  · rename_i hmanual
    split
    · exact World.returns_pure (hsome hmanual.1)
    · exact writeObservation_returns.mono fun _ _ _ h => h.mpr (hsome hmanual.1)
  · rename_i hmanual
    split
    · rename_i hmods
      exact writeObservation_returns.mono fun _ _ _ h => h.mpr (hsome hmods.1)
    · rename_i hmods
      have hcheck : Conforms op start (checkAndUpdate c active current state false false)
          (fun _ _ new => Inv new) (Fails Inv) past s :=
        checkAndUpdate_conforms h (by rw [hop]; rfl)
          (mayQuery_prepareStart hop h hmarker hmanual hmods)
      cases active with
      | none =>
        refine World.returns_tryCatch (checkAndUpdate_returns h hprepared) fun e _ _ => ?_
        split
        · exact afterFailedUpdate_none.returns
        · exact World.returns_throw
      | some a =>
        have hheld : Held c a s := by
          refine ⟨h.inv, fun ha => ?_⟩
          obtain ⟨r, hr, hcarries⟩ := hsome rfl
          obtain rfl : r = a := by simpa [ha] using hr.symm
          exact hcarries
        refine World.Ensures.handle (World.Ensures.and
          (hheld.maintain h.unmoved.1.symm hcheck checkAndUpdate_uses)
          (checkAndUpdate_returns h hprepared)) (fun _ _ _ _ hnew => hnew.2)
          fun e _ new _ hnew => ?_
        split
        · exact afterFailedUpdate_returns hnew.1.1 hnew.1.2.carries
        · exact World.returns_throw

theorem prepareActive_returns : Returns (prepareActive c active)
    (fun _ _ new => ∀ r, active = some r → Carries c r new) past s := by
  cases active with
  | none => exact World.returns_pure nofun
  | some a =>
    refine launcherPrepare_returns.seq fun _ _ _ _ h => World.returns_pure fun r hr => ?_
    obtain rfl := Option.some.inj hr
    exact h

theorem prepareSettled_returns (hop : op = .prepareStart c) (hs : Inv s)
    (hsettled : s.state.Settled)
    (hunmoved : s.active = start.active ∧ s.activeBuild = start.activeBuild)
    (hmarker : Seen .markerExists (.ok false) past) :
    Returns (prepareSettled c) (fun _ _ new => Prepared c new) past s := by
  rw [prepareSettled]
  refine returns_ask.seq fun _ past₁ _ hsuf₁ h₁ => ?_
  refine returns_ask.seq fun ensured past₂ _ hsuf₂ h₂ => ?_
  refine returns_ask.seq fun state past₃ _ hsuf₃ h₃ => ?_
  refine returns_ask.seq fun reread past₄ _ hsuf₄ h₄ => ?_
  obtain rfl := h₁
  obtain ⟨rfl, rfl⟩ := h₂
  obtain ⟨rfl, rfl⟩ := h₃
  obtain ⟨rfl, rfl⟩ := h₄
  rename_i s
  have hsuf := hsuf₁.trans (hsuf₂.trans (hsuf₃.trans hsuf₄))
  have hactive : (s.active <|> s.active) = s.active := by cases s.active <;> rfl
  have hquiet : Conforms op start (prepareActive c s.active)
      (fun current _ new => Quiet start s.active current s.loaded new) (Fails Inv) past₄ s :=
    prepareActive_conforms hs hsettled hunmoved
  dsimp only
  rw [hactive]
  refine (hquiet.returns.and prepareActive_returns).seq fun current past' new hsuf' hnew => ?_
  obtain ⟨hnew, hcarries⟩ := hnew
  refine applyPolicy_returns hop hnew (hmarker.mono (hsuf.trans hsuf')) fun ha => ?_
  obtain ⟨r, hr⟩ := Option.isSome_iff_exists.mp ha
  exact ⟨r, hr, hcarries r (hnew.active_eq ▸ hr)⟩

theorem prepareSettled_uses : Uses (Configured c) (prepareSettled c) := by
  refine ask_bind_uses trivial fun _ => ask_bind_uses trivial fun ensured => ?_
  refine ask_bind_uses trivial fun state => ask_bind_uses trivial fun reread => ?_
  refine World.Only.bind ?_ fun current => applyPolicy_uses
  cases reread <|> ensured with
  | some release => exact World.Only.bind (uses_configured launcherPrepare_uses) fun _ => pure_uses
  | none => exact pure_uses

/-- What a program does not ask, it is not told. -/
theorem unseen_returns {N : Request → Prop} {p : UpdaterM α} {q : Request} {reply : Reply q}
    (h : Uses N p) (hq : ¬ N q) (hpast : ¬ Seen q reply past) :
    Returns p (fun _ past' _ => ¬ Seen q reply past') past s := by
  have hp : Returns p (fun _ _ _ => True) past s := World.returns_trivial
  refine World.Returns.mono (World.Ensures.maintain (K := fun past _ => ¬ Seen q reply past) hp h
    (fun past s q' choice _ _ hN hs => ?_) hpast).returns fun _ _ _ hnew => hnew.2
  rintro ⟨before, after, hmem⟩
  rcases List.mem_cons.mp hmem with heq | hmem
  · have hq' : q = q' := congrArg Move.request heq
    exact hq (hq' ▸ hN)
  · exact hs ⟨before, after, hmem⟩

theorem recoverInterrupted_returns (hs : Inv s) :
    Returns (recoverInterrupted s.loaded)
      (fun v _ new => Recovered s v new ∧ (Prepared c new ↔ Prepared c s)) past s := by
  have hrecover : Conforms .accept s (recoverInterrupted s.loaded)
      (fun v _ new => Recovered s v new) (Fails Inv) past s := recoverInterrupted_conforms hs
  cases ha : s.active with
  | none =>
    refine hrecover.returns.mono fun v _ new hnew => ⟨hnew, ?_⟩
    simp [Prepared, hnew.active, ha]
  | some a =>
    have hfrom : Untouched s a s := ⟨hs, ha, rfl⟩
    refine (hfrom.maintain hrecover recoverInterrupted_uses).returns.mono fun v _ new hnew => ?_
    obtain ⟨hnew, huntouched⟩ := hnew
    refine ⟨hnew, ?_⟩
    simp [Prepared, Carries, huntouched.active, ha, huntouched.directory]

/-- Another request, in addition. -/
theorem returns_ask_unseen {q q' : Request} {reply : Reply q'} (hq : q ≠ q')
    (hpast : ¬ Seen q' reply past) :
    Returns (ask q) (fun v past' new => Effect s new q (.ok v) ∧ ¬ Seen q' reply past') past s :=
  returns_ask.and (unseen_returns (N := fun q => q ≠ q') (ask_uses hq) (fun h => h rfl) hpast)

/-- The deployment marker. -/
theorem returns_markerExists (hpast : ¬ Seen .markerExists (.ok true) past) :
    Returns (ask .markerExists) (fun b past' new => new = s ∧ Seen .markerExists (.ok b) past' ∧
      (b = false → ¬ Seen .markerExists (.ok true) past')) past s := by
  refine World.ensures_ask fun b hc => ⟨trivial, rfl, ⟨_, _, List.mem_cons_self⟩, ?_⟩
  rintro rfl ⟨before, after, hmem⟩
  rcases List.mem_cons.mp hmem with heq | hmem
  · simp [world, World.move, answer] at heq
  · exact hpast ⟨before, after, hmem⟩

/-- **What `prepare_start` leaves selected**, in the two cases of the marker. -/
theorem prepareStart_returns (hs : Inv s) (hpast : ¬ Seen .markerExists (.ok true) past) :
    Returns (prepareStart c) (fun _ past' new =>
      ¬ Seen .markerExists (.ok true) past' ∧ Prepared c new ∨
        Seen .markerExists (.ok true) past' ∧ (Prepared c new ↔ Prepared c s)) past s := by
  rw [prepareStart]
  refine (returns_ask_unseen (by simp) hpast).seq fun _ _ s₁ _ h₁ => ?_
  obtain ⟨rfl, hpast⟩ := h₁
  refine (returns_ask_unseen (by simp) hpast).seq fun _ _ s₂ _ h₂ => ?_
  obtain ⟨⟨rfl, rfl⟩, hpast⟩ := h₂
  refine ((recoverInterrupted_returns (c := c) hs).and (unseen_returns recoverInterrupted_uses id
    hpast)).seq fun state _ s₃ _ h₃ => ?_
  obtain ⟨⟨hrecovered, hsame⟩, hpast⟩ := h₃
  refine (returns_ask_unseen (by simp) hpast).seq fun _ past₄ s₄ _ h₄ => ?_
  obtain ⟨⟨rfl, rfl⟩, hpast⟩ := h₄
  obtain rfl := hrecovered.loaded
  have hinv := hrecovered.inv
  split
  · cases hactive : s₄.active with
    | none => exact World.returns_throw
    | some release =>
      have hlauncher : Conforms .accept s₄ (launcherPrepare c release)
          (fun m _ new => Relaunched s₄ new ∧ new.activeBuild = some m.buildId) (Fails Inv)
          past₄ s₄ :=
        launcherPrepare_active hinv hactive
      refine ((hlauncher.returns.and launcherPrepare_returns).and (unseen_returns
        (uses_configured (c := c) launcherPrepare_uses) id hpast)).seq fun _ _ new _ hnew => ?_
      obtain ⟨⟨⟨hnew, -⟩, hcarries⟩, hpast⟩ := hnew
      exact World.returns_pure (.inl ⟨hpast, release, hnew.active.trans hactive, hcarries⟩)
  · rename_i hstate
    have hsettled : s₄.state.Settled := by
      refine StateName.settled_of hrecovered.quiet fun hc => hstate ?_
      cases hn : s₄.state <;> simp_all [StateName.Committed]
    refine (returns_markerExists hpast).seq fun marker past₅ s₅ _ h₅ => ?_
    obtain ⟨rfl, hseen, hfalse⟩ := h₅
    cases marker with
    | true =>
      cases hactive : s₅.active with
      | none => exact World.returns_throw
      | some release =>
        refine returns_ask.seq fun current past₆ s₆ hsuf₆ h₆ => ?_
        obtain ⟨-, rfl⟩ := h₆
        exact (World.Returns.suffix writeObservation_returns).mono fun _ past' _ h =>
          .inr ⟨hseen.mono (hsuf₆.trans h.1), h.2.trans hsame⟩
    | false =>
      have hsettle : Returns (prepareSettled c) (fun _ _ new => Prepared c new) past₅ s₅ :=
        prepareSettled_returns rfl hinv hsettled ⟨rfl, rfl⟩ hseen
      exact (hsettle.and (unseen_returns prepareSettled_uses id (hfalse rfl))).mono
        fun _ _ _ h => .inl ⟨h.2, h.1⟩

end Start

/-- **When a container start leaves the configured release.** If `prepare_start` returns, in any
state that runs reach and whatever its surroundings answer, the active release has the configured
heap and the generated wrapper if and only if no pending deployment was seen, or it had them when
the start began. -/
theorem UpdaterHistory.prepared_iff {h : List UpdaterEntry} {d new : Disk} {r : Record}
    {past : List UpdaterMove} (hh : UpdaterHistory h d)
    (he : world.Exec (prepareStart c).run [] d (.done (.ok r)) past new) :
    Prepared c new ↔ ¬ Seen .markerExists (.ok true) past ∨ Prepared c d := by
  have hstart : Returns (prepareStart c) _ [] d :=
    prepareStart_returns (c := c) hh.trail.inv fun ⟨_, _, hmem⟩ => nomatch hmem
  rcases hstart.exec_done he with ⟨hunseen, hnew⟩ | ⟨hseen, hnew⟩
  · exact ⟨fun _ => .inl hunseen, fun _ => hnew⟩
  · rw [hnew]
    exact ⟨.inr, fun hor => hor.resolve_left (not_not.mpr hseen)⟩

/-- Surroundings like `obliging`, with a repository deployment pending. -/
def deploying (latest : ℕ) : world.Oracle := fun past d q => match q with
  | .markerExists => true
  | q => obliging latest past d q

/-- A start during a deployment, with the heap that build 5 was installed with. -/
theorem UpdaterHistory.prepared_deploying :
    Prepared .default (world.runFor (deploying 5) 20 (prepareStart .default).run []
      (Disk.empty.accepting 5)).2.2 := by
  obtain ⟨h, hh⟩ := UpdaterHistory.accepting
  have hrun := world.exec_runFor (deploying 5) 20 (prepareStart .default).run []
    (Disk.empty.accepting 5) (by decide)
  exact (UpdaterHistory.prepared_iff hh hrun).mpr (.inr (by decide))

/-- **A start with the old heap.** Build 5 was installed and accepted with a heap of 4 GiB. The
next start is configured with 8 GiB while a deployment is pending: it returns normally, and the
active release still has 4 GiB. -/
theorem UpdaterHistory.stale_heap :
    let c : UpdateConfiguration := { UpdateConfiguration.default with pzXmx := "8g" }
    ∃ h d r past new, UpdaterHistory h d ∧
      world.Exec (prepareStart c).run [] d (.done (.ok r)) past new ∧ ¬ Prepared c new := by
  intro c
  obtain ⟨h, hh⟩ := UpdaterHistory.accepting
  have hrun := world.exec_runFor (deploying 5) 20 (prepareStart c).run []
    (Disk.empty.accepting 5) (by decide)
  exact ⟨h, _, _, _, _, hh, hrun, by decide⟩

end Updater

end PzServer
