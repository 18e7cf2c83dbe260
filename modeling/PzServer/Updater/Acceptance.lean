import PzServer.Updater.Activation

/-!
# Acceptance

A candidate is accepted after it was selected, the world was opened with it, and it answered; and
the record then accounts for the update with the builds of the two releases. These facts are spread
over fields that different operations write and all others carry along, so the invariant `Accounted`
is about the record together with the history that led to it.

## Main results

* `UpdaterTrail.accounted` — the invariant, along every history
* `UpdaterHistory.accepted` — acceptance is sound, and correctly accounted
-/

namespace PzServer

namespace Updater

open Interaction

variable {h later earlier : List UpdaterEntry} {d new start : Disk} {e : UpdaterEntry}
  {op : Operation} {past : List UpdaterMove} {c : Release} {b : Option ℕ}

/-! ### The stages of a candidate -/

namespace UpdaterEntry

/-- The active release is the same after the entry. -/
def KeepsActive (e : UpdaterEntry) : Prop := e.after.active = e.before.active

/-- The entry makes `c` the active release. The release that was active before, and since the
operation started, has build `b`; there was none if and only if `b` is absent. -/
structure Selects (c : Release) (b : Option ℕ) (e : UpdaterEntry) : Prop where
  before_ne : e.before.active ≠ some c
  after_eq : e.after.active = some c
  unmoved : e.before.active = e.start.active
  build : e.start.activeBuild = b
  none_iff : b = none ↔ e.start.active = none

/-- `mark_world_opened` records that the world is opened with `c`. -/
structure RecordsOpened (c : Release) (e : UpdaterEntry) : Prop where
  op : e.op = .markWorldOpened
  keeps : e.KeepsActive
  state : e.after.state = .startingCandidate
  candidate : e.after.loaded.candidateRelease = some c
  worldOpened : e.after.loaded.worldOpened = some true

/-- `mark_runtime_ready` records that `c` answered. -/
structure RecordsReady (c : Release) (e : UpdaterEntry) : Prop where
  op : e.op.marksReady
  keeps : e.KeepsActive
  state : e.after.state = .runtimeReady
  candidate : e.after.loaded.candidateRelease = some c

end UpdaterEntry

open UpdaterEntry

/-- `c` was selected, and the active release has not changed since. -/
def SelectedSince (c : Release) (b : Option ℕ) (h : List UpdaterEntry) : Prop :=
  Since (fun e _ => e.Selects c b) KeepsActive h

/-- After that the world was opened with it. -/
def OpenedSince (c : Release) (b : Option ℕ) (h : List UpdaterEntry) : Prop :=
  Since (fun e h => e.RecordsOpened c ∧ SelectedSince c b h) KeepsActive h

/-- After that it answered. -/
def ReadySince (c : Release) (b : Option ℕ) (h : List UpdaterEntry) : Prop :=
  Since (fun e h => e.RecordsReady c ∧ OpenedSince c b h) KeepsActive h

theorem ReadySince.opened (h' : ReadySince c b h) : OpenedSince c b h :=
  Since.flatten h' fun _ _ hP => ⟨hP.1.keeps, hP.2⟩

/-! ### The invariant -/

/-- What the history says about the candidate in the record. -/
structure Accounted (h : List UpdaterEntry) (d : Disk) : Prop where
  selected : d.state = .activating ∨ d.state.Committed → ∀ c, d.active = some c →
    d.loaded.candidateRelease = some c → SelectedSince c d.loaded.previousBuild h
  starting : d.state = .startingCandidate → ∀ c, d.loaded.candidateRelease = some c →
    OpenedSince c d.loaded.previousBuild h
  ready : d.state = .runtimeReady → ∀ c, d.loaded.candidateRelease = some c →
    ReadySince c d.loaded.previousBuild h

/-- An entry that keeps the record and the active release. -/
theorem Accounted.keep (ha : Accounted h e.before) (hactive : e.KeepsActive)
    (hloaded : e.after.loaded = e.before.loaded) : Accounted (e :: h) e.after where
  selected hs c hc hcandidate := by
    simp only [Disk.state, hloaded] at hs hcandidate ⊢
    exact (ha.selected hs c (hactive.symm.trans hc) hcandidate).cons hactive
  starting hs c hcandidate := by
    simp only [Disk.state, hloaded] at hs hcandidate ⊢
    exact (ha.starting hs c hcandidate).cons hactive
  ready hs c hcandidate := by
    simp only [Disk.state, hloaded] at hs hcandidate ⊢
    exact (ha.ready hs c hcandidate).cons hactive

/-- An entry that replaces the record and keeps the active release: what the new record says has
to be justified by the old one. -/
theorem Accounted.record {r : Record} (hd : Inv e.before)
    (hafter : e.after = { e.before with record := some r }) (ha : Accounted h e.before)
    (hr : RecordChange e.op e.before r) : Accounted (e :: h) e.after := by
  have hactive : e.KeepsActive := by rw [KeepsActive, hafter]
  have hloaded : e.after.loaded = r := by rw [hafter]; rfl
  have hstate : e.after.state = r.state := congrArg Record.state hloaded
  -- a selection that is carried from the old record to the new one
  have hcarry : e.before.state = .activating ∨ e.before.state.Committed →
      e.before.loaded.SameCandidate r → ∀ c, e.before.active = some c →
        r.candidateRelease = some c → SelectedSince c r.previousBuild h := by
    intro hs hsame c hc hcandidate
    rw [hsame.previousBuild]
    exact ha.selected hs c hc (hsame.release.symm.trans hcandidate)
  have hnot : ∀ {n : StateName}, r.state = n → n ≠ .activating → ¬ n.Committed →
      Accounted (e :: h) e.after := by
    intro n hn hactivating hcommitted
    rw [← hn, ← hstate] at hactivating hcommitted
    refine ⟨fun hs => ?_, fun hs => ?_, fun hs => ?_⟩
    · exact (hs.elim hactivating hcommitted).elim
    · exact absurd (by rw [hs]; trivial) hcommitted
    · exact absurd (by rw [hs]; trivial) hcommitted
  cases hr with
  | settle _ _ hr => exact hnot rfl (fun hc => by rw [hc] at hr; exact hr) hr.not_committed
  | refresh _ _ hr => exact hnot hr (by simp) id
  | download _ hr => exact hnot hr (by simp) id
  | promote _ hr => exact hnot hr (by simp) id
  | accept _ hr => exact hnot hr (by simp) id
  | activate hd' hr hcandidate =>
    have hstaging : e.before.state.Staging := by rw [hd']; trivial
    refine ⟨fun _ c hc hcandidate' => ?_, fun hs => ?_, fun hs => ?_⟩
    · rw [hloaded, hcandidate] at hcandidate'
      exact absurd (hactive.symm.trans hc) (hd.staged hstaging c (.inr hcandidate'))
    · simp [hstate, hr] at hs
    · simp [hstate, hr] at hs
  | pend hd' hr hactive' hsame =>
    have hbefore : e.before.state = .activating ∨ e.before.state.Committed :=
      hd'.imp_right fun hs => by rw [hs]; trivial
    refine ⟨fun _ c hc hcandidate => ?_, fun hs => ?_, fun hs => ?_⟩
    · rw [hloaded] at hcandidate ⊢
      exact (hcarry hbefore hsame c (hactive.symm.trans hc) hcandidate).cons hactive
    · simp [hstate, hr] at hs
    · simp [hstate, hr] at hs
  | «open» hop hd' hr hsame hworld =>
    have hcommitted : e.before.state.Committed := by rcases hd' with hs | hs <;> rw [hs] <;> trivial
    have hselected := hcarry (.inr hcommitted) hsame
    refine ⟨fun _ c hc hcandidate => ?_, fun _ c hcandidate => ?_, fun hs => ?_⟩
    · rw [hloaded] at hcandidate ⊢
      exact (hselected c (hactive.symm.trans hc) hcandidate).cons hactive
    · rw [hloaded] at hcandidate ⊢
      have hc := (hd.committed hcommitted).2.trans (hsame.release.symm.trans hcandidate)
      refine since_now ⟨⟨hop, hactive, hstate.trans hr, ?_, ?_⟩, hselected c hc hcandidate⟩
      · rw [hloaded]; exact hcandidate
      · rw [hloaded]; exact hworld
    · simp [hstate, hr] at hs
  | ready hop hd' hr hsame =>
    have hcommitted : e.before.state.Committed := by rcases hd' with hs | hs <;> rw [hs] <;> trivial
    refine ⟨fun _ c hc hcandidate => ?_, fun hs => ?_, fun _ c hcandidate => ?_⟩
    · rw [hloaded] at hcandidate ⊢
      exact (hcarry (.inr hcommitted) hsame c (hactive.symm.trans hc) hcandidate).cons hactive
    · simp [hstate, hr] at hs
    · rw [hloaded] at hcandidate ⊢
      have hcandidate' := hsame.release.symm.trans hcandidate
      have hopened : OpenedSince c r.previousBuild h := by
        rw [hsame.previousBuild]
        rcases hd' with hs | hs
        · exact ha.starting hs c hcandidate'
        · exact (ha.ready hs c hcandidate').opened
      refine since_now ⟨⟨hop, hactive, hstate.trans hr, ?_⟩, hopened⟩
      rw [hloaded]; exact hcandidate
  | fail hop hd' hr hsame =>
    have hcommitted : e.before.state.Committed := by rcases hd' with hs | hs <;> rw [hs] <;> trivial
    refine ⟨fun _ c hc hcandidate => ?_, fun hs => ?_, fun hs => ?_⟩
    · rw [hloaded] at hcandidate ⊢
      exact (hcarry (.inr hcommitted) hsame c (hactive.symm.trans hc) hcandidate).cons hactive
    · simp [hstate, hr] at hs
    · simp [hstate, hr] at hs

/-- The switch is where the account of a candidate starts. -/
theorem Accounted.select {f : Release} {m : SteamBuildMetadata} (hd : Inv e.before)
    (hselect : Selectable e.op e.start e.earlier e.before f m)
    (hafter : e.after = { e.before with active := some f }) : Accounted (e :: h) e.after := by
  have hloaded : e.after.loaded = e.before.loaded := by rw [hafter]; rfl
  have hstate : e.after.state = .activating := (congrArg Record.state hloaded).trans hselect.state
  have hnone : e.start.activeBuild = none ↔ e.start.active = none := by
    rw [← hselect.unmoved.1, ← hselect.unmoved.2]
    exact hd.activeBuild_eq_none
  refine ⟨fun _ c hc _ => ?_, fun hs => ?_, fun hs => ?_⟩
  · obtain rfl : f = c := by simpa [hafter] using hc
    refine since_now ⟨hselect.fresh, by rw [hafter], hselect.unmoved.1, ?_, ?_⟩
    · rw [hloaded, hselect.previousBuild, hselect.unmoved.2]
    · rw [hloaded, hselect.previousBuild, hselect.unmoved.2]
      exact hnone
  · simp [hstate] at hs
  · simp [hstate] at hs

theorem Accounted.step (hd : Inv e.before) (ha : Accounted h e.before)
    (hG : Permitted e.op e.start e.earlier e.move) : Accounted (e :: h) e.after := by
  have hchange := hG.change
  generalize hbefore : e.move.before = before at hchange
  generalize hafter : e.move.after = after at hchange
  have hkeep : after.active = before.active → after.loaded = before.loaded →
      Accounted (e :: h) e.after := by
    rintro hactive hloaded
    subst hbefore hafter
    exact ha.keep hactive hloaded
  cases hchange with
  | same | launcher | directory | rename | forgetPrevious | keepPrevious => exact hkeep rfl rfl
  | select hselect =>
    subst hbefore
    exact .select hd hselect hafter
  | record hr =>
    subst hbefore
    exact .record hd hafter ha hr

/-- **The account is kept along every history.** -/
theorem UpdaterTrail.accounted (ht : UpdaterTrail h d) : Accounted h d := by
  induction ht with
  | @start s hs =>
    obtain rfl : s = Disk.empty := hs
    exact {
      selected := fun hs => hs.elim (fun hs => nomatch hs) False.elim
      starting := fun hs => nomatch hs
      ready := fun hs => nomatch hs }
  | move ht hG ih => exact ih.step (UpdaterTrail.inv ht) hG

/-! ### Acceptance -/

/-- A record that accepts is written by `accept`, in either of its two places. -/
theorem RecordChange.of_accepts {r : Record} (h : RecordChange op d r)
    (hnot : ¬ d.loaded.Accepted) (hr : r.Accepted) :
    (op = .accept ∧ d.state = .runtimeReady ∨
      op.acceptsLocally ∧ (d.state = .startingCandidate ∨ d.state = .runtimeReady)) ∧
    r.lastResult = some (if d.loaded.previousBuild.isNone then .installed else .updated) ∧
    r.lastUpdateFromBuild = d.loaded.previousBuild ∧
    r.lastUpdateToBuild = d.loaded.candidateBuild ∧ r.currentBuild = d.loaded.candidateBuild := by
  obtain ⟨hcurrent, hresult⟩ := hr
  cases h with
  | settle _ _ _ _ _ hno =>
    rcases hresult with hl | hl
    · exact absurd trivial (hno _ hl)
    · exact absurd trivial (hno _ hl)
  | refresh _ hs _ _ hl =>
    rw [hl] at hresult
    exact absurd ⟨hs, hresult⟩ hnot
  | download _ hs => simp [hs] at hcurrent
  | promote _ hs => simp [hs] at hcurrent
  | activate _ hs => simp [hs] at hcurrent
  | pend _ hs => simp [hs] at hcurrent
  | «open» _ _ hs => simp [hs] at hcurrent
  | ready _ _ hs => simp [hs] at hcurrent
  | fail _ _ hs => simp [hs] at hcurrent
  | accept hop _ _ _ hl hfrom hto hc => exact ⟨hop, hl, hfrom, hto, hc⟩

/-- A change that accepts replaces the record. -/
theorem Change.of_accepts (h : Change op start past d new) (hnot : ¬ d.loaded.Accepted)
    (hnew : new.loaded.Accepted) :
    ∃ r, RecordChange op d r ∧ new = { d with record := some r } := by
  cases h with
  | record hr => exact ⟨_, hr, rfl⟩
  | same | launcher | directory | rename | forgetPrevious | keepPrevious | select =>
    exact absurd hnew hnot

/-- An acceptance in a history, with the account of the update. -/
structure SoundAcceptance (earlier : List UpdaterEntry) (e : UpdaterEntry) (c : Release)
    (fromBuild : Option ℕ) : Prop where
  /-- The pointer still names the candidate. -/
  active : e.before.active = some c ∧ e.after.active = some c
  candidate : e.before.loaded.candidateRelease = some c
  /-- Since it was selected the world was opened and the candidate answered. In the aws environment
  this is followed by the `accept` that is being made; a local `mark_runtime_ready` accepts at
  once. -/
  stages : e.op = .accept ∧ ReadySince c fromBuild earlier ∨
    e.op.acceptsLocally ∧ OpenedSince c fromBuild earlier
  /-- The builds of the record are the builds of the two releases. -/
  toBuild : ∃ build, e.after.activeBuild = some build ∧
    e.after.loaded.lastUpdateToBuild = some build ∧ e.after.loaded.currentBuild = some build
  fromBuild_eq : e.after.loaded.lastUpdateFromBuild = fromBuild
  installed_iff : e.after.loaded.lastResult = some .installed ↔ fromBuild = none

/-- What a permitted history says about an acceptance. -/
theorem UpdaterTrail.soundAcceptance (ht : UpdaterTrail (later ++ e :: earlier) d)
    (he : e.Accepts) : ∃ c fromBuild, SoundAcceptance earlier e c fromBuild := by
  obtain ⟨ht, hG⟩ := ht.of_append_cons
  have hd := UpdaterTrail.inv ht
  have ha := UpdaterTrail.accounted ht
  obtain ⟨hnot, hstate, hresult⟩ := he
  obtain ⟨r, hr, hafter⟩ := hG.change.of_accepts hnot ⟨hstate, hresult⟩
  replace hafter : e.after = { e.before with record := some r } := hafter
  have hloaded : e.after.loaded = r := by rw [hafter]; rfl
  have hactive : e.after.active = e.before.active := by rw [hafter]
  have hbuild : e.after.activeBuild = e.before.activeBuild := by rw [hafter]; rfl
  obtain ⟨hop, hl, hfrom, hto, hc⟩ := hr.of_accepts hnot (hloaded ▸ ⟨hstate, hresult⟩)
  have hwaiting : e.before.state = .startingCandidate ∨ e.before.state = .runtimeReady :=
    hop.elim (fun h => .inr h.2) (fun h => h.2)
  have hcommitted : e.before.state.Committed := by
    rcases hwaiting with hs | hs <;> rw [hs] <;> trivial
  obtain ⟨hsome, hcandidate⟩ := hd.committed hcommitted
  obtain ⟨c, hc'⟩ := Option.isSome_iff_exists.mp hsome
  have hrelease := hcandidate.symm.trans hc'
  obtain ⟨build, hb⟩ := Option.isSome_iff_exists.mp (hd.activeBuild_isSome hsome)
  have hcandidateBuild := (hd.selected (.inr hcommitted) hcandidate).trans hb
  refine ⟨c, e.before.loaded.previousBuild, {
    active := ⟨hc', hactive.trans hc'⟩
    candidate := hrelease
    stages := ?_
    toBuild := ⟨build, hbuild.trans hb, ?_, ?_⟩
    fromBuild_eq := by rw [hloaded, hfrom]
    installed_iff := ?_ }⟩
  · rcases hop with ⟨ho, hs⟩ | ⟨ho, hs⟩
    · exact .inl ⟨ho, ha.ready hs c hrelease⟩
    · refine .inr ⟨ho, ?_⟩
      rcases hs with hs | hs
      · exact ha.starting hs c hrelease
      · exact (ha.ready hs c hrelease).opened
  · rw [hloaded, hto, hcandidateBuild]
  · rw [hloaded, hc, hcandidateBuild]
  · rw [hloaded, hl]
    cases e.before.loaded.previousBuild <;> simp

/-- **Acceptance is sound and correctly accounted.** Whenever the record becomes `current` with
result `installed` or `updated`, there is a release and an optional build for which it is a
`SoundAcceptance`. -/
theorem UpdaterHistory.accepted (hh : UpdaterHistory (later ++ e :: earlier) d) (he : e.Accepts) :
    ∃ c fromBuild, SoundAcceptance earlier e c fromBuild :=
  UpdaterTrail.soundAcceptance hh.trail he

/-- A local first install: selected, opened, and accepted by the readiness report itself. -/
theorem UpdaterHistory.accepted_install : ∃ (earlier : List UpdaterEntry) (e : UpdaterEntry),
    ∃ c fromBuild, e.after.loaded.lastResult = some .installed ∧
      SoundAcceptance earlier e c fromBuild := by
  have hempty : UpdaterHistory [] Disk.empty := .start rfl
  have hinstall := hempty.runFor (.prepareStart .default) (obliging 5) 40 (by decide)
  have hopen := hinstall.runFor .markWorldOpened (obliging 5) 10 (by decide)
  have hready := hopen.runFor (.markRuntimeReady .default none none) (obliging 5) 20 (by decide)
  have hmoved : (world.runFor (obliging 5) 20
      (Operation.markRuntimeReady .default none none).body.run []
      (Disk.installed.afterObliging 5 10 .markWorldOpened)).2.1 ≠ [] :=
    List.ne_nil_of_length_pos (by decide)
  have hentry := entries_eq_cons (Operation.markRuntimeReady .default none none)
    (Disk.installed.afterObliging 5 10 .markWorldOpened) hmoved
  unfold Disk.installed Disk.afterObliging at hentry
  rw [hentry] at hready
  have hlast : UpdaterHistory ([] ++ _ :: _) _ := hready
  obtain ⟨c, fromBuild, hsound⟩ := hlast.accepted ⟨(fun hs => nomatch hs.1), rfl, .inl rfl⟩
  exact ⟨_, _, c, fromBuild, rfl, hsound⟩

end Updater

end PzServer
