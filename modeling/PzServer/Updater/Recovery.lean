import PzServer.Updater.Rules

/-!
# Recovery, and the launcher

What `_recover_interrupted`, `LauncherValidator.prepare` and the small functions under them do.
Most of them run while a transaction is open and nothing has been selected; `Unselected` is what
they need and keep, and `Keeps` is their usual result.
-/

namespace PzServer

namespace Updater

open Interaction

variable {α : Type} {op : Operation} {start s : Disk} {past : List UpdaterMove}
  {ok : α → List UpdaterMove → Disk → Prop} {err : Err → List UpdaterMove → Disk → Prop}

/-! ### Transactions that can still be given up -/

/-- Nothing has been selected: the active release and its build are still the ones given, and the
record can be closed. -/
structure Unselected (active : Option Release) (build : Option ℕ) (s : Disk) : Prop where
  inv : Inv s
  active_eq : s.active = active
  build_eq : s.activeBuild = build
  uncommitted : ¬ s.state.Committed
  waiting : s.state = .activating → s.active ≠ s.loaded.candidateRelease

/-- Still `Unselected`, with the record that was on disk `s`. -/
def Keeps (active : Option Release) (build : Option ℕ) (s new : Disk) : Prop :=
  new.record = s.record ∧ Unselected active build new

namespace Unselected

variable {active : Option Release} {build : Option ℕ}

theorem keeps (h : Unselected active build s) : Keeps active build s s := ⟨rfl, h⟩

theorem setDirectory (h : Unselected active build s) {r : Release} (hr : active ≠ some r)
    (D : Option Directory) : Unselected active build (s.setDirectory r D) where
  inv := h.inv.setDirectory_of_ne D (h.active_eq ▸ hr)
  active_eq := h.active_eq
  build_eq := by
    rw [← h.build_eq]
    exact s.activeBuild_setDirectory_of_ne D (h.active_eq ▸ hr)
  uncommitted := h.uncommitted
  waiting := h.waiting

theorem forgetPrevious (h : Unselected active build s) :
    Unselected active build { s with previous := none } where
  inv := h.inv.forgetPrevious
  active_eq := h.active_eq
  build_eq := h.build_eq
  uncommitted := h.uncommitted
  waiting := h.waiting

theorem record (h : Unselected active build s) {r : Record} (hr : RecordChange op s r)
    (huncommitted : ¬ r.state.Committed)
    (hwaiting : r.state = .activating → active ≠ r.candidateRelease) :
    Unselected active build { s with record := some r } where
  inv := hr.inv h.inv
  active_eq := h.active_eq
  build_eq := h.build_eq
  uncommitted := huncommitted
  waiting := fun hs => h.active_eq ▸ hwaiting hs

end Unselected

section Parts

variable {active : Option Release} {build : Option ℕ}

theorem rmtree_conforms {r : Release} (h : Unselected active build s) (hr : active ≠ some r) :
    Conforms op start (ask (.rmtree r)) (fun _ _ new => Keeps active build s new)
      (Fails (Keeps active build s)) past s := by
  have hchange : ∀ D, Change op start past s (s.setDirectory r D) := fun D =>
    .directory D (h.active_eq ▸ hr) h.uncommitted
  have hkeeps : ∀ D, Keeps active build s (s.setDirectory r D) := fun D =>
    ⟨rfl, h.setDirectory hr D⟩
  refine conforms_ask (by simp) (by simp) (fun reply new he => ?_) (fun v new he => ?_)
    fun e new he => ?_
  · cases reply with
    | ok => exact he ▸ hchange none
    | error =>
      obtain rfl | ⟨left, rfl⟩ := he
      · exact .same _
      · exact hchange _
  · exact he ▸ hkeeps none
  · obtain rfl | ⟨left, rfl⟩ := he
    · exact h.keeps
    · exact hkeeps _

theorem rmtreeIgnoringErrors_conforms {r : Release} (h : Unselected active build s)
    (hr : active ≠ some r) : Conforms op start (rmtreeIgnoringErrors r)
      (fun _ _ new => Keeps active build s new) (fun _ _ _ => False) past s :=
  World.Ensures.handle (rmtree_conforms h hr) (fun _ _ _ _ hk => hk)
    fun _ _ _ _ he => World.ensures_pure he

/-- `if path.exists(): shutil.rmtree(path)`, with any handler. -/
theorem discardFailed_conforms {r : Release} (h : Unselected active build s)
    (hr : active ≠ some r) : Conforms op start (discardFailed r)
      (fun _ _ new => Keeps active build s new) (Fails (Keeps active build s)) past s := by
  refine conforms_read_bind trivial (fun v past' _ _ _ => ?_) fun _ _ => h.keeps
  split
  · exact (rmtreeIgnoringErrors_conforms h hr).mono (fun _ _ _ hk => hk) fun _ _ _ => False.elim
  · exact World.ensures_pure h.keeps

/-- Replacing the record without committing a candidate. -/
theorem writeState_unselected {value : Record} {ok : Record → List UpdaterMove → Disk → Prop}
    (h : Unselected active build s) (hr : RecordChange op s value)
    (huncommitted : ¬ value.state.Committed)
    (hwaiting : value.state = .activating → active ≠ value.candidateRelease)
    (hok : ∀ past', past <:+ past' → Unselected active build { s with record := some value } →
      ok value past' { s with record := some value }) :
    Conforms op start (writeState value) ok (Fails (Unselected active build)) past s := by
  have hnew := h.record hr huncommitted hwaiting
  exact writeState_conforms hr (fun _ hsuf => hok _ hsuf hnew) fun _ _ => ⟨h, hnew⟩

theorem recordPreWorldFailure_conforms {state : Record} {current : Option SteamBuildMetadata}
    {candidate : Option ℕ} {result : LastResult} {detail : String} {block : Bool}
    (h : Unselected active build s) (hresult : ¬ result.Accepted) :
    Conforms op start (recordPreWorldFailure state current candidate result detail block)
      (fun _ _ new => Unselected active build new) (Fails (Unselected active build)) past s := by
  refine conforms_read_bind trivial (fun checkedAt _ _ _ _ => ?_) fun _ _ => h
  refine conforms_read_bind trivial (fun now _ _ _ _ => ?_) fun _ _ => h
  exact writeState_unselected h (.settle h.uncommitted h.waiting trivial rfl rfl
    (by simpa using hresult)) id (by simp) fun _ _ hnew => hnew

end Parts

/-! ### Recovery -/

section Recovery

variable {active : Option Release} {build : Option ℕ}

theorem removeIfPresent_conforms {r : Option Release} (h : Unselected active build s)
    (hr : ∀ path ∈ r, active ≠ some path) : Conforms op start (removeIfPresent r)
      (fun _ _ new => Keeps active build s new) (Fails (Keeps active build s)) past s := by
  cases r with
  | none => exact World.ensures_pure h.keeps
  | some path =>
    refine conforms_read_bind trivial (fun v _ _ _ _ => ?_) fun _ _ => h.keeps
    split
    · exact rmtree_conforms h (hr path rfl)
    · exact World.ensures_pure h.keeps

/-- What recovery leaves when it returns the record `r`. -/
structure Recovered (s : Disk) (r : Record) (new : Disk) : Prop where
  inv : Inv new
  loaded : new.loaded = r
  active : new.active = s.active
  build : new.activeBuild = s.activeBuild
  quiet : r.state ≠ .activating ∧ ¬ r.state.Staging

/-- An activation that recovery completed. -/
structure Completed (s : Disk) (r : Record) : Prop where
  active : s.active = s.loaded.candidateRelease
  same : s.loaded.SameCandidate r
  worldOpened : r.worldOpened = s.loaded.worldOpened

theorem completeActivation_conforms (hs : Inv s) (hstate : s.state = .activating)
    (hactive : s.active = s.loaded.candidateRelease) :
    Conforms op start (completeActivation s.loaded)
      (fun r _ new => Recovered s r new ∧ Completed s r) (Fails Inv) past s := by
  refine conforms_read_bind trivial (fun now _ _ _ _ => ?_) fun _ _ => hs
  have hsame : s.loaded.SameCandidate { s.loaded with
      state := .pendingReadiness
      currentBuild := s.loaded.candidateBuild
      updatedAt := some now } := ⟨rfl, rfl, rfl, rfl, rfl⟩
  refine writeState_inv hs (.pend (.inl hstate) rfl hactive hsame rfl) fun _ _ hnew => ?_
  exact ⟨⟨hnew, rfl, rfl, rfl, by simp [StateName.Staging]⟩, hactive, hsame, rfl⟩

theorem abandonActivation_conforms (h : Unselected active build s)
    (hstate : s.state = .activating) : Conforms op start (abandonActivation s.loaded)
      (fun r _ new => Recovered s r new ∧ r.state = .failedBeforeWorldOpen) (Fails Inv) past s := by
  refine (removeIfPresent_conforms h fun path hp hc =>
    h.waiting hstate ((h.active_eq.trans hc).trans hp.symm)).seq (fun _ _ s' _ hkeeps => ?_)
    fun _ _ _ _ he => he.2.inv
  obtain ⟨hrecord, h'⟩ := hkeeps
  have hpromoted := (h.inv.activating hstate).2.1
  refine conforms_read_bind trivial (fun now _ _ _ _ => ?_) fun _ _ => h'.inv
  refine writeState_inv h'.inv (.settle h'.uncommitted h'.waiting trivial rfl hpromoted
    (by simp [LastResult.Accepted])) fun _ _ hnew => ?_
  exact ⟨⟨hnew, rfl, h'.active_eq.trans h.active_eq.symm, h'.build_eq.trans h.build_eq.symm,
    by simp [StateName.Staging]⟩, rfl⟩

/-- An interrupted activation is never ambiguous: the active release is the candidate, or the one
the transaction started from. -/
theorem recoverActivation_conforms (hs : Inv s) (hstate : s.state = .activating) :
    Conforms op start (recoverActivation s.loaded)
      (fun r _ new => Recovered s r new ∧ (r.state = .pendingReadiness → Completed s r))
      (Fails Inv) past s := by
  rw [recoverActivation]
  rw [if_neg (not_not.mpr hstate)]
  refine conforms_read_bind trivial (fun v _ hv _ _ => ?_) fun _ _ => hs
  obtain rfl : v = s.active := hv.1
  obtain ⟨hsome, -, -, hactive⟩ := hs.activating hstate
  by_cases hselected : s.active = s.loaded.candidateRelease
  · rw [if_pos ⟨hselected ▸ hsome, hsome, hselected⟩]
    exact (completeActivation_conforms hs hstate hselected).mono
      (fun r _ _ h => ⟨h.1, fun _ => h.2⟩) fun _ _ _ => id
  · rw [if_neg fun h => hselected h.2.2, if_pos (hactive.resolve_left hselected)]
    have h : Unselected s.active s.activeBuild s :=
      ⟨hs, rfl, rfl, by rw [hstate]; exact id, fun _ => hselected⟩
    refine (abandonActivation_conforms h hstate).mono (fun r _ _ h => ⟨h.1, ?_⟩) fun _ _ _ => id
    rw [h.2]
    exact nofun

theorem removeInterrupted_conforms {r : Option Release} (h : Unselected active build s)
    (hr : ∀ path ∈ r, active ≠ some path) : Conforms op start (removeInterrupted r)
      (fun _ _ new => Keeps active build s new) (Fails (Keeps active build s)) past s := by
  cases r with
  | none => exact World.ensures_pure h.keeps
  | some path =>
    refine conforms_read_bind trivial (fun v _ _ _ _ => ?_) fun _ _ => h.keeps
    split
    · refine exceptOn_conforms (rmtree_conforms h (hr path rfl)) (fun _ _ _ _ => id)
        (fun e _ _ _ he _ => ?_) fun _ _ _ _ => id
      exact World.ensures_throw he
    · exact World.ensures_pure h.keeps

theorem recoverInterrupted_conforms (hs : Inv s) :
    Conforms op start (recoverInterrupted s.loaded) (fun r _ new => Recovered s r new)
      (Fails Inv) past s := by
  rw [recoverInterrupted]
  by_cases hstaging : s.state.Staging
  · have hnot : ¬ (s.loaded.state ≠ .downloadingCandidate ∧
        s.loaded.state ≠ .promotingCandidate) := by
      cases hc : s.state <;> simp_all [StateName.Staging]
    have hsome := hs.staging hstaging
    rw [if_neg hnot, if_neg (by simp [Option.isSome_iff_ne_none.mp hsome])]
    have h : Unselected s.active s.activeBuild s :=
      ⟨hs, rfl, rfl, hstaging.not_committed, fun hc => by simp [hc, StateName.Staging] at hstaging⟩
    refine (removeInterrupted_conforms h fun path hp =>
      hs.staged hstaging path (.inl hp)).seq (fun _ _ s₁ _ h₁ => ?_) fun _ _ _ _ he => he.2.inv
    refine (removeInterrupted_conforms h₁.2 fun path hp =>
      hs.staged hstaging path (.inr hp)).seq (fun _ _ s₂ _ h₂ => ?_) fun _ _ _ _ he => he.2.inv
    refine conforms_read_bind trivial (fun now _ _ _ _ => ?_) fun _ _ => h₂.2.inv
    refine writeState_inv h₂.2.inv (.settle h₂.2.uncommitted h₂.2.waiting trivial rfl rfl
      (by simp [LastResult.Accepted])) fun _ _ hnew => ?_
    exact ⟨hnew, rfl, h₂.2.active_eq, h₂.2.build_eq, by simp [StateName.Staging]⟩
  · have hstate : s.loaded.state ≠ .downloadingCandidate ∧
        s.loaded.state ≠ .promotingCandidate := by
      cases hc : s.state <;> simp_all [StateName.Staging]
    rw [if_pos hstate]
    by_cases hactivating : s.state = .activating
    · exact (recoverActivation_conforms hs hactivating).mono (fun _ _ _ h => h.1) fun _ _ _ => id
    · rw [recoverActivation]
      rw [if_pos hactivating]
      exact World.ensures_pure ⟨hs, rfl, rfl, rfl, hactivating, hstaging⟩

end Recovery

/-! ### The launcher -/

section Launcher

variable {active : Option Release} {build : Option ℕ} {r : Release} {f : Directory → Directory}

/-- Rewriting launcher files keeps the manifest and a validation that was passed. -/
structure LauncherRewrite (f : Directory → Directory) : Prop where
  manifest : ∀ D, (f D).manifest = D.manifest
  validated : ∀ D, D.validated = true → (f D).validated = true

/-- Only the launcher files of the active release have changed. -/
structure Relaunched (s new : Disk) : Prop where
  inv : Inv new
  record : new.record = s.record
  active : new.active = s.active
  build : new.activeBuild = s.activeBuild

theorem Relaunched.inDirectory {d : Disk} (h : Relaunched s d) (hactive : s.active = some r)
    (hf : LauncherRewrite f) : Change op start past d (d.inDirectory r f) ∧
      Relaunched s (d.inDirectory r f) := by
  have ha : d.active = some r := h.active.trans hactive
  obtain ⟨D, m, hD, -, -⟩ := h.inv.active_valid r ha
  have heq : d.inDirectory r f = d.setDirectory r (some (f D)) := Disk.inDirectory_of_some hD f
  have hchange : Change op start past d (d.inDirectory r f) :=
    heq ▸ .launcher ha hD (hf.manifest D) (hf.validated D)
  refine ⟨hchange, hchange.inv h.inv, ?_, ?_, ?_⟩
  · rw [heq]; exact h.record
  · rw [heq]; exact h.active
  · rw [heq]
    exact (d.activeBuild_setDirectory_self ha hD (hf.manifest D)).trans h.build

theorem Keeps.inDirectory {d : Disk} (h : Keeps active build s d) (hr : active ≠ some r)
    (f : Directory → Directory) : Keeps active build s (d.inDirectory r f) := by
  unfold Disk.inDirectory
  split
  · exact h
  · exact ⟨h.1, h.2.setDirectory hr _⟩

theorem Unselected.change_inDirectory (h : Unselected active build s) (hr : active ≠ some r)
    (f : Directory → Directory) : Change op start past s (s.inDirectory r f) := by
  unfold Disk.inDirectory
  split
  · exact .same s
  · exact .directory _ (h.active_eq ▸ hr) h.uncommitted

/-- `LauncherValidator.prepare`, over any property of disks that rewriting the launcher files of
`r` is permitted under and keeps. -/
theorem launcherPrepare_conforms {c : UpdateConfiguration} {P : Disk → Prop} (hs : P s)
    (hP : ∀ d f past, P d → LauncherRewrite f →
      Change op start past d (d.inDirectory r f) ∧ P (d.inDirectory r f)) :
    Conforms op start (launcherPrepare c r)
      (fun m past' new => P new ∧ Seen (.inspectLauncher r c.pzXms c.pzXmx) (.ok m) past' ∧
        ∃ D, new.releases r = some D ∧ D.validated = true ∧ D.manifest = some m)
      (Fails P) past s := by
  unfold launcherPrepare
  refine conforms_read_bind trivial (fun m _ hm _ hseen => ?_) fun _ _ => hs
  obtain ⟨D, hD, hmanifest⟩ := hm.1
  have hheap : LauncherRewrite fun D => { D with heap := some (c.pzXms, c.pzXmx) } :=
    ⟨fun _ => rfl, fun _ => id⟩
  have hwrapper : LauncherRewrite fun D => { D with wrapper := true } :=
    ⟨fun _ => rfl, fun _ => id⟩
  have hvalid : LauncherRewrite fun D => { D with wrapper := true, validated := true } :=
    ⟨fun _ => rfl, fun _ _ => rfl⟩
  refine .bind (conforms_ask (by simp) (by simp)
    (fun _ new he => Written.change he (hP _ _ _ hs hheap).1)
    (fun _ new he => ?_) fun e new he => ?_)
  · obtain rfl := he
    have h₁ := (hP s _ past hs hheap).2
    have hseen₁ := fun m' => hseen.cons (m := m')
    rw [Disk.inDirectory_of_some hD] at h₁ ⊢
    refine .bind (conforms_ask (by simp) (by simp) (fun reply new he => ?_) (fun _ new he => ?_)
      fun e new he => ?_)
    · cases reply with
      | ok => exact he ▸ (hP _ _ _ h₁ hvalid).1
      | error =>
        rcases he with rfl | rfl
        · exact .same _
        · exact (hP _ _ _ h₁ hwrapper).1
    · obtain rfl := he
      refine World.ensures_pure ⟨(hP _ _ past h₁ hvalid).2, (hseen₁ _).cons, ?_⟩
      rw [Disk.inDirectory_of_some (Disk.setDirectory_self _ _ _)]
      exact ⟨_, Disk.setDirectory_self _ _ _, rfl, hmanifest⟩
    · rcases he with rfl | rfl
      · exact h₁
      · exact (hP _ _ past h₁ hwrapper).2
  · rcases he with rfl | rfl
    · exact hs
    · exact (hP _ _ past hs hheap).2

/-- Preparing the active release. -/
theorem launcherPrepare_active {c : UpdateConfiguration} (hs : Inv s) (hr : s.active = some r) :
    Conforms op start (launcherPrepare c r)
      (fun m _ new => Relaunched s new ∧ new.activeBuild = some m.buildId) (Fails Inv) past s := by
  refine (launcherPrepare_conforms (P := Relaunched s) ⟨hs, rfl, rfl, rfl⟩
    fun d f past h hf => h.inDirectory hr hf).mono (fun m _ new h => ⟨h.1, ?_⟩)
    fun _ _ _ he => he.inv
  obtain ⟨hnew, -, D, hD, -, hm⟩ := h
  simp [Disk.activeBuild, Disk.buildOf, Directory.build, hnew.active, hr, hD, hm]

end Launcher

end Updater

end PzServer
