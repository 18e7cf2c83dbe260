import PzServer.Updater.Recovery

/-!
# Staging and activation

The functions of `_stage_and_activate`, in order. Between them the disk goes through `Downloading`,
`Validated`, `Promoting` and `Activating`, each of which is `Unselected` and more, so that every
error handler on the way finds what it needs; `Selected` is the other side of the switch. The facts
that permit the switch are collected in the moves made so far, by `Cleared` and `BackedUp`.
-/

namespace PzServer

namespace Updater

open Interaction

variable {α : Type} {op : Operation} {start s : Disk} {past : List UpdaterMove}
  {ok : α → List UpdaterMove → Disk → Prop} {err : Err → List UpdaterMove → Disk → Prop}

/-! ### The update transaction -/

section Transaction

variable {active : Option Release} {build : Option ℕ} {c : UpdateConfiguration}
  {current : Option SteamBuildMetadata} {latest : ℕ} {state : Record} {validate : Bool}

/-- Recording the failure and raising it again. -/
theorem recordAndReraise_conforms {result : LastResult} {detail text : String} {block : Bool}
    {candidate : Option ℕ} {e : Err} (h : Unselected active build s)
    (hresult : ¬ result.Accepted) :
    Conforms op start (do
        let _ ← recordPreWorldFailure state current candidate result detail block
        (reraise e text : UpdaterM α)) ok (Fails (Unselected active build)) past s :=
  (recordPreWorldFailure_conforms h hresult).seq (fun _ _ _ _ hnew => reraise_conforms hnew)
    fun _ _ _ _ => id

theorem discardOldPrevious_conforms {release : Release} (h : Unselected (some release) build s) :
    Conforms op start (discardOldPrevious release)
      (fun _ _ new => Keeps (some release) build s new ∧ new.previous = none)
      (Fails (Keeps (some release) build s)) past s := by
  refine conforms_read_bind trivial (fun v _ hv _ _ => ?_) fun _ _ => h.keeps
  obtain rfl : v = s.previous := hv.1
  refine (removeIfPresent_conforms h fun path hp => ?_).seq (fun _ _ s' _ hkeeps => ?_)
    fun _ _ _ _ => id
  · have hne : path ≠ release := by simpa using (Option.filter_eq_some_iff.mp hp).2
    exact fun hc => hne (Option.some.inj hc).symm
  · have hnew : Keeps (some release) build s { s' with previous := none } :=
      ⟨hkeeps.1, hkeeps.2.forgetPrevious⟩
    refine conforms_ask (by simp) (by simp) (fun reply new he => ?_) (fun _ new he => ?_)
      fun e new he => ?_
    · cases reply with
      | ok => exact he ▸ .forgetPrevious hkeeps.2.uncommitted
      | error =>
        obtain rfl := he
        exact .same _
    · exact he ▸ ⟨hnew, rfl⟩
    · exact he ▸ hkeeps

theorem checkPreconditions_conforms (h : Unselected active build s) :
    Conforms op start (checkPreconditions active current latest state)
      (fun _ past' new => Keeps active build s new ∧ new.previous = none ∧
        Seen .gameServerRunning (.ok false) past')
      (Fails (Unselected active build)) past s := by
  unfold checkPreconditions
  refine conforms_read_bind trivial (fun running past' _ _ hseen => ?_) fun _ _ => h
  cases running with
  | true =>
    exact (recordPreWorldFailure_conforms h (by simp [LastResult.Accepted])).seq
      (fun _ _ _ _ hnew => World.ensures_throw hnew) fun _ _ _ _ => id
  | false =>
    have hspace : ∀ past'' s', Keeps active build s s' ∧ s'.previous = none →
        Conforms op start (ask (.requireCandidateSpace current))
          (fun _ _ new => Keeps active build s new ∧ new.previous = none)
          (Fails (Keeps active build s)) past'' s' :=
      fun _ _ hkeeps => conforms_read trivial (fun _ _ => hkeeps) fun _ _ => hkeeps.1
    refine exceptOn_conforms (?_ : Conforms op start _
      (fun _ _ new => Keeps active build s new ∧ new.previous = none)
      (Fails (Keeps active build s)) past' s) ?_ ?_ ?_
    · cases active with
      | none => exact hspace _ _ ⟨h.keeps, h.inv.previous_of_first h.active_eq⟩
      | some release =>
        exact (discardOldPrevious_conforms h).seq (fun _ _ _ _ hkeeps => hspace _ _ hkeeps)
          fun _ _ _ _ => id
    · exact fun _ _ _ hsuf hkeeps => ⟨hkeeps.1, hkeeps.2, hseen.mono hsuf⟩
    · exact fun e _ _ _ he _ =>
        recordAndReraise_conforms he.2 (by simp [LastResult.Accepted])
    · exact fun _ _ _ _ he => he.2

/-- A disk on which `candidate` is being downloaded. -/
structure Downloading (active : Option Release) (build : Option ℕ) (candidate : Release)
    (s : Disk) : Prop extends Unselected active build s where
  downloading : s.state = .downloadingCandidate
  candidate_ne : active ≠ some candidate

theorem Downloading.of_keeps {candidate : Release} {new : Disk}
    (h : Downloading active build candidate s) (hnew : Keeps active build s new) :
    Downloading active build candidate new where
  toUnselected := hnew.2
  downloading := by
    have := h.downloading
    simp only [Disk.state, Disk.loaded, hnew.1] at this ⊢
    exact this
  candidate_ne := h.candidate_ne

theorem beginDownload_conforms (h : Unselected active build s) (hsettled : s.state.Settled)
    (hforgotten : s.previous = none) (hstate : state.promotedRelease = none) :
    Conforms op start (beginDownload c current latest state)
      (fun candidate _ new => Downloading active build candidate new)
      (Fails (Unselected active build)) past s := by
  unfold beginDownload
  refine conforms_read_bind trivial (fun candidate _ _ _ _ => ?_) fun _ _ => h
  -- `mkdir` succeeds only on a new name, so the candidate is not the active release
  have hmkdir : ∀ past', Conforms op start (ask (.mkdir candidate))
      (fun _ _ new => active ≠ some candidate ∧ Keeps active build s new ∧ new.previous = none)
      (Fails (Unselected active build)) past' s := by
    intro past'
    have hne : s.releases candidate = none → active ≠ some candidate := by
      intro hnone hc
      obtain ⟨D, -, hD, -⟩ := h.inv.active_valid candidate (h.active_eq.trans hc)
      simp [hnone] at hD
    refine conforms_ask (by simp) (by simp) (fun reply new he => ?_) (fun _ new he => ?_)
      fun e new he => he ▸ h
    · cases reply with
      | ok => exact he.2 ▸ .directory _ (h.active_eq ▸ hne he.1) h.uncommitted
      | error =>
        obtain rfl := he
        exact .same _
    · obtain ⟨hnone, rfl⟩ := he
      exact ⟨hne hnone, ⟨rfl, h.setDirectory (hne hnone) _⟩, hforgotten⟩
  refine (exceptOn_conforms (hmkdir _) (fun _ _ _ _ => id) (fun e _ _ _ he _ => ?_)
    fun _ _ _ _ => id).seq (fun _ _ s₁ _ h₁ => ?_) fun _ _ _ _ => id
  · exact (recordPreWorldFailure_conforms he (by simp [LastResult.Accepted])).seq
      (fun _ _ _ _ hnew => World.ensures_throw hnew) fun _ _ _ _ => id
  obtain ⟨hne, ⟨hrecord, h₁⟩, hforgotten₁⟩ := h₁
  have hsettled₁ : s₁.state.Settled := by simpa [Disk.state, Disk.loaded, hrecord] using hsettled
  refine .seq (exceptOn_conforms (?_ : Conforms op start _
    (fun _ _ new => Downloading active build candidate new) (Fails (Unselected active build)) _ s₁)
    (fun _ _ _ _ => id) (fun e _ _ _ he _ => ?_) fun _ _ _ _ => id)
    (fun _ _ _ _ hnew => World.ensures_pure hnew) fun _ _ _ _ => id
  · refine conforms_read_bind trivial (fun checkedAt _ _ _ _ => ?_) fun _ _ => h₁
    refine conforms_read_bind trivial (fun now _ _ _ _ => ?_) fun _ _ => h₁
    refine .seq (writeState_unselected h₁ (.download hsettled₁ rfl rfl hstate (h₁.active_eq ▸ hne)
      hforgotten₁)
      (by simp [StateName.Committed]) (by simp) fun _ _ hnew => ?_)
      (fun _ _ _ _ hnew => World.ensures_pure hnew) fun _ _ _ _ => id
    exact ⟨hnew, rfl, hne⟩
  · exact (rmtreeIgnoringErrors_conforms he hne).seq
      (fun _ _ _ _ hnew => World.ensures_throw hnew.2) fun _ _ _ _ => False.elim

theorem download_conforms {candidate : Release} (h : Downloading active build candidate s) :
    Conforms op start (download c candidate current latest state validate)
      (fun _ _ new => Downloading active build candidate new) (Fails (Unselected active build))
      past s := by
  -- Steam may leave anything in the candidate directory, and raise anything
  have hinstall : Conforms op start
      (ask (.install candidate c.steamBranch c.branchPassword validate))
      (fun _ _ new => Keeps active build s new) (Fails (Keeps active build s)) past s := by
    refine conforms_ask (by simp) (by simp) (fun reply new he => ?_) (fun _ new he => ?_)
      fun e new he => ?_
    all_goals obtain ⟨D, rfl⟩ := he
    · exact h.change_inDirectory h.candidate_ne _
    · exact h.keeps.inDirectory h.candidate_ne _
    · exact h.keeps.inDirectory h.candidate_ne _
  refine World.Ensures.handle hinstall (fun _ _ _ _ hkeeps => h.of_keeps hkeeps)
    fun e _ s' _ he => ?_
  refine (rmtreeIgnoringErrors_conforms he.2 h.candidate_ne).seq (fun _ _ _ _ hnew => ?_)
    fun _ _ _ _ => False.elim
  exact recordAndReraise_conforms hnew.2 (by simp [LastResult.Accepted])

/-- A candidate that passed launcher validation with the build Steam reported. -/
structure Validated (active : Option Release) (build : Option ℕ) (candidate : Release)
    (m : SteamBuildMetadata) (past : List UpdaterMove) (s : Disk) : Prop
    extends Downloading active build candidate s where
  directory : ∃ D, s.releases candidate = some D ∧ D.validated = true ∧ D.manifest = some m
  inspected : ∃ xms xmx, Seen (.inspectLauncher candidate xms xmx) (.ok m) past

theorem Validated.mono {candidate : Release} {m : SteamBuildMetadata} {past' : List UpdaterMove}
    (h : Validated active build candidate m past s) (hsuf : past <:+ past') :
    Validated active build candidate m past' s where
  toDownloading := h.toDownloading
  directory := h.directory
  inspected := by
    obtain ⟨xms, xmx, hseen⟩ := h.inspected
    exact ⟨xms, xmx, hseen.mono hsuf⟩

theorem validateCandidate_conforms {candidate : Release}
    (h : Downloading active build candidate s) :
    Conforms op start (validateCandidate c candidate current latest state)
      (fun _ past' new => ∃ m, m.buildId = latest ∧ Validated active build candidate m past' new)
      (Fails (Unselected active build)) past s := by
  refine World.Ensures.handle (?_ : Conforms op start _ (fun _ past' new => ∃ m,
    m.buildId = latest ∧ Validated active build candidate m past' new)
    (Fails (Keeps active build s)) past s) (fun _ _ _ _ => id) fun e _ s' _ he => ?_
  · refine (launcherPrepare_conforms (P := Keeps active build s) h.keeps fun d f past hd _ =>
      ⟨hd.2.change_inDirectory h.candidate_ne f, hd.inDirectory h.candidate_ne f⟩).seq
      (fun m _ s' _ hm => ?_) fun _ _ _ _ => id
    obtain ⟨hkeeps, hseen, hD⟩ := hm
    split
    · exact World.ensures_throw hkeeps
    · rename_i hbuild
      exact World.ensures_pure
        ⟨m, not_not.mp hbuild,
          { h.of_keeps hkeeps with directory := hD, inspected := ⟨_, _, hseen⟩ }⟩
  · refine (rmtreeIgnoringErrors_conforms he.2 h.candidate_ne).seq (fun _ _ s' _ hnew => ?_)
      fun _ _ _ _ => False.elim
    cases e with
    | incompatible text =>
      exact (recordPreWorldFailure_conforms hnew.2 (by simp [LastResult.Accepted])).seq
        (fun _ _ _ _ hrecorded => World.ensures_throw hrecorded) fun _ _ _ _ => id
    | update | os | other =>
      exact recordAndReraise_conforms hnew.2 (by simp [LastResult.Accepted])

/-- The world was backed up, or there was nothing to back up. -/
def BackedUp (active : Option Release) (build : Option ℕ) (latest : ℕ)
    (past : List UpdaterMove) : Prop :=
  (∃ path, Seen (.createBackup build latest) (.ok path) past) ∨
    active = none ∧ Seen .worldHasState (.ok false) past

theorem createBackup_conforms {candidate : Release} (h : Unselected active build s)
    (hcandidate : active ≠ some candidate)
    (hbuild : current.map SteamBuildMetadata.buildId = build) :
    Conforms op start (createBackup candidate current latest state)
      (fun path past' new => new = s ∧ Seen (.createBackup build latest) (.ok path) past')
      (Fails (Unselected active build)) past s := by
  subst hbuild
  refine World.ensures_tryCatch (conforms_read trivial (fun path _ => ?_) fun e _ => ?_)
  · exact ⟨rfl, _, _, List.mem_cons_self⟩
  · refine (rmtreeIgnoringErrors_conforms h hcandidate).seq (fun _ _ _ _ hnew => ?_)
      fun _ _ _ _ => False.elim
    exact recordAndReraise_conforms hnew.2 (by simp [LastResult.Accepted])

theorem backUp_conforms {candidate : Release} (h : Unselected active build s)
    (hcandidate : active ≠ some candidate)
    (hbuild : current.map SteamBuildMetadata.buildId = build) :
    Conforms op start (backUp active candidate current latest state)
      (fun _ past' new => new = s ∧ BackedUp active build latest past')
      (Fails (Unselected active build)) past s := by
  have hcreate : ∀ past', Conforms op start (do
      let path ← createBackup candidate current latest state
      return some path) (fun _ past'' new => new = s ∧ BackedUp active build latest past'')
      (Fails (Unselected active build)) past' s := fun past' =>
    (createBackup_conforms h hcandidate hbuild).seq
      (fun path _ _ _ hp => World.ensures_pure ⟨hp.1, .inl ⟨path, hp.2⟩⟩) fun _ _ _ _ => id
  unfold backUp
  cases active with
  | some release => exact hcreate past
  | none =>
    refine conforms_read_bind trivial (fun needed _ _ _ hseen => ?_) fun _ _ => h
    cases needed with
    | true => exact hcreate _
    | false => exact World.ensures_pure ⟨rfl, .inr ⟨rfl, hseen⟩⟩

/-- The candidate has its final name `f`, and the record says so. -/
structure Activating (active : Option Release) (build : Option ℕ) (f : Release)
    (m : SteamBuildMetadata) (past : List UpdaterMove) (s : Disk) : Prop
    extends Unselected active build s where
  activating : s.state = .activating
  candidate : s.loaded.candidateRelease = some f
  candidateBuild : s.loaded.candidateBuild = some m.buildId
  previousRelease : s.loaded.previousRelease = active
  previousBuild : s.loaded.previousBuild = build
  directory : ∃ D, s.releases f = some D ∧ D.validated = true ∧ D.manifest = some m
  inspected : ∃ c xms xmx, Seen (.inspectLauncher c xms xmx) (.ok m) past ∧
    Seen (.promote c f) (.ok ()) past

/-- The record written before the rename, on the disk it was written to. -/
structure Promoting (active : Option Release) (build : Option ℕ) (candidate f : Release)
    (m : SteamBuildMetadata) (s : Disk) : Prop extends Unselected active build s where
  promoting : s.state = .promotingCandidate
  candidate_ne : active ≠ some candidate
  final_ne : active ≠ some f
  promoted : s.loaded.promotedRelease = some f
  candidateBuild : s.loaded.candidateBuild = some m.buildId
  previousRelease : s.loaded.previousRelease = active
  previousBuild : s.loaded.previousBuild = build
  worldOpened : s.loaded.worldOpened = some false
  directory : ∃ D, s.releases candidate = some D ∧ D.validated = true ∧ D.manifest = some m

theorem renameCandidate_conforms {candidate f : Release} {m : SteamBuildMetadata}
    (h : Promoting active build candidate f m s)
    (hinspected : ∃ xms xmx, Seen (.inspectLauncher candidate xms xmx) (.ok m) past) :
    Conforms op start (renameCandidate candidate f current latest state s.loaded)
      (fun r past' new => new.loaded = r ∧ Activating active build f m past' new)
      (Fails (Unselected active build)) past s := by
  obtain ⟨D, hD, hvalid, hmanifest⟩ := h.directory
  have hc := h.candidate_ne
  have hf := h.final_ne
  -- the rename makes two directories change hands, neither of them active
  let renamed := (s.setDirectory candidate none).setDirectory f (some D)
  have hrenamed : Unselected active build renamed :=
    (h.toUnselected.setDirectory hc none).setDirectory hf (some D)
  have hrename : Change op start past s renamed :=
    .rename (h.active_eq ▸ hc) (h.active_eq ▸ hf) hD h.uncommitted
  have heffect : ∀ new D', s.releases candidate = some D' →
      new = (s.setDirectory candidate none).setDirectory f (some D') → new = renamed := by
    rintro new D' hD' rfl
    obtain rfl : D = D' := by simpa [hD] using hD'
    rfl
  refine exceptOn_conforms (?_ : Conforms op start _ (fun r past' new =>
      new.loaded = r ∧ Activating active build f m past' new)
    (Fails (Unselected active build)) past s) (fun _ _ _ _ => id) (fun e _ s' _ he _ => ?_)
    fun _ _ _ _ => id
  · refine .bind (conforms_ask (by simp) (by simp) (fun reply new he => ?_) (fun v new he => ?_)
      fun e new he => ?_)
    · cases reply with
      | ok =>
        obtain ⟨D', hD', rfl⟩ := he
        exact heffect _ D' hD' rfl ▸ hrename
      | error =>
        obtain rfl | ⟨D', hD', rfl⟩ := he
        · exact .same _
        · exact heffect _ D' hD' rfl ▸ hrename
    · obtain ⟨D', hD', hnew⟩ := he
      obtain rfl := heffect new D' hD' hnew
      refine conforms_read_bind trivial (fun now past' _ hsuf _ => ?_) fun _ _ => hrenamed
      refine writeState_unselected hrenamed (.activate h.promoting rfl h.promoted.symm (by simp) rfl
        (h.previousRelease.trans h.active_eq.symm) (h.previousBuild.trans hrenamed.build_eq.symm)
        h.worldOpened) (by simp [StateName.Committed]) (fun _ => hf)
        fun past'' hsuf' hnew => ⟨rfl, ?_⟩
      obtain ⟨xms, xmx, hseen⟩ := hinspected
      have hmoved : Seen (.promote candidate f) (.ok ()) past' :=
        Seen.mono ⟨_, _, List.mem_cons_self⟩ hsuf
      exact {
        toUnselected := hnew
        activating := rfl
        candidate := rfl
        candidateBuild := h.candidateBuild
        previousRelease := h.previousRelease
        previousBuild := h.previousBuild
        directory := ⟨D, Disk.setDirectory_self _ _ _, hvalid, hmanifest⟩
        inspected := ⟨candidate, xms, xmx, (hseen.cons.mono hsuf).mono hsuf', hmoved.mono hsuf'⟩ }
    · obtain rfl | ⟨D', hD', hnew⟩ := he
      · exact h.toUnselected
      · exact heffect new D' hD' hnew ▸ hrenamed
  · refine (discardFailed_conforms he hc).seq (fun _ _ s₁ _ h₁ => ?_) fun _ _ _ _ he => he.2
    refine (discardFailed_conforms h₁.2 hf).seq (fun _ _ s₂ _ h₂ => ?_) fun _ _ _ _ he => he.2
    exact recordAndReraise_conforms h₂.2 (by simp [LastResult.Accepted])

theorem promoteCandidate_conforms {candidate : Release} {m : SteamBuildMetadata}
    {backupPath : Option String} (h : Validated active build candidate m past s)
    (hm : m.buildId = latest) (hbuild : current.map SteamBuildMetadata.buildId = build) :
    Conforms op start (promoteCandidate active candidate current latest state backupPath)
      (fun v past' new => new.loaded = v.2 ∧ Activating active build v.1 m past' new)
      (Fails (Unselected active build)) past s := by
  have h₀ := h.toUnselected
  subst hm
  unfold promoteCandidate
  refine conforms_read_bind trivial (fun f past₁ hf hsuf₁ _ => ?_) fun _ _ => h₀
  refine conforms_read_bind trivial (fun now past₂ _ hsuf₂ _ => ?_) fun _ _ => h₀
  have hf_ne : active ≠ some f := by
    intro hc
    obtain ⟨D, -, hD, -⟩ := h₀.inv.active_valid f (h₀.active_eq.trans hc)
    simp [hf.1] at hD
  refine .bind (writeState_unselected h₀ (.promote h.downloading rfl rfl rfl
    (h₀.active_eq ▸ h.candidate_ne) (h₀.active_eq ▸ hf_ne) h₀.active_eq.symm
    (hbuild.trans h₀.build_eq.symm) rfl) (by simp [StateName.Committed]) (by simp)
    fun past₃ hsuf₃ h₃ => ?_)
  have hinspected := (h.mono ((hsuf₁.trans hsuf₂).trans hsuf₃)).inspected
  refine (renameCandidate_conforms ⟨h₃, rfl, h.candidate_ne, hf_ne, rfl, rfl, rfl, hbuild, rfl,
    h.directory⟩ hinspected).seq (fun _ _ _ _ hnew => World.ensures_pure hnew) fun _ _ _ _ => id

/-- What an operation has been told before it stages build `latest`. -/
structure Cleared (op : Operation) (start : Disk) (active : Option Release) (build : Option ℕ)
    (latest : ℕ) (past : List UpdaterMove) : Prop where
  unmoved : active = start.active ∧ build = start.activeBuild
  config : ∃ c, op.updating = some c ∧ Seen (.latestBuild c.steamBranch) (.ok latest) past
  marker : Seen .markerExists (.ok false) past
  upgrade : ∀ b ∈ build, b ≤ latest

theorem Cleared.mono {past' : List UpdaterMove} (h : Cleared op start active build latest past)
    (hsuf : past <:+ past') : Cleared op start active build latest past' where
  unmoved := h.unmoved
  config := by
    obtain ⟨c, hc, hseen⟩ := h.config
    exact ⟨c, hc, hseen.mono hsuf⟩
  marker := h.marker.mono hsuf
  upgrade := h.upgrade

theorem BackedUp.mono {past' : List UpdaterMove} (h : BackedUp active build latest past)
    (hsuf : past <:+ past') : BackedUp active build latest past' := by
  rcases h with ⟨path, h⟩ | ⟨ha, h⟩
  · exact .inl ⟨path, h.mono hsuf⟩
  · exact .inr ⟨ha, h.mono hsuf⟩

theorem Activating.mono {f : Release} {m : SteamBuildMetadata} {past' : List UpdaterMove}
    (h : Activating active build f m past s) (hsuf : past <:+ past') :
    Activating active build f m past' s :=
  { h with
    inspected := by
      obtain ⟨c, xms, xmx, h₁, h₂⟩ := h.inspected
      exact ⟨c, xms, xmx, h₁.mono hsuf, h₂.mono hsuf⟩ }

/-- Everything the switch needs, put together. -/
theorem Activating.selectable {f : Release} {m : SteamBuildMetadata}
    (h : Activating active build f m past s)
    (hcleared : Cleared op start active build m.buildId past)
    (hserver : Seen .gameServerRunning (.ok false) past)
    (hbackup : BackedUp active build m.buildId past) : Selectable op start past s f m where
  state := h.activating
  candidate := h.candidate
  previous := h.previousRelease.trans h.active_eq.symm
  previousBuild := h.previousBuild.trans h.build_eq.symm
  candidateBuild := h.candidateBuild
  fresh := h.candidate ▸ h.waiting h.activating
  directory := h.directory
  unmoved := ⟨h.active_eq.trans hcleared.unmoved.1, h.build_eq.trans hcleared.unmoved.2⟩
  config := hcleared.config
  marker := hcleared.marker
  server := hserver
  inspected := h.inspected
  backup := by
    rw [h.active_eq, h.build_eq]
    exact hbackup
  upgrade := by
    rw [h.build_eq]
    exact hcleared.upgrade

/-- The candidate of the record `r` is the active release of `s`, and `s` is ready for the record
that says so. -/
structure Selected (r : Record) (s : Disk) : Prop where
  inv : Inv s
  state : s.state = .activating ∨ s.state = .pendingReadiness
  active : s.active = s.loaded.candidateRelease
  same : s.loaded.SameCandidate r
  worldOpened : r.worldOpened = s.loaded.worldOpened

theorem writePrevious_conforms (hs : Inv s) (hactive : s.active = active)
    (hd : s.state = .activating) : Conforms op start (writePrevious active)
      (fun _ _ new => Inv new ∧ new = { s with previous := active })
      (Fails fun new => Inv new ∧ new.record = s.record) past s := by
  have hforget : Change op start past s { s with previous := none } :=
    .forgetPrevious (by rw [hd]; exact id)
  cases active with
  | none =>
    refine conforms_ask (by simp) (by simp) (fun reply new he => ?_)
      (fun _ new he => ⟨he ▸ hforget.inv hs, he⟩) fun e new he => ⟨he ▸ hs, he ▸ rfl⟩
    cases reply with
    | ok => exact he ▸ hforget
    | error => exact he ▸ .same new
  | some a =>
    have hkeep : Change op start past s { s with previous := some a } := .keepPrevious hactive hd
    refine conforms_ask (by simp) (by simp) (fun _ new he => he.change hkeep)
      (fun _ new he => ⟨he ▸ hkeep.inv hs, he⟩) fun e new he => ?_
    rcases he with rfl | rfl
    · exact ⟨hs, rfl⟩
    · exact ⟨hkeep.inv hs, rfl⟩

theorem switchPointers_conforms {f : Release} {m : SteamBuildMetadata}
    (h : Activating active build f m past s)
    (hcleared : Cleared op start active build m.buildId past)
    (hserver : Seen .gameServerRunning (.ok false) past)
    (hbackup : BackedUp active build m.buildId past) :
    Conforms op start (switchPointers active f) (fun _ _ new => Selected s.loaded new)
      (Fails fun new => Inv new ∧ new.record = s.record) past s := by
  refine (writePrevious_conforms h.inv h.active_eq h.activating).seq (fun _ past' s' hsuf hs' => ?_)
    fun _ _ _ _ => id
  obtain ⟨hinv', hs'⟩ := hs'
  have h' : Activating active build f m past' s' := by
    subst hs'
    exact { h.mono hsuf with inv := hinv' }
  have hselect : Change op start past' s' { s' with active := some f } :=
    .select (h'.selectable (hcleared.mono hsuf) (hserver.mono hsuf) (hbackup.mono hsuf))
  have hinv := hselect.inv h'.inv
  have hrecord : s'.record = s.record := by rw [hs']
  have hloaded : s'.loaded = s.loaded := by rw [hs']; rfl
  refine conforms_ask (by simp) (by simp) (fun _ new he => he.change hselect) (fun _ new he => ?_)
    fun e new he => ?_
  · obtain rfl := he
    refine ⟨hinv, .inl h'.activating, h'.candidate.symm, ?_, ?_⟩
    · exact hloaded ▸ .refl _
    · exact congrArg Record.worldOpened hloaded.symm
  · rcases he with rfl | rfl
    · exact ⟨h'.inv, hrecord⟩
    · exact ⟨hinv, hrecord⟩

theorem activate_conforms {f : Release} {m : SteamBuildMetadata} (hm : m.buildId = latest)
    (h : Activating active build f m past s) (hcleared : Cleared op start active build latest past)
    (hserver : Seen .gameServerRunning (.ok false) past)
    (hbackup : BackedUp active build latest past) :
    Conforms op start (activate active f latest s.loaded) (fun _ _ new => Inv new) (Fails Inv)
      past s := by
  subst hm
  unfold activate
  have hpointers := switchPointers_conforms h hcleared hserver hbackup
  refine .seq (exceptOn_conforms hpointers (fun _ _ _ _ => id) (fun e _ s' _ he _ => ?_)
    fun e _ s' _ he => he.1) (fun _ past' s' _ hselected => ?_) fun _ _ _ _ => id
  · obtain ⟨hinv, hrecord⟩ := he
    have hloaded : s'.loaded = s.loaded := by simp [Disk.loaded, hrecord]
    have hactivating : s'.state = .activating := (congrArg Record.state hloaded).trans h.activating
    rw [← hloaded]
    refine (recoverActivation_conforms hinv hactivating).seq
      (fun r _ new _ hr => ?_) fun _ _ _ _ => id
    split
    · exact World.ensures_throw hr.1.inv
    · rename_i hpending
      have hdone := hr.2 (not_not.mp hpending)
      obtain rfl := hr.1.loaded
      refine World.ensures_pure ⟨hr.1.inv, .inr (not_not.mp hpending), ?_, hdone.same.symm,
        hdone.worldOpened.symm⟩
      rw [hr.1.active, hdone.active, hdone.same.release]
  · refine conforms_read_bind trivial (fun now _ _ _ _ => ?_) fun _ _ => hselected.inv
    refine writeState_inv hselected.inv (.pend hselected.state rfl hselected.active ?_
      hselected.worldOpened) fun _ _ hnew => hnew
    exact ⟨hselected.same.release, hselected.same.build, hselected.same.previousRelease,
      hselected.same.previousBuild, hselected.same.promoted⟩

theorem stageAndActivate_conforms (h : Unselected active build s) (hsettled : s.state.Settled)
    (hstate : state.promotedRelease = none)
    (hbuild : current.map SteamBuildMetadata.buildId = build)
    (hcleared : Cleared op start active build latest past) :
    Conforms op start (stageAndActivate c active current latest state validate)
      (fun _ _ new => Inv new) (Fails Inv) past s := by
  have hgive : ∀ e past' s', Fails (Unselected active build) e past' s' → Fails Inv e past' s' :=
    fun _ _ _ he => he.inv
  refine (checkPreconditions_conforms h).seq (fun _ past₁ s₁ hsuf₁ h₁ => ?_)
    fun e past' s' _ => hgive e past' s'
  obtain ⟨⟨hrecord, h₁⟩, hforgotten, hserver⟩ := h₁
  have hsettled₁ : s₁.state.Settled := by simpa [Disk.state, Disk.loaded, hrecord] using hsettled
  refine (beginDownload_conforms h₁ hsettled₁ hforgotten hstate).seq
    (fun candidate past₂ s₂ hsuf₂ h₂ => ?_)
    fun e past' s' _ => hgive e past' s'
  refine (download_conforms h₂).seq (fun _ past₃ s₃ hsuf₃ h₃ => ?_)
    fun e past' s' _ => hgive e past' s'
  refine (validateCandidate_conforms h₃).seq (fun _ past₄ s₄ hsuf₄ h₄ => ?_)
    fun e past' s' _ => hgive e past' s'
  obtain ⟨m, hm, h₄⟩ := h₄
  refine (backUp_conforms h₄.toUnselected h₄.candidate_ne hbuild).seq
    (fun path past₅ s₅ hsuf₅ h₅ => ?_) fun e past' s' _ => hgive e past' s'
  obtain ⟨rfl, hbackup⟩ := h₅
  refine (promoteCandidate_conforms (h₄.mono hsuf₅) hm hbuild).seq
    (fun v past₆ s₆ hsuf₆ h₆ => ?_) fun e past' s' _ => hgive e past' s'
  obtain ⟨f, activating⟩ := v
  obtain ⟨rfl, h₆⟩ := h₆
  have hserver₁ := hsuf₂.trans (hsuf₃.trans (hsuf₄.trans (hsuf₅.trans hsuf₆)))
  exact activate_conforms hm h₆ (hcleared.mono (hsuf₁.trans hserver₁)) (hserver.mono hserver₁)
    (hbackup.mono hsuf₆)

/-- Asking Steam, with the permission it needs. -/
theorem latestBuild_conforms {branch : String} (hquery : MayQuery op past s) :
    Conforms op start (ask (.latestBuild branch))
      (fun latest past' new => new = s ∧ Seen (.latestBuild branch) (.ok latest) past')
      (Fails fun new => new = s) past s := by
  refine World.ensures_ask fun choice hc => ?_
  refine ⟨⟨.same s, fun _ _ => hquery, by simp⟩, ?_⟩
  cases choice with
  | ok latest => exact ⟨rfl, _, _, List.mem_cons_self⟩
  | error e => rfl

/-- What the entry points know about a disk they may update: no transaction is open, and the
variables they read describe it. -/
structure Quiet (start : Disk) (active : Option Release) (current : Option SteamBuildMetadata)
    (state : Record) (s : Disk) : Prop where
  inv : Inv s
  settled : s.state.Settled
  loaded : s.loaded = state
  active_eq : s.active = active
  build_eq : s.activeBuild = current.map SteamBuildMetadata.buildId
  unmoved : active = start.active ∧ current.map SteamBuildMetadata.buildId = start.activeBuild

theorem Quiet.unselected (h : Quiet start active current state s) :
    Unselected active (current.map SteamBuildMetadata.buildId) s where
  inv := h.inv
  active_eq := h.active_eq
  build_eq := h.build_eq
  uncommitted := h.settled.not_committed
  waiting := fun hc => by
    have := h.settled
    rw [hc] at this
    exact this.elim

theorem Quiet.released (h : Quiet start active current state s) :
    state.candidateRelease = none ∧ state.promotedRelease = none :=
  h.loaded ▸ h.inv.settled h.settled

theorem recordNoUpdate_conforms {build : Option ℕ} (h : Quiet start active current state s) :
    Conforms op start (recordNoUpdate c build state) (fun _ _ new => Inv new) (Fails Inv)
      past s := by
  refine conforms_read_bind trivial (fun checkedAt _ _ _ _ => ?_) fun _ _ => h.inv
  refine conforms_read_bind trivial (fun now _ _ _ _ => ?_) fun _ _ => h.inv
  have hu := h.unselected
  exact writeState_inv h.inv (.settle hu.uncommitted hu.waiting trivial h.released.1 h.released.2
    (by simp [LastResult.Accepted])) fun _ _ hnew => hnew

theorem writeObservation_conforms {result : LastResult} (h : Quiet start active current state s)
    (hresult : ¬ result.Accepted) :
    Conforms op start (writeObservation c state current result) (fun _ _ new => Inv new)
      (Fails Inv) past s := by
  refine conforms_read_bind trivial (fun now _ _ _ _ => ?_) fun _ _ => h.inv
  have hu := h.unselected
  refine writeState_inv h.inv (.settle hu.uncommitted hu.waiting ?_ h.released.1 h.released.2
    (by simpa using hresult)) fun _ _ hnew => hnew
  cases current <;> trivial

theorem checkAndUpdate_conforms {allowBlocked : Bool} (h : Quiet start active current state s)
    (hop : op.updating = some c) (hquery : MayQuery op past s) :
    Conforms op start (checkAndUpdate c active current state validate allowBlocked)
      (fun _ _ new => Inv new) (Fails Inv) past s := by
  have hu := h.unselected
  unfold checkAndUpdate
  refine .seq (exceptOn_conforms (latestBuild_conforms hquery) (fun _ _ _ _ => id)
    (fun e _ s' _ he _ => ?_) fun e _ s' _ he => he ▸ h.inv)
    (fun latest past' s' hsuf hlatest => ?_) fun _ _ _ _ he => he
  · obtain rfl := he
    exact (recordPreWorldFailure_conforms hu (by simp [LastResult.Accepted])).seq
      (fun _ _ _ _ hnew => World.ensures_throw hnew.inv) fun _ _ _ _ he => he.inv
  · obtain ⟨rfl, hseen⟩ := hlatest
    dsimp only
    split
    · exact recordNoUpdate_conforms h
    · rename_i hcurrent
      split
      · exact (recordPreWorldFailure_conforms hu (by simp [LastResult.Accepted])).seq
          (fun _ _ _ _ hnew => World.ensures_throw hnew.inv)
          fun _ _ _ _ he => he.inv
      · rename_i hdowngrade
        split
        · exact World.ensures_throw h.inv
        · refine stageAndActivate_conforms hu h.settled h.released.2 rfl
            ⟨h.unmoved, ⟨c, hop, hseen⟩, hquery.marker.mono hsuf, fun b hb => ?_⟩
          rw [Option.mem_def.mp hb] at hdowngrade
          simpa using hdowngrade

end Transaction

end Updater

end PzServer
