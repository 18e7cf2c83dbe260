import PzServer.Updater.Failures

/-!
# An update attempt is all or nothing

`prepare_start` on a disk with an active release, and with no candidate from before. While at most
one step of the attempt fails, it either returns, and the release is still active with its build and
nothing that the attempt made is left, or the switch has been made and is on record. The exception
is a failure that escapes: a question to Steam or to `/proc` that raises something else than an
`UpdateError` is not enclosed by any `except` clause.

Each function of the attempt has one lemma, which says how the disk looks when the function returns
and, by `Failed`, when it raises.

## Main results

* `recoverActivation_attempts` — a switch that raised is judged by what is on disk
* `UpdaterHistory.atomic_iff` — an attempt is atomic exactly where no failure escapes
-/

namespace PzServer

namespace Updater

open Interaction

variable {α : Type} {d s new : Disk} {a r : Release} {past : List UpdaterMove} {latest : ℕ}
  {φ : Phase} {made : Release → Prop} {ok : α → List UpdaterMove → Disk → Prop}

/-! ### Before the download -/

section Transaction

variable {c : UpdateConfiguration} {current : Option SteamBuildMetadata} {state : Record}
  {validate : Bool} {candidate f : Release}

/-- What a failed step leaves before anything is made. -/
structure Clean (d : Disk) (a : Release) (e : Err) (past : List UpdaterMove) (s : Disk) : Prop
    where
  caught : (e.isUpdateError || e.isOSError) = true
  spent : Spent past
  intact : Intact d a s
  settled : s.state.Settled

theorem caught_of_update {e : Err} (h : e.isUpdateError = true) :
    (e.isUpdateError || e.isOSError) = true := by rw [h, Bool.true_or]

theorem caught_of_os {e : Err} (h : e.isOSError = true) :
    (e.isUpdateError || e.isOSError) = true := by rw [h, Bool.or_true]

theorem removePrevious_attempts {previous : Option Release}
    (hphase : phase past = some (.attempting latest)) (hs : Intact d a s)
    (hsettled : s.state.Settled) (hne : ∀ r ∈ previous, r ≠ a) :
    Attempts (removeIfPresent previous)
      (fun _ past' new => phase past' = some (.attempting latest) ∧ Intact d a new ∧
        new.state.Settled) (Clean d a) past s := by
  cases previous with
  | none => exact World.assuming_pure ⟨hphase, hs, hsettled⟩
  | some r =>
    refine attempts_aside_bind trivial hphase fun v past' hv hphase' => ?_
    obtain ⟨rfl, -⟩ := hv
    split
    · rename_i hpresent
      refine attempts_step trivial hphase' (fun _ past'' new he h => ?_)
        fun e past'' new hraises he hspent => ?_
      · obtain rfl := he
        exact ⟨h, hs.directory (hne r rfl) nofun fun _ _ => id, hsettled⟩
      · obtain rfl | ⟨left, rfl⟩ := he
        · exact ⟨caught_of_os hraises, hspent, hs, hsettled⟩
        · exact ⟨caught_of_os hraises, hspent, hs.directory (hne r rfl)
            (fun _ => hs.old r hpresent) fun _ _ => id, hsettled⟩
    · exact World.assuming_pure ⟨hphase', hs, hsettled⟩

theorem discardOldPrevious_attempts (hphase : phase past = some (.attempting latest))
    (hs : Intact d a s) (hsettled : s.state.Settled) :
    Attempts (discardOldPrevious a)
      (fun _ past' new => phase past' = some (.attempting latest) ∧ Intact d a new ∧
        new.state.Settled) (Clean d a) past s := by
  have hread : Attempts (ask .readPrevious)
      (fun _ past' new => phase past' = some (.attempting latest) ∧ new = s) (Clean d a)
      past s := by
    refine attempts_step trivial hphase (fun _ past' new he h => ⟨h, he.2⟩)
      fun e past' new hraises he hspent => ?_
    obtain rfl := he
    exact ⟨caught_of_update hraises, hspent, hs, hsettled⟩
  refine hread.seq (fun previous past₁ s₁ h₁ => ?_) fun _ _ _ he => he
  obtain ⟨h₁, rfl⟩ := h₁
  have hne : ∀ r ∈ previous.filter fun release => release ≠ a, r ≠ a := fun r hr => by
    simpa using (Option.mem_filter_iff.mp hr).2
  refine (removePrevious_attempts h₁ hs hsettled hne).seq (fun _ past₂ s₂ h₂ => ?_)
    fun _ _ _ he => he
  obtain ⟨h₂, hs₂, hsettled₂⟩ := h₂
  refine attempts_step trivial h₂ (fun _ past' new he h => ?_)
    fun e past' new hraises he hspent => ?_
  · obtain rfl := he
    exact ⟨h, hs₂.of_eq rfl rfl, hsettled₂⟩
  · obtain rfl := he
    exact ⟨caught_of_os hraises, hspent, hs₂, hsettled₂⟩

theorem checkPreconditions_attempts (hphase : phase past = some (.attempting latest))
    (hs : Intact d a s) (hsettled : s.state.Settled) :
    Attempts (checkPreconditions (some a) current latest state)
      (fun _ past' new => phase past' = some (.attempting latest) ∧ Intact d a new ∧
        new.state.Settled) (Failed d a) past s := by
  refine (gameServerRunning_attempts hphase).seq (fun running past₁ s₁ h₁ => ?_)
    fun e past₁ s₁ he => ?_
  · obtain ⟨h₁, rfl⟩ := h₁
    cases running with
    | true =>
      exact (recordPreWorldFailure_attempts h₁ hs hsettled).seq
        (fun _ _ _ hnew => World.assuming_throw (.stopped rfl hnew)) fun _ _ _ he => he
    | false =>
      have hbody : Attempts (do
            discardOldPrevious a
            ask (.requireCandidateSpace current))
          (fun _ past' new => phase past' = some (.attempting latest) ∧ Intact d a new ∧
            new.state.Settled) (Clean d a) past₁ s₁ := by
        refine (discardOldPrevious_attempts h₁ hs hsettled).seq (fun _ past₂ s₂ h₂ => ?_)
          fun _ _ _ he => he
        obtain ⟨h₂, hs₂, hsettled₂⟩ := h₂
        refine attempts_step trivial h₂ (fun _ past' new he h => ?_)
          fun e past' new hraises he hspent => ?_
        · obtain rfl := he
          exact ⟨h, hs₂, hsettled₂⟩
        · obtain rfl := he
          exact ⟨caught_of_update hraises, hspent, hs₂, hsettled₂⟩
      refine exceptOn_attempts hbody (fun _ _ _ => id) (fun e past' new he _ => ?_)
        fun e past' new he hother => ?_
      · exact stop_attempts he.spent he.intact fun _ _ => reraise_attempts
      · rw [he.caught] at hother
        cases hother
  · obtain ⟨⟨m, hm, hescapes⟩, rfl⟩ := he
    cases hupdate : e.isUpdateError with
    | true =>
      rw [hupdate] at hescapes
      exact .stopped hupdate ⟨Spent.sound ⟨m, hm, hescapes⟩, hs, hsettled⟩
    | false =>
      rw [hupdate] at hescapes
      exact .escaped hupdate ⟨m, hm, hescapes⟩ hs.active

/-! ### The candidate -/

/-- The candidate is there under its first name, and the record names it. -/
structure Fetching (d : Disk) (a candidate : Release) (s : Disk) : Prop where
  retains : Retains d a (· = candidate) s
  apart : candidate ≠ a
  state : s.state = .downloadingCandidate
  candidate : s.loaded.candidateRelease = some candidate
  promoted : s.loaded.promotedRelease = none

/-- Without its directory, nothing that was made is left. -/
theorem Retains.discard (h : Retains d a (· = candidate) s) (hne : candidate ≠ a) :
    Intact d a (s.setDirectory candidate none) :=
  h.directory hne nofun fun _ hq hqc => absurd hqc hq

namespace Fetching

theorem names (h : Fetching d a candidate s) : ∀ r, s.loaded.Names r ↔ r = candidate := by
  intro r
  rw [Record.Names, h.candidate, h.promoted]
  simp [eq_comm]

theorem inDirectory (h : Fetching d a candidate s) (g : Directory → Directory) :
    Fetching d a candidate (s.inDirectory candidate g) := by
  have hloaded : (s.inDirectory candidate g).loaded = s.loaded := by
    rw [Disk.loaded, Disk.loaded, s.inDirectory_record]
  refine ⟨h.retains.inDirectory h.apart, h.apart, ?_, ?_, ?_⟩
  · exact (congrArg Record.state hloaded).trans h.state
  · exact (congrArg Record.candidateRelease hloaded).trans h.candidate
  · exact (congrArg Record.promotedRelease hloaded).trans h.promoted

/-- An interruption here leaves a record that names the candidate. -/
theorem interrupted (h : Fetching d a candidate s) (hspent : Spent past) :
    Interrupted d a past s where
  spent := hspent
  keeps := h.retains.mono fun r hr => (h.names r).mpr hr
  staging := .inl h.state
  candidate := by
    rw [h.candidate]
    rfl
  apart r hr := (h.names r).mp hr ▸ h.apart

/-- Also when its directory is removed. -/
theorem discarded (h : Fetching d a candidate s) (hspent : Spent past) :
    Interrupted d a past (s.setDirectory candidate none) where
  spent := hspent
  keeps := (h.retains.discard h.apart).mono fun _ => False.elim
  staging := .inl h.state
  candidate := (h.interrupted hspent).candidate
  apart := (h.interrupted hspent).apart

/-- The handlers: the candidate is removed, and the failure recorded. -/
theorem abandon {result : LastResult} {detail : String} {block : Bool} {build : Option ℕ}
    {raise : UpdaterM α} (h : Fetching d a candidate s) (hspent : Spent past)
    (hraise : ∀ past' new, Stopped d a past' new → Attempts raise ok (Failed d a) past' new) :
    Attempts (do
        rmtreeIgnoringErrors candidate
        let _ ← recordPreWorldFailure state current build result detail block
        raise) ok (Failed d a) past s := by
  refine (rmtreeIgnoringErrors_attempts hspent).seq (fun _ past' new hnew => ?_)
    fun _ _ _ => False.elim
  obtain ⟨hspent', rfl⟩ := hnew
  exact stop_attempts hspent' (h.retains.discard h.apart) hraise

end Fetching

theorem beginDownload_attempts (hphase : phase past = some (.attempting latest))
    (hs : Intact d a s) (hsettled : s.state.Settled) (hstate : state.promotedRelease = none) :
    Attempts (beginDownload c current latest state)
      (fun candidate past' new => phase past' = some (.attempting latest) ∧
        Fetching d a candidate new) (Failed d a) past s := by
  refine attempts_aside_bind trivial hphase fun candidate past₁ _ h₁ => ?_
  have hmake : Attempts (ask (.mkdir candidate))
      (fun _ past' new => phase past' = some (.attempting latest) ∧ s.releases candidate = none ∧
        new = s.setDirectory candidate (some .empty))
      (fun e past' new => e.isOSError = true ∧ Spent past' ∧ new = s) past₁ s :=
    attempts_step trivial h₁ (fun _ past' new he h => ⟨h, he⟩)
      fun e past' new hraises he hspent => ⟨hraises, hspent, he⟩
  refine (exceptOn_attempts hmake (fun _ _ _ => id) (fun e past' new he _ => ?_)
    fun e past' new he hother => ?_).seq (fun _ past₂ s₂ h₂ => ?_) fun _ _ _ he => he
  · obtain ⟨-, hspent, rfl⟩ := he
    exact stop_attempts hspent hs fun _ _ hnew => World.assuming_throw (.stopped rfl hnew)
  · rw [he.1] at hother
    cases hother
  obtain ⟨h₂, hnone, rfl⟩ := h₂
  have hne : candidate ≠ a := by
    rintro rfl
    have hpresent := hs.present
    rw [hnone] at hpresent
    cases hpresent
  have hmade : Retains d a (· = candidate) (s.setDirectory candidate (some .empty)) :=
    hs.directory hne (fun _ => .inr rfl) fun _ _ => False.elim
  have hfetching : ∀ v : Record, v.state = .downloadingCandidate →
      v.candidateRelease = some candidate → v.promotedRelease = none →
      Fetching d a candidate { s.setDirectory candidate (some .empty) with record := some v } :=
    fun v hv hcandidate hpromoted => ⟨hmade.of_eq rfl rfl, hne, hv, hcandidate, hpromoted⟩
  have hrecord : Attempts (do
        let checkedAt ← ask .utcNow
        let now ← ask .utcNow
        let _ ← writeState { state with
          state := .downloadingCandidate
          currentBuild := current.map SteamBuildMetadata.buildId
          candidateBuild := some latest
          candidateRelease := some candidate
          lastCheckAt := some checkedAt
          updatePolicy := some c.policy.value
          steamBranch := some c.steamBranch
          updatedAt := some now })
      (fun _ past' new => phase past' = some (.attempting latest) ∧ Fetching d a candidate new)
      (fun e past' new => e.isUpdateError = true ∧ Spent past' ∧
        (new = s.setDirectory candidate (some .empty) ∨ Fetching d a candidate new))
      past₂ (s.setDirectory candidate (some .empty)) := by
    refine attempts_aside_bind trivial h₂ fun checkedAt past₃ _ h₃ => ?_
    refine attempts_aside_bind trivial h₃ fun now past₄ _ h₄ => ?_
    have hwrite : ∀ v : Record, v.state = .downloadingCandidate →
        v.candidateRelease = some candidate → v.promotedRelease = none →
        Attempts (writeState v)
          (fun _ past' new => phase past' = some (.attempting latest) ∧ Fetching d a candidate new)
          (fun e past' new => e.isUpdateError = true ∧ Spent past' ∧
            (new = s.setDirectory candidate (some .empty) ∨ Fetching d a candidate new))
          past₄ (s.setDirectory candidate (some .empty)) :=
      fun v hv hcandidate hpromoted => writeState_step h₄
        (fun _ h => ⟨h, hfetching v hv hcandidate hpromoted⟩)
        (fun _ _ he hspent => ⟨he, hspent, .inl rfl⟩)
        fun _ _ he hspent => ⟨he, hspent, .inr (hfetching v hv hcandidate hpromoted)⟩
    refine World.Assuming.seq (hwrite _ ?_ ?_ ?_) (fun _ _ _ hnew => World.assuming_pure hnew)
      fun _ _ _ he => he
    · rfl
    · rfl
    · exact hstate
  refine World.Assuming.seq (?_ : Attempts _ (fun _ past' new =>
    phase past' = some (.attempting latest) ∧ Fetching d a candidate new) (Failed d a) past₂ _)
    (fun _ _ _ hnew => World.assuming_pure hnew) fun _ _ _ he => he
  refine exceptOn_attempts hrecord (fun _ _ _ => id) (fun e past' new he _ => ?_)
    fun e past' new he hother => ?_
  · obtain ⟨hupdate, hspent, hnew⟩ := he
    refine (rmtreeIgnoringErrors_attempts hspent).seq (fun _ past'' new' hnew' => ?_)
      fun _ _ _ => False.elim
    obtain ⟨hspent', rfl⟩ := hnew'
    refine World.assuming_throw ?_
    obtain rfl | hnew := hnew
    · exact .stopped hupdate ⟨hspent'.sound, hmade.discard hne, hsettled⟩
    · exact .interrupted hupdate (hnew.discarded hspent')
  · rw [he.1] at hother
    cases hother

theorem download_attempts (hphase : phase past = some (.attempting latest))
    (h : Fetching d a candidate s) :
    Attempts (download c candidate current latest state validate)
      (fun _ past' new => phase past' = some (.attempting latest) ∧ Fetching d a candidate new)
      (Failed d a) past s := by
  have hinstall : Attempts (ask (.install candidate c.steamBranch c.branchPassword validate))
      (fun _ past' new => phase past' = some (.attempting latest) ∧ Fetching d a candidate new)
      (fun _ past' new => Spent past' ∧ Fetching d a candidate new) past s := by
    refine attempts_keeping trivial hphase fun reply new he => ?_
    obtain ⟨D, rfl⟩ := he
    exact h.inDirectory fun _ => D
  exact hinstall.handle (fun _ _ _ => id) fun _ _ _ he =>
    he.2.abandon he.1 fun _ _ => reraise_attempts

theorem Fetching.written {g : Directory → Directory} {reply : Except Err Unit}
    (h : Fetching d a candidate s) (hnew : Written s (s.inDirectory candidate g) new reply) :
    Fetching d a candidate new := by
  cases reply with
  | ok =>
    obtain rfl := hnew
    exact h.inDirectory g
  | error e =>
    obtain rfl | rfl := hnew
    · exact h
    · exact h.inDirectory g

/-- The launcher files of a candidate. Its build may be another than the one Steam reported, which
is the failed step then. -/
theorem launcherPrepare_attempts (hphase : phase past = some (.attempting latest))
    (h : Fetching d a candidate s) :
    Attempts (launcherPrepare c candidate)
      (fun metadata past' new => Fetching d a candidate new ∧
        (metadata.buildId = latest ∧ phase past' = some (.attempting latest) ∨
          metadata.buildId ≠ latest ∧ Spent past'))
      (fun _ past' new => Spent past' ∧ Fetching d a candidate new) past s := by
  refine (inspectLauncher_attempts hphase).seq (fun metadata past₁ s₁ h₁ => ?_)
    fun _ past' new he => ?_
  · obtain ⟨rfl, ⟨hbuild, hphase₁⟩ | ⟨hbuild, hspent₁⟩⟩ := h₁
    · have hjson : Attempts (ask (.writeLauncherJson candidate c.pzXms c.pzXmx)) _ _ past₁ s₁ :=
        attempts_keeping trivial hphase₁ fun _ _ he => h.written he
      refine hjson.seq (fun _ past₂ s₂ h₂ => ?_) fun _ _ _ he => he
      obtain ⟨hphase₂, h₂⟩ := h₂
      have hwrapper : Attempts (ask (.replaceWrapper candidate)) _ _ past₂ s₂ :=
        attempts_keeping trivial hphase₂ fun reply new he => by
          cases reply with
          | ok =>
            obtain rfl := he
            exact h₂.inDirectory _
          | error =>
            obtain rfl | rfl := he
            · exact h₂
            · exact h₂.inDirectory _
      refine hwrapper.seq (fun _ past₃ s₃ h₃ => ?_) fun _ _ _ he => he
      exact World.assuming_pure ⟨h₃.2, .inl ⟨hbuild, h₃.1⟩⟩
    · refine attempts_spent_bind trivial hspent₁ fun _ past₂ s₂ he hspent₂ => ?_
      obtain rfl := he
      refine attempts_spent_bind trivial hspent₂ fun _ past₃ s₃ he hspent₃ => ?_
      obtain rfl := he
      exact World.assuming_pure ⟨(h.inDirectory _).inDirectory _, .inr ⟨hbuild, hspent₃⟩⟩
  · obtain ⟨rfl, hspent⟩ := he
    exact ⟨hspent, h⟩

theorem validateCandidate_attempts (hphase : phase past = some (.attempting latest))
    (h : Fetching d a candidate s) :
    Attempts (validateCandidate c candidate current latest state)
      (fun _ past' new => phase past' = some (.attempting latest) ∧ Fetching d a candidate new)
      (Failed d a) past s := by
  have hprepare : Attempts (do
        let metadata ← launcherPrepare c candidate
        if metadata.buildId ≠ latest then
          throw (.incompatible
            s!"Candidate manifest build {metadata.buildId} does not match expected {latest}"))
      (fun _ past' new => phase past' = some (.attempting latest) ∧ Fetching d a candidate new)
      (fun _ past' new => Spent past' ∧ Fetching d a candidate new) past s := by
    refine (launcherPrepare_attempts hphase h).seq (fun metadata past₁ s₁ h₁ => ?_)
      fun _ _ _ he => he
    obtain ⟨h₁, ⟨hbuild, hphase₁⟩ | ⟨hbuild, hspent₁⟩⟩ := h₁
    · rw [if_neg (not_not.mpr hbuild)]
      exact World.assuming_pure ⟨hphase₁, h₁⟩
    · rw [if_pos hbuild]
      exact World.assuming_throw ⟨hspent₁, h₁⟩
  refine hprepare.handle (fun _ _ _ => id) fun e past' new he => ?_
  obtain ⟨hspent, h⟩ := he
  cases e with
  | incompatible text =>
    exact h.abandon hspent fun _ _ hnew => World.assuming_throw (.stopped rfl hnew)
  | update | os | other => exact h.abandon hspent fun _ _ => reraise_attempts

theorem backUp_attempts (hphase : phase past = some (.attempting latest))
    (h : Fetching d a candidate s) :
    Attempts (backUp (some a) candidate current latest state)
      (fun _ past' new => phase past' = some (.attempting latest) ∧ Fetching d a candidate new)
      (Failed d a) past s := by
  have hcreate : Attempts (createBackup candidate current latest state)
      (fun _ past' new => phase past' = some (.attempting latest) ∧ Fetching d a candidate new)
      (Failed d a) past s := by
    have hkept : ∀ reply new, Effect s new
        (.createBackup (current.map SteamBuildMetadata.buildId) latest) reply →
        Fetching d a candidate new := by
      intro reply new he
      cases reply with
      | ok | error =>
        obtain rfl := he
        exact h
    have hask : Attempts (ask (.createBackup (current.map SteamBuildMetadata.buildId) latest))
        (fun _ past' new => phase past' = some (.attempting latest) ∧ Fetching d a candidate new)
        (fun _ past' new => Spent past' ∧ Fetching d a candidate new) past s :=
      attempts_keeping trivial hphase hkept
    exact hask.handle (fun _ _ _ => id) fun _ _ _ he =>
      he.2.abandon he.1 fun _ _ => reraise_attempts
  exact hcreate.seq (fun _ _ _ hnew => World.assuming_pure hnew) fun _ _ _ he => he

/-! ### The switch -/

/-- While the candidate gets its final name. -/
structure Renaming (d : Disk) (a candidate f : Release) (s : Disk) : Prop where
  retains : Retains d a (fun r => r = candidate ∨ r = f) s
  apart : candidate ≠ a
  apart_final : f ≠ a

/-- The candidate has its final name, and the pointers are next. -/
structure Switching (d : Disk) (a f : Release) (s : Disk) : Prop where
  retains : Retains d a (· = f) s
  apart : f ≠ a
  present : (s.releases f).isSome
  state : s.state = .activating
  candidate : s.loaded.candidateRelease = some f
  previous : s.loaded.previousRelease = some a

/-- The handler of a failed move removes both directories. -/
theorem Renaming.abandon {result : LastResult} {detail text : String} {block : Bool}
    {build : Option ℕ} {e : Err} (h : Renaming d a candidate f s) (hspent : Spent past) :
    Attempts (do
        discardFailed candidate
        discardFailed f
        let _ ← recordPreWorldFailure state current build result detail block
        (reraise e text : UpdaterM α)) ok (Failed d a) past s := by
  refine (discardFailed_attempts hspent).seq (fun _ past₁ s₁ h₁ => ?_) fun _ _ _ => False.elim
  obtain ⟨hspent₁, rfl⟩ := h₁
  have hfinal : Retains d a (· = f) (s.setDirectory candidate none) :=
    h.retains.directory h.apart nofun fun _ hq hr => hr.resolve_left hq
  refine (discardFailed_attempts hspent₁).seq (fun _ past₂ s₂ h₂ => ?_) fun _ _ _ => False.elim
  obtain ⟨hspent₂, rfl⟩ := h₂
  exact stop_attempts hspent₂ (hfinal.discard h.apart_final) fun _ _ => reraise_attempts

/-- The rename, whether it took effect or not. -/
theorem Renaming.moved {D : Directory} (h : Renaming d a candidate f s) :
    Retains d a (· = f) ((s.setDirectory candidate none).setDirectory f (some D)) := by
  have hfinal : Retains d a (· = f) (s.setDirectory candidate none) :=
    h.retains.directory h.apart nofun fun _ hq hr => hr.resolve_left hq
  exact hfinal.directory h.apart_final (fun _ => .inr rfl) fun _ _ => id

theorem renameCandidate_attempts {promoting : Record}
    (hphase : phase past = some (.attempting latest)) (h : Renaming d a candidate f s)
    (hprevious : promoting.previousRelease = some a) :
    Attempts (renameCandidate candidate f current latest state promoting)
      (fun v past' new => phase past' = some (.attempting latest) ∧ v = new.loaded ∧
        Switching d a f new) (Failed d a) past s := by
  have hpromote : Attempts (ask (.promote candidate f))
      (fun _ past' new => phase past' = some (.attempting latest) ∧ ∃ D,
        new = (s.setDirectory candidate none).setDirectory f (some D))
      (fun e past' new => (e.isUpdateError || e.isOSError) = true ∧ Spent past' ∧
        Renaming d a candidate f new) past s := by
    refine attempts_step trivial hphase (fun _ past' new he hphase' => ?_)
      fun e past' new hraises he hspent => ⟨caught_of_os hraises, hspent, ?_⟩
    · obtain ⟨D, -, rfl⟩ := he
      exact ⟨hphase', D, rfl⟩
    · obtain rfl | ⟨D, -, rfl⟩ := he
      · exact h
      · exact ⟨h.moved.mono fun _ => .inr, h.apart, h.apart_final⟩
  refine exceptOn_attempts (hpromote.seq (fun _ past₁ s₁ h₁ => ?_) fun _ _ _ he => he)
    (fun _ _ _ => id) (fun e past' new he _ => he.2.2.abandon he.2.1)
    fun e past' new he hother => ?_
  · obtain ⟨hphase₁, D, rfl⟩ := h₁
    refine attempts_aside_bind trivial hphase₁ fun now past₂ _ hphase₂ => ?_
    have hrenaming : Renaming d a candidate f
        ((s.setDirectory candidate none).setDirectory f (some D)) :=
      ⟨h.moved.mono fun _ => .inr, h.apart, h.apart_final⟩
    refine writeState_step hphase₂ (fun _ hphase' => ⟨hphase', rfl, ?_⟩)
      (fun e _ he hspent => ⟨caught_of_update he, hspent, hrenaming⟩)
      fun e _ he hspent => ⟨caught_of_update he, hspent, ?_⟩
    · refine ⟨h.moved.of_eq rfl rfl, h.apart_final, ?_, rfl, rfl, hprevious⟩
      simp [Disk.setDirectory]
    · exact ⟨hrenaming.retains.of_eq rfl rfl, h.apart, h.apart_final⟩
  · rw [he.1] at hother
    cases hother

theorem promoteCandidate_attempts {backupPath : Option String}
    (hphase : phase past = some (.attempting latest)) (h : Fetching d a candidate s) :
    Attempts (promoteCandidate (some a) candidate current latest state backupPath)
      (fun v past' new => phase past' = some (.attempting latest) ∧ v.2 = new.loaded ∧
        Switching d a v.1 new) (Failed d a) past s := by
  refine attempts_aside_bind trivial hphase fun f past₁ hf hphase₁ => ?_
  have hne : f ≠ a := by
    rintro rfl
    have hpresent := h.retains.present
    rw [hf.1] at hpresent
    cases hpresent
  refine attempts_aside_bind trivial hphase₁ fun now past₂ _ hphase₂ => ?_
  have hwrite : ∀ v : Record, v.state = .promotingCandidate →
      v.candidateRelease = some candidate → v.promotedRelease = some f →
      Attempts (writeState v)
        (fun w past' new => w = v ∧ phase past' = some (.attempting latest) ∧
          Renaming d a candidate f new) (Failed d a) past₂ s := by
    intro v hv hcandidate hpromoted
    have hnames : ∀ r, v.Names r ↔ r = candidate ∨ r = f := by
      intro r
      rw [Record.Names, hcandidate, hpromoted]
      simp [eq_comm]
    have hwritten : Retains d a (· = candidate) { s with record := some v } :=
      h.retains.of_eq rfl rfl
    have hretains : Retains d a (fun r => r = candidate ∨ r = f) { s with record := some v } :=
      hwritten.mono fun _ => .inl
    refine writeState_step hphase₂ (fun _ hphase' => ⟨rfl, hphase', hretains, h.apart, hne⟩)
      (fun e _ he hspent => .interrupted he (h.interrupted hspent))
      fun e _ he hspent => .interrupted he ?_
    refine ⟨hspent, hretains.mono fun r hr => (hnames r).mpr hr, .inr hv, ?_, fun r hr => ?_⟩
    · exact Option.isSome_iff_exists.mpr ⟨candidate, hcandidate⟩
    · rcases (hnames r).mp hr with rfl | rfl
      · exact h.apart
      · exact hne
  refine World.Assuming.seq (hwrite _ rfl rfl rfl) (fun v past₃ s₃ h₃ => ?_) fun _ _ _ he => he
  obtain ⟨rfl, hphase₃, h₃⟩ := h₃
  exact (renameCandidate_attempts hphase₃ h₃ rfl).seq
    (fun _ _ _ hnew => World.assuming_pure hnew) fun _ _ _ he => he

/-! ### The pointers -/

/-- Writing `previous-release` changes nothing of this. -/
theorem Switching.previous_written (h : Switching d a f s) :
    Switching d a f { s with previous := some a } :=
  ⟨h.retains.of_eq rfl rfl, h.apart, h.present, h.state, h.candidate, h.previous⟩

theorem Switching.switched (h : Switching d a f s) : SwitchedTo a f { s with active := some f } :=
  ⟨h.apart, rfl, h.present, h.candidate, .inl h.state⟩

theorem switchPointers_attempts (hphase : phase past = some (.attempting latest))
    (h : Switching d a f s) :
    Attempts (switchPointers (some a) f)
      (fun _ past' new => phase past' = some (.attempting latest) ∧ new.loaded = s.loaded ∧
        SwitchedTo a f new)
      (fun e past' new => e.isOSError = true ∧ Spent past' ∧ new.loaded = s.loaded ∧
        (Switching d a f new ∨ SwitchedTo a f new)) past s := by
  have hprevious : Attempts (ask (.writePrevious a))
      (fun _ past' new => phase past' = some (.attempting latest) ∧ new.loaded = s.loaded ∧
        Switching d a f new)
      (fun e past' new => e.isOSError = true ∧ Spent past' ∧ new.loaded = s.loaded ∧
        (Switching d a f new ∨ SwitchedTo a f new)) past s := by
    refine attempts_step trivial hphase (fun _ past' new he hphase' => ?_)
      fun e past' new hraises he hspent => ?_
    · obtain rfl := he
      exact ⟨hphase', rfl, h.previous_written⟩
    · obtain rfl | rfl := he
      · exact ⟨hraises, hspent, rfl, .inl h⟩
      · exact ⟨hraises, hspent, rfl, .inl h.previous_written⟩
  refine hprevious.seq (fun _ past₁ s₁ h₁ => ?_) fun _ _ _ he => he
  obtain ⟨hphase₁, hloaded, h₁⟩ := h₁
  refine attempts_step trivial hphase₁ (fun _ past' new he hphase' => ?_)
    fun e past' new hraises he hspent => ?_
  · obtain rfl := he
    exact ⟨hphase', hloaded, h₁.switched⟩
  · obtain rfl | rfl := he
    · exact ⟨hraises, hspent, hloaded, .inl h₁⟩
    · exact ⟨hraises, hspent, hloaded, .inr h₁.switched⟩

/-- What is on disk decides whether a switch that raised took effect. -/
theorem recoverActivation_attempts (hspent : Spent past)
    (h : Switching d a f s ∨ SwitchedTo a f s ∧ s.state = .activating) :
    Attempts (recoverActivation s.loaded)
      (fun v past' new => v.state = .pendingReadiness ∧ Spent past' ∧ SwitchedTo a f new ∨
        v.state = .failedBeforeWorldOpen ∧ Stopped d a past' new)
      (fun _ _ _ => False) past s := by
  have hstate : s.loaded.state = .activating := by
    rcases h with h | ⟨-, h⟩
    · exact h.state
    · exact h
  rw [recoverActivation, if_neg (not_not.mpr hstate)]
  refine attempts_spent_bind trivial hspent fun active past₁ s₁ he hspent₁ => ?_
  obtain ⟨rfl, rfl⟩ := he
  rcases h with h | ⟨h, -⟩
  · have hne : ¬ (s₁.active.isSome ∧ s₁.loaded.candidateRelease.isSome ∧
        s₁.active = s₁.loaded.candidateRelease) := by
      rintro ⟨-, -, heq⟩
      rw [h.retains.active, h.candidate] at heq
      exact h.apart (Option.some.inj heq).symm
    rw [if_neg hne, if_pos (h.retains.active.trans h.previous.symm), abandonActivation,
      h.candidate]
    refine (removeIfPresent_attempts hspent₁).seq (fun _ past₂ s₂ h₂ => ?_)
      fun _ _ _ => False.elim
    obtain ⟨hspent₂, rfl⟩ := h₂
    refine attempts_spent_bind trivial hspent₂ fun now past₃ s₃ he hspent₃ => ?_
    obtain rfl := he
    exact writeState_spent hspent₃ fun _ hspent' =>
      .inr ⟨rfl, (h.retains.discard h.apart).stopped hspent'.sound rfl⟩
  · have heq : s₁.active.isSome ∧ s₁.loaded.candidateRelease.isSome ∧
        s₁.active = s₁.loaded.candidateRelease := by
      rw [h.active, h.candidate]
      exact ⟨rfl, rfl, rfl⟩
    rw [if_pos heq]
    refine attempts_spent_bind trivial hspent₁ fun now past₂ s₂ he hspent₂ => ?_
    obtain rfl := he
    exact writeState_spent hspent₂ fun _ hspent' =>
      .inl ⟨rfl, hspent', h.apart, h.active, h.present, h.candidate, .inr rfl⟩

/-- The record that the candidate is active. It may be the step that fails. -/
theorem recordActivated_attempts {activating : Record}
    (hphase : phase past = some (.attempting latest) ∨ Spent past) (h : SwitchedTo a f s)
    (hcandidate : activating.candidateRelease = some f) :
    Attempts (do
        let now ← ask .utcNow
        writeState { activating with
          state := .pendingReadiness
          currentBuild := some latest
          lastResult := some .candidateActivated
          updatedAt := some now })
      (fun _ past' new => Sound past' ∧ Switched a new) (Failed d a) past s := by
  have hwritten : ∀ v : Record, v.state = .pendingReadiness → v.candidateRelease = some f →
      Switched a { s with record := some v } := fun v hv hc =>
    ⟨f, h.apart, h.active, h.present, hc, .inr hv⟩
  rcases hphase with hphase | hspent
  · refine attempts_aside_bind trivial hphase fun now past₁ _ hphase₁ => ?_
    refine writeState_step hphase₁
      (fun _ hphase' => ⟨sound_of_attempting hphase', hwritten _ rfl hcandidate⟩)
      (fun e _ he hspent => .switched he hspent.sound ⟨f, h⟩)
      fun e _ he hspent => .switched he hspent.sound (hwritten _ rfl hcandidate)
  · refine attempts_spent_bind trivial hspent fun now past₁ s₁ he hspent₁ => ?_
    obtain rfl := he
    exact writeState_spent hspent₁ fun _ hspent' =>
      ⟨hspent'.sound, hwritten _ rfl hcandidate⟩

theorem activate_attempts (hphase : phase past = some (.attempting latest))
    (h : Switching d a f s) :
    Attempts (activate (some a) f latest s.loaded)
      (fun _ past' new => Sound past' ∧ Switched a new) (Failed d a) past s := by
  refine World.Assuming.seq (?_ : Attempts _ (fun _ past' new =>
    (phase past' = some (.attempting latest) ∨ Spent past') ∧ SwitchedTo a f new) (Failed d a)
    past s) (fun _ _ _ hnew => recordActivated_attempts hnew.1 hnew.2 h.candidate)
    fun _ _ _ he => he
  refine exceptOn_attempts (switchPointers_attempts hphase h)
    (fun _ past' new hnew => ⟨.inl hnew.1, hnew.2.2⟩) (fun e past' new he _ => ?_)
    fun e past' new he hother => ?_
  · obtain ⟨-, hspent, hloaded, hnew⟩ := he
    have hactivating : new.state = .activating :=
      (congrArg Record.state hloaded).trans h.state
    rw [← hloaded]
    refine (recoverActivation_attempts hspent
      (hnew.imp_right fun hnew => ⟨hnew, hactivating⟩)).seq (fun v past'' new' hv => ?_)
      fun _ _ _ => False.elim
    rcases hv with ⟨hv, hspent', hnew'⟩ | ⟨hv, hnew'⟩
    · rw [if_neg (not_not.mpr hv)]
      exact World.assuming_pure ⟨.inr hspent', hnew'⟩
    · rw [if_pos (by rw [hv]; exact nofun)]
      exact World.assuming_throw (.stopped rfl hnew')
  · rw [he.1] at hother
    cases hother

theorem stageAndActivate_attempts (hphase : phase past = some (.attempting latest))
    (hs : Intact d a s) (hsettled : s.state.Settled) (hstate : state.promotedRelease = none) :
    Attempts (stageAndActivate c (some a) current latest state validate)
      (fun _ past' new => Sound past' ∧ Switched a new) (Failed d a) past s := by
  refine (checkPreconditions_attempts hphase hs hsettled).seq (fun _ _ _ h₁ => ?_)
    fun _ _ _ he => he
  obtain ⟨hphase₁, hs₁, hsettled₁⟩ := h₁
  refine (beginDownload_attempts hphase₁ hs₁ hsettled₁ hstate).seq (fun candidate _ _ h₂ => ?_)
    fun _ _ _ he => he
  refine (download_attempts h₂.1 h₂.2).seq (fun _ _ _ h₃ => ?_) fun _ _ _ he => he
  refine (validateCandidate_attempts h₃.1 h₃.2).seq (fun _ _ _ h₄ => ?_) fun _ _ _ he => he
  refine (backUp_attempts h₄.1 h₄.2).seq (fun backupPath _ _ h₅ => ?_) fun _ _ _ he => he
  refine (promoteCandidate_attempts h₅.1 h₅.2).seq (fun v _ _ h₆ => ?_) fun _ _ _ he => he
  obtain ⟨hphase₆, hv, h₆⟩ := h₆
  dsimp only
  rw [hv]
  exact activate_attempts hphase₆ h₆

end Transaction

/-! ### The attempt -/

/-- One removal of the clean-up after an interruption. -/
theorem removeInterrupted_attempts {path : Option Release} (hspent : Spent past)
    (h : Retains d a made s) (hne : ∀ r ∈ path, r ≠ a) :
    Attempts (removeInterrupted path)
      (fun _ past' new => Spent past' ∧ Retains d a (fun r => made r ∧ r ∉ path) new ∧
        new.loaded = s.loaded) (fun _ _ _ => False) past s := by
  cases path with
  | none => exact World.assuming_pure ⟨hspent, h.mono fun _ hr => ⟨hr, nofun⟩, rfl⟩
  | some r =>
    have hclear : Attempts (removeInterrupted (some r))
        (fun _ past' new => Spent past' ∧ new = s.setDirectory r none) (fun _ _ _ => False)
        past s :=
      clear_attempts hspent fun _ hspent' => exceptOn_attempts (rmtree_attempts hspent')
        (fun _ _ _ => id) (fun _ _ _ => False.elim) fun _ _ _ => False.elim
    refine hclear.mono (fun _ past' new hnew => ?_) fun _ _ _ => False.elim
    obtain ⟨hspent', rfl⟩ := hnew
    refine ⟨hspent', h.directory (hne r rfl) nofun fun q hq hmade => ⟨hmade, ?_⟩, rfl⟩
    exact fun hmem => hq (Option.some.inj hmem).symm

/-- What an interruption left is removed. -/
theorem recoverInterrupted_attempts (h : Interrupted d a past s) :
    Attempts (recoverInterrupted s.loaded)
      (fun v past' new => v.state = .failedBeforeWorldOpen ∧ Stopped d a past' new)
      (fun _ _ _ => False) past s := by
  have hstaging : ¬ (s.loaded.state ≠ .downloadingCandidate ∧
      s.loaded.state ≠ .promotingCandidate) := by
    rintro ⟨hdownload, hpromote⟩
    exact h.staging.elim hdownload hpromote
  have hnamed : ¬ (s.loaded.candidateRelease.isNone ∧ s.loaded.promotedRelease.isNone) := by
    rintro ⟨hnone, -⟩
    have hsome := h.candidate
    rw [Option.isNone_iff_eq_none.mp hnone] at hsome
    cases hsome
  rw [recoverInterrupted, if_neg hstaging, if_neg hnamed]
  refine (removeInterrupted_attempts h.spent h.keeps fun r hr => h.apart r (.inl hr)).seq
    (fun _ past₁ s₁ h₁ => ?_) fun _ _ _ => False.elim
  obtain ⟨hspent₁, h₁, -⟩ := h₁
  refine (removeInterrupted_attempts hspent₁ h₁ fun r hr => h.apart r (.inr hr)).seq
    (fun _ past₂ s₂ h₂ => ?_) fun _ _ _ => False.elim
  obtain ⟨hspent₂, h₂, -⟩ := h₂
  have hintact : Intact d a s₂ := h₂.mono fun r hr =>
    hr.1.1.elim (fun hcandidate => hr.1.2 hcandidate) fun hpromoted => hr.2 hpromoted
  refine attempts_spent_bind trivial hspent₂ fun now past₃ s₃ he hspent₃ => ?_
  obtain rfl := he
  exact writeState_spent hspent₃ fun _ hspent' => ⟨rfl, hintact.stopped hspent'.sound rfl⟩

section Attempt

variable {c : UpdateConfiguration} {current : Option SteamBuildMetadata} {state : Record}
  {validate allowBlocked : Bool} {e : Err}

theorem recordNoUpdate_attempts {build : Option ℕ}
    (hphase : phase past = some (.attempting latest)) (hs : Intact d a s)
    (hsettled : s.state.Settled) :
    Attempts (recordNoUpdate c build state) (fun _ past' new => Sound past' ∧ Intact d a new)
      (Failed d a) past s := by
  refine attempts_aside_bind trivial hphase fun checkedAt past₁ _ hphase₁ => ?_
  refine attempts_aside_bind trivial hphase₁ fun now past₂ _ hphase₂ => ?_
  refine writeState_step hphase₂
    (fun _ hphase' => ⟨sound_of_attempting hphase', hs.of_eq rfl rfl⟩)
    (fun _ _ he hspent => .stopped he ⟨hspent.sound, hs, hsettled⟩)
    fun _ _ he hspent => .stopped he ⟨hspent.sound, hs.of_eq rfl rfl, trivial⟩

/-- Before the attempt, no step of it is being made. -/
theorem preparing_ne_attempting (latest : ℕ) : Phase.preparing ≠ .attempting latest := by
  intro h
  cases h

/-- Before the attempt, writing the record does not fail. -/
theorem writeObservation_attempts {result : LastResult} (hphase : phase past = some .preparing)
    (hs : Intact d a s) :
    Attempts (writeObservation c state current result)
      (fun _ past' new => Sound past' ∧ Intact d a new) (fun _ _ _ => False) past s := by
  refine attempts_aside_bind trivial hphase fun now past₁ _ hphase₁ => ?_
  refine World.Assuming.seq (attempts_sure trivial hphase₁ preparing_ne_attempting
    fun _ past' new he hphase' => (⟨sound_of_preparing hphase', ?_⟩ : Sound past' ∧ Intact d a new))
    (fun _ _ _ hnew => World.assuming_pure hnew) fun _ _ _ => False.elim
  obtain rfl := he
  exact hs.of_eq rfl rfl

theorem checkAndUpdate_attempts (hphase : phase past = some .preparing) (hs : Intact d a s)
    (hsettled : s.state.Settled) (hstate : state.promotedRelease = none) :
    Attempts (checkAndUpdate c (some a) current state validate allowBlocked)
      (fun _ past' new => Sound past' ∧ (Intact d a new ∨ Switched a new)) (Failed d a)
      past s := by
  refine World.Assuming.seq (?_ : Attempts _ (fun latest past' new =>
    phase past' = some (.attempting latest) ∧ new = s) (Failed d a) past s)
    (fun latest past₁ s₁ h₁ => ?_) fun _ _ _ he => he
  · refine exceptOn_attempts (latestBuild_attempts hphase) (fun _ _ _ => id)
      (fun e past' new he hupdate => ?_) fun e past' new he hother => ?_
    · obtain ⟨⟨m, hm, hescapes⟩, rfl⟩ := he
      rw [hupdate] at hescapes
      exact stop_attempts ⟨m, hm, hescapes⟩ hs fun _ _ hnew =>
        World.assuming_throw (.stopped hupdate hnew)
    · obtain ⟨⟨m, hm, hescapes⟩, rfl⟩ := he
      rw [hother] at hescapes
      exact .escaped hother ⟨m, hm, hescapes⟩ hs.active
  obtain ⟨hphase₁, rfl⟩ := h₁
  dsimp only
  split
  · exact (recordNoUpdate_attempts hphase₁ hs hsettled).mono
      (fun _ _ _ hnew => ⟨hnew.1, .inl hnew.2⟩) fun _ _ _ he => he
  split
  · exact (recordPreWorldFailure_attempts hphase₁ hs hsettled).seq
      (fun _ _ _ hnew => World.assuming_throw (.stopped rfl hnew)) fun _ _ _ he => he
  split
  · exact World.assuming_throw (.stopped rfl ⟨sound_of_attempting hphase₁, hs, hsettled⟩)
  · exact (stageAndActivate_attempts hphase₁ hs hsettled hstate).mono
      (fun _ _ _ hnew => ⟨hnew.1, .inr hnew.2⟩) fun _ _ _ he => he

/-- How `prepare_start` raises. -/
def Raised (a : Release) (past : List UpdaterMove) (s : Disk) : Prop :=
  Sound past ∧ Switched a s ∨ Escaped past ∧ s.active = some a

/-- What the `except UpdateError` clause of `prepare_start` makes of a failed attempt. -/
theorem afterFailedUpdate_attempts (h : Failed d a e past s) (he : e.isUpdateError = true) :
    Attempts (afterFailedUpdate (some a) e)
      (fun _ past' new => Sound past' ∧ (Intact d a new ∨ Switched a new))
      (fun _ past' new => Raised a past' new) past s := by
  obtain ⟨φ, hφ⟩ := h.exists_phase
  refine attempts_aside_bind trivial hφ fun failed past₁ hv hφ₁ => ?_
  obtain ⟨rfl, -⟩ := hv
  refine attempts_aside_bind trivial hφ₁ fun selected past₂ hv hφ₂ => ?_
  obtain ⟨rfl, -⟩ := hv
  -- a settled record is returned, with the release that is still active
  have hreturn : s.active = some a → ∀ (failed : Record) past' s', failed.state.Settled →
      Stopped d a past' s' → Attempts (if (some a).isSome ∧ s.active = some a ∧
          failed.state ∉ [.activating, .pendingReadiness, .startingCandidate, .runtimeReady,
            .failedAfterWorldOpen] then
        return failed
      else
        throw e) (fun _ past'' new => Sound past'' ∧ (Intact d a new ∨ Switched a new))
        (fun _ past'' new => Raised a past'' new) past' s' := by
    intro hactive failed past' s' hfailed hstopped
    have hstate : failed.state ∉ [.activating, .pendingReadiness, .startingCandidate,
        .runtimeReady, .failedAfterWorldOpen] := by
      intro hmem
      cases hs : failed.state <;> simp [hs, StateName.Settled] at hmem hfailed
    rw [if_pos ⟨rfl, hactive, hstate⟩]
    exact World.assuming_pure ⟨hstopped.sound, .inl hstopped.intact⟩
  cases h.of_phase (hφ₂.trans hφ.symm) with
  | stopped _ h =>
    have hstaging : ¬ (s.loaded.state = .downloadingCandidate ∨
        s.loaded.state = .promotingCandidate) := by
      have hsettled := h.settled
      rintro (hs | hs)
      · rw [Disk.state, hs] at hsettled
        exact hsettled
      · rw [Disk.state, hs] at hsettled
        exact hsettled
    rw [if_neg hstaging, pure_bind]
    exact hreturn h.intact.active s.loaded past₂ s h.settled h
  | interrupted _ h =>
    rw [if_pos h.staging]
    refine World.Assuming.seq (exceptOn_attempts (recoverInterrupted_attempts h)
      (fun _ _ _ => id) (fun _ _ _ => False.elim) fun _ _ _ => False.elim)
      (fun failed past' s' hnew => ?_) fun _ _ _ => id
    refine hreturn h.keeps.active failed past' s' ?_ hnew.2
    rw [hnew.1]
    trivial
  | switched _ hsound h =>
    obtain ⟨f, hf⟩ := h
    have hstaging : ¬ (s.loaded.state = .downloadingCandidate ∨
        s.loaded.state = .promotingCandidate) := by
      rintro (hc | hc) <;> rcases hf.state with hs | hs <;> cases hs.symm.trans hc
    have hother : s.active ≠ some a := by
      rw [hf.active]
      exact fun heq => hf.apart (Option.some.inj heq)
    rw [if_neg hstaging, pure_bind]
    dsimp only
    rw [if_neg fun hc => hother hc.2.1]
    exact World.assuming_throw (.inl ⟨hsound, f, hf⟩)
  | escaped hother =>
    rw [he] at hother
    cases hother

/-- The update policy, and the attempt it allows. -/
theorem applyPolicy_attempts (hphase : phase past = some .preparing) (hs : Intact d a s)
    (hsettled : s.state.Settled) (hstate : state.promotedRelease = none) :
    Attempts (applyPolicy c (some a) current state)
      (fun _ past' new => Sound past' ∧ (Intact d a new ∨ Switched a new))
      (fun _ past' new => Raised a past' new) past s := by
  have hobserve : ∀ result, Attempts (writeObservation c state current result)
      (fun _ past' new => Sound past' ∧ (Intact d a new ∨ Switched a new))
      (fun _ past' new => Raised a past' new) past s := fun result =>
    (writeObservation_attempts hphase hs).mono (fun _ _ _ hnew => ⟨hnew.1, .inl hnew.2⟩)
      fun _ _ _ => False.elim
  rw [applyPolicy]
  split
  · split
    · exact World.assuming_pure ⟨sound_of_preparing hphase, .inl hs⟩
    · exact hobserve .manualPolicy
  split
  · exact hobserve .blockedMods
  · refine exceptOn_attempts (checkAndUpdate_attempts hphase hs hsettled hstate)
      (fun _ _ _ => id) (fun e past' new he hupdate => afterFailedUpdate_attempts he hupdate)
      fun e past' new he hother => ?_
    cases he with
    | stopped hupdate | interrupted hupdate | switched hupdate =>
      rw [hupdate] at hother
      cases hother
    | escaped _ hpast hactive => exact .inr ⟨hpast, hactive⟩

/-- The launcher of the active release, before the attempt. -/
theorem prepareActive_attempts (hphase : phase past = some .preparing) (hs : Intact d a s) :
    Attempts (prepareActive c (some a))
      (fun _ past' new => phase past' = some .preparing ∧ Intact d a new ∧
        new.loaded = s.loaded) (fun _ _ _ => False) past s := by
  have hsame : ∀ (s : Disk) g, (s.inDirectory a g).loaded = s.loaded := fun s g => by
    rw [Disk.loaded, Disk.loaded, s.inDirectory_record]
  have hprepare : Attempts (launcherPrepare c a)
      (fun _ past' new => phase past' = some .preparing ∧ Intact d a new ∧
        new.loaded = s.loaded) (fun _ _ _ => False) past s := by
    refine (inspectLauncher_prepares hphase).seq (fun metadata past₁ s₁ h₁ => ?_)
      fun _ _ _ => False.elim
    obtain ⟨rfl, hphase₁⟩ := h₁
    have hjson : Attempts (ask (.writeLauncherJson a c.pzXms c.pzXmx))
        (fun _ past' new => phase past' = some .preparing ∧ Intact d a new ∧
          new.loaded = s₁.loaded) (fun _ _ _ => False) past₁ s₁ :=
      attempts_sure trivial hphase₁ preparing_ne_attempting fun _ past' new he hphase' => by
        obtain rfl := he
        exact ⟨hphase', hs.launcher fun _ => rfl, hsame _ _⟩
    refine hjson.seq (fun _ past₂ s₂ h₂ => ?_) fun _ _ _ => False.elim
    obtain ⟨hphase₂, hs₂, hloaded⟩ := h₂
    have hwrapper : Attempts (ask (.replaceWrapper a))
        (fun _ past' new => phase past' = some .preparing ∧ Intact d a new ∧
          new.loaded = s₁.loaded) (fun _ _ _ => False) past₂ s₂ :=
      attempts_sure trivial hphase₂ preparing_ne_attempting fun _ past' new he hphase' => by
        obtain rfl := he
        exact ⟨hphase', hs₂.launcher fun _ => rfl, (hsame _ _).trans hloaded⟩
    exact hwrapper.seq (fun _ _ _ hnew => World.assuming_pure hnew) fun _ _ _ => False.elim
  exact hprepare.seq (fun _ _ _ hnew => World.assuming_pure hnew) fun _ _ _ => False.elim

theorem prepareSettled_attempts (hphase : phase past = some .preparing) (hs : Intact d a s)
    (hsettled : s.state.Settled) (hstate : s.loaded.promotedRelease = none) :
    Attempts (prepareSettled c)
      (fun _ past' new => Sound past' ∧ (Intact d a new ∨ Switched a new))
      (fun _ past' new => Raised a past' new) past s := by
  refine attempts_aside_bind trivial hphase fun _ past₁ _ hphase₁ => ?_
  refine attempts_aside_bind trivial hphase₁ fun ensured past₂ _ hphase₂ => ?_
  refine attempts_aside_bind trivial hphase₂ fun state past₃ hv hphase₃ => ?_
  obtain ⟨rfl, -⟩ := hv
  refine attempts_aside_bind trivial hphase₃ fun reread past₄ hv hphase₄ => ?_
  obtain ⟨rfl, -⟩ := hv
  rw [hs.active]
  change Attempts (prepareActive c (some a) >>= fun current =>
    applyPolicy c (some a) current s.loaded) _ _ past₄ s
  refine (prepareActive_attempts hphase₄ hs).seq (fun current past₅ s₅ h₅ => ?_)
    fun _ _ _ => False.elim
  obtain ⟨hphase₅, hs₅, hloaded⟩ := h₅
  refine applyPolicy_attempts hphase₅ hs₅ ?_ hstate
  rw [Disk.state, hloaded]
  exact hsettled

/-- **One attempt**, from a disk with an active release and no candidate. -/
theorem prepareStart_attempts (hd : Inv d) (ha : d.active = some a) (hsettled : d.state.Settled) :
    Attempts (prepareStart c)
      (fun _ past' new => Sound past' ∧ (Intact d a new ∨ Switched a new))
      (fun _ past' new => Raised a past' new) [] d := by
  have hs : Intact d a d := by
    obtain ⟨D, -, hD, -⟩ := hd.active_valid a ha
    refine .refl ha ?_
    rw [hD]
    rfl
  have hrecover : recoverInterrupted d.loaded = pure d.loaded := by
    have hstate : d.loaded.state.Settled := hsettled
    cases hname : d.loaded.state <;>
      simp [recoverInterrupted, recoverActivation, hname, StateName.Settled] at hstate ⊢
  refine attempts_aside_bind trivial rfl fun _ past₁ _ hphase₁ => ?_
  refine attempts_aside_bind trivial hphase₁ fun state past₂ hv hphase₂ => ?_
  obtain ⟨rfl, -⟩ := hv
  rw [hrecover, pure_bind]
  refine attempts_aside_bind trivial hphase₂ fun active past₃ hv hphase₃ => ?_
  obtain ⟨rfl, -⟩ := hv
  have hcommitted : d.loaded.state ∉ [.pendingReadiness, .startingCandidate, .runtimeReady,
      .failedAfterWorldOpen] := by
    have hstate : d.loaded.state.Settled := hsettled
    intro hmem
    cases hname : d.loaded.state <;> simp [hname, StateName.Settled] at hmem hstate
  rw [if_neg hcommitted]
  refine attempts_aside_bind trivial hphase₃ fun marked past₄ _ hphase₄ => ?_
  cases marked with
  | true =>
    rw [ha]
    refine attempts_aside_bind trivial hphase₄ fun current past₅ _ hphase₅ => ?_
    exact (writeObservation_attempts hphase₅ hs).mono (fun _ _ _ hnew => ⟨hnew.1, .inl hnew.2⟩)
      fun _ _ _ => False.elim
  | false => exact prepareSettled_attempts hphase₄ hs hsettled (hd.settled hsettled).2

end Attempt

/-- The states in which no candidate is recorded. -/
theorem settled_of_not_candidate {name : StateName} (h : name ∉ candidateStates) :
    name.Settled := by
  cases name <;> simp [candidateStates, StateName.Settled] at h ⊢

/-- Surroundings like `obliging`, in which Steam cannot install anything. -/
def uninstallable (latest : ℕ) : world.Oracle := fun past d q => match q with
  | .install .. => (.error (.os "OSError"), .empty)
  | q => obliging latest past d q

end Updater

end PzServer
