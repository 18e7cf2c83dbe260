import PzServer.Updater.Orphans

/-!
# Every directory is accounted for

The functions of the updater, one after the other: at each of their moves, every release directory
is named or an orphan. What a function has to know is which directories the record names; the
structures below say it for the stages of an update.

## Main results

* `stageAndActivate_tracks`, `prepareStart_tracks`, `explicitUpdate_tracks` — an update accounts for
  all directories
* `accept_tracks`, `failReadiness_tracks` — so do the operations after it
-/

namespace PzServer

namespace Updater

open Interaction

variable {α : Type} {s new : Disk} {past : List UpdaterMove} {r : Release}
  {ok : α → List UpdaterMove → Disk → Prop} {err : Err → List UpdaterMove → Disk → Prop}

/-! ### Small pieces -/

/-- Replacing the record by one that names as much. -/
theorem writeState_names {value : Record} (h : Tracked past s)
    (hnames : ∀ r, s.loaded.Names r → value.Names r) :
    Tracks (writeState value) (fun _ past' new => Tracked past' new) Tracking past s :=
  (writeState_tracks h fun r hr => .inl (hnames r hr)).mono (fun _ _ _ hnew => hnew.2.2)
    fun _ _ _ he => he.2

/-- The same, where the operation ends with it. -/
theorem writeState_ends {value : Record} {a : α} (h : Tracked past s)
    (hnames : ∀ r, s.loaded.Names r → value.Names r) :
    Tracks (writeState value >>= fun _ => pure a) (fun _ past' new => Tracked past' new) Tracking
      past s :=
  (writeState_names h hnames).seq (fun _ _ _ _ hnew => World.ensures_pure hnew)
    fun _ _ _ _ he => he

theorem exceptOn_tracks {catches : Err → Bool} {body : UpdaterM α} {handler : Err → UpdaterM α}
    {okp : α → List UpdaterMove → Disk → Prop} {errp : Err → List UpdaterMove → Disk → Prop}
    (h : Tracks body okp errp past s)
    (hok : ∀ a past' s', okp a past' s' → ok a past' s')
    (hhandler : ∀ e past' s', errp e past' s' → Tracks (handler e) ok err past' s')
    (hother : ∀ e past' s', errp e past' s' → err e past' s') :
    Tracks (exceptOn catches body handler) ok err past s := by
  refine World.Ensures.handle h (fun a past' s' _ => hok a past' s') fun e past' s' _ he => ?_
  split
  · exact hhandler e past' s' he
  · exact World.ensures_throw (hother e past' s' he)

theorem reraise_tracks {e : Err} {text : String} (h : Tracked past s) :
    Tracks (reraise e text : UpdaterM α) ok Tracking past s := by
  rw [reraise]
  split
  · exact World.ensures_throw h
  · exact World.ensures_throw h

theorem rmtreeIgnoringErrors_tracks (h : Tracked past s) :
    Tracks (rmtreeIgnoringErrors r)
      (fun _ past' new => Leads past s past' new ∧ (s.loaded.Names r → Tried r past' new))
      (fun _ _ _ => False) past s := by
  refine World.Ensures.handle (rmtree_tracks h) (fun _ _ _ _ hnew => ?_) fun _ _ _ _ hnew => ?_
  · exact ⟨hnew.1, fun _ => .of_none hnew.2⟩
  · exact World.ensures_pure hnew

theorem discardFailed_tracks (h : Tracked past s)
    (hnames : (s.releases r).isSome → s.loaded.Names r) :
    Tracks (discardFailed r)
      (fun _ past' new => Leads past s past' new ∧ Tried r past' new) Tracking past s := by
  refine tracks_read_bind trivial h (fun v past' hv h' => ?_) fun _ _ h' => h'.tracked
  obtain rfl : v = (s.releases r).isSome := hv.1
  split
  · rename_i hpresent
    refine (rmtreeIgnoringErrors_tracks h'.tracked).mono (fun _ past'' new hnew => ?_)
      fun _ _ _ => False.elim
    exact ⟨h'.trans hnew.1, hnew.2 (hnames hpresent)⟩
  · rename_i habsent
    exact World.ensures_pure ⟨h', fun hpresent => absurd hpresent habsent⟩

theorem removeIfPresent_tracks {path : Option Release} (h : Tracked past s) :
    Tracks (removeIfPresent path)
      (fun _ past' new => Leads past s past' new ∧ ∀ q ∈ path, new.releases q = none)
      (fun _ past' new => Leads past s past' new) past s := by
  cases path with
  | none => exact World.ensures_pure ⟨h.leads, nofun⟩
  | some q =>
    refine tracks_read_bind trivial h (fun v past' hv h' => ?_) fun _ _ h' => h'
    obtain rfl : v = (s.releases q).isSome := hv.1
    split
    · refine (rmtree_tracks h'.tracked).mono (fun _ past'' new hnew => ⟨h'.trans hnew.1, ?_⟩)
        fun _ _ _ hnew => h'.trans hnew.1
      intro q' hq'
      obtain rfl := Option.some.inj hq'
      exact hnew.2
    · rename_i habsent
      refine World.ensures_pure ⟨h', fun q' hq' => ?_⟩
      obtain rfl := Option.some.inj hq'
      simpa using habsent

theorem removeInterrupted_tracks {path : Option Release} (h : Tracked past s) :
    Tracks (removeInterrupted path)
      (fun _ past' new => Leads past s past' new ∧ ∀ q ∈ path, new.releases q = none)
      (fun _ past' new => Leads past s past' new) past s := by
  cases path with
  | none => exact World.ensures_pure ⟨h.leads, nofun⟩
  | some q =>
    refine tracks_read_bind trivial h (fun v past' hv h' => ?_) fun _ _ h' => h'
    obtain rfl : v = (s.releases q).isSome := hv.1
    split
    · refine exceptOn_tracks (rmtree_tracks h'.tracked) (fun _ past'' new hnew => ?_)
        (fun _ _ _ hnew => World.ensures_throw (h'.trans hnew.1)) fun _ _ _ hnew => h'.trans hnew.1
      refine ⟨h'.trans hnew.1, fun q' hq' => ?_⟩
      obtain rfl := Option.some.inj hq'
      exact hnew.2
    · rename_i habsent
      refine World.ensures_pure ⟨h', fun q' hq' => ?_⟩
      obtain rfl := Option.some.inj hq'
      simpa using habsent

theorem recordPreWorldFailure_tracks {state : Record} {current : Option SteamBuildMetadata}
    {candidate : Option ℕ} {result : LastResult} {detail : String} {block : Bool}
    (h : Tracked past s) (htried : ∀ r, s.loaded.Names r → Tried r past s) :
    Tracks (recordPreWorldFailure state current candidate result detail block)
      (fun _ past' new => Tracked past' new) Tracking past s := by
  refine tracks_read_bind trivial h (fun checkedAt past₁ _ h₁ => ?_) fun _ _ h' => h'.tracked
  refine tracks_read_bind trivial h₁.tracked (fun now past₂ _ h₂ => ?_) fun _ _ h' => h'.tracked
  have hdropped : ∀ r, s.loaded.Names r → Tried r past₂ s := fun r hr =>
    h₂.tried r (h₁.tried r (htried r hr))
  exact (writeState_tracks h₂.tracked fun r hr => .inr (.inr (.inr (hdropped r hr)))).mono
    (fun _ _ _ hnew => hnew.2.2) fun _ _ _ he => he.2

/-- Recording the failure and raising it again. -/
theorem recordAndReraise_tracks {state : Record} {current : Option SteamBuildMetadata}
    {candidate : Option ℕ} {result : LastResult} {detail text : String} {block : Bool} {e : Err}
    (h : Tracked past s) (htried : ∀ r, s.loaded.Names r → Tried r past s) :
    Tracks (do
        let _ ← recordPreWorldFailure state current candidate result detail block
        (reraise e text : UpdaterM α)) ok Tracking past s :=
  (recordPreWorldFailure_tracks h htried).seq (fun _ _ _ _ hnew => reraise_tracks hnew)
    fun _ _ _ _ he => he

/-! ### Recovery -/

theorem completeActivation_tracks (h : Tracked past s) :
    Tracks (completeActivation s.loaded)
      (fun _ past' new => Tracked past' new ∧ ∀ r, new.loaded.Names r → s.loaded.Names r)
      Tracking past s := by
  refine tracks_read_bind trivial h (fun now past₁ _ h₁ => ?_) fun _ _ h' => h'.tracked
  refine (writeState_tracks h₁.tracked fun r hr => .inl ?_).mono (fun v _ new hnew => ?_)
    fun _ _ _ he => he.2
  · exact hr
  · obtain ⟨-, rfl, htracked⟩ := hnew
    exact ⟨htracked, fun _ hr => hr⟩

theorem abandonActivation_tracks (h : Tracked past s) :
    Tracks (abandonActivation s.loaded)
      (fun v past' new => Tracked past' new ∧ v.state = .failedBeforeWorldOpen) Tracking
      past s := by
  refine (removeIfPresent_tracks h).seq (fun _ past₁ s₁ _ h₁ => ?_) fun _ _ _ _ h' => h'.tracked
  obtain ⟨h₁, hgone⟩ := h₁
  refine tracks_read_bind trivial h₁.tracked (fun now past₂ _ h₂ => ?_) fun _ _ h' => h'.tracked
  refine (writeState_tracks h₂.tracked fun r hr => ?_).mono (fun v _ new hnew => ?_)
    fun _ _ _ he => he.2
  · rw [h₁.shrunk.loaded] at hr
    rcases hr with hcandidate | hpromoted
    · exact .inr (.inr (.inr (.of_none (hgone r hcandidate))))
    · exact .inl (.inr hpromoted)
  · obtain ⟨rfl, -, htracked⟩ := hnew
    exact ⟨htracked, rfl⟩

/-- A recovery that completes the activation names what was named. -/
theorem recoverActivation_tracks (h : Tracked past s) :
    Tracks (recoverActivation s.loaded)
      (fun v past' new => Tracked past' new ∧
        (v.state = .pendingReadiness → ∀ r, new.loaded.Names r → s.loaded.Names r))
      Tracking past s := by
  rw [recoverActivation]
  split
  · exact World.ensures_pure ⟨h, fun _ _ hr => hr⟩
  · refine tracks_read_bind trivial h (fun active past₁ _ h₁ => ?_) fun _ _ h' => h'.tracked
    split
    · exact (completeActivation_tracks h₁.tracked).mono
        (fun _ _ _ hnew => ⟨hnew.1, fun _ => hnew.2⟩) fun _ _ _ he => he
    · split
      · refine (abandonActivation_tracks h₁.tracked).mono (fun v _ _ hnew => ⟨hnew.1, ?_⟩)
          fun _ _ _ he => he
        rw [hnew.2]
        intro hpending
        cases hpending
      · refine .bind (tracks_inert trivial h₁.tracked (fun reply new he => ?_)
          (fun never => never.elim) fun _ _ _ _ h' => h'.tracked)
        cases reply with
        | ok never => exact never.elim
        | error e =>
          obtain rfl := he
          exact .refl _

theorem recoverInterrupted_tracks (h : Tracked past s) :
    Tracks (recoverInterrupted s.loaded) (fun _ past' new => Tracked past' new) Tracking
      past s := by
  rw [recoverInterrupted]
  split
  · exact (recoverActivation_tracks h).mono (fun _ _ _ hnew => hnew.1) fun _ _ _ he => he
  · split
    · exact World.ensures_throw h
    · refine (removeInterrupted_tracks h).seq (fun _ past₁ s₁ _ h₁ => ?_)
        fun _ _ _ _ h' => h'.tracked
      obtain ⟨h₁, hcandidate⟩ := h₁
      refine (removeInterrupted_tracks h₁.tracked).seq (fun _ past₂ s₂ _ h₂ => ?_)
        fun _ _ _ _ h' => h'.tracked
      obtain ⟨h₂, hpromoted⟩ := h₂
      refine tracks_read_bind trivial h₂.tracked (fun now past₃ _ h₃ => ?_)
        fun _ _ h' => h'.tracked
      refine (writeState_tracks h₃.tracked fun r hr => .inr (.inr (.inr ?_))).mono
        (fun _ _ _ hnew => hnew.2.2) fun _ _ _ he => he.2
      -- both directories are gone, and the second removal brought neither back
      rw [h₂.shrunk.loaded, h₁.shrunk.loaded] at hr
      rcases hr with hr | hr
      · refine .of_none (Option.not_isSome_iff_eq_none.mp fun hpresent => ?_)
        have := h₂.shrunk.present r hpresent
        rw [hcandidate r hr] at this
        cases this
      · exact .of_none (hpromoted r hr)

/-! ### The update transaction -/

section Transaction

variable {active : Option Release} {c : UpdateConfiguration} {current : Option SteamBuildMetadata}
  {latest : ℕ} {state : Record} {validate : Bool} {candidate f : Release}

/-- Before an update: the record names nothing. -/
structure Unnamed (active : Option Release) (past : List UpdaterMove) (s : Disk) : Prop where
  tracked : Tracked past s
  active_eq : s.active = active
  blank : ∀ r, ¬ s.loaded.Names r

theorem Unnamed.leads {past' : List UpdaterMove} (h : Unnamed active past s)
    (h' : Leads past s past' new) : Unnamed active past' new where
  tracked := h'.tracked
  active_eq := h'.shrunk.active.trans h.active_eq
  blank r := by
    rw [h'.shrunk.loaded]
    exact h.blank r

/-- Forgetting the previous release, once it is gone. -/
theorem unlinkPrevious_tracks (h : Tracked past s)
    (hprevious : ∀ r, s.previous = some r → s.releases r = none ∨ s.active = some r) :
    Tracks (ask .unlinkPrevious)
      (fun _ past' new => Tracked past' new ∧ new = { s with previous := none })
      (fun _ past' new => Tracked past' new ∧ new = s) past s := by
  have hok : Tracked (⟨.unlinkPrevious, .ok (), s, { s with previous := none }⟩ :: past)
      { s with previous := none } := by
    intro r hr
    rcases h r hr with (hactive | hprev | hrecord) | horphan
    · exact .inl (.inl hactive)
    · rcases hprevious r hprev with hnone | hactive
      · have hpresent : (s.releases r).isSome := hr
        rw [hnone] at hpresent
        cases hpresent
      · exact .inl (.inl hactive)
    · exact .inl (.inr (.inr hrecord))
    · exact .inr horphan
  refine tracks_ask (fun reply new he => ?_) (fun _ new he => ?_) fun e new he => ?_
  · cases reply with
    | ok =>
      obtain rfl := he
      exact hok
    | error e =>
      obtain rfl := he
      exact h
  · obtain rfl := he
    exact ⟨hok, rfl⟩
  · obtain rfl := he
    exact ⟨h, rfl⟩

theorem discardOldPrevious_tracks {release : Release} (h : Unnamed (some release) past s) :
    Tracks (discardOldPrevious release)
      (fun _ past' new => Unnamed (some release) past' new ∧ new.previous = none)
      (fun _ past' new => Unnamed (some release) past' new) past s := by
  refine tracks_read_bind trivial h.tracked (fun v past₁ hv h₁ => ?_) fun _ _ h' => h.leads h'
  obtain rfl : v = s.previous := hv.1
  refine (removeIfPresent_tracks h₁.tracked).seq (fun _ past₂ s₂ _ h₂ => ?_)
    fun _ _ _ _ h' => h.leads (h₁.trans h')
  obtain ⟨h₂, hgone⟩ := h₂
  have hnew := h.leads (h₁.trans h₂)
  refine (unlinkPrevious_tracks hnew.tracked fun q hq => ?_).mono (fun _ _ _ h₃ => ?_)
    fun _ _ _ h₃ => ?_
  · -- the previous release is removed, unless it is the active one
    rw [h₂.shrunk.previous] at hq
    by_cases hactive : q = release
    · exact .inr (hactive ▸ hnew.active_eq)
    · exact .inl (hgone q (by simp [hq, hactive]))
  · obtain ⟨htracked, rfl⟩ := h₃
    exact ⟨⟨htracked, hnew.active_eq, hnew.blank⟩, rfl⟩
  · obtain ⟨htracked, rfl⟩ := h₃
    exact ⟨htracked, hnew.active_eq, hnew.blank⟩

theorem Unnamed.tried (h : Unnamed active past s) : ∀ r, s.loaded.Names r → Tried r past s :=
  fun r hr => absurd hr (h.blank r)

theorem checkPreconditions_tracks (h : Unnamed active past s)
    (hfirst : active = none → s.previous = none) :
    Tracks (checkPreconditions active current latest state)
      (fun _ past' new => Unnamed active past' new ∧ new.previous = none) Tracking past s := by
  refine tracks_read_bind trivial h.tracked (fun running past₁ _ h₁ => ?_)
    fun _ _ h' => h'.tracked
  replace h := h.leads h₁
  cases running with
  | true =>
    exact (recordPreWorldFailure_tracks h.tracked h.tried).seq
      (fun _ _ _ _ hnew => World.ensures_throw hnew) fun _ _ _ _ he => he
  | false =>
    have hspace : ∀ past' s', Unnamed active past' s' ∧ s'.previous = none →
        Tracks (ask (.requireCandidateSpace current))
          (fun _ past'' new => Unnamed active past'' new ∧ new.previous = none)
          (fun _ past'' new => Unnamed active past'' new) past' s' := by
      rintro past' s' ⟨hs', hnone⟩
      exact tracks_read trivial hs'.tracked (fun _ _ _ h' => ⟨hs'.leads h', hnone⟩)
        fun _ _ h' => hs'.leads h'
    refine exceptOn_tracks (?_ : Tracks _
      (fun _ past'' new => Unnamed active past'' new ∧ new.previous = none)
      (fun _ past'' new => Unnamed active past'' new) past₁ s) (fun _ _ _ hnew => hnew)
      (fun _ _ _ hnew => ?_) fun _ _ _ hnew => hnew.tracked
    · cases active with
      | none => exact hspace past₁ s ⟨h, hfirst rfl⟩
      | some release =>
        exact (discardOldPrevious_tracks h).seq (fun _ _ _ _ hnew => hspace _ _ hnew)
          fun _ _ _ _ he => he
    · exact recordAndReraise_tracks hnew.tracked hnew.tried

/-- While the candidate is staged: the record names it, and nothing else. -/
structure Staged (active : Option Release) (candidate : Release) (past : List UpdaterMove)
    (s : Disk) : Prop where
  tracked : Tracked past s
  active_eq : s.active = active
  forgotten : s.previous = none
  candidate_eq : s.loaded.candidateRelease = some candidate
  promoted_eq : s.loaded.promotedRelease = none

theorem Staged.leads {past' : List UpdaterMove} (h : Staged active candidate past s)
    (h' : Leads past s past' new) : Staged active candidate past' new where
  tracked := h'.tracked
  active_eq := h'.shrunk.active.trans h.active_eq
  forgotten := h'.shrunk.previous.trans h.forgotten
  candidate_eq := h'.shrunk.loaded ▸ h.candidate_eq
  promoted_eq := h'.shrunk.loaded ▸ h.promoted_eq

/-- The handlers: the candidate is removed, if that works, and the failure recorded. -/
theorem Staged.abandon {result : LastResult} {detail : String} {block : Bool} {build : Option ℕ}
    {raise : UpdaterM α} (h : Staged active candidate past s)
    (hraise : ∀ past' new, Tracked past' new → Tracks raise ok Tracking past' new) :
    Tracks (do
        rmtreeIgnoringErrors candidate
        let _ ← recordPreWorldFailure state current build result detail block
        raise) ok Tracking past s := by
  refine (rmtreeIgnoringErrors_tracks h.tracked).seq (fun _ past' new _ hnew => ?_)
    fun _ _ _ _ => False.elim
  refine (recordPreWorldFailure_tracks hnew.1.tracked fun r hr => ?_).seq
    (fun _ past'' new' _ h' => hraise past'' new' h') fun _ _ _ _ he => he
  rw [hnew.1.shrunk.loaded] at hr
  rcases hr with hr | hr
  · obtain rfl : candidate = r := Option.some.inj (h.candidate_eq.symm.trans hr)
    exact hnew.2 (.inl h.candidate_eq)
  · rw [h.promoted_eq] at hr
    cases hr

theorem beginDownload_tracks (h : Unnamed active past s) (hforgotten : s.previous = none)
    (hstate : state.promotedRelease = none) :
    Tracks (beginDownload c current latest state)
      (fun candidate past' new => Staged active candidate past' new) Tracking past s := by
  refine tracks_read_bind trivial h.tracked (fun candidate past₁ _ h₁ => ?_)
    fun _ _ h' => h'.tracked
  replace h := h.leads h₁
  refine .seq (exceptOn_tracks (mkdir_tracks h.tracked) (fun _ _ _ hnew => hnew)
    (fun _ past' new hnew => ?_) fun _ _ _ hnew => hnew.1) (fun _ past₂ s₂ _ h₂ => ?_)
    fun _ _ _ _ he => he
  · obtain ⟨htracked, rfl⟩ := hnew
    exact (recordPreWorldFailure_tracks htracked fun r hr => absurd hr (h.blank r)).seq
      (fun _ _ _ _ hnew => World.ensures_throw hnew) fun _ _ _ _ he => he
  obtain ⟨htracked, -, rfl⟩ := h₂
  refine .seq (exceptOn_tracks (?_ : Tracks _
    (fun _ past' new => Staged active candidate past' new) Tracking past₂ _)
    (fun _ _ _ hnew => hnew) (fun _ _ _ hnew => ?_) fun _ _ _ he => he)
    (fun _ _ _ _ hnew => World.ensures_pure hnew) fun _ _ _ _ he => he
  · refine tracks_read_bind trivial htracked (fun checkedAt past₃ _ h₃ => ?_)
      fun _ _ h' => h'.tracked
    refine tracks_read_bind trivial h₃.tracked (fun now past₄ _ h₄ => ?_) fun _ _ h' => h'.tracked
    refine (writeState_tracks h₄.tracked fun r hr => absurd hr (h.blank r)).seq
      (fun _ _ _ _ hnew => ?_) fun _ _ _ _ he => he.2
    obtain ⟨-, rfl, hnew⟩ := hnew
    exact World.ensures_pure ⟨hnew, h.active_eq, hforgotten, rfl, hstate⟩
  · exact (rmtreeIgnoringErrors_tracks hnew).seq
      (fun _ _ _ _ hnew => World.ensures_throw hnew.1.tracked) fun _ _ _ _ => False.elim

theorem download_tracks (h : Staged active candidate past s) :
    Tracks (download c candidate current latest state validate)
      (fun _ past' new => Staged active candidate past' new) Tracking past s := by
  refine World.Ensures.handle (tracks_inert trivial h.tracked (fun _ new he => ?_)
    (fun _ _ _ _ h' => h.leads h') fun _ _ _ _ h' => h.leads h') (fun _ _ _ _ hnew => hnew)
    fun e _ _ _ hnew => hnew.abandon fun _ _ => reraise_tracks
  obtain ⟨D, rfl⟩ := he
  exact .inDirectory s candidate fun _ => D

theorem Written.shrunk {d' : Disk} {reply : Except Err Unit} (h : Written s d' new reply)
    (hd : Shrunk s d') : Shrunk s new := by
  cases reply with
  | ok => exact h ▸ hd
  | error =>
    rcases h with rfl | rfl
    · exact .refl _
    · exact hd

/-- Rewriting launcher files, in any directory. -/
theorem launcherPrepare_tracks (h : Tracked past s) :
    Tracks (launcherPrepare c r) (fun _ past' new => Leads past s past' new)
      (fun _ past' new => Leads past s past' new) past s := by
  refine tracks_read_bind trivial h (fun metadata past₁ _ h₁ => ?_) fun _ _ h' => h'
  refine .bind (tracks_inert trivial h₁.tracked (fun _ new he => Written.shrunk he
    (.inDirectory s r _)) (fun _ past₂ s₂ _ h₂ => ?_) fun _ _ _ _ h' => h₁.trans h')
  refine .bind (tracks_inert trivial h₂.tracked (fun reply new he => ?_)
    (fun _ _ _ _ h₃ => World.ensures_pure (h₁.trans (h₂.trans h₃)))
    fun _ _ _ _ h' => h₁.trans (h₂.trans h'))
  cases reply with
  | ok => exact he ▸ .inDirectory s₂ r _
  | error =>
    rcases he with rfl | rfl
    · exact .refl _
    · exact .inDirectory s₂ r _

theorem validateCandidate_tracks (h : Staged active candidate past s) :
    Tracks (validateCandidate c candidate current latest state)
      (fun _ past' new => Staged active candidate past' new) Tracking past s := by
  refine World.Ensures.handle (?_ : Tracks _
    (fun _ past' new => Staged active candidate past' new)
    (fun _ past' new => Staged active candidate past' new) past s) (fun _ _ _ _ hnew => hnew)
    fun e past' new _ hnew => ?_
  · refine (launcherPrepare_tracks h.tracked).seq (fun metadata _ _ _ hnew => ?_)
      fun _ _ _ _ h' => h.leads h'
    split
    · exact World.ensures_throw (h.leads hnew)
    · exact World.ensures_pure (h.leads hnew)
  · cases e with
    | incompatible text => exact hnew.abandon fun _ _ h' => World.ensures_throw h'
    | update | os | other => exact hnew.abandon fun _ _ => reraise_tracks

theorem backUp_tracks (h : Staged active candidate past s) :
    Tracks (backUp active candidate current latest state)
      (fun _ past' new => Staged active candidate past' new) Tracking past s := by
  have hcreate : ∀ past', Staged active candidate past' s → Tracks (do
      let path ← createBackup candidate current latest state
      return some path) (fun _ past'' new => Staged active candidate past'' new) Tracking
      past' s := by
    intro past' h
    refine World.Ensures.seq (World.Ensures.handle (tracks_read trivial h.tracked
      (fun _ _ _ h' => h.leads h') fun _ _ h' => h.leads h') (fun _ _ _ _ hnew => hnew)
      fun e _ _ _ hnew => hnew.abandon fun _ _ => reraise_tracks)
      (fun _ _ _ _ hnew => World.ensures_pure hnew) fun _ _ _ _ he => he
  rw [backUp]
  cases active with
  | some release => exact hcreate past h
  | none =>
    refine tracks_read_bind trivial h.tracked (fun needed past' _ h' => ?_)
      fun _ _ h' => h'.tracked
    cases needed with
    | true => exact hcreate past' (h.leads h')
    | false => exact World.ensures_pure (h.leads h')

/-- While the candidate is moved to its final name: the record names both. -/
structure Moving (active : Option Release) (candidate f : Release) (past : List UpdaterMove)
    (s : Disk) : Prop where
  tracked : Tracked past s
  active_eq : s.active = active
  forgotten : s.previous = none
  candidate_eq : s.loaded.candidateRelease = some candidate
  promoted_eq : s.loaded.promotedRelease = some f

/-- The candidate has its final name, which is the only one the record has. -/
structure Placed (active : Option Release) (f : Release) (past : List UpdaterMove) (s : Disk) :
    Prop where
  tracked : Tracked past s
  active_eq : s.active = active
  forgotten : s.previous = none
  candidate_eq : s.loaded.candidateRelease = some f
  promoted_eq : s.loaded.promotedRelease = none

/-- What the handler of a failed move finds: the record names the two directories that are there,
and nothing else. -/
structure Moved (candidate f : Release) (past : List UpdaterMove) (s : Disk) : Prop where
  tracked : Tracked past s
  only : ∀ r, s.loaded.Names r → r = candidate ∨ r = f
  names : ∀ r, r = candidate ∨ r = f → (s.releases r).isSome → s.loaded.Names r

theorem Moving.moved (h : Moving active candidate f past s) : Moved candidate f past s where
  tracked := h.tracked
  only r hr := by
    rcases hr with hr | hr
    · exact .inl (Option.some.inj (hr.symm.trans h.candidate_eq))
    · exact .inr (Option.some.inj (hr.symm.trans h.promoted_eq))
  names r hr _ := by
    rcases hr with rfl | rfl
    · exact .inl h.candidate_eq
    · exact .inr h.promoted_eq

theorem Placed.moved (h : Placed active f past s) (hgone : s.releases candidate = none) :
    Moved candidate f past s where
  tracked := h.tracked
  only r hr := by
    rcases hr with hr | hr
    · exact .inr (Option.some.inj (hr.symm.trans h.candidate_eq))
    · rw [h.promoted_eq] at hr
      cases hr
  names r hr hpresent := by
    rcases hr with rfl | rfl
    · rw [hgone] at hpresent
      cases hpresent
    · exact .inl h.candidate_eq

theorem Moved.abandon {result : LastResult} {detail text : String} {block : Bool}
    {build : Option ℕ} {e : Err} (h : Moved candidate f past s) :
    Tracks (do
        discardFailed candidate
        discardFailed f
        let _ ← recordPreWorldFailure state current build result detail block
        (reraise e text : UpdaterM α)) ok Tracking past s := by
  refine (discardFailed_tracks h.tracked (h.names candidate (.inl rfl))).seq
    (fun _ past₁ s₁ _ h₁ => ?_) fun _ _ _ _ he => he
  obtain ⟨h₁, hcandidate⟩ := h₁
  refine (discardFailed_tracks h₁.tracked fun hpresent => ?_).seq (fun _ past₂ s₂ _ h₂ => ?_)
    fun _ _ _ _ he => he
  · rw [h₁.shrunk.loaded]
    exact h.names f (.inr rfl) (h₁.shrunk.present f hpresent)
  · obtain ⟨h₂, hfinal⟩ := h₂
    refine recordAndReraise_tracks h₂.tracked fun r hr => ?_
    rw [h₂.shrunk.loaded, h₁.shrunk.loaded] at hr
    rcases h.only r hr with rfl | rfl
    · exact h₂.tried r hcandidate
    · exact hfinal

/-- The rename takes the directory from one name of the record to the other. -/
theorem promote_tracks (h : Moving active candidate f past s) (hfree : s.releases f = none) :
    Tracks (ask (.promote candidate f))
      (fun _ past' new => Moving active candidate f past' new ∧ new.releases candidate = none)
      (fun _ past' new => Moving active candidate f past' new) past s := by
  have hmoved : ∀ reply D, s.releases candidate = some D → Moving active candidate f
      (⟨.promote candidate f, reply, s, (s.setDirectory candidate none).setDirectory f (some D)⟩ ::
        past) ((s.setDirectory candidate none).setDirectory f (some D)) ∧
      ((s.setDirectory candidate none).setDirectory f (some D)).releases candidate = none := by
    intro reply D hD
    have hne : candidate ≠ f := by
      rintro rfl
      rw [hfree] at hD
      cases hD
    refine ⟨⟨fun r hr => ?_, h.active_eq, h.forgotten, h.candidate_eq, h.promoted_eq⟩, ?_⟩
    · by_cases hf : r = f
      · exact .inl (.inr (.inr (.inr (hf ▸ h.promoted_eq))))
      · rw [Disk.setDirectory_of_ne _ _ hf] at hr
        by_cases hc : r = candidate
        · rw [hc] at hr
          simp at hr
        · rw [Disk.setDirectory_of_ne _ _ hc] at hr
          exact h.tracked r hr
    · rw [Disk.setDirectory_of_ne _ _ hne]
      exact Disk.setDirectory_self _ _ _
  have hsame : ∀ e, Moving active candidate f (⟨.promote candidate f, .error e, s, s⟩ :: past) s :=
    fun e => ⟨h.tracked, h.active_eq, h.forgotten, h.candidate_eq, h.promoted_eq⟩
  refine tracks_ask (fun reply new he => ?_) (fun _ new he => ?_) fun e new he => ?_
  · cases reply with
    | ok =>
      obtain ⟨D, hD, rfl⟩ := he
      exact (hmoved _ D hD).1.tracked
    | error e =>
      obtain rfl | ⟨D, hD, rfl⟩ := he
      · exact (hsame e).tracked
      · exact (hmoved _ D hD).1.tracked
  · obtain ⟨D, hD, rfl⟩ := he
    exact hmoved _ D hD
  · obtain rfl | ⟨D, hD, rfl⟩ := he
    · exact hsame e
    · exact (hmoved _ D hD).1

theorem renameCandidate_tracks (h : Moving active candidate f past s)
    (hfree : s.releases f = none) :
    Tracks (renameCandidate candidate f current latest state s.loaded)
      (fun v past' new => v = new.loaded ∧ Placed active f past' new) Tracking past s := by
  refine exceptOn_tracks (?_ : Tracks _ (fun v past' new => v = new.loaded ∧
    Placed active f past' new) (fun _ past' new => Moved candidate f past' new) past s)
    (fun _ _ _ hnew => hnew) (fun _ _ _ hnew => hnew.abandon) fun _ _ _ hnew => hnew.tracked
  refine (promote_tracks h hfree).seq (fun _ past₁ s₁ _ h₁ => ?_) fun _ _ _ _ h' => h'.moved
  obtain ⟨h₁, hgone⟩ := h₁
  have hmoving : ∀ past', Tracked past' s₁ → Moving active candidate f past' s₁ := fun _ ht =>
    ⟨ht, h₁.active_eq, h₁.forgotten, h₁.candidate_eq, h₁.promoted_eq⟩
  refine tracks_read_bind trivial h₁.tracked (fun now past₂ _ h₂ => ?_)
    fun _ past' h' => (hmoving past' h'.tracked).moved
  have hplaced : ∀ past' v, v.candidateRelease = some f → v.promotedRelease = none →
      Tracked past' { s₁ with record := some v } →
        Placed active f past' { s₁ with record := some v } :=
    fun _ _ hc hp ht => ⟨ht, h₁.active_eq, h₁.forgotten, hc, hp⟩
  refine (writeState_tracks h₂.tracked fun r hr => ?_).mono (fun v past' new hnew => ?_)
    fun _ past' new hnew => ?_
  · rcases h₁.moved.only r hr with rfl | rfl
    · exact .inr (.inr (.inr (.of_none hgone)))
    · exact .inl (.inl rfl)
  · obtain ⟨rfl, rfl, ht⟩ := hnew
    exact ⟨rfl, hplaced past' _ rfl rfl ht⟩
  · obtain ⟨rfl | rfl, ht⟩ := hnew
    · exact (hmoving past' ht).moved
    · exact (hplaced past' _ rfl rfl ht).moved hgone

theorem promoteCandidate_tracks {backupPath : Option String}
    (h : Staged active candidate past s) :
    Tracks (promoteCandidate active candidate current latest state backupPath)
      (fun v past' new => v.2 = new.loaded ∧ Placed active v.1 past' new) Tracking past s := by
  refine tracks_read_bind trivial h.tracked (fun f past₁ hf h₁ => ?_) fun _ _ h' => h'.tracked
  refine tracks_read_bind trivial h₁.tracked (fun now past₂ _ h₂ => ?_) fun _ _ h' => h'.tracked
  refine (writeState_tracks h₂.tracked fun r hr => .inl ?_).seq (fun v past₃ s₃ _ h₃ => ?_)
    fun _ _ _ _ he => he.2
  · rcases hr with hr | hr
    · exact .inl (h.candidate_eq.symm.trans hr)
    · rw [h.promoted_eq] at hr
      cases hr
  · obtain ⟨rfl, rfl, ht⟩ := h₃
    have hmoving : Moving active candidate f past₃ _ := ⟨ht, h.active_eq, h.forgotten, rfl, rfl⟩
    exact (renameCandidate_tracks hmoving hf.1).seq (fun _ _ _ _ hnew => World.ensures_pure hnew)
      fun _ _ _ _ he => he

/-- The previous pointer is made to name the active release, and forgets nothing. -/
theorem writePrevious_tracks (h : Placed active f past s) :
    Tracks (writePrevious active)
      (fun _ past' new => Tracked past' new ∧ new.loaded = s.loaded ∧ new.active = active ∧
        new.previous = active)
      (fun _ past' new => Tracked past' new ∧ new.loaded = s.loaded) past s := by
  cases active with
  | none =>
    refine (unlinkPrevious_tracks h.tracked fun r hr => ?_).mono (fun _ _ _ hnew => ?_)
      fun _ _ _ hnew => ?_
    · rw [h.forgotten] at hr
      cases hr
    · obtain ⟨ht, rfl⟩ := hnew
      exact ⟨ht, rfl, h.active_eq, rfl⟩
    · obtain ⟨ht, rfl⟩ := hnew
      exact ⟨ht, rfl⟩
  | some a =>
    have hkept : ∀ reply, Tracked (⟨.writePrevious a, reply, s, { s with previous := some a }⟩ ::
        past) { s with previous := some a } := by
      intro reply r hr
      rcases h.tracked r hr with (hactive | hprev | hrecord) | horphan
      · exact .inl (.inl hactive)
      · rw [h.forgotten] at hprev
        cases hprev
      · exact .inl (.inr (.inr hrecord))
      · exact .inr horphan
    have hsame : ∀ e, Tracked (⟨.writePrevious a, .error e, s, s⟩ :: past) s := fun _ => h.tracked
    refine tracks_ask (fun reply new he => ?_) (fun _ new he => ?_) fun e new he => ?_
    · cases reply with
      | ok =>
        obtain rfl := he
        exact hkept _
      | error e =>
        obtain rfl | rfl := he
        · exact hsame e
        · exact hkept _
    · obtain rfl := he
      exact ⟨hkept _, rfl, h.active_eq, rfl⟩
    · obtain rfl | rfl := he
      · exact ⟨hsame e, rfl⟩
      · exact ⟨hkept _, rfl⟩

/-- The switch: the release that was active is now the previous one. -/
theorem writeActive_tracks (h : Tracked past s) (hprevious : s.previous = s.active) :
    Tracks (ask (.writeActive f))
      (fun _ past' new => Tracked past' new ∧ new.loaded = s.loaded)
      (fun _ past' new => Tracked past' new ∧ new.loaded = s.loaded) past s := by
  have hkept : ∀ reply, Tracked (⟨.writeActive f, reply, s, { s with active := some f }⟩ :: past)
      { s with active := some f } := by
    intro reply r hr
    rcases h r hr with (hactive | hprev | hrecord) | horphan
    · exact .inl (.inr (.inl (hprevious.trans hactive)))
    · exact .inl (.inr (.inl hprev))
    · exact .inl (.inr (.inr hrecord))
    · exact .inr horphan
  have hsame : ∀ e, Tracked (⟨.writeActive f, .error e, s, s⟩ :: past) s := fun _ => h
  refine tracks_ask (fun reply new he => ?_) (fun _ new he => ?_) fun e new he => ?_
  · cases reply with
    | ok =>
      obtain rfl := he
      exact hkept _
    | error e =>
      obtain rfl | rfl := he
      · exact hsame e
      · exact hkept _
  · obtain rfl := he
    exact ⟨hkept _, rfl⟩
  · obtain rfl | rfl := he
    · exact ⟨hsame e, rfl⟩
    · exact ⟨hkept _, rfl⟩

theorem switchPointers_tracks (h : Placed active f past s) :
    Tracks (switchPointers active f)
      (fun _ past' new => Tracked past' new ∧ new.loaded = s.loaded)
      (fun _ past' new => Tracked past' new ∧ new.loaded = s.loaded) past s := by
  refine (writePrevious_tracks h).seq (fun _ past' new _ hnew => ?_) fun _ _ _ _ he => he
  obtain ⟨ht, hloaded, ha, hp⟩ := hnew
  refine (writeActive_tracks ht (hp.trans ha.symm)).mono (fun _ _ _ h' => ?_) fun _ _ _ h' => ?_
  · exact ⟨h'.1, h'.2.trans hloaded⟩
  · exact ⟨h'.1, h'.2.trans hloaded⟩

/-- The rest of `activate`, once the switch has succeeded or has been recovered. -/
theorem recordActivated_tracks {activating : Record} (h : Tracked past s)
    (hnames : ∀ r, s.loaded.Names r → activating.Names r) :
    Tracks (do
        let now ← ask .utcNow
        writeState { activating with
          state := .pendingReadiness
          currentBuild := some latest
          lastResult := some .candidateActivated
          updatedAt := some now }) (fun _ past' new => Tracked past' new) Tracking past s :=
  tracks_read_bind trivial h (fun _ _ _ h' => writeState_names h'.tracked hnames)
    fun _ _ h' => h'.tracked

theorem activate_tracks (h : Placed active f past s) :
    Tracks (activate active f latest s.loaded) (fun _ past' new => Tracked past' new) Tracking
      past s := by
  have hswitch : Tracks (exceptOS (switchPointers active f) fun _ => do
      let recovered ← recoverActivation s.loaded
      if recovered.state ≠ .pendingReadiness then
        throw (.update
          "Atomic candidate activation failed; the previous release remains selected"))
      (fun _ past' new => Tracked past' new ∧ ∀ r, new.loaded.Names r → s.loaded.Names r)
      Tracking past s := by
    refine exceptOn_tracks (switchPointers_tracks h) (fun _ _ _ hnew => ?_)
      (fun _ past' new hnew => ?_) fun _ _ _ hnew => hnew.1
    · exact ⟨hnew.1, fun r hr => hnew.2 ▸ hr⟩
    · obtain ⟨ht, hloaded⟩ := hnew
      rw [← hloaded]
      refine (recoverActivation_tracks ht).seq (fun v _ _ _ hv => ?_) fun _ _ _ _ he => he
      split
      · exact World.ensures_throw hv.1
      · rename_i hpending
        exact World.ensures_pure ⟨hv.1, hv.2 (not_not.mp hpending)⟩
  exact hswitch.seq (fun _ _ _ _ hnew => recordActivated_tracks hnew.1 hnew.2)
    fun _ _ _ _ he => he

theorem stageAndActivate_tracks (h : Unnamed active past s)
    (hfirst : active = none → s.previous = none) (hstate : state.promotedRelease = none) :
    Tracks (stageAndActivate c active current latest state validate)
      (fun _ past' new => Tracked past' new) Tracking past s := by
  refine (checkPreconditions_tracks h hfirst).seq (fun _ _ _ _ h₁ => ?_) fun _ _ _ _ he => he
  refine (beginDownload_tracks h₁.1 h₁.2 hstate).seq (fun candidate _ _ _ h₂ => ?_)
    fun _ _ _ _ he => he
  refine (download_tracks h₂).seq (fun _ _ _ _ h₃ => ?_) fun _ _ _ _ he => he
  refine (validateCandidate_tracks h₃).seq (fun _ _ _ _ h₄ => ?_) fun _ _ _ _ he => he
  refine (backUp_tracks h₄).seq (fun backupPath _ _ _ h₅ => ?_) fun _ _ _ _ he => he
  refine (promoteCandidate_tracks h₅).seq (fun v _ _ _ h₆ => ?_) fun _ _ _ _ he => he
  obtain ⟨hv, h₆⟩ := h₆
  dsimp only
  rw [hv]
  exact activate_tracks h₆

theorem checkAndUpdate_tracks {allowBlocked : Bool} (h : Unnamed active past s)
    (hfirst : active = none → s.previous = none) (hstate : state.promotedRelease = none) :
    Tracks (checkAndUpdate c active current state validate allowBlocked)
      (fun _ past' new => Tracked past' new) Tracking past s := by
  refine .seq (exceptOn_tracks (tracks_inert trivial h.tracked (fun reply new he => ?_)
    (fun _ past' new _ h' => (h' : Leads past s past' new)) fun _ past' new _ h' => h')
    (fun _ _ _ h' => h') (fun e past' new h' => ?_) fun _ _ _ h' => h'.tracked)
    (fun latest past₁ s₁ _ h₁ => ?_) fun _ _ _ _ he => he
  · cases reply with
    | ok => exact he ▸ .refl s
    | error => exact he ▸ .refl s
  · have hnew := h.leads h'
    exact (recordPreWorldFailure_tracks hnew.tracked hnew.tried).seq
      (fun _ _ _ _ hnew => World.ensures_throw hnew) fun _ _ _ _ he => he
  · have hnew := h.leads h₁
    dsimp only
    split
    · refine tracks_read_bind trivial hnew.tracked (fun checkedAt past₂ _ h₂ => ?_)
        fun _ _ h' => h'.tracked
      refine tracks_read_bind trivial h₂.tracked (fun now past₃ _ h₃ => ?_)
        fun _ _ h' => h'.tracked
      exact writeState_names h₃.tracked fun r hr => absurd hr (hnew.blank r)
    · split
      · exact (recordPreWorldFailure_tracks hnew.tracked hnew.tried).seq
          (fun _ _ _ _ hrecorded => World.ensures_throw hrecorded) fun _ _ _ _ he => he
      · split
        · exact World.ensures_throw hnew.tracked
        · refine stageAndActivate_tracks hnew (fun hnone => ?_) hstate
          exact h₁.shrunk.previous.trans (hfirst hnone)

end Transaction

/-! ### Entry points -/

section EntryPoints

variable {c : UpdateConfiguration} {active : Option Release}

theorem afterFailedUpdate_tracks {error : Err} (h : Tracked past s) :
    Tracks (afterFailedUpdate active error) (fun _ past' new => Tracked past' new) Tracking
      past s := by
  have hend : ∀ failed selected past' s', Tracked past' s' → Tracks
      (if active.isSome ∧ selected = active ∧ failed.state ∉ [.activating, .pendingReadiness,
          .startingCandidate, .runtimeReady, .failedAfterWorldOpen] then
        (return failed : UpdaterM Record)
      else
        throw error) (fun _ past'' new => Tracked past'' new) Tracking past' s' := by
    intro failed selected past' s' h'
    split
    · exact World.ensures_pure h'
    · exact World.ensures_throw h'
  refine tracks_read_bind trivial h (fun failed past₁ hfailed h₁ => ?_) fun _ _ h' => h'.tracked
  refine tracks_read_bind trivial h₁.tracked (fun selected past₂ _ h₂ => ?_)
    fun _ _ h' => h'.tracked
  obtain rfl : failed = s.loaded := hfailed.1
  dsimp only
  split
  · refine .seq (exceptOn_tracks (recoverInterrupted_tracks h₂.tracked) (fun _ _ _ hnew => hnew)
      (fun _ _ _ he => World.ensures_pure he) fun _ _ _ he => he)
      (fun v past₃ s₃ _ h₃ => hend v selected past₃ s₃ h₃) fun _ _ _ _ he => he
  · exact hend _ _ _ _ h₂.tracked

theorem writeObservation_tracks {state : Record} {current : Option SteamBuildMetadata}
    {result : LastResult} (h : Tracked past s) (hnames : ∀ r, s.loaded.Names r → state.Names r) :
    Tracks (writeObservation c state current result) (fun _ past' new => Tracked past' new)
      Tracking past s :=
  tracks_read_bind trivial h (fun _ _ _ h' => writeState_names h'.tracked hnames)
    fun _ _ h' => h'.tracked

theorem applyPolicy_tracks {current : Option SteamBuildMetadata}
    (h : Unnamed active past s) (hfirst : active = none → s.previous = none) :
    Tracks (applyPolicy c active current s.loaded) (fun _ past' new => Tracked past' new) Tracking
      past s := by
  rw [applyPolicy]
  split
  · split
    · exact World.ensures_pure h.tracked
    · exact writeObservation_tracks h.tracked fun _ hr => hr
  · split
    · exact writeObservation_tracks h.tracked fun _ hr => hr
    · refine exceptOn_tracks (checkAndUpdate_tracks h hfirst ?_) (fun _ _ _ hnew => hnew)
        (fun _ _ _ he => afterFailedUpdate_tracks he) fun _ _ _ he => he
      exact Option.eq_none_iff_forall_ne_some.mpr fun r hr => h.blank r (.inr hr)

theorem prepareActive_tracks (h : Tracked past s) :
    Tracks (prepareActive c active) (fun _ past' new => Leads past s past' new)
      (fun _ past' new => Leads past s past' new) past s := by
  cases active with
  | none => exact World.ensures_pure h.leads
  | some release =>
    exact (launcherPrepare_tracks h).seq (fun _ _ _ _ hnew => World.ensures_pure hnew)
      fun _ _ _ _ he => he

/-- In a settled state the record names nothing. -/
theorem Inv.unnamed (hs : Inv s) (hsettled : s.state.Settled) (h : Tracked past s) :
    Unnamed s.active past s := by
  obtain ⟨hcandidate, hpromoted⟩ := hs.settled hsettled
  refine ⟨h, rfl, fun r hr => ?_⟩
  rcases hr with hr | hr
  · rw [hcandidate] at hr
    cases hr
  · rw [hpromoted] at hr
    cases hr

theorem prepareSettled_tracks (hs : Inv s) (hsettled : s.state.Settled) (h : Tracked past s) :
    Tracks (prepareSettled c) (fun _ past' new => Tracked past' new) Tracking past s := by
  refine tracks_read_bind trivial h (fun _ past₁ _ h₁ => ?_) fun _ _ h' => h'.tracked
  refine tracks_read_bind trivial h₁.tracked (fun ensured past₂ he h₂ => ?_)
    fun _ _ h' => h'.tracked
  refine tracks_read_bind trivial h₂.tracked (fun state past₃ hl h₃ => ?_) fun _ _ h' => h'.tracked
  refine tracks_read_bind trivial h₃.tracked (fun reread past₄ hr h₄ => ?_)
    fun _ _ h' => h'.tracked
  obtain rfl : ensured = s.active := he.1
  obtain rfl : reread = s.active := hr.1
  obtain rfl : state = s.loaded := hl.1
  have hactive : (s.active <|> s.active) = s.active := by cases s.active <;> rfl
  dsimp only
  rw [hactive]
  refine (prepareActive_tracks h₄.tracked).seq (fun current past₅ s₅ _ h₅ => ?_)
    fun _ _ _ _ h' => h'.tracked
  rw [← h₅.shrunk.loaded]
  refine applyPolicy_tracks ((hs.unnamed hsettled h₄.tracked).leads h₅) fun hnone => ?_
  exact h₅.shrunk.previous.trans (hs.previous_of_first hnone)

/-- Recovery tracks its directories, and leaves a disk that satisfies the invariant. -/
theorem recoverInterrupted_recovers (hs : Inv s) (h : Tracked past s) :
    Tracks (recoverInterrupted s.loaded)
      (fun v past' new => Recovered s v new ∧ Tracked past' new) Tracking past s := by
  have hconforms : Conforms .accept s (recoverInterrupted s.loaded)
      (fun v _ new => Recovered s v new) (Fails Inv) past s := recoverInterrupted_conforms hs
  exact (World.Ensures.and hconforms (recoverInterrupted_tracks h)).mono (fun _ _ _ hnew => hnew)
    fun _ _ _ he => he.2

theorem prepareStart_tracks (hs : Inv s) (h : Tracked past s) :
    Tracks (prepareStart c) (fun _ past' new => Tracked past' new) Tracking past s := by
  refine tracks_read_bind trivial h (fun _ past₁ _ h₁ => ?_) fun _ _ h' => h'.tracked
  refine tracks_read_bind trivial h₁.tracked (fun loaded past₂ hl h₂ => ?_)
    fun _ _ h' => h'.tracked
  obtain rfl : loaded = s.loaded := hl.1
  refine (recoverInterrupted_recovers hs h₂.tracked).seq (fun state past₃ s₃ _ h₃ => ?_)
    fun _ _ _ _ he => he
  obtain ⟨hrecovered, ht⟩ := h₃
  obtain rfl := hrecovered.loaded
  refine tracks_read_bind trivial ht (fun active past₄ ha h₄ => ?_) fun _ _ h' => h'.tracked
  split
  · cases active with
    | none => exact World.ensures_throw h₄.tracked
    | some release =>
      exact (launcherPrepare_tracks h₄.tracked).seq
        (fun _ _ _ _ hnew => World.ensures_pure hnew.tracked) fun _ _ _ _ h' => h'.tracked
  · rename_i hstate
    have hsettled : s₃.state.Settled := by
      refine StateName.settled_of hrecovered.quiet fun hc => hstate ?_
      cases hn : s₃.state <;> simp_all [StateName.Committed]
    refine tracks_read_bind trivial h₄.tracked (fun marker past₅ _ h₅ => ?_)
      fun _ _ h' => h'.tracked
    cases marker with
    | true =>
      cases active with
      | none => exact World.ensures_throw h₅.tracked
      | some release =>
        exact tracks_read_bind trivial h₅.tracked
          (fun _ _ _ h' => writeObservation_tracks h'.tracked fun _ hr => hr)
          fun _ _ h' => h'.tracked
    | false => exact prepareSettled_tracks hrecovered.inv hsettled h₅.tracked

theorem explicitUpdate_tracks {validate : Bool} (hs : Inv s) (h : Tracked past s) :
    Tracks (explicitUpdate c validate) (fun _ past' new => Tracked past' new) Tracking past s := by
  refine tracks_read_bind trivial h (fun _ past₁ _ h₁ => ?_) fun _ _ h' => h'.tracked
  refine tracks_read_bind trivial h₁.tracked (fun loaded past₂ hl h₂ => ?_)
    fun _ _ h' => h'.tracked
  obtain rfl : loaded = s.loaded := hl.1
  refine (recoverInterrupted_recovers hs h₂.tracked).seq (fun _ past₃ s₃ _ h₃ => ?_)
    fun _ _ _ _ he => he
  obtain ⟨hrecovered, ht⟩ := h₃
  refine tracks_read_bind trivial ht (fun marker past₄ _ h₄ => ?_) fun _ _ h' => h'.tracked
  cases marker with
  | true => exact World.ensures_throw h₄.tracked
  | false =>
    refine tracks_read_bind trivial h₄.tracked (fun _ past₅ _ h₅ => ?_) fun _ _ h' => h'.tracked
    refine tracks_read_bind trivial h₅.tracked (fun active past₆ ha h₆ => ?_)
      fun _ _ h' => h'.tracked
    refine tracks_read_bind trivial h₆.tracked (fun state past₇ hl h₇ => ?_)
      fun _ _ h' => h'.tracked
    obtain rfl : active = s₃.active := ha.1
    obtain rfl : state = s₃.loaded := hl.1
    split
    · exact World.ensures_throw h₇.tracked
    · rename_i hstate
      have hsettled : s₃.state.Settled := by
        cases hn : s₃.state <;> simp_all [candidateStates, StateName.Settled]
      refine (prepareActive_tracks h₇.tracked).seq (fun current past₈ s₈ _ h₈ => ?_)
        fun _ _ _ _ h' => h'.tracked
      refine checkAndUpdate_tracks ((hrecovered.inv.unnamed hsettled h₇.tracked).leads h₈)
        (fun hnone => ?_) (hrecovered.inv.settled hsettled).2
      exact h₈.shrunk.previous.trans (hrecovered.inv.previous_of_first hnone)

theorem verifyCandidateActive_tracks {state : Record} (h : Tracked past s) :
    Tracks (verifyCandidateActive state) (fun _ past' new => new = s ∧ Tracked past' s) Tracking
      past s := by
  have hrefuse : ∀ text past', Tracked past' s → Tracks (throw (.update text) : UpdaterM Unit)
      (fun _ past'' new => new = s ∧ Tracked past'' s) Tracking past' s := fun text past' h' =>
    World.ensures_throw h'
  refine tracks_read_bind trivial h (fun active past₁ _ h₁ => ?_) fun _ _ h' => h'.tracked
  cases state.candidateRelease with
  | none => exact hrefuse _ _ h₁.tracked
  | some candidate =>
    cases state.candidateBuild with
    | none => exact hrefuse _ _ h₁.tracked
    | some build =>
      cases active with
      | none => exact hrefuse _ _ h₁.tracked
      | some release =>
        dsimp only
        split
        · exact hrefuse _ _ h₁.tracked
        · refine tracks_read_bind trivial h₁.tracked (fun metadata past₂ _ h₂ => ?_)
            fun _ _ h' => h'.tracked
          split
          · exact hrefuse _ _ h₂.tracked
          · exact World.ensures_pure ⟨rfl, h₂.tracked⟩

/-- The accepted candidate is the active release, so the record need not name it any longer. -/
theorem completeAcceptance_tracks {state : Record} (h : Tracked past s)
    (hcandidate : s.active = s.loaded.candidateRelease)
    (hpromoted : s.loaded.promotedRelease = none) :
    Tracks (completeAcceptance state) (fun _ past' new => Tracked past' new) Tracking past s := by
  rw [completeAcceptance]
  cases state.candidateBuild with
  | none => exact World.ensures_throw h
  | some build =>
    refine tracks_read_bind trivial h (fun acceptedAt past₁ _ h₁ => ?_) fun _ _ h' => h'.tracked
    refine tracks_read_bind trivial h₁.tracked (fun now past₂ _ h₂ => ?_) fun _ _ h' => h'.tracked
    refine (writeState_tracks h₂.tracked fun r hr => .inr (.inl ?_)).mono
      (fun _ _ _ hnew => hnew.2.2) fun _ _ _ he => he.2
    rcases hr with hr | hr
    · exact hcandidate.trans hr
    · rw [hpromoted] at hr
      cases hr

theorem markWorldOpened_tracks (h : Tracked past s) :
    Tracks markWorldOpened (fun _ past' new => Tracked past' new) Tracking past s := by
  refine tracks_read_bind trivial h (fun _ past₁ _ h₁ => ?_) fun _ _ h' => h'.tracked
  refine tracks_read_bind trivial h₁.tracked (fun loaded past₂ hl h₂ => ?_)
    fun _ _ h' => h'.tracked
  obtain rfl : loaded = s.loaded := hl.1
  split
  · exact World.ensures_pure h₂.tracked
  · have hopen : ∀ openedAt past', Tracked past' s → Tracks (do
        let now ← ask .utcNow
        let _ ← writeState { s.loaded with
          state := .startingCandidate
          worldOpened := some true
          worldOpenedAt := some openedAt
          updatedAt := some now }
        return true) (fun _ past'' new => Tracked past'' new) Tracking past' s := by
      intro openedAt past' h'
      refine tracks_read_bind trivial h' (fun now past'' _ h'' => ?_) fun _ _ h'' => h''.tracked
      exact writeState_ends h''.tracked fun _ hr => hr
    refine (verifyCandidateActive_tracks h₂.tracked).seq (fun _ past₃ s₃ _ h₃ => ?_)
      fun _ _ _ _ he => he
    obtain ⟨rfl, h₃⟩ := h₃
    split
    · exact hopen _ _ h₃
    · exact tracks_read_bind trivial h₃ (fun openedAt past₄ _ h₄ => hopen openedAt past₄ h₄.tracked)
        fun _ _ h' => h'.tracked

theorem markRuntimeReady_tracks {version revision : Option String} (h : Tracked past s)
    (hcommitted : s.state.Committed →
      s.active = s.loaded.candidateRelease ∧ s.loaded.promotedRelease = none) :
    Tracks (markRuntimeReady c version revision) (fun _ past' new => Tracked past' new) Tracking
      past s := by
  refine tracks_read_bind trivial h (fun _ past₁ _ h₁ => ?_) fun _ _ h' => h'.tracked
  refine tracks_read_bind trivial h₁.tracked (fun loaded past₂ hl h₂ => ?_)
    fun _ _ h' => h'.tracked
  obtain rfl : loaded = s.loaded := hl.1
  split
  · refine tracks_read_bind trivial h₂.tracked (fun ready past₃ _ h₃ => ?_)
      fun _ _ h' => h'.tracked
    refine tracks_read_bind trivial h₃.tracked (fun now past₄ _ h₄ => ?_) fun _ _ h' => h'.tracked
    exact writeState_ends h₄.tracked fun _ hr => hr
  · split
    · exact World.ensures_pure h₂.tracked
    · rename_i hwaiting
      split
      · exact World.ensures_throw h₂.tracked
      · refine (verifyCandidateActive_tracks h₂.tracked).seq (fun _ past₃ s₃ _ h₃ => ?_)
          fun _ _ _ _ he => he
        obtain ⟨rfl, h₃⟩ := h₃
        refine tracks_read_bind trivial h₃ (fun ready past₄ _ h₄ => ?_) fun _ _ h' => h'.tracked
        refine tracks_read_bind trivial h₄.tracked (fun now past₅ _ h₅ => ?_)
          fun _ _ h' => h'.tracked
        dsimp only
        split
        · have hc : s₃.state.Committed := by
            cases hn : s₃.state <;> simp_all [StateName.Committed]
          obtain ⟨hcandidate, hpromoted⟩ := hcommitted hc
          exact (completeAcceptance_tracks h₅.tracked hcandidate hpromoted).seq
            (fun _ _ _ _ hnew => World.ensures_pure hnew) fun _ _ _ _ he => he
        · exact writeState_ends h₅.tracked fun _ hr => hr

theorem accept_tracks (h : Tracked past s) (hcommitted : s.state.Committed →
      s.active = s.loaded.candidateRelease ∧ s.loaded.promotedRelease = none) :
    Tracks accept (fun _ past' new => Tracked past' new) Tracking past s := by
  refine tracks_read_bind trivial h (fun _ past₁ _ h₁ => ?_) fun _ _ h' => h'.tracked
  refine tracks_read_bind trivial h₁.tracked (fun loaded past₂ hl h₂ => ?_)
    fun _ _ h' => h'.tracked
  obtain rfl : loaded = s.loaded := hl.1
  split
  · exact World.ensures_pure h₂.tracked
  · rename_i hstate
    split
    · exact World.ensures_throw h₂.tracked
    · refine (verifyCandidateActive_tracks h₂.tracked).seq (fun _ past₃ s₃ _ h₃ => ?_)
        fun _ _ _ _ he => he
      obtain ⟨rfl, h₃⟩ := h₃
      obtain ⟨hcandidate, hpromoted⟩ := hcommitted (by
        change s₃.loaded.state.Committed
        rw [not_not.mp hstate]
        trivial)
      exact completeAcceptance_tracks h₃ hcandidate hpromoted

theorem failReadiness_tracks {detail : String} (h : Tracked past s) :
    Tracks (failReadiness detail) (fun _ past' new => Tracked past' new) Tracking past s := by
  refine tracks_read_bind trivial h (fun _ past₁ _ h₁ => ?_) fun _ _ h' => h'.tracked
  refine tracks_read_bind trivial h₁.tracked (fun loaded past₂ hl h₂ => ?_)
    fun _ _ h' => h'.tracked
  obtain rfl : loaded = s.loaded := hl.1
  split
  · exact World.ensures_pure h₂.tracked
  · split
    · exact World.ensures_throw h₂.tracked
    · refine (verifyCandidateActive_tracks h₂.tracked).seq (fun _ past₃ s₃ _ h₃ => ?_)
        fun _ _ _ _ he => he
      obtain ⟨rfl, h₃⟩ := h₃
      refine tracks_read_bind trivial h₃ (fun now past₄ _ h₄ => ?_) fun _ _ h' => h'.tracked
      exact writeState_ends h₄.tracked fun _ hr => hr

end EntryPoints

end Updater

end PzServer
