import PzServer.Updater.Staging

/-!
# The operations conform to the protocol

The entry points of `GameUpdater`. `body_conforms` says that every move of every operation is
permitted, and `UpdaterHistory.trail` is the form the results about runs start from.

## Main results

* `body_conforms` — the operations conform
* `UpdaterHistory.trail` — every history is one the protocol permits
-/

namespace PzServer

namespace Updater

open Interaction

variable {α : Type} {op : Operation} {start s : Disk} {past : List UpdaterMove}
  {ok : α → List UpdaterMove → Disk → Prop} {err : Err → List UpdaterMove → Disk → Prop}

/-! ### Entry points -/

section EntryPoints

variable {c : UpdateConfiguration}

/-- A state that recovery leaves and that is not committed is settled. -/
theorem StateName.settled_of {n : StateName} (hquiet : n ≠ .activating ∧ ¬ n.Staging)
    (hn : ¬ n.Committed) : n.Settled := by
  rcases n.cases_group with h | h | h | h
  · exact h
  · exact absurd h hquiet.2
  · exact absurd h hquiet.1
  · exact absurd h hn

theorem afterFailedUpdate_conforms {active : Option Release} {error : Err} (hs : Inv s) :
    Conforms op start (afterFailedUpdate active error) (fun _ _ new => Inv new) (Fails Inv)
      past s := by
  have hend : ∀ failed selected past' s', Inv s' → Conforms op start
      (if active.isSome ∧ selected = active ∧ failed.state ∉ [.activating, .pendingReadiness,
          .startingCandidate, .runtimeReady, .failedAfterWorldOpen] then
        (return failed : UpdaterM Record)
      else
        throw error) (fun _ _ new => Inv new) (Fails Inv) past' s' := by
    intro failed selected past' s' hs'
    split
    · exact World.ensures_pure hs'
    · exact World.ensures_throw hs'
  rw [afterFailedUpdate]
  refine conforms_read_bind trivial (fun failed _ hfailed _ _ => ?_) fun _ _ => hs
  refine conforms_read_bind trivial (fun selected _ _ _ _ => ?_) fun _ _ => hs
  obtain rfl : failed = s.loaded := hfailed.1
  dsimp only
  split
  · refine .seq (exceptOn_conforms (recoverInterrupted_conforms hs) (fun _ _ _ _ h => h.inv)
      (fun e _ s' _ he _ => World.ensures_pure he) fun _ _ _ _ => id)
      (fun r _ s' _ hs' => hend r selected _ s' hs') fun _ _ _ _ => id
  · exact hend _ _ _ _ hs

theorem prepareActive_conforms (hs : Inv s) (hsettled : s.state.Settled)
    (hunmoved : s.active = start.active ∧ s.activeBuild = start.activeBuild) :
    Conforms op start (prepareActive c s.active)
      (fun current _ new => Quiet start s.active current s.loaded new) (Fails Inv) past s := by
  have hprepared : ∀ current new, Relaunched s new →
      new.activeBuild = current.map SteamBuildMetadata.buildId →
      Quiet start s.active current s.loaded new := fun current new hnew hbuild => by
    have hloaded : new.loaded = s.loaded := by simp [Disk.loaded, hnew.record]
    exact ⟨hnew.inv, by rw [Disk.state, hloaded]; exact hsettled, hloaded, hnew.active, hbuild,
      hunmoved.1, hbuild.symm.trans (hnew.build.trans hunmoved.2)⟩
  cases ha : s.active with
  | none =>
    refine World.ensures_pure (ha ▸ hprepared none s ⟨hs, rfl, rfl, rfl⟩ ?_)
    simp [Disk.activeBuild, ha]
  | some release =>
    exact (launcherPrepare_active hs ha).seq
      (fun m _ new _ hm => World.ensures_pure (ha ▸ hprepared (some m) new hm.1 hm.2))
      fun _ _ _ _ => id

/-- What is left when the policy forbids no update. -/
theorem mayQuery_prepareStart {active : Option Release} {current : Option SteamBuildMetadata}
    {state : Record} (hop : op = .prepareStart c) (h : Quiet start active current state s)
    (hmarker : Seen .markerExists (.ok false) past)
    (hmanual : ¬ (active.isSome ∧ c.policy = .manual))
    (hmods : ¬ (active.isSome ∧ c.modsConfigured ∧ !c.allowAutoUpdateWithMods)) :
    MayQuery op past s := by
  refine ⟨hmarker, fun c' hc' hactive => ?_⟩
  obtain rfl : c = c' := by simpa [hop] using hc'
  rw [h.active_eq] at hactive
  refine ⟨?_, fun hconfigured => ?_⟩
  · cases hp : c.policy with
    | stableOnStart => rfl
    | manual => exact absurd ⟨hactive, hp⟩ hmanual
  · cases ha : c.allowAutoUpdateWithMods with
    | true => rfl
    | false => exact absurd ⟨hactive, hconfigured, by simp [ha]⟩ hmods

theorem applyPolicy_conforms {active : Option Release} {current : Option SteamBuildMetadata}
    {state : Record} (hop : op = .prepareStart c) (h : Quiet start active current state s)
    (hmarker : Seen .markerExists (.ok false) past) :
    Conforms op start (applyPolicy c active current state) (fun _ _ new => Inv new) (Fails Inv)
      past s := by
  rw [applyPolicy]
  split
  · split
    · exact World.ensures_pure h.inv
    · exact writeObservation_conforms h (by simp [LastResult.Accepted])
  · rename_i hmanual
    split
    · exact writeObservation_conforms h (by simp [LastResult.Accepted])
    · rename_i hmods
      have hquery := mayQuery_prepareStart hop h hmarker hmanual hmods
      exact exceptOn_conforms (checkAndUpdate_conforms h (by rw [hop]; rfl) hquery)
        (fun _ _ _ _ => id) (fun e _ _ _ he _ => afterFailedUpdate_conforms he)
        fun _ _ _ _ => id

theorem prepareSettled_conforms (hop : op = .prepareStart c) (hs : Inv s)
    (hsettled : s.state.Settled)
    (hunmoved : s.active = start.active ∧ s.activeBuild = start.activeBuild)
    (hmarker : Seen .markerExists (.ok false) past) :
    Conforms op start (prepareSettled c) (fun _ _ new => Inv new) (Fails Inv) past s := by
  rw [prepareSettled]
  refine conforms_read_bind trivial (fun _ past₁ _ hsuf₁ _ => ?_) fun _ _ => hs
  refine conforms_read_bind trivial (fun ensured past₂ he hsuf₂ _ => ?_) fun _ _ => hs
  refine conforms_read_bind trivial (fun state past₃ hl hsuf₃ _ => ?_) fun _ _ => hs
  refine conforms_read_bind trivial (fun reread past₄ hr hsuf₄ _ => ?_) fun _ _ => hs
  obtain rfl : ensured = s.active := he.1
  obtain rfl : reread = s.active := hr.1
  obtain rfl : state = s.loaded := hl.1
  have hsuf := hsuf₁.trans (hsuf₂.trans (hsuf₃.trans hsuf₄))
  have hactive : (s.active <|> s.active) = s.active := by cases s.active <;> rfl
  dsimp only
  rw [hactive]
  refine (prepareActive_conforms hs hsettled hunmoved).seq (fun current _ s' hsuf' h => ?_)
    fun _ _ _ _ => id
  exact applyPolicy_conforms hop h (hmarker.mono (hsuf.trans hsuf'))

theorem prepareStart_conforms (hop : op = .prepareStart c) (hs : Inv s)
    (hstart : s.active = start.active ∧ s.activeBuild = start.activeBuild) :
    Conforms op start (prepareStart c) (fun _ _ new => Inv new) (Fails Inv) past s := by
  rw [prepareStart]
  refine conforms_read_bind trivial (fun _ _ _ _ _ => ?_) fun _ _ => hs
  refine conforms_read_bind trivial (fun loaded _ hl _ _ => ?_) fun _ _ => hs
  obtain rfl : loaded = s.loaded := hl.1
  refine (recoverInterrupted_conforms hs).seq (fun state _ s' _ h => ?_) fun _ _ _ _ => id
  have hs' := h.inv
  have hunmoved : s'.active = start.active ∧ s'.activeBuild = start.activeBuild :=
    ⟨h.active.trans hstart.1, h.build.trans hstart.2⟩
  refine conforms_read_bind trivial (fun active _ ha _ _ => ?_) fun _ _ => hs'
  obtain rfl : active = s'.active := ha.1
  obtain rfl := h.loaded
  split
  · cases hactive : s'.active with
    | none => exact World.ensures_throw hs'
    | some release =>
      exact (launcherPrepare_active hs' hactive).seq
        (fun _ _ _ _ hm => World.ensures_pure hm.1.inv) fun _ _ _ _ => id
  · rename_i hstate
    have hsettled : s'.state.Settled := by
      refine StateName.settled_of h.quiet fun hc => hstate ?_
      cases hn : s'.state <;> simp_all [StateName.Committed]
    refine conforms_read_bind trivial (fun marker _ _ _ hmarker => ?_) fun _ _ => hs'
    cases marker with
    | true =>
      cases hactive : s'.active with
      | none => exact World.ensures_throw hs'
      | some release =>
        refine conforms_read_bind trivial (fun current _ hcurrent _ _ => ?_) fun _ _ => hs'
        obtain ⟨D, hD, hm⟩ := hcurrent.1
        have hbuild : s'.activeBuild = some current.buildId := by
          simp [Disk.activeBuild, Disk.buildOf, Directory.build, hactive, hD, hm]
        refine writeObservation_conforms ⟨hs', hsettled, rfl, hactive, ?_, ?_⟩
          (by simp [LastResult.Accepted])
        · exact hbuild
        · exact ⟨hactive.symm.trans hunmoved.1, hbuild.symm.trans hunmoved.2⟩
    | false => exact prepareSettled_conforms hop hs' hsettled hunmoved hmarker

theorem explicitUpdate_conforms {validate : Bool} (hop : op = .explicitUpdate c validate)
    (hs : Inv s) (hstart : s.active = start.active ∧ s.activeBuild = start.activeBuild) :
    Conforms op start (explicitUpdate c validate) (fun _ _ new => Inv new) (Fails Inv) past s := by
  rw [explicitUpdate]
  refine conforms_read_bind trivial (fun _ _ _ _ _ => ?_) fun _ _ => hs
  refine conforms_read_bind trivial (fun loaded _ hl _ _ => ?_) fun _ _ => hs
  obtain rfl : loaded = s.loaded := hl.1
  refine (recoverInterrupted_conforms hs).seq (fun state _ s' _ h => ?_) fun _ _ _ _ => id
  have hs' := h.inv
  have hunmoved : s'.active = start.active ∧ s'.activeBuild = start.activeBuild :=
    ⟨h.active.trans hstart.1, h.build.trans hstart.2⟩
  refine conforms_read_bind trivial (fun marker _ _ _ hmarker => ?_) fun _ _ => hs'
  cases marker with
  | true => exact World.ensures_throw hs'
  | false =>
    refine conforms_read_bind trivial (fun _ _ _ hsuf₁ _ => ?_) fun _ _ => hs'
    refine conforms_read_bind trivial (fun active _ ha hsuf₂ _ => ?_) fun _ _ => hs'
    refine conforms_read_bind trivial (fun state _ hl hsuf₃ _ => ?_) fun _ _ => hs'
    obtain rfl : active = s'.active := ha.1
    obtain rfl : state = s'.loaded := hl.1
    split
    · exact World.ensures_throw hs'
    · rename_i hstate
      have hsettled : s'.state.Settled := by
        cases hn : s'.state <;> simp_all [candidateStates, StateName.Settled]
      refine (prepareActive_conforms hs' hsettled hunmoved).seq
        (fun current _ s'' hsuf₄ hquiet => ?_) fun _ _ _ _ => id
      have hsuf := hsuf₁.trans (hsuf₂.trans (hsuf₃.trans hsuf₄))
      refine checkAndUpdate_conforms hquiet (by rw [hop]; rfl) ⟨hmarker.mono hsuf, fun c' hc' => ?_⟩
      simp [hop] at hc'

theorem verifyCandidateActive_conforms {state : Record} (hs : Inv s) :
    Conforms op start (verifyCandidateActive state) (fun _ _ new => new = s) (Fails Inv)
      past s := by
  have hrefuse : ∀ text past', Conforms op start (throw (.update text) : UpdaterM Unit)
      (fun _ _ new => new = s) (Fails Inv) past' s := fun text past' =>
    World.ensures_throw hs
  rw [verifyCandidateActive]
  refine conforms_read_bind trivial (fun active _ _ _ _ => ?_) fun _ _ => hs
  cases state.candidateRelease with
  | none => exact hrefuse _ _
  | some candidate =>
    cases state.candidateBuild with
    | none => exact hrefuse _ _
    | some build =>
      cases active with
      | none => exact hrefuse _ _
      | some release =>
        dsimp only
        split
        · exact hrefuse _ _
        · refine conforms_read_bind trivial (fun metadata _ _ _ _ => ?_) fun _ _ => hs
          split
          · exact hrefuse _ _
          · exact World.ensures_pure rfl

/-- Any record of the candidate that waits can be accepted, whatever its state says. -/
theorem completeAcceptance_conforms {state : Record} (hs : Inv s)
    (hbuild : state.candidateBuild = s.loaded.candidateBuild)
    (hprevious : state.previousBuild = s.loaded.previousBuild)
    (hop : op = .accept ∧ s.state = .runtimeReady ∨
      op.acceptsLocally ∧ (s.state = .startingCandidate ∨ s.state = .runtimeReady)) :
    Conforms op start (completeAcceptance state) (fun _ _ new => Inv new) (Fails Inv) past s := by
  rw [completeAcceptance]
  cases hcandidate : state.candidateBuild with
  | none => exact World.ensures_throw hs
  | some build =>
    refine conforms_read_bind trivial (fun acceptedAt _ _ _ _ => ?_) fun _ _ => hs
    refine conforms_read_bind trivial (fun now _ _ _ _ => ?_) fun _ _ => hs
    have hb : some build = s.loaded.candidateBuild := hcandidate.symm.trans hbuild
    exact writeState_inv hs (.accept hop rfl rfl rfl (by rw [hprevious]) hprevious hb hb)
      fun _ _ hnew => hnew

theorem markWorldOpened_conforms (hop : op = .markWorldOpened) (hs : Inv s) :
    Conforms op start markWorldOpened (fun _ _ new => Inv new) (Fails Inv) past s := by
  rw [markWorldOpened]
  refine conforms_read_bind trivial (fun _ _ _ _ _ => ?_) fun _ _ => hs
  refine conforms_read_bind trivial (fun loaded _ hl _ _ => ?_) fun _ _ => hs
  obtain rfl : loaded = s.loaded := hl.1
  split
  · exact World.ensures_pure hs
  · rename_i hstate
    have hd : s.state = .pendingReadiness ∨ s.state = .startingCandidate := by
      simpa using not_not.mp hstate
    have hopen : ∀ openedAt past', Conforms op start (do
        let now ← ask .utcNow
        let _ ← writeState { s.loaded with
          state := .startingCandidate
          worldOpened := some true
          worldOpenedAt := some openedAt
          updatedAt := some now }
        return true) (fun _ _ new => Inv new) (Fails Inv) past' s := by
      intro openedAt past'
      refine conforms_read_bind trivial (fun now _ _ _ _ => ?_) fun _ _ => hs
      exact .bind (writeState_inv hs (.open hop hd rfl ⟨rfl, rfl, rfl, rfl, rfl⟩ rfl)
        fun _ _ hnew => World.ensures_pure hnew)
    refine (verifyCandidateActive_conforms hs).seq (fun _ _ s' _ hs' => ?_) fun _ _ _ _ => id
    obtain rfl := hs'
    split
    · exact hopen _ _
    · exact conforms_read_bind trivial (fun openedAt _ _ _ _ => hopen openedAt _)
        fun _ _ => hs

/-- A waiting candidate whose world is recorded as opened is past `pending-readiness`. -/
theorem Inv.opened_of_waiting (hs : Inv s) (hworld : s.loaded.worldOpened = some true)
    (hstate : s.state ∈ [.pendingReadiness, .startingCandidate, .runtimeReady]) :
    s.state = .startingCandidate ∨ s.state = .runtimeReady := by
  have hcommitted : s.state.Committed := by
    cases hn : s.state <;> simp_all [StateName.Committed]
  have hopened := (hs.opened hcommitted).mp hworld
  cases hn : s.state <;> simp_all [StateName.Opened]

theorem markRuntimeReady_conforms {version revision : Option String}
    (hop : op = .markRuntimeReady c version revision) (hs : Inv s) :
    Conforms op start (markRuntimeReady c version revision) (fun _ _ new => Inv new) (Fails Inv)
      past s := by
  have hready : op.marksReady := by rw [hop]; trivial
  rw [markRuntimeReady]
  refine conforms_read_bind trivial (fun _ _ _ _ _ => ?_) fun _ _ => hs
  refine conforms_read_bind trivial (fun loaded _ hl _ _ => ?_) fun _ _ => hs
  obtain rfl : loaded = s.loaded := hl.1
  split
  · rename_i hcurrent
    refine conforms_read_bind trivial (fun ready _ _ _ _ => ?_) fun _ _ => hs
    refine conforms_read_bind trivial (fun now _ _ _ _ => ?_) fun _ _ => hs
    exact .bind (writeState_inv hs (.refresh hready hcurrent hcurrent ⟨rfl, rfl, rfl, rfl, rfl⟩
      rfl rfl rfl rfl) fun _ _ hnew => World.ensures_pure hnew)
  · split
    · exact World.ensures_pure hs
    · rename_i hwaiting
      split
      · exact World.ensures_throw hs
      · rename_i hworld
        have hd := hs.opened_of_waiting (not_not.mp hworld) (not_not.mp hwaiting)
        refine (verifyCandidateActive_conforms hs).seq (fun _ _ s' _ hs' => ?_) fun _ _ _ _ => id
        obtain rfl := hs'
        refine conforms_read_bind trivial (fun ready _ _ _ _ => ?_) fun _ _ => hs
        refine conforms_read_bind trivial (fun now _ _ _ _ => ?_) fun _ _ => hs
        dsimp only
        split
        · rename_i hlocal
          have hlocally : op.acceptsLocally := by rw [hop]; exact hlocal
          refine World.Ensures.seq (completeAcceptance_conforms hs ?_ ?_ (.inr ⟨hlocally, hd⟩))
            (fun _ _ _ _ hnew => ?_) fun _ _ _ _ => id
          · rfl
          · rfl
          · exact World.ensures_pure hnew
        · exact .bind (writeState_inv hs (.ready hready hd rfl ⟨rfl, rfl, rfl, rfl, rfl⟩
            (not_not.mp hworld)) fun _ _ hnew => World.ensures_pure hnew)

theorem accept_conforms (hop : op = .accept) (hs : Inv s) :
    Conforms op start accept (fun _ _ new => Inv new) (Fails Inv) past s := by
  rw [accept]
  refine conforms_read_bind trivial (fun _ _ _ _ _ => ?_) fun _ _ => hs
  refine conforms_read_bind trivial (fun loaded _ hl _ _ => ?_) fun _ _ => hs
  obtain rfl : loaded = s.loaded := hl.1
  split
  · exact World.ensures_pure hs
  · rename_i hstate
    split
    · exact World.ensures_throw hs
    · refine (verifyCandidateActive_conforms hs).seq (fun _ _ s' _ hs' => ?_) fun _ _ _ _ => id
      obtain rfl := hs'
      exact completeAcceptance_conforms hs rfl rfl (.inl ⟨hop, not_not.mp hstate⟩)

theorem failReadiness_conforms {detail : String} (hop : op = .failReadiness detail) (hs : Inv s) :
    Conforms op start (failReadiness detail) (fun _ _ new => Inv new) (Fails Inv) past s := by
  rw [failReadiness]
  refine conforms_read_bind trivial (fun _ _ _ _ _ => ?_) fun _ _ => hs
  refine conforms_read_bind trivial (fun loaded _ hl _ _ => ?_) fun _ _ => hs
  obtain rfl : loaded = s.loaded := hl.1
  split
  · exact World.ensures_pure hs
  · rename_i hwaiting
    split
    · exact World.ensures_throw hs
    · rename_i hworld
      have hd := hs.opened_of_waiting (not_not.mp hworld) (not_not.mp hwaiting)
      refine (verifyCandidateActive_conforms hs).seq (fun _ _ s' _ hs' => ?_) fun _ _ _ _ => id
      obtain rfl := hs'
      refine conforms_read_bind trivial (fun now _ _ _ _ => ?_) fun _ _ => hs
      exact .bind (writeState_inv hs (.fail (by rw [hop]; trivial) hd rfl
        ⟨rfl, rfl, rfl, rfl, rfl⟩ (not_not.mp hworld)) fun _ _ hnew => World.ensures_pure hnew)

/-- **The code conforms to the protocol.** From a disk that satisfies the invariant, every move of
every operation is permitted, and the operation ends on such a disk again. -/
theorem body_conforms (hs : Inv s) :
    Conforms op s op.body (fun _ _ new => Inv new) (Fails Inv) [] s := by
  cases op with
  | prepareStart c => exact prepareStart_conforms rfl hs ⟨rfl, rfl⟩
  | explicitUpdate c validate => exact explicitUpdate_conforms rfl hs ⟨rfl, rfl⟩
  | markWorldOpened => exact markWorldOpened_conforms rfl hs
  | markRuntimeReady c version revision => exact markRuntimeReady_conforms rfl hs
  | accept => exact accept_conforms rfl hs
  | failReadiness detail => exact failReadiness_conforms rfl hs

end EntryPoints

/-! ### Histories -/

/-- What the updater can have done to an install root that was empty at first: any operations, in
any order, each killed anywhere or run to its end. -/
abbrev UpdaterHistory : List (Entry Operation Request Reply Disk) → Disk → Prop :=
  History world (fun o => o.body.run) (· = Disk.empty)

/-- The histories that the protocol permits. -/
abbrev UpdaterTrail : List (Entry Operation Request Reply Disk) → Disk → Prop :=
  Trail Permitted (· = Disk.empty)

theorem UpdaterTrail.inv {h : List (Entry Operation Request Reply Disk)} {d : Disk}
    (ht : UpdaterTrail h d) : Inv d :=
  ht.invariant (fun s (hs : s = Disk.empty) => hs ▸ inv_empty) fun _ _ _ _ hG => hG.change.inv

/-- **Every history is one the protocol permits.** -/
theorem UpdaterHistory.trail {h : List (Entry Operation Request Reply Disk)} {d : Disk}
    (hh : UpdaterHistory h d) : UpdaterTrail h d := by
  have hbody : ∀ (o : Operation) (s : Disk), Inv s →
      world.Guarantees (Permitted o s) o.body.run (fun _ _ _ => True) [] s :=
    fun o s hs => World.Guarantees.mono (fun _ _ _ _ => trivial) (body_conforms hs)
  exact History.trail (fun s (hs : s = Disk.empty) => hs ▸ inv_empty)
    (fun _ _ _ _ hG => hG.change.inv) hbody hh

end Updater

end PzServer
