import PzServer.Files.AtomicWrite

/-!
# Replacing files in shell scripts

The shell scripts replace a file as `atomic_write` does, but for one thing: they synchronize after
`mv`, with `sync -f`, which writes the whole file system back. While the new file is in place and
not yet written back, a power failure may leave it with any content, of the old and of the new one
none. `exposed` tells from the commands that have run whether this is so.

`sync -f` comes twice in every function, for the file and for its directory; both are on one file
system, so the first one does it.

## Main definitions

* `writeDeploymentState`, `installFileAtomically`, `setManagedEnvironmentValue`,
  `disableServerRestartPolicy` — the functions
* `exposed`

## Main results

* `Publication.torn_iff` — when a power failure can leave something else than the old file or the
  new one
-/

namespace PzServer

namespace Files

open Interaction Durable

variable {ν α : Type} [DecidableEq ν]

/-! ### The functions -/

/-- `write_deployment_state` -/
def writeDeploymentState (temporary destination : ν) (content : α) : FileM ν α Unit := do
  ask (.truncate temporary)
  ask (.write temporary content)
  tryCatch (ask (.setMode temporary)) fun error => do
    ask (.unlink temporary)
    throw error
  tryCatch (ask (.rename temporary destination)) fun error => do
    ask (.unlink temporary)
    throw error
  ask .syncAll
  ask .syncAll

/-- The commands of a condition, from `mv` on. -/
def replace (temporary destination : ν) : FileM ν α Unit := do
  ask (.rename temporary destination)
  ask .syncAll
  ask .syncAll

/-- `mktemp`, and `if ! … || ! …; then rm -f -- "${temporary}"; die …; fi` -/
def publish (prepare : FileM ν α Unit) (temporary destination : ν) : FileM ν α Unit := do
  ask (.create temporary)
  tryCatch (do prepare; replace temporary destination) fun error => do
    ask (.unlink temporary)
    throw error

/-- `install_file_atomically`; `install` removes what is at its destination first. -/
def installFileAtomically (temporary destination : ν) (content : α) : FileM ν α Unit :=
  publish
    (do
      ask (.unlink temporary)
      ask (.create temporary)
      ask (.write temporary content)
      ask (.setMode temporary))
    temporary destination

/-- `awk … > "${temporary}"`, `chmod` and `chown`. -/
def fillEnvironment (temporary : ν) (content : α) : FileM ν α Unit := do
  ask (.truncate temporary)
  ask (.write temporary content)
  ask (.setMode temporary)
  ask (.setMode temporary)

/-- `set_managed_environment_value`, from `mktemp` on. -/
def setManagedEnvironmentValue (temporary destination : ν) (content : α) : FileM ν α Unit :=
  publish (fillEnvironment temporary content) temporary destination

/-- `disable_server_restart_policy`, from `mktemp` on and as far as it is about the file. -/
def disableServerRestartPolicy (temporary destination : ν) (content : α) : FileM ν α Unit :=
  publish (fillEnvironment temporary content) temporary destination

/-- The functions that replace a file. -/
inductive Publication where
  | deploymentState
  | installedFile
  | managedEnvironmentValue
  | restartPolicy

def Publication.program (temporary destination : ν) (content : α) : Publication → FileM ν α Unit
  | deploymentState => writeDeploymentState temporary destination content
  | installedFile => installFileAtomically temporary destination content
  | managedEnvironmentValue => setManagedEnvironmentValue temporary destination content
  | restartPolicy => disableServerRestartPolicy temporary destination content

/-! ### While the file is not written back -/

/-- A file was moved into its place, and nothing was written back since. -/
def exposed : Moves ν α → Bool
  | [] => false
  | ⟨.rename .., .ok _, _, _⟩ :: _ => true
  | ⟨.syncAll, .ok _, _, _⟩ :: _ => false
  | _ :: past => exposed past

variable {v v' : Volume ν α} {S : Option α → Prop} {temporary destination : ν} {content junk : α}
  {q : Request ν α} {past past' : Moves ν α} {reply : Except String Unit}

omit [DecidableEq ν] in
theorem exposed_prepare (hq : q.Prepares temporary) (hpast : exposed past = false) :
    exposed (⟨q, reply, v, v'⟩ :: past) = false := by
  cases q with
  | rename => exact hq.elim
  | syncAll =>
    cases reply with
    | ok => rfl
    | error => exact hpast
  | create | truncate | write | setMode | sync | syncDirectory | unlink => exact hpast

/-- What is known of the destination: whether it is exposed, and what is there. -/
def Tracked (destination : ν) (S : Option α → Prop) (content : α) (past : Moves ν α)
    (v : Volume ν α) : Prop :=
  if exposed past = true then v.Loose destination content else v.Shows destination S

omit [DecidableEq ν] in
theorem tracked_of_shows (hpast : exposed past = false) (h : v.Shows destination S) :
    Tracked destination S content past v := by
  rwa [Tracked, hpast, if_neg Bool.false_ne_true]

omit [DecidableEq ν] in
theorem tracked_of_loose (hpast : exposed past = true) (h : v.Loose destination content) :
    Tracked destination S content past v := by
  rwa [Tracked, if_pos hpast]

omit [DecidableEq ν] in
/-- The destination is torn by some power failure exactly where it is exposed. -/
theorem Tracked.crashed_iff (h : Tracked destination S content past v) (hjunk : ¬ S (some junk)) :
    (∀ left, v.Crashed left → S (left.read destination)) ↔ exposed past = false := by
  rw [← Volume.shows_iff hjunk]
  rw [Tracked] at h
  cases hpast : exposed past with
  | true =>
    rw [if_pos hpast] at h
    exact iff_of_false h.not_shows Bool.noConfusion
  | false =>
    rw [hpast, if_neg Bool.false_ne_true] at h
    exact iff_of_true h rfl

/-- Every move leaves the destination tracked. -/
def KeepsTracked (destination : ν) (S : Option α → Prop) (content : α) (past : Moves ν α)
    (m : Move (Request ν α) (fun _ => Except String Unit) (Volume ν α)) : Prop :=
  Tracked destination S content (m :: past) m.after

/-- The destination is as it was, and not exposed. -/
structure Unexposed (temporary destination : ν) (S : Option α → Prop) (past : Moves ν α)
    (v : Volume ν α) : Prop where
  publishing : Publishing temporary destination S v
  exposed : exposed past = false

omit [DecidableEq ν] in
theorem Unexposed.tracked (h : Unexposed temporary destination S past v) :
    Tracked destination S content past v :=
  tracked_of_shows h.exposed h.publishing.shows

/-! ### Preparing the file -/

theorem ensures_unexposed (q : Request ν α) (hq : q.Prepares temporary)
    (h : Unexposed temporary destination S past v) (hne : destination ≠ temporary) :
    world.Ensures (KeepsTracked destination S content) (ask q)
      (fun _ past' new => Unexposed temporary destination S past' new ∧ q.possible v = true ∧
        ∃ left, new = q.perform left v)
      (fun _ past' new => Unexposed temporary destination S past' new) past v := by
  refine ensures_ask (fun left hpossible => ?_) fun error left => ?_
  · have hnew : Unexposed temporary destination S (⟨q, .ok (), v, q.perform left v⟩ :: past)
        (q.perform left v) := ⟨h.publishing.prepare hne hq, exposed_prepare hq h.exposed⟩
    exact ⟨hnew.tracked, hnew, hpossible, left, rfl⟩
  · have hnew : Unexposed temporary destination S (⟨q, .error error, v, q.abandon left v⟩ :: past)
        (q.abandon left v) := ⟨h.publishing.abandon hq, exposed_prepare hq h.exposed⟩
    exact ⟨hnew.tracked, hnew⟩

/-- Where the temporary file is filled, it is not written back. -/
def Fills (temporary destination : ν) (S : Option α → Prop) (content : α)
    (p : FileM ν α Unit) : Prop :=
  ∀ past v, Unexposed temporary destination S past v → (v.entry temporary).isSome →
    world.Ensures (KeepsTracked destination S content) p
      (fun _ past' new => Unexposed temporary destination S past' new ∧
        new.Loose temporary content)
      (fun _ past' new => Unexposed temporary destination S past' new) past v

theorem ensures_write (h : Unexposed temporary destination S past v)
    (hne : destination ≠ temporary) :
    world.Ensures (KeepsTracked destination S content) (ask (.write temporary content))
      (fun _ past' new => Unexposed temporary destination S past' new ∧
        new.Loose temporary content)
      (fun _ past' new => Unexposed temporary destination S past' new) past v := by
  refine (ensures_unexposed (.write temporary content) rfl h hne).mono (fun _ _ _ h₁ => ?_)
    fun _ _ _ => id
  obtain ⟨h₁, hentry, left, rfl⟩ := h₁
  exact ⟨h₁, Volume.loose_write hentry⟩

/-- The mode and the owner do not matter here. -/
theorem ensures_setMode (h : Unexposed temporary destination S past v)
    (hne : destination ≠ temporary) (hloose : v.Loose temporary content) :
    world.Ensures (KeepsTracked destination S content) (ask (.setMode temporary))
      (fun _ past' new => Unexposed temporary destination S past' new ∧
        new.Loose temporary content)
      (fun _ past' new => Unexposed temporary destination S past' new) past v := by
  refine (ensures_unexposed (.setMode temporary) rfl h hne).mono (fun _ _ _ h₁ => ?_)
    fun _ _ _ => id
  obtain ⟨h₁, -, left, rfl⟩ := h₁
  exact ⟨h₁, hloose⟩

theorem fills_environment (hne : destination ≠ temporary) :
    Fills temporary destination S content (fillEnvironment temporary content) := by
  intro past v h _
  refine (ensures_unexposed (.truncate temporary) rfl h hne).seq (fun _ _ _ _ h₁ => ?_)
    fun _ _ _ _ => id
  refine (ensures_write h₁.1 hne).seq (fun _ _ _ _ h₂ => ?_) fun _ _ _ _ => id
  refine (ensures_setMode h₂.1 hne h₂.2).seq (fun _ _ _ _ h₃ => ?_) fun _ _ _ _ => id
  exact ensures_setMode h₃.1 hne h₃.2

theorem fills_install (hne : destination ≠ temporary) :
    Fills temporary destination S content
      (do
        ask (.unlink temporary)
        ask (.create temporary)
        ask (.write temporary content)
        ask (.setMode temporary)) := by
  intro past v h _
  refine (ensures_unexposed (.unlink temporary) rfl h hne).seq (fun _ _ _ _ h₁ => ?_)
    fun _ _ _ _ => id
  refine (ensures_unexposed (.create temporary) rfl h₁.1 hne).seq (fun _ _ _ _ h₂ => ?_)
    fun _ _ _ _ => id
  refine (ensures_write h₂.1 hne).seq (fun _ _ _ _ h₃ => ?_) fun _ _ _ _ => id
  exact ensures_setMode h₃.1 hne h₃.2

/-! ### Replacing the file -/

/-- What a function ends with: the new content, safe, where it returns. -/
def Publishes (destination : ν) (S : Option α → Prop) (content : α) (past : Moves ν α)
    (v : Volume ν α) (p : FileM ν α Unit) : Prop :=
  world.Ensures (KeepsTracked destination S content) p
    (fun _ _ new => new.Shows destination (· = some content))
    (fun _ past' new => Tracked destination S content past' new) past v

/-- The temporary file is removed, and the exception goes on. -/
theorem ensures_removing (error : String) {ok : Unit → Moves ν α → Volume ν α → Prop}
    (hne : destination ≠ temporary) (h : Tracked destination S content past v) :
    world.Ensures (KeepsTracked destination S content)
      (do
        ask (.unlink temporary)
        throw error : FileM ν α Unit)
      ok (fun _ past' new => Tracked destination S content past' new) past v := by
  have hnew : ∀ reply left, Tracked destination S content
      (⟨.unlink temporary, reply, v, (Request.unlink temporary).perform left v⟩ :: past)
      (v.unlink temporary) := by
    intro reply left
    cases hpast : exposed past with
    | true =>
      rw [Tracked, if_pos hpast] at h
      exact tracked_of_loose hpast (h.unlink hne)
    | false =>
      rw [Tracked, hpast, if_neg Bool.false_ne_true] at h
      exact tracked_of_shows hpast (h.unlink hne)
  have hask : world.Ensures (KeepsTracked destination S content)
      (ask (.unlink temporary) : FileM ν α Unit)
      (fun _ past' new => Tracked destination S content past' new)
      (fun _ past' new => Tracked destination S content past' new) past v :=
    ensures_ask (fun left _ => ⟨hnew (.ok ()) left, hnew (.ok ()) left⟩) fun _ _ => ⟨h, h⟩
  exact hask.seq (fun _ _ _ _ h₁ => World.ensures_throw h₁) fun _ _ _ _ => id

/-- Everything is written back, twice. -/
theorem publishes_syncAll (hS : S (some content)) (hpast : exposed past = true)
    (h : v.Loose destination content) :
    Publishes destination S content past v
      (do
        ask .syncAll
        ask .syncAll) := by
  have hfirst : world.Ensures (KeepsTracked destination S content) (ask .syncAll : FileM ν α Unit)
      (fun _ past' new => exposed past' = false ∧ new.Shows destination (· = some content))
      (fun _ past' new => Tracked destination S content past' new) past v := by
    have hshows : v.syncAll.Shows destination (· = some content) := Volume.shows_syncAll h.read
    refine ensures_ask (fun _ _ => ⟨?_, rfl, hshows⟩) fun _ _ => ?_
    · exact tracked_of_shows rfl (hshows.mono fun x hx => hx ▸ hS)
    · exact ⟨tracked_of_loose hpast h, tracked_of_loose hpast h⟩
  refine hfirst.seq (fun _ past₁ v₁ _ h₁ => ?_) fun _ _ _ _ => id
  obtain ⟨hpast₁, h₁⟩ := h₁
  have hshows : v₁.syncAll.Shows destination (· = some content) := Volume.shows_syncAll h₁.read
  have hS₁ : Tracked destination S content past₁ v₁ :=
    tracked_of_shows hpast₁ (h₁.mono fun x hx => hx ▸ hS)
  refine ensures_ask (fun _ _ => ⟨?_, hshows⟩) fun _ _ => ⟨hS₁, hS₁⟩
  exact tracked_of_shows rfl (hshows.mono fun x hx => hx ▸ hS)

/-- The file is moved into its place. -/
theorem ensures_rename (h : Unexposed temporary destination S past v)
    (hne : destination ≠ temporary) (hloose : v.Loose temporary content) :
    world.Ensures (KeepsTracked destination S content)
      (ask (.rename temporary destination) : FileM ν α Unit)
      (fun _ past' new => exposed past' = true ∧ new.Loose destination content)
      (fun _ past' new => Tracked destination S content past' new) past v := by
  have hnew := hloose.rename hne
  refine ensures_ask (fun _ _ => ⟨tracked_of_loose rfl hnew, rfl, hnew⟩) fun _ _ => ?_
  exact ⟨tracked_of_shows h.exposed h.publishing.shows, h.tracked⟩

theorem publishes_replace (hS : S (some content)) (h : Unexposed temporary destination S past v)
    (hne : destination ≠ temporary) (hloose : v.Loose temporary content) :
    Publishes destination S content past v (replace temporary destination) :=
  (ensures_rename h hne hloose).seq
    (fun _ _ _ _ h₁ => publishes_syncAll hS h₁.1 h₁.2) fun _ _ _ _ => id

theorem publishes_publish {prepare : FileM ν α Unit} (hS : S (some content))
    (hprepare : Fills temporary destination S content prepare)
    (h : Unexposed temporary destination S past v) (hne : destination ≠ temporary) :
    Publishes destination S content past v (publish prepare temporary destination) := by
  refine (ensures_unexposed (.create temporary) rfl h hne).seq (fun _ past₁ v₁ _ h₁ => ?_)
    fun _ _ _ _ h₁ => h₁.tracked
  obtain ⟨h₁, -, left, rfl⟩ := h₁
  have hentry : ((v.create temporary left).entry temporary).isSome := by
    rw [Volume.create, Volume.entry_point_self]
    rfl
  have hbody : Publishes destination S content past₁ (v.create temporary left)
      (do prepare; replace temporary destination) :=
    (hprepare _ _ h₁ hentry).seq (fun _ _ _ _ h₂ => publishes_replace hS h₂.1 hne h₂.2)
      fun _ _ _ _ h₂ => h₂.tracked
  exact hbody.handle (fun _ _ _ _ => id) fun error _ _ _ h₂ => ensures_removing error hne h₂

theorem publishes_deploymentState (hS : S (some content))
    (h : Unexposed temporary destination S past v) (hne : destination ≠ temporary) :
    Publishes destination S content past v
      (writeDeploymentState temporary destination content) := by
  refine (ensures_unexposed (.truncate temporary) rfl h hne).seq (fun _ _ _ _ h₁ => ?_)
    fun _ _ _ _ h₁ => h₁.tracked
  refine (ensures_write h₁.1 hne).seq (fun _ _ _ _ h₂ => ?_) fun _ _ _ _ h₂ => h₂.tracked
  obtain ⟨h₂, hloose⟩ := h₂
  refine ((ensures_setMode h₂ hne hloose).handle (fun _ _ _ _ => id) fun error _ _ _ h₃ =>
    ensures_removing error hne h₃.tracked).seq (fun _ _ _ _ h₃ => ?_) fun _ _ _ _ => id
  refine ((ensures_rename h₃.1 hne h₃.2).handle (fun _ _ _ _ => id) fun error _ _ _ h₄ =>
    ensures_removing error hne h₄).seq (fun _ _ _ _ h₄ => ?_) fun _ _ _ _ => id
  exact publishes_syncAll hS h₄.1 h₄.2

theorem publishes_program (publication : Publication) (hS : S (some content))
    (h : Unexposed temporary destination S past v) (hne : destination ≠ temporary) :
    Publishes destination S content past v
      (publication.program temporary destination content) := by
  cases publication with
  | deploymentState => exact publishes_deploymentState hS h hne
  | installedFile => exact publishes_publish hS (fills_install hne) h hne
  | managedEnvironmentValue => exact publishes_publish hS (fills_environment hne) h hne
  | restartPolicy => exact publishes_publish hS (fills_environment hne) h hne

/-- **Power failures in the scripts.** Wherever one of the functions has come to, a power failure
leaves the old file or the new one for certain if and only if the file was not moved into its place,
or the file system was written back since; and when the function returns, it leaves the new one. -/
theorem Publication.torn_iff (publication : Publication) {old : Option α}
    {rest : Program (Request ν α) (fun _ => Except String Unit) (Except String Unit)}
    (hne : destination ≠ temporary) (hapart : v.Apart temporary destination)
    (hold : v.Shows destination (· = old)) (hjunk : some junk ≠ old) (hjunk' : junk ≠ content)
    (he : world.Exec (publication.program temporary destination content).run [] v rest past v') :
    ((∀ left, v'.Crashed left → left.read destination = old ∨
        left.read destination = some content) ↔ exposed past = false) ∧
      (rest = .done (.ok ()) → ∀ left, v'.Crashed left → left.read destination = some content) := by
  have hunexposed : Unexposed temporary destination (fun x => x = old ∨ x = some content) [] v :=
    ⟨⟨hapart, hold.mono fun _ => .inl⟩, rfl⟩
  have hguarantees : world.Guarantees (KeepsTracked destination _ content)
    (publication.program temporary destination content).run _ [] v :=
      publishes_program publication (.inr rfl) hunexposed hne
  constructor
  · have htracked := hguarantees.exec_after (K := fun past v => Tracked destination
      (fun x => x = old ∨ x = some content) content past v) (fun _ _ hm => hm) he hunexposed.tracked
    have hother : ¬ (some junk = old ∨ some junk = some content) := by
      rintro (h | h)
      · exact hjunk h
      · exact hjunk' (Option.some.inj h)
    exact htracked.crashed_iff hother
  · rintro rfl left hleft
    exact ((hguarantees.exec_done he).crashed hleft).read

/-- After `mv`, the state of a deployment may be torn. -/
theorem Publication.torn_deploymentState : ∃ (past : Moves ℕ ℕ) (v' : Volume ℕ ℕ)
    (rest : Program (Request ℕ ℕ) (fun _ => Except String Unit) (Except String Unit)),
    world.Exec (Publication.deploymentState.program 1 0 1).run [] (single 0 (some 0)) rest past v' ∧
      ¬ ∀ left, v'.Crashed left → left.read 0 = some 0 ∨ left.read 0 = some 1 := by
  have he : world.Exec (Publication.deploymentState.program 1 0 1).run [] (single 0 (some 0))
      _ _ _ :=
    .ask ⟨none, 0⟩ rfl (.ask ⟨none, 0⟩ rfl (.ask ⟨none, 0⟩ rfl (.ask ⟨none, 0⟩ rfl (.refl _ _ _))))
  refine ⟨_, _, _, he, fun hall => ?_⟩
  have hjunk : some 2 ≠ some 0 := by decide
  have hexposed := (Publication.torn_iff .deploymentState (by decide) (Volume.apart_of_entry rfl)
    (shows_single 0 (some 0)) hjunk (by decide) he).1.mp hall
  cases hexposed

end Files

end PzServer
