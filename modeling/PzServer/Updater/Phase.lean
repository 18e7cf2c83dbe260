import PzServer.Interaction.Assuming
import PzServer.Updater.Orphans

/-!
# Update attempts in which one step fails

An update attempt begins when `prepare_start` asks Steam for the latest build. `phase` reads off
the moves of an operation where its attempt stands: not begun, begun with nothing failed so far, or
failed at one step. It is `none` as soon as two steps have failed, or something outside the attempt,
so `single` is the assumption that at most one step of the attempt fails.

A step fails when its request raises. A durable write that raises may have taken effect. And the
validation of a candidate fails, without raising, where it finds another build than Steam reported.

## Main definitions

* `phase`, `single` — where an attempt stands
* `Attempts` — what a program does while at most one step fails
-/

namespace PzServer

namespace Updater

open Interaction

variable {α : Type} {s new : Disk} {past : List UpdaterMove} {latest : ℕ}
  {ok : α → List UpdaterMove → Disk → Prop} {err : Err → List UpdaterMove → Disk → Prop}

/-! ### Phases -/

/-- Where an update attempt stands. -/
inductive Phase where
  /-- Steam has not been asked. -/
  | preparing
  /-- Steam reported build `latest`, and no step has failed. -/
  | attempting (latest : ℕ)
  /-- The step `m` has failed. -/
  | failed (m : UpdaterMove)

/-- The requests that are steps of the attempt. What is left out comes before the attempt, reads the
record and the pointer again for a handler, or cannot fail. -/
def Request.isStep : Request → Bool
  | .latestBuild _ | .gameServerRunning | .readPrevious | .rmtree _ | .unlinkPrevious
  | .requireCandidateSpace _ | .mkdir _ | .writeState _ | .install .. | .inspectLauncher ..
  | .writeLauncherJson .. | .replaceWrapper _ | .createBackup .. | .promote .. | .writePrevious _
  | .writeActive _ => true
  | _ => false

/-- The request raised. -/
def UpdaterMove.raises (m : UpdaterMove) : Bool :=
  match m.reply with
  | .error _ => true
  | .ok _ => false

/-- What Steam answered, when the move asks it for the latest build. -/
def UpdaterMove.query : UpdaterMove → Option (Except Err ℕ)
  | ⟨.latestBuild _, reply, _, _⟩ => some reply
  | _ => none

/-- The move validated a launcher whose build is not `latest`. -/
def UpdaterMove.mismatches (latest : ℕ) : UpdaterMove → Bool
  | ⟨.inspectLauncher .., .ok metadata, _, _⟩ => metadata.buildId ≠ latest
  | _ => false

/-- The phase after a move. -/
def Phase.next : Phase → UpdaterMove → Option Phase
  | preparing, m =>
    match m.query with
    | some (.ok latest) => some (attempting latest)
    | some (.error _) => some (failed m)
    | none => if m.raises then none else some preparing
  | attempting latest, m =>
    if m.raises || m.mismatches latest then
      if m.request.isStep then some (failed m) else none
    else some (attempting latest)
  | failed step, m => if m.raises then none else some (failed step)

/-- Where the attempt of an operation that made these moves stands. -/
def phase : List UpdaterMove → Option Phase
  | [] => some .preparing
  | m :: past => (phase past).bind (·.next m)

/-- At most one step fails, and it is a step of the attempt. -/
def single : Assumption Request Reply Disk where
  Holds past := (phase past).isSome
  of_cons m past h := by
    rw [phase] at h
    cases hphase : phase past with
    | none =>
      rw [hphase] at h
      cases h
    | some φ => rfl

/-- The steps that no `except` clause of the attempt encloses, where they raise something else than
an `UpdateError`. -/
def UpdaterMove.escapes : UpdaterMove → Bool
  | ⟨.latestBuild _, .error e, _, _⟩ | ⟨.gameServerRunning, .error e, _, _⟩ => !e.isUpdateError
  | _ => false

/-- A step has failed, and the failure was caught. -/
def Spent (past : List UpdaterMove) : Prop :=
  ∃ m : UpdaterMove, phase past = some (.failed m) ∧ m.escapes = false

/-- No failure has escaped. -/
def Sound (past : List UpdaterMove) : Prop :=
  ∃ φ, phase past = some φ ∧ ∀ m : UpdaterMove, φ = .failed m → m.escapes = false

theorem Spent.sound (h : Spent past) : Sound past := by
  obtain ⟨m, hphase, hm⟩ := h
  refine ⟨_, hphase, fun m' hm' => ?_⟩
  cases hm'
  exact hm

theorem sound_of_attempting (h : phase past = some (.attempting latest)) : Sound past := by
  refine ⟨_, h, fun m hm => ?_⟩
  cases hm

theorem sound_of_preparing (h : phase past = some .preparing) : Sound past := by
  refine ⟨_, h, fun m hm => ?_⟩
  cases hm

/-! ### Rules -/

/-- What a program does while at most one step of the attempt fails. -/
abbrev Attempts (p : UpdaterM α) (ok : α → List UpdaterMove → Disk → Prop)
    (err : Err → List UpdaterMove → Disk → Prop) (past : List UpdaterMove) (s : Disk) : Prop :=
  world.Assuming single p ok err past s

/-- The kind of exception a request raises, where it is known. -/
def Request.Raises (e : Err) : Request → Prop
  | .loadState | .writeState _ | .readActive | .readPrevious | .requireCandidateSpace _
  | .readInstalledMetadata _ | .raiseAmbiguous => e.isUpdateError = true
  | .writeActive _ | .writePrevious _ | .unlinkPrevious | .ensureRoot | .mkdir _ | .rmtree _
  | .promote .. | .writeLauncherJson .. | .replaceWrapper _ => e.isOSError = true
  | _ => True

theorem raises_answer {q : Request} {c : Choice q} {e : Err} (h : (answer s q c).1 = .error e) :
    q.Raises e := by
  have hpointer : ∀ name pointer (c : ReadOutcome), s.readPointer name pointer c = .error e →
      e.isUpdateError = true := by
    intro name pointer c hc
    cases c with
    | failed => cases hc; rfl
    | ok =>
      cases pointer with
      | none => cases hc
      | some r =>
        simp only [Disk.readPointer] at hc
        split at hc
        · cases hc
        · cases hc; rfl
  cases q with
  | writeState | writeActive | writePrevious | writeLauncherJson =>
    cases c <;> cases h <;> rfl
  | replaceWrapper => cases c <;> cases h <;> rfl
  | loadState | unlinkPrevious | requireCandidateSpace | ensureRoot => cases c <;> cases h <;> rfl
  | readActive => exact hpointer _ _ c h
  | readPrevious => exact hpointer _ _ c h
  | readInstalledMetadata r =>
    cases c with
    | failed => cases h; rfl
    | ok =>
      simp only [answer, Disk.readInstalled] at h
      split at h
      · cases h; rfl
      · cases h
  | mkdir r =>
    simp only [answer] at h
    split at h
    · cases h; rfl
    · cases c <;> cases h <;> rfl
  | rmtree r =>
    simp only [answer] at h
    split at h
    · cases h; rfl
    · cases c <;> cases h <;> rfl
  | promote candidate final =>
    simp only [answer] at h
    split at h
    · cases h; rfl
    · split at h
      · cases h; rfl
      · cases c <;> cases h <;> rfl
  | raiseAmbiguous => cases h; rfl
  | _ => trivial

/-- One request, from its effect and the phase it leads to. -/
theorem attempts_ask {q : Request} {ok : Value q → List UpdaterMove → Disk → Prop} {φ : Phase}
    (hphase : phase past = some φ)
    (hok : ∀ v new φ', Effect s new q (.ok v) → φ.next ⟨q, .ok v, s, new⟩ = some φ' →
      phase (⟨q, .ok v, s, new⟩ :: past) = some φ' → ok v (⟨q, .ok v, s, new⟩ :: past) new)
    (herr : ∀ e new φ', Effect s new q (.error e) → q.Raises e →
      φ.next ⟨q, .error e, s, new⟩ = some φ' →
      phase (⟨q, .error e, s, new⟩ :: past) = some φ' →
        err e (⟨q, .error e, s, new⟩ :: past) new) :
    Attempts (ask q) ok err past s := by
  have hnext : ∀ m : UpdaterMove, single.Holds (m :: past) →
      ∃ φ', φ.next m = some φ' ∧ phase (m :: past) = some φ' := by
    intro m hH
    obtain ⟨φ', hφ'⟩ := Option.isSome_iff_exists.mp hH
    refine ⟨φ', ?_, hφ'⟩
    rwa [phase, hphase] at hφ'
  refine World.assuming_ask fun c hc hH => ?_
  have heffect := effect_answer hc
  obtain ⟨φ', hφ, hφ'⟩ := hnext _ hH
  simp only [world, World.move] at hφ hφ' ⊢
  cases hr : (answer s q c).1 with
  | ok v =>
    rw [hr] at heffect hφ hφ'
    simpa [hr] using hok v _ φ' heffect hφ hφ'
  | error e =>
    rw [hr] at heffect hφ hφ'
    simpa [hr] using herr e _ φ' heffect (raises_answer hr) hφ hφ'

/-- The requests whose failures are all alike. -/
def Request.Plain : Request → Prop
  | .latestBuild _ | .gameServerRunning | .inspectLauncher .. => False
  | _ => True

theorem Request.Plain.query {q : Request} (hq : q.Plain) {reply : Reply q} :
    UpdaterMove.query ⟨q, reply, s, new⟩ = none := by
  cases q <;> first
    | exact hq.elim
    | rfl

theorem Request.Plain.mismatches {q : Request} (hq : q.Plain) {reply : Reply q} :
    UpdaterMove.mismatches latest ⟨q, reply, s, new⟩ = false := by
  cases q <;> first
    | exact hq.elim
    | rfl

theorem Request.Plain.escapes {q : Request} (hq : q.Plain) {reply : Reply q} :
    UpdaterMove.escapes ⟨q, reply, s, new⟩ = false := by
  cases q <;> first
    | exact hq.elim
    | rfl

theorem Phase.next_ok {q : Request} (hq : q.Plain) (φ : Phase) {v : Value q} :
    φ.next ⟨q, .ok v, s, new⟩ = some φ := by
  cases φ with
  | preparing => simp [next, hq.query, UpdaterMove.raises]
  | attempting latest => simp [next, hq.mismatches, UpdaterMove.raises]
  | failed m => rfl

/-- Where a plain request may fail: the attempt has begun, and nothing has failed. -/
theorem Phase.next_error {q : Request} (hq : q.Plain) {φ φ' : Phase} {e : Err}
    (h : φ.next ⟨q, .error e, s, new⟩ = some φ') :
    (∃ latest, φ = .attempting latest) ∧ q.isStep = true ∧
      φ' = .failed ⟨q, .error e, s, new⟩ := by
  cases φ with
  | preparing => simp [next, hq.query, UpdaterMove.raises] at h
  | attempting latest =>
    have hstep : q.isStep = true ∧ failed ⟨q, .error e, s, new⟩ = φ' := by
      simpa [next, UpdaterMove.raises] using h
    exact ⟨⟨latest, rfl⟩, hstep.1, hstep.2.symm⟩
  | failed m => simp [next, UpdaterMove.raises] at h

/-- One plain request. Where it fails, the attempt had begun and nothing had failed before. -/
theorem attempts_plain {q : Request} {ok : Value q → List UpdaterMove → Disk → Prop} {φ : Phase}
    (hq : q.Plain) (hphase : phase past = some φ)
    (hok : ∀ v past' new, Effect s new q (.ok v) → phase past' = some φ → ok v past' new)
    (herr : ∀ e past' new latest, φ = .attempting latest → q.isStep = true → q.Raises e →
      Effect s new q (.error e) → Spent past' → err e past' new) :
    Attempts (ask q) ok err past s := by
  refine attempts_ask hphase (fun v new φ' he hnext hφ' => ?_)
    fun e new φ' he hraises hnext hφ' => ?_
  · rw [Phase.next_ok hq] at hnext
    exact hok v _ new he (hφ'.trans hnext.symm)
  · obtain ⟨⟨latest, hφ⟩, hstep, rfl⟩ := Phase.next_error hq hnext
    exact herr e _ new latest hφ hstep hraises he ⟨_, hφ', hq.escapes⟩

/-- The requests that are no step of the attempt. -/
def Request.Aside : Request → Prop
  | .lock | .utcNow | .loadState | .readActive | .ensureRoot | .markerExists | .worldHasState
  | .uniqueCandidate _ | .finalRelease _ | .pathExists _ | .readInstalledMetadata _ => True
  | _ => False

/-- A request that is no step of the attempt, and what follows it: it does not fail. -/
theorem attempts_aside_bind {q : Request} {f : Value q → UpdaterM α} {φ : Phase} (hq : q.Aside)
    (hphase : phase past = some φ)
    (hok : ∀ v past', Effect s s q (.ok v) → phase past' = some φ →
      Attempts (f v) ok err past' s) :
    Attempts (ask q >>= f) ok err past s := by
  have hplain : q.Plain ∧ q.Reads ∧ q.isStep = false := by
    cases q <;> first
      | exact hq.elim
      | exact ⟨trivial, trivial, rfl⟩
  have hask : Attempts (ask q) (fun v past' new => Attempts (f v) ok err past' new)
      (fun _ _ _ => False) past s := by
    refine attempts_plain hplain.1 hphase (fun v past' new he hφ => ?_)
      fun e past' new latest _ hstep _ => ?_
    · obtain rfl := he.eq_of_reads hplain.2.1
      exact hok v past' he hφ
    · rw [hplain.2.2] at hstep
      cases hstep
  exact hask.seq (fun _ _ _ h => h) fun _ _ _ => False.elim

/-! ### The three requests with a rule of their own -/

/-- Asking Steam begins the attempt. -/
theorem latestBuild_attempts {branch : String} (hphase : phase past = some .preparing) :
    Attempts (ask (.latestBuild branch))
      (fun latest past' new => phase past' = some (.attempting latest) ∧ new = s)
      (fun e past' new => (∃ m : UpdaterMove, phase past' = some (.failed m) ∧
        m.escapes = !e.isUpdateError) ∧ new = s) past s := by
  refine attempts_ask hphase (fun latest new φ' he hnext hφ' => ?_)
    fun e new φ' he hraises hnext hφ' => ?_
  · obtain rfl : φ' = .attempting latest := by
      simpa [Phase.next, UpdaterMove.query] using hnext.symm
    exact ⟨hφ', he⟩
  · obtain rfl : φ' = .failed ⟨.latestBuild branch, .error e, s, new⟩ := by
      simpa [Phase.next, UpdaterMove.query] using hnext.symm
    exact ⟨⟨_, hφ', rfl⟩, he⟩

theorem gameServerRunning_attempts (hphase : phase past = some (.attempting latest)) :
    Attempts (ask .gameServerRunning)
      (fun _ past' new => phase past' = some (.attempting latest) ∧ new = s)
      (fun e past' new => (∃ m : UpdaterMove, phase past' = some (.failed m) ∧
        m.escapes = !e.isUpdateError) ∧ new = s) past s := by
  refine attempts_ask hphase (fun running new φ' he hnext hφ' => ?_)
    fun e new φ' he hraises hnext hφ' => ?_
  · obtain rfl : φ' = .attempting latest := by
      simpa [Phase.next, UpdaterMove.raises, UpdaterMove.mismatches] using hnext.symm
    exact ⟨hφ', he⟩
  · obtain rfl : φ' = .failed ⟨.gameServerRunning, .error e, s, new⟩ := by
      simpa [Phase.next, UpdaterMove.raises, Request.isStep] using hnext.symm
    exact ⟨⟨_, hφ', rfl⟩, he⟩

/-- Validating the candidate: it fails, or finds another build, or nothing has failed. -/
theorem inspectLauncher_attempts {r : Release} {xms xmx : String}
    (hphase : phase past = some (.attempting latest)) :
    Attempts (ask (.inspectLauncher r xms xmx))
      (fun metadata past' new => new = s ∧
        (metadata.buildId = latest ∧ phase past' = some (.attempting latest) ∨
          metadata.buildId ≠ latest ∧ Spent past'))
      (fun _ past' new => new = s ∧ Spent past') past s := by
  refine attempts_ask hphase (fun metadata new φ' he hnext hφ' => ?_)
    fun e new φ' he hraises hnext hφ' => ?_
  · refine ⟨he.2, ?_⟩
    by_cases hbuild : metadata.buildId = latest
    · obtain rfl : φ' = .attempting latest := by
        simpa [Phase.next, UpdaterMove.raises, UpdaterMove.mismatches, hbuild] using hnext.symm
      exact .inl ⟨hbuild, hφ'⟩
    · obtain rfl : φ' = .failed ⟨.inspectLauncher r xms xmx, .ok metadata, s, new⟩ := by
        simpa [Phase.next, UpdaterMove.raises, UpdaterMove.mismatches, Request.isStep, hbuild]
          using hnext.symm
      exact .inr ⟨hbuild, _, hφ', rfl⟩
  · obtain rfl : φ' = .failed ⟨.inspectLauncher r xms xmx, .error e, s, new⟩ := by
      simpa [Phase.next, UpdaterMove.raises, Request.isStep] using hnext.symm
    exact ⟨he, _, hφ', rfl⟩

/-- Validating the active release, before the attempt. -/
theorem inspectLauncher_prepares {r : Release} {xms xmx : String}
    (hphase : phase past = some .preparing) :
    Attempts (ask (.inspectLauncher r xms xmx))
      (fun _ past' new => new = s ∧ phase past' = some .preparing) (fun _ _ _ => False) past s := by
  refine attempts_ask hphase (fun metadata new φ' he hnext hφ' => ?_)
    fun e new φ' he hraises hnext hφ' => ?_
  · obtain rfl : φ' = .preparing := by
      simpa [Phase.next, UpdaterMove.query, UpdaterMove.raises] using hnext.symm
    exact ⟨he.2, hφ'⟩
  · simp [Phase.next, UpdaterMove.query, UpdaterMove.raises] at hnext

end Updater

end PzServer
