import PzServer.Updater.Frame
import PzServer.Updater.Phase

/-!
# How an update attempt is given up

What an attempt must leave of the active release, and the ways in which it can raise while at most
one step of it fails. Every handler ends by recording the failure, and the lemmas here say that this
leaves the release as it was, with nothing that the attempt made.

## Main definitions

* `Retains`, `Intact` — the active release and its directory are as they were
* `Switched` — the candidate is active, and the record says so
* `Failed` — the four ways in which an attempt is given up

## Main results

* `attempts_step`, `attempts_spent_bind` — a step before and after the failure
* `stop_attempts` — the handlers that record the failure and raise
-/

namespace PzServer

namespace Updater

open Interaction

variable {α : Type} {d s new : Disk} {a r : Release} {past : List UpdaterMove} {latest : ℕ}
  {φ : Phase} {made made' : Release → Prop} {ok : α → List UpdaterMove → Disk → Prop}
  {err : Err → List UpdaterMove → Disk → Prop}

/-! ### What is kept -/

/-- Release `a` is active, its directory is there with the build it had on disk `d`, and the
directories that `d` did not have are among those `made`. -/
structure Retains (d : Disk) (a : Release) (made : Release → Prop) (s : Disk) : Prop where
  active : s.active = some a
  present : (s.releases a).isSome
  build : s.buildOf a = d.buildOf a
  old : ∀ r, (s.releases r).isSome → (d.releases r).isSome ∨ made r

/-- Nothing that was made is left. -/
abbrev Intact (d : Disk) (a : Release) (s : Disk) : Prop := Retains d a (fun _ => False) s

namespace Retains

theorem refl (ha : d.active = some a) (hpresent : (d.releases a).isSome) : Intact d a d :=
  ⟨ha, hpresent, rfl, fun _ => .inl⟩

theorem mono (h : Retains d a made s) (himp : ∀ r, made r → made' r) : Retains d a made' s :=
  ⟨h.active, h.present, h.build, fun r hr => (h.old r hr).imp_right (himp r)⟩

/-- Writing the record or `previous-release` keeps it all. -/
theorem of_eq (h : Retains d a made s) (hactive : new.active = s.active)
    (hreleases : new.releases = s.releases) : Retains d a made new where
  active := hactive.trans h.active
  present := hreleases ▸ h.present
  build := by rw [← h.build, Disk.buildOf, Disk.buildOf, hreleases]
  old := hreleases ▸ h.old

theorem directory (h : Retains d a made s) {D : Option Directory} (hr : r ≠ a)
    (hD : D.isSome → (d.releases r).isSome ∨ made' r)
    (hmade : ∀ q, q ≠ r → made q → made' q) : Retains d a made' (s.setDirectory r D) where
  active := h.active
  present := by
    rw [s.setDirectory_of_ne D hr.symm]
    exact h.present
  build := (s.buildOf_setDirectory_of_ne D hr.symm).trans h.build
  old q hq := by
    by_cases hqr : q = r
    · subst hqr
      rw [s.setDirectory_self] at hq
      exact hD hq
    · rw [s.setDirectory_of_ne D hqr] at hq
      exact (h.old q hq).imp_right (hmade q hqr)

/-- Writing into another directory. -/
theorem inDirectory (h : Retains d a made s) {g : Directory → Directory} (hr : r ≠ a) :
    Retains d a made (s.inDirectory r g) := by
  cases hD : s.releases r with
  | none =>
    have hsame : s.inDirectory r g = s := by rw [Disk.inDirectory, hD]
    rwa [hsame]
  | some D =>
    rw [Disk.inDirectory_of_some hD]
    refine h.directory hr (fun _ => h.old r ?_) fun _ _ => id
    rw [hD]
    rfl

/-- Rewriting the launcher files of the active release. -/
theorem launcher (h : Retains d a made s) {g : Directory → Directory}
    (hg : ∀ D, (g D).manifest = D.manifest) : Retains d a made (s.inDirectory a g) := by
  obtain ⟨D, hD⟩ := Option.isSome_iff_exists.mp h.present
  rw [Disk.inDirectory_of_some hD]
  have hbuild : (s.setDirectory a (some (g D))).buildOf a = s.buildOf a := by
    simp [Disk.buildOf, Directory.build, hD, hg]
  refine ⟨h.active, by simp, hbuild.trans h.build, fun q hq => ?_⟩
  by_cases hqa : q = a
  · exact h.old q (hqa ▸ h.present)
  · rw [s.setDirectory_of_ne _ hqa] at hq
    exact h.old q hq

end Retains

/-- Release `f` is active in the place of `a`, and the record names it as the candidate. -/
structure SwitchedTo (a f : Release) (s : Disk) : Prop where
  apart : f ≠ a
  active : s.active = some f
  present : (s.releases f).isSome
  candidate : s.loaded.candidateRelease = some f
  state : s.state = .activating ∨ s.state = .pendingReadiness

/-- Another release is active, and the record says so. -/
def Switched (a : Release) (s : Disk) : Prop := ∃ f, SwitchedTo a f s

/-- **All or nothing.** -/
def Atomic (d : Disk) (a : Release) (result : Except Err Record) (new : Disk) : Prop :=
  (∃ v, result = .ok v) ∧ Intact d a new ∨ Switched a new

/-! ### How an attempt is given up -/

/-- A failure is on record, or there was none. -/
structure Stopped (d : Disk) (a : Release) (past : List UpdaterMove) (s : Disk) : Prop where
  sound : Sound past
  intact : Intact d a s
  settled : s.state.Settled

/-- The record still names what the attempt made. -/
structure Interrupted (d : Disk) (a : Release) (past : List UpdaterMove) (s : Disk) : Prop where
  spent : Spent past
  keeps : Retains d a s.loaded.Names s
  staging : s.state = .downloadingCandidate ∨ s.state = .promotingCandidate
  candidate : s.loaded.candidateRelease.isSome
  apart : ∀ r, s.loaded.Names r → r ≠ a

/-- A question was answered by an exception that no `except` clause of the attempt names. -/
def Escaped (past : List UpdaterMove) : Prop :=
  ∃ m : UpdaterMove, phase past = some (.failed m) ∧ m.escapes = true

/-- How an attempt stands when it raises. -/
inductive Failed (d : Disk) (a : Release) (e : Err) (past : List UpdaterMove) (s : Disk) : Prop
    where
  | stopped (he : e.isUpdateError = true) (h : Stopped d a past s)
  | interrupted (he : e.isUpdateError = true) (h : Interrupted d a past s)
  | switched (he : e.isUpdateError = true) (hsound : Sound past) (h : Switched a s)
  | escaped (he : e.isUpdateError = false) (hpast : Escaped past) (hactive : s.active = some a)

section Phases

variable {past' : List UpdaterMove} {e : Err} (hphase : phase past' = phase past)
include hphase

theorem Sound.of_phase (h : Sound past) : Sound past' := by
  rw [Sound, hphase]
  exact h

theorem Spent.of_phase (h : Spent past) : Spent past' := by
  rw [Spent, hphase]
  exact h

/-- What was done without failing since then makes no difference. -/
theorem Failed.of_phase (h : Failed d a e past s) : Failed d a e past' s := by
  cases h with
  | stopped he h => exact .stopped he ⟨h.sound.of_phase hphase, h.intact, h.settled⟩
  | interrupted he h =>
    exact .interrupted he ⟨h.spent.of_phase hphase, h.keeps, h.staging, h.candidate, h.apart⟩
  | switched he hsound h => exact .switched he (hsound.of_phase hphase) h
  | escaped he hpast hactive =>
    refine .escaped he ?_ hactive
    rw [Escaped, hphase]
    exact hpast

end Phases

theorem Failed.exists_phase {e : Err} (h : Failed d a e past s) : ∃ φ, phase past = some φ := by
  cases h with
  | stopped _ h => exact ⟨_, h.sound.choose_spec.1⟩
  | interrupted _ h => exact ⟨_, h.spent.choose_spec.1⟩
  | switched _ hsound => exact ⟨_, hsound.choose_spec.1⟩
  | escaped _ hpast => exact ⟨_, hpast.choose_spec.1⟩

/-! ### Rules -/

/-- A plain request where no step can fail. -/
theorem attempts_sure {q : Request} {ok : Value q → List UpdaterMove → Disk → Prop}
    (hq : q.Plain) (hphase : phase past = some φ) (hφ : ∀ latest, φ ≠ .attempting latest)
    (hok : ∀ v past' new, Effect s new q (.ok v) → phase past' = some φ → ok v past' new) :
    Attempts (ask q) ok err past s :=
  attempts_plain hq hphase hok fun _ _ _ latest h _ _ _ _ => absurd h (hφ latest)

/-- A plain request once a step has failed. -/
theorem attempts_spent {q : Request} {ok : Value q → List UpdaterMove → Disk → Prop}
    (hq : q.Plain) (h : Spent past)
    (hok : ∀ v past' new, Effect s new q (.ok v) → Spent past' → ok v past' new) :
    Attempts (ask q) ok err past s := by
  obtain ⟨m, hphase, hm⟩ := h
  refine attempts_sure hq hphase (fun latest h => ?_) fun v past' new he hφ => ?_
  · cases h
  · exact hok v past' new he ⟨m, hφ, hm⟩

theorem attempts_spent_bind {q : Request} {f : Value q → UpdaterM α} (hq : q.Plain)
    (h : Spent past)
    (hok : ∀ v past' new, Effect s new q (.ok v) → Spent past' →
      Attempts (f v) ok err past' new) :
    Attempts (ask q >>= f) ok err past s := by
  have hask : Attempts (ask q) (fun v past' new => Attempts (f v) ok err past' new)
      (fun _ _ _ => False) past s := attempts_spent hq h hok
  exact hask.seq (fun _ _ _ h => h) fun _ _ _ => False.elim

/-- A plain step of an attempt in which nothing has failed. -/
theorem attempts_step {q : Request} {ok : Value q → List UpdaterMove → Disk → Prop}
    (hq : q.Plain) (hphase : phase past = some (.attempting latest))
    (hok : ∀ v past' new, Effect s new q (.ok v) → phase past' = some (.attempting latest) →
      ok v past' new)
    (herr : ∀ e past' new, q.Raises e → Effect s new q (.error e) → Spent past' →
      err e past' new) : Attempts (ask q) ok err past s :=
  attempts_plain hq hphase hok fun e past' new _ _ _ hraises he hspent =>
    herr e past' new hraises he hspent

/-- A plain step after which the disk looks the same whether it failed or not. -/
theorem attempts_keeping {K : Disk → Prop} {q : Request} (hq : q.Plain)
    (hphase : phase past = some (.attempting latest))
    (hK : ∀ reply new, Effect s new q reply → K new) :
    Attempts (ask q) (fun _ past' new => phase past' = some (.attempting latest) ∧ K new)
      (fun _ past' new => Spent past' ∧ K new) past s :=
  attempts_step hq hphase (fun v _ new he hphase' => ⟨hphase', hK (.ok v) new he⟩)
    fun e _ new _ he hspent => ⟨hspent, hK (.error e) new he⟩

/-- Writing the record. Where it fails, the old record is there or the new one. -/
theorem writeState_step {value : Record} {ok : Record → List UpdaterMove → Disk → Prop}
    (hphase : phase past = some (.attempting latest))
    (hok : ∀ past', phase past' = some (.attempting latest) →
      ok value past' { s with record := some value })
    (hkept : ∀ e past', e.isUpdateError = true → Spent past' → err e past' s)
    (hwritten : ∀ e past', e.isUpdateError = true → Spent past' →
      err e past' { s with record := some value }) :
    Attempts (writeState value) ok err past s := by
  have hask : Attempts (ask (.writeState value))
      (fun _ past' new => new = { s with record := some value } ∧
        phase past' = some (.attempting latest)) err past s := by
    refine attempts_step trivial hphase (fun _ _ _ he h => ⟨he, h⟩)
      fun e past' new hraises he hspent => ?_
    obtain rfl | rfl := he
    · exact hkept e past' hraises hspent
    · exact hwritten e past' hraises hspent
  refine hask.seq (fun _ past' new hnew => ?_) fun _ _ _ he => he
  obtain ⟨rfl, hphase'⟩ := hnew
  exact World.assuming_pure (hok past' hphase')

theorem writeState_spent {value : Record} {ok : Record → List UpdaterMove → Disk → Prop}
    (h : Spent past)
    (hok : ∀ past', Spent past' → ok value past' { s with record := some value }) :
    Attempts (writeState value) ok err past s := by
  refine attempts_spent_bind trivial h fun _ past' new he hspent => ?_
  obtain rfl := he
  exact World.assuming_pure (hok past' hspent)

theorem exceptOn_attempts {catches : Err → Bool} {body : UpdaterM α}
    {handler : Err → UpdaterM α} {okp : α → List UpdaterMove → Disk → Prop}
    {errp : Err → List UpdaterMove → Disk → Prop} (h : Attempts body okp errp past s)
    (hok : ∀ a past' s', okp a past' s' → ok a past' s')
    (hhandler : ∀ e past' s', errp e past' s' → catches e = true →
      Attempts (handler e) ok err past' s')
    (hother : ∀ e past' s', errp e past' s' → catches e = false → err e past' s') :
    Attempts (exceptOn catches body handler) ok err past s := by
  refine h.handle hok fun e past' s' he => ?_
  cases hcatches : catches e with
  | true => exact hhandler e past' s' he hcatches
  | false => exact World.assuming_throw (hother e past' s' he hcatches)

/-! ### Handlers -/

section Handlers

variable {state : Record} {current : Option SteamBuildMetadata} {build : Option ℕ}
  {result : LastResult} {detail text : String} {block : Bool} {e : Err}

theorem rmtree_attempts (h : Spent past) :
    Attempts (ask (.rmtree r)) (fun _ past' new => Spent past' ∧ new = s.setDirectory r none)
      (fun _ _ _ => False) past s :=
  attempts_spent trivial h fun _ _ _ he hspent => ⟨hspent, he⟩

theorem rmtreeIgnoringErrors_attempts (h : Spent past) :
    Attempts (rmtreeIgnoringErrors r)
      (fun _ past' new => Spent past' ∧ new = s.setDirectory r none) (fun _ _ _ => False)
      past s :=
  (rmtree_attempts h).handle (fun _ _ _ => id) fun _ _ _ => False.elim

/-- Removing a directory, if it is there: it is gone. -/
theorem clear_attempts {clear : UpdaterM Unit} (h : Spent past)
    (hclear : ∀ past', Spent past' → Attempts clear
      (fun _ past' new => Spent past' ∧ new = s.setDirectory r none) err past' s) :
    Attempts (do
        if ← ask (.pathExists r) then
          clear)
      (fun _ past' new => Spent past' ∧ new = s.setDirectory r none) err past s := by
  refine attempts_spent_bind trivial h fun v past' new he hspent => ?_
  obtain ⟨rfl, rfl⟩ := he
  split
  · exact hclear past' hspent
  · rename_i habsent
    have hnone : new.releases r = none := by simpa using habsent
    have hsame : new.setDirectory r none = new := by
      rw [← hnone]
      exact new.setDirectory_eta r
    exact World.assuming_pure ⟨hspent, hsame.symm⟩

theorem discardFailed_attempts (h : Spent past) :
    Attempts (discardFailed r)
      (fun _ past' new => Spent past' ∧ new = s.setDirectory r none) (fun _ _ _ => False)
      past s :=
  clear_attempts h fun _ => rmtreeIgnoringErrors_attempts

theorem removeIfPresent_attempts (h : Spent past) :
    Attempts (removeIfPresent (some r))
      (fun _ past' new => Spent past' ∧ new = s.setDirectory r none) (fun _ _ _ => False)
      past s :=
  clear_attempts h fun _ => rmtree_attempts

/-- The record says that an update failed before the world was opened. -/
theorem Intact.stopped {v : Record} (h : Intact d a s) (hsound : Sound past)
    (hv : v.state = .failedBeforeWorldOpen) :
    Stopped d a past { s with record := some v } where
  sound := hsound
  intact := h.of_eq rfl rfl
  settled := by
    change v.state.Settled
    rw [hv]
    trivial

/-- Recording a failure that was the step that failed. -/
theorem recordPreWorldFailure_spent (h : Spent past) (hs : Intact d a s) :
    Attempts (recordPreWorldFailure state current build result detail block)
      (fun _ past' new => Stopped d a past' new) (fun _ _ _ => False) past s := by
  refine attempts_spent_bind trivial h fun _ past₁ s₁ he h₁ => ?_
  obtain rfl := he
  refine attempts_spent_bind trivial h₁ fun _ past₂ s₂ he h₂ => ?_
  obtain rfl := he
  exact writeState_spent h₂ fun _ h₃ => hs.stopped h₃.sound rfl

/-- Recording what is no failed step: writing the record may be the step that fails. -/
theorem recordPreWorldFailure_attempts (hphase : phase past = some (.attempting latest))
    (hs : Intact d a s) (hsettled : s.state.Settled) :
    Attempts (recordPreWorldFailure state current build result detail block)
      (fun _ past' new => Stopped d a past' new) (Failed d a) past s := by
  refine attempts_aside_bind trivial hphase fun _ past₁ _ h₁ => ?_
  refine attempts_aside_bind trivial h₁ fun _ past₂ _ h₂ => ?_
  refine writeState_step h₂ (fun _ hphase' => ?_) (fun e _ he hspent => ?_)
    fun e _ he hspent => ?_
  · exact hs.stopped (sound_of_attempting hphase') rfl
  · exact .stopped he ⟨hspent.sound, hs, hsettled⟩
  · exact .stopped he (hs.stopped hspent.sound rfl)

theorem reraise_attempts (h : Stopped d a past s) :
    Attempts (reraise e text : UpdaterM α) ok (Failed d a) past s := by
  rw [reraise]
  split
  · rename_i he
    exact World.assuming_throw (.stopped he h)
  · exact World.assuming_throw (.stopped rfl h)

/-- The handlers of the failures that left nothing behind. -/
theorem stop_attempts {raise : UpdaterM α} (h : Spent past) (hs : Intact d a s)
    (hraise : ∀ past' new, Stopped d a past' new → Attempts raise ok (Failed d a) past' new) :
    Attempts (do
        let _ ← recordPreWorldFailure state current build result detail block
        raise) ok (Failed d a) past s :=
  (recordPreWorldFailure_spent h hs).seq (fun _ past' new hnew => hraise past' new hnew)
    fun _ _ _ => False.elim

end Handlers

end Updater

end PzServer
