import PzServer.Entrypoint.Server
import PzServer.Interaction.Triples

/-!
# What commands leave alone

While a command runs, or before it begins, processes end and the signal arrives. An assertion is of
use only if it survives that, so it is `Stable`. The rules here take a stable assertion through a
command, and say what a `wait` can return.

## Main results

* `waitFor_pending`, `waitFor_collected`, `waitFor_keeps` — what a `wait` returns and changes
* `triple_perform` — a command and what happens before it
-/

namespace PzServer

namespace Entrypoint

open Interaction

/-! ### Assertions about the host -/

/-- An assertion that survives what happens beside the shell, and the time it takes. -/
structure Stable (B : Host → Prop) : Prop where
  happens : ∀ s e, s.allows e = true → B s → B (s.happens e)
  sleeps : ∀ s n, B s → B { s with seconds := n }

namespace Stable

variable {B B' : Host → Prop}

theorem after (hB : Stable B) {events : List Event} {s : Host} (h : s.allowsAll events = true)
    (hs : B s) : B (s.after events) := by
  induction events generalizing s with
  | nil => exact hs
  | cons e events ih =>
    rw [Host.allowsAll, Bool.and_eq_true] at h
    exact ih h.2 (hB.happens s e h.1 hs)

theorem and (h : Stable B) (h' : Stable B') : Stable fun s => B s ∧ B' s where
  happens s e he hs := ⟨h.happens s e he hs.1, h'.happens s e he hs.2⟩
  sleeps s n hs := ⟨h.sleeps s n hs.1, h'.sleeps s n hs.2⟩

theorem or (h : Stable B) (h' : Stable B') : Stable fun s => B s ∨ B' s where
  happens s e he hs := hs.imp (h.happens s e he) (h'.happens s e he)
  sleeps s n hs := hs.imp (h.sleeps s n) (h'.sleeps s n)

theorem const (φ : Prop) : Stable fun _ => φ where
  happens _ _ _ hs := hs
  sleeps _ _ hs := hs

end Stable

/-- A process has been started, and no `wait` has returned its status. -/
def Stage.Pending : Stage → Prop
  | .running | .exited _ => True
  | _ => False

/-- The trap is set until the handler has run. -/
def Host.Armed (s : Host) : Prop := s.trapped = !s.requested

namespace Host

variable {s : Host} {child other : Child}

@[simp] theorem stage_setStage_self (stage : Stage) :
    (s.setStage child stage).stage child = stage := by
  cases child <;> rfl

theorem stage_setStage_ne (h : other ≠ child) (stage : Stage) :
    (s.setStage child stage).stage other = s.stage other := by
  cases child <;> cases other <;> first | rfl | exact absurd rfl h

@[simp] theorem requested_setStage (stage : Stage) :
    (s.setStage child stage).requested = s.requested := by
  cases child <;> rfl

@[simp] theorem trapped_setStage (stage : Stage) :
    (s.setStage child stage).trapped = s.trapped := by
  cases child <;> rfl

@[simp] theorem stage_requestShutdown : s.requestShutdown.stage child = s.stage child := by
  cases child <;> rfl

/-- An event changes the stage of a process that runs, or of none. -/
theorem stage_happens {e : Event} (he : s.allows e = true) :
    (s.happens e).stage child = s.stage child ∨
      s.stage child = .running ∧ ∃ status, (s.happens e).stage child = .exited status := by
  cases e with
  | signal signal => exact .inl stage_requestShutdown
  | exits other status =>
    by_cases hchild : child = other
    · subst hchild
      exact .inr ⟨of_decide_eq_true he, status, stage_setStage_self _⟩
    · exact .inl (stage_setStage_ne hchild _)

end Host

variable {child : Child}

theorem stable_requested : Stable fun s => s.requested = true where
  happens s e _ hs := by
    cases e with
    | signal signal => rfl
    | exits child status => exact (Host.requested_setStage _).trans hs
  sleeps _ _ hs := hs

theorem stable_armed : Stable Host.Armed where
  happens s e he hs := by
    cases e with
    | signal signal => rfl
    | exits child status =>
      show (s.setStage child _).trapped = !(s.setStage child _).requested
      rw [Host.trapped_setStage, Host.requested_setStage]
      exact hs
  sleeps _ _ hs := hs

/-- An assertion about one process that its end keeps. -/
theorem stable_stage {D : Stage → Prop} (h : ∀ status, D .running → D (.exited status)) :
    Stable fun s => D (s.stage child) where
  happens s e he hs := by
    rcases @Host.stage_happens s child e he with heq | ⟨hrunning, status, heq⟩
    · exact heq ▸ hs
    · show D ((s.happens e).stage child)
      rw [heq]
      exact h status (hrunning ▸ hs)
  sleeps s n hs := by
    cases child
    · exact hs
    · exact hs

theorem stable_pending : Stable fun s => (s.stage child).Pending :=
  stable_stage fun _ _ => trivial

theorem stable_collected (status : ℕ) : Stable fun s => s.stage child = .collected status :=
  stable_stage (D := (· = .collected status)) fun _ h => nomatch h

/-- A process that does not run will not run again. -/
theorem stable_ended : Stable fun s => s.stage child ≠ .running :=
  stable_stage (D := (· ≠ .running)) fun _ h => absurd rfl h

/-! ### `wait` -/

/-- What a `wait` keeps. -/
theorem waitFor_keeps {B : Host → Prop} (hB : Stable B)
    (hcollect : ∀ s status, s.stage child = .exited status → B s →
      B (s.setStage child (.collected status))) :
    ∀ {events : List Event} {s : Host} {remembered : Bool} {result : ℕ × Host},
      s.waitFor child events remembered = some result → B s → B result.2 := by
  intro events
  induction events with
  | nil =>
    intro s remembered result h hs
    rw [Host.waitFor] at h
    split at h
    · cases h
    · cases h
      exact hs
    · cases h
      exact hcollect s _ ‹_› hs
    · cases h
      exact hs
  | cons e events ih =>
    intro s remembered result h hs
    rw [Host.waitFor.eq_def] at h
    dsimp only at h
    split at h
    · rename_i hrun
      split at h
      · split at h
        · cases h
          exact hB.happens s _ hrun.2 hs
        · cases h
      · exact ih h (hB.happens s _ hrun.2 hs)
    · cases h

/-- A `wait` for a process that has been started returns its status, or a signal interrupts it. -/
theorem waitFor_pending :
    ∀ {events : List Event} {s : Host} {remembered : Bool} {status : ℕ} {s' : Host},
      s.waitFor child events remembered = some (status, s') → (s.stage child).Pending →
      s'.stage child = .collected status ∨
        s.trapped = true ∧ 128 < status ∧ s'.requested = true ∧ (s'.stage child).Pending := by
  intro events
  induction events with
  | nil =>
    intro s remembered status s' h hs
    rw [Host.waitFor] at h
    split at h
    · cases h
    · rename_i habsent
      rw [habsent] at hs
      exact hs.elim
    · cases h
      exact .inl (Host.stage_setStage_self _)
    · rename_i hcollected
      rw [hcollected] at hs
      exact hs.elim
  | cons e events ih =>
    intro s remembered status s' h hs
    rw [Host.waitFor.eq_def] at h
    dsimp only at h
    split at h
    · rename_i hrun
      split at h
      · rename_i signal
        split at h
        · cases h
          refine .inr ⟨hrun.2, ?_, rfl, ?_⟩
          · cases signal <;> decide
          · exact stable_pending.happens s (.signal signal) hrun.2 hs
        · cases h
      · rename_i other exitStatus
        have hpending := (@stable_pending child).happens s _ hrun.2 hs
        exact (ih h hpending).imp_right fun hr =>
          ⟨(Host.trapped_setStage _).symm.trans hr.1, hr.2⟩
    · cases h

/-- Bash may forget a status that it has returned. -/
theorem waitFor_collected {events : List Event} {s : Host} {remembered : Bool}
    {status collected : ℕ} {s' : Host}
    (h : s.waitFor child events remembered = some (status, s'))
    (hs : s.stage child = .collected collected) :
    s' = s ∧ (status = collected ∨ status = 127) := by
  cases events with
  | nil =>
    rw [Host.waitFor, hs] at h
    cases h
    cases remembered
    · exact ⟨rfl, .inr rfl⟩
    · exact ⟨rfl, .inl rfl⟩
  | cons e events =>
    rw [Host.waitFor.eq_def] at h
    dsimp only at h
    rw [if_neg fun hrun => by rw [hs] at hrun; cases hrun.1] at h
    cases h

/-- The answer of a `wait`. -/
theorem waitFor_eq {s : Host} {c : CommandChoice (.wait child)}
    (hc : commandAllowed s (.wait child) c = true) :
    s.waitFor child c.1 c.2 = some (commandAnswer s (.wait child) c) := by
  obtain ⟨result, h⟩ := Option.isSome_iff_exists.mp hc
  have hanswer : commandAnswer s (.wait child) c = (s.waitFor child c.1 c.2).getD (0, s) := rfl
  rw [hanswer, h]
  rfl

/-! ### Commands -/

/-- A command, and what happens before it. -/
theorem triple_perform {τ : Type} {G : List (Move Ask Reply Host) → Move Ask Reply Host → Prop}
    {view : List (Move Ask Reply Host) → Host → τ} {P S : τ → Prop} {q : Command}
    {R : CommandReply q → τ → Prop}
    (hbetween : ∀ past s events, s.allowsAll events = true → P (view past s) →
      G past (world.move s (.between q) events) ∧
        S (view (world.move s (.between q) events :: past) (s.after events)))
    (hrun : ∀ past s c, commandAllowed s q c = true → S (view past s) →
      G past (world.move s (.run q) c) ∧
        R (commandAnswer s q c).1
          (view (world.move s (.run q) c :: past) (commandAnswer s q c).2)) :
    world.Triple G view P (perform q) R :=
  (World.triple_request fun past s events hc hP => hbetween past s events hc hP).seq
    fun _ => World.triple_request hrun

/-! ### Runs in which every command succeeds -/

/-- What happens before each command, as far as it can; the first wait ends as given, and a process
that is waited for ends with status 0. -/
def scripted (events : Command → List Event) (first : Event) : world.Oracle
  | _, s, .between q => if s.allowsAll (events q) then events q else []
  | _, _, .run .logFingerprint => some "absent"
  | _, _, .run .waitAny => first
  | _, s, .run (.wait child) =>
    (if s.stage child = .running then [.exits child 0] else [], false)
  | _, _, .run (.sleep _) => 0
  | _, _, .run .trap | _, _, .run (.startServer _ _) | _, _, .run (.startReadiness _)
  | _, _, .run (.killGroup _) | _, _, .run .stopReadiness | _, _, .run .isAlive
  | _, _, .run .readSeconds | _, _, .run .isRequested => ()
  | _, _, .run .hasDatabase | _, _, .run .openConsole | _, _, .run .markWorldOpened
  | _, _, .run (.enter _) | _, _, .run .writePid | _, _, .run (.console _)
  | _, _, .run .failReadiness | _, _, .run .removeFiles => true

/-- The default settings. -/
def Settings.sample : Settings := ⟨"/data", "pzserver", "admin", "secret", 15, 90⟩

end Entrypoint

end PzServer
