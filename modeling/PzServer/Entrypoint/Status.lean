import PzServer.Entrypoint.Waits

/-!
# The exit status of the container

A backup, a deployment and a poweroff take the status 0 of the container for a clean save. The
status passes through one variable, which two processes and an interrupted `wait` may set, and the
server may be asked for it twice. Bash answers 127 for a process that it does not know any more, and
so `run_server` skips that status. It then also skips the 127 of a game that has exited with it.

The journal of a run says what the commands have shown. `Outcome` says what the variable `status`
can be when the server has been dealt with: the status of the server, some other failure, or the
success of readiness in the place of a skipped 127. Each part of `run_server` has one specification
over the journal and the host.

## Main results

* `runServer_spec` — what `run_server` returns
* `runServer_truthful_iff` — the runs whose status 0 is truthful
* `runServer_masks` — one whose status is not
-/

namespace PzServer

namespace Entrypoint

open Interaction

/-! ### What a run has shown -/

/-- What the commands of a run have shown so far. -/
structure Journal where
  /-- `wait -n` returned that readiness had succeeded. -/
  ready : Bool := false
  /-- `wait -n` returned that readiness had failed. -/
  unready : Bool := false
  /-- A test has seen the stop request. -/
  noticed : Bool := false
  /-- The server was waited for before that. -/
  premature : Bool := false
  /-- A console command could not be written, or the process group of the server was killed. -/
  forced : Bool := false
  deriving DecidableEq

namespace Journal

/-- What `graceful_shutdown` had to do. -/
def force (j : Journal) (forced : Bool) : Journal := { j with forced := j.forced || forced }

/-- What a test for the stop request has seen. -/
def notice (j : Journal) (requested : Bool) : Journal :=
  { j with noticed := j.noticed || requested }

@[simp] theorem notice_false (j : Journal) : j.notice false = j := by
  rw [notice, Bool.or_false]

@[simp] theorem force_force (j : Journal) (a b : Bool) :
    (j.force a).force b = j.force (a || b) := by
  rw [force, force, force, Bool.or_assoc]

@[simp] theorem force_false (j : Journal) : j.force false = j := by
  rw [force, Bool.or_false]

theorem force_eq_self {j : Journal} (h : j.forced = true) (a : Bool) : j.force a = j := by
  rw [force, h, Bool.true_or, ← h]

/-- A command and its answer. -/
def enter (j : Journal) : (q : Command) → CommandReply q → Journal
  | .waitAny, (some .readiness, status) =>
    { j with ready := j.ready || status == 0, unready := j.unready || status != 0 }
  | .wait .server, _ => { j with premature := j.premature || !j.noticed }
  | .isRequested, requested => j.notice requested
  | .console _, written => j.force !written
  | .killGroup _, _ => j.force true
  | _, _ => j

theorem wait_noticed {j : Journal} (h : j.noticed = true) (status : ℕ) :
    j.enter (.wait .server) status = j := by
  have hpremature : (j.premature || !j.noticed) = j.premature := by
    rw [h, Bool.not_true, Bool.or_false]
  show { j with premature := j.premature || !j.noticed } = j
  rw [hpremature]

def enterMove (j : Journal) : Move Ask Reply Host → Journal
  | ⟨.run q, reply, _, _⟩ => j.enter q reply
  | ⟨.between _, _, _, _⟩ => j

end Journal

/-- The journal of the moves so far. -/
def journal (past : List (Move Ask Reply Host)) : Journal :=
  past.foldr (fun m j => j.enterMove m) {}

/-- What the specifications speak about. -/
def view (past : List (Move Ask Reply Host)) (s : Host) : Journal × Host := (journal past, s)

/-- A triple about the journal and the host. -/
def Spec {α : Type} (P : Journal → Host → Prop) (p : ShellM α) (R : α → Journal → Host → Prop) :
    Prop :=
  world.Triple (fun _ _ => True) view (fun t => P t.1 t.2) p fun a t => R a t.1 t.2

section Rules

variable {α β : Type} {P P' : Journal → Host → Prop} {p : ShellM α}
  {R R' : α → Journal → Host → Prop}

theorem Spec.seq {f : α → ShellM β} {S : β → Journal → Host → Prop} (h : Spec P p R)
    (hf : ∀ a, Spec (R a) (f a) S) : Spec P (p >>= f) S :=
  World.Triple.seq h hf

theorem Spec.conseq (h : Spec P p R) (hP : ∀ j s, P' j s → P j s)
    (hR : ∀ a j s, R a j s → R' a j s) : Spec P' p R' :=
  World.Triple.conseq h (fun t => hP t.1 t.2) fun a t => hR a t.1 t.2

theorem Spec.pre (h : Spec P p R) (hP : ∀ j s, P' j s → P j s) : Spec P' p R :=
  h.conseq hP fun _ _ _ ha => ha

/-- The journal of the beginning can be named. -/
theorem Spec.at (h : ∀ j₀, Spec (fun j s => j = j₀ ∧ P j₀ s) p R) : Spec P p R :=
  fun past s hP => h (journal past) past s ⟨rfl, hP⟩

theorem spec_pure {a : α} (h : ∀ j s, P j s → R a j s) : Spec P (pure a) R :=
  World.triple_pure fun t => h t.1 t.2

theorem spec_throw {status : ℕ} : Spec P (throw status : ShellM α) R := World.triple_throw

theorem spec_expect {succeeded : Bool} : Spec P (expect succeeded) fun _ => P := by
  cases succeeded
  · exact spec_throw
  · exact spec_pure fun _ _ hs => hs

/-- A command. -/
theorem spec_perform {q : Command} {R : CommandReply q → Journal → Host → Prop}
    (hP : ∀ j, Stable (P j))
    (h : ∀ j s c, commandAllowed s q c = true → P j s →
      R (commandAnswer s q c).1 (j.enter q (commandAnswer s q c).1) (commandAnswer s q c).2) :
    Spec P (perform q) R :=
  triple_perform (S := fun t => P t.1 t.2)
    (fun past _ _ hc hs => ⟨trivial, (hP (journal past)).after hc hs⟩)
    fun past s c hc hs => ⟨trivial, h (journal past) s c hc hs⟩

end Rules

/-! ### `graceful_shutdown` -/

section Graceful

variable {B : Host → Prop} {j : Journal} {c : Settings}

theorem spec_isAlive (hB : Stable B) :
    Spec (fun j' s => j' = j ∧ B s) (perform .isAlive) fun alive j' s =>
      j' = j ∧ B s ∧ (alive = true ∨ s.server ≠ .running) := by
  refine spec_perform (fun j' => (Stable.const _).and hB) ?_
  rintro _ s - - ⟨rfl, hs⟩
  refine ⟨rfl, hs, ?_⟩
  show decide (s.server = .running) = true ∨ s.server ≠ .running
  rw [decide_eq_true_iff]
  exact Decidable.em _

theorem spec_sleep (hB : Stable B) (n : ℕ) :
    Spec (fun j' s => j' = j ∧ B s) (perform (.sleep n)) fun _ j' s => j' = j ∧ B s := by
  refine spec_perform (fun j' => (Stable.const _).and hB) ?_
  rintro _ s longer - ⟨rfl, hs⟩
  exact ⟨rfl, hB.sleeps s _ hs⟩

theorem spec_readSeconds (hB : Stable B) :
    Spec (fun j' s => j' = j ∧ B s) (perform .readSeconds) fun _ j' s => j' = j ∧ B s := by
  refine spec_perform (fun j' => (Stable.const _).and hB) ?_
  rintro _ s - - ⟨rfl, hs⟩
  exact ⟨rfl, hs⟩

theorem spec_console (hB : Stable B) (line : Line) :
    Spec (fun j' s => j' = j ∧ B s) (perform (.console line)) fun written j' s =>
      j' = j.force (!written) ∧ B s := by
  refine spec_perform (fun j' => (Stable.const _).and hB) ?_
  rintro _ s written - ⟨rfl, hs⟩
  exact ⟨rfl, hs⟩

theorem awaitExit_spec (hB : Stable B) (deadline : ℕ) : ∀ rounds : ℕ,
    Spec (fun j' s => j' = j ∧ B s) (awaitExit deadline rounds) fun _ j' s => j' = j ∧ B s
  | 0 => spec_pure fun _ _ hs => hs
  | rounds + 1 => by
    refine (spec_isAlive hB).seq fun alive => ?_
    split
    · refine Spec.pre ?_ fun j' s hs => And.intro hs.1 hs.2.1
      refine (spec_readSeconds hB).seq fun seconds => ?_
      split
      · exact (spec_sleep hB 1).seq fun _ => awaitExit_spec hB deadline rounds
      · exact spec_pure fun _ _ hs => hs
    · exact spec_pure fun _ _ hs => ⟨hs.1, hs.2.1⟩

theorem terminateGroup_spec (hB : Stable B) :
    Spec (fun j' s => j' = j ∧ B s) terminateGroup fun stuck j' s =>
      j' = j.force stuck ∧ B s ∧ (stuck = true ∨ s.server ≠ .running) := by
  refine (spec_isAlive hB).seq fun alive => ?_
  split
  · have hkill : Spec (fun j' s => j' = j ∧ B s) (perform (.killGroup .term)) fun _ j' s =>
        j' = j.force true ∧ B s := by
      refine spec_perform (fun j' => (Stable.const _).and hB) ?_
      rintro _ s - - ⟨rfl, hs⟩
      exact ⟨rfl, hs⟩
    refine Spec.pre ?_ fun j' s hs => And.intro hs.1 hs.2.1
    refine hkill.seq fun _ => (spec_sleep hB 5).seq fun _ => spec_pure fun j' s hs => ?_
    exact ⟨hs.1, hs.2, .inl rfl⟩
  · rename_i halive
    refine spec_pure fun j' s hs => ⟨?_, hs.2.1, .inr (hs.2.2.resolve_left halive)⟩
    rw [Journal.force_false]
    exact hs.1

/-- There is nothing to kill where there was nothing to terminate. -/
theorem killGroup_spec (hB : Stable B) :
    Spec (fun j' s => j' = j ∧ B s ∧ (j.forced = true ∨ s.server ≠ .running)) killGroup
      fun _ j' s => j' = j ∧ B s := by
  have hended : Stable fun s => B s ∧ (j.forced = true ∨ s.server ≠ .running) :=
    hB.and ((Stable.const _).or (@stable_ended .server))
  have hboth : Spec (fun j' s => j' = j ∧ B s ∧ (j.forced = true ∨ s.server ≠ .running))
      (perform .isAlive) fun alive j' s => j' = j ∧ B s ∧ (alive = true → j.forced = true) := by
    refine spec_perform (fun j' => (Stable.const _).and hended) ?_
    rintro _ s - - ⟨rfl, hs, hforced⟩
    exact ⟨rfl, hs, fun halive => hforced.resolve_right (not_not_intro (of_decide_eq_true halive))⟩
  refine hboth.seq fun alive => ?_
  split
  · rename_i halive
    refine spec_perform (fun j' => (Stable.const _).and (hB.and (Stable.const _))) ?_
    rintro _ s - - ⟨rfl, hs, hforced⟩
    exact ⟨Journal.force_eq_self (hforced halive) true, hs⟩
  · exact spec_pure fun _ _ hs => ⟨hs.1, hs.2.1⟩

theorem stopServer_spec (hB : Stable B) :
    Spec (fun j' s => j' = j ∧ B s) (stopServer c) fun stopped j' s =>
      j' = j.force (!stopped) ∧ B s := by
  refine (spec_console hB .save).seq fun saved => (spec_sleep hB _).seq fun _ => ?_
  refine (spec_console hB .quit).seq fun quit => (spec_readSeconds hB).seq fun seconds => ?_
  refine (awaitExit_spec hB _ _).seq fun _ => (terminateGroup_spec hB).seq fun stuck => ?_
  have hkill := (@killGroup_spec B (((j.force !saved).force !quit).force stuck) hB).pre
    fun j' s (hs : j' = _ ∧ B s ∧ (stuck = true ∨ s.server ≠ .running)) =>
      ⟨hs.1, hs.2.1, hs.2.2.imp_left fun hstuck => by rw [hstuck]; exact Bool.or_true _⟩
  refine hkill.seq fun _ => spec_pure fun j' s hs => ⟨?_, hs.2⟩
  rw [hs.1, Journal.force_force, Journal.force_force]
  cases saved <;> cases quit <;> cases stuck <;> rfl

/-- `graceful_shutdown` keeps count of what it had to do, and leaves the rest to the server. -/
theorem gracefulShutdown_spec {P : Journal → Host → Prop} (hP : ∀ j, Stable (P j))
    (hforce : ∀ j s forced, P j s → P (j.force forced) s) (v : Variables) :
    Spec (fun j s => v.shutdownFailed = j.forced ∧ P j s) (gracefulShutdown c v) fun v' j s =>
      v' = { v with shutdownFailed := j.forced } ∧ P j s := by
  refine Spec.at fun j => ?_
  have hB : Stable fun s => v.shutdownFailed = j.forced ∧ P j s := (Stable.const _).and (hP j)
  have hnothing : ∀ j' s, (j' = j ∧ v.shutdownFailed = j.forced ∧ P j s) →
      v = { v with shutdownFailed := j'.forced } ∧ P j' s := by
    rintro _ s ⟨rfl, hv, hs⟩
    exact ⟨by rw [← hv], hs⟩
  unfold gracefulShutdown
  split
  · refine (spec_isAlive hB).seq fun alive => ?_
    split
    · refine Spec.pre ?_ fun j' s hs => And.intro hs.1 hs.2.1
      refine (stopServer_spec hB).seq fun stopped => spec_pure ?_
      rintro _ s ⟨rfl, hv, hs⟩
      exact ⟨by rw [hv]; rfl, hforce j s _ hs⟩
    · exact spec_pure fun j' s hs => hnothing j' s ⟨hs.1, hs.2.1⟩
  · exact spec_pure hnothing

end Graceful

/-! ### What the status says -/

/-- Readiness had succeeded, and the server was not waited for until the stop request was seen. -/
def Journal.Exposed (j : Journal) : Prop := j.ready = true ∧ j.premature = false

/-- The server has been started, and the trap is set until it has run. -/
def Begun (s : Host) : Prop := s.Armed ∧ s.server ≠ .absent

/-- Readiness has succeeded, and the server has not been waited for. -/
structure Waiting (status : ℕ) (j : Journal) (s : Host) : Prop where
  server : s.server.Pending
  status : status = 0
  exposed : j.Exposed
  unready : j.unready = false

/-- The status that the shell has ended up with. -/
inductive Outcome (status : ℕ) (j : Journal) (s : Host) : Prop where
  /-- It is the status of the server. -/
  | collected (hserver : s.server = .collected status)
      (hunready : s.requested = true ∨ j.unready = false) (hexposed : j.Exposed → status ≠ 127)
  /-- It is not, but it is a failure. -/
  | failed (hstatus : status ≠ 0) (hexposed : ¬ j.Exposed)
  /-- It is the status of readiness, because that of the server was taken for none. -/
  | masked (hserver : s.server = .collected 127) (hstatus : status = 0) (hexposed : j.Exposed)
      (hrequested : s.requested = true)

theorem stable_begun : Stable Begun :=
  stable_armed.and (@stable_stage .server (· ≠ .absent) fun _ _ h => nomatch h)

theorem stable_waiting (status : ℕ) (j : Journal) : Stable (Waiting status j) where
  happens s e he hs := { hs with server := (@stable_pending .server).happens s e he hs.server }
  sleeps _ _ hs := ⟨hs.server, hs.status, hs.exposed, hs.unready⟩

theorem stable_outcome (status : ℕ) (j : Journal) : Stable (Outcome status j) where
  happens s e he hs := by
    cases hs with
    | collected hserver hunready hexposed =>
      refine .collected ((@stable_collected .server status).happens s e he hserver) ?_ hexposed
      exact hunready.imp_left (stable_requested.happens s e he)
    | failed hstatus hexposed => exact .failed hstatus hexposed
    | masked hserver hstatus hexposed hrequested =>
      exact .masked ((@stable_collected .server 127).happens s e he hserver) hstatus hexposed
        (stable_requested.happens s e he hrequested)
  sleeps s n hs := by
    cases hs with
    | collected hserver hunready hexposed => exact .collected hserver hunready hexposed
    | failed hstatus hexposed => exact .failed hstatus hexposed
    | masked hserver hstatus hexposed hrequested =>
      exact .masked hserver hstatus hexposed hrequested

theorem Waiting.force {status : ℕ} {j : Journal} {s : Host} (h : Waiting status j s)
    (forced : Bool) : Waiting status (j.force forced) s :=
  ⟨h.server, h.status, h.exposed, h.unready⟩

theorem Outcome.force {status : ℕ} {j : Journal} {s : Host} (h : Outcome status j s)
    (forced : Bool) : Outcome status (j.force forced) s := by
  cases h with
  | collected hserver hunready hexposed => exact .collected hserver hunready hexposed
  | failed hstatus hexposed => exact .failed hstatus hexposed
  | masked hserver hstatus hexposed hrequested => exact .masked hserver hstatus hexposed hrequested

/-! ### Waiting for the server -/

theorem Stage.pending_or_collected {stage : Stage} (h : stage ≠ .absent) :
    stage.Pending ∨ ∃ status, stage = .collected status := by
  cases stage with
  | absent => exact absurd rfl h
  | running => exact .inl trivial
  | exited status => exact .inl trivial
  | collected status => exact .inr ⟨status, rfl⟩

theorem Begun.collect {s : Host} (h : Begun s) (child : Child) (status : ℕ) :
    Begun (s.setStage child (.collected status)) := by
  cases child with
  | server => exact ⟨h.1, fun habsent => nomatch habsent⟩
  | readiness => exact h

/-- What `wait` for the server can do. -/
theorem wait_server {s : Host} {c : CommandChoice (.wait .server)}
    (hc : commandAllowed s (.wait .server) c = true) (hs : Begun s) :
    ∃ status s', commandAnswer s (.wait .server) c = (status, s') ∧ Begun s' ∧
      (s.requested = true → s'.requested = true) ∧
      ((s.server.Pending ∧ (s'.server = .collected status ∨
          s.requested = false ∧ 128 < status ∧ s'.requested = true)) ∨
        ∃ collected, s.server = .collected collected ∧ s' = s ∧
          (status = collected ∨ status = 127)) := by
  have h := waitFor_eq hc
  obtain ⟨⟨status, s'⟩, hanswer⟩ : ∃ r, commandAnswer s (.wait .server) c = r := ⟨_, rfl⟩
  rw [hanswer] at h
  have hbegun : Begun s' := waitFor_keeps stable_begun (fun _ _ _ hb => hb.collect _ _) h hs
  have hrequested : s.requested = true → s'.requested = true := waitFor_keeps stable_requested
    (fun _ _ _ hr => (Host.requested_setStage _).trans hr) h
  refine ⟨status, s', hanswer, hbegun, hrequested, ?_⟩
  rcases Stage.pending_or_collected hs.2 with hpending | ⟨collected, hcollected⟩
  · refine .inl ⟨hpending, (waitFor_pending h hpending).imp_right fun hi => ⟨?_, hi.2.1, hi.2.2.1⟩⟩
    have harmed : s.trapped = !s.requested := hs.1
    rw [hi.1] at harmed
    exact (Bool.not_eq_true' _).mp harmed.symm
  · obtain ⟨rfl, hstatus⟩ := waitFor_collected h hcollected
    exact .inr ⟨collected, hcollected, rfl, hstatus⟩

/-- A status that is asked for after the stop request was seen. -/
theorem resolve {status : ℕ} {j : Journal} {s : Host} {c : CommandChoice (.wait .server)}
    (hc : commandAllowed s (.wait .server) c = true) (hs : Begun s)
    (hrequested : s.requested = true) (h : Waiting status j s ∨ Outcome status j s) :
    let final := (commandAnswer s (.wait .server) c).1
    Outcome (if final ≠ 127 then final else status) j (commandAnswer s (.wait .server) c).2 := by
  obtain ⟨final, s', hanswer, -, hkeeps, hcases⟩ := wait_server hc hs
  rw [hanswer]
  have hnow := hkeeps hrequested
  rcases hcases with
    ⟨hpending, hcollected | ⟨hunrequested, -⟩⟩ | ⟨collected, hcollected, rfl, hfinal⟩
  · dsimp only
    split
    · rename_i hfinal
      exact .collected hcollected (.inl hnow) fun _ => hfinal
    · rename_i hfinal
      rw [Decidable.not_not.mp hfinal] at hcollected
      rcases h with hwaiting | houtcome
      · exact .masked hcollected hwaiting.status hwaiting.exposed hnow
      · cases houtcome with
        | collected hserver =>
          rw [hserver] at hpending
          exact hpending.elim
        | failed hstatus hexposed => exact .failed hstatus hexposed
        | masked hserver =>
          rw [hserver] at hpending
          exact hpending.elim
  · exact absurd hrequested (hunrequested ▸ Bool.false_ne_true)
  · dsimp only
    rcases h with hwaiting | houtcome
    · have hpending := hwaiting.server
      rw [hcollected] at hpending
      exact hpending.elim
    · split
      · rename_i hne
        obtain rfl := hfinal.resolve_right hne
        exact .collected hcollected (.inl hnow) fun _ => hne
      · exact houtcome

/-- What holds of the variables while the request is dealt with. -/
def Stopping (v : Variables) (j : Journal) (s : Host) : Prop :=
  j.noticed = true ∧ Begun s ∧ s.requested = true ∧
    (Waiting v.status j s ∨ Outcome v.status j s)

theorem stable_stopping (v : Variables) (j : Journal) : Stable (Stopping v j) :=
  (Stable.const _).and (stable_begun.and (stable_requested.and
    ((stable_waiting v.status j).or (stable_outcome v.status j))))

theorem collectServer_spec (v : Variables) :
    Spec (fun j s => v.shutdownFailed = j.forced ∧ Stopping v j s) (collectServer v)
      fun v' j s => v'.shutdownFailed = j.forced ∧ Outcome v'.status j s ∧ Begun s ∧
        s.requested = true := by
  have hwait : Spec (fun j s => v.shutdownFailed = j.forced ∧ Stopping v j s)
      (perform (.wait .server)) fun final j s => v.shutdownFailed = j.forced ∧
        Outcome (if final ≠ 127 then final else v.status) j s ∧ Begun s ∧ s.requested = true := by
    refine spec_perform (fun j => (Stable.const _).and (stable_stopping v j)) ?_
    rintro j s c hc ⟨hv, hnoticed, hs, hrequested, hstatus⟩
    have hjournal := Journal.wait_noticed hnoticed (commandAnswer s (.wait .server) c).1
    have houtcome := resolve hc hs hrequested hstatus
    obtain ⟨final, s', hanswer, hbegun, hkeeps, -⟩ := wait_server hc hs
    rw [hjournal]
    rw [hanswer] at houtcome ⊢
    exact ⟨hv, houtcome, hbegun, hkeeps hrequested⟩
  refine hwait.seq fun final => spec_pure fun j s hs => ?_
  split
  · rename_i hfinal
    rw [if_pos hfinal] at hs
    exact hs
  · rename_i hfinal
    rw [if_neg hfinal] at hs
    exact hs

theorem endReadiness_spec (v : Variables) {P : Journal → Host → Prop} (hP : ∀ j, Stable (P j))
    (hcollect : ∀ j s status, P j s → P j (s.setStage .readiness (.collected status))) :
    Spec P (endReadiness v) fun v' j s => v' = { v with readinessPid := false } ∧ P j s := by
  have hstop : Spec P (perform .stopReadiness) fun _ => P :=
    spec_perform hP fun _ _ _ _ hs => hs
  have hwait : Spec P (perform (.wait .readiness)) fun _ => P := by
    refine spec_perform hP fun j s c hc hs => ?_
    exact waitFor_keeps (hP j) (fun s status _ => hcollect j s status) (waitFor_eq hc) hs
  exact hstop.seq fun _ => hwait.seq fun _ => spec_pure fun _ _ hs => ⟨rfl, hs⟩

/-! ### The first wait -/

/-- What `wait -n` returns. -/
def First (completed : Option Child) (status : ℕ) (j : Journal) (s : Host) : Prop :=
  match completed with
  | some .server => j = {} ∧ s.server = .collected status
  | some .readiness => j = { ready := status == 0, unready := status != 0 } ∧ s.server.Pending
  | none => j = {} ∧ status ≠ 0 ∧ s.requested = true

theorem stable_first (completed : Option Child) (status : ℕ) (j : Journal) :
    Stable (First completed status j) := by
  rcases completed with _ | _ | _
  · exact (Stable.const _).and ((Stable.const _).and stable_requested)
  · exact (Stable.const _).and (@stable_collected .server status)
  · exact (Stable.const _).and (@stable_pending .server)

theorem spec_waitAny :
    Spec (fun j s => j = {} ∧ Begun s ∧ s.server.Pending) (perform .waitAny) fun r j s =>
      Begun s ∧ First r.1 r.2 j s := by
  refine spec_perform
    (fun j => (Stable.const _).and (stable_begun.and (@stable_pending .server))) ?_
  rintro _ s first hc ⟨rfl, hs, hpending⟩
  cases first with
  | signal signal =>
    refine ⟨⟨rfl, hs.2⟩, rfl, ?_, rfl⟩
    show 128 + signal.number ≠ 0
    omega
  | exits child status =>
    refine ⟨hs.collect child status, ?_⟩
    cases child with
    | server => exact ⟨rfl, rfl⟩
    | readiness => exact ⟨by simp [Journal.enter, commandAnswer, Host.waitFirst], hpending⟩

theorem spec_isRequested {P : Journal → Host → Prop} (hP : ∀ j, Stable (P j)) :
    Spec P (perform .isRequested) fun requested j s =>
      ∃ j₀, j = j₀.notice requested ∧ P j₀ s ∧ s.requested = requested :=
  spec_perform hP fun j _ _ _ hs => ⟨j, rfl, hs, rfl⟩

/-- When the first wait ends with a stop request, the status of the server is still to come. -/
theorem First.stopping {completed : Option Child} {status : ℕ} {j : Journal} {s : Host}
    (h : First completed status j s) (hs : Begun s) (hrequested : s.requested = true)
    (v : Variables) : Stopping { v with status := status } (j.notice true) s := by
  refine ⟨Bool.or_true _, hs, hrequested, ?_⟩
  rcases completed with _ | _ | _
  · obtain ⟨rfl, hstatus, -⟩ := h
    exact .inr (.failed hstatus fun hexposed => nomatch hexposed.1)
  · obtain ⟨rfl, hserver⟩ := h
    exact .inr (.collected hserver (.inl hrequested) fun hexposed => nomatch hexposed.1)
  · obtain ⟨rfl, hpending⟩ := h
    by_cases hstatus : status = 0
    · subst hstatus
      exact .inl ⟨hpending, rfl, ⟨rfl, rfl⟩, rfl⟩
    · refine .inr (.failed hstatus fun hexposed => hstatus ?_)
      exact eq_of_beq hexposed.1

/-- What is known when the loop is over. -/
def Looped (v : Variables) (j : Journal) (s : Host) : Prop :=
  v.shutdownFailed = j.forced ∧ Begun s ∧
    (v.serverPid = true ∧ j.noticed = false ∧ Waiting v.status j s ∨
      v.status ≠ 0 ∧ ¬ j.Exposed ∨
      Outcome v.status j s ∧ (v.serverPid = false ∨ s.requested = true))

theorem stable_looped (v : Variables) (j : Journal) : Stable (Looped v j) :=
  (Stable.const _).and (stable_begun.and
    (((Stable.const _).and ((Stable.const _).and (stable_waiting _ j))).or
      ((Stable.const _).or ((stable_outcome _ j).and ((Stable.const _).or stable_requested)))))

/-- What is known when a stop request has been dealt with. -/
def Resolved (v : Variables) (j : Journal) (s : Host) : Prop :=
  v.shutdownFailed = j.forced ∧ Outcome v.status j s ∧ Begun s ∧ s.requested = true

theorem stable_resolved (v : Variables) (j : Journal) : Stable (Resolved v j) :=
  (Stable.const _).and ((stable_outcome _ j).and (stable_begun.and stable_requested))

theorem graceful_stopping {c : Settings} (v : Variables) :
    Spec (fun j s => v.shutdownFailed = j.forced ∧ Stopping v j s) (gracefulShutdown c v)
      fun v' j s => v'.shutdownFailed = j.forced ∧ Stopping v' j s ∧
        v'.readinessPid = v.readinessPid := by
  have hforce : ∀ j s forced, Stopping v j s → Stopping v (j.force forced) s :=
    fun j s forced hs =>
      ⟨hs.1, hs.2.1, hs.2.2.1, hs.2.2.2.imp (·.force forced) (·.force forced)⟩
  refine (gracefulShutdown_spec (stable_stopping v) hforce v).conseq (fun _ _ hs => hs) ?_
  rintro _ j s ⟨rfl, hs⟩
  exact ⟨rfl, hs, rfl⟩

theorem endReadiness_resolved (v : Variables) :
    Spec (Resolved v) (endReadiness v) Resolved := by
  refine (endReadiness_spec v (stable_resolved v) ?_).conseq (fun _ _ hs => hs) ?_
  · rintro j s status ⟨hv, houtcome, hs, hrequested⟩
    refine ⟨hv, ?_, hs.collect .readiness status, hrequested⟩
    cases houtcome with
    | collected hserver hunready hexposed => exact .collected hserver hunready hexposed
    | failed hstatus hexposed => exact .failed hstatus hexposed
    | masked hserver hstatus hexposed hr => exact .masked hserver hstatus hexposed hr
  · rintro _ j s ⟨rfl, hs⟩
    exact hs

/-- Waiting for the server too early does not make anything worse. -/
theorem wait_unexposed {forced : Bool} :
    Spec (fun j s => forced = j.forced ∧ ¬ j.Exposed ∧ Begun s) (perform (.wait .server))
      fun _ j s => forced = j.forced ∧ ¬ j.Exposed ∧ Begun s := by
  refine spec_perform (fun j => (Stable.const _).and ((Stable.const _).and stable_begun)) ?_
  rintro j s c hc ⟨hforced, hexposed, hs⟩
  obtain ⟨final, s', hanswer, hbegun, -⟩ := wait_server hc hs
  rw [hanswer]
  exact ⟨hforced, fun h => hexposed ⟨h.1, (Bool.or_eq_false_iff.mp h.2).1⟩, hbegun⟩

/-- The branch for the end of readiness. -/
theorem readinessEnded_spec {c : Settings} (v : Variables) :
    Spec (fun j s => v.shutdownFailed = j.forced ∧ v.serverPid = true ∧ j.noticed = false ∧
      Begun s ∧ First (some .readiness) v.status j s) (readinessEnded c v) Looped := by
  unfold readinessEnded
  split
  · rename_i hstatus
    have hgraceful := gracefulShutdown_spec (c := c)
      (fun j => (Stable.const (¬ j.Exposed)).and stable_begun) (fun _ _ _ hs => hs)
      { v with readinessPid := false, readinessFailed := true }
    refine (hgraceful.pre ?_).seq fun v' => ?_
    · rintro j s ⟨hv, -, -, hs, rfl, -⟩
      exact ⟨hv, fun hexposed => hstatus (eq_of_beq hexposed.1), hs⟩
    · refine ((@wait_unexposed v'.shutdownFailed).pre ?_).seq fun final => ?_
      · rintro j s ⟨rfl, hexposed, hs⟩
        exact ⟨rfl, hexposed, hs⟩
      · have hfailure : ∀ n : ℕ, (if n = 0 then 1 else n) ≠ 0 := fun n => by split <;> omega
        exact spec_pure fun j s hs => ⟨hs.1, hs.2.2, .inr (.inl ⟨hfailure _, hs.2.1⟩)⟩
  · rename_i hstatus
    refine spec_pure fun j s hs => ⟨hs.1, hs.2.2.2.1, .inl ⟨hs.2.1, hs.2.2.1, ?_⟩⟩
    obtain ⟨rfl, hpending⟩ := hs.2.2.2.2
    have hzero : v.status = 0 := Decidable.not_not.mp hstatus
    exact ⟨hpending, hzero, ⟨by rw [hzero]; rfl, rfl⟩, by rw [hzero]; rfl⟩

/-- The branch for the end of the server. -/
theorem serverEnded_spec (v : Variables) :
    Spec (fun j s => v.shutdownFailed = j.forced ∧ Begun s ∧ First (some .server) v.status j s)
      (serverEnded v) Looped := by
  have hstable : ∀ j : Journal, Stable fun s => v.shutdownFailed = j.forced ∧ Begun s ∧
      First (some .server) v.status j s :=
    fun j => (Stable.const _).and (stable_begun.and (stable_first _ _ j))
  have hend := endReadiness_spec { v with serverPid := false } hstable
    fun j s status hs => ⟨hs.1, hs.2.1.collect .readiness status, hs.2.2⟩
  refine hend.seq fun v' => ?_
  have hfail : Spec (fun j s => v' = { v with serverPid := false, readinessPid := false } ∧
      v.shutdownFailed = j.forced ∧ Begun s ∧ First (some .server) v.status j s)
      (perform .failReadiness) fun _ j s =>
        v' = { v with serverPid := false, readinessPid := false } ∧
          v.shutdownFailed = j.forced ∧ Begun s ∧ First (some .server) v.status j s :=
    spec_perform (fun j => (Stable.const _).and (hstable j)) fun _ _ _ _ hs => hs
  refine hfail.seq fun _ => spec_pure ?_
  rintro j s ⟨rfl, hv, hs, rfl, hserver⟩
  refine ⟨hv, hs, .inr (.inr ⟨.collected hserver (.inr rfl) ?_, .inl rfl⟩)⟩
  exact fun hexposed => nomatch hexposed.1

/-- The loop. -/
theorem firstWait_spec {c : Settings} (v : Variables) (hv : v.shutdownFailed = false)
    (hpid : v.serverPid = true) :
    Spec (fun j s => j = {} ∧ Begun s ∧ s.server.Pending) (firstWait c v) Looped := by
  refine spec_waitAny.seq fun r => ?_
  obtain ⟨completed, status⟩ := r
  have hforced : ∀ {j : Journal} {s : Host}, First completed status j s → j.forced = false := by
    intro j s h
    rcases completed with _ | _ | _
    · exact h.1 ▸ rfl
    · exact h.1 ▸ rfl
    · exact h.1 ▸ rfl
  have hnoticed : ∀ {j : Journal} {s : Host}, First completed status j s → j.noticed = false := by
    intro j s h
    rcases completed with _ | _ | _
    · exact h.1 ▸ rfl
    · exact h.1 ▸ rfl
    · exact h.1 ▸ rfl
  refine (spec_isRequested fun j => stable_begun.and (stable_first completed status j)).seq
    fun requested => ?_
  cases requested with
  | true =>
    refine Spec.seq ((graceful_stopping { v with status := status }).pre ?_) fun v' => ?_
    · rintro _ s ⟨j, rfl, ⟨hs, hfirst⟩, hrequested⟩
      exact ⟨hv.trans (hforced hfirst).symm, hfirst.stopping hs hrequested v⟩
    · refine Spec.seq ((collectServer_spec v').pre fun j s hs => ⟨hs.1, hs.2.1⟩) fun v'' => ?_
      refine (endReadiness_resolved v'').conseq (fun _ _ hs => hs) ?_
      exact fun v j s hs => ⟨hs.1, hs.2.2.1, .inr (.inr ⟨hs.2.1, .inr hs.2.2.2⟩)⟩
  | false =>
    rcases completed with _ | _ | _
    · exact spec_throw
    · refine (serverEnded_spec { v with status := status }).pre ?_
      rintro _ s ⟨j, rfl, ⟨hs, hfirst⟩, -⟩
      rw [Journal.notice_false]
      exact ⟨hv.trans (hforced hfirst).symm, hs, hfirst⟩
    · refine (readinessEnded_spec { v with status := status }).pre ?_
      rintro _ s ⟨j, rfl, ⟨hs, hfirst⟩, -⟩
      rw [Journal.notice_false]
      exact ⟨hv.trans (hforced hfirst).symm, hpid, hnoticed hfirst, hs, hfirst⟩

/-! ### The waits after readiness -/

/-- What is known when the server has been waited for. -/
def Waited (v : Variables) (j : Journal) (s : Host) : Prop :=
  v.shutdownFailed = j.forced ∧ Begun s ∧
    (v.serverPid = true ∧ s.requested = true ∧ Waiting v.status j s ∨ Outcome v.status j s)

theorem stable_waited (v : Variables) (j : Journal) : Stable (Waited v j) :=
  (Stable.const _).and (stable_begun.and (((Stable.const _).and
    (stable_requested.and (stable_waiting _ j))).or (stable_outcome _ j)))

theorem Waiting.notice {status : ℕ} {j : Journal} {s : Host} (h : Waiting status j s)
    (requested : Bool) : Waiting status (j.notice requested) s :=
  ⟨h.server, h.status, h.exposed, h.unready⟩

theorem Outcome.notice {status : ℕ} {j : Journal} {s : Host} (h : Outcome status j s)
    (requested : Bool) : Outcome status (j.notice requested) s := by
  cases h with
  | collected hserver hunready hexposed => exact .collected hserver hunready hexposed
  | failed hstatus hexposed => exact .failed hstatus hexposed
  | masked hserver hstatus hexposed hr => exact .masked hserver hstatus hexposed hr

/-- What the last wait makes of the status. -/
def LastWaited (v : Variables) (status : ℕ) (j : Journal) (s : Host) : Prop :=
  v.shutdownFailed = j.forced ∧ Begun s ∧
    Outcome (if status ≠ 0 then status else v.status) j s

theorem wait_last (v : Variables) :
    Spec (fun j s => v.shutdownFailed = j.forced ∧ Begun s ∧
        (j.noticed = false ∧ Waiting v.status j s ∨ v.status ≠ 0 ∧ ¬ j.Exposed))
      (perform (.wait .server)) (LastWaited v) := by
  refine spec_perform (fun j => (Stable.const _).and (stable_begun.and
    (((Stable.const _).and (stable_waiting _ j)).or (Stable.const _)))) ?_
  rintro j s c hc ⟨hv, hs, hstatus⟩
  obtain ⟨final, s', hanswer, hbegun, -, hcases⟩ := wait_server hc hs
  rw [hanswer]
  refine ⟨hv, hbegun, ?_⟩
  rcases hstatus with ⟨hnoticed, hwaiting⟩ | ⟨hstatus, hexposed⟩
  · have hpremature : ¬ (j.enter (.wait .server) final).Exposed := by
      intro hexposed
      have hfalse : (j.premature || !j.noticed) = false := hexposed.2
      rw [hnoticed, Bool.not_false, Bool.or_true] at hfalse
      cases hfalse
    have hsame : ∀ n : ℕ, (if n ≠ 0 then n else 0) = n := fun n => by split <;> omega
    rw [hwaiting.status, hsame final]
    rcases hcases with ⟨-, hcollected | ⟨-, hlarge, -⟩⟩ | ⟨collected, hcollected, -⟩
    · exact .collected hcollected (.inr hwaiting.unready) fun h => absurd h hpremature
    · exact .failed (Nat.ne_of_gt (Nat.lt_trans (by decide) hlarge)) hpremature
    · have hpending := hwaiting.server
      rw [hcollected] at hpending
      exact hpending.elim
  · refine .failed ?_ fun h => hexposed ⟨h.1, (Bool.or_eq_false_iff.mp h.2).1⟩
    split
    · assumption
    · exact hstatus

theorem lastWait_spec (v : Variables) : Spec (Looped v) (lastWait v) Waited := by
  refine (spec_isRequested (stable_looped v)).seq fun requested => ?_
  split
  · rename_i hwait
    obtain ⟨hpid, hnot⟩ := (Bool.and_eq_true _ _ ▸ hwait : _ ∧ _)
    obtain rfl : requested = false := (Bool.not_eq_true' _).mp hnot
    refine ((wait_last v).pre ?_).seq fun status => spec_pure fun j s hs => ?_
    · rintro _ s ⟨j, rfl, ⟨hv, hs, hcases⟩, hrequested⟩
      rw [Journal.notice_false]
      refine ⟨hv, hs, ?_⟩
      rcases hcases with ⟨-, hnoticed, hwaiting⟩ | hfailed | ⟨-, hskipped | hseen⟩
      · exact .inl ⟨hnoticed, hwaiting⟩
      · exact .inr hfailed
      · rw [hpid] at hskipped
        cases hskipped
      · rw [hrequested] at hseen
        cases hseen
    · obtain ⟨hv, hs, houtcome⟩ := hs
      split
      · rename_i hstatus
        rw [if_pos hstatus] at houtcome
        exact ⟨hv, hs, .inr houtcome⟩
      · rename_i hstatus
        rw [if_neg hstatus] at houtcome
        exact ⟨hv, hs, .inr houtcome⟩
  · rename_i hskip
    refine spec_pure ?_
    rintro _ s ⟨j, rfl, ⟨hv, hs, hcases⟩, hrequested⟩
    refine ⟨hv, hs, ?_⟩
    rcases hcases with ⟨hpid, -, hwaiting⟩ | ⟨hstatus, hexposed⟩ | ⟨houtcome, -⟩
    · cases requested with
      | true => exact .inl ⟨hpid, hrequested, hwaiting.notice true⟩
      | false =>
        rw [hpid] at hskip
        exact absurd rfl hskip
    · exact .inr (.failed hstatus hexposed)
    · exact .inr (houtcome.notice requested)

theorem lateShutdown_spec {c : Settings} (v : Variables) :
    Spec (Waited v) (lateShutdown c v) fun v' j s =>
      v'.shutdownFailed = j.forced ∧ Outcome v'.status j s := by
  refine (spec_isRequested (stable_waited v)).seq fun requested => ?_
  split
  · rename_i hlate
    obtain ⟨rfl, -⟩ := (Bool.and_eq_true _ _ ▸ hlate : _ ∧ _)
    refine Spec.seq ((graceful_stopping v).pre ?_) fun v' => ?_
    · rintro _ s ⟨j, rfl, ⟨hv, hs, hcases⟩, hrequested⟩
      refine ⟨hv, Bool.or_true _, hs, hrequested, ?_⟩
      exact hcases.imp (fun h => h.2.2.notice true) fun h => h.notice true
    · refine Spec.seq ((collectServer_spec v').pre fun j s hs => ⟨hs.1, hs.2.1⟩) fun v'' => ?_
      split
      · exact (endReadiness_resolved v'').conseq (fun _ _ hs => hs) fun _ _ _ hs => ⟨hs.1, hs.2.1⟩
      · exact spec_pure fun _ _ hs => ⟨hs.1, hs.2.1⟩
  · rename_i hskip
    refine spec_pure ?_
    rintro _ s ⟨j, rfl, ⟨hv, hs, hcases⟩, hrequested⟩
    refine ⟨hv, ?_⟩
    rcases hcases with ⟨hpid, hseen, -⟩ | houtcome
    · rw [hseen] at hrequested
      rw [← hrequested, hpid] at hskip
      exact absurd rfl hskip
    · exact houtcome.notice requested

/-! ### A whole run -/

/-- A command that neither changes anything nor shows anything. -/
theorem spec_quiet {q : Command} {P : Journal → Host → Prop} (hP : ∀ j, Stable (P j))
    (hquiet : ∀ (j : Journal) s c,
      j.enter q (commandAnswer s q c).1 = j ∧ (commandAnswer s q c).2 = s) :
    Spec P (perform q) fun _ => P := by
  refine spec_perform hP fun j s c _ hs => ?_
  rw [(hquiet j s c).1, (hquiet j s c).2]
  exact hs

theorem launch_spec (c : Settings) (release : String) :
    Spec (fun j s => j = {} ∧ s.trapped = false ∧ s.requested = false) (launch c release)
      fun _ j s => j = {} ∧ Begun s ∧ s.server.Pending := by
  have hfresh : ∀ j : Journal,
      Stable fun s => j = {} ∧ s.trapped = false ∧ s.requested = false := by
    refine fun j => (Stable.const _).and ⟨fun s e he hs => ?_, fun _ _ hs => hs⟩
    cases e with
    | signal signal =>
      rw [show s.allows (.signal signal) = s.trapped from rfl, hs.1] at he
      cases he
    | exits child status =>
      exact ⟨(Host.trapped_setStage _).trans hs.1, (Host.requested_setStage _).trans hs.2⟩
  have harmed : ∀ j : Journal, Stable fun s => j = {} ∧ s.Armed :=
    fun j => (Stable.const _).and stable_armed
  have hbegun : ∀ j : Journal, Stable fun s => j = {} ∧ Begun s ∧ s.server.Pending :=
    fun j => (Stable.const _).and (stable_begun.and (@stable_pending .server))
  have htrap : Spec (fun j s => j = {} ∧ s.trapped = false ∧ s.requested = false) (perform .trap)
      fun _ j s => j = {} ∧ s.Armed := by
    refine spec_perform hfresh fun j s _ _ hs => ⟨hs.1, ?_⟩
    show true = !s.requested
    rw [hs.2.2, Bool.not_false]
  have hstart : ∀ script arguments, Spec (fun j s => j = {} ∧ s.Armed)
      (perform (.startServer script arguments)) fun _ j s => j = {} ∧ Begun s ∧ s.server.Pending :=
    fun _ _ => spec_perform harmed fun j s _ _ hs => ⟨hs.1, ⟨hs.2, fun h => nomatch h⟩, trivial⟩
  have hreadiness : ∀ fingerprint, Spec (fun j s => j = {} ∧ Begun s ∧ s.server.Pending)
      (perform (.startReadiness fingerprint)) fun _ j s => j = {} ∧ Begun s ∧ s.server.Pending :=
    fun _ => spec_perform hbegun fun _ _ _ _ hs => hs
  refine (spec_quiet hfresh fun _ _ _ => ⟨rfl, rfl⟩).seq fun hasDatabase => ?_
  refine (spec_quiet hfresh fun _ _ _ => ⟨rfl, rfl⟩).seq fun opened => ?_
  refine spec_expect.seq fun _ => htrap.seq fun _ => ?_
  refine (spec_quiet harmed fun _ _ _ => ⟨rfl, rfl⟩).seq fun printed => ?_
  cases printed with
  | none => exact spec_throw
  | some fingerprint =>
    refine (spec_quiet harmed fun _ _ _ => ⟨rfl, rfl⟩).seq fun marked => ?_
    refine spec_expect.seq fun _ => ?_
    refine (spec_quiet harmed fun _ _ _ => ⟨rfl, rfl⟩).seq fun entered => ?_
    refine spec_expect.seq fun _ => (hstart _ _).seq fun _ => ?_
    refine (spec_quiet hbegun fun _ _ _ => ⟨rfl, rfl⟩).seq fun written => ?_
    exact spec_expect.seq fun _ => hreadiness fingerprint

/-- What `run_server` returns, and the status it goes by. -/
def Reported (r : ℕ) (j : Journal) (s : Host) : Prop :=
  ∃ status, Outcome status j s ∧ (r = 0 ↔ status = 0 ∧ (s.requested = true → j.forced = false))

theorem report_spec (v : Variables) :
    Spec (fun j s => v.shutdownFailed = j.forced ∧ Outcome v.status j s) (report v) Reported := by
  have hstable : ∀ j : Journal,
      Stable fun s => v.shutdownFailed = j.forced ∧ Outcome v.status j s :=
    fun j => (Stable.const _).and (stable_outcome _ j)
  refine (spec_isRequested hstable).seq fun requested => ?_
  cases requested with
  | true =>
    refine spec_pure ?_
    rintro _ s ⟨j, rfl, ⟨hv, houtcome⟩, hrequested⟩
    refine ⟨v.status, houtcome.notice true, ?_⟩
    show _ ↔ v.status = 0 ∧ (s.requested = true → j.forced = false)
    rw [← hv, forall_prop_of_true hrequested]
    split
    · rename_i hfailed
      refine iff_of_false (by split <;> omega) ?_
      rintro ⟨hzero, hclean⟩
      rcases hfailed with hforced | hstatus
      · rw [hclean] at hforced
        cases hforced
      · exact hstatus hzero
    · rename_i hworked
      rw [not_or, Bool.not_eq_true, Decidable.not_not] at hworked
      exact iff_of_true rfl ⟨hworked.2, hworked.1⟩
  | false =>
    refine spec_pure ?_
    rintro _ s ⟨j, rfl, ⟨-, houtcome⟩, hrequested⟩
    refine ⟨v.status, houtcome.notice false, ?_⟩
    rw [hrequested]
    exact ⟨fun hr => ⟨hr, nofun⟩, fun hr => hr.1⟩

theorem runServer_spec (c : Settings) (release : String) :
    Spec (fun j s => j = {} ∧ s.trapped = false ∧ s.requested = false) (runServer c release)
      Reported := by
  refine (launch_spec c release).seq fun _ => ?_
  refine (firstWait_spec _ rfl rfl).seq fun v => (lastWait_spec v).seq fun v => ?_
  refine (lateShutdown_spec v).seq fun v => ?_
  refine (spec_quiet (fun j => (Stable.const _).and (stable_outcome _ j))
    fun _ _ _ => ⟨rfl, rfl⟩).seq fun removed => ?_
  exact spec_expect.seq fun _ => report_spec v

/-- The game wrapper has exited with a status. -/
def Exited (s : Host) (status : ℕ) : Prop :=
  s.server = .exited status ∨ s.server = .collected status

instance (s : Host) (status : ℕ) : Decidable (Exited s status) :=
  inferInstanceAs (Decidable (_ ∨ _))

/-- What the exit status 0 of the container is taken for. -/
structure Truthful (j : Journal) (s : Host) : Prop where
  exited : Exited s 0
  /-- A requested stop needed no force. -/
  stopped : s.requested = true → j.forced = false
  /-- Without a request, readiness was not seen to fail. -/
  unrequested : s.requested = false → j.unready = false

/-- The runs in which the exit status 127 of the game wrapper is taken for that of a child which
`wait` does not know any more. -/
structure Masked (j : Journal) (s : Host) : Prop where
  exited : Exited s 127
  exposed : j.Exposed
  unforced : j.forced = false

theorem Exited.eq_of_collected {s : Host} {a b : ℕ} (h : Exited s a)
    (hs : s.server = .collected b) : a = b := by
  rcases h with h | h
  · rw [hs] at h
    cases h
  · rw [hs] at h
    cases h
    rfl

theorem Reported.truthful_iff {r : ℕ} {j : Journal} {s : Host} (h : Reported r j s) :
    (r = 0 → Truthful j s) ↔ ¬ Masked j s := by
  obtain ⟨status, houtcome, hr⟩ := h
  cases houtcome with
  | collected hserver hunready hexposed =>
    refine iff_of_true (fun hzero => ?_) fun hmasked =>
      hexposed hmasked.exposed (hmasked.exited.eq_of_collected hserver).symm
    obtain ⟨rfl, hstopped⟩ := hr.mp hzero
    refine ⟨.inr hserver, hstopped, fun hunrequested => hunready.resolve_left ?_⟩
    rw [hunrequested]
    exact Bool.false_ne_true
  | failed hstatus hexposed =>
    exact iff_of_true (fun hzero => absurd (hr.mp hzero).1 hstatus)
      fun hmasked => hexposed hmasked.exposed
  | masked hserver hstatus hexposed hrequested =>
    constructor
    · intro htruthful hmasked
      have hzero : r = 0 := hr.mpr ⟨hstatus, fun _ => hmasked.unforced⟩
      have hexit := (htruthful hzero).exited.eq_of_collected hserver
      omega
    · intro hmasked hzero
      exact absurd ⟨.inr hserver, hexposed, (hr.mp hzero).2 hrequested⟩ hmasked

/-- **The exit status of the container.** Where `run_server` returns 0, it is truthful, exactly if
the game wrapper's own exit status is not taken for a missing one. -/
theorem runServer_truthful_iff {c : Settings} {release : String} {seconds r : ℕ}
    {past : List (Move Ask Reply Host)} {s : Host}
    (he : world.Exec (runServer c release).run [] (.initial seconds) (.done (.ok r)) past s) :
    (r = 0 → Truthful (journal past) s) ↔ ¬ Masked (journal past) s :=
  ((runServer_spec c release).exec_done ⟨rfl, rfl, rfl⟩ he).truthful_iff

/-- Readiness succeeds, a stop is requested at once, and the game wrapper exits with a status
after `quit`. -/
def stoppedWith (status : ℕ) : world.Oracle :=
  scripted (fun
    | .isRequested => [.signal .sigterm]
    | .readSeconds => [.exits .server status]
    | _ => []) (.exits .readiness 0)

/-- A game that exits with status 0 is reported truthfully. -/
theorem runServer_truthful_stop : ∃ past s,
    world.Exec (runServer .sample "/releases/1").run [] (.initial 0) (.done (.ok 0)) past s ∧
      Truthful (journal past) s := by
  have hlegal : world.legal (stoppedWith 0) 80 (runServer .sample "/releases/1").run []
      (.initial 0) = true := by decide +kernel
  have hrun := world.exec_runFor (stoppedWith 0) 80 (runServer .sample "/releases/1").run []
    (.initial 0) hlegal
  have hdone : (world.runFor (stoppedWith 0) 80 (runServer .sample "/releases/1").run []
      (.initial 0)).1 = .done (.ok 0) := rfl
  rw [hdone] at hrun
  refine ⟨_, _, hrun, (runServer_truthful_iff hrun).mpr (fun hmasked => ?_) rfl⟩
  exact absurd hmasked.exited (by decide +kernel)

/-- **A status is masked.** The game exits with status 127 after a stop request, and the container
with 0. -/
theorem runServer_masks : ∃ past s,
    world.Exec (runServer .sample "/releases/1").run [] (.initial 0) (.done (.ok 0)) past s ∧
      ¬ Truthful (journal past) s := by
  have hlegal : world.legal (stoppedWith 127) 80 (runServer .sample "/releases/1").run []
      (.initial 0) = true := by decide +kernel
  have hrun := world.exec_runFor (stoppedWith 127) 80 (runServer .sample "/releases/1").run []
    (.initial 0) hlegal
  have hdone : (world.runFor (stoppedWith 127) 80 (runServer .sample "/releases/1").run []
      (.initial 0)).1 = .done (.ok 0) := rfl
  rw [hdone] at hrun
  exact ⟨_, _, hrun, fun htruthful => absurd htruthful.exited (by decide +kernel)⟩

end Entrypoint

end PzServer
