import Mathlib.Logic.Relation
import PzServer.Updater.Acceptance

/-!
# One container start among other commands

The entrypoint of the container runs the updater as separate commands: `prepare-start`, then
`active-release`, then `mark-world-opened`; it launches the release the second one printed, and
`wait-runtime-ready` and `accept` follow. The transaction lock is held by each command, not by the
sequence. Here one such start is followed through a run in which other containers on the same
install root issue any commands at any time.

The question is whether the release that is accepted is the release that was launched. It is, in
every run in which no other command switches `active-release` while the start holds the release it
looked up; nothing in the code excludes the other runs.

## Main results

* `UpdaterSession.launched_accepted` — the launched release is the accepted one, in undisturbed runs
* `UpdaterSession.launched_other` — a disturbed run, in which it is not
-/

namespace PzServer

namespace Updater

open Interaction

/-! ### The container start -/

/-- How far a container start has come. -/
inductive Stage where
  | waiting
  /-- `prepare-start` succeeded. -/
  | prepared
  /-- `active-release` printed the release. -/
  | found (release : Release)
  /-- `mark-world-opened` succeeded. -/
  | opened (release : Release)
  /-- The start wrapper of the release is running. -/
  | launched (release : Release)
  /-- `wait-runtime-ready` succeeded. -/
  | ready (release : Release)
  | stopped
  deriving DecidableEq, Repr

namespace Stage

/-- The updater operation that the entrypoint runs next. -/
def Runs : Stage → Operation → Prop
  | waiting, .prepareStart _ => True
  | found _, .markWorldOpened => True
  | launched _, .markRuntimeReady .. => True
  | launched _, .failReadiness _ => True
  | ready _, .accept => True
  | _, _ => False

/-- The stage after that operation succeeded. -/
def next : Stage → Operation → Stage
  | waiting, .prepareStart _ => prepared
  | found r, .markWorldOpened => opened r
  | launched r, .markRuntimeReady .. => ready r
  | ready r, .accept => ready r
  | _, _ => stopped

/-- The stage after an execution of it: the entrypoint dies with every command that fails. -/
def after (g : Stage) (o : Operation) {α : Type} : Program Request Reply (Except Err α) → Stage
  | .done (.ok _) => g.next o
  | _ => stopped

/-- The release that is running. -/
def running : Stage → Option Release
  | launched r | ready r => some r
  | _ => none

/-- The release that was looked up, until readiness is reported for it. -/
def held : Stage → Option Release
  | found r | opened r | launched r => some r
  | _ => none

end Stage

/-- Who issued a command: the container start, with the release it was running, or any other
container. -/
inductive Caller where
  | container (running : Option Release)
  | elsewhere
  deriving DecidableEq, Repr

/-- What containers on one install root have done. -/
structure UpdaterSession where
  history : List (Caller × UpdaterEntry)
  disk : Disk
  stage : Stage

namespace UpdaterSession

/-- An empty install root, and a container that has not started. -/
def initial : UpdaterSession := ⟨[], Disk.empty, .waiting⟩

/-- The moves, without their callers. -/
def moves (s : UpdaterSession) : List UpdaterEntry := s.history.map Prod.snd

/-- The session after `caller` ran an operation that made the moves `past` and left `d`. -/
def ran (s : UpdaterSession) (caller : Caller) (o : Operation) (past : List UpdaterMove) (d : Disk)
    (g : Stage) : UpdaterSession :=
  ⟨(entries o s.disk past).map (Prod.mk caller) ++ s.history, d, g⟩

/-- What can happen next. -/
inductive Action where
  /-- Another container issues a command. -/
  | elsewhere (o : Operation)
  /-- The entrypoint issues its next command. -/
  | command (o : Operation)
  /-- The entrypoint looks up `active-release`. -/
  | lookup
  /-- The entrypoint launches the release it looked up. -/
  | launch
  /-- The container is stopped. -/
  | stop

/-- One step. Commands hold the lock, so each is one step, completed or killed. -/
inductive Step : Action → UpdaterSession → UpdaterSession → Prop where
  | elsewhere {s : UpdaterSession} (o : Operation) {past : List UpdaterMove} {d : Disk}
      {p : Program Request Reply (Except Err o.Result)}
      (he : world.Exec o.body.run [] s.disk p past d) :
      Step (.elsewhere o) s (s.ran .elsewhere o past d s.stage)
  | command {s : UpdaterSession} (o : Operation) {past : List UpdaterMove} {d : Disk}
      {p : Program Request Reply (Except Err o.Result)} (hnext : s.stage.Runs o)
      (he : world.Exec o.body.run [] s.disk p past d) :
      Step (.command o) s (s.ran (.container s.stage.running) o past d (s.stage.after o p))
  | lookup {s : UpdaterSession} {r : Release} (hstage : s.stage = .prepared)
      (hr : s.disk.readPointer "active-release" s.disk.active .ok = .ok (some r)) :
      Step .lookup s { s with stage := .found r }
  | launch {s : UpdaterSession} {r : Release} (hstage : s.stage = .opened r) :
      Step .launch s { s with stage := .launched r }
  | stop {s : UpdaterSession} : Step .stop s { s with stage := .stopped }

/-- One step, in which no other command switches `active-release` while the container start holds
the release it looked up. -/
def Undisturbed (s s' : UpdaterSession) : Prop :=
  ∃ a, Step a s s' ∧
    ∀ o, a = .elsewhere o → s.stage.held.isSome → s'.disk.active = s.disk.active

/-- The whole run, with any steps. -/
def Reachable : UpdaterSession → Prop :=
  Relation.ReflTransGen (fun s s' => ∃ a, Step a s s') initial

/-- The whole run, undisturbed. -/
def ReachableUndisturbed : UpdaterSession → Prop :=
  Relation.ReflTransGen Undisturbed initial

end UpdaterSession

variable {h : List UpdaterEntry} {d d' : Disk} {e : UpdaterEntry} {c : Release}

/-! ### Commands that do not switch -/

/-- Only an update switches `active-release`. -/
theorem Change.active_of_not_updating {op : Operation} {start new : Disk}
    {past : List UpdaterMove} (h : Change op start past d new) (hop : op.updating = none) :
    new.active = d.active := by
  by_contra hactive
  obtain ⟨f, m, hselect, -⟩ := h.selectable hactive
  obtain ⟨c, hc, -⟩ := hselect.config
  simp [hop] at hc

theorem Stage.Runs.not_updating {g : Stage} {o : Operation} (h : g.Runs o)
    (hheld : g.held.isSome) : o.updating = none := by
  cases g <;> cases o <;> simp_all [Stage.Runs, Stage.held, Operation.updating]

/-- The commands of the container start hold on to the release. -/
theorem Stage.held_of_after {g : Stage} {o : Operation} {α : Type} {r : Release}
    {p : Program Request Reply (Except Err α)} (hnext : g.Runs o)
    (h : (g.after o p).held = some r) : g.held = some r := by
  cases p with
  | ask => simp [after, held] at h
  | done v =>
    cases v with
    | error => simp [after, held] at h
    | ok => cases g <;> cases o <;> simp_all [after, next, held, Runs]

/-- Readiness is reported for the release that is running, and held. -/
theorem Stage.Runs.launched {g : Stage} {o : Operation} (h : g.Runs o) (hop : o.marksReady) :
    ∃ r, g.running = some r ∧ g.held = some r := by
  cases g <;> cases o <;> simp_all [Stage.Runs, Operation.marksReady, Stage.running, Stage.held]

/-- While a command runs that is no update, `active-release` is as it was. -/
theorem active_of_exec {o : Operation} {past : List UpdaterMove}
    {p : Program Request Reply (Except Err o.Result)} (hd : Inv d) (hop : o.updating = none)
    (he : world.Exec o.body.run [] d p past d') :
    d'.active = d.active ∧ ∀ e ∈ entries o d past, e.before.active = d.active := by
  have hguarantee : world.Guarantees (Permitted o d) o.body.run (fun _ _ _ => True) [] d :=
    World.Guarantees.mono (fun _ _ _ _ => trivial) (body_conforms hd)
  have ht : Trail (fun o' start past m => o'.updating = none ∧ Permitted o' start past m) (· = d)
      (entries o d past ++ []) d' :=
    Trail.exec he (hguarantee.weaken fun _ _ hG => ⟨hop, hG⟩) (.start rfl)
  have hkeeps : ∀ {h : List UpdaterEntry} {new : Disk},
      Trail (fun o' start past m => o'.updating = none ∧ Permitted o' start past m) (· = d) h new →
        new.active = d.active := by
    intro h new ht
    induction ht with
    | start hs => rw [hs]
    | move _ hG ih => exact (hG.2.change.active_of_not_updating hG.1).trans ih
  refine ⟨hkeeps ht, fun e hmem => ?_⟩
  obtain ⟨earlier, ht', -⟩ := Trail.of_mem ht (by simpa using hmem)
  exact hkeeps ht'

/-! ### Answering -/

/-- The entry satisfies readiness for candidate `c`: it records that `c` answered, or accepts it at
once. -/
def UpdaterEntry.Answers (c : Release) (e : UpdaterEntry) : Prop :=
  e.RecordsReady c ∨
    e.op.marksReady ∧ e.Accepts ∧ e.before.loaded.candidateRelease = some c

theorem UpdaterEntry.Answers.marksReady (ha : e.Answers c) : e.op.marksReady :=
  ha.elim (fun h => h.op) fun h => h.1

/-- The candidate that is answered for is the active release. -/
theorem UpdaterEntry.Answers.active (ha : e.Answers c) (hd : Inv e.before)
    (hG : Permitted e.op e.start e.earlier e.move) : e.before.active = some c := by
  rcases ha with hready | ⟨-, ⟨hnot, haccepted⟩, hcandidate⟩
  · have hafter : Inv e.after := hG.change.inv hd
    have hactive := (hafter.committed (by rw [hready.state]; trivial)).2
    exact hready.keeps.symm.trans (hactive.trans hready.candidate)
  · obtain ⟨r, hr, hnew⟩ := hG.change.of_accepts hnot haccepted
    replace hnew : e.after = { e.before with record := some r } := hnew
    have hop := (hr.of_accepts hnot (by simpa [hnew] using haccepted)).1
    have hwaiting : e.before.state = .startingCandidate ∨ e.before.state = .runtimeReady :=
      hop.elim (fun h => .inr h.2) fun h => h.2
    have hcommitted : e.before.state.Committed := by
      rcases hwaiting with hs | hs <;> rw [hs] <;> trivial
    exact (hd.committed hcommitted).2.trans hcandidate

/-! ### Sessions -/

namespace UpdaterSession

variable {s s' : UpdaterSession}

theorem moves_ran {caller : Caller} {o : Operation} {past : List UpdaterMove} {g : Stage} :
    (s.ran caller o past d g).moves = entries o s.disk past ++ s.moves := by
  simp [ran, moves, List.map_map, Function.comp_def]

/-- The moves of a session are a history. -/
theorem Step.history {a : Action} (hstep : Step a s s') (hh : UpdaterHistory s.moves s.disk) :
    UpdaterHistory s'.moves s'.disk := by
  cases hstep with
  | elsewhere o he => exact moves_ran ▸ .run o hh he
  | command o _ he => exact moves_ran ▸ .run o hh he
  | lookup | launch | stop => exact hh

theorem Reachable.history (hs : Reachable s) : UpdaterHistory s.moves s.disk := by
  induction hs with
  | refl => exact .start rfl
  | tail _ hstep ih =>
    obtain ⟨a, hstep⟩ := hstep
    exact hstep.history ih

/-- What an undisturbed run keeps: the held release is the active one, and the container start has
answered only for what it was running. -/
structure Faithful (s : UpdaterSession) : Prop where
  held : ∀ r, s.stage.held = some r → s.disk.active = some r
  answered : ∀ e ∈ s.history, ∀ running c, e.1 = .container running → e.2.Answers c →
    running = some c

theorem faithful_initial : Faithful initial :=
  ⟨fun _ h => (nomatch h), fun _ h => (nomatch h)⟩

theorem Faithful.step (hf : Faithful s) (hh : UpdaterHistory s.moves s.disk)
    (hstep : Undisturbed s s') : Faithful s' := by
  obtain ⟨a, hstep, hquiet⟩ := hstep
  have hd := hh.trail.inv
  cases hstep with
  | elsewhere o he =>
    refine ⟨fun r hr => ?_, fun e hmem running c hcaller => ?_⟩
    · have hactive := hquiet o rfl (Option.isSome_of_eq_some hr)
      exact hactive.trans (hf.held r hr)
    · rcases List.mem_append.mp hmem with hnew | hold
      · obtain ⟨_, -, rfl⟩ := List.mem_map.mp hnew
        exact nomatch hcaller
      · exact hf.answered e hold running c hcaller
  | @command _ o past d p hnext he =>
    have hh' := (Step.command o hnext he).history hh
    refine ⟨fun r hr => ?_, fun e hmem running c hcaller ha => ?_⟩
    · have hheld := Stage.held_of_after hnext hr
      have hop := hnext.not_updating (Option.isSome_of_eq_some hheld)
      exact (active_of_exec hd hop he).1.trans (hf.held r hheld)
    · rcases List.mem_append.mp hmem with hnew | hold
      · obtain ⟨e, hmade, rfl⟩ := List.mem_map.mp hnew
        obtain rfl : s.stage.running = running := Caller.container.inj hcaller
        have hready : o.marksReady := op_of_mem_entries hmade ▸ ha.marksReady
        obtain ⟨r, hrunning, hheld⟩ := hnext.launched hready
        have hop := hnext.not_updating (Option.isSome_of_eq_some hheld)
        have hactive := ((active_of_exec hd hop he).2 e hmade).trans (hf.held r hheld)
        obtain ⟨earlier, ht, hG⟩ := hh'.trail.of_mem (List.mem_map_of_mem hmem)
        rw [hrunning, ← hactive]
        exact ha.active (UpdaterTrail.inv ht) hG
      · exact hf.answered e hold running c hcaller ha
  | @lookup _ r hstage hr =>
    refine ⟨fun r' hr' => ?_, hf.answered⟩
    obtain rfl : r = r' := by simpa [Stage.held] using hr'
    exact (Disk.readPointer_ok hr).symm
  | launch hstage =>
    exact ⟨fun r' hr' => hf.held r' (by simpa [hstage, Stage.held] using hr'), hf.answered⟩
  | stop => exact ⟨fun r hr => (nomatch hr), hf.answered⟩

theorem ReachableUndisturbed.reachable (hs : ReachableUndisturbed s) : Reachable s :=
  Relation.ReflTransGen.mono (fun _ _ ⟨a, hstep, _⟩ => ⟨a, hstep⟩) _ _ hs

theorem ReachableUndisturbed.faithful (hs : ReachableUndisturbed s) : Faithful s := by
  induction hs with
  | refl => exact faithful_initial
  | tail hs hstep ih => exact ih.step (ReachableUndisturbed.reachable hs).history hstep

/-- **The accepted release is the launched one.** In a run in which no other command switches
`active-release` while the container start holds the release it looked up: whenever the record
comes to say that a candidate was accepted, it is a `SoundAcceptance` of some release `c`, and where
it was the container start that satisfied readiness for `c`, it had launched `c`. -/
theorem launched_accepted (hs : ReachableUndisturbed s)
    {later earlier : List (Caller × UpdaterEntry)} {e : Caller × UpdaterEntry}
    (hsplit : s.history = later ++ e :: earlier) (he : e.2.Accepts) :
    ∃ c fromBuild, SoundAcceptance (earlier.map Prod.snd) e.2 c fromBuild ∧
      ∀ e' ∈ e :: earlier, ∀ running, e'.1 = .container running → e'.2.Answers c →
        running = some c := by
  have hh : UpdaterHistory (later.map Prod.snd ++ e.2 :: earlier.map Prod.snd) s.disk := by
    have hmoves := hs.reachable.history
    simpa [moves, hsplit] using hmoves
  obtain ⟨c, fromBuild, hsound⟩ := UpdaterTrail.soundAcceptance hh.trail he
  refine ⟨c, fromBuild, hsound, fun e' hmem running hcaller hanswer => ?_⟩
  exact hs.faithful.answered e' (hsplit ▸ List.mem_append_right _ hmem) running c hcaller hanswer

/-! ### Computed sessions -/

/-- The entrypoint runs an operation in obliging surroundings, to its end. -/
def commanding (s : UpdaterSession) (latest : ℕ) (o : Operation) : UpdaterSession :=
  let r := world.runFor (obliging latest) 60 o.body.run [] s.disk
  s.ran (.container s.stage.running) o r.2.1 r.2.2 (s.stage.after o r.1)

/-- Another container does. -/
def disturbing (s : UpdaterSession) (latest : ℕ) (o : Operation) : UpdaterSession :=
  let r := world.runFor (obliging latest) 60 o.body.run [] s.disk
  s.ran .elsewhere o r.2.1 r.2.2 s.stage

theorem step_commanding (latest : ℕ) {o : Operation} (hnext : s.stage.Runs o)
    (hlegal : world.legal (obliging latest) 60 o.body.run [] s.disk = true) :
    Step (.command o) s (s.commanding latest o) :=
  .command o hnext (world.exec_runFor _ _ _ _ _ hlegal)

theorem step_disturbing (latest : ℕ) {o : Operation}
    (hlegal : world.legal (obliging latest) 60 o.body.run [] s.disk = true) :
    Step (.elsewhere o) s (s.disturbing latest o) :=
  .elsewhere o (world.exec_runFor _ _ _ _ _ hlegal)

/-- A container start that installs build 5 and launches it. -/
def installing : UpdaterSession :=
  let s := initial.commanding 5 (.prepareStart .default)
  let s := { s with stage := .found (.steam 5 0 0) }
  let s := s.commanding 5 .markWorldOpened
  let s := { s with stage := .launched (.steam 5 0 0) }
  s.commanding 5 (.markRuntimeReady .default none none)

theorem reachable_installing : ReachableUndisturbed installing := by
  have h₁ : ReachableUndisturbed (initial.commanding 5 (.prepareStart .default)) :=
    .tail .refl ⟨_, step_commanding 5 trivial (by decide), nofun⟩
  have h₂ := h₁.tail ⟨_, .lookup (r := .steam 5 0 0) rfl rfl, nofun⟩
  have h₃ := h₂.tail ⟨_, step_commanding 5 (o := .markWorldOpened) trivial (by decide), nofun⟩
  have h₄ := h₃.tail ⟨_, .launch (r := .steam 5 0 0) rfl, nofun⟩
  exact h₄.tail ⟨_, step_commanding 5 trivial (by decide), nofun⟩

theorem installing_ne_nil : installing.history ≠ [] := List.ne_nil_of_length_pos (by decide)

/-- A first installation: what was launched is accepted. -/
theorem launched_accepted_install : ∃ e earlier c fromBuild,
    installing.history = e :: earlier ∧ e.1 = .container (some (.steam 5 0 0)) ∧
      SoundAcceptance (earlier.map Prod.snd) e.2 c fromBuild ∧
      (e.2.Answers c → some (.steam 5 0 0) = some c) := by
  have hsplit := List.cons_head_tail installing_ne_nil
  have hlast : installing.history =
      [] ++ installing.history.head installing_ne_nil :: installing.history.tail := hsplit.symm
  obtain ⟨c, fromBuild, hsound, hlaunched⟩ :=
    launched_accepted reachable_installing hlast (by decide)
  refine ⟨_, _, c, fromBuild, hsplit.symm, by decide, hsound, ?_⟩
  exact hlaunched _ List.mem_cons_self (some (.steam 5 0 0)) (by decide)

/-- Build 5 is installed and accepted, and a container start looks it up. Then another container
runs an explicit update to build 6, and the start goes on. -/
def disturbed : UpdaterSession :=
  let s := initial.disturbing 5 (.prepareStart .default)
  let s := s.disturbing 5 .markWorldOpened
  let s := s.disturbing 5 (.markRuntimeReady .default none none)
  let s := s.commanding 5 (.prepareStart .default)
  let s := { s with stage := .found (.steam 5 0 0) }
  let s := s.disturbing 6 (.explicitUpdate .default false)
  let s := s.commanding 6 .markWorldOpened
  let s := { s with stage := .launched (.steam 5 0 0) }
  s.commanding 6 (.markRuntimeReady .default none none)

theorem reachable_disturbed : Reachable disturbed := by
  have h₁ : Reachable (initial.disturbing 5 (.prepareStart .default)) :=
    .tail .refl ⟨_, step_disturbing 5 (by decide)⟩
  have h₂ := h₁.tail ⟨_, step_disturbing 5 (o := .markWorldOpened) (by decide)⟩
  have h₃ := h₂.tail ⟨_, step_disturbing 5 (o := .markRuntimeReady .default none none) (by decide)⟩
  have h₄ := h₃.tail ⟨_, step_commanding 5 (o := .prepareStart .default) trivial (by decide)⟩
  have h₅ := h₄.tail ⟨_, .lookup (r := .steam 5 0 0) rfl rfl⟩
  have h₆ := h₅.tail ⟨_, step_disturbing 6 (o := .explicitUpdate .default false) (by decide)⟩
  have h₇ := h₆.tail ⟨_, step_commanding 6 (o := .markWorldOpened) trivial (by decide)⟩
  have h₈ := h₇.tail ⟨_, .launch (r := .steam 5 0 0) rfl⟩
  exact h₈.tail ⟨_, step_commanding 6 trivial (by decide)⟩

theorem disturbed_ne_nil : disturbed.history ≠ [] := List.ne_nil_of_length_pos (by decide)

/-- **A disturbed run.** The container start launched build 5, and its own readiness report accepts
the candidate of build 6, which nobody has launched. -/
theorem launched_other : ∃ s e earlier, Reachable s ∧ s.history = e :: earlier ∧ e.2.Accepts ∧
    e.1 = .container (some (.steam 5 0 0)) ∧ e.2.op = .markRuntimeReady .default none none ∧
    e.2.before.loaded.candidateRelease = some (.steam 6 0 0) ∧
    e.2.after.loaded.lastUpdateToBuild = some 6 := by
  have hsplit := List.cons_head_tail disturbed_ne_nil
  exact ⟨disturbed, _, _, reachable_disturbed, hsplit.symm, by decide, by decide, by decide,
    by decide, by decide⟩

end UpdaterSession

end Updater

end PzServer
