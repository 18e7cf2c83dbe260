import PzServer.Deploy.Changes

/-!
# Power failures during deployments

A run that is killed leaves everything that its commands did. A power failure takes back what has
not reached the disk. `sync -f` writes back the whole file system, and all that a `Disk` holds is on
the one of the host; the start authorization alone is under `/run`. Between two such syncs, renames,
removals and new names survive in their order, as a journal keeps them: a power failure leaves the
names as they were after one of the commands since the last sync. What is in a file that was written
since is not in the journal. A state file that was renamed into place can have any content then, a
checkout can leave tracked files partly written, and an environment can be incomplete.

## Main definitions

* `Torn` — what is left of files that were not written back
* `SwitchedOn`, `PowerHistory` — runs of `pzctl deploy` between power failures

## Main results

* `PowerHistory.invariant` — what the steps of the runs and the power failures keep
-/

namespace PzServer

namespace Deploy

open Interaction

/-! ### What has been written back -/

/-- A `sync -f` that succeeded, of a file that lasts. -/
def writesBack : DeployMove → Bool
  | ⟨.syncFile file, works, _, _⟩ | ⟨.syncDirectoryOf file, works, _, _⟩ =>
    file ≠ .authorization && works
  | ⟨.syncRecovery, works, _, _⟩ | ⟨.syncRecoveryDirectory, works, _, _⟩
  | ⟨.syncStateDirectory, works, _, _⟩ => works
  | _ => false

/-- The commands since then; the newest is the first. -/
def unwritten (moves : List DeployMove) : List DeployMove := moves.takeWhile fun m => !writesBack m

/-- A state file is put into its place. -/
def renames (file : StateFile) (m : DeployMove) : Bool :=
  match m.request with
  | .moveTemporary file' _ => file' = file
  | _ => false

/-- Tracked files are written. -/
def checksOut (m : DeployMove) : Bool :=
  match m.request with
  | .checkout _ => true
  | _ => false

/-! ### Power failures -/

/-- `content'` is what a power failure may leave of a state file. -/
def TornFile (moves : List DeployMove) (file : StateFile) (content content' : Option Text) : Prop :=
  content' = content ∨
    content.isSome = true ∧ content'.isSome = true ∧ (unwritten moves).any (renames file) = true

/-- What a power failure leaves of the disk `s` that `moves` led to. An environment is built only
while the previous one is preserved, and it may be left incomplete then. -/
structure Torn (moves : List DeployMove) (s s' : Disk) : Prop where
  repository : s'.repository = s.repository
  head : s'.head = s.head
  rollback : s'.rollback = s.rollback
  recovery : s'.recovery = s.recovery
  pending : TornFile moves .pending s.pending s'.pending
  deployed : TornFile moves .deployed s.deployed s'.deployed
  clean : s'.clean = s.clean ∨ s'.clean = false ∧ (unwritten moves).any checksOut = true
  watchdog : s'.watchdog = s.watchdog ∨
    s.rollback.isSome = true ∧ s'.watchdog.bind Environment.builtFor = none

/-- A command of a run, or a power failure with what it left. -/
inductive Event where
  | command (e : DeployEntry)
  /-- The names are those of `kept`, and `after` is what is left of the files. -/
  | powerFailure (kept after : Disk)

/-- After these events, the newest first, the host is switched on, and `s` is on its disk. When the
power fails, the commands `later` are lost: a run that had stopped before them would have left
`kept`. -/
inductive SwitchedOn (init : Disk → Prop) : List Event → Disk → Prop where
  | first {s : Disk} (hs : init s) : SwitchedOn init [] s
  | again {l : List Event} {later earlier : List DeployEntry} {boot s kept s' : Disk}
      (hl : SwitchedOn init l boot) (hh : DeployHistory (· = boot) (later ++ earlier) s)
      (hlater : ∀ e ∈ later, writesBack e.move = false)
      (hkept : DeployHistory (· = boot) earlier kept)
      (htorn : Torn (earlier.map Entry.move) kept s') :
      SwitchedOn init (.powerFailure kept s' :: ((later ++ earlier).map .command ++ l)) s'

/-- Runs of `pzctl deploy`, each of which may stop anywhere, and power failures. -/
inductive PowerHistory (init : Disk → Prop) : List Event → Disk → Prop where
  | run {l : List Event} {h : List DeployEntry} {boot s : Disk} (hl : SwitchedOn init l boot)
      (hh : DeployHistory (· = boot) h s) : PowerHistory init (h.map .command ++ l) s

section History

variable {init Inv : Disk → Prop} {R : DeployMove → Prop} {T : Disk → Disk → Prop}
  {l : List Event} {s : Disk}

/-- A command that satisfies `R`, or a power failure that satisfies `T`. -/
def Event.Excluded (R : DeployMove → Prop) (T : Disk → Disk → Prop) : Event → Prop
  | .command e => R e.move
  | .powerFailure kept after => T kept after

theorem not_excluded_command {h : List DeployEntry}
    (hkept : ∀ e ∈ h.map Event.command, ¬ e.Excluded R T) : ∀ e ∈ h, ¬ R e.move :=
  fun _ he => hkept _ (List.mem_map_of_mem he)

/-- What holds at first and is kept by every step of a run and by every power failure, those apart
that are excluded, holds when the host is switched on. -/
theorem SwitchedOn.invariant (hinit : ∀ s, init s → Inv s)
    (hstep : ∀ past (m : DeployMove), (∀ m' ∈ past, ¬ R m') → ¬ R m →
      Change past m.before m.after → Inv m.before → Inv m.after)
    (htorn : ∀ moves s s', Torn moves s s' → ¬ T s s' → Inv s → Inv s')
    (hl : SwitchedOn init l s) (hkept : ∀ e ∈ l, ¬ e.Excluded R T) : Inv s := by
  induction hl with
  | first hs => exact hinit _ hs
  | @again l later earlier boot s kept s' _ _ _ hearlier hafter ih =>
    obtain ⟨hpower, hbefore⟩ := List.forall_mem_cons.mp hkept
    obtain ⟨hcommands, hl⟩ := List.forall_mem_append.mp hbefore
    have hboot : Inv boot := ih hl
    have hmoves : ∀ e ∈ earlier, ¬ R e.move := fun e he =>
      not_excluded_command hcommands e (List.mem_append_right later he)
    refine htorn _ kept s' hafter hpower (hearlier.invariant hmoves ?_ hstep)
    rintro _ rfl
    exact hboot

/-- **Every state of every history**: what the steps and the power failures keep. -/
theorem PowerHistory.invariant (hinit : ∀ s, init s → Inv s)
    (hstep : ∀ past (m : DeployMove), (∀ m' ∈ past, ¬ R m') → ¬ R m →
      Change past m.before m.after → Inv m.before → Inv m.after)
    (htorn : ∀ moves s s', Torn moves s s' → ¬ T s s' → Inv s → Inv s')
    (hl : PowerHistory init l s) (hkept : ∀ e ∈ l, ¬ e.Excluded R T) : Inv s := by
  cases hl with
  | @run l h boot _ hl hh =>
    obtain ⟨hcommands, hbefore⟩ := List.forall_mem_append.mp hkept
    have hboot : Inv boot := hl.invariant hinit hstep htorn hbefore
    refine hh.invariant (not_excluded_command hcommands) ?_ hstep
    rintro _ rfl
    exact hboot

end History

end Deploy

end PzServer
