import PzServer.Deploy.Transaction
import PzServer.Interaction.Traces

/-!
# What a deployment can change

`Change past s s'` lists the steps that a run of `pzctl deploy` makes on the disk, each with what
the script knows when it makes it; `past` is what the run did before. `deployCommit_runs` shows
that a run makes no other step, from any disk and however its commands end. What holds of all runs
is proved from the list, in the modules that follow; the script is not opened again.

Two of the steps are possible only after a sync that failed: the recovery orchestrator is removed
although the marker may be there, and a rollback runs although the marker may be gone.

## Main definitions

* `Change` — the steps
* `losesSync`, `losesRemoval` — the two failures

## Main results

* `deployCommit_runs` — every run makes only these steps
* `DeployHistory.trail`, `DeployHistory.invariant` — and so do all runs together
-/

namespace PzServer

namespace Deploy

open Interaction

/-! ### Steps -/

/-- The pending marker names these two commits. -/
def Marks (s : Disk) (previous target : Sha) : Prop :=
  s.pending.bind parseMarker = some (previous, target)

theorem Marks.pending_ne_none {s : Disk} {previous target : Sha} (h : Marks s previous target) :
    s.pending ≠ none := by
  intro hnone
  rw [Marks, hnone] at h
  cases h

/-- The environment is the one of a commit. -/
def BuiltFor (environment : Option Environment) (commit : Sha) : Prop :=
  environment.bind Environment.builtFor = some commit

/-- A state file, or its directory, could not be synced after the file was renamed. -/
def losesSync (file : StateFile) : DeployMove → Bool
  | ⟨.syncFile file', works, _, _⟩ | ⟨.syncDirectoryOf file', works, _, _⟩ =>
    file' = file && !works
  | _ => false

/-- The state directory could not be synced after the marker was removed, while the previous
environment was still preserved. -/
def losesRemoval : DeployMove → Bool
  | ⟨.syncStateDirectory, works, s, _⟩ => !works && s.rollback.isSome
  | _ => false

/-- One step of a run that has made the moves `past`. -/
inductive Change (past : List DeployMove) : Disk → Disk → Prop where
  | same (s : Disk) : Change past s s
  /-- A preserved environment that no transaction needs is removed, as far as it can be. -/
  | discard {s : Disk} (left : Option Environment) (hpending : s.pending = none) :
      Change past s { s with rollback := left }
  /-- The orchestrator is installed or removed while there is no marker. -/
  | orchestrate {s : Disk} (recovery : Bool) (hpending : s.pending = none) :
      Change past s { s with recovery := recovery }
  | mark {s : Disk} (target : Sha) (hpending : s.pending = none) (hrollback : s.rollback = none)
      (hrecovery : s.recovery = true) (hrepository : s.repository = true) :
      Change past s { s with pending := some (line (marker s.head target)) }
  /-- The orchestrator is removed because the marker is thought not to be there. -/
  | orphan {s : Disk} (hlost : ∃ m ∈ past, losesSync .pending m = true) :
      Change past s { s with recovery := false }
  /-- The transaction is taken back before anything but the marker was written. -/
  | unmark {s : Disk} {previous target : Sha} (hmarks : Marks s previous target)
      (hrollback : s.rollback = none) (hhead : s.head = previous)
      (hdeployed : previous = target ∨ recorded (s.deployed.getD []) = previous.text) :
      Change past s { s with pending := none }
  | preserve {s : Disk} {previous target : Sha} (hmarks : Marks s previous target)
      (hrollback : s.rollback = none) (hhead : s.head = previous)
      (hwatchdog : s.watchdog.isSome = true) :
      Change past s { s with watchdog := none, rollback := s.watchdog }
  /-- `HEAD` moves to one side of the transaction, or stays. -/
  | checkout {s : Disk} {previous target : Sha} (head : Sha) (clean : Bool)
      (hmarks : Marks s previous target) (hrollback : s.rollback.isSome = true)
      (hhead : head = s.head ∨ head = previous ∨ head = target) :
      Change past s { s with head := head, clean := clean }
  /-- The environment is built or removed, while the previous one is preserved. -/
  | replace {s : Disk} {previous target : Sha} (watchdog : Option Environment)
      (hmarks : Marks s previous target) (hrollback : s.rollback.isSome = true) :
      Change past s { s with watchdog := watchdog }
  | restore {s : Disk} {previous target : Sha} (hmarks : Marks s previous target)
      (hrollback : s.rollback.isSome = true) (hhead : s.head = previous) :
      Change past s { s with watchdog := s.rollback, rollback := none }
  | record {s : Disk} {previous target : Sha} (commit : Sha) (hmarks : Marks s previous target)
      (hcommit : commit = previous ∨ commit = target) :
      Change past s { s with deployed := some (line commit.text) }
  | complete {s : Disk} {previous target : Sha} (hmarks : Marks s previous target)
      (hdeployed : s.deployed = some (line s.head.text))
      (hbuilt : BuiltFor s.watchdog s.head ∨ s.rollback = none ∧ s.head = previous) :
      Change past s { s with pending := none }
  /-- A rollback after the marker is gone. -/
  | uncovered {s s' : Disk} (hlost : ∃ m ∈ past, losesRemoval m = true)
      (hpending : s.pending = none) (hpending' : s'.pending = none) : Change past s s'

/-! ### Rules -/

section Rules

variable {α β : Type} {s : Disk} {past : List DeployMove}
  {ok : α → List DeployMove → Disk → Prop} {err : Failure → List DeployMove → Disk → Prop}

/-- Every move of `p` is a `Change`. -/
abbrev Follows (p : DeployM α) (ok : α → List DeployMove → Disk → Prop)
    (err : Failure → List DeployMove → Disk → Prop) (past : List DeployMove) (s : Disk) : Prop :=
  deployHost.Ensures (fun past m => Change past m.before m.after) p ok err past s

/-- One command, and what follows it. -/
theorem follows_ask_bind {q : DeployRequest} {f : DeployReply q → DeployM α}
    (h : ∀ c, allowed s q c = true → Change past s (answer s q c).2 ∧
      Follows (f (answer s q c).1) ok err (deployHost.move s q c :: past) (answer s q c).2) :
    Follows (ask q >>= f) ok err past s :=
  .bind (World.ensures_request h)

theorem follows_expect {succeeded : Bool} {message : String}
    {ok : Unit → List DeployMove → Disk → Prop} (hok : succeeded = true → ok () past s)
    (herr : succeeded = false → err ⟨1, message⟩ past s) :
    Follows (expect succeeded message) ok err past s := by
  cases succeeded with
  | true => exact World.ensures_pure (hok rfl)
  | false => exact World.ensures_throw (herr rfl)

theorem follows_expect_bind {succeeded : Bool} {message : String} {f : Unit → DeployM α}
    (hok : succeeded = true → Follows (f ()) ok err past s)
    (herr : succeeded = false → err ⟨1, message⟩ past s) :
    Follows (expect succeeded message >>= f) ok err past s :=
  .bind (follows_expect hok herr)

theorem follows_refuse {message : String} (h : err ⟨1, message⟩ past s) :
    Follows (refuse message) ok err past s :=
  World.ensures_throw h

theorem follows_attempt_bind {body : DeployM Unit} {f : Bool → DeployM α}
    (h : Follows body (fun _ => Follows (f true) ok err) (fun _ => Follows (f false) ok err)
      past s) :
    Follows (attempt body >>= f) ok err past s := by
  refine .bind (World.ensures_tryCatch (.bind (h.mono ?_ ?_)))
  · exact fun _ _ _ h => World.ensures_pure h
  · exact fun _ _ _ h => World.ensures_pure h

end Rules

/-! ### Commands that leave the disk as it is -/

/-- The commands that never change the disk. -/
def Passive : DeployRequest → Prop
  | .checkout _ | .removeDirectory _ | .moveDirectory _ _ | .installRecovery | .removeRecovery
  | .installHost _ => False
  | .moveTemporary file _ | .remove file => file = .authorization
  | _ => True

theorem answer_of_passive {q : DeployRequest} (hq : Passive q) (s : Disk) (c : DeployChoice q) :
    (answer s q c).2 = s := by
  cases q with
  | checkout _ | removeDirectory _ | moveDirectory _ _ | installRecovery | removeRecovery
  | installHost _ => exact hq.elim
  | moveTemporary file _ | remove file =>
    obtain rfl : file = .authorization := hq
    exact ite_self s
  | _ => rfl

/-- One such command, and what follows it. -/
theorem follows_read_bind {α : Type} {q : DeployRequest} {f : DeployReply q → DeployM α} {s : Disk}
    {past : List DeployMove} {ok : α → List DeployMove → Disk → Prop}
    {err : Failure → List DeployMove → Disk → Prop} (hq : Passive q)
    (h : ∀ c past', past' = ⟨q, (answer s q c).1, s, s⟩ :: past →
      Follows (f (answer s q c).1) ok err past' s) :
    Follows (ask q >>= f) ok err past s := by
  refine follows_ask_bind fun c _ => ?_
  have hmove : deployHost.move s q c = ⟨q, (answer s q c).1, s, s⟩ :=
    congrArg (Move.mk q (answer s q c).1 s) (answer_of_passive hq s c)
  rw [answer_of_passive hq s c, hmove]
  exact ⟨.same s, h c _ rfl⟩

/-- The commands that do not write the pending marker. -/
def Unmarking : DeployRequest → Prop
  | .moveTemporary file _ => file ≠ .pending
  | _ => True

theorem Passive.unmarking {q : DeployRequest} (h : Passive q) : Unmarking q := by
  cases q with
  | moveTemporary file content =>
    obtain rfl : file = .authorization := h
    exact fun h => by cases h
  | _ => trivial

theorem pending_of_unmarking {q : DeployRequest} (hq : Unmarking q) {s : Disk}
    (hs : s.pending = none) (c : DeployChoice q) : (answer s q c).2.pending = none := by
  cases q with
  | moveTemporary file content =>
    rcases Bool.eq_false_or_eq_true c with rfl | rfl
    · cases file with
      | pending => exact absurd rfl hq
      | deployed | authorization => exact hs
    · exact hs
  | remove file =>
    rcases Bool.eq_false_or_eq_true c with rfl | rfl
    · cases file with
      | pending => rfl
      | deployed | authorization => exact hs
    · exact hs
  | removeDirectory directory => cases directory <;> exact hs
  | moveDirectory source destination =>
    rcases Bool.eq_false_or_eq_true c with rfl | rfl
    · cases source <;> cases destination <;> exact hs
    · exact hs
  | removeRecovery => rcases Bool.eq_false_or_eq_true c with rfl | rfl <;> exact hs
  | _ => exact hs

/-! ### Commands that succeed -/

theorem moved_of_allowed {s : Disk} {commit : Sha} {moved clean : Bool}
    (h : allowed s (.checkout commit) (true, moved, clean) = true) : moved = true := by
  simp only [allowed, Bool.not_true, Bool.false_or, Bool.and_eq_true] at h
  exact h.1

theorem left_of_allowed {s : Disk} {directory : Directory} {left : Option Environment}
    (h : allowed s (.removeDirectory directory) (true, left) = true) : left = none := by
  simpa [allowed] using h

/-- A directory that is moved where there is none. -/
theorem answer_restore {s : Disk} (h : s.watchdog = none) :
    (answer s (.moveDirectory .rollback .watchdog) true).2 =
      { s with watchdog := s.rollback, rollback := none } := by
  simp [answer, Disk.move, Disk.environment, Disk.setEnvironment, h]

theorem answer_preserve {s : Disk} (h : s.rollback = none) :
    (answer s (.moveDirectory .watchdog .rollback) true).2 =
      { s with watchdog := none, rollback := s.watchdog } := by
  simp [answer, Disk.move, Disk.environment, Disk.setEnvironment, h]

/-- All commands of `p` satisfy `N`. -/
abbrev Uses {α : Type} (N : DeployRequest → Prop) (p : DeployM α) : Prop :=
  deployHost.Only (fun m => N m.request) p

section Uses

variable {α : Type} {N : DeployRequest → Prop}

theorem ask_uses {q : DeployRequest} (h : N q) : Uses N (ask q) :=
  World.only_request fun _ _ _ => h

theorem refuse_uses {message : String} : Uses N (refuse message : DeployM α) := World.only_throw

theorem expect_uses {succeeded : Bool} {message : String} : Uses N (expect succeeded message) := by
  cases succeeded with
  | true => exact World.only_pure
  | false => exact refuse_uses

theorem attempt_uses {body : DeployM Unit} (h : Uses N body) : Uses N (attempt body) :=
  World.Only.tryCatch (World.Only.bind h fun _ => World.only_pure) fun _ => World.only_pure

theorem ask_bind_uses {q : DeployRequest} {f : DeployReply q → DeployM α} (h : N q)
    (hf : ∀ reply, Uses N (f reply)) : Uses N (ask q >>= f) :=
  World.Only.bind (ask_uses h) hf

theorem expect_bind_uses {succeeded : Bool} {message : String} {f : Unit → DeployM α}
    (hf : Uses N (f ())) : Uses N (expect succeeded message >>= f) :=
  World.Only.bind expect_uses fun _ => hf

end Uses

theorem writeDeploymentState_uses {N : DeployRequest → Prop} {file : StateFile} {content : Text}
    (h : ∀ q, Passive q → N q) (hmove : N (.moveTemporary file (line content))) :
    Uses N (writeDeploymentState file content) := by
  refine ask_bind_uses (h _ trivial) fun _ => expect_bind_uses ?_
  refine ask_bind_uses (h _ trivial) fun changed => ?_
  split_ifs
  · exact ask_bind_uses (h _ trivial) fun _ => refuse_uses
  · refine ask_bind_uses hmove fun moved => ?_
    split_ifs
    · exact ask_bind_uses (h _ trivial) fun _ => refuse_uses
    · refine ask_bind_uses (h _ trivial) fun _ => expect_bind_uses ?_
      exact ask_bind_uses (h _ trivial) fun _ => expect_uses

theorem authorizeDeploymentStart_uses {processId : Text} {guardianRequired : Bool} :
    Uses Passive (authorizeDeploymentStart processId guardianRequired) := by
  refine ask_bind_uses trivial ?_
  rintro (_ | startTime)
  · exact refuse_uses
  · refine World.Only.bind (writeDeploymentState_uses (fun _ h => h) rfl) fun _ => ?_
    split_ifs
    · refine ask_bind_uses trivial fun started => ?_
      split_ifs
      · exact ask_bind_uses rfl fun _ => refuse_uses
      · exact World.only_pure
    · exact World.only_pure

theorem revokeDeploymentStart_uses : Uses Passive revokeDeploymentStart :=
  ask_bind_uses trivial fun _ => ask_bind_uses rfl fun _ => expect_uses

theorem quiesceAuthorized_uses {processId : Text} {guardianRequired : Bool} {version : Directory}
    {allowConnectedPlayers : Bool} :
    Uses Passive
      (quiesceAuthorized processId guardianRequired version allowConnectedPlayers) := by
  refine World.Only.bind (attempt_uses ?_) fun _ =>
    World.Only.bind (attempt_uses revokeDeploymentStart_uses) fun _ => World.only_pure
  exact World.Only.bind authorizeDeploymentStart_uses fun _ =>
    ask_bind_uses trivial fun _ => expect_uses

section Passive

variable {α : Type} {p : DeployM α} {s : Disk} {past : List DeployMove}
  {ok : α → List DeployMove → Disk → Prop} {err : Failure → List DeployMove → Disk → Prop}

theorem follows_passive (h : Uses Passive p) (hok : ∀ a past', past <:+ past' → ok a past' s)
    (herr : ∀ e past', past <:+ past' → err e past' s) : Follows p ok err past s := by
  have hkeeps := World.Only.keeps (P := (· = s)) past h
    (fun s' q c _ hq hs' => (answer_of_passive hq s' c).trans hs') rfl
  have hfollows : Follows p (fun _ _ s' => s' = s) (fun _ _ s' => s' = s) past s := by
    refine hkeeps.weaken fun past' m hm => ?_
    rw [hm.2.1, hm.2.2]
    exact .same s
  refine hfollows.suffix.mono ?_ ?_
  · rintro a past' _ ⟨hsuf, rfl⟩
    exact hok a past' hsuf
  · rintro e past' _ ⟨hsuf, rfl⟩
    exact herr e past' hsuf

end Passive

/-! ### State files -/

section StateFiles

variable {s : Disk} {past : List DeployMove}

/-- Writing a state file: where it fails, the file is as it was, or a sync failed. -/
theorem writeDeploymentState_follows {file : StateFile} {content : Text}
    {ok : Unit → List DeployMove → Disk → Prop} {err : Failure → List DeployMove → Disk → Prop}
    (hchange : ∀ past, Change past s (s.setFile file (some (line content))))
    (hok : ∀ past', ok () past' (s.setFile file (some (line content))))
    (herr : ∀ e past', err e past' s)
    (hlost : ∀ e past', (∃ m ∈ past', losesSync file m = true) →
      err e past' (s.setFile file (some (line content)))) :
    Follows (writeDeploymentState file content) ok err past s := by
  refine follows_read_bind trivial fun _ _ _ => follows_expect_bind (fun _ => ?_) fun _ => herr _ _
  refine follows_read_bind trivial fun changed _ _ => ?_
  cases changed with
  | false => exact follows_read_bind trivial fun _ _ _ => follows_refuse (herr _ _)
  | true =>
    refine follows_ask_bind fun moved _ => ?_
    cases moved with
    | false =>
      exact ⟨.same s, follows_read_bind trivial fun _ _ _ => follows_refuse (herr _ _)⟩
    | true =>
      refine ⟨hchange _, follows_read_bind trivial fun synced past' hpast' => ?_⟩
      refine follows_expect_bind (fun _ => ?_) fun hfailed => ?_
      · refine follows_read_bind trivial fun synced past'' hpast'' => ?_
        refine follows_expect (fun _ => hok _) fun hfailed => ?_
        obtain rfl : synced = false := hfailed
        rw [hpast'']
        exact hlost _ _ ⟨_, List.mem_cons_self, by cases file <;> rfl⟩
      · obtain rfl : synced = false := hfailed
        rw [hpast']
        exact hlost _ _ ⟨_, List.mem_cons_self, by cases file <;> rfl⟩

/-- Recording the deployed commit. Where it fails, the marker is still there, or only the last sync
failed. -/
theorem recordDeployedCommit_follows {previous target commit : Sha}
    {ok : Unit → List DeployMove → Disk → Prop} {err : Failure → List DeployMove → Disk → Prop}
    (hmarks : Marks s previous target) (hcommit : commit = previous ∨ commit = target)
    (hhead : s.head = commit)
    (hbuilt : BuiltFor s.watchdog s.head ∨ s.rollback = none ∧ s.head = previous)
    (hok : ∀ past', ok () past' { s with deployed := some (line commit.text), pending := none })
    (herr : ∀ e past' deployed, err e past' { s with deployed := deployed })
    (hlost : ∀ e past' s', s' = { s with deployed := some (line commit.text), pending := none } →
      ⟨.syncStateDirectory, false, s', s'⟩ ∈ past' → err e past' s') :
    Follows (recordDeployedCommit commit) ok err past s := by
  refine follows_attempt_bind (writeDeploymentState_follows ?_ ?_ ?_ ?_)
  · exact fun _ => .record commit hmarks hcommit
  · intro past'
    refine follows_ask_bind fun removed _ => ?_
    cases removed with
    | false => exact ⟨.same _, World.ensures_throw (herr _ _ _)⟩
    | true =>
      have hdeployed : some (line commit.text) = some (line s.head.text) := by rw [hhead]
      refine ⟨Change.complete (s := s.setFile .deployed _) hmarks hdeployed hbuilt, ?_⟩
      refine follows_read_bind trivial fun synced past'' hpast'' => ?_
      refine follows_expect (fun _ => hok _) fun hfailed => ?_
      obtain rfl : synced = false := hfailed
      rw [hpast'']
      exact hlost _ _ _ rfl List.mem_cons_self
  · exact fun _ _ => follows_refuse (herr _ _ s.deployed)
  · exact fun _ _ _ => follows_refuse (herr _ _ _)

end StateFiles

/-! ### Rollback -/

/-- Every move of `p` is a `Change`, however it ends. -/
abbrev Runs {α : Type} (p : DeployM α) (past : List DeployMove) (s : Disk) : Prop :=
  Follows p (fun _ _ _ => True) (fun _ _ _ => True) past s

section Rollback

variable {s : Disk} {past : List DeployMove} {processId : Text} {previous target : Sha}
  {allowConnectedPlayers : Bool}

theorem Uses.runs {α : Type} {p : DeployM α} (h : Uses Passive p) : Runs p past s :=
  follows_passive h (fun _ _ _ => trivial) fun _ _ _ => trivial

/-- While the marker is gone after a failed sync, everything is permitted but to write it. -/
theorem Uses.runs_uncovered {α : Type} {p : DeployM α} (h : Uses Unmarking p)
    (hlost : ∃ m ∈ past, losesRemoval m = true) (hpending : s.pending = none) : Runs p past s := by
  have hkeeps := World.Only.keeps (P := fun s => s.pending = none) past h
    (fun s' q c _ hq hs' => pending_of_unmarking hq hs' c) hpending
  have hfollows : Follows p (fun _ _ s' => s'.pending = none) (fun _ _ s' => s'.pending = none)
      past s := by
    refine hkeeps.weaken fun past' m hm => ?_
    obtain ⟨hsuf, hbefore, hafter⟩ := hm
    obtain ⟨m', hm', hlost⟩ := hlost
    exact .uncovered ⟨m', hsuf.subset hm', hlost⟩ hbefore hafter
  exact hfollows.mono (fun _ _ _ _ => trivial) fun _ _ _ _ => trivial

theorem recordDeployedCommit_uses {commit : Sha} :
    Uses Unmarking (recordDeployedCommit commit) := by
  refine World.Only.bind (attempt_uses ?_) fun recorded => ?_
  · exact writeDeploymentState_uses (fun _ => Passive.unmarking) fun h => by cases h
  · split_ifs
    · exact refuse_uses
    · refine ask_bind_uses trivial fun _ => expect_bind_uses ?_
      exact ask_bind_uses trivial fun _ => expect_uses

theorem startPrevious_uses : Uses Unmarking (startPrevious processId previous) := by
  refine World.Only.bind (attempt_uses
    (authorizeDeploymentStart_uses.mono fun _ => Passive.unmarking)) fun authorized => ?_
  split_ifs
  · exact refuse_uses
  · refine ask_bind_uses trivial fun _ => expect_bind_uses ?_
    refine ask_bind_uses trivial fun _ => expect_bind_uses ?_
    refine World.Only.bind recordDeployedCommit_uses fun _ => ?_
    refine World.Only.bind (attempt_uses
      (revokeDeploymentStart_uses.mono fun _ => Passive.unmarking)) fun revoked => ?_
    split_ifs
    · exact refuse_uses
    · exact ask_bind_uses trivial fun _ => World.only_pure

theorem rollbackDeployment_uses :
    Uses Unmarking (rollbackDeployment processId previous allowConnectedPlayers) := by
  refine World.Only.bind (quiesceAuthorized_uses.mono fun _ => Passive.unmarking) fun quiesced => ?_
  split_ifs
  · exact refuse_uses
  · refine ask_bind_uses trivial fun _ => expect_bind_uses ?_
    refine ask_bind_uses trivial fun _ => expect_bind_uses ?_
    refine ask_bind_uses trivial fun _ => expect_bind_uses ?_
    exact startPrevious_uses

/-- The end of a rollback, once the previous environment is back in its place. -/
theorem startPrevious_runs (hmarks : Marks s previous target) (hrollback : s.rollback = none)
    (hhead : s.head = previous) : Runs (startPrevious processId previous) past s := by
  refine follows_attempt_bind (follows_passive authorizeDeploymentStart_uses ?_ ?_)
  · refine fun _ past _ => follows_ask_bind fun ⟨works, left⟩ hallowed => ?_
    have hleft : left = s.watchdog := by
      have h := (Bool.and_eq_true _ _ ▸ hallowed : _ ∧ _).1
      exact of_decide_eq_true h
    have hsame : (answer s (.installHost true) (works, left)).2 = s := by
      rw [hleft]
      rfl
    rw [hsame]
    refine ⟨.same s, follows_expect_bind (fun _ => ?_) fun _ => trivial⟩
    refine follows_read_bind trivial fun _ _ _ => ?_
    refine follows_expect_bind (fun _ => ?_) fun _ => trivial
    refine .bind (recordDeployedCommit_follows hmarks (.inl rfl) hhead
      (.inr ⟨hrollback, hhead⟩) (fun past => ?_) (fun _ _ _ => trivial) fun _ _ _ _ _ => trivial)
    refine follows_attempt_bind (follows_passive revokeDeploymentStart_uses ?_ ?_)
    · refine fun _ past _ => follows_ask_bind fun removed _ => ?_
      cases removed with
      | false => exact ⟨.same _, World.ensures_pure trivial⟩
      | true => exact ⟨.orchestrate false rfl, World.ensures_pure trivial⟩
    · exact fun _ _ _ => follows_refuse trivial
  · exact fun _ _ _ => follows_refuse trivial

/-- A rollback while the marker is there. -/
theorem rollbackDeployment_runs (hmarks : Marks s previous target)
    (hrollback : s.rollback.isSome = true) :
    Runs (rollbackDeployment processId previous allowConnectedPlayers) past s := by
  refine .bind (follows_passive quiesceAuthorized_uses ?_ fun _ _ _ => trivial)
  intro quiesced past _
  cases quiesced with
  | false => exact follows_refuse trivial
  | true =>
    refine follows_ask_bind fun ⟨works, moved, clean⟩ hallowed => ⟨?_, ?_⟩
    · refine .checkout _ clean hmarks hrollback ?_
      cases moved with
      | false => exact .inl rfl
      | true => exact .inr (.inl rfl)
    refine follows_expect_bind (fun hworks => ?_) fun _ => trivial
    obtain rfl : works = true := hworks
    obtain rfl : moved = true := moved_of_allowed hallowed
    refine follows_ask_bind fun ⟨works, left⟩ hallowed => ⟨.replace left hmarks hrollback, ?_⟩
    refine follows_expect_bind (fun hworks => ?_) fun _ => trivial
    obtain rfl : works = true := hworks
    obtain rfl : left = none := left_of_allowed hallowed
    refine follows_ask_bind fun restored _ => ?_
    cases restored with
    | false => exact ⟨.same _, follows_expect_bind (fun h => by cases h) fun _ => trivial⟩
    | true =>
      rw [answer_restore rfl]
      refine ⟨.restore hmarks hrollback rfl, follows_expect_bind (fun _ => ?_) fun _ => trivial⟩
      exact startPrevious_runs hmarks rfl rfl

end Rollback

/-! ### Beginning and abandoning -/

section Begin

variable {s : Disk} {past : List DeployMove} {previous target : Sha}

theorem beginTransaction_follows {ok : Unit → List DeployMove → Disk → Prop}
    (hpending : s.pending = none) (hrepository : s.repository = true) (hhead : s.head = previous)
    (hok : ∀ past', ok () past' { s with
      rollback := none, recovery := true, pending := some (line (marker previous target)) }) :
    Follows (beginTransaction previous target) ok (fun _ _ _ => True) past s := by
  refine follows_ask_bind fun ⟨works, left⟩ hallowed => ⟨.discard left hpending, ?_⟩
  refine follows_expect_bind (fun hworks => ?_) fun _ => trivial
  obtain rfl : works = true := hworks
  obtain rfl : left = none := left_of_allowed hallowed
  refine follows_ask_bind fun ⟨works, present⟩ hallowed => ⟨.orchestrate present hpending, ?_⟩
  refine follows_expect_bind (fun hworks => ?_) fun _ => trivial
  obtain rfl : works = true := hworks
  obtain rfl : present = true := by simpa [allowed] using hallowed
  refine follows_attempt_bind (follows_passive ?_ (fun _ past' _ => ?_) fun _ past' _ => ?_)
  · exact ask_bind_uses trivial fun _ => expect_bind_uses (ask_bind_uses trivial fun _ =>
      expect_uses)
  · subst hhead
    refine follows_attempt_bind (writeDeploymentState_follows ?_ ?_ ?_ ?_)
    · exact fun _ => .mark target hpending rfl rfl hrepository
    · exact fun past' => World.ensures_pure (hok past')
    · intro _ past'
      refine follows_ask_bind fun removed _ => ?_
      cases removed with
      | false => exact ⟨.same _, follows_refuse trivial⟩
      | true => exact ⟨.orchestrate false hpending, follows_refuse trivial⟩
    · intro _ past' hlost
      refine follows_ask_bind fun removed _ => ?_
      cases removed with
      | false => exact ⟨.same _, follows_refuse trivial⟩
      | true => exact ⟨.orphan hlost, follows_refuse trivial⟩
  · refine follows_ask_bind fun removed _ => ?_
    cases removed with
    | false => exact ⟨.same _, follows_refuse trivial⟩
    | true => exact ⟨.orchestrate false hpending, follows_refuse trivial⟩

/-- A transaction that this run began is taken back. -/
theorem abandonTransaction_runs (hmarks : Marks s previous target) (hrollback : s.rollback = none)
    (hhead : s.head = previous)
    (hdeployed : previous = target ∨ recorded (s.deployed.getD []) = previous.text) :
    Runs (abandonTransaction false) past s := by
  refine follows_ask_bind fun removed _ => ?_
  cases removed with
  | false => exact ⟨.same s, follows_expect_bind (fun h => by cases h) fun _ => trivial⟩
  | true =>
    refine ⟨.unmark hmarks hrollback hhead hdeployed, ?_⟩
    refine follows_expect_bind (fun _ => ?_) fun _ => trivial
    refine follows_ask_bind fun removed _ => ⟨?_, ?_⟩
    · cases removed with
      | false => exact .same _
      | true => exact .orchestrate false rfl
    · refine follows_expect_bind (fun _ => ?_) fun _ => trivial
      exact follows_ask_bind fun _ _ => ⟨.same _, follows_refuse trivial⟩

end Begin

/-! ### The switch -/

section Switch

variable {s : Disk} {past : List DeployMove} {processId : Text} {previous target : Sha}
  {allowConnectedPlayers : Bool}

/-- A rollback, with the marker or after a failed sync without it. -/
theorem rollBackAndFail_runs (target : Sha) {message : String}
    (h : Marks s previous target ∧ s.rollback.isSome = true ∨
      (∃ m ∈ past, losesRemoval m = true) ∧ s.pending = none) :
    Runs (rollBackAndFail processId previous allowConnectedPlayers message) past s := by
  have hrollback : Runs (rollbackDeployment processId previous allowConnectedPlayers) past s := by
    rcases h with ⟨hmarks, hrollback⟩ | ⟨hlost, hpending⟩
    · exact rollbackDeployment_runs hmarks hrollback
    · exact rollbackDeployment_uses.runs_uncovered hlost hpending
  refine follows_attempt_bind (hrollback.mono (fun _ _ _ _ => ?_) fun _ _ _ _ => ?_)
  · exact follows_refuse trivial
  · exact follows_refuse trivial

theorem preserveWatchdog_follows {ok : Unit → List DeployMove → Disk → Prop}
    (hmarks : Marks s previous target) (hhead : s.rollback = none → s.head = previous)
    (hok : ∀ past' s', Marks s' previous target → s'.rollback.isSome = true → ok () past' s') :
    Follows preserveWatchdog ok (fun _ _ _ => True) past s := by
  refine follows_read_bind trivial fun c past' _ => ?_
  have hreply : (answer s (.isDirectory .rollback) c).1 = s.rollback.isSome := rfl
  rw [hreply]
  cases hrollback : s.rollback with
  | some environment => exact World.ensures_pure (hok _ s hmarks (by rw [hrollback]; rfl))
  | none =>
    refine follows_ask_bind fun moved hallowed => ?_
    cases moved with
    | false => exact ⟨.same s, follows_refuse trivial⟩
    | true =>
      have hwatchdog : s.watchdog.isSome = true := hallowed
      rw [answer_preserve hrollback]
      refine ⟨.preserve hmarks hrollback (hhead hrollback) hwatchdog, World.ensures_pure ?_⟩
      exact hok _ _ hmarks hwatchdog

theorem installTarget_follows {ok : Unit → List DeployMove → Disk → Prop}
    {err : Failure → List DeployMove → Disk → Prop} (hmarks : Marks s previous target)
    (hrollback : s.rollback.isSome = true)
    (hok : ∀ past', ok () past' { s with watchdog := some ⟨some s.head, true⟩ })
    (herr : ∀ e past' watchdog, err e past' { s with watchdog := watchdog }) :
    Follows (installTarget processId) ok err past s := by
  refine .bind (follows_passive authorizeDeploymentStart_uses ?_ fun e past' _ =>
    herr e past' s.watchdog)
  refine fun _ past' _ => follows_ask_bind fun ⟨works, left⟩ hallowed =>
    ⟨.replace left hmarks hrollback, ?_⟩
  refine follows_expect_bind (fun hworks => ?_) fun _ => herr _ _ left
  obtain rfl : works = true := hworks
  obtain rfl : left = some ⟨some s.head, true⟩ := by simpa [allowed] using hallowed
  refine follows_read_bind trivial fun _ _ _ => follows_expect (fun _ => hok _) fun _ => ?_
  exact herr _ _ _

/-- After the target was recorded. -/
theorem finishTransaction_runs (hpending : s.pending = none) :
    Runs finishTransaction past s := by
  refine follows_attempt_bind (follows_passive revokeDeploymentStart_uses ?_ ?_)
  · refine fun _ past _ => follows_ask_bind fun ⟨_, left⟩ _ => ⟨.discard left hpending, ?_⟩
    refine follows_ask_bind fun removed _ => ⟨?_, World.ensures_pure trivial⟩
    cases removed with
    | false => exact .same _
    | true => exact .orchestrate false hpending
  · exact fun _ _ _ => follows_refuse trivial

theorem switchToTarget_runs (hmarks : Marks s previous target)
    (hhead : s.rollback = none → s.head = previous) :
    Runs (switchToTarget processId previous target allowConnectedPlayers) past s := by
  refine .bind (preserveWatchdog_follows hmarks hhead ?_)
  clear hmarks hhead
  intro past s hmarks hrollback
  refine follows_ask_bind fun ⟨works, moved, clean⟩ hallowed => ⟨?_, ?_⟩
  · refine .checkout _ clean hmarks hrollback ?_
    cases moved with
    | false => exact .inl rfl
    | true => exact .inr (.inr rfl)
  cases works with
  | false => exact rollBackAndFail_runs target (.inl ⟨hmarks, hrollback⟩)
  | true =>
    obtain rfl : moved = true := moved_of_allowed hallowed
    refine follows_attempt_bind (installTarget_follows hmarks hrollback ?_ ?_)
    · refine fun past => follows_attempt_bind (recordDeployedCommit_follows hmarks
        (.inr rfl) rfl (.inl rfl) ?_ ?_ ?_)
      · exact fun _ => finishTransaction_runs rfl
      · exact fun _ _ _ => rollBackAndFail_runs target (.inl ⟨hmarks, hrollback⟩)
      · rintro _ past _ rfl hlost
        exact rollBackAndFail_runs target (.inr ⟨⟨_, hlost, hrollback⟩, rfl⟩)
    · exact fun _ _ _ => rollBackAndFail_runs target (.inl ⟨hmarks, hrollback⟩)

end Switch

/-! ### The whole script -/

section Script

variable {s : Disk} {past : List DeployMove} {processId : Text} {previous target : Sha}
  {allowConnectedPlayers : Bool}

/-- What a transaction starts from: a fresh one from `HEAD`, an interrupted one from its marker. -/
def StartsFrom (s : Disk) (previous target : Sha) : Option Sha → Prop
  | none => s.pending = none ∧ s.repository = true ∧ s.head = previous ∧
      (previous = target ∨ recorded (s.deployed.getD []) = previous.text)
  | some _ => Marks s previous target ∧ (s.rollback = none → s.head = previous)

theorem requireWatchdog_uses : Uses Passive requireWatchdog := by
  refine ask_bind_uses trivial fun preserved => ?_
  split_ifs
  · exact ask_bind_uses trivial fun _ => expect_uses
  · exact World.only_pure

theorem runTransaction_runs {interruptedAt : Option Sha}
    (h : StartsFrom s previous target interruptedAt) :
    Runs (runTransaction processId previous target interruptedAt allowConnectedPlayers) past s := by
  refine .bind (follows_passive requireWatchdog_uses (fun _ past _ => ?_) fun _ _ _ => trivial)
  cases interruptedAt with
  | some current =>
    obtain ⟨hmarks, hhead⟩ := h
    refine follows_read_bind trivial fun _ _ _ => ?_
    refine .bind (follows_passive quiesceAuthorized_uses (fun quiesced past _ => ?_)
      fun _ _ _ => trivial)
    cases quiesced with
    | false =>
      have hrefused : Runs (abandonTransaction true) past s := follows_refuse trivial
      exact hrefused
    | true => exact switchToTarget_runs hmarks hhead
  | none =>
    obtain ⟨hpending, hrepository, hhead, hdeployed⟩ := h
    refine .bind (beginTransaction_follows hpending hrepository hhead fun past => ?_)
    have hmarks : Marks { s with
        rollback := none, recovery := true, pending := some (line (marker previous target)) }
        previous target := parseMarker_line previous target
    refine follows_read_bind trivial fun _ _ _ => ?_
    refine .bind (follows_passive quiesceAuthorized_uses (fun quiesced past _ => ?_)
      fun _ _ _ => trivial)
    cases quiesced with
    | false =>
      show Runs (abandonTransaction false) past _
      exact abandonTransaction_runs hmarks rfl hhead hdeployed
    | true => exact switchToTarget_runs hmarks fun _ => hhead

theorem headCommit_follows {ok : Sha → List DeployMove → Disk → Prop}
    (hok : ∀ past', ok s.head past' s) :
    Follows headCommit ok (fun _ _ _ => True) past s := by
  refine follows_read_bind trivial fun works past' _ => ?_
  cases works with
  | false => exact follows_refuse trivial
  | true => exact World.ensures_pure (hok past')

/-- What the entry admits, it admits with what a transaction starts from. -/
def Admits (target : Sha) (s : Disk) : Admission → Prop
  | .alreadyDeployed => True
  | .transaction previous interruptedAt => StartsFrom s previous target interruptedAt

theorem requirePreserved_follows {current : Sha} {ok : Unit → List DeployMove → Disk → Prop}
    (hok : ∀ past', (current = target → previous ≠ target → s.rollback.isSome = true) →
      ok () past' s) :
    Follows (requirePreserved current previous target) ok (fun _ _ _ => True) past s := by
  rw [requirePreserved]
  split_ifs with hsides
  · refine follows_read_bind trivial fun c _ _ => follows_expect (fun hpreserved => ?_) fun _ =>
      trivial
    exact hok _ fun _ _ => hpreserved
  · exact World.ensures_pure (hok _ fun hcurrent hprevious => absurd ⟨hcurrent, hprevious⟩ hsides)

theorem requireFetched_uses : Uses Passive (requireFetched target) := by
  refine ask_bind_uses trivial fun fetched => ?_
  split_ifs
  · exact refuse_uses
  · exact ask_bind_uses trivial fun _ => expect_uses

/-- The entry with a marker admits the transaction that the marker names. -/
theorem resumePending_follows {content : Text}
    (h : ∀ commits, parseMarker content = some commits →
      s.pending.bind parseMarker = some commits) :
    Follows (resumePending target content)
      (fun admission _ s' => s' = s ∧ Admits target s admission) (fun _ _ _ => True) past s := by
  rw [resumePending]
  cases hparse : parseMarker content with
  | none => exact follows_refuse trivial
  | some commits =>
    obtain ⟨previous, pendingTarget⟩ := commits
    dsimp only
    split_ifs with htarget
    · exact follows_refuse trivial
    · obtain rfl : pendingTarget = target := not_not.mp htarget
      refine .bind (headCommit_follows fun past => ?_)
      split_ifs with hsides
      · exact follows_refuse trivial
      · refine .bind (requirePreserved_follows fun past hpreserved => ?_)
        refine .bind (follows_passive requireFetched_uses (fun _ past _ => ?_) fun _ _ _ => trivial)
        refine World.ensures_pure ⟨rfl, h _ hparse, fun hrollback => ?_⟩
        by_contra hhead
        have htarget : s.head = pendingTarget := by
          by_contra hne
          exact hsides ⟨hhead, hne⟩
        have hne : previous ≠ pendingTarget := fun h => hhead (htarget.trans h.symm)
        rw [hrollback] at hpreserved
        cases hpreserved htarget hne

theorem checkDeployed_follows {deployed : Text}
    (h : previous = target ∨ deployed = previous.text →
      Admits target s (.transaction previous none)) :
    Follows (checkDeployed previous target deployed)
      (fun admission _ s' => s' = s ∧ Admits target s admission) (fun _ _ _ => True) past s := by
  rw [checkDeployed]
  split_ifs with hmalformed hbaseline hdrift hdone
  · exact follows_refuse trivial
  · exact follows_refuse trivial
  · exact follows_refuse trivial
  · exact World.ensures_pure ⟨rfl, trivial⟩
  · refine World.ensures_pure ⟨rfl, h ?_⟩
    by_cases hempty : deployed = []
    · refine .inl (Decidable.byContradiction fun hne => hbaseline ⟨hempty, hne⟩)
    · refine .inr (Decidable.byContradiction fun hne => hdrift ⟨hempty, hne⟩)

/-- The entry without a marker admits a transaction from `HEAD`, if anything. -/
theorem adoptTarget_follows (hpending : s.pending = none) (hrepository : s.repository = true) :
    Follows (adoptTarget target) (fun admission _ s' => s' = s ∧ Admits target s admission)
      (fun _ _ _ => True) past s := by
  refine follows_read_bind trivial fun remote _ _ => ?_
  cases remote with
  | none => exact follows_refuse trivial
  | some remote =>
    refine follows_expect_bind (fun _ => ?_) fun _ => trivial
    refine follows_read_bind trivial fun _ _ _ => follows_expect_bind (fun _ => ?_) fun _ => trivial
    refine follows_read_bind trivial fun fetched _ _ => ?_
    cases fetched with
    | none => exact follows_refuse trivial
    | some fetched =>
      refine follows_expect_bind (fun _ => ?_) fun _ => trivial
      refine follows_read_bind trivial fun _ _ _ =>
        follows_expect_bind (fun _ => ?_) fun _ => trivial
      refine .bind (headCommit_follows fun past => ?_)
      refine follows_read_bind trivial fun works past _ => ?_
      refine checkDeployed_follows fun hdeployed => ⟨hpending, hrepository, rfl, ?_⟩
      cases works with
      | false =>
        refine .inl (hdeployed.resolve_right fun h => ?_)
        exact s.head.text_ne_nil h.symm
      | true => exact hdeployed

theorem enter_follows (hrepository : s.repository = true) :
    Follows (enter target) (fun admission _ s' => s' = s ∧ Admits target s admission)
      (fun _ _ _ => True) past s := by
  refine follows_read_bind trivial fun works past _ => ?_
  cases hpending : s.pending with
  | none =>
    have hreply : (answer s .readPending works).1 = none := by
      cases works <;> simp [answer, hpending]
    rw [hreply]
    exact adoptTarget_follows hpending hrepository
  | some content =>
    cases works with
    | true =>
      have hreply : (answer s .readPending true).1 = some content := hpending
      rw [hreply]
      exact resumePending_follows fun commits h => by rw [hpending]; exact h
    | false =>
      have hreply : (answer s .readPending false).1 = some [] := by simp [answer, hpending]
      rw [hreply]
      exact resumePending_follows fun commits h => by cases h

/-- **What a run does.** Every move of every run, from any disk, is one of the steps. -/
theorem deployCommit_runs (command : DeployCommand) : Runs (deployCommit command) past s := by
  rw [deployCommit]
  cases hcommit : Sha.ofTarget command.target with
  | none => exact World.ensures_throw trivial
  | some target =>
    cases harguments : parseArguments command.arguments with
    | none => exact World.ensures_throw trivial
    | some allowConnectedPlayers =>
      refine follows_read_bind trivial fun c _ _ =>
        follows_expect_bind (fun hrepository => ?_) fun _ => trivial
      refine follows_read_bind trivial fun _ _ _ =>
        follows_expect_bind (fun _ => ?_) fun _ => trivial
      refine follows_read_bind trivial fun _ _ _ =>
        follows_expect_bind (fun _ => ?_) fun _ => trivial
      refine follows_read_bind trivial fun _ _ _ =>
        follows_expect_bind (fun _ => ?_) fun _ => trivial
      refine .bind ((enter_follows hrepository).mono ?_ fun _ _ _ _ => trivial)
      rintro (_ | ⟨previous, interruptedAt⟩) past _ ⟨rfl, hadmits⟩
      · exact follows_read_bind trivial fun _ _ _ =>
          follows_expect (fun _ => trivial) fun _ => trivial
      · exact runTransaction_runs hadmits

end Script

/-! ### Histories -/

/-- The trail that a history leaves. -/
abbrev DeployTrail (init : Disk → Prop) : List DeployEntry → Disk → Prop :=
  Trail (fun _ _ past m => Change past m.before m.after) init

theorem DeployHistory.trail {init : Disk → Prop} {h : List DeployEntry} {s : Disk}
    (hh : DeployHistory init h s) : DeployTrail init h s :=
  History.trail (fun _ _ => trivial) (fun _ _ _ _ _ _ => trivial)
    (fun command _ _ => World.Guarantees.mono (fun _ _ _ _ => trivial)
      (deployCommit_runs command)) hh

/-- What every step keeps, unless an earlier one of the run or it itself is ruled out, holds of
every history in which nothing is ruled out. -/
theorem DeployHistory.invariant {init Inv : Disk → Prop} {R : DeployMove → Prop}
    {h : List DeployEntry} {s : Disk} (hh : DeployHistory init h s)
    (hkept : ∀ e ∈ h, ¬ R e.move) (hinit : ∀ s, init s → Inv s)
    (hstep : ∀ past (m : DeployMove), (∀ m' ∈ past, ¬ R m') → ¬ R m →
      Change past m.before m.after → Inv m.before → Inv m.after) : Inv s := by
  have htrail : DeployTrail init (h ++ []) s := by
    rw [List.append_nil]
    exact hh.trail
  refine htrail.along (fun s' hs' => ?_) fun e h' he _ hchange hinv => ?_
  · cases hs' with
    | start hs' => exact hinit s' hs'
  · refine hstep _ _ (fun m hm => ?_) (hkept e he) hchange hinv
    obtain ⟨e', he', rfl⟩ := hh.exists_entry he hm
    exact hkept e' he'

end Deploy

end PzServer
