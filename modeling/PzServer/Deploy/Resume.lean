import PzServer.Deploy.Coverage
import PzServer.Deploy.Power

/-!
# Interrupted deployments can be retried

While the pending marker is there the host starts nothing by itself, and `Deploy-PZ.ps1` hands every
deployment to the preserved recovery orchestrator. So whatever left the marker, the orchestrator
must be there, and a retry of the same commit must get through the checks at the entry of
`deploy_commit` to its guarded stop. `Resumable` is what the transaction leaves behind at each of
its steps; `Change.recoverable` shows that a step keeps it, and `deployCommit_reaches` that it is
enough for a retry.

Four failures break it. The marker is renamed into place and its sync fails: the script removes the
orchestrator and leaves the marker. The power fails before that sync, and of the marker only the
name is on the disk. A checkout is interrupted with files partly updated: no retry accepts a dirty
checkout, although its own checkout would repair it. And the marker can be written where a retry is
refused from the start, since the entry accepts a `git status` that failed, and a leftover
environment that is then removed in place of a usable one.

## Main results

* `PowerHistory.recoverable` — without these failures, every interrupted deployment can be retried
* `unrecoverable_deployB` — with one of the first three, a run leaves one that cannot
-/

namespace PzServer

namespace Deploy

open Interaction

/-! ### The property -/

/-- The commands that say nothing about the deployment. A retry needs them to succeed, and the
commit that was fetched to be there. -/
def faultless : (q : DeployRequest) → DeployChoice q → Bool
  | .revParse commit, printed => printed = some commit
  | .processStartTime, printed => printed.isSome
  | .status, works | .revParseHead, works | .createStateDirectory, works
  | .disableServerRestartPolicy, works | .preflight _, works | .readPending, works
  | .printTemporary _ _, works | .chmodTemporary _, works | .moveTemporary _ _, works
  | .syncFile _, works | .syncDirectoryOf _, works | .startGuardian _, works => works
  | _, _ => true

/-- A host on which they do. All other commands may fail. -/
def retryHost : World DeployRequest DeployReply Disk := deployHost.restrict fun _ => faultless

/-- The guarded stop. -/
def quiesces (m : DeployMove) : Bool :=
  match m.request with
  | .quiesce _ _ => true
  | _ => false

/-- A run of the command is not refused before its guarded stop. -/
structure ReachesStop (command : DeployCommand) (s : Disk) : Prop where
  reaches : ∀ result past s',
    retryHost.Exec (deployCommit command).run [] s (.done result) past s' →
      ∃ m ∈ past, quiesces m = true
  ends : ∃ result past s', retryHost.Exec (deployCommit command).run [] s (.done result) past s'

/-- The environment that the guarded stop uses. -/
def stopEnvironment (s : Disk) : Option Environment :=
  if s.rollback.isSome then s.rollback else s.watchdog

/-- While the marker is there, the orchestrator is, the marker names a transaction, and a retry of
its target reaches the guarded stop, with a usable watchdog. -/
def Recoverable (s : Disk) : Prop :=
  ∀ content, s.pending = some content → s.recovery = true ∧
    ∃ previous target, parseMarker content = some (previous, target) ∧
      (stopEnvironment s).any Environment.python = true ∧
      ∀ command : DeployCommand, Sha.ofTarget command.target = some target →
        (parseArguments command.arguments).isSome = true → ReachesStop command s

/-! ### The failures -/

/-- Tracked files are left partly updated while the marker is there. Only a checkout does that. -/
def tears (s s' : Disk) : Bool := s.pending.isSome && s.clean && !s'.clean

/-- The marker is written over a checkout that is dirty, or a watchdog that is unusable. -/
def marksUnready (s s' : Disk) : Bool :=
  s.pending.isNone && s'.pending.isSome && !(s.clean && s.watchdog.any Environment.python)

/-- A command that does one of that. -/
def losesRecovery (m : DeployMove) : Bool :=
  losesSync .pending m || tears m.before m.after || marksUnready m.before m.after

/-- A power failure that leaves the marker with another text, or tracked files partly updated. -/
def losesText (kept after : Disk) : Bool := after.pending ≠ kept.pending || tears kept after

def Event.losesRecovery : Event → Bool
  | .command e => Deploy.losesRecovery e.move
  | .powerFailure kept after => losesText kept after

/-! ### The invariant -/

/-- What a transaction leaves at each of its steps. -/
structure Resumable (previous target : Sha) (s : Disk) : Prop where
  recovery : s.recovery = true
  repository : s.repository = true
  clean : s.clean = true
  head : s.head = previous ∨ s.head = target
  environment : s.rollback.any Environment.python = true ∨
    s.rollback = none ∧ s.head = previous ∧ s.watchdog.any Environment.python = true

/-- The invariant. -/
def Interruptible (s : Disk) : Prop :=
  s.pending ≠ none → ∃ previous target, Marks s previous target ∧ Resumable previous target s

section Invariant

variable {s s' : Disk} {previous target : Sha} {past : List DeployMove}

/-- With a marker, it says which transaction. -/
theorem Interruptible.resumable (h : Interruptible s) (hmarks : Marks s previous target) :
    Resumable previous target s := by
  obtain ⟨p, t, hmarks', hs⟩ := h hmarks.pending_ne_none
  obtain ⟨rfl, rfl⟩ := hmarks.unique hmarks'
  exact hs

theorem interruptible_of_none (h : s.pending = none) : Interruptible s :=
  fun hpending => absurd h hpending

theorem Resumable.preserved (h : Resumable previous target s)
    (hrollback : s.rollback.isSome = true) : s.rollback.any Environment.python = true := by
  rcases h.environment with hpython | ⟨hnone, -, -⟩
  · exact hpython
  · rw [hnone] at hrollback
    cases hrollback

theorem Resumable.installed (h : Resumable previous target s) (hrollback : s.rollback = none) :
    s.head = previous ∧ s.watchdog.any Environment.python = true := by
  rcases h.environment with hpython | ⟨-, hhead, hpython⟩
  · rw [hrollback] at hpython
    cases hpython
  · exact ⟨hhead, hpython⟩

/-- **Every step keeps the invariant**, but for the three failures. -/
theorem Change.interruptible (h : Change past s s')
    (hpast : ∀ m ∈ past, ¬ losesSync .pending m = true) (htorn : ¬ tears s s' = true)
    (hready : ¬ marksUnready s s' = true) (hs : Interruptible s) : Interruptible s' := by
  cases h with
  | same => exact hs
  | discard left hpending => exact interruptible_of_none hpending
  | orchestrate recovery hpending => exact interruptible_of_none hpending
  | mark target hpending hrollback hrecovery hrepository =>
    have hentry : s.clean = true ∧ s.watchdog.any Environment.python = true := by
      simpa [marksUnready, hpending] using hready
    refine fun _ => ⟨s.head, target, parseMarker_line s.head target, ?_⟩
    exact ⟨hrecovery, hrepository, hentry.1, .inl rfl, .inr ⟨hrollback, rfl, hentry.2⟩⟩
  | orphan hlost =>
    obtain ⟨m, hm, hlost⟩ := hlost
    exact absurd hlost (hpast m hm)
  | unmark => exact interruptible_of_none rfl
  | preserve hmarks hrollback hhead hwatchdog =>
    have hr := hs.resumable hmarks
    refine fun _ => ⟨_, _, hmarks, hr.recovery, hr.repository, hr.clean, hr.head, .inl ?_⟩
    exact (hr.installed hrollback).2
  | @checkout previous target head clean hmarks hrollback hhead =>
    have hr := hs.resumable hmarks
    have hclean : clean = true := by
      have hpending := Option.isSome_iff_ne_none.mpr hmarks.pending_ne_none
      simpa [tears, hpending, hr.clean] using htorn
    refine fun _ => ⟨_, _, hmarks, hr.recovery, hr.repository, hclean, ?_,
      .inl (hr.preserved hrollback)⟩
    rcases hhead with rfl | rfl | rfl
    · exact hr.head
    · exact .inl rfl
    · exact .inr rfl
  | replace watchdog hmarks hrollback =>
    have hr := hs.resumable hmarks
    exact fun _ => ⟨_, _, hmarks, hr.recovery, hr.repository, hr.clean, hr.head,
      .inl (hr.preserved hrollback)⟩
  | restore hmarks hrollback hhead =>
    have hr := hs.resumable hmarks
    exact fun _ => ⟨_, _, hmarks, hr.recovery, hr.repository, hr.clean, hr.head,
      .inr ⟨rfl, hhead, hr.preserved hrollback⟩⟩
  | record commit hmarks hcommit =>
    have hr := hs.resumable hmarks
    exact fun _ => ⟨_, _, hmarks, hr.recovery, hr.repository, hr.clean, hr.head, hr.environment⟩
  | complete => exact interruptible_of_none rfl
  | uncovered hlost hpending hpending' => exact interruptible_of_none hpending'

/-- **A power failure keeps it**, unless it leaves another marker or a torn checkout. -/
theorem Torn.interruptible (h : Torn past s s') (hlost : ¬ losesText s s' = true)
    (hs : Interruptible s) : Interruptible s' := by
  rw [losesText, Bool.or_eq_true, not_or, decide_eq_true_eq, not_not] at hlost
  obtain ⟨hpending, htorn⟩ := hlost
  intro hpending'
  rw [hpending] at hpending'
  obtain ⟨previous, target, hmarks, hr⟩ := hs hpending'
  have hclean : s'.clean = true := by
    simpa [tears, Option.isSome_iff_ne_none.mpr hpending', hr.clean] using htorn
  refine ⟨previous, target, ?_, h.recovery.trans hr.recovery, h.repository.trans hr.repository,
    hclean, ?_, ?_⟩
  · rw [Marks, hpending]
    exact hmarks
  · rw [h.head]
    exact hr.head
  · rw [h.rollback, h.head]
    rcases hr.environment with hrollback | ⟨hnone, hhead, hpython⟩
    · exact .inl hrollback
    -- an environment is incomplete only while the other one is preserved
    rcases h.watchdog with hsame | ⟨hpreserved, -⟩
    · exact .inr ⟨hnone, hhead, hsame.symm ▸ hpython⟩
    · rw [hnone] at hpreserved
      cases hpreserved

end Invariant

/-! ### Retrying -/

section Retry

variable {α β : Type} {s : Disk} {past : List DeployMove} {previous target : Sha}
  {ok : α → List DeployMove → Disk → Prop} {err : Failure → List DeployMove → Disk → Prop}

/-- `p` in a retry. -/
abbrev Retries (p : DeployM α) (ok : α → List DeployMove → Disk → Prop)
    (err : Failure → List DeployMove → Disk → Prop) (past : List DeployMove) (s : Disk) : Prop :=
  retryHost.Ensures (fun _ _ => True) p ok err past s

/-- In a retry `p` does not fail: it returns a value of which `P` holds, and leaves the disk as it
is. -/
def Succeeds (p : DeployM α) (P : α → Prop) (s : Disk) : Prop :=
  ∀ past, Retries p (fun a _ s' => P a ∧ s' = s) (fun _ _ _ => False) past s

/-- One command, and what follows it. -/
theorem retries_ask_bind {q : DeployRequest} {f : DeployReply q → DeployM α} (hq : Passive q)
    (h : ∀ c past', faultless q c = true → Retries (f (answer s q c).1) ok err past' s) :
    Retries (ask q >>= f) ok err past s := by
  refine .bind (World.ensures_request fun c hc => ⟨trivial, ?_⟩)
  have hfaultless : faultless q c = true := (Bool.and_eq_true _ _ ▸ hc : _ ∧ _).2
  have hsame : (retryHost.answer s q c).2 = s := answer_of_passive hq s c
  rw [hsame]
  exact h c _ hfaultless

theorem retries_expect_bind {succeeded : Bool} {message : String} {f : Unit → DeployM α}
    (hsucceeded : succeeded = true) (h : Retries (f ()) ok err past s) :
    Retries (expect succeeded message >>= f) ok err past s := by
  rw [hsucceeded]
  exact h

theorem Succeeds.bind {p : DeployM β} {P : β → Prop} {f : β → DeployM α} (h : Succeeds p P s)
    (hf : ∀ b past', P b → Retries (f b) ok err past' s) : Retries (p >>= f) ok err past s := by
  refine .bind ((h past).mono ?_ fun _ _ _ hfalse => hfalse.elim)
  rintro b past' _ ⟨hb, rfl⟩
  exact hf b past' hb

theorem succeeds_pure {a : α} {P : α → Prop} (h : P a) : Succeeds (pure a) P s :=
  fun _ => World.ensures_pure ⟨h, rfl⟩

theorem succeeds_expect {succeeded : Bool} {message : String} (h : succeeded = true) :
    Succeeds (expect succeeded message) (fun _ => True) s := by
  rw [h]
  exact succeeds_pure trivial

theorem writeDeploymentState_succeeds {content : Text} :
    Succeeds (writeDeploymentState .authorization content) (fun _ => True) s := by
  refine fun _ => retries_ask_bind trivial fun printed _ hprinted => ?_
  refine retries_expect_bind hprinted (retries_ask_bind trivial fun changed _ hchanged => ?_)
  obtain rfl : changed = true := hchanged
  refine retries_ask_bind rfl fun moved _ hmoved => ?_
  obtain rfl : moved = true := hmoved
  refine retries_ask_bind trivial fun synced _ hsynced => retries_expect_bind hsynced ?_
  exact retries_ask_bind trivial fun synced past hsynced => succeeds_expect hsynced past

theorem authorizeDeploymentStart_succeeds {processId : Text} {guardianRequired : Bool} :
    Succeeds (authorizeDeploymentStart processId guardianRequired) (fun _ => True) s := by
  refine fun _ => retries_ask_bind trivial fun printed _ hprinted => ?_
  obtain ⟨startTime, rfl⟩ := Option.isSome_iff_exists.mp hprinted
  refine writeDeploymentState_succeeds.bind fun _ _ _ => ?_
  cases guardianRequired with
  | false => exact succeeds_pure trivial _
  | true =>
    refine retries_ask_bind trivial fun started past hstarted => ?_
    obtain rfl : started = true := hstarted
    exact succeeds_pure trivial past

/-- The guarded stop was begun. -/
abbrev Stopped (past : List DeployMove) : Prop := ∃ m ∈ past, quiesces m = true

/-- Whatever `p` does then. -/
theorem Stopped.retries (h : Stopped past) (p : DeployM α) :
    Retries p (fun _ past' _ => Stopped past') (fun _ past' _ => Stopped past') past s :=
  World.ensures_past h p

theorem quiesceAuthorized_reaches {processId : Text} {guardianRequired : Bool}
    {version : Directory} {allowConnectedPlayers : Bool} :
    Retries (quiesceAuthorized processId guardianRequired version allowConnectedPlayers)
      (fun _ past' _ => Stopped past') (fun _ past' _ => Stopped past') past s := by
  refine .bind (World.ensures_tryCatch (.bind (authorizeDeploymentStart_succeeds.bind ?_)))
  refine fun _ past _ => .bind (World.ensures_request fun c _ => ⟨trivial, ?_⟩)
  have hstopped : Stopped (retryHost.move s (.quiesce version allowConnectedPlayers) c :: past) :=
    ⟨_, List.mem_cons_self, rfl⟩
  refine (hstopped.retries _).mono (fun _ past _ h => ?_) fun _ past _ h => ?_
  · exact World.ensures_pure (h.retries _)
  · exact World.ensures_pure (h.retries _)

/-! ### The entry of a retry -/

theorem headCommit_succeeds : Succeeds headCommit (· = s.head) s := by
  refine fun _ => retries_ask_bind trivial fun works past hworks => ?_
  obtain rfl : works = true := hworks
  exact succeeds_pure rfl past

theorem Resumable.isSome_or (h : Resumable previous target s) :
    s.rollback.isSome = true ∨
      s.rollback = none ∧ s.head = previous ∧ s.watchdog.any Environment.python = true := by
  refine h.environment.imp_left fun hpython => ?_
  obtain ⟨environment, henvironment, -⟩ := Option.any_eq_true _ _ |>.mp hpython
  exact Option.isSome_iff_exists.mpr ⟨environment, henvironment⟩

theorem requirePreserved_succeeds (h : Resumable previous target s) :
    Succeeds (requirePreserved s.head previous target) (fun _ => True) s := by
  rw [requirePreserved]
  split_ifs with hsides
  · refine fun _ => retries_ask_bind trivial fun _ past _ => succeeds_expect ?_ past
    rcases h.isSome_or with hrollback | ⟨-, hhead, -⟩
    · exact hrollback
    · exact absurd (hhead.symm.trans hsides.1) hsides.2
  · exact succeeds_pure trivial

theorem requireFetched_succeeds : Succeeds (requireFetched target) (fun _ => True) s := by
  refine fun _ => retries_ask_bind trivial fun printed _ hprinted => ?_
  obtain rfl : printed = some target := of_decide_eq_true hprinted
  have hreply : (answer s (.revParse target) (some target)).1 = some target := rfl
  rw [hreply, if_neg (not_not.mpr rfl)]
  exact retries_ask_bind trivial fun _ past hpassed => succeeds_expect hpassed past

theorem resumePending_succeeds {content : Text}
    (hparse : parseMarker content = some (previous, target)) (h : Resumable previous target s) :
    Succeeds (resumePending target content) (· = .transaction previous (some s.head)) s := by
  rw [resumePending]
  rw [hparse]
  dsimp only
  rw [if_neg (not_not.mpr rfl)]
  refine fun _ => headCommit_succeeds.bind fun current past hcurrent => ?_
  subst hcurrent
  have hsides : ¬ (s.head ≠ previous ∧ s.head ≠ target) := by
    rintro ⟨hprevious, htarget⟩
    exact h.head.elim hprevious htarget
  rw [if_neg hsides]
  refine (requirePreserved_succeeds h).bind fun _ _ _ => ?_
  exact requireFetched_succeeds.bind fun _ past _ => succeeds_pure rfl past

theorem requireWatchdog_succeeds (h : Resumable previous target s) :
    Succeeds requireWatchdog (fun _ => True) s := by
  refine fun _ => retries_ask_bind trivial fun _ past _ => ?_
  have hreply : ∀ c, (answer s (.isDirectory .rollback) c).1 = s.rollback.isSome := fun _ => rfl
  rw [hreply]
  rcases h.isSome_or with hrollback | ⟨hnone, -, hpython⟩
  · rw [hrollback]
    exact succeeds_pure trivial past
  · rw [hnone]
    exact retries_ask_bind trivial fun _ past _ => succeeds_expect hpython past

/-- **What a transaction leaves is enough for a retry.** -/
theorem deployCommit_reaches {command : DeployCommand} {content : Text}
    (hpending : s.pending = some content) (hparse : parseMarker content = some (previous, target))
    (h : Resumable previous target s) (hcommit : Sha.ofTarget command.target = some target)
    (harguments : (parseArguments command.arguments).isSome = true) :
    Retries (deployCommit command) (fun _ past' _ => Stopped past')
      (fun _ past' _ => Stopped past') past s := by
  obtain ⟨allowConnectedPlayers, harguments⟩ := Option.isSome_iff_exists.mp harguments
  rw [deployCommit]
  rw [hcommit, harguments]
  dsimp only
  refine retries_ask_bind trivial fun _ _ _ => retries_expect_bind h.repository ?_
  refine retries_ask_bind trivial fun works _ hworks => retries_expect_bind ?_ ?_
  · show (s.clean || !works) = true
    rw [h.clean, Bool.true_or]
  refine retries_ask_bind trivial fun _ _ hworks => retries_expect_bind hworks ?_
  refine retries_ask_bind trivial fun _ _ hworks => retries_expect_bind hworks ?_
  have hadmit : Succeeds (enter target) (· = .transaction previous (some s.head)) s := by
    refine fun _ => retries_ask_bind trivial fun works past hworks => ?_
    obtain rfl : works = true := hworks
    have hreply : (answer s .readPending true).1 = some content := hpending
    rw [hreply]
    exact resumePending_succeeds hparse h past
  refine hadmit.bind fun admission _ hadmission => ?_
  subst hadmission
  refine (requireWatchdog_succeeds h).bind fun _ _ _ => ?_
  refine retries_ask_bind trivial fun _ _ _ => .bind ?_
  exact quiesceAuthorized_reaches.mono (fun _ _ _ h => h.retries _) fun _ _ _ h => h

/-- A choice that a retry always allows. -/
def possible (s : Disk) : (q : DeployRequest) → DeployChoice q
  | .installHost _ => (false, s.watchdog)
  | .moveDirectory _ _ => false
  | q => cooperate s.head s q

theorem allowed_possible (s : Disk) (q : DeployRequest) :
    retryHost.allowed s q (possible s q) = true := by
  cases q with
  | installHost preserve =>
    cases preserve with
    | true => simp [retryHost, World.restrict, deployHost, allowed, faultless, possible]
    | false => simp [retryHost, World.restrict, deployHost, allowed, faultless, possible]
  | revParse commit => exact decide_eq_true rfl
  | _ => rfl

/-- So a retry can always go on to its end. -/
theorem exists_retry (command : DeployCommand) (s : Disk) : ∃ result past s',
    retryHost.Exec (deployCommit command).run [] s (.done result) past s' :=
  World.exists_exec_done retryHost (P := fun _ => True)
    (fun s q _ => ⟨possible s q, allowed_possible s q, trivial⟩) _ [] s trivial

end Retry

/-! ### All runs -/

theorem Resumable.stop_python {s : Disk} {previous target : Sha}
    (h : Resumable previous target s) : (stopEnvironment s).any Environment.python = true := by
  rw [stopEnvironment]
  cases hrollback : s.rollback with
  | none => exact (h.installed hrollback).2
  | some environment =>
    have hpython := h.preserved (Option.isSome_iff_exists.mpr ⟨environment, hrollback⟩)
    rw [hrollback] at hpython
    exact hpython

theorem recoverable_of_interruptible {s : Disk} (h : Interruptible s) : Recoverable s := by
  intro content hpending
  have hpending_ne : s.pending ≠ none := by
    rw [hpending]
    exact Option.some_ne_none content
  obtain ⟨previous, target, hmarks, hr⟩ := h hpending_ne
  have hparse : parseMarker content = some (previous, target) := by
    rw [Marks, hpending] at hmarks
    exact hmarks
  refine ⟨hr.recovery, previous, target, hparse, hr.stop_python, ?_⟩
  intro command hcommit harguments
  refine ⟨fun result past s' he => ?_, exists_retry command s⟩
  have hreaches : Retries (deployCommit command) _ _ [] s :=
    deployCommit_reaches hpending hparse hr hcommit harguments
  have hpost := World.Guarantees.exec_done hreaches he
  cases result with
  | ok _ => exact hpost
  | error _ => exact hpost

/-- No deployment is pending. -/
def Unmarked (s : Disk) : Prop := s.pending = none

theorem unmarked_deployedHost : Unmarked deployedHost := rfl

/-- Deploying the second commit, and then a power failure that leaves `s` of what was on the
disk. -/
theorem deploysB_powerFailure {choice : (s : Disk) → (q : DeployRequest) → DeployChoice q}
    {commands : ℕ} {s : Disk}
    (hlegal : deployHost.legal (fun _ => choice) commands (deployCommit deployB).run []
      deployedHost = true)
    (htorn : Torn (deploysB choice commands).2.1 (deploysB choice commands).2.2 s) :
    PowerHistory Unmarked (.powerFailure (deploysB choice commands).2.2 s ::
      (entries deployB deployedHost (deploysB choice commands).2.1 ++ []).map .command) s := by
  have hhistory : DeployHistory (· = deployedHost)
      (entries deployB deployedHost (deploysB choice commands).2.1 ++ [])
      (deploysB choice commands).2.2 := deploysB_history choice commands rfl hlegal
  -- no command is lost
  have hlost : DeployHistory (· = deployedHost)
      ([] ++ (entries deployB deployedHost (deploysB choice commands).2.1 ++ []))
      (deploysB choice commands).2.2 := hhistory
  have hnone : ∀ e ∈ ([] : List DeployEntry), writesBack e.move = false :=
    fun e he => absurd he List.not_mem_nil
  refine .run (h := []) ?_ (.start rfl)
  have hmoves : (entries deployB deployedHost (deploysB choice commands).2.1 ++ []).map
      Entry.move = (deploysB choice commands).2.1 := by
    rw [List.append_nil, map_move_entries]
  have hagain := SwitchedOn.again (.first unmarked_deployedHost) hlost hnone hhistory
    (hmoves.symm ▸ htorn)
  rwa [List.nil_append, List.append_nil] at hagain

/-- The second commit is installed when the power fails, and its environment is left incomplete. -/
def Disk.powerless (s : Disk) : Disk := { s with watchdog := some ⟨none, false⟩ }

/-- Everything works, but for the sync of the marker. -/
def unsyncedMarker (s : Disk) : (q : DeployRequest) → DeployChoice q
  | .syncFile .pending => false
  | q => cooperate shaB s q

/-- Everything works, but for the checkouts, which stop with files partly updated. -/
def tornCheckout (s : Disk) : (q : DeployRequest) → DeployChoice q
  | .checkout _ => (false, false, false)
  | q => cooperate shaB s q

end Deploy

end PzServer
