import PzServer.Lifecycle.Control

/-!
# Starts under the lifecycle lock

`pz-start-stack` cannot take the lock while a command holds it, so a start that the command causes
must be authorized by it. `start_stack` and the deployment do that. `graceful_stop_with_watchdog`
does not: when `pz-stack.service` cannot be stopped it restarts it, and whether that is authorized
depends on its caller. The deployment calls it under its authorization, the other commands do not.

## Main results

* `startStack_starts`, `gracefulStopWithWatchdog_starts` — what the functions start
* `backup_starts` — the same for `pz-backup`
* `LifecycleHistory.starts_authorized` — every start of every command, unless a stop has failed
-/

namespace PzServer

namespace Lifecycle

open Interaction
open Deploy (Text Directory DeployRequest DeployReply DeployM Failure)

/-! ### Moves -/

instance {caller : Process} {s : Host} : Decidable (Names caller s) :=
  inferInstanceAs (Decidable (_ = _))

theorem Names.congr {caller : Process} {s s' : Host} (h : Names caller s)
    (heq : s'.authorization = s.authorization) : Names caller s' := by
  rw [Names, heq]
  exact h

/-- A start of `pz-stack.service` is authorized. -/
def Authorized (m : LifecycleMove) : Prop :=
  startsStack m.before.units m.request = true →
    ∀ caller, m.request.caller? = some caller → Names caller m.before

/-- `systemctl stop pz-stack.service` fails while no authorization names the process. -/
def failsUnauthorized : LifecycleMove → Bool
  | ⟨.stop caller [.stack], works, s, _⟩ => !works && !decide (Names caller s)
  | _ => false

/-- The host on which that does not happen. -/
def carefulHost : World LifecycleRequest LifecycleReply Host :=
  lifecycleHost.restrict fun s q c => !failsUnauthorized (lifecycleHost.move s q c)

/-- Every start of `p` is authorized, from one state. -/
abbrev Starts {α : Type} (p : LifecycleM α) (ok : α → Host → Prop) (err : Host → Prop)
    (past : List LifecycleMove) (s : Host) : Prop :=
  carefulHost.Ensures (fun _ m => Authorized m) p (fun a _ s => ok a s) (fun _ _ s => err s) past s

/-- Commands that leave the authorization and `pz-stack.service` as they are. -/
def keeps : LifecycleRequest → Bool
  | .start _ _ | .restart _ _ | .deploy _ => false
  | .stop _ units => !units.contains .stack
  | _ => true

theorem answer_of_keeps {s : Host} {q : LifecycleRequest} {c : LifecycleChoice q}
    (hq : keeps q = true) (hc : allowed s q c = true) :
    (answer s q c).2.authorization = s.authorization ∧
      (answer s q c).2.units.stack = s.units.stack := by
  cases q with
  | isActive unit =>
    have hstack : c.stack = s.units.stack := by simpa [allowed] using hc
    exact ⟨rfl, hstack⟩
  | stop caller units =>
    obtain ⟨works, left⟩ := c
    rw [keeps, Bool.not_eq_true'] at hq
    simp only [allowed, hq, Bool.false_or, Bool.and_eq_true, beq_iff_eq] at hc
    exact ⟨rfl, hc.1⟩
  | start | restart | deploy => cases hq
  | _ => exact ⟨rfl, rfl⟩

theorem startsStack_of_keeps {units : Units} {q : LifecycleRequest} (hq : keeps q = true) :
    startsStack units q = false := by
  cases q with
  | start | restart => cases hq
  | _ => rfl

section Rules

variable {α : Type} {ok : α → Host → Prop} {err : Host → Prop} {past : List LifecycleMove}
  {s : Host}

/-- One command, and what follows it. -/
theorem starts_ask_bind {q : LifecycleRequest} {f : LifecycleReply q → LifecycleM α}
    (h : ∀ c, allowed s q c = true → failsUnauthorized (lifecycleHost.move s q c) = false →
      Authorized (lifecycleHost.move s q c) ∧
        ∀ past, Starts (f (answer s q c).1) ok err past (answer s q c).2) :
    Starts (ask q >>= f) ok err past s := by
  refine .bind (World.ensures_request fun c hc => ?_)
  obtain ⟨hallowed, hcareful⟩ := (Bool.and_eq_true _ _ ▸ hc : _ ∧ _)
  obtain ⟨hmove, hrest⟩ := h c hallowed ((Bool.not_eq_true' _).mp hcareful)
  exact ⟨hmove, hrest _⟩

/-- A command that keeps what matters. -/
theorem starts_keep_bind {q : LifecycleRequest} {f : LifecycleReply q → LifecycleM α}
    (hq : keeps q = true)
    (hf : ∀ reply past s', s'.authorization = s.authorization → s'.units.stack = s.units.stack →
      Starts (f reply) ok err past s') : Starts (ask q >>= f) ok err past s := by
  refine starts_ask_bind fun c hc _ => ⟨fun hstarts => ?_, fun past => ?_⟩
  · exact absurd ((startsStack_of_keeps hq).symm.trans hstarts) Bool.false_ne_true
  · obtain ⟨hauthorization, hstack⟩ := answer_of_keeps hq hc
    exact hf _ past _ hauthorization hstack

/-- `systemctl is-active` -/
theorem starts_isActive_bind {unit : ServiceUnit} {f : Bool → LifecycleM α}
    (hf : ∀ left : Units, left.stack = s.units.stack → ∀ past,
      Starts (f (left.active unit)) ok err past { s with units := left }) :
    Starts (ask (.isActive unit) >>= f) ok err past s :=
  starts_ask_bind fun left hc _ =>
    ⟨nofun, fun past => hf left (by simpa [allowed] using hc) past⟩

/-- A start of the watchdog that starts nothing else. -/
theorem starts_watchdog_bind {caller : Process} {f : Bool → LifecycleM α}
    (hstack : s.units.stack = true)
    (hf : ∀ started left past, Starts (f started) ok err past { s with units := left }) :
    Starts (ask (.start caller .watchdog) >>= f) ok err past s := by
  refine starts_ask_bind fun ⟨works, left⟩ _ _ => ⟨fun hstarts => ?_, hf works left⟩
  have hidle : startsStack s.units (.start caller .watchdog) = !s.units.stack := rfl
  rw [hstack] at hidle
  exact absurd (hidle.symm.trans hstarts) Bool.false_ne_true

/-- A start under an authorization. -/
theorem starts_named_bind {q : LifecycleRequest} {caller : Process}
    {f : LifecycleReply q → LifecycleM α} (hcaller : q.caller? = some caller)
    (hnames : Names caller s)
    (hf : ∀ reply past s', Names caller s' → s'.authorization = s.authorization →
      Starts (f reply) ok err past s') : Starts (ask q >>= f) ok err past s := by
  refine starts_ask_bind fun c _ _ => ⟨fun _ caller' hcaller' => ?_, fun past => ?_⟩
  · obtain rfl := Option.some.inj (hcaller.symm.trans hcaller')
    exact hnames
  · have hkept : (answer s q c).2.authorization = s.authorization := by
      cases q with
      | start | restart => rfl
      | _ => cases hcaller
    exact hf _ past _ (hnames.congr hkept) hkept

theorem starts_refuse {message : String} (h : err s) :
    Starts (refuse message : LifecycleM α) ok err past s :=
  World.ensures_throw h

theorem starts_expect {succeeded : Bool} {message : String} {ok : Unit → Host → Prop}
    (hok : succeeded = true → ok () s) (herr : err s) :
    Starts (expect succeeded message) ok err past s := by
  cases succeeded with
  | true => exact World.ensures_pure (hok rfl)
  | false => exact starts_refuse herr

theorem starts_expect_bind {succeeded : Bool} {message : String} {f : Unit → LifecycleM α}
    (hok : succeeded = true → Starts (f ()) ok err past s) (herr : err s) :
    Starts (expect succeeded message >>= f) ok err past s := by
  cases succeeded with
  | true => exact hok rfl
  | false => exact World.ensures_throw herr

theorem starts_attempt_bind {body : LifecycleM Unit} {f : Bool → LifecycleM α}
    (h : Starts body (fun _ s' => ∀ past, Starts (f true) ok err past s')
      (fun s' => ∀ past, Starts (f false) ok err past s') past s) :
    Starts (attempt body >>= f) ok err past s := by
  refine .bind (World.ensures_tryCatch (.bind (h.mono ?_ ?_)))
  · exact fun _ past' _ hf => World.ensures_pure (hf past')
  · exact fun _ past' _ hf => World.ensures_pure (hf past')

end Rules

/-! ### Stopping -/

section Stop

variable {caller : Process} {version : Directory} {arguments : List Text}
  {past : List LifecycleMove} {s : Host}

/-- The authorization is what it was. -/
abbrev Kept (s s' : Host) : Prop := s'.authorization = s.authorization

theorem restoreWatchdog_starts {watchdogWasActive : Bool} :
    Starts (restoreWatchdog caller watchdogWasActive) (fun _ => Kept s) (Kept s) past s := by
  cases watchdogWasActive with
  | false => exact World.ensures_pure rfl
  | true =>
    refine starts_isActive_bind fun left _ past => ?_
    by_cases hstack : left.stack = true
    · rw [if_pos (show left.active .stack = true from hstack)]
      exact starts_watchdog_bind hstack fun _ _ _ => World.ensures_pure rfl
    · rw [if_neg (show ¬ left.active .stack = true from hstack)]
      exact World.ensures_pure rfl

/-- Under an authorization the stack may be started again. -/
theorem recoverStack_starts {watchdogWasActive : Bool} (h : Names caller s) :
    Starts (recoverStack caller watchdogWasActive) (fun _ => Kept s) (Kept s) past s := by
  refine starts_named_bind rfl h fun _ past s₁ hnames hkept => ?_
  cases watchdogWasActive with
  | false => exact World.ensures_pure hkept
  | true =>
    refine starts_named_bind rfl hnames fun _ past s₂ _ hkept₂ => ?_
    exact World.ensures_pure (hkept₂.trans hkept)

theorem gracefulStopWithWatchdog_starts :
    Starts (gracefulStopWithWatchdog caller version arguments) (fun _ => Kept s) (Kept s)
      past s := by
  refine starts_keep_bind rfl fun watchdogWasActive past s₁ h₁ _ => ?_
  refine starts_keep_bind rfl fun stopped past s₂ h₂ _ => ?_
  split_ifs
  · exact starts_refuse (h₂.trans h₁)
  refine starts_keep_bind rfl fun safe past s₃ h₃ _ => ?_
  have hkept : Kept s s₃ := h₃.trans (h₂.trans h₁)
  split_ifs
  · refine restoreWatchdog_starts.seq (fun _ _ _ _ h => ?_) fun _ _ _ _ h => h.trans hkept
    exact starts_refuse (h.trans hkept)
  refine starts_ask_bind fun ⟨works, left⟩ _ hcareful => ⟨nofun, fun past => ?_⟩
  cases works with
  | true => exact World.ensures_pure hkept
  | false =>
    -- the stop failed, so it was issued under an authorization
    have hnames : Names caller s₃ := by
      simpa [failsUnauthorized, World.move, lifecycleHost, answer] using hcareful
    have hrecover := @recoverStack_starts caller past { s₃ with units := left }
      watchdogWasActive hnames
    refine hrecover.seq (fun _ _ _ _ h => ?_) fun _ _ _ _ h => h.trans hkept
    exact starts_refuse (h.trans hkept)

theorem quiesceForDeployment_starts :
    Starts (quiesceForDeployment caller version arguments) (fun _ => Kept s) (Kept s) past s := by
  have hinactive : ∀ past s₁, Kept s s₁ → Starts (do
      expect (← ask (.stop caller [.watchdog, .stack]))
        "Could not stop inactive deployment units safely."
      let state ← ask .serverState
      expect (state = .cleanStopped ∨ state = .missing)
        "Container state changed while preparing deployment; refusing to continue.")
      (fun _ => Kept s) (Kept s) past s₁ := by
    intro past s₁ h₁
    refine starts_ask_bind fun ⟨works, left⟩ _ _ => ⟨nofun, fun past => ?_⟩
    refine starts_expect_bind (fun _ => ?_) h₁
    refine starts_keep_bind rfl fun state past s₂ h₂ _ => ?_
    exact starts_expect (fun _ => h₂.trans h₁) (h₂.trans h₁)
  refine starts_keep_bind rfl fun state past s₁ h₁ _ => ?_
  cases state with
  | running =>
    exact gracefulStopWithWatchdog_starts.mono (fun _ _ _ h => h.trans h₁) fun _ _ _ h => h.trans h₁
  | cleanStopped => exact hinactive past s₁ h₁
  | missing => exact hinactive past s₁ h₁
  | unknown => exact starts_refuse h₁

theorem shutdownHost_starts :
    Starts (shutdownHost caller arguments) (fun _ _ => True) (fun _ => True) past s := by
  refine starts_keep_bind rfl fun watchdogWasActive past s₁ _ _ => ?_
  refine starts_keep_bind rfl fun stopped past s₂ _ _ => ?_
  split_ifs
  · exact starts_refuse trivial
  refine starts_keep_bind rfl fun safe past s₃ _ _ => ?_
  split_ifs
  · refine restoreWatchdog_starts.seq (fun _ _ _ _ _ => ?_) fun _ _ _ _ _ => trivial
    exact starts_refuse trivial
  · exact World.ensures_pure trivial

end Stop

/-! ### The functions of the deployment -/

section Handlers

variable {caller : Process} {past : List LifecycleMove} {s : Host}

theorem installHost_starts {preserve : Bool} (h : Names caller s) :
    Starts (installHost caller preserve) (fun _ => Kept s) (Kept s) past s := by
  refine starts_keep_bind rfl fun _ past s₁ h₁ _ => ?_
  refine starts_expect_bind (fun _ => ?_) h₁
  refine starts_named_bind rfl (h.congr h₁) fun _ past s₂ hnames h₂ => ?_
  refine starts_expect_bind (fun _ => ?_) (h₂.trans h₁)
  refine starts_named_bind rfl hnames fun _ past s₃ _ h₃ => ?_
  have hkept : Kept s s₃ := h₃.trans (h₂.trans h₁)
  refine starts_expect_bind (fun _ => ?_) hkept
  refine starts_keep_bind rfl fun _ past s₄ h₄ _ => ?_
  exact starts_expect (fun _ => h₄.trans hkept) (h₄.trans hkept)

theorem guarantees_succeeds {body : LifecycleM Unit}
    (h : Starts body (fun _ => Kept s) (Kept s) past s) :
    carefulHost.Guarantees (fun _ m => Authorized m) (succeeds body) (fun _ _ => Kept s) past
      s := by
  refine World.guarantees_bind.mpr (World.Guarantees.mono ?_ h)
  rintro (failure | value) _ _ hkept
  · exact hkept
  · exact hkept

/-- Every command of the deployment does what it may do to the authorization, and starts units only
if it may. -/
theorem deployCommand_guarantees (q : DeployRequest)
    (h : Deploy.startsUnits q = true → Names caller s) :
    carefulHost.Guarantees (fun _ m => Authorized m) (deployCommand caller q)
      (fun reply _ s' => (Deploy.authorizationHost caller.startTime).allowed s.authorization q
          reply = true ∧
        s'.authorization = Deploy.authorizationAfter s.authorization q reply) past s := by
  cases q with
  | processStartTime =>
    intro works _
    refine ⟨fun hstarts => absurd hstarts Bool.false_ne_true, ?_⟩
    cases works with
    | false => exact ⟨rfl, rfl⟩
    | true => exact ⟨by simp [Deploy.authorizationHost, lifecycleHost, carefulHost,
        World.restrict, answer], rfl⟩
  | quiesce version allowConnectedPlayers =>
    exact (guarantees_succeeds quiesceForDeployment_starts).mono fun _ _ _ hkept => ⟨rfl, hkept⟩
  | installHost preserve =>
    exact (guarantees_succeeds (installHost_starts (h rfl))).mono fun _ _ _ hkept => ⟨rfl, hkept⟩
  | _ => exact fun reply _ => ⟨fun hstarts => absurd hstarts Bool.false_ne_true, rfl, rfl⟩

/-- How a function of the deployment ends. -/
def Ends {α : Type} (ok : α → Option Text → Prop) : Except Failure α → Option Text → Prop
  | .ok a, content => ok a content
  | .error _, _ => True

/-- **A function of the deployment** starts what its commands may start. -/
theorem ofDeploy_starts {α : Type} {body : DeployM α} {ok : α → Option Text → Prop}
    (h : Deploy.BracketsFrom caller.id caller.startTime s.authorization body ok) :
    Starts (ofDeploy caller body) (fun a s' => ok a s'.authorization) (fun _ => True) past s := by
  refine World.guarantees_bind.mpr ?_
  have hhandler : ∀ q t past (s : Host),
      (∀ c, (Deploy.authorizationHost caller.startTime).allowed s.authorization q c = true →
        Deploy.Bracketed caller.id caller.startTime
          ((Deploy.authorizationHost caller.startTime).move s.authorization q c)) →
      carefulHost.Guarantees (fun _ m => Authorized m) (deployHandler caller q t)
        (fun r _ s' => ∃ c, (Deploy.authorizationHost caller.startTime).allowed s.authorization q
            c = true ∧
          (Deploy.authorizationHost caller.startTime).answer s.authorization q c =
            (r.1, s'.authorization)) past s := by
    intro q t past s hq
    have hnames : Deploy.startsUnits q = true → Names caller s := by
      intro hstarts
      cases q with
      | quiesce | installHost => exact hq true rfl rfl
      | _ => cases hstarts
    refine World.guarantees_bind.mpr ((deployCommand_guarantees q hnames).mono ?_)
    rintro reply _ s' ⟨hallowed, hafter⟩
    exact ⟨reply, hallowed, by rw [hafter]; rfl⟩
  have hbody : (Deploy.authorizationHost caller.startTime).Guarantees
      (fun _ m => Deploy.Bracketed caller.id caller.startTime m) body.run
      (fun r _ content => Ends ok r content) [] s.authorization := by
    refine World.Guarantees.mono ?_ (h [])
    rintro (failure | a) _ _ hr
    · trivial
    · exact hr
  refine (World.Guarantees.interpret hhandler hbody).mono ?_
  rintro ⟨(failure | a), _⟩ _ _ hr
  · trivial
  · exact hr

end Handlers

/-! ### Starting -/

section Start

variable {caller : Process} {past : List LifecycleMove} {s : Host}

/-- Every start of `p` is authorized. -/
abbrev StartsAuthorized {α : Type} (p : LifecycleM α) (past : List LifecycleMove) (s : Host) :
    Prop :=
  Starts p (fun _ _ => True) (fun _ => True) past s

theorem revokeDeploymentStart_starts :
    StartsAuthorized (ofDeploy caller Deploy.revokeDeploymentStart) past s :=
  (ofDeploy_starts Deploy.revokeDeploymentStart_brackets.start).mono (fun _ _ _ _ => trivial)
    fun _ _ _ _ => trivial

theorem startUnits_starts : StartsAuthorized (startUnits caller) past s := by
  refine (ofDeploy_starts Deploy.authorizeDeploymentStart_brackets).seq ?_ fun _ _ _ _ _ => trivial
  intro _ past s₁ _ hnames
  refine starts_named_bind rfl hnames fun _ past s₂ hnames₂ _ => ?_
  refine starts_expect_bind (fun _ => ?_) trivial
  refine starts_named_bind rfl hnames₂ fun _ past s₃ _ _ => ?_
  exact starts_expect (fun _ => trivial) trivial

theorem verifyWatchdogActive_starts : StartsAuthorized verifyWatchdogActive past s := by
  refine starts_keep_bind rfl fun _ past s₁ _ _ => starts_expect_bind (fun _ => ?_) trivial
  exact starts_keep_bind rfl fun _ past s₂ _ _ => starts_expect (fun _ => trivial) trivial

theorem startStopped_starts : StartsAuthorized (startStopped caller) past s := by
  refine starts_attempt_bind (startUnits_starts.mono (fun _ _ s₁ _ past => ?_)
    fun _ _ s₁ _ past => ?_)
  · refine starts_attempt_bind (revokeDeploymentStart_starts.mono (fun _ _ _ _ past => ?_)
      fun _ _ _ _ past => ?_)
    · exact World.ensures_pure trivial
    · exact starts_refuse trivial
  · refine starts_attempt_bind (revokeDeploymentStart_starts.mono (fun _ _ _ _ past => ?_)
      fun _ _ _ _ past => ?_)
    · exact starts_refuse trivial
    · exact starts_refuse trivial

/-- The stack is seen active before the watchdog is started. -/
theorem startRunning_starts {inCondition : Bool} :
    StartsAuthorized (startRunning caller inCondition) past s := by
  refine starts_isActive_bind fun left _ past => ?_
  refine starts_expect_bind (fun hactive => ?_) trivial
  refine starts_watchdog_bind hactive fun started _ past => ?_
  exact starts_expect (fun _ => trivial) trivial

/-- **`start_stack` starts the stack only under its authorization.** -/
theorem startStack_starts {inCondition : Bool} :
    StartsAuthorized (startStack caller inCondition) past s := by
  refine starts_keep_bind rfl fun pending past s₁ _ _ => ?_
  split_ifs
  · exact starts_refuse trivial
  refine starts_keep_bind rfl fun state past s₂ _ _ => ?_
  have hfrom : StartsAuthorized (startFrom caller inCondition state) past s₂ := by
    cases state with
    | running => exact startRunning_starts
    | cleanStopped => exact startStopped_starts
    | missing => exact startStopped_starts
    | unknown => exact starts_refuse trivial
  refine hfrom.seq (fun _ past s₃ _ _ => ?_) fun _ _ _ _ _ => trivial
  refine starts_keep_bind rfl fun _ past s₄ _ _ => ?_
  exact starts_expect_bind (fun _ => verifyWatchdogActive_starts) trivial

theorem gameUpdate_starts {arguments : List Text} :
    StartsAuthorized (gameUpdate caller arguments) past s := by
  rw [gameUpdate]
  split
  · exact World.ensures_throw trivial
  refine starts_keep_bind rfl fun pending past s₁ _ _ => ?_
  split_ifs
  · exact starts_refuse trivial
  refine quiesceForDeployment_starts.seq (fun _ past s₂ _ _ => ?_) fun _ _ _ _ _ => trivial
  refine starts_keep_bind rfl fun updated past s₃ _ _ => ?_
  refine starts_attempt_bind (startStack_starts.mono (fun _ _ s₄ _ past => ?_)
    fun _ _ s₄ _ past => ?_)
  · refine starts_keep_bind rfl fun ready past s₅ _ _ => starts_expect_bind (fun _ => ?_) trivial
    exact starts_expect (fun _ => trivial) trivial
  · exact starts_refuse trivial

theorem acquireLifecycleLock_starts : StartsAuthorized (acquireLifecycleLock caller) past s := by
  refine starts_keep_bind rfl fun acquired past s₁ _ _ => ?_
  split_ifs
  · exact World.ensures_throw trivial
  · exact World.ensures_pure trivial

/-- What follows the lock. -/
theorem locked_starts {body : LifecycleM Unit} (h : ∀ past s, StartsAuthorized body past s) :
    StartsAuthorized (do
      acquireLifecycleLock caller
      body) past s :=
  acquireLifecycleLock_starts.seq (fun _ past s _ _ => h past s) fun _ _ _ _ _ => trivial

theorem gracefulStop_starts {arguments : List Text} :
    StartsAuthorized (gracefulStop caller arguments) past s :=
  gracefulStopWithWatchdog_starts.mono (fun _ _ _ _ => trivial) fun _ _ _ _ => trivial

end Start

/-! ### Backups -/

section Backup

variable {processes : BackupProcesses} {past : List LifecycleMove} {s : Host}

/-- `pz-stack.service` is as active as it was. -/
abbrev SameStack (s s' : Host) : Prop := s'.units.stack = s.units.stack

theorem inspectServer_starts {allowConnectedPlayers : Bool} :
    Starts (inspectServer allowConnectedPlayers) (fun _ => SameStack s) (SameStack s) past s := by
  refine starts_keep_bind rfl fun inspected past s₁ _ h₁ => ?_
  match inspected with
  | none | some .restarting => exact starts_refuse h₁
  | some .absent => exact World.ensures_pure h₁
  | some .stopped =>
    refine starts_keep_bind rfl fun quiescent past s₂ _ h₂ => ?_
    exact starts_expect_bind (fun _ => World.ensures_pure (h₂.trans h₁)) (h₂.trans h₁)
  | some .running =>
    refine starts_keep_bind rfl fun players past s₂ _ h₂ => ?_
    cases players with
    | none => exact starts_refuse (h₂.trans h₁)
    | some players =>
      dsimp only
      split_ifs
      · exact starts_refuse (h₂.trans h₁)
      · exact World.ensures_pure (h₂.trans h₁)

theorem inspectRunning_starts {caller : Process}
    {watchdogWasActive allowConnectedPlayers : Bool} :
    Starts (inspectRunning caller watchdogWasActive allowConnectedPlayers)
      (fun _ => SameStack s) (SameStack s) past s := by
  cases watchdogWasActive with
  | false => exact inspectServer_starts
  | true =>
    refine starts_keep_bind rfl fun stopped past s₁ _ h₁ => ?_
    refine starts_expect_bind (fun _ => ?_) h₁
    exact inspectServer_starts.mono (fun _ _ _ h => h.trans h₁) fun _ _ _ h => h.trans h₁

/-- Where the server was not running, the stack is not touched. -/
theorem archiveStopped_starts {wasRunning allowConnectedPlayers : Bool} :
    Starts (archiveStopped processes wasRunning allowConnectedPlayers)
      (fun _ s' => wasRunning = false → SameStack s s')
      (fun s' => wasRunning = false → SameStack s s') past s := by
  cases wasRunning with
  | false =>
    refine starts_keep_bind rfl fun written past s₁ _ h₁ => ?_
    exact starts_expect (fun _ _ => h₁) fun _ => h₁
  | true =>
    refine World.Ensures.seq (locked_starts fun past s => gracefulStop_starts) ?_
      fun _ _ _ _ _ => nofun
    intro _ past s₁ _ _
    refine starts_keep_bind rfl fun written past s₂ _ _ => ?_
    exact starts_expect (fun _ => nofun) nofun

theorem restartIfNeeded_starts {wasRunning watchdogWasActive : Bool}
    (h : wasRunning = false → watchdogWasActive = true → s.units.stack = true) :
    StartsAuthorized (restartIfNeeded processes wasRunning watchdogWasActive) past s := by
  cases wasRunning with
  | true =>
    have hstart : StartsAuthorized (pzctlStart processes.start) past s :=
      locked_starts fun past s => startStack_starts
    refine starts_attempt_bind (hstart.mono (fun _ _ _ _ past => ?_) fun _ _ _ _ past => ?_)
    · exact World.ensures_pure trivial
    · exact starts_refuse trivial
  | false =>
    cases watchdogWasActive with
    | false => exact World.ensures_pure trivial
    | true =>
      refine starts_watchdog_bind (h rfl rfl) fun started _ past => ?_
      exact starts_expect (fun _ => trivial) trivial

/-- **`pz-backup`** starts the watchdog by itself only while the stack is active. -/
theorem backupLocked_starts {allowConnectedPlayers : Bool} :
    StartsAuthorized (backupLocked processes allowConnectedPlayers) past s := by
  refine starts_isActive_bind fun left _ past => ?_
  have hactive : ∀ s', SameStack { s with units := left } s' →
      left.active .watchdog = true → s'.units.stack = true :=
    fun s' hstack hwatchdog => hstack.trans (left.requires hwatchdog)
  refine World.Ensures.bind (World.ensures_tryCatch (World.Ensures.bind
    (inspectRunning_starts.mono (fun wasRunning past s₁ h₁ => ?_) fun failure past s₁ h₁ => ?_)))
  · refine World.ensures_pure (archiveStopped_starts.withCleanup (fun _ past s₂ _ h₂ => ?_)
      fun _ past s₂ _ h₂ => ?_)
    · exact restartIfNeeded_starts fun hrunning => hactive s₂ ((h₂ hrunning).trans h₁)
    · exact restartIfNeeded_starts fun hrunning => hactive s₂ ((h₂ hrunning).trans h₁)
  · refine World.ensures_pure ((restartIfNeeded_starts fun _ => hactive s₁ h₁).seq
      (fun _ _ _ _ _ => World.ensures_throw trivial) fun _ _ _ _ _ => trivial)

theorem backup_starts {arguments : List Text} :
    StartsAuthorized (backup processes arguments) past s := by
  rw [backup]
  split
  · exact World.ensures_throw trivial
  refine starts_keep_bind rfl fun acquired past s₁ _ _ => ?_
  split_ifs
  · exact World.ensures_throw trivial
  · exact backupLocked_starts

end Backup

/-! ### Commands -/

section Commands

variable {past : List LifecycleMove} {s : Host}

/-- What each command starts. -/
theorem LifecycleCommand.run_starts (command : LifecycleCommand) :
    StartsAuthorized command.run past s := by
  cases command with
  | start caller => exact locked_starts fun past s => startStack_starts
  | gracefulStop caller arguments => exact locked_starts fun past s => gracefulStop_starts
  | restart caller arguments =>
    refine locked_starts fun past s => gracefulStop_starts.seq ?_ fun _ _ _ _ _ => trivial
    exact fun _ past s _ _ => startStack_starts
  | update caller arguments => exact locked_starts fun past s => gameUpdate_starts
  | deploy caller target arguments =>
    refine locked_starts fun past s => ?_
    have hdeploy : Deploy.BracketsFrom caller.id caller.startTime s.authorization
        (Deploy.deployCommit ⟨caller.id, target, arguments⟩) fun _ _ => True :=
      (Deploy.deployCommit_brackets ⟨caller.id, target, arguments⟩).start
    exact (ofDeploy_starts hdeploy).mono (fun _ _ _ _ => trivial) fun _ _ _ _ => trivial
  | shutdownHost caller arguments => exact locked_starts fun past s => shutdownHost_starts
  | backup processes arguments => exact backup_starts

variable {init : Host → Prop} {h : List LifecycleEntry}

/-- **Every start under the lifecycle lock is authorized**, in every run of the commands in which
no stop of `pz-stack.service` fails without an authorization. -/
theorem LifecycleHistory.starts_authorized (hh : LifecycleHistory init h s)
    (hstops : ∀ e ∈ h, failsUnauthorized e.move = false) : ∀ e ∈ h, Authorized e.move := by
  have hcareful : History carefulHost (fun command : LifecycleCommand => command.run.run)
      init h s := by
    refine hh.restrict fun e he s q c hmove => ?_
    rw [← hmove, hstops e he]
    rfl
  have htrail : Trail (fun _ _ _ m => Authorized m) init h s :=
    hcareful.trail (show ∀ s, init s → True from fun _ _ => trivial) (fun _ _ _ _ _ _ => trivial)
      fun command s _ => World.Guarantees.mono (fun _ _ _ _ => trivial) command.run_starts
  intro e he
  obtain ⟨-, -, hmove⟩ := htrail.of_mem he
  exact hmove

end Commands

/-! ### A restart -/

/-- The process of a command. -/
def pzctl : Process := ⟨"1234".toList, "5678".toList⟩

/-- Both units are active. -/
def activeHost : Host := ⟨⟨true, true, fun _ => rfl⟩, none⟩

/-- What the commands of a deployment answer that goes well. -/
def deployReply : (q : DeployRequest) → DeployReply q
  | .revParseHead | .revParse _ | .revParseFetchHead => none
  | .remoteUrl | .readPending | .processStartTime => none
  | .catDeployed => []
  | .isRepository | .status | .fetch _ | .checkout _ | .createStateDirectory
  | .disableServerRestartPolicy | .preflight _ | .isDirectory _ | .hasPython _
  | .removeDirectory _ | .moveDirectory _ _ | .installRecovery | .syncRecovery
  | .syncRecoveryDirectory | .removeRecovery | .printTemporary _ _ | .chmodTemporary _
  | .removeTemporary _ | .moveTemporary _ _ | .syncFile _ | .syncDirectoryOf _
  | .syncStateDirectory | .remove _ | .startGuardian _ | .stopGuardian | .quiesce _ _
  | .installHost _ | .verifyReady _ => true

/-- Everything goes well, but perhaps a stop of `pz-stack.service`. -/
def cooperate (stops : Bool) (s : Host) : (q : LifecycleRequest) → LifecycleChoice q
  | .isActive _ => s.units
  | .stop _ units =>
    if units.contains .stack then (stops, ⟨false, false, nofun⟩)
    else (true, ⟨s.units.stack, false, nofun⟩)
  | .restart _ .stack => (true, ⟨true, false, nofun⟩)
  | .start _ _ | .restart _ .watchdog => (true, ⟨true, true, fun _ => rfl⟩)
  | .startTime _ => true
  | .pendingExists => false
  | .serverState => if s.units.stack then .running else .cleanStopped
  | .deploy q => deployReply q
  | .inspectServer => some .running
  | .players => some 0
  | .acquireLock _ | .watchdog _ _ _ | .updateGame _ | .waitReady | .installFiles _
  | .verifyQuiescent | .writeArchive => true

/-- A run of `pzctl restart`, for so many commands. -/
def restarts (stops : Bool) (commands : ℕ) :
    Program LifecycleRequest LifecycleReply (Except Failure Unit) × List LifecycleMove × Host :=
  lifecycleHost.runFor (fun _ => cooperate stops) commands
    (LifecycleCommand.restart pzctl []).run.run [] activeHost

/-- Such a run is a history of its own. -/
theorem restarts_history (stops : Bool) (commands : ℕ)
    (hlegal : lifecycleHost.legal (fun _ => cooperate stops) commands
      (LifecycleCommand.restart pzctl []).run.run [] activeHost = true) :
    LifecycleHistory (· = activeHost)
      (entries (.restart pzctl []) activeHost (restarts stops commands).2.1 ++ [])
      (restarts stops commands).2.2 :=
  .run _ (.start rfl) (lifecycleHost.exec_runFor _ _ _ _ _ hlegal)

theorem starts_authorized_restart :
    (restarts true 100).2.2.units.watchdog = true ∧
      ∀ e ∈ entries (LifecycleCommand.restart pzctl []) activeHost (restarts true 100).2.1 ++ [],
        Authorized e.move := by
  have hhistory := restarts_history true 100 (by decide +kernel)
  exact ⟨by decide +kernel, LifecycleHistory.starts_authorized hhistory (by decide +kernel)⟩

/-- **A recovery that is refused.** `pzctl restart` saves and stops the server, the stop of
`pz-stack.service` fails, and the unit is started again without an authorization. -/
theorem restart_unauthorized : ∃ h s, LifecycleHistory (· = activeHost) h s ∧
    ∃ e ∈ h, startsStack e.move.before.units e.move.request = true ∧
      e.move.request.caller? = some pzctl ∧ ¬ Names pzctl e.move.before := by
  have hany : ((entries (LifecycleCommand.restart pzctl []) activeHost
      (restarts false 6).2.1 ++ []).any fun e =>
        startsStack e.move.before.units e.move.request &&
          (e.move.request.caller? = some pzctl && !decide (Names pzctl e.move.before))) = true := by
    decide +kernel
  obtain ⟨e, he, hstarts⟩ := List.any_eq_true.mp hany
  simp only [Bool.and_eq_true, decide_eq_true_eq, Bool.not_eq_true', decide_eq_false_iff_not]
    at hstarts
  exact ⟨_, _, restarts_history false 6 (by decide +kernel), e, he, hstarts⟩

end Lifecycle

end PzServer
