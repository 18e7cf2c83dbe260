import PzServer.Deploy.Transaction
import PzServer.Interaction.Traces

/-!
# The start authorization of a deployment

`deploy_commit` stops the service and installs a commit only between `authorize_deployment_start`
and `revoke_deployment_start`. That is a fact about the script and the authorization file alone, so
the world of this module holds nothing else: every other command is answered as nature likes.

## Main results

* `authorizeDeploymentStart_brackets` — the authorization that a function leaves
* `deployCommit_brackets` — a deployment starts units only under its authorization
-/

namespace PzServer

namespace Deploy

open Interaction

/-- What a command does to the authorization file. -/
def authorizationAfter (content : Option Text) : (q : DeployRequest) → DeployReply q → Option Text
  | .moveTemporary .authorization new, works => if works then some new else content
  | .remove .authorization, works => if works then none else content
  | _, _ => content

/-- The host of the process that was started at `startTime`, as far as the authorization file
goes. -/
def authorizationHost (startTime : Text) : World DeployRequest DeployReply (Option Text) where
  Choice := DeployReply
  allowed _ q reply := match q, reply with
    | .processStartTime, printed => printed.all (· = startTime)
    | _, _ => true
  answer content q reply := (reply, authorizationAfter content q reply)

/-- The commands that may start units. -/
def startsUnits : DeployRequest → Bool
  | .quiesce _ _ | .installHost _ => true
  | _ => false

/-- The authorization names a process. -/
def Naming (processId startTime : Text) (content : Option Text) : Prop :=
  content = some (line (authorization processId startTime))

/-- A command that may start units is issued under an authorization. -/
def Bracketed (processId startTime : Text)
    (m : Move DeployRequest DeployReply (Option Text)) : Prop :=
  startsUnits m.request = true → Naming processId startTime m.before

section Brackets

variable (processId startTime : Text) {α : Type}

/-- The commands of `p` are bracketed, wherever it starts. -/
abbrev Brackets (p : DeployM α) : Prop :=
  (authorizationHost startTime).Only (Bracketed processId startTime) p

/-- The commands of `p` are bracketed when it starts with this authorization file. -/
abbrev BracketsFrom (content : Option Text) (p : DeployM α) (ok : α → Option Text → Prop) : Prop :=
  ∀ past, (authorizationHost startTime).Ensures (fun _ m => Bracketed processId startTime m) p
    (fun a _ s => ok a s) (fun _ _ _ => True) past content

end Brackets

section Rules

variable {processId startTime : Text} {α β : Type} {content : Option Text}

theorem Brackets.start {p : DeployM α} (h : Brackets processId startTime p) :
    BracketsFrom processId startTime content p fun _ _ => True :=
  fun past => (h past content).mono (fun _ _ _ _ => trivial) fun _ _ _ _ => trivial

theorem brackets_of_start {p : DeployM α}
    (h : ∀ content, BracketsFrom processId startTime content p fun _ _ => True) :
    Brackets processId startTime p := by
  intro past content
  refine (h content past).suffix.mono ?_ ?_
  · rintro _ _ _ ⟨⟨new, rfl⟩, -⟩
    exact ⟨new, rfl, trivial⟩
  · rintro _ _ _ ⟨⟨new, rfl⟩, -⟩
    exact ⟨new, rfl, trivial⟩

theorem BracketsFrom.bind {p : DeployM α} {f : α → DeployM β} {okp : α → Option Text → Prop}
    {ok : β → Option Text → Prop} (h : BracketsFrom processId startTime content p okp)
    (hf : ∀ a content', okp a content' → BracketsFrom processId startTime content' (f a) ok) :
    BracketsFrom processId startTime content (p >>= f) ok :=
  fun past => (h past).seq (fun a past' s' _ ha => hf a s' ha past') fun _ _ _ _ _ => trivial

theorem ask_brackets {q : DeployRequest} (hq : startsUnits q = false) :
    Brackets processId startTime (ask q) :=
  World.only_request fun _ _ _ hstarts => absurd (hq.symm.trans hstarts) Bool.false_ne_true

theorem refuse_brackets {message : String} :
    Brackets processId startTime (refuse message : DeployM α) := World.only_throw

theorem expect_brackets {succeeded : Bool} {message : String} :
    Brackets processId startTime (expect succeeded message) := by
  cases succeeded with
  | true => exact World.only_pure
  | false => exact refuse_brackets

theorem attempt_brackets {body : DeployM Unit} (h : Brackets processId startTime body) :
    Brackets processId startTime (attempt body) :=
  (World.Only.bind h fun _ => World.only_pure).tryCatch fun _ => World.only_pure

theorem ask_bind_brackets {q : DeployRequest} {f : DeployReply q → DeployM α}
    (hq : startsUnits q = false) (hf : ∀ reply, Brackets processId startTime (f reply)) :
    Brackets processId startTime (ask q >>= f) :=
  (ask_brackets hq).bind hf

theorem expect_bind_brackets {succeeded : Bool} {message : String} {f : Unit → DeployM α}
    (hf : Brackets processId startTime (f ())) :
    Brackets processId startTime (expect succeeded message >>= f) :=
  expect_brackets.bind fun _ => hf

/-- A command, and what follows it. -/
theorem BracketsFrom.ask {q : DeployRequest} {f : DeployReply q → DeployM α}
    {ok : α → Option Text → Prop} (hq : startsUnits q = true → Naming processId startTime content)
    (hf : ∀ reply, (authorizationHost startTime).allowed content q reply = true →
      BracketsFrom processId startTime (authorizationAfter content q reply) (f reply) ok) :
    BracketsFrom processId startTime content (Deploy.ask q >>= f) ok :=
  fun _ => .bind (World.ensures_request fun reply hreply => ⟨hq, hf reply hreply _⟩)

theorem BracketsFrom.expect {succeeded : Bool} {message : String} {f : Unit → DeployM α}
    {ok : α → Option Text → Prop} (hf : BracketsFrom processId startTime content (f ()) ok) :
    BracketsFrom processId startTime content (Deploy.expect succeeded message >>= f) ok := by
  cases succeeded with
  | true => exact hf
  | false => exact fun _ => World.ensures_throw trivial

/-- A function in a condition. -/
theorem BracketsFrom.attempt {body : DeployM Unit} {f : Bool → DeployM α}
    {okb : Unit → Option Text → Prop} {ok : α → Option Text → Prop}
    (h : BracketsFrom processId startTime content body okb)
    (htrue : ∀ content', okb () content' → BracketsFrom processId startTime content' (f true) ok)
    (hfalse : Brackets processId startTime (f false)) (hok : ∀ a content', ok a content') :
    BracketsFrom processId startTime content (Deploy.attempt body >>= f) ok := by
  intro past
  refine .bind (World.ensures_tryCatch (.bind ((h past).mono ?_ ?_)))
  · exact fun _ past' s' ha => World.ensures_pure (htrue s' ha past')
  · intro _ past' s' _
    exact World.ensures_pure ((hfalse.start past').mono (fun _ _ _ _ => hok _ _)
      fun _ _ _ _ => trivial)

end Rules

/-! ### Authorizing -/

section Authorize

variable {processId startTime : Text} {content : Option Text}

theorem writeDeploymentState_brackets {file : StateFile} {text : Text} :
    Brackets processId startTime (writeDeploymentState file text) := by
  refine ask_bind_brackets rfl fun _ => expect_bind_brackets ?_
  refine ask_bind_brackets rfl fun changed => ?_
  split_ifs
  · exact ask_bind_brackets rfl fun _ => refuse_brackets
  · refine ask_bind_brackets rfl fun moved => ?_
    split_ifs
    · exact ask_bind_brackets rfl fun _ => refuse_brackets
    · refine ask_bind_brackets rfl fun _ => expect_bind_brackets ?_
      exact ask_bind_brackets rfl fun _ => expect_brackets

theorem writeDeploymentState_authorization {text : Text} :
    BracketsFrom processId startTime content (writeDeploymentState .authorization text)
      fun _ s => s = some (line text) := by
  refine .ask nofun fun _ _ => .expect (.ask nofun fun changed _ => ?_)
  split_ifs
  · exact .ask nofun fun _ _ _ => World.ensures_throw trivial
  · refine .ask nofun fun moved _ => ?_
    cases moved with
    | false => exact .ask nofun fun _ _ _ => World.ensures_throw trivial
    | true =>
      refine .ask nofun fun _ _ => .expect (.ask nofun fun synced _ => ?_)
      cases synced with
      | true => exact fun _ => World.ensures_pure rfl
      | false => exact fun _ => World.ensures_throw trivial

/-- **The authorization that a function leaves** names its process. -/
theorem authorizeDeploymentStart_brackets {guardianRequired : Bool} :
    BracketsFrom processId startTime content
      (authorizeDeploymentStart processId guardianRequired)
      fun _ s => Naming processId startTime s := by
  refine .ask nofun fun printed hprinted => ?_
  cases printed with
  | none => exact fun _ => World.ensures_throw trivial
  | some time =>
    obtain rfl : time = startTime := by simpa [authorizationHost] using hprinted
    refine writeDeploymentState_authorization.bind fun _ content' hcontent => ?_
    split_ifs
    · refine .ask nofun fun started _ => ?_
      cases started with
      | true => exact fun _ => World.ensures_pure hcontent
      | false => exact .ask nofun fun _ _ _ => World.ensures_throw trivial
    · exact fun _ => World.ensures_pure hcontent

theorem revokeDeploymentStart_brackets : Brackets processId startTime revokeDeploymentStart :=
  ask_bind_brackets rfl fun _ => ask_bind_brackets rfl fun _ => expect_brackets

theorem recordDeployedCommit_brackets {commit : Sha} :
    Brackets processId startTime (recordDeployedCommit commit) := by
  refine World.Only.bind (attempt_brackets writeDeploymentState_brackets) fun written => ?_
  split_ifs
  · exact refuse_brackets
  · refine ask_bind_brackets rfl fun _ => expect_bind_brackets ?_
    exact ask_bind_brackets rfl fun _ => expect_brackets

/-! ### Bracketed functions -/

theorem quiesceAuthorized_brackets {guardianRequired : Bool} {version : Directory}
    {allowConnectedPlayers : Bool} :
    Brackets processId startTime
      (quiesceAuthorized processId guardianRequired version allowConnectedPlayers) := by
  refine World.Only.bind (attempt_brackets (brackets_of_start fun content => ?_)) fun _ => ?_
  · refine authorizeDeploymentStart_brackets.bind fun _ content' hnaming => ?_
    exact .ask (fun _ => hnaming) fun quiesced _ => expect_brackets.start
  · exact World.Only.bind (attempt_brackets revokeDeploymentStart_brackets) fun _ => World.only_pure

theorem installTarget_brackets : Brackets processId startTime (installTarget processId) := by
  refine brackets_of_start fun content => ?_
  refine authorizeDeploymentStart_brackets.bind fun _ content' hnaming => ?_
  refine .ask (fun _ => hnaming) fun installed _ => .expect ?_
  exact .ask nofun fun ready _ => expect_brackets.start

theorem startPrevious_brackets {previous : Sha} :
    Brackets processId startTime (startPrevious processId previous) := by
  refine brackets_of_start fun content => ?_
  refine authorizeDeploymentStart_brackets.attempt ?_ refuse_brackets fun _ _ => trivial
  intro content' hnaming
  refine .ask (fun _ => hnaming) fun installed _ => .expect ?_
  refine .ask nofun fun ready _ => .expect ?_
  refine recordDeployedCommit_brackets.start.bind fun _ _ _ => Brackets.start ?_
  refine World.Only.bind (attempt_brackets revokeDeploymentStart_brackets) fun revoked => ?_
  split_ifs
  · exact refuse_brackets
  · exact ask_bind_brackets rfl fun _ => World.only_pure

theorem rollbackDeployment_brackets {previous : Sha} {allowConnectedPlayers : Bool} :
    Brackets processId startTime
      (rollbackDeployment processId previous allowConnectedPlayers) := by
  refine World.Only.bind quiesceAuthorized_brackets fun quiesced => ?_
  split_ifs
  · exact refuse_brackets
  · refine ask_bind_brackets rfl fun _ => expect_bind_brackets ?_
    refine ask_bind_brackets rfl fun _ => expect_bind_brackets ?_
    exact ask_bind_brackets rfl fun _ => expect_bind_brackets startPrevious_brackets

theorem rollBackAndFail_brackets {previous : Sha} {allowConnectedPlayers : Bool}
    {message : String} :
    Brackets processId startTime
      (rollBackAndFail processId previous allowConnectedPlayers message) := by
  refine World.Only.bind (attempt_brackets rollbackDeployment_brackets) fun rolledBack => ?_
  split_ifs
  · exact refuse_brackets
  · exact refuse_brackets

end Authorize

/-! ### The rest of the deployment -/

section Deployment

variable {processId startTime : Text} {previous target : Sha} {allowConnectedPlayers : Bool}

theorem headCommit_brackets : Brackets processId startTime headCommit := by
  refine ask_bind_brackets rfl fun head => ?_
  cases head with
  | none => exact refuse_brackets
  | some head => exact World.only_pure

theorem resumePending_brackets {content : Text} :
    Brackets processId startTime (resumePending target content) := by
  rw [resumePending]
  split
  · exact refuse_brackets
  · split_ifs
    · exact refuse_brackets
    · refine headCommit_brackets.bind fun current => ?_
      split_ifs
      · exact refuse_brackets
      · refine World.Only.bind ?_ fun _ => World.Only.bind ?_ fun _ => World.only_pure
        · rw [requirePreserved]
          split_ifs
          · exact ask_bind_brackets rfl fun _ => expect_brackets
          · exact World.only_pure
        · refine ask_bind_brackets rfl fun fetched => ?_
          split_ifs
          · exact refuse_brackets
          · exact ask_bind_brackets rfl fun _ => expect_brackets

theorem checkDeployed_brackets {deployed : Text} :
    Brackets processId startTime (checkDeployed previous target deployed) := by
  rw [checkDeployed]
  split_ifs
  · exact refuse_brackets
  · exact refuse_brackets
  · exact refuse_brackets
  · exact World.only_pure
  · exact World.only_pure

theorem adoptTarget_brackets : Brackets processId startTime (adoptTarget target) := by
  refine ask_bind_brackets rfl fun remote => ?_
  cases remote with
  | none => exact refuse_brackets
  | some remote =>
    refine expect_bind_brackets (ask_bind_brackets rfl fun _ => expect_bind_brackets ?_)
    refine ask_bind_brackets rfl fun fetched => ?_
    cases fetched with
    | none => exact refuse_brackets
    | some fetched =>
      refine expect_bind_brackets (ask_bind_brackets rfl fun _ => expect_bind_brackets ?_)
      refine headCommit_brackets.bind fun previous => ?_
      exact ask_bind_brackets rfl fun _ => checkDeployed_brackets

theorem enter_brackets : Brackets processId startTime (enter target) := by
  refine ask_bind_brackets rfl fun content => ?_
  cases content with
  | none => exact adoptTarget_brackets
  | some content => exact resumePending_brackets

theorem beginTransaction_brackets :
    Brackets processId startTime (beginTransaction previous target) := by
  refine ask_bind_brackets rfl fun _ => expect_bind_brackets ?_
  refine ask_bind_brackets rfl fun _ => expect_bind_brackets ?_
  refine World.Only.bind (attempt_brackets ?_) fun synced => ?_
  · exact ask_bind_brackets rfl fun _ => expect_bind_brackets
      (ask_bind_brackets rfl fun _ => expect_brackets)
  · split_ifs
    · exact ask_bind_brackets rfl fun _ => refuse_brackets
    · refine World.Only.bind (attempt_brackets writeDeploymentState_brackets) fun written => ?_
      split_ifs
      · exact ask_bind_brackets rfl fun _ => refuse_brackets
      · exact World.only_pure

theorem abandonTransaction_brackets {interrupted : Bool} :
    Brackets processId startTime (abandonTransaction interrupted) := by
  cases interrupted with
  | true => exact refuse_brackets
  | false =>
    refine ask_bind_brackets rfl fun _ => expect_bind_brackets ?_
    refine ask_bind_brackets rfl fun _ => expect_bind_brackets ?_
    exact ask_bind_brackets rfl fun _ => refuse_brackets

theorem finishTransaction_brackets : Brackets processId startTime finishTransaction := by
  refine World.Only.bind (attempt_brackets revokeDeploymentStart_brackets) fun revoked => ?_
  split_ifs
  · exact refuse_brackets
  · exact ask_bind_brackets rfl fun _ => ask_bind_brackets rfl fun _ => World.only_pure

theorem switchToTarget_brackets :
    Brackets processId startTime
      (switchToTarget processId previous target allowConnectedPlayers) := by
  refine World.Only.bind (ask_bind_brackets rfl fun preserved => ?_) fun _ => ?_
  · split_ifs
    · exact ask_bind_brackets rfl fun _ => expect_brackets
    · exact World.only_pure
  · refine ask_bind_brackets rfl fun checkedOut => ?_
    split_ifs
    · exact rollBackAndFail_brackets
    · refine World.Only.bind (attempt_brackets installTarget_brackets) fun installed => ?_
      split_ifs
      · exact rollBackAndFail_brackets
      · refine World.Only.bind (attempt_brackets recordDeployedCommit_brackets) fun recorded => ?_
        split_ifs
        · exact rollBackAndFail_brackets
        · exact finishTransaction_brackets

theorem runTransaction_brackets {interruptedAt : Option Sha} :
    Brackets processId startTime
      (runTransaction processId previous target interruptedAt allowConnectedPlayers) := by
  have hrest : Brackets processId startTime (do
      let preserved ← ask (.isDirectory .rollback)
      let version : Directory := if preserved then .rollback else .watchdog
      let guardianRequired := decide (interruptedAt = some target ∧ previous ≠ target)
      if !(← quiesceAuthorized processId guardianRequired version allowConnectedPlayers) then
        abandonTransaction interruptedAt.isSome
      else
        switchToTarget processId previous target allowConnectedPlayers) := by
    refine ask_bind_brackets rfl fun preserved => ?_
    refine World.Only.bind quiesceAuthorized_brackets fun quiesced => ?_
    split_ifs
    · exact abandonTransaction_brackets
    · exact switchToTarget_brackets
  refine World.Only.bind (ask_bind_brackets rfl fun preserved => ?_) fun _ => ?_
  · split_ifs
    · exact ask_bind_brackets rfl fun _ => expect_brackets
    · exact World.only_pure
  · split_ifs
    · exact beginTransaction_brackets.bind fun _ => hrest
    · exact hrest

/-- **A deployment starts units only under its authorization**, whatever its commands answer. -/
theorem deployCommit_brackets (command : DeployCommand) :
    Brackets command.processId startTime (deployCommit command) := by
  rw [deployCommit]
  split
  · exact World.only_throw
  · exact World.only_throw
  · refine ask_bind_brackets rfl fun _ => expect_bind_brackets ?_
    refine ask_bind_brackets rfl fun _ => expect_bind_brackets ?_
    refine ask_bind_brackets rfl fun _ => expect_bind_brackets ?_
    refine ask_bind_brackets rfl fun _ => expect_bind_brackets ?_
    refine enter_brackets.bind fun admission => ?_
    cases admission with
    | alreadyDeployed => exact ask_bind_brackets rfl fun _ => expect_brackets
    | transaction previous interruptedAt => exact runTransaction_brackets

end Deployment

end Deploy

end PzServer
