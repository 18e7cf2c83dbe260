import PzServer.Deploy.Marker
import PzServer.Interaction.History

/-!
# The host of a deployment

What `pzctl deploy` changes on the host and reads again after an interruption: the Git checkout, the
installed and the preserved watchdog environment, the two state files, and the recovery
orchestrator. A `Disk` holds these. Every command of the script is a request; nature decides whether
it succeeds and, for those that work step by step, what it leaves when it does not.

A command is over before the next one begins, and a run may stop between any two of them: killed,
interrupted, or without power. A run that stops in the middle of a command is one that stops after
the command has failed. Syncing a file does not change a `Disk`. That a sync failed matters only to
the script, which cannot tell whether what it synced will be lost. What a power failure may take
back of the commands before it is added in `Deploy.Power`.
-/

namespace PzServer

namespace Deploy

open Interaction

/-! ### The disk -/

/-- A Python environment of the watchdog. -/
structure Environment where
  /-- The commit it was installed from; `none` while it is incomplete. -/
  builtFor : Option Sha
  /-- `bin/python` is executable. -/
  python : Bool
  deriving DecidableEq

/-- `WATCHDOG_VENV` and `ROLLBACK_WATCHDOG_VENV` -/
inductive Directory where
  | watchdog
  | rollback
  deriving DecidableEq

/-- The files that `write_deployment_state` writes. -/
inductive StateFile where
  /-- `PENDING_DEPLOYMENT_FILE` -/
  | pending
  /-- `DEPLOYED_COMMIT_FILE` -/
  | deployed
  /-- `DEPLOY_START_AUTHORIZATION_FILE` -/
  | authorization
  deriving DecidableEq

/-- What the script finds on the host. -/
structure Disk where
  /-- `PROJECT_DIRECTORY` is a Git checkout. -/
  repository : Bool
  head : Sha
  /-- No file of the checkout is modified, and none is untracked. -/
  clean : Bool
  watchdog : Option Environment
  rollback : Option Environment
  pending : Option Text
  deployed : Option Text
  /-- `RECOVERY_PZCTL` is installed. -/
  recovery : Bool
  deriving DecidableEq

namespace Disk

/-- The environment in a directory, if there is one. -/
def environment (s : Disk) : Directory → Option Environment
  | .watchdog => s.watchdog
  | .rollback => s.rollback

def setEnvironment (s : Disk) : Directory → Option Environment → Disk
  | .watchdog, environment => { s with watchdog := environment }
  | .rollback, environment => { s with rollback := environment }

/-- The start authorization is under `/run`; it does not last, and the script does not read it. -/
def setFile (s : Disk) : StateFile → Option Text → Disk
  | .pending, content => { s with pending := content }
  | .deployed, content => { s with deployed := content }
  | .authorization, _ => s

/-- `mv` of a directory. One that exists already is moved into, and stays what it was. -/
def move (s : Disk) (source destination : Directory) : Disk :=
  let target := if (s.environment destination).isSome then s.environment destination
    else s.environment source
  (s.setEnvironment source none).setEnvironment destination target

end Disk

/-! ### Commands -/

/-- The commands of the script. -/
inductive DeployRequest where
  /-- `[[ -d .git ]]` -/
  | isRepository
  /-- `git status --porcelain`; whether it prints nothing -/
  | status
  /-- `git rev-parse --verify HEAD` -/
  | revParseHead
  /-- `git rev-parse --verify COMMIT^{commit}` -/
  | revParse (commit : Sha)
  /-- `git remote get-url origin` -/
  | remoteUrl
  /-- `git fetch` of one commit -/
  | fetch (commit : Sha)
  /-- `git rev-parse --verify FETCH_HEAD^{commit}` -/
  | revParseFetchHead
  /-- `git checkout --detach --force` -/
  | checkout (commit : Sha)
  /-- `install -d` of the state directory -/
  | createStateDirectory
  /-- `disable_server_restart_policy` -/
  | disableServerRestartPolicy
  /-- `preflight_deployment` -/
  | preflight (commit : Sha)
  /-- `[[ -r ]]` and `read` of `deployment-pending` -/
  | readPending
  /-- `cat` of `deployed-commit` -/
  | catDeployed
  /-- `[[ -d ]]` -/
  | isDirectory (directory : Directory)
  /-- `[[ -x bin/python ]]` -/
  | hasPython (directory : Directory)
  /-- `rm -rf` -/
  | removeDirectory (directory : Directory)
  /-- `mv` of a directory -/
  | moveDirectory (source destination : Directory)
  /-- `install` of `pzctl` as the recovery orchestrator -/
  | installRecovery
  /-- `sync -f` of the recovery orchestrator -/
  | syncRecovery
  /-- `sync -f` of its directory -/
  | syncRecoveryDirectory
  /-- `rm -f` of the recovery orchestrator -/
  | removeRecovery
  /-- `printf` to the temporary file -/
  | printTemporary (file : StateFile) (content : Text)
  /-- `chmod` of the temporary file -/
  | chmodTemporary (file : StateFile)
  /-- `rm -f` of the temporary file -/
  | removeTemporary (file : StateFile)
  /-- `mv` of the temporary file, with its content -/
  | moveTemporary (file : StateFile) (content : Text)
  /-- `sync -f` of a state file -/
  | syncFile (file : StateFile)
  /-- `sync -f` of the directory of a state file -/
  | syncDirectoryOf (file : StateFile)
  /-- `sync -f` of `DEPLOY_STATE_DIRECTORY` -/
  | syncStateDirectory
  /-- `rm -f` of a state file -/
  | remove (file : StateFile)
  /-- `process_start_time` -/
  | processStartTime
  /-- `start_deployment_guardian` -/
  | startGuardian (startTime : Text)
  /-- `stop_deployment_guardian` -/
  | stopGuardian
  /-- `quiesce_for_deployment`, with the watchdog of a directory -/
  | quiesce (version : Directory) (allowConnectedPlayers : Bool)
  /-- `install-host.sh`, with `PZ_PRESERVE_WATCHDOG_VENV` -/
  | installHost (preserve : Bool)
  /-- `verify_deployment_ready`, with the watchdog of a directory -/
  | verifyReady (version : Directory)
  deriving DecidableEq

/-- What a command answers: mostly, whether it succeeded. -/
@[reducible] def DeployReply : DeployRequest → Type
  | .revParseHead | .revParse _ | .revParseFetchHead => Option Sha
  | .remoteUrl | .readPending | .processStartTime => Option Text
  | .catDeployed => Text
  | _ => Bool

/-- Nature's choice: whether a command succeeds, what it leaves if that is not fixed, and what it
prints if that is not on the disk. -/
@[reducible] def DeployChoice : DeployRequest → Type
  | .isRepository | .isDirectory _ | .hasPython _ => Unit
  | .revParse _ | .revParseFetchHead => Option Sha
  | .remoteUrl | .processStartTime => Option Text
  | .checkout _ => Bool × Bool × Bool
  | .installRecovery => Bool × Bool
  | .removeDirectory _ | .installHost _ => Bool × Option Environment
  | _ => Bool

/-- What a command answers, and the disk it leaves. -/
def answer (s : Disk) : (q : DeployRequest) → DeployChoice q → DeployReply q × Disk
  | .isRepository, _ => (s.repository, s)
  -- a `git status` that fails prints nothing either
  | .status, works => (s.clean || !works, s)
  | .revParseHead, works => (if works then some s.head else none, s)
  | .revParse _, printed | .revParseFetchHead, printed => (printed, s)
  | .remoteUrl, printed | .processStartTime, printed => (printed, s)
  | .checkout commit, (works, moved, clean) =>
    (works, { s with head := if moved then commit else s.head, clean := clean })
  | .readPending, works => (if works then s.pending else s.pending.map fun _ => [], s)
  | .catDeployed, works => (if works then s.deployed.getD [] else [], s)
  | .isDirectory directory, _ => ((s.environment directory).isSome, s)
  | .hasPython directory, _ => ((s.environment directory).any Environment.python, s)
  | .removeDirectory directory, (works, left) => (works, s.setEnvironment directory left)
  | .moveDirectory source destination, works =>
    (works, if works then s.move source destination else s)
  | .installRecovery, (works, present) => (works, { s with recovery := present })
  | .removeRecovery, works => (works, if works then { s with recovery := false } else s)
  | .moveTemporary file content, works =>
    (works, if works then s.setFile file (some content) else s)
  | .remove file, works => (works, if works then s.setFile file none else s)
  | .installHost _, (works, left) => (works, { s with watchdog := left })
  | .fetch _, works | .createStateDirectory, works | .disableServerRestartPolicy, works
  | .preflight _, works | .syncRecovery, works | .syncRecoveryDirectory, works
  | .printTemporary _ _, works | .chmodTemporary _, works | .removeTemporary _, works
  | .syncFile _, works | .syncDirectoryOf _, works | .syncStateDirectory, works
  | .startGuardian _, works | .stopGuardian, works | .quiesce _ _, works
  | .verifyReady _, works => (works, s)

/-- What a command that stops early can leave. -/
def allowed (s : Disk) : (q : DeployRequest) → DeployChoice q → Bool
  -- `HEAD` moves last: before that, files may be half updated, and after it none is that was not
  | .checkout _, (works, moved, clean) =>
    (!works || moved) && if moved then clean || !s.clean else s.clean || !clean
  | .removeDirectory directory, (works, left) =>
    if works then left = none
    else left = s.environment directory || left.all fun e => e.builtFor = none
  | .moveDirectory source _, works => !works || (s.environment source).isSome
  | .installRecovery, (works, present) => !works || present
  | .installHost true, (works, left) =>
    left = s.watchdog && (!works || s.watchdog.any Environment.python)
  | .installHost false, (works, left) =>
    if works then left = some ⟨some s.head, true⟩
    else left = s.watchdog || left.any fun e => e.builtFor = none || e.builtFor = some s.head
  | _, _ => true

/-- The host. -/
def deployHost : World DeployRequest DeployReply Disk := ⟨DeployChoice, allowed, answer⟩

/-- One command, with the disk before and after it. -/
abbrev DeployMove : Type := Move DeployRequest DeployReply Disk

/-- The choices of a host on which everything works, and where `fetched` is what Git fetches. -/
def cooperate (fetched : Sha) (s : Disk) : (q : DeployRequest) → DeployChoice q
  | .isRepository | .isDirectory _ | .hasPython _ => ()
  | .revParse commit => some commit
  | .revParseFetchHead => some fetched
  | .remoteUrl => some "https://github.com/example/pz-server".toList
  | .processStartTime => some "4242".toList
  | .checkout _ => (true, true, true)
  | .installRecovery => (true, true)
  | .removeDirectory _ => (true, none)
  | .installHost preserve => (true, if preserve then s.watchdog else some ⟨some s.head, true⟩)
  | .moveDirectory source _ => (s.environment source).isSome
  | .status | .revParseHead | .fetch _ | .createStateDirectory | .disableServerRestartPolicy
  | .preflight _ | .readPending | .catDeployed | .syncRecovery | .syncRecoveryDirectory
  | .removeRecovery | .printTemporary _ _ | .chmodTemporary _ | .removeTemporary _
  | .moveTemporary _ _ | .syncFile _ | .syncDirectoryOf _ | .syncStateDirectory | .remove _
  | .startGuardian _ | .stopGuardian | .quiesce _ _ | .verifyReady _ => true

end Deploy

end PzServer
