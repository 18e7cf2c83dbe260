import PzServer.Deploy.Bracket

/-!
# The host of a lifecycle command

`pzctl` and `pz-backup` take the lifecycle lock, and then start and stop two systemd units.
`pz-stack.service` is a oneshot unit: it is active until it is stopped. Its start script cannot take
the lock while a command holds it, and asks for a start authorization instead, a file that names the
process of the command. `pz-watchdog.service` requires it.

Every command of the scripts is a request. Those of `systemctl` that change units name the process
that issues them. Nature decides whether they succeed and what they leave, within what systemd
promises of the two units; everything else is answered as nature likes.

## Main definitions

* `Process`, `Units`, `Host` — who issues a command, and what it finds
* `LifecycleRequest`, `lifecycleHost` — the commands, and what they do
* `startsStack` — the commands that start `pz-stack.service`
-/

namespace PzServer

namespace Lifecycle

open Interaction
open Deploy (Text Directory DeployRequest DeployReply authorizationAfter)

/-- A process: its number, and the time that tells it from others with the same number. -/
structure Process where
  id : Text
  startTime : Text
  deriving DecidableEq

/-! ### Units -/

/-- The units of the project. -/
inductive ServiceUnit where
  /-- `pz-stack.service` -/
  | stack
  /-- `pz-watchdog.service` -/
  | watchdog
  deriving DecidableEq

/-- Which units are active. -/
structure Units where
  stack : Bool
  watchdog : Bool
  /-- `Requires=`, `After=` and `PartOf=` of the watchdog -/
  requires : watchdog = true → stack = true

namespace Units

/-- Whether a unit is active. -/
def active (units : Units) : ServiceUnit → Bool
  | .stack => units.stack
  | .watchdog => units.watchdog

end Units

/-- What the commands find and change. -/
structure Host where
  units : Units
  /-- `DEPLOY_START_AUTHORIZATION_FILE` -/
  authorization : Option Text

/-! ### Commands -/

/-- What `compose_server_state` prints. -/
inductive ServerState where
  | running
  | cleanStopped
  | missing
  | unknown
  deriving DecidableEq

/-- What `pz-backup` finds of the container. -/
inductive ContainerState where
  | absent
  | restarting
  | running
  | stopped
  deriving DecidableEq

/-- The commands of `pz-watchdog` that stop something. -/
inductive WatchdogCommand where
  | gracefulStop
  | shutdownHost
  deriving DecidableEq

/-- The commands of the scripts. -/
inductive LifecycleRequest where
  /-- `flock --exclusive --nonblock` of the lifecycle lock -/
  | acquireLock (caller : Process)
  /-- `systemctl is-active --quiet` -/
  | isActive (unit : ServiceUnit)
  /-- `systemctl stop` -/
  | stop (caller : Process) (units : List ServiceUnit)
  /-- `systemctl start` -/
  | start (caller : Process) (unit : ServiceUnit)
  /-- `systemctl restart` -/
  | restart (caller : Process) (unit : ServiceUnit)
  /-- `process_start_time` of the process itself -/
  | startTime (caller : Process)
  /-- `[[ -e deployment-pending ]]` -/
  | pendingExists
  /-- `compose_server_state` -/
  | serverState
  /-- `pz-watchdog`, of the installed environment or of the preserved one -/
  | watchdog (version : Directory) (command : WatchdogCommand) (arguments : List Text)
  /-- `pz-updater update` in a container of its own -/
  | updateGame (validate : Bool)
  /-- `wait_ready` -/
  | waitReady
  /-- `install-host.sh`, before it restarts the units -/
  | installFiles (preserve : Bool)
  /-- another command of `deploy_commit` -/
  | deploy (q : DeployRequest)
  /-- the inspection of the container by `pz-backup`; it fails if there are several -/
  | inspectServer
  /-- `pzctl players`; nothing if it does not print a number -/
  | players
  /-- `verify_quiescent` -/
  | verifyQuiescent
  /-- what `pz-backup` does once the server is stopped -/
  | writeArchive

/-- What a command answers: mostly, whether it succeeded. -/
@[reducible] def LifecycleReply : LifecycleRequest → Type
  | .startTime _ => Option Text
  | .serverState => ServerState
  | .deploy q => DeployReply q
  | .inspectServer => Option ContainerState
  | .players => Option ℕ
  | _ => Bool

/-- Nature's choice: whether a command succeeds, or what it prints, and the units it leaves. -/
@[reducible] def LifecycleChoice : LifecycleRequest → Type
  | .isActive _ => Units
  | .stop _ _ | .start _ _ | .restart _ _ => Bool × Units
  | .startTime _ => Bool
  | q => LifecycleReply q

/-- What a command answers, and what it leaves. -/
def answer (s : Host) :
    (q : LifecycleRequest) → LifecycleChoice q → LifecycleReply q × Host
  | .isActive unit, left => (left.active unit, { s with units := left })
  | .stop _ _, (works, left) | .start _ _, (works, left) | .restart _ _, (works, left) =>
    (works, { s with units := left })
  | .startTime caller, works => (if works then some caller.startTime else none, s)
  | .deploy q, reply =>
    (reply, { s with authorization := authorizationAfter s.authorization q reply })
  | .acquireLock _, works | .pendingExists, works | .watchdog _ _ _, works | .updateGame _, works
  | .waitReady, works | .installFiles _, works | .verifyQuiescent, works
  | .writeArchive, works => (works, s)
  | .serverState, printed => (printed, s)
  | .inspectServer, printed => (printed, s)
  | .players, printed => (printed, s)

/-- What systemd promises. The watchdog may end, and be started again, by itself; the stack is
stopped by a command that names it, and a command that only starts it when it is not active does not
stop it. -/
def allowed (s : Host) : (q : LifecycleRequest) → LifecycleChoice q → Bool
  | .isActive _, left => left.stack == s.units.stack
  | .stop _ units, (works, left) =>
    (units.contains .stack || left.stack == s.units.stack) &&
      (!works || units.all fun unit => !left.active unit)
  | .start _ _, (_, left) | .restart _ .watchdog, (_, left) => !s.units.stack || left.stack
  | _, _ => true

/-- The host. -/
def lifecycleHost : World LifecycleRequest LifecycleReply Host := ⟨LifecycleChoice, allowed, answer⟩

/-- One command, with the host before and after it. -/
abbrev LifecycleMove : Type := Move LifecycleRequest LifecycleReply Host

/-! ### Starts -/

/-- Whether a command makes systemd start `pz-stack.service`, directly or because the watchdog
requires it. -/
def startsStack (units : Units) : LifecycleRequest → Bool
  | .restart _ .stack => true
  | .start _ _ | .restart _ .watchdog => !units.stack
  | _ => false

/-- The process that issues a start. -/
def LifecycleRequest.caller? : LifecycleRequest → Option Process
  | .start caller _ | .restart caller _ => some caller
  | _ => none

/-- The start authorization names a process. -/
def Names (caller : Process) (s : Host) : Prop :=
  Deploy.Naming caller.id caller.startTime s.authorization

end Lifecycle

end PzServer
