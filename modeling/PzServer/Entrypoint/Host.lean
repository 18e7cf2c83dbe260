import PzServer.Interaction.Ensures

/-!
# The host of `run_server`

The entrypoint shell runs one command after another, the game server and the readiness check run
beside it, and a stop signal may arrive. Bash runs a trap between two commands, or interrupts a
`wait` with it. So every command is two requests: `between`, in which anything may happen before the
command begins, and `run`, the command itself. What is true when a command begins is then the state
before a move, and only a `wait` has events of its own.

A process that has ended is reaped by the shell at once, and its status is kept for a `wait`. So
`kill -0` fails from its end on.

## Main definitions

* `Host`, `Event`, `Host.happens` — the shell's surroundings and what happens in them
* `Command`, `Ask`, `world` — the commands
* `Host.waitFor` — `wait` for one process
-/

namespace PzServer

namespace Entrypoint

open Interaction

/-! ### Processes and signals -/

/-- The background processes of `run_server`. -/
inductive Child where
  /-- `server_pid`, the wrapper of the game and its process group -/
  | server
  /-- `readiness_pid`, `pz-updater wait-runtime-ready` -/
  | readiness
  deriving DecidableEq

/-- How far a background process has come. -/
inductive Stage where
  | absent
  | running
  /-- It has ended, and no `wait` has returned its status yet. -/
  | exited (status : ℕ)
  | collected (status : ℕ)
  deriving DecidableEq

/-- The signals that `run_server` traps. -/
inductive Signal where
  | sigterm
  | sigint
  deriving DecidableEq

def Signal.number : Signal → ℕ
  | .sigterm => 15
  | .sigint => 2

/-- What the commands find. -/
structure Host where
  /-- The trap is set. Its handler removes it. -/
  trapped : Bool
  /-- `shutdown_requested` -/
  requested : Bool
  server : Stage
  readiness : Stage
  /-- `SECONDS` -/
  seconds : ℕ
  deriving DecidableEq

namespace Host

/-- The host when `run_server` begins. -/
def initial (seconds : ℕ) : Host := ⟨false, false, .absent, .absent, seconds⟩

def stage (s : Host) : Child → Stage
  | .server => s.server
  | .readiness => s.readiness

def setStage (s : Host) : Child → Stage → Host
  | .server, stage => { s with server := stage }
  | .readiness, stage => { s with readiness := stage }

/-- `request_shutdown` -/
def requestShutdown (s : Host) : Host := { s with requested := true, trapped := false }

end Host

/-- What happens beside the shell. -/
inductive Event where
  | exits (child : Child) (status : ℕ)
  | signal (signal : Signal)
  deriving DecidableEq

namespace Host

/-- A process that runs can end. A signal counts while the trap is set. -/
def allows (s : Host) : Event → Bool
  | .exits child _ => s.stage child = .running
  | .signal _ => s.trapped

def happens (s : Host) : Event → Host
  | .exits child status => s.setStage child (.exited status)
  | .signal _ => s.requestShutdown

def allowsAll : Host → List Event → Bool
  | _, [] => true
  | s, e :: events => s.allows e && (s.happens e).allowsAll events

def after (s : Host) (events : List Event) : Host := events.foldl happens s

/-- `wait` for one process: the events until it returns, and whether the shell still remembers a
status that it has returned before. A signal interrupts it. -/
def waitFor (child : Child) : Host → List Event → Bool → Option (ℕ × Host)
  | s, [], remembered =>
    match s.stage child with
    | .running => none
    | .absent => some (127, s)
    | .exited status => some (status, s.setStage child (.collected status))
    | .collected status => some (if remembered then status else 127, s)
  | s, e :: events, remembered =>
    if s.stage child = .running ∧ s.allows e then
      match e with
      | .signal signal => if events = [] then some (128 + signal.number, s.happens e) else none
      | .exits _ _ => (s.happens e).waitFor child events remembered
    else none

/-- A process has ended, and no `wait` has returned its status yet. -/
def hasExited (s : Host) (child : Child) : Bool :=
  match s.stage child with
  | .exited _ => true
  | _ => false

/-- `wait -n` returns for a process that has ended already, or else at the next event. -/
def allowsFirst (s : Host) : Event → Bool
  | .exits child status => s.stage child = .exited status ||
      !s.hasExited .server && !s.hasExited .readiness && s.stage child = .running
  | .signal _ => !s.hasExited .server && !s.hasExited .readiness && s.trapped

/-- `wait -n -p`: the process that has ended, if the wait was not interrupted, and the status. -/
def waitFirst (s : Host) : Event → (Option Child × ℕ) × Host
  | .exits child status => ((some child, status), s.setStage child (.collected status))
  | .signal signal => ((none, 128 + signal.number), s.requestShutdown)

end Host

/-! ### Commands -/

/-- What the shell writes to the console of the server. -/
inductive Line where
  | save
  | quit
  deriving DecidableEq

/-- How `graceful_shutdown` escalates. -/
inductive Escalation where
  | term
  | kill
  deriving DecidableEq

/-- The commands of `run_server`. -/
inductive Command where
  /-- `[[ -s "${database}" ]]` -/
  | hasDatabase
  /-- `rm -f`, `mkfifo` and `exec 3<>` -/
  | openConsole
  /-- `trap request_shutdown SIGTERM SIGINT` -/
  | trap
  /-- `pz-updater log-fingerprint` -/
  | logFingerprint
  /-- `pz-updater mark-world-opened` -/
  | markWorldOpened
  /-- `cd "${release}"` -/
  | enter (release : String)
  /-- `setsid bash "${start_script}" "${arguments[@]}" <&3 &` -/
  | startServer (startScript : String) (arguments : List String)
  /-- `printf` to `PID_FILE` -/
  | writePid
  /-- `pz-updater wait-runtime-ready … &` -/
  | startReadiness (logFingerprint : String)
  /-- `wait -n -p completed_pid "${server_pid}" "${readiness_pid}"` -/
  | waitAny
  /-- `wait` for one of them -/
  | wait (child : Child)
  /-- `kill -0 "${server_pid}"` -/
  | isAlive
  /-- `printf` to the console -/
  | console (line : Line)
  | sleep (seconds : ℕ)
  /-- `SECONDS` -/
  | readSeconds
  /-- `kill` of the server's process group -/
  | killGroup (escalation : Escalation)
  /-- `kill -TERM "${readiness_pid}"` -/
  | stopReadiness
  /-- `pz-updater fail-readiness` -/
  | failReadiness
  /-- `[[ "${shutdown_requested}" == true ]]` -/
  | isRequested
  /-- `rm -f` of the files, and `exec 3>&-` -/
  | removeFiles
  deriving DecidableEq

/-- What a command answers: mostly, whether it succeeded. -/
@[reducible] def CommandReply : Command → Type
  | .trap | .startServer _ _ | .startReadiness _ | .sleep _ | .killGroup _ | .stopReadiness => Unit
  | .logFingerprint => Option String
  | .waitAny => Option Child × ℕ
  | .wait _ | .readSeconds => ℕ
  | _ => Bool

/-- Nature's choice: whether a command succeeds, what it prints, how much longer than asked a
`sleep` takes, and what happens during a `wait`. -/
@[reducible] def CommandChoice : Command → Type
  | .trap | .startServer _ _ | .startReadiness _ | .killGroup _ | .stopReadiness | .isAlive
  | .readSeconds | .isRequested => Unit
  | .logFingerprint => Option String
  | .waitAny => Event
  | .wait _ => List Event × Bool
  | .sleep _ => ℕ
  | _ => Bool

/-- What can happen while a command runs. -/
def commandAllowed (s : Host) : (q : Command) → CommandChoice q → Bool
  | .waitAny, first => s.allowsFirst first
  | .wait child, (events, remembered) => (s.waitFor child events remembered).isSome
  | _, _ => true

/-- What a command answers, and the host it leaves. -/
def commandAnswer (s : Host) : (q : Command) → CommandChoice q → CommandReply q × Host
  | .hasDatabase, reply | .openConsole, reply | .markWorldOpened, reply | .enter _, reply
  | .writePid, reply | .console _, reply | .failReadiness, reply | .removeFiles, reply => (reply, s)
  | .logFingerprint, printed => (printed, s)
  | .trap, _ => ((), { s with trapped := true })
  | .startServer _ _, _ => ((), { s with server := .running })
  | .startReadiness _, _ => ((), { s with readiness := .running })
  | .waitAny, first => s.waitFirst first
  | .wait child, (events, remembered) => (s.waitFor child events remembered).getD (0, s)
  | .isAlive, _ => (s.server = .running, s)
  | .sleep n, longer => ((), { s with seconds := s.seconds + n + longer })
  | .readSeconds, _ => (s.seconds, s)
  | .killGroup _, _ | .stopReadiness, _ => ((), s)
  | .isRequested, _ => (s.requested, s)

/-- A command, or the moment before it. -/
inductive Ask where
  | between (command : Command)
  | run (command : Command)
  deriving DecidableEq

@[reducible] def Reply : Ask → Type
  | .between _ => Unit
  | .run q => CommandReply q

@[reducible] def Choice : Ask → Type
  | .between _ => List Event
  | .run q => CommandChoice q

/-- The surroundings of `run_server`. -/
@[reducible] def world : World Ask Reply Host where
  Choice := Choice
  allowed s
    | .between _, events => s.allowsAll events
    | .run q, c => commandAllowed s q c
  answer s
    | .between _, events => ((), s.after events)
    | .run q, c => commandAnswer s q c

end Entrypoint

end PzServer
