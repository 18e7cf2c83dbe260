import PzServer.Entrypoint.Host

/-!
# `run_server`

The last function of the entrypoint, piece by piece. The script runs under `set -Eeuo pipefail`: a
command that fails outside a condition ends the shell, as `die` does, and so does an unset variable.
Both are exceptions with an exit status here. What is only logged is left out.

The body of the `while` loop always ends in `break`: `completed_pid` is unset only after an
interrupted wait, and the branch for that comes first. So the loop is its body.

## Main definitions

* `gracefulShutdown` — the console commands and the escalation
* `launch`, `firstWait`, `lastWait`, `lateShutdown`, `report` — `run_server` in parts
* `runServer`
-/

namespace PzServer

namespace Entrypoint

open Interaction

/-- The shell. An exception is its exit status. -/
abbrev ShellM : Type → Type := ExceptT ℕ (Program Ask Reply)

/-- Run a command, after whatever happens before it. -/
def perform (q : Command) : ShellM (CommandReply q) := do
  ExceptT.lift (request (Ask.between q))
  ExceptT.lift (request (Ask.run q))

/-- Go on only if a command succeeded. -/
def expect (succeeded : Bool) : ShellM Unit :=
  if succeeded then pure () else throw 1

/-- The environment of the script. -/
structure Settings where
  /-- `ZOMBOID_DIR` -/
  zomboidDir : String
  /-- `PZ_SERVER_NAME` -/
  serverName : String
  /-- `ADMIN_USERNAME` -/
  adminUsername : String
  /-- `ADMIN_PASSWORD` -/
  adminPassword : String
  /-- `SHUTDOWN_SAVE_SECONDS` -/
  shutdownSaveSeconds : ℕ
  /-- `SHUTDOWN_GRACE_SECONDS` -/
  shutdownGraceSeconds : ℕ

/-- The variables that change while the server runs. `shutdown_requested` is the handler's. -/
structure Variables where
  /-- `server_pid` is not empty. -/
  serverPid : Bool
  /-- `readiness_pid` is not empty. -/
  readinessPid : Bool
  status : ℕ
  shutdownFailed : Bool
  readinessFailed : Bool
  deriving DecidableEq

/-! ### `graceful_shutdown` -/

/-- The loop that waits for the server to end. A `sleep` takes a second at least, so there are no
more rounds than seconds. -/
def awaitExit (deadline : ℕ) : ℕ → ShellM Unit
  | 0 => pure ()
  | rounds + 1 => do
    if ← perform .isAlive then
      let seconds ← perform .readSeconds
      if seconds < deadline then
        perform (.sleep 1)
        awaitExit deadline rounds

/-- SIGTERM for a server that has not stopped: whether it came to that. -/
def terminateGroup : ShellM Bool := do
  if ← perform .isAlive then
    perform (.killGroup .term)
    perform (.sleep 5)
    return true
  else return false

/-- SIGKILL for one that has not stopped even then. -/
def killGroup : ShellM Unit := do
  if ← perform .isAlive then
    perform (.killGroup .kill)

/-- `graceful_shutdown` for a server that runs: whether it worked. -/
def stopServer (c : Settings) : ShellM Bool := do
  let saved ← perform (.console .save)
  perform (.sleep c.shutdownSaveSeconds)
  let quit ← perform (.console .quit)
  let seconds ← perform .readSeconds
  awaitExit (seconds + c.shutdownGraceSeconds) (c.shutdownGraceSeconds + 1)
  let stuck ← terminateGroup
  killGroup
  return saved && quit && !stuck

/-- `graceful_shutdown` -/
def gracefulShutdown (c : Settings) (v : Variables) : ShellM Variables := do
  if v.serverPid then
    if ← perform .isAlive then
      let stopped ← stopServer c
      return { v with shutdownFailed := v.shutdownFailed || !stopped }
    else return v
  else return v

/-! ### `run_server` -/

/-- `arguments` -/
def serverArguments (c : Settings) (hasDatabase : Bool) : List String :=
  ["-servername", c.serverName] ++
    if hasDatabase then []
    else ["-adminusername", c.adminUsername, "-adminpassword", c.adminPassword]

/-- Up to the start of the two processes. -/
def launch (c : Settings) (release : String) : ShellM Unit := do
  let hasDatabase ← perform .hasDatabase
  expect (← perform .openConsole)
  perform .trap
  match ← perform .logFingerprint with
  | none => throw 1
  | some fingerprint =>
    expect (← perform .markWorldOpened)
    expect (← perform (.enter release))
    perform (.startServer (release ++ "/.pz-start-server.sh") (serverArguments c hasDatabase))
    expect (← perform .writePid)
    perform (.startReadiness fingerprint)

/-- `wait "${server_pid}" || final_status=$?`, and what becomes of it after a stop request -/
def collectServer (v : Variables) : ShellM Variables := do
  let finalStatus ← perform (.wait .server)
  return if finalStatus ≠ 127 then { v with status := finalStatus } else v

/-- The end of the readiness process. -/
def endReadiness (v : Variables) : ShellM Variables := do
  perform .stopReadiness
  let _ ← perform (.wait .readiness)
  return { v with readinessPid := false }

/-- The branch for the end of readiness. -/
def readinessEnded (c : Settings) (v : Variables) : ShellM Variables := do
  if v.status ≠ 0 then
    let v ← gracefulShutdown c { v with readinessPid := false, readinessFailed := true }
    let finalStatus ← perform (.wait .server)
    let status := if finalStatus ≠ 127 ∧ finalStatus ≠ 0 then finalStatus else v.status
    return { v with status := if status = 0 then 1 else status }
  else return { v with readinessPid := false }

/-- The branch for the end of the server. -/
def serverEnded (v : Variables) : ShellM Variables := do
  let v ← endReadiness { v with serverPid := false }
  let _ ← perform .failReadiness
  return v

/-- The loop. -/
def firstWait (c : Settings) (v : Variables) : ShellM Variables := do
  let (completed, status) ← perform .waitAny
  if ← perform .isRequested then
    let v ← gracefulShutdown c { v with status := status }
    let v ← collectServer v
    endReadiness v
  else
    match completed with
    | some .readiness => readinessEnded c { v with status := status }
    | some .server => serverEnded { v with status := status }
    -- `completed_pid` is unset
    | none => throw 1

/-- The wait for a server that is ready. -/
def lastWait (v : Variables) : ShellM Variables := do
  let requested ← perform .isRequested
  if v.serverPid && !requested then
    let status ← perform (.wait .server)
    return if status ≠ 0 then { v with status := status } else v
  else return v

/-- The stop of a server that is ready. -/
def lateShutdown (c : Settings) (v : Variables) : ShellM Variables := do
  let requested ← perform .isRequested
  if requested && v.serverPid then
    let v ← gracefulShutdown c v
    let v ← collectServer v
    if v.readinessPid then endReadiness v else return v
  else return v

/-- What `run_server` returns. -/
def report (v : Variables) : ShellM ℕ := do
  if ← perform .isRequested then
    return if v.shutdownFailed ∨ v.status ≠ 0 then (if v.status ≠ 0 then v.status else 1) else 0
  else return v.status

/-- `run_server` -/
def runServer (c : Settings) (release : String) : ShellM ℕ := do
  launch c release
  let v ← firstWait c ⟨true, true, 0, false, false⟩
  let v ← lastWait v
  let v ← lateShutdown c v
  expect (← perform .removeFiles)
  report v

end Entrypoint

end PzServer
