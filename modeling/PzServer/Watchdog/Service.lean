import PzServer.Watchdog.Rcon

/-!
# The container

`DockerComposeService` finds the one container of the service, inspects it, and stops it. A stop
counts only if the same container is found before and after it and shows every sign of a clean exit;
the identifier is remembered, and `is_stopped` insists on it.

The remembered identifier is a field of the object in the source. It is passed along here: the two
methods that use it take it, or return the new one.
-/

namespace PzServer

namespace Watchdog

open Interaction

/-! ### Looking up and inspecting -/

/-- `state.get(key)` of a dictionary -/
def Json.get : Json → String → Option Json
  | dict entries, key => entries.lookup key
  | _, _ => none

/-- `value is True` or `value is False` -/
def Json.isBool (value : Option Json) (b : Bool) : Bool :=
  match value with
  | some (.bool b') => b' = b
  | _ => false

/-- `value == text` -/
def Json.isText (value : Option Json) (text : String) : Bool :=
  match value with
  | some (.str t) => t = text.toList
  | _ => false

/-- `type(value) is int and value == 0` -/
def Json.isIntZero : Option Json → Bool
  | some (.int n) => n = 0
  | _ => false

namespace DockerComposeService

/-- `_run`: failures of the command itself become an unsuccessful completion. -/
def runCompose (arguments : List String) : HostM (ℤ × Text) := do
  match ← ask (.compose arguments) with
  | .completed returncode stdout _ => return (returncode, stdout)
  | .osError _ | .timeoutExpired => return (1, [])
  | .valueError message => throw (.value message)

/-- `container_id` -/
def containerId (service : String) : HostM (Option Text) := do
  let (returncode, stdout) ← runCompose ["ps", "--quiet", "--all", service]
  if returncode ≠ 0 then
    throw (.serviceInspection "Docker Compose container lookup failed")
  else
    match Text.splitlines (Text.strip stdout) with
    | [] => return none
    | [identifier] => return some identifier
    | _ => throw (.serviceInspection "Compose returned multiple service containers")

/-- `inspect_container_state` -/
def inspectContainerState (identifier : Text) : HostM Json := do
  match ← ask (.inspect identifier) with
  | .osError typeName =>
    throw (.serviceInspection s!"Docker container inspection failed: {typeName}")
  | .timeoutExpired =>
    throw (.serviceInspection "Docker container inspection failed: TimeoutExpired")
  | .valueError message => throw (.value message)
  | .completed returncode stdout _ =>
    if returncode ≠ 0 then
      throw (.serviceInspection "Docker container inspection returned an error")
    else
      match stdout with
      | none => throw (.serviceInspection "Docker returned invalid container state JSON")
      | some (.dict entries) => return .dict entries
      | some _ => throw (.serviceInspection "Docker returned an unexpected container state")

/-- `inspect_state` -/
def inspectState (service : String) : HostM (Option Json) := do
  match ← containerId service with
  | none => return none
  | some identifier => return some (← inspectContainerState identifier)

/-- The `except ServiceInspectionError` clauses. -/
def exceptInspection {α : Type} (body : HostM α) (handler : HostM α) : HostM α :=
  tryCatch body fun error => match error with
  | .serviceInspection _ => handler
  | error => throw error

/-- `health`, of the state that was inspected -/
def healthOf : Option Json → ServiceHealth
  | none => .stopped
  | some state =>
    if !Json.isBool (state.get "Running") true then .stopped
    else
      match state.get "Health" with
      | some (.dict entries) =>
        let status := entries.lookup "Status"
        if Json.isText status "healthy" then .healthy
        else if Json.isText status "unhealthy" then .unhealthy
        else .unknown
      | _ => .unknown

/-- `health` -/
def health (service : String) : HostM ServiceHealth :=
  exceptInspection (return healthOf (← inspectState service)) (return .unknown)

/-! ### Starting -/

/-- The loop of `wait_until_healthy`, for the number of times it is before the deadline. -/
def pollHealth (service : String) : ℕ → HostM Bool
  | 0 => return false
  | n + 1 => do
    if (← health service) = .healthy then
      return true
    else
      ask (.sleep 5)
      pollHealth service n

/-- `wait_until_healthy`, with the default timeout -/
def waitUntilHealthy (service : String) : HostM Bool := do
  let n ← ask (.beforeDeadline 900)
  pollHealth service n

/-- `restart` -/
def restart (service : String) : HostM Bool := do
  let (returncode, _) ← runCompose ["restart", "--timeout", "120", service]
  if returncode ≠ 0 then
    return false
  else
    waitUntilHealthy service

/-- `start` -/
def start (service : String) : HostM Bool := do
  let (returncode, _) ← runCompose ["up", "--detach", service]
  if returncode = 0 then
    waitUntilHealthy service
  else
    return false

/-! ### Stopping -/

/-- `_is_clean_exit` -/
def isCleanExit (state : Json) : Bool :=
  Json.isText (state.get "Status") "exited" &&
    Json.isBool (state.get "Running") false &&
    Json.isBool (state.get "Restarting") false &&
    Json.isBool (state.get "Dead") false &&
    Json.isBool (state.get "OOMKilled") false &&
    Json.isIntZero (state.get "ExitCode") &&
    Json.isText (state.get "Error") ""

/-- The end of `graceful_stop`: the container that was found before is inspected, and found
again. -/
def verifyStopped (service : String) (identifier : Text) : HostM Bool :=
  exceptInspection
    (do
      let state ← inspectContainerState identifier
      if !isCleanExit state then
        return false
      else
        exceptInspection (return decide ((← containerId service) = some identifier)) (return false))
    (return false)

/-- `graceful_stop`. Returns also the identifier that is remembered. -/
def gracefulStop (service : String) (timeoutSeconds : ℕ) : HostM (Bool × Option Text) := do
  match ← exceptInspection (containerId service) (return none) with
  | none => return (false, none)
  | some identifier =>
    let (returncode, _) ← runCompose ["stop", "--timeout", toString timeoutSeconds, service]
    if returncode ≠ 0 then
      return (false, none)
    else if ← verifyStopped service identifier then
      return (true, some identifier)
    else
      return (false, none)

/-- The end of `is_stopped`: the container is inspected once more. -/
def isStoppedContainer (identifier : Text) : HostM Bool :=
  exceptInspection (return isCleanExit (← inspectContainerState identifier)) (return false)

/-- `is_stopped`, with the identifier that is remembered. -/
def isStopped (service : String) (verified : Option Text) : HostM Bool := do
  match ← exceptInspection (return some (← containerId service)) (return none) with
  | none => return false
  | some identifier =>
    match verified, identifier with
    | some v, some identifier =>
      if identifier ≠ v then return false else isStoppedContainer identifier
    | some _, none => return false
    | none, none => return true
    | none, some identifier => isStoppedContainer identifier

end DockerComposeService

end Watchdog

end PzServer
