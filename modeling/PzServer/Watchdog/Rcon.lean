import Mathlib.Data.Rat.Defs
import PzServer.Interaction.Handlers
import PzServer.Watchdog.Engine
import PzServer.Watchdog.Text

/-!
# Questions to the host, and RCON

What the watchdog's components do outside the process: they run `rcon-cli`, `docker compose`,
`docker inspect` and `systemctl`, they read the guard file, and they wait. Every reply is nature's
choice. A subprocess completes with any status and any output, or raises `OSError`,
`TimeoutExpired`, or the `ValueError` of output that is no text.

The RCON part of the components follows: the client, the strict reply parser, and the two retry
loops. A retry loop is a recursion on the attempts that are left.
-/

namespace PzServer

namespace Watchdog

open Interaction

/-! ### Exceptions -/

/-- The exceptions the components tell apart, with their text. -/
inductive Err where
  /-- `RconError` -/
  | rcon (message : String)
  /-- `ServiceInspectionError` -/
  | serviceInspection (message : String)
  /-- `OSError` -/
  | os (message : String)
  /-- `ValueError` -/
  | value (message : String)
  deriving DecidableEq, Repr

/-- `str(error)` -/
def Err.message : Err → String
  | rcon text | serviceInspection text | os text | value text => text

/-! ### Requests -/

/-- How `subprocess.run` ends; `O` is what is made of the standard output. -/
inductive Subprocess (O : Type) where
  | completed (returncode : ℤ) (stdout : O) (stderr : Text)
  | osError (typeName : String)
  | timeoutExpired
  | valueError (message : String)
  deriving Repr

/-- A value that `json.loads` returns; numbers are told apart by their Python types. -/
inductive Json where
  | null
  | bool (value : Bool)
  | int (value : ℤ)
  | float
  | str (value : Text)
  | list (values : List Json)
  | dict (entries : List (String × Json))

/-- What the components ask of the host. -/
inductive HostRequest where
  /-- `rcon-cli` with a command -/
  | rcon (command : String)
  /-- `docker compose` with the arguments after `compose_command` -/
  | compose (arguments : List String)
  /-- `docker inspect` of the state of a container, as JSON -/
  | inspect (identifier : Text)
  /-- `guard_file.lstat` -/
  | lstatGuard
  /-- `guard_file.read_text` -/
  | readGuard
  /-- `systemctl --no-block poweroff` -/
  | poweroff
  /-- `time.sleep` -/
  | sleep (seconds : ℚ)
  /-- How often `time.monotonic() < deadline` holds in the loop of `wait_until_healthy` -/
  | beforeDeadline (timeoutSeconds : ℕ)
  deriving DecidableEq

/-- `os.stat_result`, as far as it is looked at. -/
structure FileStatus where
  /-- `stat.S_ISREG(st_mode)` -/
  regular : Bool
  uid : ℕ
  /-- `stat.S_IMODE(st_mode)` -/
  permissions : ℕ
  deriving DecidableEq, Repr

/-- What the host answers. The standard output of `docker inspect` is given as `json.loads` reads
it; `none` is a `JSONDecodeError`. -/
@[reducible] def HostReply : HostRequest → Type
  | .rcon _ | .compose _ | .poweroff => Subprocess Text
  | .inspect _ => Subprocess (Option Json)
  | .lstatGuard => Except Err FileStatus
  | .readGuard => Except Err Text
  | .sleep _ => Unit
  | .beforeDeadline _ => ℕ

/-- The components' monad. -/
abbrev HostM : Type → Type := ExceptT Err (Program HostRequest HostReply)

/-- Ask the host. -/
def ask (q : HostRequest) : HostM (HostReply q) := ExceptT.lift (request q)

/-- Return a value, or raise an exception. -/
def raising {α : Type} : Except Err α → HostM α
  | .ok a => return a
  | .error e => throw e

/-! ### The client -/

/-- What `RconCliClient.run` makes of the end of its subprocess. -/
def responseOf : Subprocess Text → Except Err Text
  | .osError typeName => .error (.rcon s!"RCON command could not complete: {typeName}")
  | .timeoutExpired => .error (.rcon "RCON command could not complete: TimeoutExpired")
  | .valueError message => .error (.value message)
  | .completed returncode stdout stderr =>
    if returncode ≠ 0 then
      .error (.rcon s!"rcon-cli exited with status {returncode}")
    else if Text.strip stderr ≠ [] then
      .error (.rcon "rcon-cli reported an error despite a zero exit status")
    else if Text.strip stdout = [] then
      .error (.rcon "rcon-cli returned an empty response")
    else
      .ok (Text.strip stdout)

/-- `RconCliClient.run` -/
def RconCliClient.run (command : String) : HostM Text := do
  raising (responseOf (← ask (.rcon command)))

/-! ### Replies -/

/-- The first of `PLAYER_HEADER_PATTERNS`:
`Players\s+connected\s*\(\s*(\d+)\s*\)\s*:?\s*` -/
def parenthesizedHeader (t : Text) : Option Text := Text.fullmatch do
  let t ← Text.word "players".toList t
  let t ← Text.spaces1 t
  let t ← Text.word "connected".toList t
  let t ← Text.char '(' (Text.spaces t)
  let (digits, t) ← Text.digits (Text.spaces t)
  let t ← Text.char ')' (Text.spaces t)
  let t := Text.spaces t
  return (digits, Text.spaces ((Text.char ':' t).getD t))

/-- The second: `Players\s+connected\s*:\s*(\d+)` -/
def colonHeader (t : Text) : Option Text := Text.fullmatch do
  let t ← Text.word "players".toList t
  let t ← Text.spaces1 t
  let t ← Text.word "connected".toList t
  let t ← Text.char ':' (Text.spaces t)
  Text.digits (Text.spaces t)

/-- The digits of the header, by whichever pattern matches first. -/
def playerHeader (line : Text) : Option Text := parenthesizedHeader line <|> colonHeader line

/-- The lines of a reply that are not blank, without control sequences and surrounding space. -/
def replyLines (response : Text) : List Text :=
  ((Text.splitlines (Text.removeAnsi response)).map Text.strip).filter (· ≠ [])

/-- `line.startswith("-")` -/
def isPlayerLine (line : Text) : Bool := line.head? = some '-'

/-- `parse_player_count` -/
def parsePlayerCount (response : Text) : Except Err ℕ :=
  match replyLines response with
  | [] => .error (.rcon "RCON players response was empty")
  | header :: players =>
    match playerHeader header with
    | none => .error (.rcon "RCON players response did not contain a recognized player count")
    | some digits =>
      match Text.toInt digits with
      | none => .error (.value
        (s!"Exceeds the limit (4300 digits) for integer string conversion: value has " ++
        s!"{digits.length} digits; use sys.set_int_max_str_digits() to increase the limit"))
      | some count =>
        if players.length ≠ count ∨ players.any fun line => !isPlayerLine line then
          .error (.rcon "RCON players response did not contain a recognized player count")
        else
          .ok count

/-- `SAVE_CONFIRMATION_PATTERN`: `World\s+(?:is\s+)?saved` -/
def isSaveConfirmation (t : Text) : Bool := (Text.fullmatch do
  let t ← Text.word "world".toList t
  let t ← Text.spaces1 t
  let t := (Text.word "is".toList t >>= Text.spaces1).getD t
  let t ← Text.word "saved".toList t
  return ((), t)).isSome

/-! ### Retries -/

/-- One attempt of `RetryingPlayerCounter.query`; an exception that is caught is its text. -/
def queryAttempt : HostM (Except String ℕ) :=
  tryCatch
    (do
      let response ← RconCliClient.run "players"
      let count ← raising (parsePlayerCount response)
      return .ok count)
    fun error => match error with
    | .rcon text | .os text | .value text => return .error text
    | error => throw error

/-- The loop of `RetryingPlayerCounter.query`, for the attempts that are left. -/
def queryFrom (retryDelaySeconds : ℚ) : ℕ → String → HostM PlayerObservation
  | 0, lastError => return .unknown lastError
  | n + 1, _ => do
    match ← queryAttempt with
    | .ok count => return .known count
    | .error text =>
      if n ≠ 0 then
        ask (.sleep retryDelaySeconds)
      queryFrom retryDelaySeconds n text

/-- `RetryingPlayerCounter.query` -/
def RetryingPlayerCounter.query (attempts : ℕ) (retryDelaySeconds : ℚ) : HostM PlayerObservation :=
  queryFrom retryDelaySeconds attempts "RCON query failed"

/-- One attempt of `RconAdmin.save`; other exceptions than the two it catches get through. -/
def saveAttempt : HostM Bool :=
  tryCatch
    (do
      let response ← RconCliClient.run "save"
      if isSaveConfirmation (Text.strip (Text.removeAnsi response)) then
        return true
      else
        throw (.rcon "RCON save response was not a recognized confirmation"))
    fun error => match error with
    | .rcon _ | .os _ => return false
    | error => throw error

/-- The loop of `RconAdmin.save`, for the attempts that are left. -/
def saveFrom (retryDelaySeconds : ℚ) : ℕ → HostM Bool
  | 0 => return false
  | n + 1 => do
    if ← saveAttempt then
      return true
    else
      if n ≠ 0 then
        ask (.sleep retryDelaySeconds)
      saveFrom retryDelaySeconds n

/-- `RconAdmin.save` -/
def RconAdmin.save (attempts : ℕ) (retryDelaySeconds : ℚ) : HostM Bool :=
  saveFrom retryDelaySeconds attempts

end Watchdog

end PzServer
