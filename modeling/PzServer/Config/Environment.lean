import PzServer.Config.Ini
import Mathlib.Algebra.Group.Nat.Defs
import Mathlib.Data.Int.Notation

/-!
# `validate_environment`

The entrypoint gives every variable that is unset or empty its default, and then checks them one by
one; the first check that fails ends it with a message. A variable that came with the environment is
exported, also after it was given its default. One that was not in the environment is a variable of
the shell alone.

Numbers are read as the shell's arithmetic reads them: a leading zero makes an octal number, and
everything is taken modulo two to the 64.

## Main definitions

* `Variable`, `Environment` — what the container is started with
* `Environment.shell`, `Environment.exported` — the variables after the defaults, and what other
  programs see of them
* `validateEnvironment` — the checks
-/

namespace PzServer

namespace Config

/-! ### Variables -/

/-- The variables that are given defaults or checked. -/
inductive Variable where
  | pzServerName
  | serverPublicName
  | adminUsername
  | maxPlayers
  | gamePort
  | directPort
  | rconPort
  | steamAppId
  | pzUpdatePolicy
  | allowAutoUpdateWithMods
  | pzPreUpdateBackupRetention
  | pzBackupDir
  | updateReadinessTimeoutSeconds
  | deploymentEnvironment
  | pzXms
  | pzXmx
  | containerMemoryLimit
  | shutdownSaveSeconds
  | shutdownGraceSeconds
  | mods
  | workshopItems
  | mapNames
  | adminPassword
  | rconPassword
  | serverPassword
  deriving DecidableEq, Repr

namespace Variable

/-- The name of the variable. -/
def name : Variable → String
  | pzServerName => "PZ_SERVER_NAME"
  | serverPublicName => "SERVER_PUBLIC_NAME"
  | adminUsername => "ADMIN_USERNAME"
  | maxPlayers => "MAX_PLAYERS"
  | gamePort => "GAME_PORT"
  | directPort => "DIRECT_PORT"
  | rconPort => "RCON_PORT"
  | steamAppId => "STEAM_APP_ID"
  | pzUpdatePolicy => "PZ_UPDATE_POLICY"
  | allowAutoUpdateWithMods => "ALLOW_AUTO_UPDATE_WITH_MODS"
  | pzPreUpdateBackupRetention => "PZ_PRE_UPDATE_BACKUP_RETENTION"
  | pzBackupDir => "PZ_BACKUP_DIR"
  | updateReadinessTimeoutSeconds => "UPDATE_READINESS_TIMEOUT_SECONDS"
  | deploymentEnvironment => "DEPLOYMENT_ENVIRONMENT"
  | pzXms => "PZ_XMS"
  | pzXmx => "PZ_XMX"
  | containerMemoryLimit => "CONTAINER_MEMORY_LIMIT"
  | shutdownSaveSeconds => "SHUTDOWN_SAVE_SECONDS"
  | shutdownGraceSeconds => "SHUTDOWN_GRACE_SECONDS"
  | mods => "MODS"
  | workshopItems => "WORKSHOP_ITEMS"
  | mapNames => "MAP_NAMES"
  | adminPassword => "ADMIN_PASSWORD"
  | rconPassword => "RCON_PASSWORD"
  | serverPassword => "SERVER_PASSWORD"

/-- `: "${NAME:=default}"`; the passwords have none. -/
def default : Variable → String
  | pzServerName => "pzserver"
  | serverPublicName => "Friends Project Zomboid Build 42"
  | adminUsername => "admin"
  | maxPlayers => "16"
  | gamePort => "16261"
  | directPort => "16262"
  | rconPort => "27015"
  | steamAppId => "380870"
  | pzUpdatePolicy => "stable-on-start"
  | allowAutoUpdateWithMods => "false"
  | pzPreUpdateBackupRetention => "3"
  | pzBackupDir => "/backups"
  | updateReadinessTimeoutSeconds => "1800"
  | deploymentEnvironment => "local"
  | pzXms => "2g"
  | pzXmx => "8g"
  | containerMemoryLimit => "10g"
  | shutdownSaveSeconds => "15"
  | shutdownGraceSeconds => "90"
  | mods | workshopItems => ""
  | mapNames => "Muldraugh, KY"
  | adminPassword | rconPassword | serverPassword => ""

end Variable

/-- The variables that the container is started with. -/
abbrev Environment : Type := Variable → Option Text

/-- The value of each variable in the shell, after the defaults. -/
def Environment.shell (env : Environment) (v : Variable) : Text := match env v with
  | some (c :: t) => c :: t
  | some [] | none => v.default.toList

/-- The value of each variable for the programs that the shell starts. -/
def Environment.exported (env : Environment) (v : Variable) : Text :=
  if (env v).isSome then env.shell v else []

/-! ### Arithmetic -/

/-- A digit of a number to some base. -/
def digit (base : ℕ) (c : Char) : Option ℕ :=
  if c.isDigit ∧ c.toNat - '0'.toNat < base then some (c.toNat - '0'.toNat) else none

/-- The value of the digits, modulo two to the 64. -/
def digits (base : ℕ) : ℤ → Text → Option ℤ
  | n, [] => some n
  | n, c :: t => (digit base c).bind fun k => digits base ((n * base + k).bmod (2 ^ 64)) t

/-- A decimal or octal number in an arithmetic expression. -/
def arithmetic : Text → Option ℤ
  | '0' :: t => digits 8 0 t
  | t => digits 10 0 t

/-- `(( value >= minimum && value <= maximum ))` -/
def inRange (minimum maximum : ℤ) (value : Text) : Bool := match arithmetic value with
  | some n => minimum ≤ n && n ≤ maximum
  | none => false

/-- `memory_mib` of a value that has its form, as the number that is compared -/
def memoryMib (value : Text) : Option ℤ := match value.reverse with
  | unit :: number =>
    if unit.toLower = 'g' then
      (arithmetic number.reverse).map fun n => (n * 1024).bmod (2 ^ 64)
    else arithmetic number.reverse
  | [] => none

/-- `(( a < b ))` and `(( a <= b ))`, where a number that cannot be read fails -/
def compares (test : ℤ → ℤ → Bool) : Option ℤ → Option ℤ → Bool
  | some a, some b => test a b
  | _, _ => false

/-! ### Patterns -/

/-- `^[A-Za-z0-9_-]+$` -/
def isIdentifier (t : Text) : Bool :=
  !t.isEmpty && t.all fun c => c.isAlphanum || c = '_' || c = '-'

/-- `^[0-9]+$` -/
def isNumber (t : Text) : Bool := !t.isEmpty && t.all Char.isDigit

/-- `^[1-9][0-9]*[gGmM]$` -/
def isMemory (t : Text) : Bool := match t.reverse with
  | unit :: number =>
    (unit.toLower = 'g' || unit.toLower = 'm') && isNumber number.reverse &&
      number.reverse.head? != some '0'
  | [] => false

/-- No newline and no carriage return. -/
def isSingleLine (t : Text) : Bool := !t.contains '\n' && !t.contains '\r'

/-- `is_true`, where it does not die -/
def isBoolean (t : Text) : Bool :=
  ["1", "true", "yes", "on", "0", "false", "no", "off"].any fun word =>
    word.toList = t.map Char.toLower

/-! ### The checks -/

/-- `[[ ... ]] || die` -/
def require (holds : Bool) (message : String) : Except String Unit :=
  if holds then .ok () else .error message

/-- `require_secret` -/
def requireSecret (shell : Variable → Text) (v : Variable) : Except String Unit := do
  require (!(shell v).isEmpty) (v.name ++ " must not be empty.")
  require (!"change-me-".toList.isPrefixOf (shell v))
    (v.name ++ " still contains the unsafe example placeholder.")
  require (isSingleLine (shell v)) (v.name ++ " must be a single line.")

/-- `require_integer` -/
def requireInteger (shell : Variable → Text) (v : Variable) (minimum maximum : ℕ) :
    Except String Unit := do
  require (isNumber (shell v)) (v.name ++ " must be an integer.")
  require (inRange minimum maximum (shell v))
    (v.name ++ " must be between " ++ toString minimum ++ " and " ++ toString maximum ++ ".")

/-- `validate_environment` -/
def validateEnvironment (env : Environment) : Except String Unit := do
  let shell := env.shell
  require (isIdentifier (shell .pzServerName))
    "PZ_SERVER_NAME may contain only letters, numbers, underscores, and hyphens."
  require (isIdentifier (shell .adminUsername))
    "ADMIN_USERNAME may contain only letters, numbers, underscores, and hyphens."
  require (isMemory (shell .pzXms)) "PZ_XMS must look like 2g or 2048m."
  require (isMemory (shell .pzXmx)) "PZ_XMX must look like 8g or 8192m."
  require (isMemory (shell .containerMemoryLimit))
    "CONTAINER_MEMORY_LIMIT must look like 10g or 10240m."
  require (compares (· ≤ ·) (memoryMib (shell .pzXms)) (memoryMib (shell .pzXmx)))
    "PZ_XMS must not exceed PZ_XMX."
  require (compares (· < ·) (memoryMib (shell .pzXmx)) (memoryMib (shell .containerMemoryLimit)))
    "PZ_XMX must remain below CONTAINER_MEMORY_LIMIT for native/off-heap memory."
  requireInteger shell .maxPlayers 1 100
  requireInteger shell .gamePort 1024 65535
  requireInteger shell .directPort 1024 65535
  requireInteger shell .rconPort 1024 65535
  requireInteger shell .steamAppId 1 2147483647
  requireInteger shell .pzPreUpdateBackupRetention 2 20
  requireInteger shell .updateReadinessTimeoutSeconds 30 3600
  requireInteger shell .shutdownSaveSeconds 0 30
  requireInteger shell .shutdownGraceSeconds 30 90
  require (shell .gamePort != shell .directPort) "GAME_PORT and DIRECT_PORT must differ."
  require (shell .rconPort != shell .gamePort && shell .rconPort != shell .directPort)
    "RCON_PORT must differ from gameplay ports."
  require (compares (fun save grace => (save + grace).bmod (2 ^ 64) ≤ 110)
      (arithmetic (shell .shutdownSaveSeconds)) (arithmetic (shell .shutdownGraceSeconds)))
    "SHUTDOWN_SAVE_SECONDS plus SHUTDOWN_GRACE_SECONDS must not exceed 110."
  require (shell .steamAppId == "380870".toList)
    "Only dedicated-server Steam App 380870 is supported."
  require (shell .pzUpdatePolicy == "stable-on-start".toList ||
      shell .pzUpdatePolicy == "manual".toList)
    "PZ_UPDATE_POLICY must be stable-on-start or manual."
  require (shell .deploymentEnvironment == "local".toList ||
      shell .deploymentEnvironment == "aws".toList)
    "DEPLOYMENT_ENVIRONMENT must be local or aws."
  require (isBoolean (shell .allowAutoUpdateWithMods))
    ("Expected a boolean value, got '" ++ String.ofList (shell .allowAutoUpdateWithMods) ++ "'.")
  requireSecret shell .adminPassword
  requireSecret shell .rconPassword
  requireSecret shell .serverPassword
  require (isSingleLine (shell .serverPublicName)) "SERVER_PUBLIC_NAME must be a single line."

/-! ### What the checks let through -/

section Checks

variable {holds : Bool} {message : String} {shell : Variable → Text} {v : Variable} {a b : ℕ}
  {k : Unit → Except String Unit} {env : Environment}

theorem require_eq_ok : require holds message = .ok () ↔ holds := by
  cases holds <;> simp [require]

theorem require_bind : (require holds message >>= k) = .ok () ↔ holds ∧ k () = .ok () := by
  cases holds <;> simp [require, bind, Except.bind]

theorem requireSecret_bind : (requireSecret shell v >>= k) = .ok () ↔
    (!(shell v).isEmpty ∧ !"change-me-".toList.isPrefixOf (shell v) ∧ isSingleLine (shell v)) ∧
      k () = .ok () := by
  rw [requireSecret, bind_assoc, require_bind, bind_assoc, require_bind, require_bind, and_assoc,
    and_assoc]

theorem requireInteger_bind : (requireInteger shell v a b >>= k) = .ok () ↔
    (isNumber (shell v) ∧ inRange a b (shell v)) ∧ k () = .ok () := by
  rw [requireInteger, bind_assoc, require_bind, require_bind, and_assoc]

/-- What the checks say of the variables that the INI file is rendered with. -/
structure Checked (shell : Variable → Text) : Prop where
  numbers : ∀ v ∈ [.maxPlayers, .gamePort, .directPort, .rconPort], isNumber (shell v)
  secrets : ∀ v ∈ [.rconPassword, .serverPassword], shell v ≠ []
  single : ∀ v ∈ [.serverPublicName, .rconPassword, .serverPassword], isSingleLine (shell v)

theorem checked_of_validateEnvironment (h : validateEnvironment env = .ok ()) :
    Checked env.shell := by
  simp only [validateEnvironment, require_bind, requireInteger_bind, requireSecret_bind,
    require_eq_ok] at h
  obtain ⟨-, -, -, -, -, -, -, hmax, hgame, hdirect, hrcon, -, -, -, -, -, -, -, -, -, -, -, -, -,
    hpassword, hserver, hname⟩ := h
  refine ⟨fun v hv => ?_, fun v hv => ?_, fun v hv => ?_⟩ <;>
    simp only [List.mem_cons, List.not_mem_nil, or_false] at hv
  · rcases hv with rfl | rfl | rfl | rfl
    · exact hmax.1
    · exact hgame.1
    · exact hdirect.1
    · exact hrcon.1
  · rcases hv with rfl | rfl
    · simpa using hpassword.1
    · simpa using hserver.1
  · rcases hv with rfl | rfl | rfl
    · exact hname
    · exact hpassword.2.2
    · exact hserver.2.2

end Checks

end Config

end PzServer
