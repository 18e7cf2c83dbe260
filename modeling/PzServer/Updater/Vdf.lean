import PzServer.Updater.TextFile

/-!
# Reading Valve's metadata

Steam reports builds in VDF: quoted strings and braces. The updater reads it in two passes. The
tokenizer is a regular expression whose matches are either a quoted string, with its escapes undone
by two replacements one after the other, or a brace; what comes out of it is a list of strings in
which a quoted brace looks like any other brace. The parser then walks over that list by index.

Here the rest of the list takes the place of the index. The recursion has a fuel that is larger than
the number of tokens, so it is never used up; Python's own recursion limit is left out.
-/

namespace PzServer

namespace Updater

open Watchdog (Text)

open Watchdog.Text

/-! ### Tokens -/

/-- A match of `"((?:\\.|[^"\\])*)"|([{}])`. -/
inductive VdfMatch where
  /-- The first group: what is between the quotes, escapes and all. -/
  | string (raw : Text)
  | opening
  | closing
  deriving DecidableEq, Repr

/-- `(?:\\.|[^"\\])*` up to the closing quote; the dot is any character but a line feed. -/
def quotedBody : Text → Option Text
  | [] => none
  | '"' :: _ => some []
  | ['\\'] => none
  | '\\' :: c :: t => if c = '\n' then none else (quotedBody t).map ('\\' :: c :: ·)
  | c :: t => (quotedBody t).map (c :: ·)

/-- `re.finditer`, with the number of characters of a match that are still to be passed over. -/
def finditer : ℕ → Text → List VdfMatch
  | _, [] => []
  | n + 1, _ :: t => finditer n t
  | 0, c :: t =>
    if c = '"' then
      match quotedBody t with
      | some raw => .string raw :: finditer (raw.length + 1) t
      | none => finditer 0 t
    else if c = '{' then .opening :: finditer 0 t
    else if c = '}' then .closing :: finditer 0 t
    else finditer 0 t

/-- `str.replace` of two characters by one. -/
def replacePair (a b new : Char) : Text → Text
  | x :: y :: t =>
    if x = a ∧ y = b then new :: replacePair a b new t else x :: replacePair a b new (y :: t)
  | t => t

/-- `match.group(1).replace(r"\"", '"').replace(r"\\", "\\")` -/
def unescape (raw : Text) : Text := replacePair '\\' '\\' '\\' (replacePair '\\' '"' '"' raw)

/-- One turn of the loop in `_vdf_tokens`. -/
def VdfMatch.token : VdfMatch → Text
  | string raw => unescape raw
  | opening => ['{']
  | closing => ['}']

/-- `_vdf_tokens` -/
def vdfTokens (text : Text) : List Text := (finditer 0 (removeAnsi text)).map VdfMatch.token

/-! ### Objects -/

/-- A `dict` from strings to strings and further such, in the order of insertion. -/
inductive VdfObject where
  | empty
  | text (key value : Text) (rest : VdfObject)
  | object (key : Text) (value : VdfObject) (rest : VdfObject)
  deriving DecidableEq, Repr

namespace VdfObject

/-- The keys of the dictionary itself. -/
def keys : VdfObject → List Text
  | empty => []
  | text key _ rest | object key _ rest => key :: rest.keys

/-- Insert the fields of a second dictionary after the others. -/
def append : VdfObject → VdfObject → VdfObject
  | empty, o => o
  | text key value rest, o => text key value (rest.append o)
  | object key value rest, o => object key value (rest.append o)

/-- `result[key] = value` for a string, where `key` is new. -/
def insertText (result : VdfObject) (key value : Text) : VdfObject :=
  result.append (text key value empty)

/-- `result[key] = value` for a dictionary, where `key` is new. -/
def insertObject (result : VdfObject) (key : Text) (value : VdfObject) : VdfObject :=
  result.append (object key value empty)

end VdfObject

/-- A value of such a dictionary. -/
inductive VdfValue where
  | text (value : Text)
  | object (value : VdfObject)
  deriving DecidableEq, Repr

/-- `dict.get` -/
def VdfObject.get : VdfObject → Text → Option VdfValue
  | empty, _ => none
  | text key value rest, k => if key = k then some (.text value) else rest.get k
  | object key value rest, k => if key = k then some (.object value) else rest.get k

/-! ### The parser -/

/-- `UpdateError` -/
def malformed {α : Type} (message : String) : Except Err α := .error (.update message)

/-- `f"Valve metadata contains duplicate key {key}"` -/
def duplicateKey (key : Text) : String :=
  s!"Valve metadata contains duplicate key {String.ofList key}"

mutual

/-- `_parse_vdf_object` -/
def parseVdfObject : ℕ → List Text → Except Err (VdfObject × List Text)
  | 0, _ => .error (.other "RecursionError")
  | fuel + 1, tokens =>
    match tokens with
    | [] => malformed "Valve metadata object is malformed"
    | token :: rest =>
      if token = ['{'] then parseVdfFields fuel rest .empty
      else malformed "Valve metadata object is malformed"

/-- The loop of `_parse_vdf_object`, with the fields read so far. -/
def parseVdfFields : ℕ → List Text → VdfObject → Except Err (VdfObject × List Text)
  | 0, _, _ => .error (.other "RecursionError")
  | fuel + 1, tokens, result =>
    match tokens with
    | [] => malformed "Valve metadata object is unterminated"
    | key :: rest =>
      if key = ['}'] then .ok (result, rest)
      else
        match rest with
        | [] => malformed "Valve metadata key/value structure is malformed"
        | value :: after =>
          if key = ['{'] then malformed "Valve metadata key/value structure is malformed"
          else if value = ['{'] then do
            let (value, after) ← parseVdfObject fuel rest
            if result.keys.contains key then malformed (duplicateKey key)
            else parseVdfFields fuel after (result.insertObject key value)
          else
            if result.keys.contains key then malformed (duplicateKey key)
            else parseVdfFields fuel after (result.insertText key value)

end

/-- The loop of `parse_vdf_root`. -/
def parseVdfRootFrom (rootKey : Text) : List Text → Except Err VdfObject
  | token :: next :: rest =>
    if token = rootKey ∧ next = ['{'] then do
      let (result, _) ← parseVdfObject (rest.length + 2) (next :: rest)
      return result
    else parseVdfRootFrom rootKey (next :: rest)
  | _ => malformed s!"Valve metadata did not contain root {String.ofList rootKey}"

/-- `parse_vdf_root` -/
def parseVdfRoot (text : Text) (rootKey : Text) : Except Err VdfObject :=
  parseVdfRootFrom rootKey (vdfTokens text)

/-! ### What the updater reads -/

/-- `'/'.join(path)` -/
def joinPath (path : List Text) : String := "/".intercalate (path.map String.ofList)

/-- The loop of `_nested_string`, for the keys that are left. -/
def nestedValue (path : List Text) : List Text → VdfValue → Except Err VdfValue
  | [], current => .ok current
  | key :: keys, .object o =>
    match o.get key with
    | some value => nestedValue path keys value
    | none => malformed s!"Valve metadata is missing {joinPath path}"
  | _ :: _, .text _ => malformed s!"Valve metadata is missing {joinPath path}"

/-- `_nested_string` -/
def nestedString (o : VdfObject) (path : List Text) : Except Err Text := do
  match ← nestedValue path path (.object o) with
  | .text value =>
    if value = [] then malformed s!"Valve metadata field {joinPath path} is malformed"
    else return value
  | .object _ => malformed s!"Valve metadata field {joinPath path} is malformed"

/-- `str.isdecimal` -/
def isDecimal (t : Text) : Bool := t ≠ [] && t.all fun c => (digitValue c).isSome

/-- `int` of a string of decimal digits. -/
def intOf (t : Text) : Except Err ℕ :=
  match toInt t with
  | some n => .ok n
  | none => .error (.other "ValueError")

/-- `if not raw.isdecimal() or int(raw) <= 0`, and then `int(raw)`. -/
def positiveDecimal (raw : Text) (message : String) : Except Err ℕ :=
  if isDecimal raw then do
    let n ← intOf raw
    if n ≤ 0 then malformed message else return n
  else malformed message

/-- `str` of a number. -/
def decimal (n : ℕ) : Text := (toString n).toList

/-- `parse_app_info_build` -/
def parseAppInfoBuild (text : Text) (appId : ℕ) (branch : Text) : Except Err ℕ := do
  let app ← parseVdfRoot text (decimal appId)
  let raw ← nestedString app ["depots".toList, "branches".toList, branch, "buildid".toList]
  positiveDecimal raw "Steam branch build ID is malformed"

/-! ### The manifest -/

/-- `app_state.get("UpdateResult") not in {None, "0"}`; a dictionary is not hashable. -/
def checkUpdateResult : Option VdfValue → Except Err Unit
  | none => .ok ()
  | some (.text value) =>
    if value = ['0'] then .ok ()
    else malformed "Installed Steam manifest reports an unsuccessful update"
  | some (.object _) => .error (.other "TypeError")

/-- `int(raw_size) if isinstance(raw_size, str) and raw_size.isdecimal() else None` -/
def sizeOf : Option VdfValue → Except Err (Option ℕ)
  | some (.text raw) => if isDecimal raw then some <$> intOf raw else .ok none
  | _ => .ok none

/-- Raise an `UpdateError` unless the strings are equal. -/
def requireEqual (actual expected : Text) (message : String) : Except Err Unit :=
  if actual ≠ expected then malformed message else .ok ()

/-- The checks of `read_installed_metadata`. -/
def installedMetadata (appState : VdfObject) (appId : ℕ) : Except Err SteamBuildMetadata := do
  let app ← nestedString appState ["appid".toList]
  requireEqual app (decimal appId) "Installed Steam manifest App ID does not match 380870"
  let rawBuild ← nestedString appState ["buildid".toList]
  let build ← positiveDecimal rawBuild "Installed Steam build ID is malformed"
  let flags ← nestedString appState ["StateFlags".toList]
  requireEqual flags ['4'] "Installed Steam manifest is not in the fully-installed state"
  checkUpdateResult (appState.get "UpdateResult".toList)
  let size ← sizeOf (appState.get "SizeOnDisk".toList)
  return ⟨build, size⟩

/-- `read_installed_metadata`: `content` is what is in the file at the path `manifest`, decoded. -/
def readInstalledMetadata (manifest : String) (content : Except Err Text) (appId : ℕ) :
    Except Err SteamBuildMetadata :=
  match content with
  | .error e =>
    if e.isOSError then malformed s!"Installed Steam manifest is missing: {manifest}" else .error e
  | .ok file => do
    let appState ← parseVdfRoot (universalNewlines file) "AppState".toList
    installedMetadata appState appId

end Updater

end PzServer
