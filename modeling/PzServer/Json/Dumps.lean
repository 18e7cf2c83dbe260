import PzServer.Json.Double

/-!
# `json.dumps`

What `json.loads` builds of a text, and the text that `json.dumps` prints of it with an indentation
of two blanks. An object becomes a dictionary: a key that comes again keeps its place and takes the
later value. A number with a fraction or an exponent becomes a `float`.

The printer calls itself for every array and object, so it has a limit of its own.

## Main definitions

* `Data`, `Value.data` — what Python has for a value
* `parse` — `json.loads`
* `dumps` — `json.dumps(…, indent=2)`
-/

namespace Json

/-! ### Python data -/

/-- The objects that `json.loads` builds. -/
inductive Data where
  | none
  | bool (value : Bool)
  | int (value : ℤ)
  | float (value : Double)
  | str (codePoints : List ℕ)
  | list (items : List Data)
  | dict (entries : List (List ℕ × Data))

section Entries

variable {α : Type}

/-- `entries[key] = value` -/
def setItem : List (List ℕ × α) → List ℕ → α → List (List ℕ × α)
  | [], key, value => [(key, value)]
  | (k, v) :: entries, key, value =>
    if k = key then (k, value) :: entries else (k, v) :: setItem entries key value

/-- `entries.get(key)` -/
def getItem (entries : List (List ℕ × α)) (key : List ℕ) : Option α :=
  (entries.find? fun entry => entry.1 = key).map Prod.snd

end Entries

mutual

/-- What Python has for a value. -/
def Value.data : Value → Data
  | .null => .none
  | .bool value => .bool value
  | .int value => .int value
  | .float literal => .float (Double.ofLiteral literal)
  | .str codePoints => .str codePoints
  | .array items => .list (dataItems items)
  | .object members => .dict (dataMembers [] members)

def dataItems : List Value → List Data
  | [] => []
  | item :: items => item.data :: dataItems items

/-- The members are entered one after the other. -/
def dataMembers : List (List ℕ × Data) → List (List ℕ × Value) → List (List ℕ × Data)
  | entries, [] => entries
  | entries, (key, value) :: members => dataMembers (setItem entries key value.data) members

end

/-- `json.loads` -/
def parse (limits : Limits) (t : List Char) : Except Error Data := Value.data <$> loads limits t

/-! ### Printing -/

/-- A digit of `%04x`. -/
def hexChar (n : ℕ) : Char := Nat.digitChar (n % 16)

/-- `\u%04x` -/
def unicodeEscape (n : ℕ) : List Char :=
  ['\\', 'u', hexChar (n / 4096), hexChar (n / 256), hexChar (n / 16), hexChar n]

/-- `ESCAPE_ASCII` and its replacements, for one code point. -/
def encodeCodePoint (n : ℕ) : List Char :=
  if n = 0x22 then ['\\', '"']
  else if n = 0x5c then ['\\', '\\']
  else if n = 0xa then ['\\', 'n']
  else if n = 0xd then ['\\', 'r']
  else if n = 0x9 then ['\\', 't']
  else if n = 0xc then ['\\', 'f']
  else if n = 0x8 then ['\\', 'b']
  else if 0x20 ≤ n ∧ n ≤ 0x7e then [Char.ofNat n]
  else if n < 0x10000 then unicodeEscape n
  else
    unicodeEscape (0xd800 + (n - 0x10000) / 0x400 % 0x400) ++
      unicodeEscape (0xdc00 + (n - 0x10000) % 0x400)

/-- `py_encode_basestring_ascii` -/
def encodeString (codePoints : List ℕ) : List Char :=
  '"' :: (codePoints.flatMap encodeCodePoint ++ ['"'])

/-- `int.__repr__` -/
def encodeInt (n : ℤ) : List Char :=
  (if n < 0 then ['-'] else []) ++ Nat.toDigits 10 n.natAbs

/-- `newline_indent` -/
def newline (level : ℕ) : List Char := '\n' :: List.replicate (2 * level) ' '

mutual

/-- `_iterencode`, at a level of indentation. -/
def encode (level : ℕ) : Data → List Char
  | .none => "null".toList
  | .bool true => "true".toList
  | .bool false => "false".toList
  | .int value => encodeInt value
  | .float value => value.repr
  | .str codePoints => encodeString codePoints
  | .list [] => "[]".toList
  | .list (item :: items) =>
    '[' :: (newline (level + 1) ++ (encode (level + 1) item ++
      (encodeItems (level + 1) items ++ (newline level ++ [']']))))
  | .dict [] => ['\x7b', '\x7d']
  | .dict ((key, value) :: entries) =>
    '\x7b' :: (newline (level + 1) ++ (encodeString key ++ (':' :: ' ' ::
      (encode (level + 1) value ++
        (encodeEntries (level + 1) entries ++ (newline level ++ ['\x7d']))))))

/-- `_iterencode_list`, after the first item. -/
def encodeItems (level : ℕ) : List Data → List Char
  | [] => []
  | item :: items => ',' :: (newline level ++ (encode level item ++ encodeItems level items))

/-- `_iterencode_dict`, after the first entry. -/
def encodeEntries (level : ℕ) : List (List ℕ × Data) → List Char
  | [] => []
  | (key, value) :: entries =>
    ',' :: (newline level ++ (encodeString key ++ (':' :: ' ' ::
      (encode level value ++ encodeEntries level entries))))

end

mutual

/-- How many lists and dictionaries are inside each other. -/
def Data.depth : Data → ℕ
  | .list items => depthItems items + 1
  | .dict entries => depthEntries entries + 1
  | _ => 0

def depthItems : List Data → ℕ
  | [] => 0
  | item :: items => max item.depth (depthItems items)

def depthEntries : List (List ℕ × Data) → ℕ
  | [] => 0
  | (_, value) :: entries => max value.depth (depthEntries entries)

end

/-- `json.dumps(data, indent=2)`: the printer can be inside so many lists and dictionaries. -/
def dumps (printable : ℕ) (data : Data) : Except Error (List Char) :=
  if printable < data.depth then .error .recursionError else .ok (encode 0 data)

end Json
