import Mathlib.Data.Nat.Notation

/-!
# Python text

The watchdog decides from the output of other programs, so the string operations it uses matter:
which characters `strip` removes, where `splitlines` breaks, what a regular expression matches
without regard to case. They are defined here as Python 3.11 has them, with its Unicode tables.

A text is the list of its characters. The regular expressions of the source are deterministic: at
every point, what may be repeated and what follows exclude each other, so a greedy match is the only
one and none of them needs backtracking.
-/

namespace PzServer

namespace Watchdog

/-- A Python `str`. -/
abbrev Text : Type := List Char

namespace Text

/-! ### Characters -/

/-- `str.isspace`, which is also `\s` -/
def isSpace (c : Char) : Bool :=
  c.toNat ∈ [0x9, 0xa, 0xb, 0xc, 0xd, 0x1c, 0x1d, 0x1e, 0x1f, 0x20, 0x85, 0xa0, 0x1680, 0x2000,
    0x2001, 0x2002, 0x2003, 0x2004, 0x2005, 0x2006, 0x2007, 0x2008, 0x2009, 0x200a, 0x2028, 0x2029,
    0x202f, 0x205f, 0x3000]

/-- The characters at which `str.splitlines` breaks. -/
def isLineBreak (c : Char) : Bool :=
  c.toNat ∈ [0xa, 0xb, 0xc, 0xd, 0x1c, 0x1d, 0x1e, 0x85, 0x2028, 0x2029]

/-- The zeros of the decimal digits: each is followed by its nine other digits. -/
def zeros : List ℕ :=
  [0x30, 0x660, 0x6f0, 0x7c0, 0x966, 0x9e6, 0xa66, 0xae6, 0xb66, 0xbe6, 0xc66, 0xce6, 0xd66, 0xde6,
    0xe50, 0xed0, 0xf20, 0x1040, 0x1090, 0x17e0, 0x1810, 0x1946, 0x19d0, 0x1a80, 0x1a90, 0x1b50,
    0x1bb0, 0x1c40, 0x1c50, 0xa620, 0xa8d0, 0xa900, 0xa9d0, 0xa9f0, 0xaa50, 0xabf0, 0xff10, 0x104a0,
    0x10d30, 0x11066, 0x110f0, 0x11136, 0x111d0, 0x112f0, 0x11450, 0x114d0, 0x11650, 0x116c0,
    0x11730, 0x118e0, 0x11950, 0x11c50, 0x11d50, 0x11da0, 0x16a60, 0x16ac0, 0x16b50, 0x1d7ce,
    0x1d7d8, 0x1d7e2, 0x1d7ec, 0x1d7f6, 0x1e140, 0x1e2f0, 0x1e950, 0x1fbf0]

/-- The value of a decimal digit, which is also `\d` -/
def digitValue (c : Char) : Option ℕ :=
  (zeros.find? fun z => z ≤ c.toNat && c.toNat < z + 10).map (c.toNat - ·)

/-- Whether `c` matches the letter `p` of a pattern with `re.IGNORECASE`; `p` is in lower case. -/
def matchesLetter (p c : Char) : Bool :=
  c = p || c = p.toUpper ||
    (p = 's' && c.toNat = 0x17f) || (p = 'i' && (c.toNat = 0x130 || c.toNat = 0x131))

/-! ### Strings -/

/-- `str.strip` -/
def strip (t : Text) : Text := ((t.dropWhile isSpace).reverse.dropWhile isSpace).reverse

/-- `str.splitlines`, with the line that is being read in reverse. -/
def splitlinesFrom : Text → Text → List Text
  | [], [] => []
  | line, [] => [line.reverse]
  | line, '\r' :: '\n' :: rest => line.reverse :: splitlinesFrom [] rest
  | line, c :: rest =>
    if isLineBreak c then line.reverse :: splitlinesFrom [] rest
    else splitlinesFrom (c :: line) rest

/-- `str.splitlines` -/
def splitlines (t : Text) : List Text := splitlinesFrom [] t

/-- `int` of a text of decimal digits; more than 4300 of them are a `ValueError`. -/
def toInt (digits : Text) : Option ℕ :=
  if digits.length ≤ 4300 then
    some (digits.foldl (fun n c => 10 * n + (digitValue c).getD 0) 0)
  else none

/-! ### Matching -/

/-- A word, in any case. -/
def word : (pattern : List Char) → Text → Option Text
  | [], t => some t
  | _ :: _, [] => none
  | p :: pattern, c :: t => if matchesLetter p c then word pattern t else none

/-- `\s*` -/
def spaces (t : Text) : Text := t.dropWhile isSpace

/-- `\s+` -/
def spaces1 : Text → Option Text
  | [] => none
  | c :: t => if isSpace c then some (spaces t) else none

/-- One character of punctuation. -/
def char (p : Char) : Text → Option Text
  | [] => none
  | c :: t => if c = p then some t else none

/-- `(\d+)`: the digits, and what follows them. -/
def digits (t : Text) : Option (Text × Text) :=
  let isDigit := fun c => (digitValue c).isSome
  if t.takeWhile isDigit = [] then none else some (t.takeWhile isDigit, t.dropWhile isDigit)

/-- `fullmatch`: nothing is left. -/
def fullmatch {α : Type} : Option (α × Text) → Option α
  | some (a, []) => some a
  | _ => none

/-! ### Control sequences -/

/-- `ANSI_ESCAPE_PATTERN`: the length of the control sequence that the text begins with. It is an
escape and a bracket, characters from `0` to `?`, characters from the space to the slash, and a
character from `@` to `~`. -/
def ansiLength : Text → Option ℕ
  | escape :: '[' :: t =>
    let parameters := t.takeWhile fun c => 0x30 ≤ c.toNat && c.toNat ≤ 0x3f
    let t := t.drop parameters.length
    let intermediates := t.takeWhile fun c => 0x20 ≤ c.toNat && c.toNat ≤ 0x2f
    match t.drop intermediates.length with
    | final :: _ =>
      if escape.toNat = 0x1b && 0x40 ≤ final.toNat && final.toNat ≤ 0x7e then
        some (2 + parameters.length + intermediates.length + 1)
      else none
    | [] => none
  | _ => none

/-- `ANSI_ESCAPE_PATTERN.sub("", ...)`, with the number of characters still to be skipped. -/
def removeAnsiFrom : ℕ → Text → Text
  | _, [] => []
  | n + 1, _ :: t => removeAnsiFrom n t
  | 0, c :: t =>
    match ansiLength (c :: t) with
    | some (n + 1) => removeAnsiFrom n t
    | _ => c :: removeAnsiFrom 0 t

/-- `ANSI_ESCAPE_PATTERN.sub("", ...)` -/
def removeAnsi (t : Text) : Text := removeAnsiFrom 0 t

end Text

end Watchdog

end PzServer
