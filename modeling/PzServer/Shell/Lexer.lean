import Mathlib.Data.Nat.Notation

/-!
# The words of a command line

A shell divides a line into words and operators. A blank or an operator ends a word unless it is
quoted or inside a substitution, and these can be inside each other. The words are kept as they are
written, with their quotes.

Only lines that are complete have tokens here: where a quote or a substitution is left open, or a
backslash is the last character, the shell goes on reading in the next line.

## Main definitions

* `lex` — the tokens of a line
* `commandWords` — the commands that it names
-/

namespace Shell

/-- A line, without its line feed. -/
abbrev Line : Type := List Char

/-- What can be open inside a word. -/
inductive Context where
  | single
  | double
  /-- `$'`, where a backslash escapes -/
  | ansi
  | backquote
  | paren
  | brace
  deriving DecidableEq, Repr

/-- The character that closes a context. -/
def Context.closing : Context → Char
  | single => '\''
  | double => '"'
  | ansi => '\''
  | backquote => '`'
  | paren => ')'
  | brace => '\x7d'

/-- Whether all characters but the closing one and the backslash stand for themselves. -/
def Context.isVerbatim : Context → Bool
  | single | ansi | backquote => true
  | double | paren | brace => false

inductive Token where
  | word (text : List Char)
  /-- A character of an operator; `glued` if nothing is between it and the token before. -/
  | operator (c : Char) (glued : Bool)
  deriving DecidableEq, Repr

/-- How far a line has been read. -/
structure Reading where
  /-- what is open, the innermost first -/
  inside : List Context
  /-- a backslash is before the next character -/
  escaped : Bool
  /-- a dollar sign is before the next character -/
  dollar : Bool
  /-- the rest of the line is a comment -/
  comment : Bool
  /-- no blank came since the last operator -/
  operated : Bool
  /-- the word that is being read, in reverse -/
  word : List Char
  /-- what has been read, in reverse -/
  tokens : List Token
  deriving DecidableEq, Repr

namespace Reading

def start : Reading := ⟨[], false, false, false, false, [], []⟩

/-- The end of a word, if one is being read. -/
def emit (r : Reading) : Reading :=
  { r with
    dollar := false
    operated := false
    word := []
    tokens := if r.word = [] then r.tokens else .word r.word.reverse :: r.tokens }

/-- One more character of the word. -/
def push (r : Reading) (c : Char) : Reading :=
  { r with
    escaped := c = '\\' && r.inside.head? ≠ some .single
    dollar := c = '$' && !r.dollar && !r.inside.head?.any Context.isVerbatim
    word := c :: r.word }

/-- What a character opens, in code or in a context that is not verbatim. An assignment can have a
list as its value. -/
def opens (r : Reading) (c : Char) : Option Context :=
  match c with
  | '\'' =>
    if r.inside.head? = some .double then none else some (if r.dollar then .ansi else .single)
  | '"' => some .double
  | '`' => some .backquote
  | '(' =>
    if r.dollar || r.inside.head? = some .paren ||
        (r.inside.head? ≠ some .double && r.word.head? = some '=') then some .paren
    else none
  | '\x7b' => if r.dollar then some .brace else none
  | _ => none

end Reading

/-- Blanks divide words. -/
def isBlank (c : Char) : Bool := c = ' ' || c = '\t'

def isOperator (c : Char) : Bool := c ∈ [';', '&', '|', '<', '>', '(', ')']

/-- One character. There are no comments inside a substitution. -/
def step (r : Reading) (c : Char) : Option Reading :=
  if r.comment then some r
  else if r.escaped then some { r with escaped := false, dollar := false, word := c :: r.word }
  else
    match r.inside with
    | k :: rest =>
      if c = k.closing then some { r.push c with inside := rest, dollar := false }
      else if k.isVerbatim then some (r.push c)
      else if k = .paren && c = '#' && r.word.head?.any (fun d => isBlank d || isOperator d) then
        none
      else
        match r.opens c with
        | some k => some { r.push c with inside := k :: r.inside, dollar := false }
        | none => some (r.push c)
    | [] =>
      if isBlank c then some r.emit
      else if c = '#' && r.word = [] then some { r with comment := true }
      else
        match r.opens c with
        | some k => some { r.push c with inside := [k], dollar := false }
        | none =>
          if isOperator c then
            let glued := r.word ≠ [] || r.operated
            some { r.emit with operated := true, tokens := .operator c glued :: r.emit.tokens }
          else some (r.push c)

/-- What has been read of a line at its end. -/
def Reading.finish (r : Reading) : Option (List Token) :=
  if r.inside = [] ∧ r.escaped = false then some r.emit.tokens.reverse else none

/-- The tokens of a line that is complete. -/
def lex (line : Line) : Option (List Token) := (line.foldlM step Reading.start).bind Reading.finish

theorem step_start {c : Char} (h : isBlank c = true) :
    step Reading.start c = some Reading.start := by
  change (if isBlank c = true then some Reading.start.emit else _) = _
  rw [if_pos h]
  rfl

/-- Blanks at the start of a line are nothing to the shell. -/
theorem lex_append {indent line : Line} (h : ∀ c ∈ indent, isBlank c = true) :
    lex (indent ++ line) = lex line := by
  induction indent with
  | nil => rfl
  | cons c indent ih =>
    obtain ⟨hc, hrest⟩ := List.forall_mem_cons.mp h
    rw [lex, List.cons_append, List.foldlM_cons, step_start hc]
    exact ih hrest

/-! ### The characters of the words -/

/-- Everything that has been read has characters in `S` only. -/
structure Reading.From (S : Char → Prop) (r : Reading) : Prop where
  word : ∀ c ∈ r.word, S c
  tokens : ∀ w, .word w ∈ r.tokens → ∀ c ∈ w, S c

section From

variable {S : Char → Prop} {r r' : Reading} {c : Char} {line : Line}

theorem from_start : Reading.start.From S :=
  ⟨fun _ hc => absurd hc List.not_mem_nil, fun _ hw => absurd hw List.not_mem_nil⟩

theorem Reading.From.push (h : r.From S) (hc : S c) : (r.push c).From S :=
  ⟨List.forall_mem_cons.mpr ⟨hc, h.word⟩, h.tokens⟩

theorem Reading.From.emit (h : r.From S) : r.emit.From S := by
  refine ⟨fun c hc => absurd hc List.not_mem_nil, fun w hw => ?_⟩
  rw [Reading.emit] at hw
  dsimp only at hw
  split at hw
  · exact h.tokens w hw
  · rcases List.mem_cons.mp hw with heq | hw
    · obtain rfl := Token.word.inj heq
      exact fun c hc => h.word c (List.mem_reverse.mp hc)
    · exact h.tokens w hw

theorem Reading.From.step (h : r.From S) (hc : S c) (hstep : step r c = some r') : r'.From S := by
  have hpush := h.push hc
  have hemit := h.emit
  have hoperator : ∀ glued w, .word w ∈ Token.operator c glued :: r.emit.tokens →
      ∀ c ∈ w, S c := by
    intro glued w hw
    rcases List.mem_cons.mp hw with heq | hw
    · cases heq
    · exact hemit.tokens w hw
  rw [Shell.step] at hstep
  split at hstep
  · exact Option.some.inj hstep ▸ h
  split at hstep
  · exact Option.some.inj hstep ▸ ⟨List.forall_mem_cons.mpr ⟨hc, h.word⟩, h.tokens⟩
  split at hstep
  · -- inside something
    split at hstep
    · exact Option.some.inj hstep ▸ ⟨hpush.word, hpush.tokens⟩
    split at hstep
    · exact Option.some.inj hstep ▸ hpush
    split at hstep
    · cases hstep
    split at hstep
    · exact Option.some.inj hstep ▸ ⟨hpush.word, hpush.tokens⟩
    · exact Option.some.inj hstep ▸ hpush
  · -- in code
    split at hstep
    · exact Option.some.inj hstep ▸ hemit
    split at hstep
    · exact Option.some.inj hstep ▸ ⟨h.word, h.tokens⟩
    split at hstep
    · exact Option.some.inj hstep ▸ ⟨hpush.word, hpush.tokens⟩
    split at hstep
    · exact Option.some.inj hstep ▸ ⟨hemit.word, hoperator _⟩
    · exact Option.some.inj hstep ▸ hpush

theorem Reading.From.fold (hline : ∀ c ∈ line, S c) (h : r.From S)
    (hfold : line.foldlM Shell.step r = some r') : r'.From S := by
  induction line generalizing r with
  | nil => exact Option.some.inj hfold ▸ h
  | cons c line ih =>
    obtain ⟨hc, hline⟩ := List.forall_mem_cons.mp hline
    rw [List.foldlM_cons] at hfold
    obtain ⟨r₁, hstep, hrest⟩ := Option.bind_eq_some_iff.mp hfold
    exact ih hline (h.step hc hstep) hrest

/-- The words of a line have its characters. -/
theorem subset_of_lex {tokens : List Token} {w : List Char} (h : lex line = some tokens)
    (hw : .word w ∈ tokens) : w ⊆ line := by
  obtain ⟨r, hfold, hfinish⟩ := Option.bind_eq_some_iff.mp h
  have hr : r.From (· ∈ line) := from_start.fold (fun c hc => hc) hfold
  rw [Reading.finish] at hfinish
  split at hfinish
  · obtain rfl := Option.some.inj hfinish
    exact hr.emit.tokens w (List.mem_reverse.mp hw)
  · cases hfinish

end From

/-! ### The names of commands -/

/-- A word without its quotes. -/
def unquote (w : List Char) : List Char := w.filter fun c => c ≠ '"' && c ≠ '\'' && c ≠ '\\'

def isNameChar (c : Char) : Bool := c.isAlphanum || c = '_'

/-- `NAME=…` -/
def isAssignment (w : List Char) : Bool :=
  w.takeWhile isNameChar ≠ [] && (w.dropWhile isNameChar).head? = some '='

/-- The words that a command can come after. -/
def carriers : List (List Char) :=
  ["if", "then", "elif", "else", "while", "until", "do", "!", "time", "\x7b", "exec", "command",
    "builtin"].map String.toList

/-- The words that name a command, in a list of commands. A command is named by its first word after
assignments and redirections. -/
def commandWords : (named redirected : Bool) → List Token → List (List Char)
  | _, _, [] => []
  | named, true, .word _ :: rest => commandWords named false rest
  | true, false, .word _ :: rest => commandWords true false rest
  | false, false, .word w :: rest =>
    if isAssignment w || carriers.any (· = w) then commandWords false false rest
    else unquote w :: commandWords true false rest
  | named, redirected, .operator c _ :: rest =>
    if c = '<' || c = '>' then commandWords named true rest
    -- the second character of a redirection
    else if redirected then commandWords named true rest
    else commandWords false false rest

/-- Whether a line has a command of this name. -/
def names (name : List Char) (line : Line) : Bool :=
  (lex line).any fun tokens => (commandWords false false tokens).any (· = name)

/-- The names of commands are words without their quotes. -/
theorem exists_word_of_mem_commandWords {name : List Char} {named redirected : Bool}
    {tokens : List Token} (h : name ∈ commandWords named redirected tokens) :
    ∃ w, .word w ∈ tokens ∧ name = unquote w := by
  induction tokens generalizing named redirected with
  | nil =>
    rw [commandWords] at h
    exact absurd h List.not_mem_nil
  | cons token tokens ih =>
    have hrest : ∀ {named redirected}, name ∈ commandWords named redirected tokens →
        ∃ w, .word w ∈ token :: tokens ∧ name = unquote w := by
      intro named redirected h
      obtain ⟨w, hw, hname⟩ := ih h
      exact ⟨w, List.mem_cons_of_mem _ hw, hname⟩
    cases token with
    | operator c glued =>
      rw [commandWords] at h
      split at h
      · exact hrest h
      · split at h
        · exact hrest h
        · exact hrest h
    | word w =>
      cases redirected with
      | true =>
        rw [commandWords] at h
        exact hrest h
      | false =>
        cases named with
        | true =>
          rw [commandWords] at h
          exact hrest h
        | false =>
          rw [commandWords] at h
          split at h
          · exact hrest h
          · rcases List.mem_cons.mp h with hname | h
            · exact ⟨w, List.mem_cons_self, hname⟩
            · exact hrest h

/-- A line has the characters of the commands that it names. -/
theorem subset_of_names {name : List Char} {line : Line} (h : names name line = true) :
    name ⊆ line := by
  obtain ⟨tokens, hlex, hnames⟩ := (Option.any_eq_true _ _).mp h
  obtain ⟨name', hname', heq⟩ := List.any_eq_true.mp hnames
  obtain rfl := of_decide_eq_true heq
  obtain ⟨w, hw, rfl⟩ := exists_word_of_mem_commandWords hname'
  exact fun c hc => subset_of_lex hlex hw (List.mem_filter.mp hc).1

/-! A quote inside a substitution inside quotes, and an operator inside them. -/

example : lex "A=\"$(b \"c d\")\" e 'f;g' # h".toList =
    some [.word "A=\"$(b \"c d\")\"".toList, .word "e".toList, .word "'f;g'".toList] := by
  decide +kernel

example : names "exit".toList "cd \"$D\" 2>&1 && A=1 exec 'exit' 3".toList = true := by
  decide +kernel

end Shell
