import PzServer.Collections.Lines
import PzServer.Shell.Lexer

/-!
# Scripts of commands and conditionals

A part of the shell language: scripts whose lines are single statements. A line is a list of
commands, or one of the lines `if …; then`, `else` and `fi` of a conditional, or leaves the shell,
perhaps after commands of its own. The commands are simple ones, groups in parentheses and tests in
double brackets, with redirections. One variable is followed, that for the status of a command.

What the commands do is a parameter. They see the state, the status of the command before them and
the variable; they change the state and have a status of their own. Control always comes back from
them, and none of them assigns the variable.

## Main definitions

* `Parse.next`, `isOrdinary` — a line of commands
* `statement` — what a line is
* `Behaviour.execute` — running a script

## Main results

* `Behaviour.execute_plain`, `Behaviour.execute_passed` — lines of commands, where they are run and
  where they are passed over
-/

namespace Shell

open Collections (lines)

/-! ### Lines of commands -/

/-- Where in a list of commands a line is. -/
inductive Phase where
  /-- a command may come -/
  | ready
  /-- after `!` -/
  | negated
  /-- in a simple command -/
  | command
  /-- after a group or a test, where no word can come -/
  | closed
  /-- after a number there: a redirection has to come -/
  | descriptor
  /-- a command has to come -/
  | pending
  /-- after the parenthesis of a group -/
  | opened
  /-- after `&` -/
  | ampersand
  /-- after `|` -/
  | pipe
  /-- after `<` -/
  | less
  /-- after `>` -/
  | greater
  /-- after `&>` -/
  | both
  /-- after `<<`, which has to be `<<<` -/
  | here
  /-- a word has to come -/
  | target
  /-- at the parenthesis of a process substitution -/
  | substitution
  /-- inside `[[`, and so many parentheses -/
  | test (depth : ℕ)
  deriving DecidableEq, Repr

/-- What a parenthesis is for. -/
inductive Group where
  | subshell
  /-- `<(` or `>(`, in a command that is a group or a test itself, or in a simple one -/
  | substitution (compound : Bool)
  deriving DecidableEq, Repr

/-- How far a line has been parsed. -/
structure Parse where
  phase : Phase
  /-- the command is a group or a test -/
  compound : Bool
  /-- the parentheses that are open, the innermost first -/
  groups : List Group
  deriving DecidableEq, Repr

namespace Parse

/-- A command that is over. -/
def finish (p : Parse) : Parse := { p with phase := if p.compound then .closed else .command }

/-- One more word. -/
def word (p : Parse) (w : List Char) : Option Parse :=
  match p.phase with
  | .ready | .negated | .pending | .opened | .ampersand | .pipe =>
    if w = "[[".toList then some { p with phase := .test 0 }
    else if w = "!".toList then some { p with phase := .negated }
    else some { p with phase := .command, compound := false }
  | .command | .less | .greater | .both | .target => some p.finish
  | .closed => if w ≠ [] ∧ w.all Char.isDigit then some { p with phase := .descriptor } else none
  | .test depth =>
    if w = "]]".toList ∧ depth = 0 then some { p with phase := .closed, compound := true }
    else some p
  | .descriptor | .here | .substitution => none

/-- A parenthesis. -/
def openGroup (p : Parse) (glued : Bool) : Option Parse :=
  match p.phase with
  | .ready | .pending | .ampersand | .pipe =>
    some ⟨.opened, false, .subshell :: p.groups⟩
  -- `((` and `!(` are something else
  | .opened | .negated => if glued then none else some ⟨.opened, false, .subshell :: p.groups⟩
  | .less | .greater | .substitution =>
    if glued then some ⟨.opened, false, .substitution p.compound :: p.groups⟩ else none
  | .test depth => some { p with phase := .test (depth + 1) }
  | _ => none

def closeGroup (p : Parse) : Option Parse :=
  match p.phase, p.groups with
  | .test (depth + 1), _ => some { p with phase := .test depth }
  | .ready, .subshell :: groups | .command, .subshell :: groups | .closed, .subshell :: groups
  | .ampersand, .subshell :: groups => some ⟨.closed, true, groups⟩
  | .ready, .substitution compound :: groups | .command, .substitution compound :: groups
  | .closed, .substitution compound :: groups | .ampersand, .substitution compound :: groups =>
    some (finish ⟨.command, compound, groups⟩)
  | _, _ => none

/-- A redirection begins. -/
def redirect (p : Parse) (phase : Phase) (glued : Bool) : Option Parse :=
  match p.phase with
  | .ready | .negated | .pending | .opened | .ampersand | .pipe =>
    some { p with phase := phase, compound := false }
  | .command | .closed => some { p with phase := phase }
  | .descriptor => if glued then some { p with phase := phase } else none
  | _ => none

/-- One more character of an operator; here documents and functions are not lists of commands. -/
def operator (p : Parse) (c : Char) (glued : Bool) : Option Parse :=
  match p.phase, c, glued with
  | _, '(', _ => p.openGroup glued
  | _, ')', _ => p.closeGroup
  | .test _, ';', _ => none
  | .test _, _, _ => some p
  | .command, ';', _ | .closed, ';', _ | .negated, ';', _ => some { p with phase := .ready }
  | .command, '&', _ | .closed, '&', _ => some { p with phase := .ampersand }
  | .command, '|', _ | .closed, '|', _ => some { p with phase := .pipe }
  | .ampersand, '&', true | .pipe, '|', true | .pipe, '&', true => some { p with phase := .pending }
  | .ampersand, '>', true => some { p with phase := .both }
  | .less, '<', true => some { p with phase := .here }
  | .here, '<', true | .both, '>', true | .less, '&', true | .less, '>', true
  | .greater, '&', true | .greater, '>', true | .greater, '|', true =>
    some { p with phase := .target }
  | .less, '<', false | .less, '>', false | .greater, '<', false | .greater, '>', false
  | .both, '<', false | .both, '>', false | .target, '<', false | .target, '>', false =>
    some { p with phase := .substitution }
  | _, '<', _ => p.redirect .less glued
  | _, '>', _ => p.redirect .greater glued
  | _, _, _ => none

/-- One more token. -/
def next (p : Parse) : Token → Option Parse
  | .word w => p.word w
  | .operator c glued => p.operator c glued

/-- Whether a list of commands can end here. -/
def isComplete (p : Parse) : Bool :=
  p.groups = [] && match p.phase with
  | .ready | .negated | .command | .closed | .ampersand => true
  | _ => false

end Parse

/-- The words that direct control, or leave the shell. -/
def controlWords : List (List Char) :=
  ["if", "then", "elif", "else", "fi", "for", "while", "until", "do", "done", "case", "esac",
    "select", "function", "coproc", "\x7b", "\x7d", "exit"].map String.toList

/-- Whether a word is, or assigns, the variable. -/
def mentions (name word : List Char) : Bool :=
  word = name || (name ++ ['=']).isPrefixOf word || (name ++ ['+', '=']).isPrefixOf word

/-- A line of commands that does not direct control, leave the shell or assign the variable. -/
def isOrdinary (name : List Char) (tokens : List Token) : Bool :=
  (tokens.foldlM Parse.next ⟨.ready, false, []⟩).any Parse.isComplete &&
    tokens.all fun
      | .word w => !controlWords.any (· = w) && !mentions name w
      | .operator .. => true

/-! Groups, tests, here strings and process substitutions are commands; here documents, arithmetic
and functions are not. -/

example : ["(cd \"$D\" && ls) 2>&1 | sort;", "! read -r A <<< \"$B\" || C=1 d &",
    "diff <(a; b) <(c) &>> e", "[[ $A =~ ^(b|c d)$ && ! -e e ]] > /dev/null"].all fun line =>
      (lex line.toList).any (isOrdinary "X".toList) := by
  decide +kernel

example : ["a << b", "((a))", "(a; b", "a > > b", "a; ; b", "f () a", "(a) b", "[[ a ; b ]]",
    "(exit 1)"].all fun line => !(lex line.toList).any (isOrdinary "X".toList) := by
  decide +kernel

/-! ### Statements -/

/-- A status of a command. -/
abbrev Status : Type := Fin 256

/-- The lowest eight bits of a number. -/
def Status.of (n : Nat) : Status := Fin.ofNat 256 n

/-- What the shell is left with. -/
inductive Code where
  | number (status : Status)
  /-- the variable -/
  | captured
  deriving DecidableEq, Repr

inductive Statement where
  /-- A blank line or a comment. -/
  | skip
  | commands (tokens : List Token)
  /-- `if …; then` -/
  | ifThen (tokens : List Token)
  | otherwise
  | fi
  /-- The variable is set to the status of the command before. -/
  | capture
  /-- Commands, and then `exit`. -/
  | leave (before : List Token) (code : Code)
  /-- Something else. -/
  | other
  deriving DecidableEq, Repr

/-- The argument of `exit`: a number, or the variable in quotes. -/
def codeOf (name word : List Char) : Option Code :=
  if word = "\"$\x7b".toList ++ name ++ "\x7d\"".toList then some .captured
  else if word ≠ [] ∧ word.all Char.isDigit then
    let n := word.foldl (fun n c => 10 * n + (c.toNat - '0'.toNat)) 0
    if h : n < 256 then some (.number ⟨n, h⟩) else none
  else none

/-- A semicolon, wherever it stands. -/
def Token.isSemicolon : Token → Bool
  | operator c _ => c = ';'
  | word _ => false

/-- The commands of `if …; then`, with the semicolon after them. -/
def conditionOf : List Token → Option (List Token)
  | .word w :: tokens =>
    if w = "if".toList ∧ tokens.getLast? = some (.word "then".toList) ∧
        tokens.dropLast.getLast?.any Token.isSemicolon then some tokens.dropLast
    else none
  | _ => none

/-- The commands before an `exit`, with the semicolon after them, and its argument. -/
def exitOf (name : List Char) (tokens : List Token) : Option (List Token × Code) :=
  match tokens.reverse with
  | .word code :: .word w :: before =>
    if w = "exit".toList ∧ (before = [] ∨ before.head?.any Token.isSemicolon) then
      ((before.reverse, ·)) <$> codeOf name code
    else none
  | _ => none

/-- The statement that the tokens of a line are. -/
def classify (name : List Char) (tokens : List Token) : Statement :=
  if tokens = [] then .skip
  else if tokens = [.word "else".toList] then .otherwise
  else if tokens = [.word "fi".toList] then .fi
  else if tokens = [.word (name ++ "=$?".toList)] then .capture
  else
    match conditionOf tokens, exitOf name tokens with
    | some list, _ => if isOrdinary name list then .ifThen list.dropLast else .other
    | none, some (list, code) => if isOrdinary name list then .leave list.dropLast code else .other
    | none, none => if isOrdinary name tokens then .commands tokens else .other

/-- What a line is. -/
def statement (name : List Char) (line : Line) : Statement :=
  match lex line with
  | some tokens => classify name tokens
  | none => .other

/-- The statements of a script. -/
def statements (name : List Char) (t : List Char) : List Statement :=
  (lines t).map (statement name)

/-! ### Running -/

/-- What a command sees. -/
structure Env (σ : Type) where
  state : σ
  /-- the status of the command before -/
  last : Status
  /-- the variable -/
  captured : Status

/-- What the commands do. -/
structure Behaviour (σ : Type) where
  run : List Token → Env σ → σ × Status

/-- A conditional that is open, with its part where control is. -/
inductive Branch where
  /-- the first part, which is run -/
  | first
  /-- the first part, which is passed over: the second one will be run -/
  | firstPassed
  /-- the second part, which is run -/
  | second
  /-- the second part, which is passed over -/
  | secondPassed
  /-- a part of a conditional that is itself passed over -/
  | nested
  deriving DecidableEq, Repr

/-- Whether statements are run inside these conditionals, the innermost of which is the first. -/
def runs : List Branch → Bool
  | [] | .first :: _ | .second :: _ => true
  | _ => false

/-- The commands that a script ran with the status of each, and the status that it ended with. -/
structure Outcome where
  trace : List (List Token × Status)
  status : Status
  deriving DecidableEq, Repr

/-- What was run before. -/
def Outcome.after (trace : List (List Token × Status)) (o : Outcome) : Outcome :=
  { o with trace := trace ++ o.trace }

def Code.value {σ : Type} (e : Env σ) : Code → Status
  | number status => status
  | captured => e.captured

namespace Behaviour

variable {σ : Type}

/-- What a command leaves. -/
def exec (b : Behaviour σ) (tokens : List Token) (e : Env σ) : Env σ :=
  { e with state := (b.run tokens e).1, last := (b.run tokens e).2 }

/-- Running a script from a place inside conditionals. There is no outcome where the script is not
well formed, or where it has a statement of another kind on the way. -/
def execute (b : Behaviour σ) : List Branch → List Statement → Env σ → Option Outcome
  | [], [], e => some ⟨[], e.last⟩
  | _ :: _, [], _ => none
  | _, .other :: _, _ => none
  | inside, .skip :: rest, e => b.execute inside rest e
  | inside, .commands tokens :: rest, e =>
    if runs inside then
      let e := b.exec tokens e
      Outcome.after [(tokens, e.last)] <$> b.execute inside rest e
    else b.execute inside rest e
  | inside, .ifThen tokens :: rest, e =>
    if runs inside then
      let e := b.exec tokens e
      Outcome.after [(tokens, e.last)] <$>
        b.execute ((if e.last = 0 then .first else .firstPassed) :: inside) rest e
    else b.execute (.nested :: inside) rest e
  | .first :: inside, .otherwise :: rest, e => b.execute (.secondPassed :: inside) rest e
  | .firstPassed :: inside, .otherwise :: rest, e => b.execute (.second :: inside) rest e
  | .nested :: inside, .otherwise :: rest, e => b.execute (.nested :: inside) rest e
  | _, .otherwise :: _, _ => none
  | [], .fi :: _, _ => none
  -- no part was run, and then the status is zero
  | .firstPassed :: inside, .fi :: rest, e => b.execute inside rest { e with last := 0 }
  | _ :: inside, .fi :: rest, e => b.execute inside rest e
  | inside, .capture :: rest, e =>
    if runs inside then b.execute inside rest { e with last := 0, captured := e.last }
    else b.execute inside rest e
  | inside, .leave [] code :: rest, e =>
    if runs inside then some ⟨[], code.value e⟩ else b.execute inside rest e
  | inside, .leave tokens code :: rest, e =>
    if runs inside then some ⟨[(tokens, (b.exec tokens e).last)], code.value (b.exec tokens e)⟩
    else b.execute inside rest e

/-- What commands leave, one after the other. -/
def through (b : Behaviour σ) (list : List (List Token)) (e : Env σ) : Env σ :=
  list.foldl (fun e tokens => b.exec tokens e) e

/-- Commands with the status of each, one after the other. -/
def record (b : Behaviour σ) : List (List Token) → Env σ → List (List Token × Status)
  | [], _ => []
  | tokens :: list, e => (tokens, (b.exec tokens e).last) :: b.record list (b.exec tokens e)

end Behaviour

/-! ### Lines of commands in a script -/

/-- Whether a statement is a line of commands, or nothing. -/
def Statement.isPlain : Statement → Bool
  | skip | commands _ => true
  | _ => false

/-- The commands of plain statements. -/
def commandsOf (script : List Statement) : List (List Token) :=
  script.filterMap fun
    | .commands tokens => some tokens
    | _ => none

section Plain

variable {σ : Type} {b : Behaviour σ} {inside : List Branch} {plain rest : List Statement}
  {tokens : List Token} {list : List (List Token)} {code : Code} {e : Env σ}

theorem Outcome.after_map (first second : List (List Token × Status)) (o : Option Outcome) :
    after first <$> (after second <$> o) = after (first ++ second) <$> o := by
  cases o with
  | none => rfl
  | some o => exact congrArg some (by rw [after, after, after, List.append_assoc])

theorem Behaviour.execute_commands (hruns : runs inside = true) :
    b.execute inside (.commands tokens :: rest) e =
      Outcome.after [(tokens, (b.exec tokens e).last)] <$>
        b.execute inside rest (b.exec tokens e) := by
  rw [execute, if_pos hruns]

theorem Behaviour.execute_ifThen (hruns : runs inside = true) :
    b.execute inside (.ifThen tokens :: rest) e =
      Outcome.after [(tokens, (b.exec tokens e).last)] <$>
        b.execute ((if (b.exec tokens e).last = 0 then .first else .firstPassed) :: inside) rest
          (b.exec tokens e) := by
  rw [execute, if_pos hruns]

theorem Behaviour.execute_capture (hruns : runs inside = true) :
    b.execute inside (.capture :: rest) e =
      b.execute inside rest { e with last := 0, captured := e.last } := by
  rw [execute, if_pos hruns]

theorem Behaviour.execute_exit (hruns : runs inside = true) :
    b.execute inside (.leave [] code :: rest) e = some ⟨[], code.value e⟩ := by
  rw [execute, if_pos hruns]

theorem Behaviour.execute_leave (hruns : runs inside = true) (htokens : tokens ≠ []) :
    b.execute inside (.leave tokens code :: rest) e =
      some ⟨[(tokens, (b.exec tokens e).last)], code.value (b.exec tokens e)⟩ := by
  rw [execute, if_pos hruns]
  exact htokens

theorem Behaviour.map_fst_record : (b.record list e).map Prod.fst = list := by
  induction list generalizing e with
  | nil => rfl
  | cons tokens list ih => rw [record, List.map_cons, ih]

/-- No command changes the variable. -/
theorem Behaviour.captured_through : (b.through list e).captured = e.captured := by
  induction list generalizing e with
  | nil => rfl
  | cons tokens list ih =>
    rw [through, List.foldl_cons]
    exact ih

/-- Lines of commands that are run. -/
theorem Behaviour.execute_plain (hruns : runs inside = true)
    (hplain : ∀ s ∈ plain, s.isPlain = true) :
    b.execute inside (plain ++ rest) e = Outcome.after (b.record (commandsOf plain) e) <$>
      b.execute inside rest (b.through (commandsOf plain) e) := by
  induction plain generalizing e with
  | nil => exact Option.map_id'.symm
  | cons s plain ih =>
    obtain ⟨hs, hrest⟩ := List.forall_mem_cons.mp hplain
    cases s with
    | skip =>
      rw [List.cons_append, execute]
      exact ih hrest
    | commands tokens =>
      rw [List.cons_append, execute_commands hruns, ih hrest, Outcome.after_map]
      rfl
    | ifThen | otherwise | fi | capture | leave | other => cases hs

/-- Lines of commands that are passed over. -/
theorem Behaviour.execute_passed (hruns : runs inside = false)
    (hplain : ∀ s ∈ plain, s.isPlain = true) :
    b.execute inside (plain ++ rest) e = b.execute inside rest e := by
  induction plain generalizing e with
  | nil => rfl
  | cons s plain ih =>
    obtain ⟨hs, hrest⟩ := List.forall_mem_cons.mp hplain
    cases s with
    | skip =>
      rw [List.cons_append, execute]
      exact ih hrest
    | commands tokens =>
      rw [List.cons_append, execute, if_neg (by rw [hruns]; exact Bool.false_ne_true)]
      exact ih hrest
    | ifThen | otherwise | fi | capture | leave | other => cases hs

end Plain

end Shell
