import PzServer.Collections.Indexes
import PzServer.Regex.Expression
import PzServer.Updater.Vdf
import PzServer.Watchdog.Text

/-!
# The start wrapper

The start script of the game ends with `exit 0`, so a game that was killed looks like one that was
stopped. The updater writes a wrapper for it: the script again, with the status of the game kept in
a variable and given to the last `exit`. The script is not parsed. Six lines are found by patterns,
each of which has to match just once, and they have to be in order.

## Main definitions

* `statusPreservingWrapper` — `LauncherValidator._status_preserving_wrapper`
* `Lifecycle` — what is accepted

## Main results

* `statusPreservingWrapper_eq_ok`
-/

namespace PzServer

namespace Launcher

open Collections (indexes)

open Regex (Expression)

open Regex.Expression (sequence plus word)

open Updater (Err malformed readText universalNewlines universalNewlines_cons
  universalNewlines_crlf universalNewlines_eq_self universalNewlines_keeps universalNewlines_return)

open Watchdog (Text)

open Watchdog.Text (isSpace isLineBreak strip)

/-! ### Lines -/

/-- `str.splitlines(keepends=True)`, with the line that is being read in reverse. -/
def keptLinesFrom : Text → Text → List Text
  | [], [] => []
  | line, [] => [line.reverse]
  | line, '\r' :: '\n' :: rest => ('\n' :: '\r' :: line).reverse :: keptLinesFrom [] rest
  | line, c :: rest =>
    if isLineBreak c then (c :: line).reverse :: keptLinesFrom [] rest
    else keptLinesFrom (c :: line) rest

/-- `str.splitlines(keepends=True)` -/
def keptLines (t : Text) : List Text := keptLinesFrom [] t

/-- `line[: len(line) - len(line.lstrip())]` -/
def indentOf (line : Text) : Text := line.takeWhile isSpace

/-- `"\r\n" if line.endswith("\r\n") else "\n"` -/
def newlineOf (line : Text) : Text :=
  if "\r\n".toList.isSuffixOf line then "\r\n".toList else "\n".toList

section Turned

variable {line t : Text} {c : Char}

theorem keptLinesFrom_break (h : isLineBreak c = true) (hc : c ≠ '\r') (line t : Text) :
    keptLinesFrom line (c :: t) = (c :: line).reverse :: keptLinesFrom [] t := by
  rw [keptLinesFrom.eq_4 _ _ _ (fun _ hr _ => hc hr), if_pos h]

theorem keptLinesFrom_return (h : t.head? ≠ some '\n') (line : Text) :
    keptLinesFrom line ('\r' :: t) = ('\r' :: line).reverse :: keptLinesFrom [] t := by
  rw [keptLinesFrom.eq_4 _ _ _ (fun _ _ ht => h (by rw [ht]; rfl)), if_pos (by decide)]

theorem keptLinesFrom_cons (h : isLineBreak c = false) (line t : Text) :
    keptLinesFrom line (c :: t) = keptLinesFrom (c :: line) t := by
  rw [keptLinesFrom.eq_4 _ _ _ (fun _ hr _ => by rw [hr] at h; cases h),
    if_neg (by rw [h]; exact Bool.false_ne_true)]

theorem keptLinesFrom_crlf (line t : Text) :
    keptLinesFrom line ('\r' :: '\n' :: t) =
      ('\n' :: '\r' :: line).reverse :: keptLinesFrom [] t := by
  rw [keptLinesFrom]

theorem keptLinesFrom_nil (h : line ≠ []) : keptLinesFrom line [] = [line.reverse] := by
  rw [keptLinesFrom]
  exact h

theorem flatten_keptLinesFrom (line t : Text) :
    (keptLinesFrom line t).flatten = line.reverse ++ t := by
  induction line, t using keptLinesFrom.induct with
  | case1 => rfl
  | case2 line hne =>
    rw [keptLinesFrom_nil hne, List.flatten_singleton, List.append_nil]
  | case3 line t ih =>
    rw [keptLinesFrom_crlf, List.flatten_cons, ih]
    simp
  | case4 line c t hcrlf hbreak ih =>
    rw [keptLinesFrom.eq_4 _ _ _ hcrlf, if_pos hbreak, List.flatten_cons, ih]
    simp
  | case5 line c t hcrlf hbreak ih =>
    rw [keptLinesFrom.eq_4 _ _ _ hcrlf, if_neg hbreak, ih]
    simp

/-- The lines are all of the text. -/
theorem flatten_keptLines (t : Text) : (keptLines t).flatten = t := flatten_keptLinesFrom [] t

/-- The lines of a text with its line ends turned are its lines, turned one by one. -/
theorem keptLinesFrom_universalNewlines (hline : ∀ c ∈ line, isLineBreak c = false) :
    keptLinesFrom line (universalNewlines t) = (keptLinesFrom line t).map universalNewlines := by
  have hreturn : ∀ line : Text, (∀ c ∈ line, isLineBreak c = false) →
      ∀ c ∈ line.reverse, c ≠ '\r' := by
    rintro line hline c hc rfl
    have h := hline _ (List.mem_reverse.mp hc)
    cases h
  induction t using Updater.universalNewlines.induct generalizing line with
  | case1 t ih =>
    rw [universalNewlines_crlf, keptLinesFrom_break (by decide) (by decide), keptLinesFrom_crlf,
      List.map_cons, ih fun c hc => by cases hc]
    congr 1
    rw [List.reverse_cons, List.reverse_cons, List.reverse_cons, List.append_assoc,
      universalNewlines_keeps (hreturn line hline)]
    rfl
  | case2 t ht ih =>
    have ht' : t.head? ≠ some '\n' := by
      cases t with
      | nil => exact fun h => by cases h
      | cons d t => exact fun h => ht t (congrArg (· :: t) (Option.some.inj h))
    rw [universalNewlines_return ht', keptLinesFrom_break (by decide) (by decide),
      keptLinesFrom_return ht', List.map_cons, ih fun c hc => by cases hc]
    congr 1
    rw [List.reverse_cons, List.reverse_cons, universalNewlines_keeps (hreturn line hline)]
    rfl
  | case3 c t hcrlf hc ih =>
    have hc' : c ≠ '\r' := fun h => hc h
    rw [universalNewlines_cons hc']
    by_cases hbreak : isLineBreak c = true
    · rw [keptLinesFrom_break hbreak hc', keptLinesFrom_break hbreak hc', List.map_cons,
        ih fun c hc => by cases hc]
      congr 1
      rw [List.reverse_cons, universalNewlines_keeps (hreturn line hline),
        universalNewlines_cons hc']
      rfl
    · have hbreak' : isLineBreak c = false := Bool.eq_false_iff.mpr hbreak
      rw [keptLinesFrom_cons hbreak', keptLinesFrom_cons hbreak']
      exact ih (List.forall_mem_cons.mpr ⟨hbreak', hline⟩)
  | case4 =>
    cases line with
    | nil => rfl
    | cons c line =>
      rw [universalNewlines, keptLinesFrom_nil (List.cons_ne_nil _ _), List.map_singleton,
        universalNewlines_eq_self (hreturn _ hline)]

theorem keptLines_universalNewlines (t : Text) :
    keptLines (universalNewlines t) = (keptLines t).map universalNewlines :=
  keptLinesFrom_universalNewlines fun c hc => by cases hc

end Turned

/-! ### The six lines -/

/-- The lines of the script that matter. -/
inductive Kind where
  | condition
  | invocation
  | unsupported
  | terminalExit
  | elseLine
  | fiLine
  deriving DecidableEq, Repr

def Kind.all : List Kind :=
  [.condition, .invocation, .unsupported, .terminalExit, .elseLine, .fiLine]

theorem Kind.mem_all (k : Kind) : k ∈ Kind.all := by
  cases k <;> decide

/-- `.*` -/
def anything : Expression Char := .star (.one (· ≠ '\n'))

/-- `\s` -/
def space : Expression Char := .one isSpace

/-- `if\s+.*jre64/bin/java.*-version.*;\s*then` -/
def conditionPattern : Expression Char :=
  sequence [word "if".toList, plus space, anything, word "jre64/bin/java".toList, anything,
    word "-version".toList, anything, word ";".toList, .star space, word "then".toList]

/-- `[A-Za-z_]` -/
def isNameStart (c : Char) : Bool := c.isUpper || c.isLower || c = '_'

/-- `(?:[A-Za-z_][A-Za-z0-9_]*=(?:"[^"]*"|\'[^\']*\'|\S+)\s+)*` -/
def assignments : Expression Char :=
  .star (sequence [.one isNameStart, .star (.one fun c => isNameStart c || c.isDigit),
    word "=".toList,
    .alt (sequence [word "\"".toList, .star (.one (· ≠ '"')), word "\"".toList])
      (.alt (sequence [word "'".toList, .star (.one (· ≠ '\'')), word "'".toList])
        (plus (.one fun c => !isSpace c))),
    plus space])

/-- The assignments, and then `\./ProjectZomboid64\s+"\$@"` -/
def invocationPattern : Expression Char :=
  sequence [assignments, word "./ProjectZomboid64".toList, plus space, word "\"$@\"".toList]

/-- `echo\s+(["'])Only 64bit is supported\1` -/
def unsupportedPattern : Expression Char :=
  let quoted (quote : Char) :=
    sequence [word "echo".toList, plus space, word [quote], word "Only 64bit is supported".toList,
      word [quote]]
  .alt (quoted '"') (quoted '\'')

/-- `exit\s+0` -/
def terminalExitPattern : Expression Char :=
  sequence [word "exit".toList, plus space, word "0".toList]

/-- Whether a line is one of a kind, without the spaces around it. -/
def Kind.recognises : Kind → Text → Bool
  | condition, line => conditionPattern.fullmatch line
  | invocation, line => invocationPattern.fullmatch line
  | unsupported, line => unsupportedPattern.fullmatch line
  | terminalExit, line => terminalExitPattern.fullmatch line
  | elseLine, line => line = "else".toList
  | fiLine, line => line = "fi".toList

/-! ### The wrapper -/

/-- The order of the lines. -/
def Ordered (place : Kind → ℕ) : Prop :=
  place .condition < place .invocation ∧ place .invocation < place .elseLine ∧
    place .elseLine < place .unsupported ∧ place .unsupported < place .fiLine ∧
    place .fiLine < place .terminalExit

instance (place : Kind → ℕ) : Decidable (Ordered place) := by
  unfold Ordered
  infer_instance

/-- `line and not line.startswith("#")` -/
def isCommand (line : Text) : Bool := line ≠ [] && line.head? ≠ some '#'

/-- The places of the six lines, and the checks of `_status_preserving_wrapper`. -/
def lifecycle (stripped : List Text) : Except Err (Kind → ℕ) :=
  if Kind.all.any fun k => (indexes k.recognises stripped).length ≠ 1 then
    malformed "start-server.sh lifecycle structure is ambiguous or incompatible"
  else
    let place := fun k : Kind => (indexes k.recognises stripped).headD 0
    if ¬ Ordered place then
      malformed "start-server.sh lifecycle commands are in an incompatible order"
    else if (stripped.drop (place .terminalExit + 1)).filter isCommand ≠ [] then
      malformed "start-server.sh has commands after its terminal exit"
    else .ok place

/-- `f'{indent}echo "Only 64bit is supported" >&2; exit 1{newline}'` -/
def unsupportedLine (line : Text) : Text :=
  indentOf line ++ "echo \"Only 64bit is supported\" >&2; exit 1".toList ++ newlineOf line

/-- `f'{exit_indent}exit "${{PZ_EXIT_CODE}}"{exit_newline}'` -/
def exitLine (line : Text) : Text :=
  indentOf line ++ "exit \"$\x7bPZ_EXIT_CODE\x7d\"".toList ++ newlineOf line

/-- `f"{invocation_indent}PZ_EXIT_CODE=$?{invocation_newline}"` -/
def captureLine (line : Text) : Text :=
  indentOf line ++ "PZ_EXIT_CODE=$?".toList ++ newlineOf line

/-- The lines, with two of them replaced and one inserted. -/
def edit {α : Type} (place : Kind → ℕ) (unsupported exit capture : α) (lines : List α) : List α :=
  ((lines.set (place .unsupported) unsupported).set (place .terminalExit) exit).insertIdx
    (place .invocation + 1) capture

/-- The lines of the wrapper. -/
def rewrite (lines : List Text) (place : Kind → ℕ) : List Text :=
  let line := fun k => lines.getD (place k) []
  edit place (unsupportedLine (line .unsupported)) (exitLine (line .terminalExit))
    (captureLine (line .invocation)) lines

/-- The lines of the file; without one, reading it is an `OSError`. -/
def readLines : Option ByteArray → Except Err (List Text)
  | some content => keptLines <$> readText content
  | none => malformed "Could not read start-server.sh"

/-- `LauncherValidator._status_preserving_wrapper` -/
def statusPreservingWrapper (source : Option ByteArray) : Except Err Text := do
  let lines ← readLines source
  let place ← lifecycle (lines.map strip)
  return (rewrite lines place).flatten

/-! ### What is accepted -/

section Accepted

variable {stripped : List Text} {place : Kind → ℕ}

/-- There is one line of each kind, in order, and no command after the last one. -/
structure Lifecycle (stripped : List Text) (place : Kind → ℕ) : Prop where
  only (k : Kind) : indexes k.recognises stripped = [place k]
  ordered : Ordered place
  final : ∀ line ∈ stripped.drop (place .terminalExit + 1), isCommand line = false

theorem lifecycle_eq_ok : lifecycle stripped = .ok place ↔ Lifecycle stripped place := by
  by_cases hone : Kind.all.any (fun k => (indexes k.recognises stripped).length ≠ 1) = true
  · rw [lifecycle, if_pos hone]
    refine ⟨fun h => (by cases h), fun h => ?_⟩
    obtain ⟨k, -, hk⟩ := List.any_eq_true.mp hone
    rw [h.only k] at hk
    cases hk
  · have honly : ∀ k, indexes (Kind.recognises k) stripped =
        [(indexes k.recognises stripped).headD 0] := by
      intro k
      rw [Bool.not_eq_true, List.any_eq_false] at hone
      have hlength := hone k (Kind.mem_all k)
      rw [decide_eq_true_eq, not_not, List.length_eq_one_iff] at hlength
      obtain ⟨i, hi⟩ := hlength
      rw [hi]
      rfl
    have hplace (h : Lifecycle stripped place) :
        place = fun k : Kind => (indexes k.recognises stripped).headD 0 := by
      funext k
      rw [h.only k]
      rfl
    rw [lifecycle, if_neg hone]
    dsimp only
    by_cases hord : Ordered fun k : Kind => (indexes k.recognises stripped).headD 0
    · rw [if_neg (not_not.mpr hord)]
      by_cases hfinal : (stripped.drop ((indexes Kind.terminalExit.recognises stripped).headD 0 +
          1)).filter isCommand = []
      · rw [if_neg (not_not.mpr hfinal)]
        constructor
        · intro h
          obtain rfl := Except.ok.inj h
          refine ⟨honly, hord, fun line hline => ?_⟩
          exact Bool.eq_false_iff.mpr (List.filter_eq_nil_iff.mp hfinal line hline)
        · intro h
          rw [hplace h]
      · rw [if_pos hfinal]
        refine ⟨fun h => (by cases h), fun h => absurd ?_ hfinal⟩
        rw [List.filter_eq_nil_iff, h.only]
        exact fun line hline => Bool.eq_false_iff.mp (h.final line hline)
    · rw [if_pos hord]
      refine ⟨fun h => (by cases h), fun h => absurd ?_ hord⟩
      rw [← hplace h]
      exact h.ordered

theorem isUpdateError_of_lifecycle {e : Err} (he : lifecycle stripped = .error e) :
    e.isUpdateError = true := by
  rw [lifecycle] at he
  dsimp only at he
  split at he
  · cases he
    rfl
  · split at he
    · cases he
      rfl
    · split at he
      · cases he
        rfl
      · cases he

end Accepted

section Wrapper

variable {content : ByteArray} {out : Text}

/-- What is accepted, and what is written then. -/
theorem statusPreservingWrapper_eq_ok : statusPreservingWrapper (some content) = .ok out ↔
    ∃ t place, readText content = .ok t ∧ Lifecycle ((keptLines t).map strip) place ∧
      out = (rewrite (keptLines t) place).flatten := by
  rw [statusPreservingWrapper, readLines]
  cases hread : readText content with
  | error e =>
    refine ⟨fun h => (by cases h), ?_⟩
    rintro ⟨t, place, h, -⟩
    cases h
  | ok t =>
    change (lifecycle ((keptLines t).map strip)).bind (fun place =>
      .ok (rewrite (keptLines t) place).flatten) = _ ↔ _
    constructor
    · intro h
      cases hplace : lifecycle ((keptLines t).map strip) with
      | error e =>
        rw [hplace] at h
        cases h
      | ok place =>
        rw [hplace] at h
        exact ⟨t, place, rfl, lifecycle_eq_ok.mp hplace, (Except.ok.inj h).symm⟩
    · rintro ⟨t', place, ht, hplace, rfl⟩
      obtain rfl := Except.ok.inj ht
      rw [lifecycle_eq_ok.mpr hplace]
      rfl

/-- A text that is not accepted is an `UpdateError`. -/
theorem statusPreservingWrapper_raises {t : Text} (hread : readText content = .ok t) :
    (∃ e, statusPreservingWrapper (some content) = .error e ∧ e.isUpdateError = true) ↔
      ∀ place, ¬ Lifecycle ((keptLines t).map strip) place := by
  have hunfold : statusPreservingWrapper (some content) =
      (lifecycle ((keptLines t).map strip)).bind fun place =>
        .ok (rewrite (keptLines t) place).flatten := by
    rw [statusPreservingWrapper, readLines, hread]
    rfl
  rw [hunfold]
  cases hplace : lifecycle ((keptLines t).map strip) with
  | error e =>
    refine ⟨fun _ place h => ?_, fun _ => ⟨e, rfl, isUpdateError_of_lifecycle hplace⟩⟩
    rw [lifecycle_eq_ok.mpr h] at hplace
    cases hplace
  | ok place =>
    refine ⟨fun h => ?_, fun h => absurd (lifecycle_eq_ok.mp hplace) (h place)⟩
    obtain ⟨e, he, -⟩ := h
    cases he

end Wrapper

end Launcher

end PzServer
