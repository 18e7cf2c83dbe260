import PzServer.Launcher.Sections
import PzServer.Shell.Script

/-!
# What the wrapper preserves

The wrapper is the start script with the status of the game put aside and given to the last `exit`.
Whatever the commands do, it ends with the status of the game where the script found its Java
runtime, and with status 1 where it did not, and up to there it runs the commands of the script.

## Main results

* `IsLifecycle.preserved` — running the script and the wrapper
-/

namespace PzServer

namespace Launcher

open Collections (lines lines_append lines_line)

open Shell (Behaviour Env Outcome Statement Status Token commandsOf isAssignment isBlank lex_append)

open Updater (decodeText decodeText_written universalNewlines universalNewlines_eq_self
  universalNewlines_ne_return)

open Watchdog (Text)

open Watchdog.Text (strip)

/-! ### Scripts -/

/-- A line that runs the game: assignments, and then the command. -/
def RunsGame (tokens : List Token) : Prop :=
  ∃ assigned : List (List Char), (∀ w ∈ assigned, isAssignment w = true) ∧
    tokens = assigned.map .word ++ [.word "./ProjectZomboid64".toList, .word "\"$@\"".toList]

/-- The six lines are what they are taken for. -/
structure IsLifecycle (s : Sections Statement) (probe game notice : List Token) : Prop where
  condition : s.condition = .ifThen probe
  invocation : s.invocation = .commands game
  runsGame : RunsGame game
  elseLine : s.elseLine = .otherwise
  unsupported : s.unsupported = .commands notice
  fiLine : s.fiLine = .fi
  terminalExit : s.terminalExit = .leave [] (.number 0)

/-- The other lines that are read are commands, comments or blank. -/
structure IsPlain (s : Sections Statement) : Prop where
  before : ∀ statement ∈ s.before, statement.isPlain = true
  setup : ∀ statement ∈ s.setup, statement.isPlain = true
  cleanup : ∀ statement ∈ s.cleanup, statement.isPlain = true
  warning : ∀ statement ∈ s.warning, statement.isPlain = true
  closing : ∀ statement ∈ s.closing, statement.isPlain = true
  ending : ∀ statement ∈ s.ending, statement.isPlain = true

/-- `echo "Only 64bit is supported" >&2` -/
def alert : List Token :=
  [.word "echo".toList, .word "\"Only 64bit is supported\"".toList, .operator '>' false,
    .operator '&' true, .word "2".toList]

/-- The statements of the wrapper. -/
def wrap (s : Sections Statement) : Sections Statement :=
  s.wrapped (.leave alert (.number (.of 1))) (.leave [] .captured) .capture

/-- What a run of the script and one of its wrapper have in common. -/
inductive Preserved (s : Sections Statement) (probe game notice : List Token)
    (original wrapper : Outcome) : Prop
  /-- There is a runtime: the same commands, and the status of the game. -/
  | succeeded {start middle rest : List (List Token × Status)} {status : Status}
      (htrace : wrapper.trace = start ++ (probe, 0) :: (middle ++ (game, status) :: rest))
      (hstart : start.map Prod.fst = commandsOf s.before)
      (hmiddle : middle.map Prod.fst = commandsOf s.setup)
      (hsame : wrapper.trace.map Prod.fst = original.trace.map Prod.fst)
      (hstatus : wrapper.status = status)
  /-- There is none: the same commands up to the message, and status 1. -/
  | failed {start middle rest : List (List Token × Status)} {failure shown shown' : Status}
      (hfailure : failure ≠ 0)
      (htrace : wrapper.trace = start ++ (probe, failure) :: (middle ++ [(alert, shown)]))
      (hstart : start.map Prod.fst = commandsOf s.before)
      (hmiddle : middle.map Prod.fst = commandsOf s.warning)
      (hsame : original.trace = start ++ (probe, failure) :: (middle ++ (notice, shown') :: rest))
      (hstatus : wrapper.status = 1)

section Runs

variable {σ : Type} {b : Behaviour σ} {s : Sections Statement} {probe game notice : List Token}
  {code : Shell.Code} {e : Env σ}

/-- Up to the conditional. -/
theorem execute_join (hbefore : ∀ statement ∈ s.before, statement.isPlain = true)
    (hcondition : s.condition = .ifThen probe) :
    b.execute [] s.join e =
      Outcome.after (b.record (commandsOf s.before) e ++
        [(probe, (b.exec probe (b.through (commandsOf s.before) e)).last)]) <$>
      b.execute [if (b.exec probe (b.through (commandsOf s.before) e)).last = 0 then .first
          else .firstPassed] (s.later .condition)
        (b.exec probe (b.through (commandsOf s.before) e)) := by
  rw [s.join_eq .condition, Sections.earlier, Sections.line, hcondition,
    Behaviour.execute_plain rfl hbefore, Behaviour.execute_ifThen rfl, Outcome.after_map]

/-- The first part of the conditional, up to the game. -/
theorem execute_first {rest : List Statement} (hs : IsPlain s) :
    b.execute [.first] (s.setup ++ .commands game :: rest) e =
      Outcome.after (b.record (commandsOf s.setup) e ++
        [(game, (b.exec game (b.through (commandsOf s.setup) e)).last)]) <$>
      b.execute [.first] rest (b.exec game (b.through (commandsOf s.setup) e)) := by
  rw [Behaviour.execute_plain rfl hs.setup, Behaviour.execute_commands rfl, Outcome.after_map]

/-- After the conditional. -/
theorem execute_ending (hs : IsPlain s) :
    b.execute [] (s.ending ++ .leave [] code :: s.after) e =
      some ⟨b.record (commandsOf s.ending) e,
        code.value (b.through (commandsOf s.ending) e)⟩ := by
  rw [Behaviour.execute_plain rfl hs.ending, Behaviour.execute_exit rfl]
  exact congrArg some (by rw [Outcome.after, List.append_nil])

/-- From the game to the end, where the second part of the conditional is passed over. -/
theorem execute_rest {unsupported : Statement} (hs : IsPlain s)
    (hunsupported : unsupported = .commands notice ∨ unsupported = .leave alert (.number 1)) :
    b.execute [.first] (s.cleanup ++ .otherwise :: (s.warning ++ unsupported :: (s.closing ++
        .fi :: (s.ending ++ .leave [] code :: s.after)))) e =
      some ⟨b.record (commandsOf s.cleanup) e ++
          b.record (commandsOf s.ending) (b.through (commandsOf s.cleanup) e),
        code.value (b.through (commandsOf s.ending) (b.through (commandsOf s.cleanup) e))⟩ := by
  have hclosing (e : Env σ) : b.execute [.secondPassed] (s.closing ++ .fi :: (s.ending ++
      .leave [] code :: s.after)) e = b.execute [] (s.ending ++ .leave [] code :: s.after) e :=
    Behaviour.execute_passed rfl hs.closing
  have hwarning (e : Env σ) : b.execute [.secondPassed] (s.warning ++ unsupported ::
      (s.closing ++ .fi :: (s.ending ++ .leave [] code :: s.after))) e =
        b.execute [] (s.ending ++ .leave [] code :: s.after) e := by
    rw [Behaviour.execute_passed rfl hs.warning]
    rcases hunsupported with rfl | rfl
    · exact hclosing e
    · exact hclosing e
  rw [Behaviour.execute_plain rfl hs.cleanup]
  change Outcome.after _ <$> b.execute [.secondPassed] _ _ = _
  rw [hwarning, execute_ending hs]
  rfl

/-- The second part of the conditional and what is after it, in the script. -/
theorem execute_second (hs : IsPlain s) (e : Env σ) : ∃ shown rest status,
    b.execute [.second] (s.warning ++ .commands notice :: (s.closing ++ .fi :: (s.ending ++
        .leave [] code :: s.after))) e =
      some ⟨b.record (commandsOf s.warning) e ++ (notice, shown) :: rest, status⟩ := by
  have hclosing (e : Env σ) : ∃ o, b.execute [.second] (s.closing ++ .fi :: (s.ending ++
      .leave [] code :: s.after)) e = some o := by
    rw [Behaviour.execute_plain rfl hs.closing]
    change ∃ o, Outcome.after _ <$> b.execute [] _ _ = some o
    rw [execute_ending hs]
    exact ⟨_, rfl⟩
  obtain ⟨o, ho⟩ := hclosing (b.exec notice (b.through (commandsOf s.warning) e))
  refine ⟨(b.exec notice (b.through (commandsOf s.warning) e)).last, o.trace, o.status, ?_⟩
  rw [Behaviour.execute_plain rfl hs.warning, Behaviour.execute_commands rfl, ho]
  rfl

/-- The second part of the conditional in the wrapper, which ends there. -/
theorem execute_alert {rest : List Statement} (hs : IsPlain s) (e : Env σ) : ∃ shown,
    b.execute [.second] (s.warning ++ .leave alert (.number 1) :: rest) e =
      some ⟨b.record (commandsOf s.warning) e ++ [(alert, shown)], 1⟩ := by
  refine ⟨(b.exec alert (b.through (commandsOf s.warning) e)).last, ?_⟩
  rw [Behaviour.execute_plain rfl hs.warning, Behaviour.execute_leave rfl (by decide)]
  rfl

/-- The first part of the conditional is passed over, with or without the line that is inserted. -/
theorem execute_firstPassed {inserted rest : List Statement} (hs : IsPlain s)
    (hinserted : inserted = [] ∨ inserted = [.capture]) :
    b.execute [.firstPassed] (s.setup ++ .commands game :: (inserted ++ (s.cleanup ++
      .otherwise :: rest))) e = b.execute [.second] rest e := by
  have hcleanup : b.execute [.firstPassed] (s.cleanup ++ .otherwise :: rest) e =
      b.execute [.second] rest e := Behaviour.execute_passed rfl hs.cleanup
  rw [Behaviour.execute_passed rfl hs.setup]
  rcases hinserted with rfl | rfl
  · exact hcleanup
  · exact hcleanup

end Runs

/-- **The wrapper preserves the script,** whatever the commands do. -/
theorem IsLifecycle.preserved {σ : Type} {s : Sections Statement} {probe game notice : List Token}
    (h : IsLifecycle s probe game notice) (hs : IsPlain s) (b : Behaviour σ) (e : Env σ) :
    ∃ original wrapper, b.execute [] s.join e = some original ∧
      b.execute [] (wrap s).join e = some wrapper ∧
      Preserved s probe game notice original wrapper := by
  have horiginal : s.later .condition = s.setup ++ .commands game :: (s.cleanup ++ .otherwise ::
      (s.warning ++ .commands notice :: (s.closing ++ .fi :: (s.ending ++
        .leave [] (.number 0) :: s.after)))) := by
    rw [Sections.later, h.invocation, h.elseLine, h.unsupported, h.fiLine, h.terminalExit]
  have hwrapper : (wrap s).later .condition = s.setup ++ .commands game :: ([.capture] ++
      (s.cleanup ++ .otherwise :: (s.warning ++ .leave alert (.number 1) :: (s.closing ++ .fi ::
        (s.ending ++ .leave [] .captured :: s.after))))) := by
    rw [Sections.later, wrap, Sections.wrapped, h.invocation, h.elseLine, h.fiLine]
    rfl
  have hbefore : ∀ statement ∈ (wrap s).before, statement.isPlain = true := hs.before
  rw [execute_join hs.before h.condition, execute_join hbefore h.condition, horiginal, hwrapper]
  change ∃ original wrapper, _ ∧ Outcome.after (b.record (commandsOf s.before) e ++
    [(probe, (b.exec probe (b.through (commandsOf s.before) e)).last)]) <$>
      b.execute [if (b.exec probe (b.through (commandsOf s.before) e)).last = 0 then _ else _] _
        (b.exec probe (b.through (commandsOf s.before) e)) = _ ∧ _
  have hstart : (b.record (commandsOf s.before) e).map Prod.fst = commandsOf s.before :=
    Behaviour.map_fst_record
  generalize b.record (commandsOf s.before) e = start at hstart
  generalize b.exec probe (b.through (commandsOf s.before) e) = probed
  by_cases hzero : probed.last = 0
  · rw [if_pos hzero, execute_first hs, execute_first hs, List.singleton_append,
      Behaviour.execute_capture rfl, execute_rest hs (.inl rfl),
      @execute_rest σ b s notice _ _ _ hs (.inr rfl), hzero]
    have hmiddle : (b.record (commandsOf s.setup) probed).map Prod.fst = commandsOf s.setup :=
      Behaviour.map_fst_record
    generalize b.record (commandsOf s.setup) probed = middle at hmiddle
    generalize b.exec game (b.through (commandsOf s.setup) probed) = ran
    obtain ⟨kept, hkept⟩ : ∃ kept : Env σ, kept = { ran with last := 0, captured := ran.last } :=
      ⟨_, rfl⟩
    rw [← hkept]
    refine ⟨_, _, rfl, rfl, @Preserved.succeeded _ _ _ _ _ _ start middle
      (b.record (commandsOf s.cleanup) kept ++
        b.record (commandsOf s.ending) (b.through (commandsOf s.cleanup) kept)) ran.last ?_ hstart
      hmiddle ?_ ?_⟩
    · simp only [Outcome.after, List.append_assoc, List.singleton_append]
    · simp only [Outcome.after, List.map_append, Behaviour.map_fst_record]
    · -- the commands after the game do not touch the variable
      change (b.through _ (b.through _ kept)).captured = _
      rw [Behaviour.captured_through, Behaviour.captured_through, hkept]
  · have hmiddle : (b.record (commandsOf s.warning) probed).map Prod.fst = commandsOf s.warning :=
      Behaviour.map_fst_record
    obtain ⟨shown', rest, status, hsecond⟩ := @execute_second σ b s notice (.number 0) hs probed
    obtain ⟨shown, halert⟩ := @execute_alert σ b s (s.closing ++ .fi :: (s.ending ++
      .leave [] .captured :: s.after)) hs probed
    have hpassed : b.execute [.firstPassed] (s.setup ++ .commands game :: (s.cleanup ++
        .otherwise :: (s.warning ++ .commands notice :: (s.closing ++ .fi :: (s.ending ++
          .leave [] (.number 0) :: s.after))))) probed = some _ :=
      (@execute_firstPassed σ b s game probed [] _ hs (.inl rfl)).trans hsecond
    rw [if_neg hzero, hpassed, execute_firstPassed hs (.inr rfl), halert]
    refine ⟨_, _, rfl, rfl, @Preserved.failed _ _ _ _ _ _ start
      (b.record (commandsOf s.warning) probed) rest probed.last shown shown' hzero ?_ hstart
      hmiddle ?_ rfl⟩
    · simp only [Outcome.after, List.append_assoc, List.singleton_append]
    · simp only [Outcome.after, List.append_assoc, List.singleton_append]

/-! ### Texts -/

/-- The statements of a text to the shell. -/
def scriptOf (t : Text) : List Statement := Shell.statements "PZ_EXIT_CODE".toList t

/-- Lines for the shell too: the text ends with a line feed, if it is not empty, and is read as
these statements. -/
def IsPiece (t : Text) (statements : List Statement) : Prop :=
  (t = [] ∨ t.getLast? = some '\n') ∧ scriptOf t = statements

/-- The sections of a text are sections for the shell too. -/
structure Reads (s : Sections Text) (r : Sections Statement) : Prop where
  before : IsPiece s.before.flatten r.before
  condition : IsPiece s.condition [r.condition]
  setup : IsPiece s.setup.flatten r.setup
  invocation : IsPiece s.invocation [r.invocation]
  cleanup : IsPiece s.cleanup.flatten r.cleanup
  elseLine : IsPiece s.elseLine [r.elseLine]
  warning : IsPiece s.warning.flatten r.warning
  unsupported : IsPiece s.unsupported [r.unsupported]
  closing : IsPiece s.closing.flatten r.closing
  fiLine : IsPiece s.fiLine [r.fiLine]
  ending : IsPiece s.ending.flatten r.ending
  terminalExit : scriptOf s.terminalExit = [r.terminalExit]
  last : s.terminalExit.getLast? = some '\n' ∨ s.after = []
  after : scriptOf s.after.flatten = r.after

/-- The lines that are written or replaced are indented with blanks and tabs. -/
structure IsIndented (s : Sections Text) : Prop where
  invocation : ∀ c ∈ indentOf (universalNewlines s.invocation), isBlank c = true
  unsupported : ∀ c ∈ indentOf (universalNewlines s.unsupported), isBlank c = true
  terminalExit : ∀ c ∈ indentOf (universalNewlines s.terminalExit), isBlank c = true

section Texts

variable {s : Sections Text} {r : Sections Statement} {t u indent body line : Text}
  {first second : List Statement} {statement : Statement}

theorem IsPiece.append (ht : IsPiece t first) (hu : scriptOf u = second) :
    scriptOf (t ++ u) = first ++ second := by
  rw [← ht.2, ← hu, scriptOf, Shell.statements, lines_append ht.1, List.map_append]
  rfl

/-- **The statements of a text that has sections.** -/
theorem Reads.scriptOf_join (h : Reads s r) : scriptOf s.join.flatten = r.join := by
  have hlast : scriptOf (s.terminalExit ++ s.after.flatten) = [r.terminalExit] ++ r.after := by
    rcases h.last with hlast | hafter
    · exact IsPiece.append ⟨.inr hlast, h.terminalExit⟩ h.after
    · have hnil : r.after = [] := by
        rw [← h.after, hafter]
        rfl
      rw [hafter, List.flatten_nil, List.append_nil, h.terminalExit, hnil, List.append_nil]
  simp only [Sections.join, List.flatten_append, List.flatten_cons]
  exact h.before.append (h.condition.append (h.setup.append (h.invocation.append
    (h.cleanup.append (h.elseLine.append (h.warning.append (h.unsupported.append
      (h.closing.append (h.fiLine.append (h.ending.append hlast))))))))))

theorem newlineOf_turned (line : Text) : newlineOf (universalNewlines line) = "\n".toList := by
  rw [newlineOf, if_neg]
  intro hsuffix
  have hmem : '\r' ∈ universalNewlines line :=
    (List.isSuffixOf_iff_suffix.mp hsuffix).subset (List.mem_cons_self ..)
  exact universalNewlines_ne_return line _ hmem rfl

/-- A line that is written. -/
theorem isPiece_written (hindent : ∀ c ∈ indentOf (universalNewlines line), isBlank c = true)
    (hbody : '\n' ∉ body) (hstatement : Shell.statement "PZ_EXIT_CODE".toList body = statement) :
    IsPiece (indentOf (universalNewlines line) ++ body ++ newlineOf (universalNewlines line))
      [statement] := by
  have hfeed : '\n' ∉ indentOf (universalNewlines line) ++ body := by
    rw [List.mem_append, not_or]
    exact ⟨fun h => absurd (hindent _ h) (by decide), hbody⟩
  rw [newlineOf_turned]
  refine ⟨.inr (List.getLast?_concat ..), ?_⟩
  change (lines (indentOf (universalNewlines line) ++ body ++ ['\n'])).map _ = _
  rw [lines_line hfeed, List.map_singleton, ← hstatement, Shell.statement, Shell.statement,
    lex_append hindent]

/-- **The statements of the wrapper.** -/
theorem Reads.wrapped (h : Reads s r) (hindented : IsIndented s) :
    Reads (s.wrapped (unsupportedLine (universalNewlines s.unsupported))
      (exitLine (universalNewlines s.terminalExit))
      (captureLine (universalNewlines s.invocation))) (wrap r) := by
  have hcapture : IsPiece (captureLine (universalNewlines s.invocation)) [.capture] :=
    isPiece_written hindented.invocation (by decide) (by decide +kernel)
  have hexit : IsPiece (exitLine (universalNewlines s.terminalExit)) [.leave [] .captured] :=
    isPiece_written hindented.terminalExit (by decide) (by decide +kernel)
  have hunsupported : IsPiece (unsupportedLine (universalNewlines s.unsupported))
      [.leave alert (.number 1)] :=
    isPiece_written hindented.unsupported (by decide) (by decide +kernel)
  have hlast : (exitLine (universalNewlines s.terminalExit)).getLast? = some '\n' := by
    rw [exitLine, newlineOf_turned]
    exact List.getLast?_concat ..
  have hcleanup : captureLine (universalNewlines s.invocation) ++ s.cleanup.flatten = [] ∨
      (captureLine (universalNewlines s.invocation) ++ s.cleanup.flatten).getLast? =
        some '\n' := by
    rcases h.cleanup.1 with hnil | hcleanup
    · rw [hnil, List.append_nil]
      exact hcapture.1
    · rw [List.getLast?_append, hcleanup]
      exact .inr rfl
  exact { h with
    cleanup := ⟨hcleanup, hcapture.append h.cleanup.2⟩, unsupported := hunsupported,
    terminalExit := hexit.2, last := .inl hlast }

end Texts

/-! ### Line ends -/

section LineEnds

variable {raw out : Text} {s : Sections Text} {content : ByteArray} {line : Text}

/-- The wrapper is the text of the script with two lines replaced and one inserted. -/
def OnlyEdited (s : Sections Text) (out : Text) : Prop :=
  out = (s.wrapped (unsupportedLine (universalNewlines s.unsupported))
    (exitLine (universalNewlines s.terminalExit))
    (captureLine (universalNewlines s.invocation))).join.flatten

/-- There is no carriage return in the lines that are kept. -/
def KeepsLineEnds (s : Sections Text) : Prop :=
  ∀ line ∈ (s.wrapped [] [] []).join, '\r' ∉ line

theorem ne_return_written {body : Text} (hbody : '\r' ∉ body) :
    ∀ c ∈ indentOf (universalNewlines line) ++ body ++ newlineOf (universalNewlines line),
      c ≠ '\r' := by
  rw [newlineOf_turned]
  intro c hc
  rw [List.mem_append, List.mem_append] at hc
  rcases hc with (hc | hc) | hc
  · exact universalNewlines_ne_return line c ((List.takeWhile_prefix _).subset hc)
  · rintro rfl
    exact hbody hc
  · rw [List.mem_singleton.mp hc]
    decide

/-- The lines that are kept are among those of the wrapper. -/
theorem mem_join_wrapped {unsupported exit capture : Text}
    (h : line ∈ (s.wrapped [] [] []).join) :
    line = [] ∨ line ∈ (s.wrapped unsupported exit capture).join := by
  simp only [Sections.join, Sections.wrapped, List.mem_append, List.mem_cons] at h ⊢
  grind

theorem wrapped_map_eq (h : KeepsLineEnds s) (unsupported exit capture : Text) :
    (s.map universalNewlines).wrapped unsupported exit capture =
      s.wrapped unsupported exit capture := by
  have hline : ∀ line ∈ (s.wrapped [] [] []).join, universalNewlines line = line :=
    fun line hline => universalNewlines_eq_self fun c hc hreturn => h line hline (hreturn ▸ hc)
  have hlist : ∀ list : List Text, (∀ line ∈ list, line ∈ (s.wrapped [] [] []).join) →
      list.map universalNewlines = list := by
    intro list hlist
    rw [List.map_congr_left fun line h => hline line (hlist line h)]
    exact List.map_id' list
  rw [Sections.wrapped, Sections.wrapped, Sections.map]
  congr 1
  all_goals
    first
    | exact hlist _ fun line h => by simp [Sections.join, Sections.wrapped, h]
    | exact congrArg (capture :: ·) (hlist _ fun line h => by
        simp [Sections.join, Sections.wrapped, h])
    | refine hline _ ?_
      simp [Sections.join, Sections.wrapped]

/-- Where the lines of a wrapper come from. -/
theorem eq_of_mem_wrapped {f : Text → Text} {unsupported exit capture : Text}
    (h : line ∈ ((s.map f).wrapped unsupported exit capture).join) :
    (∃ kept, line = f kept) ∨ line = unsupported ∨ line = exit ∨ line = capture := by
  simp only [Sections.join, Sections.wrapped, Sections.map, List.mem_append, List.mem_cons,
    List.mem_map] at h
  grind

/-- **The lines that are kept are kept as they are** just when they have no carriage return. -/
theorem onlyEdited_iff (hdecode : decodeText content = .ok raw)
    (h : statusPreservingWrapper (some content) = .ok out) (hs : IsDivided raw s) :
    OnlyEdited s out ↔ KeepsLineEnds s := by
  have hout := wrapper_eq hdecode h hs
  constructor
  · intro honly line hline hc
    have hreturn : ∀ c ∈ out, c ≠ '\r' := by
      intro c hc
      rw [hout] at hc
      obtain ⟨line, hline, hc⟩ := List.mem_flatten.mp hc
      rcases eq_of_mem_wrapped hline with ⟨kept, rfl⟩ | rfl | rfl | rfl
      · exact universalNewlines_ne_return kept c hc
      · exact ne_return_written (by decide +kernel) c hc
      · exact ne_return_written (by decide +kernel) c hc
      · exact ne_return_written (by decide +kernel) c hc
    rcases @mem_join_wrapped s line (unsupportedLine (universalNewlines s.unsupported))
      (exitLine (universalNewlines s.terminalExit)) (captureLine (universalNewlines s.invocation))
      hline with rfl | hmem
    · cases hc
    · refine hreturn '\r' ?_ rfl
      rw [honly]
      exact List.mem_flatten.mpr ⟨line, hmem, hc⟩
  · intro hkeeps
    rw [OnlyEdited, hout, wrapped_map_eq hkeeps]

/-- **The wrapper is the script with the status of the game.** Its text is that of the script with
two lines replaced and one inserted, just when no other line has a carriage return. Where besides
the shell reads the six lines as what they are taken for, and the others are ordinary, the wrapper
preserves every run. -/
theorem wrapper_preserves (hdecode : decodeText content = .ok raw)
    (h : statusPreservingWrapper (some content) = .ok out) (hs : IsDivided raw s) :
    (OnlyEdited s out ↔ KeepsLineEnds s) ∧
    (KeepsLineEnds s → IsIndented s → ∀ (r : Sections Statement) (probe game notice : List Token),
      Reads s r → IsLifecycle r probe game notice → IsPlain r →
      ∀ (σ : Type) (b : Behaviour σ) (e : Env σ), ∃ original wrapper,
        b.execute [] (scriptOf raw) e = some original ∧
        b.execute [] (scriptOf out) e = some wrapper ∧
        Preserved r probe game notice original wrapper) := by
  refine ⟨onlyEdited_iff hdecode h hs, fun hkeeps hindented r probe game notice hreads hlifecycle
    hplain σ b e => ?_⟩
  have hraw : raw = s.join.flatten := by
    rw [← hs.join, flatten_keptLines]
  have hout : OnlyEdited s out := (onlyEdited_iff hdecode h hs).mpr hkeeps
  rw [hout, hraw, hreads.scriptOf_join, (hreads.wrapped hindented).scriptOf_join]
  exact hlifecycle.preserved hplain b e

end LineEnds

/-! ### The script of the game -/

/-- The tokens of a line. -/
def tokensOf (line : String) : List Token := (Shell.lex line.toList).getD []

/-- The statements of the start script. -/
def startStatements : Sections Statement where
  before := scriptOf (startSections ['\n'] []).before.flatten
  condition := .ifThen (tokensOf "\"$\x7bINSTDIR\x7d/jre64/bin/java\" -version > /dev/null 2>&1")
  setup := scriptOf (startSections ['\n'] []).setup.flatten
  invocation := .commands
    (tokensOf "LD_PRELOAD=\"$\x7bLD_PRELOAD\x7d:$\x7bJSIG\x7d\" ./ProjectZomboid64 \"$@\"")
  cleanup := []
  elseLine := .otherwise
  warning := []
  unsupported := .commands (tokensOf "echo \"Only 64bit is supported\"")
  closing := []
  fiLine := .fi
  ending := []
  terminalExit := .leave [] (.number (.of 0))
  after := []

theorem reads_start : Reads (startSections ['\n'] []) startStatements := by
  constructor
  all_goals
    try unfold IsPiece
    decide +kernel

theorem isLifecycle_start : IsLifecycle startStatements
    (tokensOf "\"$\x7bINSTDIR\x7d/jre64/bin/java\" -version > /dev/null 2>&1")
    (tokensOf "LD_PRELOAD=\"$\x7bLD_PRELOAD\x7d:$\x7bJSIG\x7d\" ./ProjectZomboid64 \"$@\"")
    (tokensOf "echo \"Only 64bit is supported\"") where
  condition := rfl
  invocation := rfl
  runsGame := ⟨["LD_PRELOAD=\"$\x7bLD_PRELOAD\x7d:$\x7bJSIG\x7d\"".toList], by decide +kernel,
    by decide +kernel⟩
  elseLine := rfl
  unsupported := rfl
  fiLine := rfl
  terminalExit := rfl

theorem isPlain_start : IsPlain startStatements := by
  constructor
  all_goals decide +kernel

/-- The runtime is there, and the game is killed. -/
def killed : Behaviour Unit where
  run tokens _ := ((), if tokens.getLast? = some (.word "\"$@\"".toList) then .of 137 else .of 0)

theorem wrapper_preserves_start : ∃ out,
    statusPreservingWrapper (some (String.ofList (startScript ['\n'] [])).toByteArray) = .ok out ∧
    OnlyEdited (startSections ['\n'] []) out ∧ ∃ original wrapper,
      killed.execute [] (scriptOf (startScript ['\n'] [])) ⟨(), 0, 0⟩ = some original ∧
      killed.execute [] (scriptOf out) ⟨(), 0, 0⟩ = some wrapper ∧
      Preserved startStatements
        (tokensOf "\"$\x7bINSTDIR\x7d/jre64/bin/java\" -version > /dev/null 2>&1")
        (tokensOf "LD_PRELOAD=\"$\x7bLD_PRELOAD\x7d:$\x7bJSIG\x7d\" ./ProjectZomboid64 \"$@\"")
        (tokensOf "echo \"Only 64bit is supported\"") original wrapper := by
  have hkinds : ∀ k ∈ Kind.all, k.recognises (strip (universalNewlines
      ((startSections ['\n'] []).line k))) = true := by
    decide +kernel
  have hdivided : IsDivided (startScript ['\n'] []) (startSections ['\n'] []) :=
    ⟨by decide +kernel, fun k => hkinds k (Kind.mem_all k)⟩
  have hkeeps : KeepsLineEnds (startSections ['\n'] []) := by
    unfold KeepsLineEnds
    decide +kernel
  have hindented : IsIndented (startSections ['\n'] []) := by
    constructor
    all_goals
      apply List.all_eq_true.mp
      decide +kernel
  obtain ⟨out, hout⟩ := @accepted_of_all (startScript ['\n'] [])
    (startSections ['\n'] []).place (by decide +kernel) (by decide) (by decide +kernel)
  obtain ⟨honly, hpreserved⟩ := wrapper_preserves (decodeText_written _) hout hdivided
  exact ⟨out, hout, honly.mpr hkeeps, hpreserved hkeeps hindented _ _ _ _ reads_start
    isLifecycle_start isPlain_start Unit killed ⟨(), 0, 0⟩⟩

/-- A start script with carriage returns is accepted, and the lines that are kept lose them. -/
theorem crlf_rewritten : ∃ out,
    statusPreservingWrapper (some (String.ofList (startScript "\r\n".toList [])).toByteArray) =
      .ok out ∧
    IsDivided (startScript "\r\n".toList []) (startSections "\r\n".toList []) ∧
    (∀ line ∈ (startSections "\r\n".toList []).before ++ (startSections "\r\n".toList []).setup,
      ∀ statement ∈ scriptOf line, statement.isPlain = true) ∧
    ¬ OnlyEdited (startSections "\r\n".toList []) out := by
  have hkinds : ∀ k ∈ Kind.all, k.recognises (strip (universalNewlines
      ((startSections "\r\n".toList []).line k))) = true := by
    decide +kernel
  have hdivided : IsDivided (startScript "\r\n".toList []) (startSections "\r\n".toList []) :=
    ⟨by decide +kernel, fun k => hkinds k (Kind.mem_all k)⟩
  obtain ⟨out, hout⟩ := @accepted_of_all (startScript "\r\n".toList [])
    (startSections "\r\n".toList []).place (by decide +kernel) (by decide) (by decide +kernel)
  refine ⟨out, hout, hdivided, by decide +kernel, ?_⟩
  rw [onlyEdited_iff (decodeText_written _) hout hdivided]
  intro hkeeps
  exact hkeeps "#!/bin/bash\r\n".toList (by decide +kernel) (by decide)

end Launcher

end PzServer
