import PzServer.Launcher.Wrapper

/-!
# The sections of the start script

The six lines divide the script into seven sections. The wrapper has the same sections: one line is
added to the section after the game, and two of the six are replaced.

## Main results

* `Sections.join_wrapped` — writing to the places of the lines
* `exists_isDivided`, `wrapper_eq` — what is accepted has sections, and what is written then
-/

namespace PzServer

namespace Launcher

open Collections (indexes indexes_eq_singleton_iff set_length insertIdx_length)

open Updater (decodeText decodeText_written readText universalNewlines)

open Watchdog (Text)

open Watchdog.Text (strip)

/-- The six lines, and what is between them. -/
structure Sections (α : Type) where
  before : List α
  condition : α
  setup : List α
  invocation : α
  cleanup : List α
  elseLine : α
  warning : List α
  unsupported : α
  closing : List α
  fiLine : α
  ending : List α
  terminalExit : α
  after : List α

namespace Sections

variable {α : Type} {s : Sections α} {k : Kind}

/-- The lines of the script. -/
def join (s : Sections α) : List α :=
  s.before ++ s.condition :: (s.setup ++ s.invocation :: (s.cleanup ++ s.elseLine ::
    (s.warning ++ s.unsupported :: (s.closing ++ s.fiLine :: (s.ending ++ s.terminalExit ::
      s.after)))))

def line (s : Sections α) : Kind → α
  | .condition => s.condition
  | .invocation => s.invocation
  | .unsupported => s.unsupported
  | .terminalExit => s.terminalExit
  | .elseLine => s.elseLine
  | .fiLine => s.fiLine

/-- The lines that are earlier than one of the six. -/
def earlier (s : Sections α) : Kind → List α
  | .condition => s.before
  | .invocation => s.before ++ s.condition :: s.setup
  | .elseLine => s.before ++ s.condition :: (s.setup ++ s.invocation :: s.cleanup)
  | .unsupported => s.before ++ s.condition :: (s.setup ++ s.invocation :: (s.cleanup ++
      s.elseLine :: s.warning))
  | .fiLine => s.before ++ s.condition :: (s.setup ++ s.invocation :: (s.cleanup ++
      s.elseLine :: (s.warning ++ s.unsupported :: s.closing)))
  | .terminalExit => s.before ++ s.condition :: (s.setup ++ s.invocation :: (s.cleanup ++
      s.elseLine :: (s.warning ++ s.unsupported :: (s.closing ++ s.fiLine :: s.ending))))

/-- The lines that are later than one of the six. -/
def later (s : Sections α) : Kind → List α
  | .condition => s.setup ++ s.invocation :: (s.cleanup ++ s.elseLine :: (s.warning ++
      s.unsupported :: (s.closing ++ s.fiLine :: (s.ending ++ s.terminalExit :: s.after))))
  | .invocation => s.cleanup ++ s.elseLine :: (s.warning ++ s.unsupported :: (s.closing ++
      s.fiLine :: (s.ending ++ s.terminalExit :: s.after)))
  | .elseLine => s.warning ++ s.unsupported :: (s.closing ++ s.fiLine :: (s.ending ++
      s.terminalExit :: s.after))
  | .unsupported => s.closing ++ s.fiLine :: (s.ending ++ s.terminalExit :: s.after)
  | .fiLine => s.ending ++ s.terminalExit :: s.after
  | .terminalExit => s.after

/-- The place of one of the six. -/
def place (s : Sections α) (k : Kind) : ℕ := (s.earlier k).length

/-- With two of the lines replaced and one inserted. -/
def wrapped (s : Sections α) (unsupported exit capture : α) : Sections α :=
  { s with
    cleanup := capture :: s.cleanup
    unsupported := unsupported
    terminalExit := exit }

def map {β : Type} (f : α → β) (s : Sections α) : Sections β where
  before := s.before.map f
  condition := f s.condition
  setup := s.setup.map f
  invocation := f s.invocation
  cleanup := s.cleanup.map f
  elseLine := f s.elseLine
  warning := s.warning.map f
  unsupported := f s.unsupported
  closing := s.closing.map f
  fiLine := f s.fiLine
  ending := s.ending.map f
  terminalExit := f s.terminalExit
  after := s.after.map f

theorem join_eq (s : Sections α) (k : Kind) : s.join = s.earlier k ++ s.line k :: s.later k := by
  cases k with
  | condition => rfl
  | invocation | elseLine | unsupported | fiLine | terminalExit =>
    simp only [join, earlier, line, later, List.append_assoc, List.cons_append]

theorem getElem?_place (s : Sections α) (k : Kind) : s.join[s.place k]? = some (s.line k) := by
  rw [s.join_eq k, place, List.getElem?_append_right (Nat.le_refl _), Nat.sub_self,
    List.getElem?_cons_zero]

theorem ordered (s : Sections α) : Ordered s.place := by
  refine ⟨?_, ?_, ?_, ?_, ?_⟩
  all_goals
    simp only [place, earlier, List.length_append, List.length_cons]
    omega

theorem map_join {β : Type} (f : α → β) (s : Sections α) : (s.map f).join = s.join.map f := by
  simp only [join, map, List.map_append, List.map_cons]

/-- **Writing to the places of the lines.** -/
theorem join_wrapped (s : Sections α) (unsupported exit capture : α) :
    edit s.place unsupported exit capture s.join = (s.wrapped unsupported exit capture).join := by
  have hunsupported : s.join.set (s.place .unsupported) unsupported =
      ({ s with unsupported := unsupported } : Sections α).join := by
    rw [s.join_eq .unsupported, place, set_length]
    exact (join_eq { s with unsupported := unsupported } .unsupported).symm
  have hexit (s : Sections α) : s.join.set (s.place .terminalExit) exit =
      ({ s with terminalExit := exit } : Sections α).join := by
    rw [s.join_eq .terminalExit, place, set_length]
    exact (join_eq { s with terminalExit := exit } .terminalExit).symm
  have hcapture (s : Sections α) : s.join.insertIdx (s.place .invocation + 1) capture =
      ({ s with cleanup := capture :: s.cleanup } : Sections α).join := by
    have hlength : s.place .invocation + 1 =
        (s.earlier .invocation ++ [s.line .invocation]).length := by
      rw [List.length_append]
      rfl
    rw [hlength, s.join_eq .invocation, ← List.singleton_append, ← List.append_assoc,
      insertIdx_length, List.append_assoc]
    exact (join_eq { s with cleanup := capture :: s.cleanup } .invocation).symm
  have hplace : s.place .terminalExit =
      ({ s with unsupported := unsupported } : Sections α).place .terminalExit := by
    simp only [place, earlier, List.length_append, List.length_cons]
  rw [edit, hunsupported, hplace, hexit]
  exact hcapture { s with unsupported := unsupported, terminalExit := exit }

/-- Two sections with the same places, of which the one's lines are all of the list. -/
theorem exists_of_ordered {xs : List α} {place : Kind → ℕ} (hordered : Ordered place)
    (hlt : place .terminalExit < xs.length) :
    ∃ s : Sections α, xs = s.join ∧ s.place = place := by
  have hsplit : ∀ (ys : List α) (i : ℕ), i < ys.length →
      ∃ pre x post, ys = pre ++ x :: post ∧ pre.length = i := by
    intro ys i hi
    exact ⟨ys.take i, ys[i], ys.drop (i + 1),
      by rw [List.getElem_cons_drop, List.take_append_drop],
      List.length_take_of_le (Nat.le_of_lt hi)⟩
  obtain ⟨h1, h2, h3, h4, h5⟩ := hordered
  obtain ⟨before, condition, rest, rfl, hbefore⟩ := hsplit xs (place .condition) (by omega)
  simp only [List.length_append, List.length_cons] at hlt
  obtain ⟨setup, invocation, rest, rfl, hsetup⟩ :=
    hsplit rest (place .invocation - place .condition - 1) (by omega)
  simp only [List.length_append, List.length_cons] at hlt
  obtain ⟨cleanup, elseLine, rest, rfl, hcleanup⟩ :=
    hsplit rest (place .elseLine - place .invocation - 1) (by omega)
  simp only [List.length_append, List.length_cons] at hlt
  obtain ⟨warning, unsupported, rest, rfl, hwarning⟩ :=
    hsplit rest (place .unsupported - place .elseLine - 1) (by omega)
  simp only [List.length_append, List.length_cons] at hlt
  obtain ⟨closing, fiLine, rest, rfl, hclosing⟩ :=
    hsplit rest (place .fiLine - place .unsupported - 1) (by omega)
  simp only [List.length_append, List.length_cons] at hlt
  obtain ⟨ending, terminalExit, after, rfl, hending⟩ :=
    hsplit rest (place .terminalExit - place .fiLine - 1) (by omega)
  refine ⟨⟨before, condition, setup, invocation, cleanup, elseLine, warning, unsupported, closing,
    fiLine, ending, terminalExit, after⟩, rfl, funext fun k => ?_⟩
  cases k
  all_goals
    simp only [Sections.place, earlier, List.length_append, List.length_cons]
    omega

end Sections

section Accepted

variable {place : Kind → ℕ} {s : Sections Text}

/-- There is just one way to find the six lines. -/
theorem Lifecycle.place_eq (h : Lifecycle (s.join.map strip) place)
    (hs : ∀ k : Kind, k.recognises (strip (s.line k)) = true) : s.place = place := by
  funext k
  refine (indexes_eq_singleton_iff.mp (h.only k)).2 _ (strip (s.line k)) ?_ (hs k)
  rw [List.getElem?_map, s.getElem?_place]
  rfl

/-- What is written. -/
theorem rewrite_eq (s : Sections Text) : rewrite s.join s.place =
    (s.wrapped (unsupportedLine s.unsupported) (exitLine s.terminalExit)
      (captureLine s.invocation)).join := by
  rw [← s.join_wrapped, rewrite]
  simp only [List.getD_eq_getElem?_getD, s.getElem?_place, Option.getD_some]
  rfl

end Accepted

section Wrapper

variable {content : ByteArray} {raw out : Text} {s : Sections Text}

/-- The sections of a text, whose line ends are turned when it is read. -/
structure IsDivided (raw : Text) (s : Sections Text) : Prop where
  join : keptLines raw = s.join
  kinds (k : Kind) : k.recognises (strip (universalNewlines (s.line k))) = true

theorem readText_eq (hdecode : decodeText content = .ok raw) :
    readText content = .ok (universalNewlines raw) := by
  rw [readText, hdecode]
  rfl

/-- The text of a script that is accepted has sections. -/
theorem exists_isDivided (hdecode : decodeText content = .ok raw)
    (h : statusPreservingWrapper (some content) = .ok out) : ∃ s, IsDivided raw s := by
  obtain ⟨t, place, hread, hplace, -⟩ := statusPreservingWrapper_eq_ok.mp h
  rw [readText_eq hdecode] at hread
  obtain rfl := Except.ok.inj hread
  rw [keptLines_universalNewlines] at hplace
  have hlt : place .terminalExit < (keptLines raw).length := by
    obtain ⟨⟨line, hline, -⟩, -⟩ := indexes_eq_singleton_iff.mp (hplace.only .terminalExit)
    have hlt := (List.getElem?_eq_some_iff.mp hline).1
    rwa [List.length_map, List.length_map] at hlt
  obtain ⟨s, hs, hsplace⟩ := Sections.exists_of_ordered hplace.ordered hlt
  refine ⟨s, hs, fun k => ?_⟩
  obtain ⟨⟨line, hline, hk⟩, -⟩ := indexes_eq_singleton_iff.mp (hplace.only k)
  rw [← hsplace, hs, List.getElem?_map, List.getElem?_map, s.getElem?_place] at hline
  rwa [← Option.some.inj hline] at hk

/-- **The text of the wrapper,** in sections. -/
theorem wrapper_eq (hdecode : decodeText content = .ok raw)
    (h : statusPreservingWrapper (some content) = .ok out) (hs : IsDivided raw s) :
    out = ((s.map universalNewlines).wrapped (unsupportedLine (universalNewlines s.unsupported))
      (exitLine (universalNewlines s.terminalExit))
      (captureLine (universalNewlines s.invocation))).join.flatten := by
  obtain ⟨t, place, hread, hplace, rfl⟩ := statusPreservingWrapper_eq_ok.mp h
  rw [readText_eq hdecode] at hread
  obtain rfl := Except.ok.inj hread
  rw [keptLines_universalNewlines, hs.join, ← Sections.map_join] at hplace ⊢
  have hkinds : ∀ k : Kind, k.recognises (strip ((s.map universalNewlines).line k)) = true := by
    intro k
    have hk := hs.kinds k
    cases k
    all_goals exact hk
  rw [← hplace.place_eq hkinds, rewrite_eq]
  rfl

end Wrapper

/-! ### The script of the game -/

/-- The start script of a release, with lines before its last one. -/
def startSections (feed : Text) (extra : List String) : Sections Text :=
  let lines : Sections String :=
    { before := ["#!/bin/bash",
        "INSTDIR=\"`dirname $0`\" ; cd \"$\x7bINSTDIR\x7d\" ; INSTDIR=\"`pwd`\""]
      condition := "if \"$\x7bINSTDIR\x7d/jre64/bin/java\" -version > /dev/null 2>&1; then"
      setup := ["\texport PATH=\"$\x7bINSTDIR\x7d/jre64/bin:$PATH\"", "\tJSIG=\"libjsig.so\""]
      invocation := "\tLD_PRELOAD=\"$\x7bLD_PRELOAD\x7d:$\x7bJSIG\x7d\" ./ProjectZomboid64 \"$@\""
      cleanup := []
      elseLine := "else"
      warning := []
      unsupported := "\techo \"Only 64bit is supported\""
      closing := []
      fiLine := "fi"
      ending := extra
      terminalExit := "exit 0"
      after := [] }
  lines.map fun line => line.toList ++ feed

def startScript (feed : Text) (extra : List String) : Text :=
  (startSections feed extra).join.flatten

/-- Acceptance, as it can be computed. -/
theorem accepted_of_all {raw : Text} {place : Kind → ℕ}
    (honly : ∀ k ∈ Kind.all,
      indexes k.recognises ((keptLines (universalNewlines raw)).map strip) = [place k])
    (hordered : Ordered place)
    (hfinal : ∀ line ∈ ((keptLines (universalNewlines raw)).map strip).drop
      (place .terminalExit + 1), isCommand line = false) :
    ∃ out, statusPreservingWrapper (some (String.ofList raw).toByteArray) = .ok out :=
  ⟨_, statusPreservingWrapper_eq_ok.mpr ⟨_, place, readText_eq (decodeText_written raw),
    ⟨fun k => honly k (Kind.mem_all k), hordered, hfinal⟩, rfl⟩⟩

end Launcher

end PzServer
