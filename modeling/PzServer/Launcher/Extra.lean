import Mathlib.Tactic.Choose
import PzServer.Collections.Trim
import PzServer.Launcher.Sections
import PzServer.Shell.Lexer

/-!
# Other ways to end the script

The wrapper keeps the status of one game and gives it to one `exit`, so the script may not run the
game or end anywhere else. The updater counts the lines that match its patterns. A line that ends
the script in other words, with another status or a comment, is not counted and passes.

## Main results

* `lifecycle_skip_iff` — what one more line changes
* `rejects_extra_iff` — when a script with another such line is rejected
-/

namespace PzServer

namespace Launcher

open Collections (exists_skip forall_mem_drop_skip getElem?_self getElem?_skip
  indexes_eq_singleton_iff indexes_skip_iff skip skip_injective skip_lt skip_lt_skip)

open Updater (decodeText_written readText)

open Watchdog (Text)

open Watchdog.Text (isSpace strip)

/-- Whether a line ends the shell or runs the game. -/
def endsOrRuns (line : Text) : Bool :=
  Shell.names "exit".toList (line.takeWhile (· ≠ '\n')) ||
    Shell.names "./ProjectZomboid64".toList (line.takeWhile (· ≠ '\n'))

/-- A script `pre ++ extra :: post` has its six lines at these places, and `extra` is another one,
which ends the shell or runs the game. -/
structure HasExtra (pre : List Text) (extra : Text) (post : List Text) (place : Kind → ℕ) :
    Prop where
  six (k : Kind) : ∃ line, ((pre ++ extra :: post).map strip)[place k]? = some line ∧
    k.recognises line = true
  other (k : Kind) : place k ≠ pre.length
  ends : endsOrRuns extra = true

/-! ### One more line -/

section Insert

variable {pre post lines : List Text} {x : Text} {place place' : Kind → ℕ}

/-- **One more line.** A line that matches no pattern matters only after the last of the six. -/
theorem lifecycle_skip_iff (hx : ∀ k : Kind, k.recognises x = false) :
    Lifecycle (pre ++ x :: post) (fun k => skip pre.length (place k)) ↔
      Lifecycle (pre ++ post) place ∧
        (place .terminalExit < pre.length → isCommand x = false) := by
  have hordered : (Ordered fun k => skip pre.length (place k)) ↔ Ordered place := by
    simp only [Ordered, skip_lt_skip]
  constructor
  · intro h
    obtain ⟨hrest, hlast⟩ := forall_mem_drop_skip.mp h.final
    exact ⟨⟨fun k => (indexes_skip_iff (hx k)).mp (h.only k), hordered.mp h.ordered, hrest⟩, hlast⟩
  · rintro ⟨h, hlast⟩
    exact ⟨fun k => (indexes_skip_iff (hx k)).mpr (h.only k), hordered.mpr h.ordered,
      forall_mem_drop_skip.mpr ⟨h.final, hlast⟩⟩

/-- The six lines of a script that is accepted are the only ones of their kinds. -/
theorem Lifecycle.unique (h : Lifecycle lines place')
    (hsix : ∀ k : Kind, ∃ line, lines[place k]? = some line ∧ k.recognises line = true) :
    place = place' := by
  funext k
  obtain ⟨line, hline, hk⟩ := hsix k
  exact (indexes_eq_singleton_iff.mp (h.only k)).2 _ line hline hk

end Insert

/-! ### What is rejected -/

section Rejected

variable {pre post : List Text} {extra : Text} {place : Kind → ℕ}

theorem strip_ne_nil {line : Text} {c : Char} (hc : c ∈ line) (hspace : isSpace c = false) :
    strip line ≠ [] := by
  intro hblank
  obtain ⟨s, r, hline, hs, hr, -⟩ := Collections.exists_trim isSpace line
  have htrim : Collections.trim isSpace line = [] := hblank
  rw [htrim, List.nil_append] at hline
  have hall : ∀ d ∈ line, isSpace d = true := by
    rw [hline]
    exact List.forall_mem_append.mpr ⟨hs, hr⟩
  rw [hall c hc] at hspace
  cases hspace

/-- A line with such a command is not blank, and so a command to the updater as well, but for a
comment mark after a blank that the shell does not know. -/
theorem isCommand_strip_iff (h : endsOrRuns extra = true) :
    isCommand (strip extra) = true ↔ (strip extra).head? ≠ some '#' := by
  have hmem : ∀ {name : Text}, Shell.names name (extra.takeWhile (· ≠ '\n')) = true →
      ∀ c ∈ name, c ∈ extra :=
    fun hname c hc => List.takeWhile_subset _ (Shell.subset_of_names hname hc)
  have hblank : strip extra ≠ [] := by
    rw [endsOrRuns, Bool.or_eq_true] at h
    rcases h with hexit | hgame
    · exact strip_ne_nil (hmem hexit 'x' (by decide)) (by decide)
    · exact strip_ne_nil (hmem hgame 'P' (by decide)) (by decide)
  rw [isCommand, Bool.and_eq_true, decide_eq_true_eq, decide_eq_true_eq]
  exact ⟨fun h => h.2, fun h => ⟨hblank, h⟩⟩

/-- A script is accepted with such a line if it is without, and the line matches none of the
patterns and is no command after the last of the six. -/
theorem HasExtra.accepted_iff (h : HasExtra pre extra post place) :
    (∃ place', Lifecycle ((pre ++ extra :: post).map strip) place') ↔
      (∃ place', Lifecycle ((pre ++ post).map strip) place') ∧
        (∀ k : Kind, k.recognises (strip extra) = false) ∧
        (place .terminalExit < pre.length → isCommand (strip extra) = false) := by
  have hlength : (pre.map strip).length = pre.length := List.length_map strip
  have hsix := h.six
  rw [List.map_append, List.map_cons] at hsix ⊢
  rw [List.map_append, ← hlength]
  choose place' hplace using fun k : Kind => exists_skip (hlength.symm ▸ h.other k)
  obtain rfl : (fun k => skip (pre.map strip).length (place' k)) = place := funext hplace
  constructor
  · rintro ⟨_, haccepted⟩
    obtain rfl := haccepted.unique hsix
    have hx : ∀ k : Kind, k.recognises (strip extra) = false := by
      intro k
      by_contra hk
      rw [Bool.not_eq_false] at hk
      have hsame := (indexes_eq_singleton_iff.mp (haccepted.only k)).2 _ _ getElem?_self hk
      exact h.other k (hsame.symm.trans hlength)
    obtain ⟨hrest, hlast⟩ := (lifecycle_skip_iff hx).mp haccepted
    exact ⟨⟨place', hrest⟩, hx, fun hlt => hlast (skip_lt.mp hlt)⟩
  · rintro ⟨⟨place'', hrest⟩, hx, hlast⟩
    simp only [getElem?_skip] at hsix
    obtain rfl := hrest.unique hsix
    exact ⟨_, (lifecycle_skip_iff hx).mpr ⟨hrest, fun hlt => hlast (skip_lt.mpr hlt)⟩⟩

end Rejected

/-! ### Scripts of the game -/

theorem hasExtra_of_all {pre post : List Text} {extra : Text} {place : Kind → ℕ}
    (hsix : Kind.all.all (fun k =>
      (((pre ++ extra :: post).map strip)[place k]?).any k.recognises) = true)
    (hother : Kind.all.all (fun k => place k ≠ pre.length) = true)
    (hends : endsOrRuns extra = true) : HasExtra pre extra post place := by
  refine ⟨fun k => ?_, fun k => ?_, hends⟩
  · exact (Option.any_eq_true _ _).mp (List.all_eq_true.mp hsix k (Kind.mem_all k))
  · exact of_decide_eq_true (List.all_eq_true.mp hother k (Kind.mem_all k))

/-- The start script with a line before its last one. -/
def scriptWith (extra : String) : Text := startScript ['\n'] [extra]

/-- The lines before that one, and its last line. -/
def linesBefore : List Text := (startSections ['\n'] []).join.dropLast

def lastLine : List Text := ["exit 0\n".toList]

/-- The places of the six lines. -/
def placeIn (extra : String) : Kind → ℕ := (startSections ['\n'] [extra]).place

end Launcher

end PzServer
