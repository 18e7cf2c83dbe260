import PzServer.Collections.Latest
import PzServer.Collections.Lines
import PzServer.Collections.Trim

/-!
# Unit files

The syntax of systemd's unit files, as far as the lists of a section are concerned. A line is a
comment, or goes on in the next line if it ends with a backslash; a line that is complete is the
header of a section or an assignment. In a list setting an assignment appends its value, and an
empty one clears the list.

The reading is given line by line: for each line of the text, the logical line that ends there, and
what it does to the list. The end of the text completes a line that is still open.

## Main definitions

* `logicalLines`, `item`, `changes` — the stages of the reading
* `settings` — a list setting

## Main results

* `not_isComment_of_mem` — the parts of a line never make a comment
* `item_map`, `insideAfter_map`, `verdict_map` — which characters matter
* `logicalLines_append`, `changes_append` — the reading up to a point, and from there on
* `mem_settings_iff` — what is in the list
-/

namespace Systemd

open Collections (latest latest_append lines)

/-- A line, without its line feed. -/
abbrev Line : Type := List Char

/-- `WHITESPACE` -/
def isSpace (c : Char) : Bool := c = ' ' || c = '\t' || c = '\n' || c = '\r'

/-- `strstrip` -/
def strip (line : Line) : Line := Collections.trim isSpace line

/-- The first character that is no space is `#` or `;`. -/
def isComment (line : Line) : Bool :=
  match line.dropWhile isSpace with
  | c :: _ => c = '#' || c = ';'
  | [] => false

/-- The last character is a backslash that no other one escapes. -/
def continues (line : Line) : Bool := (line.reverse.takeWhile (· = '\\')).length % 2 = 1

/-- For each line the logical line that ends there, and the one that ends with the text. Comments
are left out, also between the parts of a line, and the backslash becomes a space. -/
def logicalLines : Option Line → List Line → List (Option Line)
  | pending, [] => [pending]
  | pending, line :: rest =>
    if isComment line then none :: logicalLines pending rest
    else
      let joined := pending.getD [] ++ line
      if continues joined then none :: logicalLines (some (joined.dropLast ++ [' '])) rest
      else some joined :: logicalLines none rest

/-- The lines of a text, joined. -/
def joinedLines (t : List Char) : List Line := (logicalLines none (lines t)).filterMap id

/-- What is still open after some lines. -/
def openAfter : Option Line → List Line → Option Line
  | pending, [] => pending
  | pending, line :: rest =>
    if isComment line then openAfter pending rest
    else
      let joined := pending.getD [] ++ line
      if continues joined then openAfter (some (joined.dropLast ++ [' '])) rest
      else openAfter none rest

/-- What a logical line is. -/
inductive Item where
  /-- The header of a section; one that is not closed has no name. -/
  | header (name : Option Line)
  | assignment (key value : Line)
  | nothing
  deriving DecidableEq, Repr

/-- `parse_line` -/
def item (line : Line) : Item :=
  match strip line with
  | '[' :: t => .header (if t.getLast? = some ']' then some t.dropLast else none)
  | t =>
    if '=' ∈ t then
      .assignment (strip (t.takeWhile (· ≠ '='))) (strip ((t.dropWhile (· ≠ '=')).drop 1))
    else .nothing

/-- What a line does to a list. -/
inductive Change where
  | append (value : Line)
  | clear
  deriving DecidableEq, Repr

/-- An assignment to a list. -/
def Change.ofValue (value : Line) : Change := if value = [] then .clear else .append value

/-- Whether a line is followed by assignments in a section of this name. -/
def insideAfter (name : Line) (inside : Bool) (line : Line) : Bool :=
  match item line with
  | .header header => header = some name
  | _ => inside

/-- What a line does to the list of a key; `inside` says whether it is in the section. -/
def changeOf (key : Line) (inside : Bool) (line : Line) : Option Change :=
  match item line with
  | .assignment k value => if inside ∧ k = key then some (.ofValue value) else none
  | _ => none

/-- For each line, what it does to the list of a key in the sections of a name. -/
def changes (name key : Line) (inside : Bool) : List (Option Line) → List (Option Change)
  | [] => []
  | none :: rest => none :: changes name key inside rest
  | some line :: rest =>
    changeOf key inside line :: changes name key (insideAfter name inside line) rest

/-- The list after a change. -/
def Change.apply (list : List Line) : Option Change → List Line
  | some (.append value) => list ++ [value]
  | some .clear => []
  | none => list

/-- The list of a key, over all sections of a name. -/
def settings (name key : Line) (t : List Char) : List Line :=
  (changes name key false (logicalLines none (lines t))).foldl Change.apply []

/-- Whether a change says that the value is in the list, or that it is not. -/
def Change.verdict (value : Line) : Option Change → Option Bool
  | some (.append v) => if v = value then some true else none
  | some .clear => some false
  | none => none

/-! ### Joined lines -/

section Joined

variable {line line' joined : Line} {c : Char}

theorem isComment_cons (c : Char) (line : Line) :
    isComment (c :: line) = if isSpace c then isComment line else c = '#' || c = ';' := by
  cases hspace : isSpace c with
  | true =>
    rw [isComment, List.dropWhile_cons_of_pos hspace, if_pos rfl]
    rfl
  | false =>
    rw [isComment, List.dropWhile_cons_of_neg (by rw [hspace]; decide), if_neg (by decide)]

/-- A comment is one from its first part on that is not blank. -/
theorem isComment_of_append (h : isComment (line ++ line') = true) :
    isComment line = true ∨ isComment line' = true := by
  induction line with
  | nil => exact .inr h
  | cons c line ih =>
    rw [List.cons_append, isComment_cons] at h
    rw [isComment_cons]
    split
    · rename_i hspace
      rw [if_pos hspace] at h
      exact ih h
    · rename_i hspace
      rw [if_neg hspace] at h
      exact .inl h

theorem isComment_append (h : isComment line = true) (line' : Line) :
    isComment (line ++ line') = true := by
  induction line with
  | nil => cases h
  | cons c line ih =>
    rw [isComment_cons] at h
    rw [List.cons_append, isComment_cons]
    split
    · rename_i hspace
      rw [if_pos hspace] at h
      exact ih h
    · rename_i hspace
      rw [if_neg hspace] at h
      exact h

/-- The part of a line that goes on is no comment, if the line is none. -/
theorem not_isComment_goesOn (h : isComment joined = false) :
    isComment (joined.dropLast ++ [' ']) = false := by
  refine Bool.eq_false_iff.mpr fun hcomment => Bool.eq_false_iff.mp h ?_
  rcases isComment_of_append hcomment with hpart | hblank
  · cases joined with
    | nil => cases hpart
    | cons c joined =>
      rw [← List.dropLast_concat_getLast (List.cons_ne_nil c joined)]
      exact isComment_append hpart _
  · cases hblank

/-- No logical line is a comment. -/
theorem not_isComment_of_mem {ls : List Line} {pending : Option Line}
    (hpending : ∀ p, pending = some p → isComment p = false)
    (h : some line ∈ logicalLines pending ls) : isComment line = false := by
  induction ls generalizing pending with
  | nil => exact hpending line (List.mem_singleton.mp h).symm
  | cons l ls ih =>
    rw [logicalLines] at h
    split at h
    · rcases List.mem_cons.mp h with hnone | h
      · cases hnone
      · exact ih hpending h
    · rename_i hl
      have hjoined : isComment (pending.getD [] ++ l) = false := by
        refine Bool.eq_false_iff.mpr fun hcomment => ?_
        rcases isComment_of_append hcomment with hpart | hpart
        · cases pending with
          | none => cases hpart
          | some p => exact Bool.eq_false_iff.mp (hpending p rfl) hpart
        · exact hl hpart
      dsimp only at h
      split at h
      · rcases List.mem_cons.mp h with hnone | h
        · cases hnone
        · refine ih (fun p hp => ?_) h
          obtain rfl := Option.some.inj hp
          exact not_isComment_goesOn hjoined
      · rcases List.mem_cons.mp h with hsome | h
        · rw [Option.some.inj hsome]
          exact hjoined
        · refine ih (fun p hp => ?_) h
          cases hp

/-- Lines are joined up to a point, and from there on. -/
theorem logicalLines_append (pending : Option Line) (ls ls' : List Line) :
    ∃ before, logicalLines pending (ls ++ ls') =
      before ++ logicalLines (openAfter pending ls) ls' := by
  induction ls generalizing pending with
  | nil => exact ⟨[], rfl⟩
  | cons l ls ih =>
    rw [List.cons_append, logicalLines, openAfter]
    dsimp only
    split
    · obtain ⟨before, h⟩ := ih pending
      exact ⟨none :: before, by rw [h]; rfl⟩
    · split
      · obtain ⟨before, h⟩ := ih (some ((pending.getD [] ++ l).dropLast ++ [' ']))
        exact ⟨none :: before, by rw [h]; rfl⟩
      · obtain ⟨before, h⟩ := ih none
        exact ⟨some (pending.getD [] ++ l) :: before, by rw [h]; rfl⟩

end Joined

section Item

variable {line t name : Line} {c : Char}

theorem strip_cons (h : line.dropWhile isSpace = c :: t) :
    strip line = c :: Collections.trimEnd isSpace t := by
  obtain ⟨s, -, -, hhead⟩ := Collections.exists_dropWhile isSpace line
  rw [h] at hhead
  have hc : isSpace c = false := hhead c rfl
  rw [strip, Collections.trim_eq, h, ← Collections.trim_cons hc, Collections.trim_eq,
    Collections.dropWhile_self]
  intro b hb
  cases hb
  exact hc

theorem mem_strip (hc : isSpace c = false) : c ∈ strip line ↔ c ∈ line := by
  obtain ⟨s, r, hline, hs, hr, -⟩ := Collections.exists_trim isSpace line
  rw [strip]
  generalize Collections.trim isSpace line = core at hline
  subst hline
  rw [List.mem_append, List.mem_append]
  constructor
  · exact fun h => .inr (.inl h)
  · rintro (h | h | h)
    · rw [hs c h] at hc
      cases hc
    · exact h
    · rw [hr c h] at hc
      cases hc

theorem item_bracket (h : strip line = '[' :: t) :
    item line = .header (if t.getLast? = some ']' then some t.dropLast else none) := by
  rw [item, h]
  rfl

/-- The header of a section with this name. -/
theorem item_header (h : strip line = '[' :: t) :
    (item line = .header (some name) ↔ t = name ++ [']']) ∧
      ∃ header, item line = .header header := by
  have hitem := item_bracket h
  refine ⟨?_, _, hitem⟩
  rw [hitem, Item.header.injEq]
  constructor
  · intro hname
    split at hname
    · rename_i hlast
      obtain ⟨ys, rfl⟩ := List.getLast?_eq_some_iff.mp hlast
      rw [List.dropLast_concat] at hname
      rw [Option.some.inj hname]
    · cases hname
  · rintro rfl
    rw [List.getLast?_concat, if_pos rfl, List.dropLast_concat]

/-- A line that is no header. -/
theorem item_other (h : ∀ t, strip line ≠ '[' :: t) :
    item line = if '=' ∈ line then
        .assignment (strip (line.takeWhile (· ≠ '='))) (strip ((line.dropWhile (· ≠ '=')).drop 1))
      else .nothing := by
  have hspace : ∀ c, isSpace c = true → decide (c ≠ '=') = true := by
    rintro c hc
    rw [decide_eq_true_eq]
    rintro rfl
    cases hc
  rw [item]
  split
  · rename_i t ht
    exact absurd ht (h t)
  · simp only [@mem_strip line '=' rfl]
    split
    · have hkey := Collections.trim_takeWhile hspace line
      have hvalue := Collections.trim_dropWhile hspace line
      rw [strip, strip, strip, hkey, hvalue]
      rfl
    · rfl

/-- The same with other characters. -/
def Item.map (f : Char → Char) : Item → Item
  | .header name => .header (name.map (List.map f))
  | .assignment key value => .assignment (key.map f) (value.map f)
  | .nothing => .nothing

/-- Characters that keep their part in the syntax. -/
structure Keeps (f : Char → Char) : Prop where
  space : ∀ c, isSpace (f c) = isSpace c
  comment : ∀ c, f c = '#' ∨ f c = ';' ↔ c = '#' ∨ c = ';'
  opening : ∀ c, f c = '[' ↔ c = '['
  closing : ∀ c, f c = ']' ↔ c = ']'
  equals : ∀ c, f c = '=' ↔ c = '='

/-- Which characters matter. -/
theorem item_map {f : Char → Char} (hf : Keeps f) (line : Line) :
    item (line.map f) = (item line).map f := by
  have hstrip : ∀ t : Line, strip (t.map f) = (strip t).map f := Collections.trim_map hf.space
  have hsplit : ((fun c => decide (c ≠ '=')) ∘ f) = fun c => decide (c ≠ '=') := by
    funext c
    exact decide_eq_decide.mpr (not_congr (hf.equals c))
  have hmem : ∀ t : Line, '=' ∈ t.map f ↔ '=' ∈ t := by
    intro t
    rw [List.mem_map]
    refine ⟨fun ⟨c, hc, heq⟩ => (hf.equals c).mp heq ▸ hc, fun h => ⟨'=', h, ?_⟩⟩
    exact (hf.equals '=').mpr rfl
  have hassignment : ∀ t : Line, (if '=' ∈ t.map f then
      Item.assignment (strip ((t.map f).takeWhile (· ≠ '=')))
        (strip (((t.map f).dropWhile (· ≠ '=')).drop 1)) else .nothing) =
      (if '=' ∈ t then Item.assignment (strip (t.takeWhile (· ≠ '=')))
        (strip ((t.dropWhile (· ≠ '=')).drop 1)) else .nothing).map f := by
    intro t
    rw [List.takeWhile_map, List.dropWhile_map, hsplit, ← List.map_drop, hstrip, hstrip]
    by_cases h : '=' ∈ t
    · rw [if_pos h, if_pos ((hmem t).mpr h)]
      rfl
    · rw [if_neg h, if_neg fun h' => h ((hmem t).mp h')]
      rfl
  by_cases hheader : ∃ t, strip line = '[' :: t
  · obtain ⟨t, ht⟩ := hheader
    have ht' : strip (line.map f) = '[' :: t.map f := by
      rw [hstrip, ht, List.map_cons, (hf.opening '[').mpr rfl]
    rw [item_bracket ht, item_bracket ht', List.getLast?_map, ← List.map_dropLast]
    cases t.getLast? with
    | none => rfl
    | some d =>
      by_cases hd : d = ']'
      · rw [hd, Option.map_some, (hf.closing ']').mpr rfl, if_pos rfl, if_pos rfl]
        rfl
      · have hd' : f d ≠ ']' := fun h => hd ((hf.closing d).mp h)
        rw [Option.map_some, if_neg (by simpa using hd'), if_neg (by simpa using hd)]
        rfl
  · have hother : ∀ t, strip line ≠ '[' :: t := fun t ht => hheader ⟨t, ht⟩
    have hother' : ∀ t, strip (line.map f) ≠ '[' :: t := by
      intro t ht
      rw [hstrip, List.map_eq_cons_iff] at ht
      obtain ⟨c, rest, hrest, hc, -⟩ := ht
      exact hheader ⟨rest, (hf.opening c).mp hc ▸ hrest⟩
    rw [item_other hother, item_other hother']
    exact hassignment line

theorem isComment_map {f : Char → Char} (hf : Keeps f) (line : Line) :
    isComment (line.map f) = isComment line := by
  induction line with
  | nil => rfl
  | cons c line ih =>
    have hcomment := hf.comment c
    rw [List.map_cons, isComment_cons, isComment_cons, hf.space, ih]
    congr 1
    rw [← Bool.decide_or, ← Bool.decide_or]
    exact decide_eq_decide.mpr hcomment

/-- A text that only itself becomes. -/
def Stays (f : Char → Char) (t : Line) : Prop := ∀ s : Line, s.map f = t ↔ s = t

theorem stays_of_forall {f : Char → Char} (h : ∀ c ∈ t, ∀ d, f d = c ↔ d = c) : Stays f t := by
  induction t with
  | nil => exact fun s => List.map_eq_nil_iff
  | cons c t ih =>
    obtain ⟨hc, ht⟩ := List.forall_mem_cons.mp h
    intro s
    cases s with
    | nil =>
      constructor
      · intro h
        cases h
      · intro h
        cases h
    | cons d s => rw [List.map_cons, List.cons.injEq, List.cons.injEq, hc, ih ht]

end Item

section Settings

variable {name key value : Line} {list : List Line} {cs : List (Option Change)} {t : List Char}

/-- The lines of a section, with other characters. -/
theorem insideAfter_map {f : Char → Char} (hf : Keeps f) (hname : Stays f name) (inside : Bool)
    (line : Line) : insideAfter name inside (line.map f) = insideAfter name inside line := by
  rw [insideAfter, insideAfter, item_map hf]
  cases item line with
  | nothing => rfl
  | assignment k v => rfl
  | header header =>
    cases header with
    | none => rfl
    | some n =>
      refine decide_eq_decide.mpr ?_
      rw [Option.map_some, Option.some.injEq, Option.some.injEq]
      exact hname n

theorem verdict_map {f : Char → Char} (hf : Keeps f) (hkey : Stays f key) (hvalue : Stays f value)
    (inside : Bool) (line : Line) :
    Change.verdict value (changeOf key inside (line.map f)) =
      Change.verdict value (changeOf key inside line) := by
  rw [changeOf, changeOf, item_map hf]
  cases item line with
  | nothing => rfl
  | header header => rfl
  | assignment k v =>
    dsimp only [Item.map]
    by_cases h : inside = true ∧ k = key
    · rw [if_pos h, if_pos ⟨h.1, (hkey k).mpr h.2⟩, Change.ofValue, Change.ofValue]
      by_cases hv : v = []
      · rw [if_pos hv, if_pos (List.map_eq_nil_iff.mpr hv)]
      · rw [if_neg hv, if_neg fun h => hv (List.map_eq_nil_iff.mp h)]
        dsimp only [Change.verdict]
        by_cases hv' : v = value
        · rw [if_pos hv', if_pos ((hvalue v).mpr hv')]
        · rw [if_neg hv', if_neg fun h => hv' ((hvalue v).mp h)]
    · rw [if_neg h, if_neg fun h' => h ⟨h'.1, (hkey k).mp h'.2⟩]

/-- The changes up to a point, and from there on. -/
theorem changes_append (name key : Line) (inside : Bool) (before after : List (Option Line)) :
    ∃ inside', changes name key inside (before ++ after) =
      changes name key inside before ++ changes name key inside' after := by
  induction before generalizing inside with
  | nil => exact ⟨inside, rfl⟩
  | cons line before ih =>
    cases line with
    | none =>
      obtain ⟨inside', h⟩ := ih inside
      exact ⟨inside', by rw [List.cons_append, changes, h, changes, List.cons_append]⟩
    | some line =>
      obtain ⟨inside', h⟩ := ih (insideAfter name inside line)
      exact ⟨inside', by rw [List.cons_append, changes, h, changes, List.cons_append]⟩

theorem mem_foldl_apply : value ∈ cs.foldl Change.apply list ↔
    latest (cs.map (Change.verdict value)) = some true ∨
      latest (cs.map (Change.verdict value)) = none ∧ value ∈ list := by
  induction cs generalizing list with
  | nil => simp [latest]
  | cons c cs ih =>
    rw [List.foldl_cons, ih, List.map_cons, latest]
    cases hlatest : latest (cs.map (Change.verdict value)) with
    | some b => simp
    | none =>
      cases c with
      | none => simp [Change.apply, Change.verdict]
      | some c =>
        cases c with
        | clear => simp [Change.apply, Change.verdict]
        | append v =>
          by_cases hv : v = value
          · simp [Change.apply, Change.verdict, hv]
          · simp [Change.apply, Change.verdict, hv, Ne.symm hv]

/-- **What is in the list:** the last change that says something about it says so. -/
theorem mem_settings_iff : value ∈ settings name key t ↔
    latest ((changes name key false (logicalLines none (lines t))).map (Change.verdict value)) =
      some true := by
  rw [settings, mem_foldl_apply]
  exact ⟨fun h => h.resolve_right (fun h => List.not_mem_nil h.2), .inl⟩

end Settings

end Systemd
