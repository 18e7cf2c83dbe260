import PzServer.Updater.Requests
import PzServer.Watchdog.Matching
import PzServer.Watchdog.Rcon

/-!
# Two parsers of one reply

The watchdog and the updater each have a `parse_player_count` of their own, with their own patterns
and their own loop over them. A wrong zero would stop a populated server, so both must accept the
same replies, and only exact ones.

`IsCount` says which replies those are, without a parser: a header of one of two forms, and under it
as many lines as it counts, each of them a player. No line is of both forms, so it does not matter
that one parser gives up where the other tries the next pattern. A numeral of more than 4300 digits
is one that Python does not convert; both parsers raise there.

## Main results

* `parsePlayerCount_iff` — both parsers return the count of a reply, and nothing else
* `parsePlayerCount_long` — the limit on a numeral
-/

namespace PzServer

open Watchdog (Text)

open Watchdog.Text

namespace Updater

/-- The loop over `PLAYER_HEADER_PATTERNS`. -/
def countFrom (header : Text) (players : List Text) : List (Text → Option Text) → Except Err ℕ
  | [] => .error (.update "RCON player response was not an exact recognized count")
  | pattern :: patterns =>
    match pattern header with
    | none => countFrom header players patterns
    | some digits =>
      match toInt digits with
      | none => .error (.other "ValueError")
      | some count =>
        if players.length = count ∧ players.all Watchdog.isPlayerLine then
          .ok count
        else
          countFrom header players patterns

/-- `parse_player_count` of the updater -/
def parsePlayerCount (response : Text) : Except Err ℕ :=
  match Watchdog.replyLines response with
  | [] => .error (.update "RCON player response was empty")
  | header :: players =>
    countFrom header players [Watchdog.parenthesizedHeader, Watchdog.colonHeader]

end Updater

/-! ### The two forms of a header -/

/-- What both forms begin with: the two words and the space around them. -/
inductive IsConnected : Text → Prop where
  | mk {players space connected space' : Text} (hplayers : IsWord "players".toList players)
    (hne : space ≠ []) (hspace : Blank space) (hconnected : IsWord "connected".toList connected)
    (hspace' : Blank space') : IsConnected (players ++ (space ++ (connected ++ space')))

/-- The number in parentheses, between spaces and before a colon that may be missing. -/
inductive IsParenthesized (digits : Text) : Text → Prop where
  | mk {start s₁ s₂ s₃ s₄ colon : Text} (hstart : IsConnected start) (h₁ : Blank s₁)
    (hne : digits ≠ []) (hdigits : Digits digits) (h₂ : Blank s₂) (h₃ : Blank s₃)
    (hcolon : colon = [':'] ∨ colon = []) (h₄ : Blank s₄) : IsParenthesized digits
      (start ++ '(' :: (s₁ ++ (digits ++ (s₂ ++ ')' :: (s₃ ++ (colon ++ s₄))))))

/-- The number after a colon. -/
inductive IsColon (digits : Text) : Text → Prop where
  | mk {start s : Text} (hstart : IsConnected start) (hs : Blank s) (hne : digits ≠ [])
    (hdigits : Digits digits) : IsColon digits (start ++ ':' :: (s ++ digits))

/-- A header, and the numeral in it. -/
def IsHeader (digits line : Text) : Prop := IsParenthesized digits line ∨ IsColon digits line

/-- The lines under a header are `n` lines, each of a player. -/
def Lists (players : List Text) (n : ℕ) : Prop :=
  players.length = n ∧ ∀ line ∈ players, line.head? = some '-'

/-- The reply states the count `n`, in a numeral of any length. -/
def StatesCount (response : Text) (n : ℕ) : Prop :=
  ∃ header players digits, Watchdog.replyLines response = header :: players ∧
    IsHeader digits header ∧ value digits = n ∧ Lists players n

/-- The reply states the count `n`, in a numeral that Python converts. -/
def IsCount (response : Text) (n : ℕ) : Prop :=
  ∃ header players digits, Watchdog.replyLines response = header :: players ∧
    IsHeader digits header ∧ digits.length ≤ 4300 ∧ value digits = n ∧ Lists players n

/-! ### The patterns match exactly these -/

section Patterns

variable {digits line rest : Text}

/-- The first three steps of both patterns. -/
def connected (t : Text) : Option Text := do
  let t ← word "players".toList t
  let t ← spaces1 t
  let t ← word "connected".toList t
  return spaces t

/-- A letter of a pattern is no space. -/
theorem isSpace_of_matchesLetter {c : Char} (h : matchesLetter 'c' c = true) :
    isSpace c = false := by
  have hc : c = 'c' ∨ c = 'C' := by simpa [matchesLetter] using h
  rcases hc with rfl | rfl <;> rfl

theorem connected_eq_some_iff : connected line = some rest ↔
    ∃ start, IsConnected start ∧ NotBegin isSpace rest ∧ line = start ++ rest := by
  constructor
  · intro h
    obtain ⟨t₁, h₁, h⟩ := Option.bind_eq_some_iff.mp h
    obtain ⟨t₂, h₂, h⟩ := Option.bind_eq_some_iff.mp h
    obtain ⟨t₃, h₃, h⟩ := Option.bind_eq_some_iff.mp h
    obtain rfl : spaces t₃ = rest := Option.some.inj h
    obtain ⟨players, hplayers, rfl⟩ := word_eq_some_iff.mp h₁
    obtain ⟨space, hne, hspace, -, rfl⟩ := spaces1_eq_some_iff.mp h₂
    obtain ⟨word, hword, rfl⟩ := word_eq_some_iff.mp h₃
    obtain ⟨space', hspace', ht, hrest⟩ := exists_spaces t₃
    refine ⟨_, .mk hplayers hne hspace hword hspace', hrest, ?_⟩
    simp only [List.append_assoc]
    rw [← ht]
  · rintro ⟨start, ⟨hplayers, hne, hspace, hword, hspace'⟩, hrest, rfl⟩
    rename_i players space word space'
    have hbegin : NotBegin isSpace (word ++ (space' ++ rest)) := by
      cases hword with
      | cons hc hword => exact notBegin_cons (isSpace_of_matchesLetter hc)
    simp only [List.append_assoc]
    refine Option.bind_eq_some_iff.mpr ⟨_, word_eq_some_iff.mpr ⟨_, hplayers, rfl⟩, ?_⟩
    refine Option.bind_eq_some_iff.mpr
      ⟨_, spaces1_eq_some_iff.mpr ⟨_, hne, hspace, hbegin, rfl⟩, ?_⟩
    refine Option.bind_eq_some_iff.mpr ⟨_, word_eq_some_iff.mpr ⟨_, hword, rfl⟩, ?_⟩
    exact congrArg some (spaces_append hspace' hrest)

/-- The rest of the first pattern. -/
def parenthesized (t : Text) : Option (Text × Text) := do
  let t ← char '(' t
  let (digits, t) ← Text.digits (spaces t)
  let t ← char ')' (spaces t)
  let t := spaces t
  return (digits, spaces ((char ':' t).getD t))

/-- The rest of the second. -/
def afterColon (t : Text) : Option (Text × Text) := do
  let t ← char ':' t
  Text.digits (spaces t)

theorem parenthesizedHeader_eq (line : Text) :
    Watchdog.parenthesizedHeader line = fullmatch (connected line >>= parenthesized) := by
  simp only [connected, bind_assoc, pure_bind]
  rfl

theorem colonHeader_eq (line : Text) :
    Watchdog.colonHeader line = fullmatch (connected line >>= afterColon) := by
  simp only [connected, bind_assoc, pure_bind]
  rfl

/-- `\s*:?\s*` at the end of a line. -/
theorem ending_iff {t : Text} : spaces ((char ':' (spaces t)).getD (spaces t)) = [] ↔
    ∃ s₃ colon s₄, Blank s₃ ∧ (colon = [':'] ∨ colon = []) ∧ Blank s₄ ∧
      t = s₃ ++ (colon ++ s₄) := by
  constructor
  · intro h
    obtain ⟨s₃, h₃, ht, -⟩ := exists_spaces t
    cases hc : char ':' (spaces t) with
    | some r =>
      rw [hc, Option.getD_some] at h
      rw [char_eq_some_iff.mp hc] at ht
      exact ⟨s₃, [':'], r, h₃, .inl rfl, spaces_eq_nil_iff.mp h, ht⟩
    | none =>
      rw [hc, Option.getD_none] at h
      exact ⟨s₃, [], spaces t, h₃, .inr rfl, spaces_eq_nil_iff.mp h, ht⟩
  · rintro ⟨s₃, colon, s₄, h₃, rfl | rfl, h₄, rfl⟩
    · rw [List.singleton_append, spaces_append h₃ (notBegin_cons rfl)]
      exact spaces_eq_nil_iff.mpr h₄
    · have hblank : Blank (s₃ ++ ([] ++ s₄)) := by
        intro c hc
        rcases List.mem_append.mp hc with hc | hc
        · exact h₃ c hc
        · exact h₄ c hc
      rw [spaces_eq_nil_iff.mpr hblank]
      rfl

theorem parenthesized_eq_some_iff {t : Text} : parenthesized t = some (digits, []) ↔
    ∃ s₁ s₂ s₃ s₄ colon, Blank s₁ ∧ digits ≠ [] ∧ Digits digits ∧ Blank s₂ ∧ Blank s₃ ∧
      (colon = [':'] ∨ colon = []) ∧ Blank s₄ ∧
      t = '(' :: (s₁ ++ (digits ++ (s₂ ++ ')' :: (s₃ ++ (colon ++ s₄))))) := by
  constructor
  · intro h
    obtain ⟨t₁, hopen, h⟩ := Option.bind_eq_some_iff.mp h
    obtain ⟨⟨d, t₂⟩, hread, h⟩ := Option.bind_eq_some_iff.mp h
    obtain ⟨t₃, hclose, h⟩ := Option.bind_eq_some_iff.mp h
    obtain ⟨rfl, hending⟩ := Prod.mk.inj (Option.some.inj h)
    obtain ⟨s₁, h₁, ht₁, -⟩ := exists_spaces t₁
    obtain ⟨hne, hd, -, heq⟩ := digits_eq_some_iff.mp hread
    obtain ⟨s₂, h₂, ht₂, -⟩ := exists_spaces t₂
    obtain ⟨s₃, colon, s₄, h₃, hcolon, h₄, ht₃⟩ := ending_iff.mp hending
    refine ⟨s₁, s₂, s₃, s₄, colon, h₁, hne, hd, h₂, h₃, hcolon, h₄, ?_⟩
    rw [← ht₃, ← char_eq_some_iff.mp hclose, ← ht₂, ← heq, ← ht₁]
    exact char_eq_some_iff.mp hopen
  · rintro ⟨s₁, s₂, s₃, s₄, colon, h₁, hne, hd, h₂, h₃, hcolon, h₄, rfl⟩
    have hdigits : NotBegin isSpace (digits ++ (s₂ ++ ')' :: (s₃ ++ (colon ++ s₄)))) := by
      obtain ⟨c, d, rfl⟩ := List.exists_cons_of_ne_nil hne
      exact notBegin_cons (isSpace_of_isDigit (hd c List.mem_cons_self))
    have hafter : NotBegin (fun c => (digitValue c).isSome)
        (s₂ ++ ')' :: (s₃ ++ (colon ++ s₄))) := by
      cases s₂ with
      | nil => exact notBegin_cons rfl
      | cons c s => exact notBegin_cons (isDigit_of_isSpace (h₂ c List.mem_cons_self))
    have hread := digits_eq_some_iff.mpr ⟨hne, hd, hafter, rfl⟩
    have hending : spaces ((char ':' (spaces (s₃ ++ (colon ++ s₄)))).getD
        (spaces (s₃ ++ (colon ++ s₄)))) = [] :=
      ending_iff.mpr ⟨s₃, colon, s₄, h₃, hcolon, h₄, rfl⟩
    have hspaces : spaces (s₂ ++ ')' :: (s₃ ++ (colon ++ s₄))) = ')' :: (s₃ ++ (colon ++ s₄)) :=
      spaces_append h₂ (notBegin_cons rfl)
    simp only [parenthesized, char_cons, Option.bind_eq_bind, Option.bind_some,
      spaces_append h₁ hdigits, hread, hspaces, hending]
    rfl

theorem parenthesizedHeader_eq_some_iff :
    Watchdog.parenthesizedHeader line = some digits ↔ IsParenthesized digits line := by
  rw [parenthesizedHeader_eq, fullmatch_eq_some_iff]
  constructor
  · intro h
    obtain ⟨t, hconnected, hrest⟩ := Option.bind_eq_some_iff.mp h
    obtain ⟨start, hstart, -, rfl⟩ := connected_eq_some_iff.mp hconnected
    obtain ⟨s₁, s₂, s₃, s₄, colon, h₁, hne, hd, h₂, h₃, hcolon, h₄, rfl⟩ :=
      parenthesized_eq_some_iff.mp hrest
    exact .mk hstart h₁ hne hd h₂ h₃ hcolon h₄
  · rintro ⟨hstart, h₁, hne, hd, h₂, h₃, hcolon, h₄⟩
    refine Option.bind_eq_some_iff.mpr
      ⟨_, connected_eq_some_iff.mpr ⟨_, hstart, notBegin_cons rfl, rfl⟩, ?_⟩
    exact parenthesized_eq_some_iff.mpr ⟨_, _, _, _, _, h₁, hne, hd, h₂, h₃, hcolon, h₄, rfl⟩

theorem colonHeader_eq_some_iff :
    Watchdog.colonHeader line = some digits ↔ IsColon digits line := by
  rw [colonHeader_eq, fullmatch_eq_some_iff]
  constructor
  · intro h
    obtain ⟨t, hconnected, hrest⟩ := Option.bind_eq_some_iff.mp h
    obtain ⟨start, hstart, -, rfl⟩ := connected_eq_some_iff.mp hconnected
    obtain ⟨t₁, hcolon, hread⟩ := Option.bind_eq_some_iff.mp hrest
    obtain ⟨s, hs, ht₁, -⟩ := exists_spaces t₁
    obtain ⟨hne, hd, -, heq⟩ := digits_eq_some_iff.mp hread
    rw [List.append_nil] at heq
    rw [char_eq_some_iff.mp hcolon, ht₁, heq]
    exact .mk hstart hs hne hd
  · rintro ⟨hstart, hs, hne, hd⟩
    rename_i start s
    have hdigits : NotBegin isSpace digits := by
      obtain ⟨c, d, rfl⟩ := List.exists_cons_of_ne_nil hne
      exact notBegin_cons (isSpace_of_isDigit (hd c List.mem_cons_self))
    refine Option.bind_eq_some_iff.mpr
      ⟨_, connected_eq_some_iff.mpr ⟨_, hstart, notBegin_cons rfl, rfl⟩, ?_⟩
    have hread := digits_eq_some_iff.mpr ⟨hne, hd, notBegin_nil _, (List.append_nil digits).symm⟩
    simp only [afterColon, char_cons, Option.bind_eq_bind, Option.bind_some,
      spaces_append hs hdigits, hread]

/-- No line is of both forms. -/
theorem IsParenthesized.not_colon {digits' : Text} (h : IsParenthesized digits line) :
    ¬ IsColon digits' line := by
  intro h'
  have h₁ := parenthesizedHeader_eq_some_iff.mpr h
  have h₂ := colonHeader_eq_some_iff.mpr h'
  rw [parenthesizedHeader_eq, fullmatch_eq_some_iff] at h₁
  rw [colonHeader_eq, fullmatch_eq_some_iff] at h₂
  obtain ⟨t, ht, h₁⟩ := Option.bind_eq_some_iff.mp h₁
  rw [ht, Option.bind_eq_bind, Option.bind_some] at h₂
  obtain ⟨t₁, hopen, -⟩ := Option.bind_eq_some_iff.mp h₁
  obtain ⟨t₂, hcolon, -⟩ := Option.bind_eq_some_iff.mp h₂
  have heq := (char_eq_some_iff.mp hopen).symm.trans (char_eq_some_iff.mp hcolon)
  cases heq

end Patterns

/-! ### The parsers -/

section Parsers

variable {header line digits response : Text} {players : List Text} {n : ℕ}

theorem playerHeader_eq_some_iff :
    Watchdog.playerHeader line = some digits ↔ IsHeader digits line := by
  rw [Watchdog.playerHeader]
  cases hp : Watchdog.parenthesizedHeader line with
  | none =>
    have hno : ¬ IsParenthesized digits line := fun h => by
      rw [parenthesizedHeader_eq_some_iff.mpr h] at hp
      cases hp
    exact colonHeader_eq_some_iff.trans (or_iff_right hno).symm
  | some d =>
    have hd := parenthesizedHeader_eq_some_iff.mp hp
    rw [IsHeader, or_iff_left hd.not_colon, ← parenthesizedHeader_eq_some_iff, hp]
    rfl

theorem lists_iff : Lists players n ↔
    players.length = n ∧ players.all Watchdog.isPlayerLine = true := by
  simp [Lists, Watchdog.isPlayerLine]

theorem not_lists_iff : ¬ Lists players n ↔ players.length ≠ n ∨
    (players.any fun line => !Watchdog.isPlayerLine line) = true := by
  simp [Lists, Watchdog.isPlayerLine, imp_iff_not_or]

instance : Decidable (Lists players n) := decidable_of_iff' _ lists_iff

/-- **The loop over the patterns.** Where at most one pattern matches the header, it does not
matter whether the loop goes on after one that did. -/
theorem countFrom_eq_ok_iff (patterns : List (Text → Option Text))
    (h : patterns.Pairwise fun p q => p header ≠ none → q header = none) :
    Updater.countFrom header players patterns = .ok n ↔
      ∃ p ∈ patterns, ∃ d, p header = some d ∧ toInt d = some n ∧ Lists players n := by
  induction patterns with
  | nil =>
    refine iff_of_false (fun h => by cases h) ?_
    rintro ⟨p, hp, -⟩
    cases hp
  | cons p patterns ih =>
    obtain ⟨hfirst, hrest⟩ := List.pairwise_cons.mp h
    rw [Updater.countFrom]
    cases hp : p header with
    | none =>
      simp [hp, ih hrest]
    | some d =>
      -- no later pattern matches, so the rest of the loop finds nothing
      have hno : Updater.countFrom header players patterns ≠ .ok n := by
        intro hok
        obtain ⟨q, hq, d', hd', -⟩ := (ih hrest).mp hok
        have hnone := hfirst q hq (by rw [hp]; exact Option.some_ne_none d)
        rw [hnone] at hd'
        cases hd'
      have honly : (∃ q ∈ p :: patterns, ∃ d', q header = some d' ∧ toInt d' = some n ∧
          Lists players n) ↔ toInt d = some n ∧ Lists players n := by
        constructor
        · rintro ⟨q, hq, d', hd', hn, hlists⟩
          rcases List.mem_cons.mp hq with rfl | hq
          · rw [hp] at hd'
            obtain rfl := Option.some.inj hd'
            exact ⟨hn, hlists⟩
          · rw [hfirst q hq (by rw [hp]; exact Option.some_ne_none d)] at hd'
            cases hd'
        · rintro ⟨hn, hlists⟩
          exact ⟨p, List.mem_cons_self, d, hp, hn, hlists⟩
      rw [honly]
      dsimp only
      cases hd : toInt d with
      | none => exact iff_of_false (fun h => by cases h) fun h => by cases h.1
      | some count =>
        dsimp only
        by_cases hlists : Lists players count
        · rw [if_pos (lists_iff.mp hlists)]
          constructor
          · intro hok
            obtain rfl := Except.ok.inj hok
            exact ⟨rfl, hlists⟩
          · rintro ⟨hn, -⟩
            rw [Option.some.inj hn]
        · rw [if_neg fun h => hlists (lists_iff.mpr h)]
          refine iff_of_false hno ?_
          rintro ⟨hn, h⟩
          obtain rfl := Option.some.inj hn
          exact hlists h

theorem exclusive (header : Text) : [Watchdog.parenthesizedHeader, Watchdog.colonHeader].Pairwise
    fun p q => p header ≠ none → q header = none := by
  refine List.pairwise_pair.mpr fun hp => ?_
  obtain ⟨d, hd⟩ := Option.ne_none_iff_exists'.mp hp
  refine Option.eq_none_iff_forall_ne_some.mpr fun d' hd' => ?_
  exact (parenthesizedHeader_eq_some_iff.mp hd).not_colon (colonHeader_eq_some_iff.mp hd')

/-- What both parsers accept, once the reply is cut into lines. -/
theorem isCount_iff (h : Watchdog.replyLines response = header :: players) :
    IsCount response n ↔
      ∃ digits, IsHeader digits header ∧ toInt digits = some n ∧ Lists players n := by
  constructor
  · rintro ⟨header', players', digits, hlines, hheader, hlength, hn, hlists⟩
    obtain ⟨rfl, rfl⟩ := List.cons_eq_cons.mp (h.symm.trans hlines)
    exact ⟨digits, hheader, toInt_eq_some_iff.mpr ⟨hlength, hn⟩, hlists⟩
  · rintro ⟨digits, hheader, hn, hlists⟩
    obtain ⟨hlength, hn⟩ := toInt_eq_some_iff.mp hn
    exact ⟨header, players, digits, h, hheader, hlength, hn, hlists⟩

theorem not_isCount (h : Watchdog.replyLines response = []) : ¬ IsCount response n := by
  rintro ⟨header, players, digits, hlines, -⟩
  rw [h] at hlines
  cases hlines

theorem updater_parsePlayerCount_iff :
    Updater.parsePlayerCount response = .ok n ↔ IsCount response n := by
  rw [Updater.parsePlayerCount]
  cases hlines : Watchdog.replyLines response with
  | nil => exact iff_of_false (fun h => by cases h) (not_isCount hlines)
  | cons header players =>
    dsimp only
    rw [isCount_iff hlines, countFrom_eq_ok_iff _ (exclusive header)]
    simp [parenthesizedHeader_eq_some_iff, colonHeader_eq_some_iff, IsHeader, or_and_right,
      exists_or]

theorem watchdog_parsePlayerCount_iff :
    Watchdog.parsePlayerCount response = .ok n ↔ IsCount response n := by
  rw [Watchdog.parsePlayerCount]
  cases hlines : Watchdog.replyLines response with
  | nil => exact iff_of_false (fun h => by cases h) (not_isCount hlines)
  | cons header players =>
    dsimp only
    rw [isCount_iff hlines]
    simp only [← playerHeader_eq_some_iff, ← not_lists_iff]
    cases hd : Watchdog.playerHeader header with
    | none => simp
    | some digits =>
      simp only [Option.some.injEq, exists_eq_left']
      cases hn : toInt digits with
      | none => simp
      | some count =>
        dsimp only
        by_cases hlists : Lists players count
        · rw [if_neg (not_not_intro hlists)]
          constructor
          · intro hok
            obtain rfl := Except.ok.inj hok
            exact ⟨rfl, hlists⟩
          · rintro ⟨hn, -⟩
            rw [Option.some.inj hn]
        · rw [if_pos hlists]
          refine iff_of_false (fun h => by cases h) ?_
          rintro ⟨hn, h⟩
          obtain rfl := Option.some.inj hn
          exact hlists h

/-- A parser that returns exactly the counts of a reply raises where there is none. -/
theorem exists_error {ε : Type} {parser : Text → Except ε ℕ}
    (h : ∀ n, parser response = .ok n ↔ IsCount response n) (hno : ∀ n, ¬ IsCount response n) :
    ∃ e, parser response = .error e := by
  cases hp : parser response with
  | error e => exact ⟨e, rfl⟩
  | ok n => exact absurd ((h n).mp hp) (hno n)

/-- **Two parsers, one specification.** Each returns `n` for exactly the replies whose first line is
a header that states `n`, in at most 4300 digits, and that list `n` players under it, and raises for
every other reply; what reads as zero is a header alone. -/
theorem parsePlayerCount_iff (response : Text) :
    (∀ n, Watchdog.parsePlayerCount response = .ok n ↔ IsCount response n) ∧
    (∀ n, Updater.parsePlayerCount response = .ok n ↔ IsCount response n) ∧
    ((∀ n, ¬ IsCount response n) → (∃ e, Watchdog.parsePlayerCount response = .error e) ∧
      ∃ e, Updater.parsePlayerCount response = .error e) ∧
    (IsCount response 0 → ∃ header, Watchdog.replyLines response = [header]) := by
  refine ⟨fun n => watchdog_parsePlayerCount_iff, fun n => updater_parsePlayerCount_iff,
    fun hno => ⟨?_, ?_⟩, ?_⟩
  · exact exists_error (fun n => watchdog_parsePlayerCount_iff) hno
  · exact exists_error (fun n => updater_parsePlayerCount_iff) hno
  · rintro ⟨header, players, digits, hlines, -, -, -, hlength, -⟩
    rw [List.length_eq_zero_iff.mp hlength] at hlines
    exact ⟨header, hlines⟩

/-! ### A numeral that Python does not convert -/

/-- A reply without escapes, in one line that neither begins nor ends with a space. -/
theorem replyLines_of_line (hne : line ≠ []) (hescape : ∀ c ∈ line, c.toNat ≠ 0x1b)
    (hbreak : ∀ c ∈ line, isLineBreak c = false) (hstrip : strip line = line) :
    Watchdog.replyLines line = [line] := by
  rw [Watchdog.replyLines, removeAnsi_eq_self hescape, splitlines_eq_singleton hne hbreak]
  simp [hstrip, hne]

/-- The count zero, in `k` digits. -/
def zeroReply (k : ℕ) : Text := "Players connected (".toList ++ (List.replicate k '0' ++ [')'])

theorem value_zeros (k : ℕ) : value (List.replicate k '0') = 0 := by
  rw [value]
  induction k with
  | zero => rfl
  | succ k ih => exact ih

theorem isHeader_zeroReply (k : ℕ) :
    IsHeader (List.replicate (k + 1) '0') (zeroReply (k + 1)) := by
  have hplayers : IsWord "players".toList "Players".toList := isWord_of_word rfl
  have hconnected : IsWord "connected".toList "connected".toList := isWord_of_word rfl
  have hspace : Blank [' '] := List.forall_mem_singleton.mpr rfl
  have hblank : Blank [] := List.forall_mem_nil _
  have hdigits : Digits (List.replicate (k + 1) '0') := fun c hc => by
    rw [List.eq_of_mem_replicate hc]
    rfl
  exact .inl (.mk (.mk hplayers (List.cons_ne_nil _ _) hspace hconnected hspace) hblank
    (List.cons_ne_nil _ _) hdigits hblank hblank (.inr rfl) hblank)

theorem replyLines_zeroReply (k : ℕ) : Watchdog.replyLines (zeroReply k) = [zeroReply k] := by
  have hmem : ∀ c ∈ zeroReply k, c ∈ "Players connected (0)".toList := by
    intro c hc
    rcases List.mem_append.mp hc with hc | hc
    · exact List.mem_append_left _ hc
    · rcases List.mem_append.mp hc with hc | hc
      · rw [List.eq_of_mem_replicate hc]
        decide
      · rw [List.mem_singleton.mp hc]
        decide
  refine replyLines_of_line (List.cons_ne_nil _ _) (fun c hc => ?_) (fun c hc => ?_) ?_
  · have hall : "Players connected (0)".toList.all fun c => c.toNat ≠ 0x1b := by rfl
    simpa using List.all_eq_true.mp hall c (hmem c hc)
  · have hall : "Players connected (0)".toList.all fun c => !isLineBreak c := by rfl
    simpa using List.all_eq_true.mp hall c (hmem c hc)
  · exact strip_eq_self rfl rfl ("layers connected (".toList ++ List.replicate k '0')

/-- A count of zero in 4301 digits is stated, and neither parser returns it. -/
theorem parsePlayerCount_long : StatesCount (zeroReply 4301) 0 ∧
    Watchdog.parsePlayerCount (zeroReply 4301) ≠ .ok 0 ∧
    Updater.parsePlayerCount (zeroReply 4301) ≠ .ok 0 := by
  have hlines := replyLines_zeroReply 4301
  have hheader := isHeader_zeroReply 4300
  have hno : ¬ IsCount (zeroReply 4301) 0 := by
    rw [isCount_iff hlines]
    rintro ⟨digits, hdigits, hn, -⟩
    have heq := (playerHeader_eq_some_iff.mpr hheader).symm.trans
      (playerHeader_eq_some_iff.mpr hdigits)
    rw [← Option.some.inj heq, toInt_eq_some_iff, List.length_replicate] at hn
    omega
  refine ⟨⟨_, [], _, hlines, hheader, value_zeros _, rfl, List.forall_mem_nil _⟩, ?_, ?_⟩
  · exact fun h => hno (watchdog_parsePlayerCount_iff.mp h)
  · exact fun h => hno (updater_parsePlayerCount_iff.mp h)

end Parsers

end PzServer
