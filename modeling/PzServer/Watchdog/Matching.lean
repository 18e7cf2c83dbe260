import Mathlib.Data.List.Defs
import Mathlib.Data.List.TakeWhile
import PzServer.Watchdog.Text

/-!
# What the matchers match

The matchers of a text are greedy and never backtrack. Each lemma here says what one of them
accepts without running it: how the text is put together from what was matched and what is left.
A greedy matcher leaves a rest that does not begin with what it repeats, and that is why it has no
other choice.

## Main results

* `word_eq_some_iff`, `spaces1_eq_some_iff`, `char_eq_some_iff`, `digits_eq_some_iff` — the steps of
  a pattern
* `removeAnsi_append`, `removeAnsi_cons` — what is removed, and what is kept
-/

namespace PzServer

namespace Watchdog

namespace Text

variable {t s r d : Text} {c p : Char}

/-! ### Runs of one kind of character -/

/-- Every character is a space. -/
def Blank (t : Text) : Prop := ∀ c ∈ t, isSpace c = true

/-- Every character is a decimal digit. -/
def Digits (t : Text) : Prop := ∀ c ∈ t, (digitValue c).isSome = true

/-- The text does not begin with a character of this kind. -/
def NotBegin (kind : Char → Bool) (t : Text) : Prop := ∀ c, t.head? = some c → kind c = false

theorem notBegin_nil (kind : Char → Bool) : NotBegin kind [] := by
  intro c hc
  cases hc

theorem notBegin_cons {kind : Char → Bool} (h : kind c = false) : NotBegin kind (c :: t) := by
  intro c' hc
  obtain rfl : c = c' := Option.some.inj hc
  exact h

theorem notBegin_dropWhile (kind : Char → Bool) (t : Text) : NotBegin kind (t.dropWhile kind) := by
  intro c hc
  have hnot := List.head?_dropWhile_not kind t
  rw [hc] at hnot
  simpa using hnot

/-- A run of one kind and a rest that does not begin with it are found again. -/
theorem dropWhile_append {kind : Char → Bool} (hs : ∀ c ∈ s, kind c = true)
    (hr : NotBegin kind r) : (s ++ r).dropWhile kind = r := by
  rw [List.dropWhile_append_of_pos hs]
  cases r with
  | nil => rfl
  | cons c r =>
    rw [List.dropWhile_cons_of_neg]
    rw [hr c rfl]
    exact Bool.false_ne_true

theorem takeWhile_append {kind : Char → Bool} (hs : ∀ c ∈ s, kind c = true)
    (hr : NotBegin kind r) : (s ++ r).takeWhile kind = s := by
  rw [List.takeWhile_append_of_pos hs]
  cases r with
  | nil => rw [List.takeWhile_nil, List.append_nil]
  | cons c r =>
    rw [List.takeWhile_cons_of_neg, List.append_nil]
    rw [hr c rfl]
    exact Bool.false_ne_true

/-! ### The steps of a pattern -/

/-- The text `w` is the word `p`, in any case. -/
abbrev IsWord (p : List Char) (w : Text) : Prop := List.Forall₂ (matchesLetter · ·) p w

theorem word_eq_some_iff {p : List Char} :
    word p t = some r ↔ ∃ w, IsWord p w ∧ t = w ++ r := by
  induction p generalizing t with
  | nil =>
    constructor
    · intro h
      exact ⟨[], .nil, Option.some.inj h⟩
    · rintro ⟨w, hw, rfl⟩
      cases hw
      rfl
  | cons a p ih =>
    cases t with
    | nil =>
      refine iff_of_false (fun h => by cases h) ?_
      rintro ⟨w, hw, ht⟩
      cases hw
      cases ht
    | cons c t =>
      rw [word]
      constructor
      · intro h
        split at h
        · rename_i hc
          obtain ⟨w, hw, rfl⟩ := ih.mp h
          exact ⟨c :: w, .cons hc hw, rfl⟩
        · cases h
      · rintro ⟨w, hw, ht⟩
        cases hw with
        | cons hc hw =>
          obtain ⟨rfl, rfl⟩ := List.cons_eq_cons.mp ht
          rw [if_pos hc]
          exact ih.mpr ⟨_, hw, rfl⟩

theorem isWord_of_word {p : List Char} (h : word p t = some []) : IsWord p t := by
  obtain ⟨w, hw, rfl⟩ := word_eq_some_iff.mp h
  rwa [List.append_nil]

theorem char_eq_some_iff : char p t = some r ↔ t = p :: r := by
  cases t with
  | nil => exact iff_of_false (fun h => by cases h) fun h => by cases h
  | cons c t =>
    rw [char]
    constructor
    · intro h
      split at h
      · rename_i hc
        rw [hc, Option.some.inj h]
      · cases h
    · intro h
      obtain ⟨rfl, rfl⟩ := List.cons_eq_cons.mp h
      rw [if_pos rfl]

theorem char_cons (p : Char) (t : Text) : char p (p :: t) = some t := char_eq_some_iff.mpr rfl

theorem spaces_append (hs : Blank s) (hr : NotBegin isSpace r) : spaces (s ++ r) = r :=
  dropWhile_append hs hr

/-- What `\s*` skips, and what it leaves. -/
theorem exists_spaces (t : Text) :
    ∃ s, Blank s ∧ t = s ++ spaces t ∧ NotBegin isSpace (spaces t) :=
  ⟨t.takeWhile isSpace, fun _ h => List.mem_takeWhile_imp h,
    List.takeWhile_append_dropWhile.symm, notBegin_dropWhile isSpace t⟩

theorem spaces_eq_nil_iff : spaces t = [] ↔ Blank t := List.dropWhile_eq_nil_iff

theorem spaces1_eq_some_iff :
    spaces1 t = some r ↔ ∃ s, s ≠ [] ∧ Blank s ∧ NotBegin isSpace r ∧ t = s ++ r := by
  cases t with
  | nil =>
    refine iff_of_false (fun h => by cases h) ?_
    rintro ⟨s, hs, -, -, ht⟩
    exact hs (List.append_eq_nil_iff.mp ht.symm).1
  | cons c t =>
    rw [spaces1]
    constructor
    · intro h
      split at h
      · rename_i hc
        obtain rfl : spaces t = r := Option.some.inj h
        obtain ⟨s, hs, ht, hr⟩ := exists_spaces t
        refine ⟨c :: s, List.cons_ne_nil c s, List.forall_mem_cons.mpr ⟨hc, hs⟩, hr, ?_⟩
        rw [List.cons_append, ← ht]
      · cases h
    · rintro ⟨s, hne, hs, hr, ht⟩
      obtain ⟨a, s, rfl⟩ := List.exists_cons_of_ne_nil hne
      obtain ⟨rfl, rfl⟩ := List.cons_eq_cons.mp ht
      obtain ⟨hc, hs⟩ := List.forall_mem_cons.mp hs
      rw [if_pos hc]
      exact congrArg some (spaces_append hs hr)

theorem digits_eq_some_iff : digits t = some (d, r) ↔
    d ≠ [] ∧ Digits d ∧ NotBegin (fun c => (digitValue c).isSome) r ∧ t = d ++ r := by
  rw [digits]
  constructor
  · intro h
    split at h
    · cases h
    · rename_i hne
      obtain ⟨rfl, rfl⟩ := Prod.mk.inj (Option.some.inj h)
      exact ⟨hne, fun _ => List.mem_takeWhile_imp (p := fun c => (digitValue c).isSome),
        notBegin_dropWhile _ t, List.takeWhile_append_dropWhile.symm⟩
  · rintro ⟨hne, hd, hr, rfl⟩
    rw [takeWhile_append hd hr, dropWhile_append hd hr, if_neg hne]

theorem fullmatch_eq_some_iff {α : Type} {o : Option (α × Text)} {a : α} :
    fullmatch o = some a ↔ o = some (a, []) := by
  rcases o with _ | ⟨b, _ | ⟨c, t⟩⟩ <;> simp [fullmatch]

/-! ### Numerals -/

/-- The number that decimal digits denote. -/
def value (digits : Text) : ℕ := digits.foldl (fun n c => 10 * n + (digitValue c).getD 0) 0

theorem toInt_eq_some_iff {n : ℕ} : toInt d = some n ↔ d.length ≤ 4300 ∧ value d = n := by
  rw [toInt, Option.ite_none_right_eq_some, Option.some_inj]
  rfl

/-- Neither a space nor a digit is the other. -/
theorem isSpace_of_isDigit (h : (digitValue c).isSome = true) : isSpace c = false := by
  cases hs : isSpace c with
  | false => rfl
  | true =>
    rw [digitValue, Option.isSome_map] at h
    rw [isSpace, decide_eq_true_eq] at hs
    have hnone : zeros.find? (fun z => z ≤ c.toNat && c.toNat < z + 10) = none := by
      revert hs
      generalize c.toNat = n
      revert n
      decide
    rw [hnone] at h
    cases h

theorem isDigit_of_isSpace (h : isSpace c = true) : (digitValue c).isSome = false := by
  cases hd : (digitValue c).isSome with
  | false => rfl
  | true =>
    rw [isSpace_of_isDigit hd] at h
    cases h

/-! ### Control sequences -/

/-- A control sequence: an escape, a bracket, parameters, intermediates and a final character. -/
inductive IsCsi : Text → Prop where
  | mk {escape final : Char} {parameters intermediates : Text} (hescape : escape.toNat = 0x1b)
    (hparameters : ∀ c ∈ parameters, 0x30 ≤ c.toNat ∧ c.toNat ≤ 0x3f)
    (hintermediates : ∀ c ∈ intermediates, 0x20 ≤ c.toNat ∧ c.toNat ≤ 0x2f)
    (hfinal : 0x40 ≤ final.toNat ∧ final.toNat ≤ 0x7e) :
    IsCsi (escape :: '[' :: (parameters ++ (intermediates ++ [final])))

theorem ansiLength_append {e : Text} (he : IsCsi e) (t : Text) :
    ansiLength (e ++ t) = some e.length := by
  obtain ⟨hescape, hparameters, hintermediates, hfinal⟩ := he
  rename_i escape final parameters intermediates
  have hrest : NotBegin (fun c => 0x30 ≤ c.toNat && c.toNat ≤ 0x3f)
      (intermediates ++ final :: t) := by
    cases intermediates with
    | nil => exact notBegin_cons (by simp; omega)
    | cons c intermediates =>
      have hc := hintermediates c List.mem_cons_self
      exact notBegin_cons (by simp; omega)
  have hend : NotBegin (fun c => 0x20 ≤ c.toNat && c.toNat ≤ 0x2f) (final :: t) :=
    notBegin_cons (by simp; omega)
  have htake := takeWhile_append (by simpa using hparameters) hrest
  have htake' := takeWhile_append (by simpa using hintermediates) hend
  have heq : escape :: '[' :: (parameters ++ (intermediates ++ [final])) ++ t =
      escape :: '[' :: (parameters ++ (intermediates ++ final :: t)) := by simp
  rw [heq, ansiLength, htake, List.drop_left, htake', List.drop_left]
  dsimp only
  rw [if_pos (by simp [hescape, hfinal])]
  simp only [List.length_cons, List.length_append, List.length_nil]
  congr 1
  omega

theorem removeAnsiFrom_eq (n : ℕ) (t : Text) : removeAnsiFrom n t = removeAnsi (t.drop n) := by
  induction n generalizing t with
  | zero => rfl
  | succ n ih =>
    cases t with
    | nil => rfl
    | cons c t => exact ih t

@[simp] theorem removeAnsi_nil : removeAnsi [] = [] := rfl

/-- A control sequence is removed. -/
theorem removeAnsi_append {e : Text} (he : IsCsi e) (t : Text) :
    removeAnsi (e ++ t) = removeAnsi t := by
  have hlength := ansiLength_append he t
  cases he with
  | mk hescape hparameters hintermediates hfinal =>
    rename_i escape final parameters intermediates
    rw [List.cons_append, removeAnsi, removeAnsiFrom]
    rw [List.cons_append] at hlength
    rw [hlength, List.length_cons]
    dsimp only
    rw [removeAnsiFrom_eq, List.drop_left]

/-- What is no escape is kept. -/
theorem removeAnsi_cons (hc : c.toNat ≠ 0x1b) (t : Text) :
    removeAnsi (c :: t) = c :: removeAnsi t := by
  have hnone : ansiLength (c :: t) = none := by
    rcases t with _ | ⟨b, t⟩
    · rfl
    · rw [ansiLength.eq_def]
      split
      · rename_i h
        obtain ⟨rfl, -⟩ := List.cons_eq_cons.mp h
        dsimp only
        split
        · rw [if_neg (by simp [hc])]
        · rfl
      · rfl
  rw [removeAnsi, removeAnsiFrom, hnone]
  rfl

theorem removeAnsi_eq_self (h : ∀ c ∈ t, c.toNat ≠ 0x1b) : removeAnsi t = t := by
  induction t with
  | nil => rfl
  | cons c t ih =>
    obtain ⟨hc, ht⟩ := List.forall_mem_cons.mp h
    rw [removeAnsi_cons hc, ih ht]

/-! ### Lines -/

theorem splitlinesFrom_eq (hne : s ≠ [] ∨ t ≠ []) (h : ∀ c ∈ t, isLineBreak c = false) :
    splitlinesFrom s t = [s.reverse ++ t] := by
  induction t generalizing s with
  | nil =>
    obtain ⟨c, s, rfl⟩ := List.exists_cons_of_ne_nil (hne.resolve_right fun h => h rfl)
    simp [splitlinesFrom]
  | cons c t ih =>
    obtain ⟨hc, ht⟩ := List.forall_mem_cons.mp h
    have hreturn : c ≠ '\r' := by
      rintro rfl
      cases hc
    rw [splitlinesFrom.eq_4 _ _ _ (by simp [hreturn]), if_neg (by simp [hc]),
      ih (.inl (List.cons_ne_nil c s)) ht]
    simp

/-- A text without line breaks is one line. -/
theorem splitlines_eq_singleton (hne : t ≠ []) (h : ∀ c ∈ t, isLineBreak c = false) :
    splitlines t = [t] := splitlinesFrom_eq (.inr hne) h

/-- A text that neither begins nor ends with a space. -/
theorem strip_eq_self {a b : Char} (ha : isSpace a = false) (hb : isSpace b = false) (t : Text) :
    strip (a :: (t ++ [b])) = a :: (t ++ [b]) := by
  have hend : (a :: (t ++ [b])).reverse = b :: (a :: t).reverse := by simp
  rw [strip, List.dropWhile_cons_of_neg (by simp [ha]), hend,
    List.dropWhile_cons_of_neg (by simp [hb]), ← hend, List.reverse_reverse]

end Text

end Watchdog

end PzServer
