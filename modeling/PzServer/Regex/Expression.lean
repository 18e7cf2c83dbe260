import Mathlib.Data.Nat.Notation

/-!
# Regular expressions

A match of a whole text, as `re.fullmatch` decides it. A pattern without lookaround or captured
groups has a language, and how the engine goes about its alternatives does not matter for whether
there is a match. It is decided here by derivatives: what is left to match after a character.

## Main results

* `fullmatch_iff` — the derivatives decide the language
-/

namespace Regex

/-- A pattern over the elements of `α`. -/
inductive Expression (α : Type) where
  | never
  | empty
  | one (p : α → Bool)
  | seq (r s : Expression α)
  | alt (r s : Expression α)
  | star (r : Expression α)

namespace Expression

variable {α : Type} {r s : Expression α} {x : α} {xs ys : List α}

/-- One or more. -/
def plus (r : Expression α) : Expression α := .seq r (.star r)

/-- One after the other. -/
def sequence : List (Expression α) → Expression α
  | [] => .empty
  | r :: rs => .seq r (sequence rs)

/-- The elements themselves. -/
def word [DecidableEq α] : List α → Expression α
  | [] => .empty
  | x :: xs => .seq (.one (· = x)) (word xs)

/-! ### The language -/

/-- The language of a pattern. -/
inductive Matches : Expression α → List α → Prop
  | empty : Matches .empty []
  | one {p : α → Bool} {x : α} (h : p x = true) : Matches (.one p) [x]
  | seq {r s : Expression α} {xs ys : List α} (hr : Matches r xs) (hs : Matches s ys) :
      Matches (.seq r s) (xs ++ ys)
  | left {r s : Expression α} {xs : List α} (h : Matches r xs) : Matches (.alt r s) xs
  | right {r s : Expression α} {xs : List α} (h : Matches s xs) : Matches (.alt r s) xs
  | done {r : Expression α} : Matches (.star r) []
  | more {r : Expression α} {xs ys : List α} (hr : Matches r xs) (hs : Matches (.star r) ys) :
      Matches (.star r) (xs ++ ys)

theorem matches_empty : Matches (.empty : Expression α) xs ↔ xs = [] := by
  constructor
  · intro h
    cases h
    rfl
  · rintro rfl
    exact .empty

theorem matches_one {p : α → Bool} : Matches (.one p) xs ↔ ∃ x, xs = [x] ∧ p x = true := by
  constructor
  · intro h
    cases h with
    | one h => exact ⟨_, rfl, h⟩
  · rintro ⟨x, rfl, h⟩
    exact .one h

theorem matches_seq : Matches (.seq r s) xs ↔ ∃ ys zs, xs = ys ++ zs ∧ Matches r ys ∧
    Matches s zs := by
  constructor
  · intro h
    cases h with
    | seq hr hs => exact ⟨_, _, rfl, hr, hs⟩
  · rintro ⟨ys, zs, rfl, hr, hs⟩
    exact .seq hr hs

theorem matches_alt : Matches (.alt r s) xs ↔ Matches r xs ∨ Matches s xs := by
  constructor
  · intro h
    cases h with
    | left h => exact .inl h
    | right h => exact .inr h
  · rintro (h | h)
    · exact .left h
    · exact .right h

/-- The first element of a match of `r*` is that of a match of `r`. -/
theorem matches_star_cons : Matches (.star r) (x :: xs) ↔
    ∃ ys zs, xs = ys ++ zs ∧ Matches r (x :: ys) ∧ Matches (.star r) zs := by
  constructor
  · intro h
    generalize hs : Expression.star r = s at h
    generalize ht : x :: xs = t at h
    induction h with
    | done => cases ht
    | @more r' ys zs hr hzs _ ih =>
      obtain rfl := Expression.star.inj hs
      cases ys with
      | nil => exact ih rfl ht
      | cons y ys =>
        obtain ⟨rfl, rfl⟩ := List.cons.inj ht
        exact ⟨ys, zs, rfl, hr, hzs⟩
    | empty | one | seq | left | right => cases hs
  · rintro ⟨ys, zs, rfl, hr, hzs⟩
    exact .more hr hzs

/-! ### Derivatives -/

/-- Whether nothing at all is a match. -/
def nullable : Expression α → Bool
  | never => false
  | empty => true
  | one _ => false
  | seq r s => r.nullable && s.nullable
  | alt r s => r.nullable || s.nullable
  | star _ => true

/-- `seq`, where nothing is kept that can never match. -/
def join : Expression α → Expression α → Expression α
  | never, _ => never
  | empty, s => s
  | r, s => seq r s

/-- `alt`, where nothing is kept that can never match. -/
def either : Expression α → Expression α → Expression α
  | never, s => s
  | r, never => r
  | r, s => alt r s

/-- What is left to match after an element. -/
def derivative (x : α) : Expression α → Expression α
  | never => never
  | empty => never
  | one p => if p x then empty else never
  | seq r s =>
    if r.nullable then either (join (r.derivative x) s) (s.derivative x)
    else join (r.derivative x) s
  | alt r s => either (r.derivative x) (s.derivative x)
  | star r => join (r.derivative x) (star r)

/-- `re.fullmatch` -/
def fullmatch (r : Expression α) : List α → Bool
  | [] => r.nullable
  | x :: xs => (r.derivative x).fullmatch xs

theorem not_matches_never : ¬ Matches (never : Expression α) xs := by
  intro h
  cases h

theorem nullable_iff : r.nullable = true ↔ Matches r [] := by
  induction r with
  | never => exact iff_of_false Bool.false_ne_true not_matches_never
  | empty => exact ⟨fun _ => .empty, fun _ => rfl⟩
  | one p =>
    refine iff_of_false Bool.false_ne_true fun h => ?_
    obtain ⟨x, hx, -⟩ := matches_one.mp h
    cases hx
  | seq r s hr hs =>
    rw [nullable, Bool.and_eq_true, hr, hs, matches_seq]
    constructor
    · rintro ⟨hr, hs⟩
      exact ⟨[], [], rfl, hr, hs⟩
    · rintro ⟨ys, zs, h, hr, hs⟩
      obtain ⟨rfl, rfl⟩ := List.append_eq_nil_iff.mp h.symm
      exact ⟨hr, hs⟩
  | alt r s hr hs => rw [nullable, Bool.or_eq_true, hr, hs, matches_alt]
  | star r _ => exact ⟨fun _ => .done, fun _ => rfl⟩

theorem matches_join : Matches (join r s) xs ↔ Matches (.seq r s) xs := by
  cases r with
  | never =>
    rw [join, matches_seq]
    exact ⟨fun h => absurd h not_matches_never,
      fun ⟨_, _, _, h, _⟩ => absurd h not_matches_never⟩
  | empty =>
    rw [join, matches_seq]
    constructor
    · exact fun h => ⟨[], xs, rfl, .empty, h⟩
    · rintro ⟨ys, zs, rfl, hr, hs⟩
      rw [matches_empty.mp hr]
      exact hs
  | one p => exact Iff.rfl
  | seq r s => exact Iff.rfl
  | alt r s => exact Iff.rfl
  | star r => exact Iff.rfl

theorem matches_either : Matches (either r s) xs ↔ Matches r xs ∨ Matches s xs := by
  rw [← matches_alt]
  cases r with
  | never => simp [either, matches_alt, not_matches_never]
  | empty | one | seq | alt | star =>
    cases s with
    | never => simp [either, matches_alt, not_matches_never]
    | empty | one | seq | alt | star => exact Iff.rfl

theorem derivative_iff : Matches (r.derivative x) xs ↔ Matches r (x :: xs) := by
  induction r generalizing xs with
  | never => simp [derivative, not_matches_never]
  | empty => simp [derivative, not_matches_never, matches_empty]
  | one p =>
    rw [derivative, matches_one]
    by_cases hx : p x = true
    · rw [if_pos hx, matches_empty]
      constructor
      · rintro rfl
        exact ⟨x, rfl, hx⟩
      · rintro ⟨y, h, -⟩
        exact (List.cons.inj h).2
    · rw [if_neg hx]
      refine ⟨fun h => absurd h not_matches_never, ?_⟩
      rintro ⟨y, h, hy⟩
      rw [(List.cons.inj h).1] at hx
      exact absurd hy hx
  | seq r s hr hs =>
    have hjoin : Matches (join (r.derivative x) s) xs ↔
        ∃ ys zs, xs = ys ++ zs ∧ Matches r (x :: ys) ∧ Matches s zs := by
      rw [matches_join, matches_seq]
      exact exists_congr fun ys => exists_congr fun zs => and_congr_right fun _ =>
        and_congr_left fun _ => hr
    have hcons : Matches (.seq r s) (x :: xs) ↔
        (∃ ys zs, xs = ys ++ zs ∧ Matches r (x :: ys) ∧ Matches s zs) ∨
          Matches r [] ∧ Matches s (x :: xs) := by
      rw [matches_seq]
      constructor
      · rintro ⟨ys, zs, h, hr, hs⟩
        cases ys with
        | nil => exact .inr ⟨hr, by rw [h]; exact hs⟩
        | cons y ys =>
          obtain ⟨rfl, rfl⟩ := List.cons.inj h
          exact .inl ⟨ys, zs, rfl, hr, hs⟩
      · rintro (⟨ys, zs, rfl, hr, hs⟩ | ⟨hr, hs⟩)
        · exact ⟨x :: ys, zs, rfl, hr, hs⟩
        · exact ⟨[], x :: xs, rfl, hr, hs⟩
    rw [derivative, hcons]
    by_cases hn : r.nullable = true
    · rw [if_pos hn, matches_either, hjoin, hs]
      exact or_congr_right (by simp [nullable_iff.mp hn])
    · rw [if_neg hn, hjoin]
      exact (or_iff_left fun h => hn (nullable_iff.mpr h.1)).symm
  | alt r s hr hs => rw [derivative, matches_either, matches_alt, hr, hs]
  | star r hr =>
    rw [derivative, matches_join, matches_seq, matches_star_cons]
    exact exists_congr fun ys => exists_congr fun zs => and_congr_right fun _ =>
      and_congr_left fun _ => hr

/-- **The derivatives decide the language.** -/
theorem fullmatch_iff : r.fullmatch xs = true ↔ Matches r xs := by
  induction xs generalizing r with
  | nil => exact nullable_iff
  | cons x xs ih => rw [fullmatch, ih, derivative_iff]

end Expression

end Regex
