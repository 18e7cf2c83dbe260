import Mathlib.Algebra.Group.Nat.Defs
import Mathlib.Data.Int.Notation
import Mathlib.Data.Nat.Notation
import PzServer.Json.Loads

/-!
# Doubles and their decimal literals

A finite double is a multiple of `2 ^ (-1074)`, so it is given here by a sign and a natural number
of these units. Not every number is one: there are 53 binary digits, and what comes after them is
zero. A decimal literal is rounded to the nearest double, halves to the even one.

Printed, a double is the shortest literal that is rounded to it again. There always is one: in units
of `10 ^ (-1074)` a double is a natural number, too, and can be written out in full.

## Main definitions

* `roundUnits` — rounding a fraction
* `Double`, `Double.ofLiteral`, `Double.repr` — `float` and its `repr`

## Main results

* `roundUnits_eq_self` — a double is rounded to itself
* `Double.ofLiteral_repr` — what is printed is read back
-/

namespace Json

/-! ### Rounding -/

/-- The nearest number with 53 binary digits to the fraction `a / b`; halves go to the even one. -/
def roundUnits (a b : ℕ) : ℕ :=
  let step := 2 ^ ((a / b).log2 - 52)
  let quotient := a / (b * step)
  let rest := a % (b * step)
  (if b * step < 2 * rest ∨ (2 * rest = b * step ∧ quotient % 2 = 1) then quotient + 1
    else quotient) * step

/-- There are at most 53 binary digits before the zeros. -/
def IsRounded (units : ℕ) : Prop := 2 ^ (units.log2 - 52) ∣ units

theorem roundUnits_mul (a b : ℕ) {c : ℕ} (hc : 0 < c) :
    roundUnits (a * c) (b * c) = roundUnits a b := by
  have hdiv : a * c / (b * c) = a / b := Nat.mul_div_mul_right a b hc
  rw [roundUnits, roundUnits, hdiv]
  generalize 2 ^ ((a / b).log2 - 52) = step
  have hunit : b * c * step = b * step * c := Nat.mul_right_comm b c step
  rw [hunit, Nat.mul_div_mul_right _ _ hc, Nat.mul_mod_mul_right]
  have hlt : b * step * c < 2 * (a % (b * step) * c) ↔ b * step < 2 * (a % (b * step)) := by
    rw [← Nat.mul_assoc]
    exact Nat.mul_lt_mul_right hc
  have heq : 2 * (a % (b * step) * c) = b * step * c ↔ 2 * (a % (b * step)) = b * step := by
    rw [← Nat.mul_assoc]
    exact Nat.mul_left_inj (Nat.ne_of_gt hc)
  simp only [hlt, heq]

/-- Only the value of the fraction matters. -/
theorem roundUnits_congr {a b a' b' : ℕ} (hb : 0 < b) (hb' : 0 < b') (h : a * b' = a' * b) :
    roundUnits a b = roundUnits a' b' := by
  rw [← roundUnits_mul a b hb', ← roundUnits_mul a' b' hb, h, Nat.mul_comm b b']

/-- **A number of 53 binary digits is rounded to itself.** -/
theorem roundUnits_eq_self {units b : ℕ} (h : IsRounded units) (hb : 0 < b) :
    roundUnits (units * b) b = units := by
  have hdiv : units * b / b = units := Nat.mul_div_cancel units hb
  rw [roundUnits, hdiv]
  obtain ⟨k, hk⟩ := h
  have hpos : 0 < 2 ^ (units.log2 - 52) := Nat.two_pow_pos _
  generalize 2 ^ (units.log2 - 52) = step at hk hpos
  subst hk
  have hunit : step * k * b = k * (b * step) := by
    rw [Nat.mul_comm step k, Nat.mul_assoc, Nat.mul_comm step b]
  have hmul : 0 < b * step := Nat.mul_pos hb hpos
  rw [hunit, Nat.mul_mod_left, Nat.mul_div_cancel k hmul, Nat.mul_zero, if_neg, Nat.mul_comm]
  omega

theorem roundUnits_zero {b : ℕ} (hb : 0 < b) : roundUnits 0 b = 0 := by
  have h : roundUnits (0 * b) b = 0 := roundUnits_eq_self (Nat.dvd_zero _) hb
  rw [Nat.zero_mul] at h
  exact h

/-- What comes out has no more than 53 binary digits. -/
theorem isRounded_roundUnits (a b : ℕ) : IsRounded (roundUnits a b) := by
  rw [roundUnits]
  generalize hs : (a / b).log2 - 52 = s
  have hquotient : a / (b * 2 ^ s) < 2 ^ 53 := by
    rw [← Nat.div_div_eq_div_mul, Nat.div_lt_iff_lt_mul (Nat.two_pow_pos s), ← Nat.pow_add]
    have hlt : a / b < 2 ^ ((a / b).log2 + 1) := Nat.lt_log2_self
    exact Nat.lt_of_lt_of_le hlt (Nat.pow_le_pow_right (by decide) (by omega))
  have hrounded : ∀ q, q ≤ 2 ^ 53 → IsRounded (q * 2 ^ s) := by
    intro q hq
    rcases Nat.eq_zero_or_pos q with rfl | hpos
    · rw [Nat.zero_mul]
      exact Nat.dvd_zero _
    · have hne : q * 2 ^ s ≠ 0 := Nat.ne_of_gt (Nat.mul_pos hpos (Nat.two_pow_pos s))
      rcases Nat.lt_or_eq_of_le hq with hlt | rfl
      · have hlog : (q * 2 ^ s).log2 < 53 + s := by
          rw [Nat.log2_lt hne, Nat.pow_add]
          exact Nat.mul_lt_mul_of_pos_right hlt (Nat.two_pow_pos s)
        exact Nat.dvd_trans (Nat.pow_dvd_pow 2 (by omega)) (Nat.dvd_mul_left _ _)
      · rw [← Nat.pow_add]
        refine Nat.pow_dvd_pow 2 ?_
        rw [Nat.log2_two_pow]
        omega
  split
  · exact hrounded _ hquotient
  · exact hrounded _ (Nat.le_of_lt hquotient)

/-! ### Doubles -/

/-- The binary places after the point; a double has as many decimal places, too. -/
@[irreducible] def places : ℕ := 1074

/-- The number one, in units. -/
def one : ℕ := 2 ^ places

/-- `2 ^ 1024`, in units. -/
def overflow : ℕ := 2 ^ (1024 + places)

/-- The last decimal place, in one unit. -/
def fives : ℕ := 5 ^ places

theorem one_mul_fives : one * fives = 10 ^ places := by
  rw [one, fives, ← Nat.mul_pow]

theorem fives_pos : 0 < fives := Nat.pow_pos (by decide)

/-- A Python `float`. -/
inductive Double where
  /-- so many units of `2 ^ (-1074)` -/
  | finite (negative : Bool) (units : ℕ) (isRounded : IsRounded units) (lt : units < overflow)
  | infinity (negative : Bool)
  | nan

namespace Double

/-- The double next to so many units, given as a fraction. -/
def ofFraction (negative : Bool) (a b : ℕ) : Double :=
  if h : roundUnits a b < overflow then
    .finite negative (roundUnits a b) (isRounded_roundUnits a b) h
  else .infinity negative

/-- The digits of the fraction of an unsigned literal. -/
def fractionDigits : List Char → List Char
  | '.' :: t => t.takeWhile isDigit
  | _ => []

/-- The power of ten that an exponent multiplies with, and the one it divides by. -/
def exponents : List Char → ℕ × ℕ
  | _ :: '-' :: t => (0, natOf t)
  | _ :: '+' :: t => (natOf t, 0)
  | _ :: t => (natOf t, 0)
  | [] => (0, 0)

/-- The value of an unsigned literal, as a fraction. -/
def fractionOf (literal : List Char) : ℕ × ℕ :=
  let whole := literal.takeWhile isDigit
  let fraction := fractionDigits (literal.drop whole.length)
  let (up, down) := exponents (literal.dropWhile fun c => c != 'e' && c != 'E')
  (natOf (whole ++ fraction) * 10 ^ up, 10 ^ (fraction.length + down))

/-- `float` of an unsigned literal. -/
def ofUnsigned (negative : Bool) (literal : List Char) : Double :=
  ofFraction negative ((fractionOf literal).1 * one) (fractionOf literal).2

/-- `float` of what the decoder takes for one. -/
def ofLiteral : List Char → Double
  | 'N' :: _ => .nan
  | 'I' :: _ => .infinity false
  | '-' :: 'I' :: _ => .infinity true
  | '-' :: t => ofUnsigned true t
  | t => ofUnsigned false t

/-! ### Printing -/

/-- `c` units of `10 ^ (t - places)` are rounded to this double. -/
def Reads (units c t : ℕ) : Prop := roundUnits (c * 10 ^ t) fives = units

instance (units c t : ℕ) : Decidable (Reads units c t) := inferInstanceAs (Decidable (_ = _))

/-- The double in units of `10 ^ (-places)`. -/
def decimalUnits (units : ℕ) : ℕ := units * fives

section Search

variable (reads : ℕ → Prop) [DecidablePred reads] (nearer : Prop) [Decidable nearer]

/-- The number itself if it is acceptable and `nearer`, or the only one, else the next one. -/
def eitherOf (low : ℕ) : Option ℕ :=
  if reads low ∧ (¬ reads (low + 1) ∨ nearer) then some low
  else if reads (low + 1) then some (low + 1)
  else none

/-- The first result of `attempt` on the way down from `t`, with its place. -/
def firstDown (attempt : ℕ → Option ℕ) (last : ℕ) : ℕ → ℕ × ℕ
  | 0 => (last, 0)
  | t + 1 => match attempt (t + 1) with
    | some c => (c, t + 1)
    | none => firstDown attempt last t

end Search

/-- The nearest number that ends `t` decimal digits earlier and is rounded to the double. -/
def candidate (units t : ℕ) : Option ℕ :=
  let exact := decimalUnits units
  let low := exact / 10 ^ t
  let below := exact - low * 10 ^ t
  let above := (low + 1) * 10 ^ t - exact
  eitherOf (Reads units · t) (below < above ∨ (below = above ∧ low % 2 = 0)) low

/-- The shortest decimal number that is rounded to the double: its digits, and how many it ends
earlier. -/
def shortest (units : ℕ) : ℕ × ℕ :=
  firstDown (candidate units) (decimalUnits units) (Nat.toDigits 10 (decimalUnits units)).length

/-- An exponent has two digits at least. -/
def exponentDigits (n : ℕ) : List Char :=
  if n < 10 then '0' :: Nat.toDigits 10 n else Nat.toDigits 10 n

/-- Digits with a point after the first of them, if there are more. -/
def pointAfterFirst : List Char → List Char
  | [d] => [d]
  | d :: ds => d :: '.' :: ds
  | [] => []

/-- `PyOS_double_to_string(x, 'r', 0, Py_DTSF_ADD_DOT_0)`, for digits with the point at `place`. -/
def format (digits : List Char) (place : ℤ) : List Char :=
  if place ≤ -4 ∨ place > 16 then
    pointAfterFirst digits ++
      if place - 1 < 0 then 'e' :: '-' :: exponentDigits (1 - place).toNat
      else 'e' :: '+' :: exponentDigits (place - 1).toNat
  else if place ≤ 0 then '0' :: '.' :: (List.replicate (-place).toNat '0' ++ digits)
  else if place.toNat < digits.length then
    digits.take place.toNat ++ '.' :: digits.drop place.toNat
  else digits ++ (List.replicate (place.toNat - digits.length) '0' ++ ['.', '0'])

/-- `repr` of a positive double. -/
def reprUnits (units : ℕ) : List Char :=
  let digits := Nat.toDigits 10 (shortest units).1
  format digits (digits.length + (shortest units).2 - places)

/-- `float.__repr__`, with the names of `json.dumps` for the constants. -/
def repr : Double → List Char
  | finite negative units _ _ =>
    (if negative then ['-'] else []) ++ if units = 0 then "0.0".toList else reprUnits units
  | infinity negative => if negative then "-Infinity".toList else "Infinity".toList
  | nan => "NaN".toList

end Double

/-! ### Digits -/

section Digits

variable {t s r ds : List Char} {c : Char}

/-- A row of digits. -/
def IsDigits (t : List Char) : Prop := ∀ c ∈ t, isDigit c = true

theorem IsDigits.append (hs : IsDigits s) (hr : IsDigits r) : IsDigits (s ++ r) := by
  intro c hc
  rcases List.mem_append.mp hc with hc | hc
  · exact hs c hc
  · exact hr c hc

theorem isDigits_zeros (n : ℕ) : IsDigits (List.replicate n '0') := by
  intro c hc
  rw [(List.mem_replicate.mp hc).2]
  rfl

theorem isDigits_toDigits (n : ℕ) : IsDigits (Nat.toDigits 10 n) := by
  intro c hc
  have h := Nat.isDigit_of_mem_toDigits (by decide) (by decide) hc
  rw [Char.isDigit, Bool.and_eq_true] at h
  rw [isDigit, Bool.and_eq_true]
  simpa [Char.le_def] using h

theorem natOf_append (s r : List Char) : natOf (s ++ r) = natOf s * 10 ^ r.length + natOf r := by
  rw [natOf, Nat.ofDigitChars_append, Nat.ofDigitChars_eq_ofDigitChars_zero, Nat.mul_comm]
  rfl

@[simp] theorem natOf_zeros (n : ℕ) : natOf (List.replicate n '0') = 0 := by
  rw [natOf, Nat.ofDigitChars_replicate_zero, Nat.mul_zero]

@[simp] theorem natOf_toDigits (n : ℕ) : natOf (Nat.toDigits 10 n) = n :=
  Nat.ofDigitChars_ten_toDigits

/-- The text does not go on with a character of this kind. -/
def Stops (kind : Char → Bool) (t : List Char) : Prop := ∀ c, t.head? = some c → kind c = false

theorem stops_cons {kind : Char → Bool} (h : kind c = false) : Stops kind (c :: t) := by
  intro b hb
  cases hb
  exact h

theorem stops_nil (kind : Char → Bool) : Stops kind [] := by
  intro b hb
  cases hb

theorem takeWhile_append {kind : Char → Bool} (hs : ∀ c ∈ s, kind c = true)
    (hr : Stops kind r) : (s ++ r).takeWhile kind = s := by
  rw [List.takeWhile_append_of_pos hs]
  cases r with
  | nil => rw [List.takeWhile_nil, List.append_nil]
  | cons c r => rw [List.takeWhile_cons_of_neg (by simp [hr c rfl]), List.append_nil]

theorem dropWhile_append {kind : Char → Bool} (hs : ∀ c ∈ s, kind c = true)
    (hr : Stops kind r) : (s ++ r).dropWhile kind = r := by
  rw [List.dropWhile_append_of_pos hs]
  cases r with
  | nil => rfl
  | cons c r => rw [List.dropWhile_cons_of_neg (by simp [hr c rfl])]

end Digits

/-! ### The form of a literal -/

/-- A fraction with its point, unless it is empty. -/
def point : List Char → List Char
  | [] => []
  | fraction => '.' :: fraction

/-- An exponent with its letter, or nothing: the power of ten that it multiplies with, and the one
that it divides by. -/
inductive IsExponent : List Char → ℕ → ℕ → Prop where
  | none : IsExponent [] 0 0
  | up {ds : List Char} (hne : ds ≠ []) (hds : IsDigits ds) :
    IsExponent ('e' :: '+' :: ds) (natOf ds) 0
  | down {ds : List Char} (hne : ds ≠ []) (hds : IsDigits ds) :
    IsExponent ('e' :: '-' :: ds) 0 (natOf ds)

/-- An unsigned literal that is no integer, and its value as a fraction. -/
inductive IsUnsigned : List Char → ℕ → ℕ → Prop where
  | mk {whole fraction exponent : List Char} {up down : ℕ} (hne : whole ≠ [])
    (hwhole : IsDigits whole) (hzero : whole = ['0'] ∨ whole.head? ≠ some '0')
    (hfraction : IsDigits fraction) (hexponent : IsExponent exponent up down)
    (hfloat : fraction = [] → exponent ≠ []) :
    IsUnsigned (whole ++ (point fraction ++ exponent)) (natOf (whole ++ fraction) * 10 ^ up)
      (10 ^ (fraction.length + down))

theorem IsExponent.stops {exponent : List Char} {up down : ℕ} (h : IsExponent exponent up down)
    {kind : Char → Bool} (he : kind 'e' = false) : Stops kind exponent := by
  cases h with
  | none => exact stops_nil kind
  | up => exact stops_cons he
  | down => exact stops_cons he

theorem IsExponent.exponents {exponent : List Char} {up down : ℕ}
    (h : IsExponent exponent up down) : Double.exponents exponent = (up, down) := by
  cases h with
  | none => rfl
  | up => rfl
  | down => rfl

theorem point_cases (fraction : List Char) :
    fraction = [] ∧ point fraction = [] ∨ fraction ≠ [] ∧ point fraction = '.' :: fraction := by
  cases fraction with
  | nil => exact .inl ⟨rfl, rfl⟩
  | cons c t => exact .inr ⟨List.cons_ne_nil c t, rfl⟩

theorem stops_point {fraction exponent : List Char} {up down : ℕ}
    (h : IsExponent exponent up down) : Stops isDigit (point fraction ++ exponent) := by
  rcases point_cases fraction with ⟨-, hp⟩ | ⟨-, hp⟩
  · rw [hp]
    exact h.stops rfl
  · rw [hp]
    exact stops_cons rfl

/-- A literal is read as its value. -/
theorem IsUnsigned.fractionOf {literal : List Char} {numerator denominator : ℕ}
    (h : IsUnsigned literal numerator denominator) :
    Double.fractionOf literal = (numerator, denominator) := by
  obtain ⟨hne, hwhole, hzero, hfraction, hexponent, hfloat⟩ := h
  rename_i whole fraction exponent up down
  have htake : (whole ++ (point fraction ++ exponent)).takeWhile isDigit = whole :=
    takeWhile_append hwhole (stops_point hexponent)
  have hdigits : Double.fractionDigits (point fraction ++ exponent) = fraction := by
    rcases point_cases fraction with ⟨hf, hp⟩ | ⟨hf, hp⟩
    · rw [hp, hf]
      cases hexponent with
      | none => rfl
      | up => rfl
      | down => rfl
    · rw [hp]
      exact takeWhile_append hfraction (hexponent.stops rfl)
  have hplain : ∀ c ∈ whole ++ point fraction, (c != 'e' && c != 'E') = true := by
    have hdigit : ∀ c, isDigit c = true → (c != 'e' && c != 'E') = true := by
      intro c hc
      rw [Bool.and_eq_true, bne_iff_ne, bne_iff_ne]
      constructor
      · rintro rfl
        cases hc
      · rintro rfl
        cases hc
    intro c hc
    rcases List.mem_append.mp hc with hc | hc
    · exact hdigit c (hwhole c hc)
    · rcases point_cases fraction with ⟨-, hp⟩ | ⟨-, hp⟩
      · rw [hp] at hc
        cases hc
      · rw [hp] at hc
        rcases List.mem_cons.mp hc with rfl | hc
        · rfl
        · exact hdigit c (hfraction c hc)
  have hdrop : (whole ++ (point fraction ++ exponent)).dropWhile
      (fun c => c != 'e' && c != 'E') = exponent := by
    rw [← List.append_assoc]
    exact dropWhile_append hplain (hexponent.stops rfl)
  rw [Double.fractionOf, htake, List.drop_left, hdigits, hdrop, hexponent.exponents]

theorem natOf_exponentDigits (n : ℕ) : natOf (Double.exponentDigits n) = n := by
  rw [Double.exponentDigits]
  split
  · rw [← List.singleton_append, natOf_append, natOf_toDigits]
    change 0 * _ + n = n
    omega
  · exact natOf_toDigits n

theorem isDigits_exponentDigits (n : ℕ) : IsDigits (Double.exponentDigits n) := by
  rw [Double.exponentDigits]
  split
  · rw [← List.singleton_append]
    exact (isDigits_zeros 1).append (isDigits_toDigits n)
  · exact isDigits_toDigits n

theorem exponentDigits_ne_nil (n : ℕ) : Double.exponentDigits n ≠ [] := by
  rw [Double.exponentDigits]
  split
  · exact List.cons_ne_nil _ _
  · exact Nat.toDigits_ne_nil

theorem pointAfterFirst_cons (d : Char) (rest : List Char) :
    Double.pointAfterFirst (d :: rest) = [d] ++ point rest := by
  cases rest with
  | nil => rfl
  | cons c t => rfl

theorem scale_eq (v : ℕ) {m a b k : ℕ} (h : m + a = b + k) :
    v * 10 ^ m * 10 ^ a = v * 10 ^ b * 10 ^ k := by
  rw [Nat.mul_assoc, ← Nat.pow_add, h, Nat.pow_add, ← Nat.mul_assoc]

section Format

variable {ds : List Char} {place : ℤ} {a b : ℕ}

/-- The exponents that `format` prints. -/
theorem isExponent_format (place : ℤ) : ∃ exponent up down, IsExponent exponent up down ∧
    exponent ≠ [] ∧ (up : ℤ) - down = place - 1 ∧
    (if place - 1 < 0 then 'e' :: '-' :: Double.exponentDigits (1 - place).toNat
      else 'e' :: '+' :: Double.exponentDigits (place - 1).toNat) = exponent := by
  split
  · refine ⟨_, 0, _, .down (exponentDigits_ne_nil _) (isDigits_exponentDigits _),
      List.cons_ne_nil _ _, ?_, rfl⟩
    rw [natOf_exponentDigits]
    omega
  · refine ⟨_, _, 0, .up (exponentDigits_ne_nil _) (isDigits_exponentDigits _),
      List.cons_ne_nil _ _, ?_, rfl⟩
    rw [natOf_exponentDigits]
    omega

/-- What is printed has the form of a literal, and the value of its digits at their place. -/
theorem isUnsigned_format (hne : ds ≠ []) (hds : IsDigits ds) (hzero : ds.head? ≠ some '0')
    (place : ℤ) :
    ∃ numerator denominator, IsUnsigned (Double.format ds place) numerator denominator ∧
      0 < denominator ∧ ∀ a b : ℕ, place - ds.length = b - a →
        numerator * 10 ^ a = natOf ds * 10 ^ b * denominator := by
  have hpow : ∀ n, 0 < 10 ^ n := fun n => Nat.pow_pos (by decide)
  rw [Double.format]
  by_cases hexp : place ≤ -4 ∨ place > 16
  · rw [if_pos hexp]
    obtain ⟨d, rest, rfl⟩ := List.exists_cons_of_ne_nil hne
    obtain ⟨exponent, up, down, hexponent, hsome, hplace, heq⟩ := isExponent_format place
    have hform : IsUnsigned ([d] ++ (point rest ++ exponent)) _ _ :=
      .mk (List.cons_ne_nil d []) (fun c hc => hds c (List.mem_cons.mpr (.inl (by simpa using hc))))
        (.inr hzero) (fun c hc => hds c (List.mem_cons_of_mem d hc)) hexponent fun _ => hsome
    rw [heq, pointAfterFirst_cons, List.append_assoc]
    refine ⟨_, _, hform, hpow _, fun a b hab => ?_⟩
    rw [List.length_cons] at hab
    exact scale_eq _ (by omega)
  · rw [if_neg hexp]
    by_cases hneg : place ≤ 0
    · rw [if_pos hneg]
      have hform : IsUnsigned (['0'] ++ (point (List.replicate (-place).toNat '0' ++ ds) ++ []))
          _ _ :=
        .mk (List.cons_ne_nil _ _) (isDigits_zeros 1) (.inl rfl) ((isDigits_zeros _).append hds)
          .none fun h => absurd (List.append_eq_nil_iff.mp h).2 hne
      have hvalue : natOf (['0'] ++ (List.replicate (-place).toNat '0' ++ ds)) = natOf ds := by
        rw [natOf_append, natOf_append, natOf_zeros]
        change 0 * _ + _ = _
        omega
      rcases point_cases (List.replicate (-place).toNat '0' ++ ds) with ⟨h, -⟩ | ⟨-, hp⟩
      · exact absurd (List.append_eq_nil_iff.mp h).2 hne
      · rw [hp, List.append_nil] at hform
        refine ⟨_, _, hform, hpow _, fun a b hab => ?_⟩
        rw [hvalue, List.length_append, List.length_replicate]
        exact scale_eq _ (by omega)
    · rw [if_neg hneg]
      by_cases hmid : place.toNat < ds.length
      · rw [if_pos hmid]
        have htake : ds.take place.toNat ≠ [] := by
          intro h
          rcases List.take_eq_nil_iff.mp h with h | h
          · omega
          · exact hne h
        have hdrop : ds.drop place.toNat ≠ [] := by
          intro h
          exact absurd (List.drop_eq_nil_iff.mp h) (Nat.not_le.mpr hmid)
        have hhead : (ds.take place.toNat).head? ≠ some '0' := by
          obtain ⟨d, rest, rfl⟩ := List.exists_cons_of_ne_nil hne
          obtain ⟨n, hn⟩ : ∃ n, place.toNat = n + 1 := ⟨place.toNat - 1, by omega⟩
          rw [hn, List.take_succ_cons]
          exact hzero
        have hform : IsUnsigned (ds.take place.toNat ++ (point (ds.drop place.toNat) ++ [])) _ _ :=
          .mk htake (fun c hc => hds c (List.mem_of_mem_take hc)) (.inr hhead)
            (fun c hc => hds c (List.mem_of_mem_drop hc)) .none fun h => absurd h hdrop
        rcases point_cases (ds.drop place.toNat) with ⟨h, -⟩ | ⟨-, hp⟩
        · exact absurd h hdrop
        · rw [hp, List.append_nil] at hform
          refine ⟨_, _, hform, hpow _, fun a b hab => ?_⟩
          rw [List.take_append_drop, List.length_drop]
          exact scale_eq _ (by omega)
      · rw [if_neg hmid]
        have hhead : (ds ++ List.replicate (place.toNat - ds.length) '0').head? ≠ some '0' := by
          obtain ⟨d, rest, rfl⟩ := List.exists_cons_of_ne_nil hne
          exact hzero
        have hform : IsUnsigned ((ds ++ List.replicate (place.toNat - ds.length) '0') ++
            (point ['0'] ++ [])) _ _ :=
          .mk (fun h => hne (List.append_eq_nil_iff.mp h).1) (hds.append (isDigits_zeros _))
            (.inr hhead) (isDigits_zeros 1) .none fun h => absurd h (List.cons_ne_nil _ _)
        rw [List.append_assoc] at hform
        refine ⟨_, _, hform, hpow _, fun a b hab => ?_⟩
        have hvalue : natOf (ds ++ List.replicate (place.toNat - ds.length) '0' ++ ['0']) =
            natOf ds * 10 ^ (place.toNat - ds.length + 1) := by
          rw [List.append_assoc, ← List.replicate_succ', natOf_append, natOf_zeros,
            List.length_replicate, Nat.add_zero]
        rw [hvalue, Nat.pow_zero, Nat.mul_one]
        exact scale_eq _ (by rw [List.length_singleton]; omega)

end Format

/-! ### Reading what is printed -/

/-- A positive number does not begin with a zero. -/
theorem head_toDigits {n : ℕ} (h : 0 < n) : (Nat.toDigits 10 n).head? ≠ some '0' := by
  induction n using Nat.strongRecOn with
  | ind n ih =>
    rcases Nat.lt_or_ge n 10 with hlt | hge
    · rw [Nat.toDigits_of_lt_base hlt, List.head?_cons]
      have hne : ∀ m : Fin 10, 0 < m.val → some m.val.digitChar ≠ some '0' := by decide
      exact hne ⟨n, hlt⟩ h
    · rw [Nat.toDigits_of_base_le (by decide) hge]
      have hih := ih (n / 10) (Nat.div_lt_self h (by decide)) (Nat.div_pos hge (by decide))
      obtain ⟨d, ds, hds⟩ :=
        List.exists_cons_of_ne_nil (Nat.toDigits_ne_nil (n := n / 10) (b := 10))
      rw [hds] at hih ⊢
      exact hih

namespace Double

variable {units : ℕ}

theorem reads_exact (h : IsRounded units) : Reads units (decimalUnits units) 0 := by
  rw [Reads, Nat.pow_zero, Nat.mul_one]
  exact roundUnits_eq_self h fives_pos

theorem of_eitherOf {reads : ℕ → Prop} [DecidablePred reads] {nearer : Prop} [Decidable nearer]
    {low c : ℕ} (h : eitherOf reads nearer low = some c) : reads c := by
  rw [eitherOf] at h
  split at h
  · rename_i hlow
    cases h
    exact hlow.1
  · split at h
    · rename_i hhigh
      cases h
      exact hhigh
    · cases h

theorem of_firstDown {reads : ℕ → ℕ → Prop} {attempt : ℕ → Option ℕ} {last : ℕ}
    (hlast : reads last 0) (hattempt : ∀ t c, attempt t = some c → reads c t) (t : ℕ) :
    reads (firstDown attempt last t).1 (firstDown attempt last t).2 := by
  induction t with
  | zero => exact hlast
  | succ t ih =>
    rw [firstDown]
    split
    · rename_i c hc
      exact hattempt _ c hc
    · exact ih

theorem reads_candidate {t c : ℕ} (h : candidate units t = some c) : Reads units c t := by
  rw [candidate] at h
  generalize decimalUnits units = exact at h
  exact @of_eitherOf (Reads units · t) _ _ _ _ _ h

theorem reads_shortest (h : IsRounded units) :
    Reads units (shortest units).1 (shortest units).2 :=
  of_firstDown (reads_exact h) (fun _ _ => reads_candidate) _

theorem pos_of_reads {c t : ℕ} (h : Reads units c t) (hpos : 0 < units) : 0 < c := by
  rcases Nat.eq_zero_or_pos c with rfl | hc
  · rw [Reads, Nat.zero_mul, roundUnits_zero fives_pos] at h
    omega
  · exact hc

theorem ofFraction_eq {negative : Bool} {a b : ℕ} (h : roundUnits a b = units)
    (hr : IsRounded units) (hlt : units < overflow) :
    ofFraction negative a b = .finite negative units hr hlt := by
  subst h
  exact dif_pos hlt

theorem isUnsigned_reprUnits (hr : IsRounded units) (hpos : 0 < units) :
    ∃ numerator denominator, IsUnsigned (reprUnits units) numerator denominator ∧
      roundUnits (numerator * one) denominator = units := by
  have hreads := reads_shortest hr
  obtain ⟨numerator, denominator, hform, hden, hvalue⟩ :=
    isUnsigned_format (Nat.toDigits_ne_nil (n := (shortest units).1) (b := 10))
      (isDigits_toDigits _) (head_toDigits (pos_of_reads hreads hpos))
      ((Nat.toDigits 10 (shortest units).1).length + (shortest units).2 - places)
  refine ⟨numerator, denominator, hform, ?_⟩
  have heq := hvalue places (shortest units).2 (by omega)
  rw [natOf_toDigits, ← one_mul_fives, ← Nat.mul_assoc] at heq
  rw [← hreads]
  exact roundUnits_congr hden fives_pos heq

end Double

/-- A literal begins with a digit. -/
theorem IsUnsigned.head {literal : List Char} {numerator denominator : ℕ}
    (h : IsUnsigned literal numerator denominator) :
    ∃ c t, literal = c :: t ∧ isDigit c = true := by
  obtain ⟨hne, hwhole, -, -, -, -⟩ := h
  rename_i whole fraction exponent up down
  obtain ⟨c, t, rfl⟩ := List.exists_cons_of_ne_nil hne
  exact ⟨c, _, rfl, hwhole c (List.mem_cons_self ..)⟩

theorem isUnsigned_zero : IsUnsigned "0.0".toList 0 10 :=
  @IsUnsigned.mk ['0'] ['0'] [] _ _ (List.cons_ne_nil _ _) (isDigits_zeros 1) (.inl rfl)
    (isDigits_zeros 1) .none fun h => absurd h (List.cons_ne_nil _ _)

namespace Double

theorem ofLiteral_digit {c : Char} {t : List Char} (h : isDigit c = true) :
    ofLiteral (c :: t) = ofUnsigned false (c :: t) ∧
      ofLiteral ('-' :: c :: t) = ofUnsigned true (c :: t) := by
  have hN : c ≠ 'N' := by
    rintro rfl
    cases h
  have hI : c ≠ 'I' := by
    rintro rfl
    cases h
  have hminus : c ≠ '-' := by
    rintro rfl
    cases h
  constructor
  · rw [ofLiteral.eq_def]
    split <;> simp_all
  · rw [ofLiteral.eq_def]
    split <;> simp_all

/-- The digits of a finite double, without its sign. -/
theorem isUnsigned_repr (hr : IsRounded units) : ∃ numerator denominator,
    IsUnsigned (if units = 0 then "0.0".toList else reprUnits units) numerator denominator ∧
      roundUnits (numerator * one) denominator = units := by
  split
  · rename_i h
    subst h
    refine ⟨0, 10, isUnsigned_zero, ?_⟩
    rw [Nat.zero_mul]
    exact roundUnits_zero (by decide)
  · rename_i h
    exact isUnsigned_reprUnits hr (Nat.pos_of_ne_zero h)

/-- **What is printed is read back.** -/
theorem ofLiteral_repr (d : Double) : ofLiteral d.repr = d := by
  cases d with
  | nan => rfl
  | infinity negative => cases negative <;> rfl
  | finite negative units hr hlt =>
    obtain ⟨numerator, denominator, hform, hround⟩ := isUnsigned_repr hr
    obtain ⟨c, t, hlit, hc⟩ := hform.head
    rw [repr, hlit]
    rw [hlit] at hform
    have hvalue : ∀ b, ofUnsigned b (c :: t) = .finite b units hr hlt := by
      intro b
      rw [ofUnsigned, hform.fractionOf]
      exact ofFraction_eq hround hr hlt
    cases negative with
    | false => exact (ofLiteral_digit hc).1.trans (hvalue false)
    | true => exact (ofLiteral_digit hc).2.trans (hvalue true)

end Double

end Json
