import Mathlib.Data.Int.Notation
import Mathlib.Data.Nat.Notation

/-!
# `json.loads`

The decoder of Python's `json` module, for a text. It reads one value from the left, and fails at
the first place where the text is not JSON. Two things end it earlier: arrays and objects nested
deeper than the stack allows, and an integer with more digits than `int` converts. Both depend on
how far the decoder has read, so it leaves a trace of what it asks for on its way, a `Demand` for
each array, object and integer that it arrives at. The first demand beyond the limits is what
`json.loads` raises; if there is none, the text alone decides.

A string is a list of code points, since an escape may name half of a surrogate pair.

## Main definitions

* `Value` — the values
* `Scan`, `scanOnce` — the decoder with its trace
* `loads` — `json.loads`

## Main results

* `loads_of_within`, `loads_of_not_within` — what the limits change
* `scanOnce_fuel` — the fuel of the decoder is enough
-/

namespace Json

/-! ### Values -/

/-- What `json.loads` returns. -/
inductive Value where
  | null
  | bool (value : Bool)
  | int (value : ℤ)
  /-- A number with a fraction or an exponent, or one of the three constants, as it is written. -/
  | float (literal : List Char)
  | str (codePoints : List ℕ)
  | array (items : List Value)
  /-- The members in the order of the text. -/
  | object (members : List (List ℕ × Value))

mutual

/-- Whether two values are the same. -/
def Value.same : Value → Value → Bool
  | .null, .null => true
  | .bool a, .bool b => a = b
  | .int a, .int b => a = b
  | .float a, .float b => a = b
  | .str a, .str b => a = b
  | .array a, .array b => sameItems a b
  | .object a, .object b => sameMembers a b
  | _, _ => false

def sameItems : List Value → List Value → Bool
  | [], [] => true
  | a :: items, b :: others => a.same b && sameItems items others
  | _, _ => false

def sameMembers : List (List ℕ × Value) → List (List ℕ × Value) → Bool
  | [], [] => true
  | (key, a) :: members, (key', b) :: others =>
    key = key' && a.same b && sameMembers members others
  | _, _ => false

end

mutual

theorem Value.same_iff (a : Value) : ∀ b, a.same b = true ↔ a = b := by
  intro b
  cases a with
  | array items =>
    have h := sameItems_iff items
    cases b <;> simp [Value.same, h]
  | object members =>
    have h := sameMembers_iff members
    cases b <;> simp [Value.same, h]
  | _ => cases b <;> simp [Value.same]

theorem sameItems_iff (items : List Value) :
    ∀ others, sameItems items others = true ↔ items = others := by
  intro others
  cases items with
  | nil => cases others <;> simp [sameItems]
  | cons a items =>
    have ha := a.same_iff
    have h := sameItems_iff items
    cases others <;> simp [sameItems, ha, h]

theorem sameMembers_iff (members : List (List ℕ × Value)) :
    ∀ others, sameMembers members others = true ↔ members = others := by
  intro others
  rcases members with _ | ⟨⟨key, a⟩, members⟩
  · cases others <;> simp [sameMembers]
  · have ha := a.same_iff
    have h := sameMembers_iff members
    cases others <;> simp [sameMembers, ha, h, Prod.ext_iff, and_assoc]

end

instance : DecidableEq Value := fun a b => decidable_of_iff _ (a.same_iff b)

/-- The code points of a text. -/
def codePoints (text : String) : List ℕ := text.toList.map Char.toNat

/-- `dict.get`; of two members with one key the later one counts. -/
def get (members : List (List ℕ × Value)) (key : String) : Option Value :=
  (members.reverse.find? fun m => m.1 = codePoints key).map Prod.snd

/-! ### Traces -/

/-- What the decoder asks for. -/
inductive Demand where
  /-- to go down to this depth -/
  | nesting (depth : ℕ)
  /-- to convert an integer of so many digits -/
  | digits (count : ℕ)
  deriving DecidableEq, Repr

/-- A decoding step: what it asked for, in order, and its result unless the text is malformed. -/
structure Scan (α : Type) where
  demands : List Demand
  result : Option α

namespace Scan

variable {α β : Type}

/-- Sequencing; what follows a failure is not asked for. -/
def bind (s : Scan α) (f : α → Scan β) : Scan β :=
  match s.result with
  | none => ⟨s.demands, none⟩
  | some a => ⟨s.demands ++ (f a).demands, (f a).result⟩

instance : Monad Scan where
  pure a := ⟨[], some a⟩
  bind := bind

/-- A malformed text. -/
def fail : Scan α := ⟨[], none⟩

def demand (d : Demand) : Scan Unit := ⟨[d], some ()⟩

def ofOption (result : Option α) : Scan α := ⟨[], result⟩

end Scan

/-! ### Tokens -/

/-- The whitespace between tokens. -/
def isSpace (c : Char) : Bool := c = ' ' || c = '\t' || c = '\n' || c = '\r'

def skipSpace (t : List Char) : List Char := t.dropWhile isSpace

/-- The value of a hexadecimal digit. -/
def hexDigit (c : Char) : Option ℕ :=
  if '0' ≤ c ∧ c ≤ '9' then some (c.toNat - '0'.toNat)
  else if 'a' ≤ c ∧ c ≤ 'f' then some (c.toNat - 'a'.toNat + 10)
  else if 'A' ≤ c ∧ c ≤ 'F' then some (c.toNat - 'A'.toNat + 10)
  else none

/-- The four digits of `\uXXXX`. -/
def hex4 (a b c d : Char) : Option ℕ := do
  let a ← hexDigit a
  let b ← hexDigit b
  let c ← hexDigit c
  let d ← hexDigit d
  return ((a * 16 + b) * 16 + c) * 16 + d

/-- The escapes of one letter. -/
def escape : Char → Option ℕ
  | '"' => some 0x22
  | '\\' => some 0x5c
  | '/' => some 0x2f
  | 'b' => some 8
  | 'f' => some 0xc
  | 'n' => some 0xa
  | 'r' => some 0xd
  | 't' => some 9
  | _ => none

/-- A string after its opening quote, with its escapes replaced one by one. -/
def scanChars : List Char → Option (List ℕ × List Char)
  | [] => none
  | '"' :: t => some ([], t)
  | '\\' :: 'u' :: a :: b :: c :: d :: t => do
    let unit ← hex4 a b c d
    let (rest, t) ← scanChars t
    return (unit :: rest, t)
  | '\\' :: c :: t => do
    let unit ← escape c
    let (rest, t) ← scanChars t
    return (unit :: rest, t)
  | c :: t =>
    if c = '\\' ∨ c.toNat < 0x20 then none else do
      let (rest, t) ← scanChars t
      return (c.toNat :: rest, t)

/-- The two halves of a surrogate pair become one code point. -/
def joinSurrogates : List ℕ → List ℕ
  | high :: low :: rest =>
    if 0xd800 ≤ high ∧ high < 0xdc00 ∧ 0xdc00 ≤ low ∧ low < 0xe000 then
      (0x10000 + (high - 0xd800) * 0x400 + (low - 0xdc00)) :: joinSurrogates rest
    else high :: joinSurrogates (low :: rest)
  | units => units

/-- `scanstring` -/
def scanString (t : List Char) : Option (List ℕ × List Char) :=
  (scanChars t).map fun (units, rest) => (joinSurrogates units, rest)

/-! ### Numbers -/

def isDigit (c : Char) : Bool := '0' ≤ c && c ≤ '9'

/-- The value of a row of digits. -/
def natOf (digits : List Char) : ℕ := Nat.ofDigitChars 10 digits 0

/-- The digits of the integer part: none if there is no number. -/
def integerPart : List Char → List Char
  | '0' :: _ => ['0']
  | t => t.takeWhile isDigit

/-- The fraction with its dot, if a digit follows the dot. -/
def fractionPart : List Char → List Char
  | '.' :: t => if (t.takeWhile isDigit).isEmpty then [] else '.' :: t.takeWhile isDigit
  | _ => []

/-- The sign of an exponent. -/
def exponentSign : List Char → List Char
  | '-' :: _ => ['-']
  | '+' :: _ => ['+']
  | _ => []

/-- The exponent with its letter, if it has a digit. -/
def exponentPart : List Char → List Char
  | [] => []
  | c :: t =>
    let sign := exponentSign t
    let digits := (t.drop sign.length).takeWhile isDigit
    if (c = 'e' ∨ c = 'E') ∧ ¬ digits.isEmpty then c :: (sign ++ digits) else []

/-- `_match_number`, after the sign. -/
def scanUnsigned (negative : Bool) (t : List Char) : Scan (Value × List Char) :=
  let whole := integerPart t
  let fraction := fractionPart (t.drop whole.length)
  let exponent := exponentPart (t.drop (whole.length + fraction.length))
  let rest := t.drop (whole.length + fraction.length + exponent.length)
  if whole.isEmpty then .fail
  else if fraction.isEmpty && exponent.isEmpty then do
    Scan.demand (.digits whole.length)
    return (.int (if negative then -natOf whole else natOf whole), rest)
  else
    return (.float ((if negative then ['-'] else []) ++ whole ++ fraction ++ exponent), rest)

/-- `_match_number` -/
def scanNumber : List Char → Scan (Value × List Char)
  | '-' :: t => scanUnsigned true t
  | t => scanUnsigned false t

/-! ### Values of a text -/

mutual

/-- `scan_once`. Every call passes over a character or two later, so twice the length of the text
is fuel enough. -/
def scanOnce : ℕ → ℕ → List Char → Scan (Value × List Char)
  | 0, _, _ => .fail
  | fuel + 1, depth, t =>
    match t with
    | '"' :: t => do
      let (s, rest) ← Scan.ofOption (scanString t)
      return (.str s, rest)
    | '\x7b' :: t => do
      Scan.demand (.nesting (depth + 1))
      match skipSpace t with
      | '\x7d' :: rest => return (.object [], rest)
      | t =>
        let (members, rest) ← scanMembers fuel (depth + 1) t
        return (.object members, rest)
    | '[' :: t => do
      Scan.demand (.nesting (depth + 1))
      match skipSpace t with
      | ']' :: rest => return (.array [], rest)
      | t =>
        let (items, rest) ← scanItems fuel (depth + 1) t
        return (.array items, rest)
    | 'n' :: 'u' :: 'l' :: 'l' :: rest => return (.null, rest)
    | 't' :: 'r' :: 'u' :: 'e' :: rest => return (.bool true, rest)
    | 'f' :: 'a' :: 'l' :: 's' :: 'e' :: rest => return (.bool false, rest)
    | 'N' :: 'a' :: 'N' :: rest => return (.float "NaN".toList, rest)
    | 'I' :: 'n' :: 'f' :: 'i' :: 'n' :: 'i' :: 't' :: 'y' :: rest =>
      return (.float "Infinity".toList, rest)
    | '-' :: 'I' :: 'n' :: 'f' :: 'i' :: 'n' :: 'i' :: 't' :: 'y' :: rest =>
      return (.float "-Infinity".toList, rest)
    | t => scanNumber t

/-- The members of an object, from the quote of a key on. -/
def scanMembers : ℕ → ℕ → List Char → Scan (List (List ℕ × Value) × List Char)
  | 0, _, _ => .fail
  | fuel + 1, depth, t =>
    match t with
    | '"' :: t => do
      let (key, rest) ← Scan.ofOption (scanString t)
      match skipSpace rest with
      | ':' :: rest =>
        let (value, rest) ← scanOnce fuel depth (skipSpace rest)
        match skipSpace rest with
        | '\x7d' :: rest => return ([(key, value)], rest)
        | ',' :: rest =>
          let (members, rest) ← scanMembers fuel depth (skipSpace rest)
          return ((key, value) :: members, rest)
        | _ => .fail
      | _ => .fail
    | _ => .fail

/-- The items of an array, from the first value on. -/
def scanItems : ℕ → ℕ → List Char → Scan (List Value × List Char)
  | 0, _, _ => .fail
  | fuel + 1, depth, t => do
    let (value, rest) ← scanOnce fuel depth t
    match skipSpace rest with
    | ']' :: rest => return ([value], rest)
    | ',' :: rest =>
      let (items, rest) ← scanItems fuel depth (skipSpace rest)
      return (value :: items, rest)
    | _ => .fail

end

/-- `JSONDecoder.decode`: one value, with nothing but whitespace around it. -/
def decode (t : List Char) : Scan Value := do
  let (value, rest) ← scanOnce (2 * t.length + 1) 0 (skipSpace t)
  if (skipSpace rest).isEmpty then return value else .fail

/-! ### `json.loads` -/

/-- The limits of the interpreter. -/
structure Limits where
  /-- how many arrays and objects may be open at a time -/
  depth : ℕ
  /-- how many digits `int` converts -/
  digits : ℕ

/-- The exceptions of `json.loads`. -/
inductive Error where
  | jsonDecodeError
  | recursionError
  | valueError
  deriving DecidableEq, Repr

/-- What is raised where a demand is too much. -/
def Demand.exceeds (limits : Limits) : Demand → Option Error
  | nesting depth => if limits.depth < depth then some .recursionError else none
  | digits count => if limits.digits < count then some .valueError else none

/-- The trace of a text; a byte order mark is refused at once. -/
def scan : List Char → Scan Value
  | '\ufeff' :: _ => .fail
  | t => decode t

/-- `json.loads` -/
def loads (limits : Limits) (t : List Char) : Except Error Value :=
  match (scan t).demands.findSome? (Demand.exceeds limits) with
  | some error => .error error
  | none =>
    match (scan t).result with
    | some value => .ok value
    | none => .error .jsonDecodeError

/-- Nothing that the decoder arrives at in the text is beyond the limits. -/
def Within (limits : Limits) (t : List Char) : Prop :=
  ∀ demand ∈ (scan t).demands, demand.exceeds limits = none

instance (limits : Limits) (t : List Char) : Decidable (Within limits t) :=
  inferInstanceAs (Decidable (∀ demand ∈ (scan t).demands, demand.exceeds limits = none))

section Limits

variable {limits : Limits} {t : List Char}

/-- Within the limits, the text alone decides. -/
theorem loads_of_within (h : Within limits t) :
    loads limits t = (scan t).result.elim (.error .jsonDecodeError) .ok := by
  have hnone : (scan t).demands.findSome? (Demand.exceeds limits) = none :=
    List.findSome?_eq_none_iff.mpr h
  rw [loads, hnone]
  cases (scan t).result <;> rfl

/-- Beyond them, the text is not even found to be malformed. -/
theorem loads_of_not_within (h : ¬ Within limits t) :
    loads limits t = .error .recursionError ∨ loads limits t = .error .valueError := by
  cases hfirst : (scan t).demands.findSome? (Demand.exceeds limits) with
  | none => exact absurd (List.findSome?_eq_none_iff.mp hfirst) h
  | some error =>
    obtain ⟨demand, -, hdemand⟩ := List.exists_of_findSome?_eq_some hfirst
    rw [loads, hfirst]
    cases demand with
    | nesting depth =>
      obtain ⟨-, h⟩ := Option.ite_none_right_eq_some.mp hdemand
      cases h
      exact .inl rfl
    | digits count =>
      obtain ⟨-, h⟩ := Option.ite_none_right_eq_some.mp hdemand
      cases h
      exact .inr rfl

end Limits

/-! ### The fuel is enough -/

namespace Scan

variable {α β : Type} {s : Scan α} {f g : α → Scan β}

theorem result_bind (s : Scan α) (f : α → Scan β) :
    (s >>= f).result = s.result.bind fun a => (f a).result := by
  change (Scan.bind s f).result = _
  rw [Scan.bind]
  cases s.result <;> rfl

theorem bind_congr (h : ∀ a, s.result = some a → f a = g a) : s >>= f = s >>= g := by
  change Scan.bind s f = Scan.bind s g
  rw [Scan.bind, Scan.bind]
  cases hs : s.result with
  | none => rfl
  | some a =>
    dsimp only
    rw [h a hs]

/-- Every value leaves a shorter text. -/
def Shortens (t : List Char) (s : Scan (α × List Char)) : Prop :=
  ∀ a rest, s.result = some (a, rest) → rest.length < t.length

theorem shortens_fail {t : List Char} : Shortens t (fail : Scan (α × List Char)) := by
  intro a rest h
  cases h

theorem shortens_pure {t rest : List Char} {a : α} (h : rest.length < t.length) :
    Shortens t (pure (a, rest)) := by
  intro b rest' hb
  cases hb
  exact h

/-- A step before a shortening one. -/
theorem shortens_bind {γ : Type} {t : List Char} {s : Scan γ} {f : γ → Scan (α × List Char)}
    (h : ∀ a, s.result = some a → Shortens t (f a)) : Shortens t (s >>= f) := by
  intro b rest hb
  rw [result_bind, Option.bind_eq_some_iff] at hb
  obtain ⟨a, ha, hb⟩ := hb
  exact h a ha b rest hb

theorem Shortens.seq {γ : Type} {t t' : List Char} {s : Scan (γ × List Char)}
    {f : γ × List Char → Scan (α × List Char)} (h : Shortens t s)
    (hf : ∀ p, p.2.length < t.length → Shortens t' (f p)) : Shortens t' (s >>= f) :=
  shortens_bind fun p hp => hf p (h p.1 p.2 hp)

theorem Shortens.mono {t t' : List Char} {s : Scan (α × List Char)} (h : Shortens t s)
    (ht : t.length ≤ t'.length) : Shortens t' s :=
  fun a rest hs => Nat.lt_of_lt_of_le (h a rest hs) ht

end Scan

open Scan

variable {t rest : List Char}

theorem length_skipSpace_le (t : List Char) : (skipSpace t).length ≤ t.length :=
  (List.dropWhile_suffix _).length_le

theorem length_of_scanChars {units : List ℕ} (h : scanChars t = some (units, rest)) :
    rest.length < t.length := by
  have hmore : ∀ {t t' : List Char} {unit : ℕ}, t.length ≤ t'.length →
      (∀ {units : List ℕ} {rest : List Char}, scanChars t = some (units, rest) →
        rest.length < t.length) →
      ∀ {units rest}, (scanChars t).bind (fun p => some (unit :: p.1, p.2)) = some (units, rest) →
        rest.length < t'.length := by
    intro t t' unit hle ih units rest h
    obtain ⟨⟨more, rest'⟩, hscan, h⟩ := Option.bind_eq_some_iff.mp h
    obtain ⟨rfl, rfl⟩ := Prod.mk.inj (Option.some.inj h)
    exact Nat.lt_of_lt_of_le (ih hscan) hle
  induction t using scanChars.induct generalizing units rest with
  | case1 => cases h
  | case2 t =>
    obtain ⟨rfl, rfl⟩ := Prod.mk.inj (Option.some.inj h)
    exact Nat.lt_succ_self _
  | case3 a b c d t ih =>
    rw [scanChars] at h
    obtain ⟨unit, -, h⟩ := Option.bind_eq_some_iff.mp h
    exact hmore (by simp only [List.length_cons]; omega) ih h
  | case4 c t hne ih =>
    rw [scanChars.eq_4 _ _ hne] at h
    obtain ⟨unit, -, h⟩ := Option.bind_eq_some_iff.mp h
    exact hmore (by simp only [List.length_cons]; omega) ih h
  | case5 c t h1 h2 h3 hc =>
    rw [scanChars.eq_5 _ _ h1 h2 h3, if_pos hc] at h
    cases h
  | case6 c t h1 h2 h3 hc ih =>
    rw [scanChars.eq_5 _ _ h1 h2 h3, if_neg hc] at h
    exact hmore (by simp only [List.length_cons]; omega) ih h

theorem length_of_scanString {units : List ℕ} (h : scanString t = some (units, rest)) :
    rest.length < t.length := by
  obtain ⟨⟨us, r⟩, hscan, h⟩ := Option.map_eq_some_iff.mp h
  obtain ⟨-, rfl⟩ := Prod.mk.inj h
  exact length_of_scanChars hscan

theorem shortens_scanUnsigned (negative : Bool) (t : List Char) :
    Shortens t (scanUnsigned negative t) := by
  rw [scanUnsigned]
  have hdrop : ∀ n, (integerPart t).isEmpty = false →
      (t.drop ((integerPart t).length + n)).length < t.length := by
    intro n h
    have hne : integerPart t ≠ [] := by simpa using h
    have hpos := List.length_pos_iff.mpr hne
    have hle : 0 < t.length := by
      cases t with
      | nil => cases hne rfl
      | cons c t => exact Nat.succ_pos _
    rw [List.length_drop]
    omega
  split
  · exact shortens_fail
  · rename_i h
    have h := Bool.eq_false_iff.mpr h
    split
    · refine shortens_bind fun _ _ => shortens_pure ?_
      rw [Nat.add_assoc]
      exact hdrop _ h
    · refine shortens_pure ?_
      rw [Nat.add_assoc]
      exact hdrop _ h

theorem shortens_scanNumber (t : List Char) : Shortens t (scanNumber t) := by
  rw [scanNumber.eq_def]
  split
  · exact (shortens_scanUnsigned true _).mono (Nat.le_succ _)
  · exact shortens_scanUnsigned false _

theorem shortens_scanString (t : List Char) :
    Shortens t (Scan.ofOption (scanString t)) :=
  fun _ _ => length_of_scanString

theorem shortens_values (n : ℕ) :
    (∀ depth t, Shortens t (scanOnce n depth t)) ∧
    (∀ depth t, Shortens t (scanMembers n depth t)) ∧
    ∀ depth t, Shortens t (scanItems n depth t) := by
  induction n with
  | zero => exact ⟨fun _ _ => shortens_fail, fun _ _ => shortens_fail, fun _ _ => shortens_fail⟩
  | succ n ih =>
    obtain ⟨ihOnce, ihMembers, ihItems⟩ := ih
    refine ⟨fun depth t => ?_, fun depth t => ?_, fun depth t => ?_⟩
    · rw [scanOnce.eq_def]
      dsimp only
      split
      · exact (shortens_scanString _).seq fun _ h => shortens_pure (Nat.lt_succ_of_lt h)
      · rename_i t
        have hle := length_skipSpace_le t
        refine shortens_bind fun _ _ => ?_
        split
        · rename_i hs
          rw [hs, List.length_cons] at hle
          exact shortens_pure (by rw [List.length_cons]; omega)
        · refine (ihMembers _ _).seq fun _ h => shortens_pure ?_
          rw [List.length_cons]
          omega
      · rename_i t
        have hle := length_skipSpace_le t
        refine shortens_bind fun _ _ => ?_
        split
        · rename_i hs
          rw [hs, List.length_cons] at hle
          exact shortens_pure (by rw [List.length_cons]; omega)
        · refine (ihItems _ _).seq fun _ h => shortens_pure ?_
          rw [List.length_cons]
          omega
      all_goals first
        | exact shortens_scanNumber _
        | exact shortens_pure (by simp only [List.length_cons]; omega)
    · rw [scanMembers.eq_def]
      dsimp only
      split
      · rename_i t
        refine (shortens_scanString _).seq fun key hkey => ?_
        have hle := length_skipSpace_le key.2
        split
        · rename_i rest hs
          rw [hs, List.length_cons] at hle
          have hle' := length_skipSpace_le rest
          refine (ihOnce _ _).seq fun value hvalue => ?_
          have hle'' := length_skipSpace_le value.2
          split
          · rename_i hs
            rw [hs, List.length_cons] at hle''
            exact shortens_pure (by rw [List.length_cons]; omega)
          · rename_i more hs
            rw [hs, List.length_cons] at hle''
            have hmore := length_skipSpace_le more
            refine (ihMembers _ _).seq fun _ h => shortens_pure ?_
            rw [List.length_cons]
            omega
          · exact shortens_fail
        · exact shortens_fail
      · exact shortens_fail
    · rw [scanItems.eq_def]
      dsimp only
      refine (ihOnce _ _).seq fun value hvalue => ?_
      have hle := length_skipSpace_le value.2
      split
      · rename_i hs
        rw [hs, List.length_cons] at hle
        exact shortens_pure (by omega)
      · rename_i more hs
        rw [hs, List.length_cons] at hle
        have hmore := length_skipSpace_le more
        exact (ihItems _ _).seq fun _ h => shortens_pure (by omega)
      · exact shortens_fail

theorem fuel_values (n : ℕ) :
    (∀ m depth t, 2 * t.length + 1 ≤ n → n ≤ m → scanOnce n depth t = scanOnce m depth t) ∧
    (∀ m depth t, 2 * t.length + 2 ≤ n → n ≤ m →
      scanMembers n depth t = scanMembers m depth t) ∧
    ∀ m depth t, 2 * t.length + 2 ≤ n → n ≤ m → scanItems n depth t = scanItems m depth t := by
  induction n with
  | zero =>
    refine ⟨?_, ?_, ?_⟩
    all_goals
      intro m depth t h
      omega
  | succ n ih =>
    obtain ⟨ihOnce, ihMembers, ihItems⟩ := ih
    refine ⟨?_, ?_, ?_⟩
    · intro m depth t hn hm
      obtain ⟨m, rfl⟩ : ∃ k, m = k + 1 := ⟨m - 1, by omega⟩
      rw [scanOnce.eq_def, scanOnce.eq_def]
      dsimp only
      split
      · rfl
      · rename_i t
        rw [List.length_cons] at hn
        have hle := length_skipSpace_le t
        refine bind_congr fun _ _ => ?_
        split
        · rfl
        · rw [ihMembers m _ _ (by omega) (by omega)]
      · rename_i t
        rw [List.length_cons] at hn
        have hle := length_skipSpace_le t
        refine bind_congr fun _ _ => ?_
        split
        · rfl
        · rw [ihItems m _ _ (by omega) (by omega)]
      all_goals rfl
    · intro m depth t hn hm
      obtain ⟨m, rfl⟩ : ∃ k, m = k + 1 := ⟨m - 1, by omega⟩
      rw [scanMembers.eq_def, scanMembers.eq_def]
      dsimp only
      split
      · rename_i t
        rw [List.length_cons] at hn
        refine bind_congr fun key hkey => ?_
        have hkey := shortens_scanString t key.1 key.2 hkey
        have hle := length_skipSpace_le key.2
        split
        · rename_i rest hs
          rw [hs, List.length_cons] at hle
          have hle' := length_skipSpace_le rest
          rw [ihOnce m _ _ (by omega) (by omega)]
          refine bind_congr fun value hvalue => ?_
          have hvalue := (shortens_values m).1 _ _ value.1 value.2 hvalue
          have hle'' := length_skipSpace_le value.2
          split
          · rfl
          · rename_i more hs
            rw [hs, List.length_cons] at hle''
            have hmore := length_skipSpace_le more
            rw [ihMembers m _ _ (by omega) (by omega)]
          · rfl
        · rfl
      · rfl
    · intro m depth t hn hm
      obtain ⟨m, rfl⟩ : ∃ k, m = k + 1 := ⟨m - 1, by omega⟩
      rw [scanItems.eq_def, scanItems.eq_def]
      dsimp only
      rw [ihOnce m _ _ (by omega) (by omega)]
      refine bind_congr fun value hvalue => ?_
      have hvalue := (shortens_values m).1 _ _ value.1 value.2 hvalue
      have hle := length_skipSpace_le value.2
      split
      · rfl
      · rename_i more hs
        rw [hs, List.length_cons] at hle
        have hmore := length_skipSpace_le more
        rw [ihItems m _ _ (by omega) (by omega)]
      · rfl

/-- The fuel of the decoder is enough. -/
theorem scanOnce_fuel {n depth : ℕ} (h : 2 * t.length + 1 ≤ n) :
    scanOnce (2 * t.length + 1) depth t = scanOnce n depth t :=
  (fuel_values _).1 n depth t (Nat.le_refl _) h

end Json
