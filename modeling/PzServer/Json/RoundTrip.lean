import PzServer.Json.Strings

/-!
# Printing and reading back

What `json.dumps` prints, `json.loads` reads back, for all data that was read once: such data is
`Kept`. It is not nested deeper than the limit, its integers are not longer than the limit, its
keys are different and its strings have no surrogate pairs in two halves.

## Main results

* `parse_encode` — what is printed is read back
* `kept_of_parse` — what is read is kept
-/

namespace Json

/-- What can be printed and read again, at a depth. -/
inductive Data.Kept (limits : Limits) : ℕ → Data → Prop where
  | none {depth : ℕ} : Kept limits depth .none
  | bool {depth : ℕ} {value : Bool} : Kept limits depth (.bool value)
  | int {depth : ℕ} {value : ℤ}
    (hdigits : (Nat.toDigits 10 value.natAbs).length ≤ limits.digits) :
    Kept limits depth (.int value)
  | float {depth : ℕ} {value : Double} : Kept limits depth (.float value)
  | str {depth : ℕ} {codePoints : List ℕ} (htext : IsText codePoints) :
    Kept limits depth (.str codePoints)
  | list {depth : ℕ} {items : List Data} (hdepth : depth + 1 ≤ limits.depth)
    (hitems : ∀ item ∈ items, Kept limits (depth + 1) item) : Kept limits depth (.list items)
  | dict {depth : ℕ} {entries : List (List ℕ × Data)} (hdepth : depth + 1 ≤ limits.depth)
    (hkeys : (entries.map Prod.fst).Nodup) (htexts : ∀ entry ∈ entries, IsText entry.1)
    (hvalues : ∀ entry ∈ entries, Kept limits (depth + 1) entry.2) :
    Kept limits depth (.dict entries)

variable {α β : Type} {limits : Limits} {t rest r : List Char} {c : Char} {n depth level fuel : ℕ}

/-! ### Steps within the limits -/

/-- The step asks for nothing beyond the limits, and has this result. -/
structure Scan.Yields (limits : Limits) (s : Scan α) (a : α) : Prop where
  within : ∀ demand ∈ s.demands, demand.exceeds limits = none
  result : s.result = some a

namespace Scan

variable {s : Scan α} {f : α → Scan β} {a : α} {b : β} {d : Demand}

theorem yields_pure (a : α) : Yields limits (pure a : Scan α) a := by
  refine ⟨fun demand h => ?_, rfl⟩
  cases h

theorem Yields.bind (h : Yields limits s a) (hf : Yields limits (f a) b) :
    Yields limits (s >>= f) b := by
  have hbind : s >>= f = ⟨s.demands ++ (f a).demands, (f a).result⟩ := by
    change Scan.bind s f = _
    rw [Scan.bind, h.result]
  rw [hbind]
  refine ⟨fun demand hdemand => ?_, hf.result⟩
  rcases List.mem_append.mp hdemand with hdemand | hdemand
  · exact h.within demand hdemand
  · exact hf.within demand hdemand

theorem yields_demand (h : d.exceeds limits = none) : Yields limits (demand d) () := by
  refine ⟨fun demand hdemand => ?_, rfl⟩
  rw [List.mem_singleton.mp hdemand]
  exact h

theorem yields_ofOption {result : Option α} (h : result = some a) :
    Yields limits (ofOption result) a := by
  refine ⟨fun demand hdemand => ?_, h⟩
  cases hdemand

end Scan

open Scan

theorem exceeds_nesting (h : depth ≤ limits.depth) :
    (Demand.nesting depth).exceeds limits = none := if_neg (Nat.not_lt.mpr h)

theorem exceeds_digits (h : n ≤ limits.digits) : (Demand.digits n).exceeds limits = none :=
  if_neg (Nat.not_lt.mpr h)

/-! ### Numbers -/

/-- A number may go on with this character. -/
def continuesNumber (c : Char) : Bool := isDigit c || c = '.' || c = 'e' || c = 'E'

theorem Stops.mono {kind kind' : Char → Bool} (h : Stops kind t)
    (hkind : ∀ c, kind' c = true → kind c = true) : Stops kind' t := by
  intro c hc
  have hfalse := h c hc
  cases hkind' : kind' c with
  | false => rfl
  | true => rw [hkind c hkind'] at hfalse; exact hfalse

theorem Stops.digit (h : Stops continuesNumber t) : Stops isDigit t :=
  h.mono fun c hc => by simp [continuesNumber, hc]

theorem Stops.not_cons (h : Stops continuesNumber t) (hc : continuesNumber c = true)
    (r : List Char) : t ≠ c :: r := by
  rintro rfl
  rw [h c rfl] at hc
  cases hc

section Parts

variable {whole fraction exponent : List Char} {up down : ℕ}

theorem integerPart_append (hne : whole ≠ []) (hwhole : IsDigits whole)
    (hzero : whole = ['0'] ∨ whole.head? ≠ some '0') (hr : Stops isDigit r) :
    integerPart (whole ++ r) = whole := by
  rcases hzero with rfl | hzero
  · rfl
  · obtain ⟨c, more, rfl⟩ := List.exists_cons_of_ne_nil hne
    rw [List.cons_append, integerPart.eq_2 _ fun t ht => hzero (by cases ht; rfl),
      ← List.cons_append]
    exact takeWhile_append hwhole hr

theorem fractionPart_other (h : ∀ r, t ≠ '.' :: r) : fractionPart t = [] := by
  cases t with
  | nil => rfl
  | cons c t => exact fractionPart.eq_2 _ fun r hr => h r hr

theorem fractionPart_append (hfraction : IsDigits fraction)
    (hexponent : IsExponent exponent up down) (hrest : Stops continuesNumber rest) :
    fractionPart (point fraction ++ (exponent ++ rest)) = point fraction := by
  have hstops : Stops isDigit (exponent ++ rest) := by
    cases hexponent with
    | none => exact hrest.digit
    | up => exact stops_cons rfl
    | down => exact stops_cons rfl
  rcases point_cases fraction with ⟨-, hp⟩ | ⟨hne, hp⟩
  · rw [hp]
    refine fractionPart_other fun r => ?_
    cases hexponent with
    | none => exact hrest.not_cons rfl r
    | up => exact fun h => absurd (List.cons.inj h).1 (by decide)
    | down => exact fun h => absurd (List.cons.inj h).1 (by decide)
  · rw [hp, List.cons_append, fractionPart, takeWhile_append hfraction hstops,
      if_neg (by simpa using hne)]

theorem exponentPart_append (hexponent : IsExponent exponent up down)
    (hrest : Stops continuesNumber rest) : exponentPart (exponent ++ rest) = exponent := by
  cases hexponent with
  | none =>
    cases rest with
    | nil => rfl
    | cons c r =>
      rw [List.nil_append, exponentPart, if_neg]
      rintro ⟨rfl | rfl, -⟩
      · exact hrest.not_cons rfl r rfl
      · exact hrest.not_cons rfl r rfl
  | up hne hds =>
    rename_i ds
    have htake : (ds ++ rest).takeWhile isDigit = ds := takeWhile_append hds hrest.digit
    change exponentPart ('e' :: '+' :: (ds ++ rest)) = _
    simp [exponentPart, exponentSign, htake, hne]
  | down hne hds =>
    rename_i ds
    have htake : (ds ++ rest).takeWhile isDigit = ds := takeWhile_append hds hrest.digit
    change exponentPart ('e' :: '-' :: (ds ++ rest)) = _
    simp [exponentPart, exponentSign, htake, hne]

theorem scanUnsigned_parts (negative : Bool) (hne : whole ≠ [])
    (hwhole : integerPart (whole ++ (fraction ++ (exponent ++ rest))) = whole)
    (hfraction : fractionPart (fraction ++ (exponent ++ rest)) = fraction)
    (hexponent : exponentPart (exponent ++ rest) = exponent) :
    scanUnsigned negative (whole ++ (fraction ++ (exponent ++ rest))) =
      if fraction.isEmpty && exponent.isEmpty then do
        Scan.demand (.digits whole.length)
        return (.int (if negative then -natOf whole else natOf whole), rest)
      else
        return (.float ((if negative then ['-'] else []) ++ whole ++ fraction ++ exponent),
          rest) := by
  have h1 : (whole ++ (fraction ++ (exponent ++ rest))).drop whole.length =
      fraction ++ (exponent ++ rest) := List.drop_left
  have h2 : (whole ++ (fraction ++ (exponent ++ rest))).drop (whole.length + fraction.length) =
      exponent ++ rest := by
    rw [← List.drop_drop, h1, List.drop_left]
  have h3 : (whole ++ (fraction ++ (exponent ++ rest))).drop
      (whole.length + fraction.length + exponent.length) = rest := by
    rw [← List.drop_drop, h2, List.drop_left]
  simp only [scanUnsigned, hwhole, h1, hfraction, h2, hexponent, h3]
  rw [if_neg (by simpa using hne)]

end Parts

/-- A literal with a fraction or an exponent is read as it is written. -/
theorem scanUnsigned_float {literal : List Char} {numerator denominator : ℕ}
    (h : IsUnsigned literal numerator denominator) (hrest : Stops continuesNumber rest)
    (negative : Bool) :
    scanUnsigned negative (literal ++ rest) =
      pure (.float ((if negative then ['-'] else []) ++ literal), rest) := by
  obtain ⟨hne, hwhole, hzero, hfraction, hexponent, hfloat⟩ := h
  rename_i whole fraction exponent up down
  have hstops : Stops isDigit (point fraction ++ (exponent ++ rest)) := by
    rcases point_cases fraction with ⟨-, hp⟩ | ⟨-, hp⟩
    · rw [hp]
      cases hexponent with
      | none => exact hrest.digit
      | up => exact stops_cons rfl
      | down => exact stops_cons rfl
    · rw [hp]
      exact stops_cons rfl
  have hparts := scanUnsigned_parts negative hne (integerPart_append hne hwhole hzero hstops)
    (fractionPart_append hfraction hexponent hrest) (exponentPart_append hexponent hrest)
  have hsome : ¬ ((point fraction).isEmpty && exponent.isEmpty) = true := by
    rcases point_cases fraction with ⟨hf, hp⟩ | ⟨-, hp⟩
    · simp [hp, hfloat hf]
    · simp [hp]
  rw [if_neg hsome] at hparts
  simpa only [List.append_assoc] using hparts

/-- The digits of a number are read as the number. -/
theorem scanUnsigned_int (n : ℕ) (hrest : Stops continuesNumber rest) (negative : Bool) :
    scanUnsigned negative (Nat.toDigits 10 n ++ rest) = (do
      Scan.demand (.digits (Nat.toDigits 10 n).length)
      return (.int (if negative then -n else n), rest)) := by
  have hne : Nat.toDigits 10 n ≠ [] := Nat.toDigits_ne_nil
  have hzero : Nat.toDigits 10 n = ['0'] ∨ (Nat.toDigits 10 n).head? ≠ some '0' := by
    rcases Nat.eq_zero_or_pos n with rfl | hpos
    · exact .inl rfl
    · exact .inr (head_toDigits hpos)
  have hparts := @scanUnsigned_parts rest (Nat.toDigits 10 n) [] [] negative hne
    (integerPart_append hne (isDigits_toDigits n) hzero hrest.digit)
    (fractionPart_other (hrest.not_cons rfl)) (exponentPart_append .none hrest)
  rw [natOf_toDigits] at hparts
  exact hparts

theorem scanOnce_digit (h : isDigit c = true) (fuel depth : ℕ) (t : List Char) :
    scanOnce (fuel + 1) depth (c :: t) = scanUnsigned false (c :: t) ∧
      scanOnce (fuel + 1) depth ('-' :: c :: t) = scanUnsigned true (c :: t) := by
  have hne : ∀ b, isDigit b = false → c ≠ b := by
    rintro b hb rfl
    rw [hb] at h
    cases h
  have hminus : c ≠ '-' := hne _ rfl
  have hI : c ≠ 'I' := hne _ rfl
  have hnumber : scanNumber (c :: t) = scanUnsigned false (c :: t) :=
    scanNumber.eq_2 _ fun r hr => hminus (List.cons.inj hr).1
  constructor
  · rw [scanOnce.eq_def]
    dsimp only
    split
    all_goals first
      | exact hnumber
      | exact absurd (List.cons.inj ‹_›).1 (hne _ rfl)
  · rw [scanOnce.eq_def]
    dsimp only
    split
    all_goals first
      | rfl
      | exact absurd (List.cons.inj ‹_›).1 (by decide)
      | exact absurd (List.cons.inj (List.cons.inj ‹_›).2).1 hI

/-! ### Values -/

/-- The first character of a value: no space, and nothing that closes a list. -/
def StartsValue (t : List Char) : Prop :=
  ∃ c r, t = c :: r ∧ isSpace c = false ∧ c ≠ ']' ∧ c ≠ '\ufeff'

theorem startsValue_cons {c : Char} {r : List Char} (hspace : isSpace c = false) (hclose : c ≠ ']')
    (hmark : c ≠ '\ufeff') : StartsValue (c :: r) := ⟨c, r, rfl, hspace, hclose, hmark⟩

theorem startsValue_digit {c : Char} {r : List Char} (h : isDigit c = true) :
    StartsValue (c :: r) := by
  have hne : ∀ b, isDigit b = false → c ≠ b := by
    rintro b hb rfl
    rw [hb] at h
    cases h
  refine startsValue_cons ?_ (hne _ rfl) (hne _ rfl)
  rw [isSpace]
  simp [hne ' ' rfl, hne '\t' rfl, hne '\n' rfl, hne '\r' rfl]

theorem StartsValue.append (h : StartsValue t) (r : List Char) : StartsValue (t ++ r) := by
  obtain ⟨c, more, rfl, hc⟩ := h
  exact ⟨c, more ++ r, rfl, hc⟩

theorem startsValue_repr (d : Double) : StartsValue d.repr := by
  cases d with
  | nan => exact startsValue_cons (by decide) (by decide) (by decide)
  | infinity negative =>
    cases negative with
    | false => exact startsValue_cons (by decide) (by decide) (by decide)
    | true => exact startsValue_cons (by decide) (by decide) (by decide)
  | finite negative units hr hlt =>
    obtain ⟨numerator, denominator, hform, -⟩ := Double.isUnsigned_repr hr
    obtain ⟨c, t, hlit, hc⟩ := hform.head
    rw [Double.repr, hlit]
    cases negative with
    | false => exact startsValue_digit hc
    | true => exact startsValue_cons (by decide) (by decide) (by decide)

theorem startsValue_encode (level : ℕ) (data : Data) : StartsValue (encode level data) := by
  have hopen : ∀ {c r}, c = '"' ∨ c = '[' ∨ c = '\x7b' ∨ c = '-' ∨ c = 'n' ∨ c = 't' ∨ c = 'f' →
      StartsValue (c :: r) := by
    rintro c r (rfl | rfl | rfl | rfl | rfl | rfl | rfl)
    all_goals exact startsValue_cons (by decide) (by decide) (by decide)
  cases data with
  | none =>
    change StartsValue ['n', 'u', 'l', 'l']
    exact hopen (by simp)
  | bool value =>
    cases value with
    | false =>
      change StartsValue ['f', 'a', 'l', 's', 'e']
      exact hopen (by simp)
    | true =>
      change StartsValue ['t', 'r', 'u', 'e']
      exact hopen (by simp)
  | int value =>
    rw [encode, encodeInt]
    obtain ⟨c, t, hct⟩ := List.exists_cons_of_ne_nil
      (Nat.toDigits_ne_nil (n := value.natAbs) (b := 10))
    split
    · exact hopen (by simp)
    · rw [hct]
      exact startsValue_digit (isDigits_toDigits value.natAbs c (by rw [hct]; simp))
  | float value => exact startsValue_repr value
  | str codePoints => exact hopen (by simp)
  | list items =>
    cases items with
    | nil =>
      change StartsValue ['[', ']']
      exact hopen (by simp)
    | cons item items => exact hopen (by simp)
  | dict entries =>
    cases entries with
    | nil => exact hopen (by simp)
    | cons entry entries => exact hopen (by simp)

theorem skipSpace_starts (h : StartsValue t) : skipSpace t = t := by
  obtain ⟨c, r, rfl, hspace, -, -⟩ := h
  exact List.dropWhile_cons_of_neg (by simp [hspace])

theorem skipSpace_newline (level : ℕ) (t : List Char) :
    skipSpace (newline level ++ t) = skipSpace t := by
  rw [newline, List.cons_append, skipSpace, List.dropWhile_cons_of_pos rfl,
    List.dropWhile_append_of_pos]
  · rfl
  · intro c hc
    rw [(List.mem_replicate.mp hc).2]
    rfl

/-- What is printed of the data at this depth is read back, whatever comes after it. -/
def IsReadBack (limits : Limits) (depth : ℕ) (data : Data) : Prop :=
  ∀ level rest, Stops continuesNumber rest → ∃ value : Value, value.data = data ∧
    ∃ n, ∀ fuel, n ≤ fuel →
      Yields limits (scanOnce fuel depth (encode level data ++ rest)) (value, rest)

theorem isReadBack_int {value : ℤ}
    (hdigits : (Nat.toDigits 10 value.natAbs).length ≤ limits.digits) :
    IsReadBack limits depth (.int value) := by
  intro level rest hrest
  refine ⟨.int value, rfl, 1, fun fuel hfuel => ?_⟩
  obtain ⟨fuel, rfl⟩ : ∃ k, fuel = k + 1 := ⟨fuel - 1, by omega⟩
  have hdemand := yields_demand (exceeds_digits hdigits)
  obtain ⟨c, t, hct⟩ := List.exists_cons_of_ne_nil
    (Nat.toDigits_ne_nil (n := value.natAbs) (b := 10))
  have hc : isDigit c = true := isDigits_toDigits value.natAbs c (by rw [hct]; simp)
  have hscan := scanOnce_digit hc fuel depth (t ++ rest)
  rw [← List.cons_append, ← hct] at hscan
  rw [encode, encodeInt]
  by_cases hneg : value < 0
  · rw [if_pos hneg, List.singleton_append, List.cons_append, hscan.2, scanUnsigned_int _ hrest]
    refine hdemand.bind ?_
    have hvalue : -(value.natAbs : ℤ) = value := by omega
    rw [if_pos rfl, hvalue]
    exact yields_pure _
  · rw [if_neg hneg, List.nil_append, hscan.1, scanUnsigned_int _ hrest]
    refine hdemand.bind ?_
    have hvalue : (value.natAbs : ℤ) = value := by omega
    rw [if_neg (by decide), hvalue]
    exact yields_pure _

theorem isReadBack_float (value : Double) : IsReadBack limits depth (.float value) := by
  intro level rest hrest
  refine ⟨.float value.repr, congrArg Data.float value.ofLiteral_repr, 1, fun fuel hfuel => ?_⟩
  obtain ⟨fuel, rfl⟩ : ∃ k, fuel = k + 1 := ⟨fuel - 1, by omega⟩
  suffices h : scanOnce (fuel + 1) depth (value.repr ++ rest) = pure (.float value.repr, rest) by
    rw [encode, h]
    exact yields_pure _
  cases value with
  | nan => rfl
  | infinity negative => cases negative <;> rfl
  | finite negative units hr hlt =>
    obtain ⟨numerator, denominator, hform, -⟩ := Double.isUnsigned_repr hr
    obtain ⟨c, t, hlit, hc⟩ := hform.head
    have hfloat := scanUnsigned_float hform hrest
    rw [Double.repr]
    rw [hlit] at hfloat ⊢
    cases negative with
    | false => exact (scanOnce_digit hc fuel depth (t ++ rest)).1.trans (hfloat false)
    | true => exact (scanOnce_digit hc fuel depth (t ++ rest)).2.trans (hfloat true)

theorem isReadBack_str {codePoints : List ℕ} (htext : IsText codePoints) :
    IsReadBack limits depth (.str codePoints) := by
  intro level rest _
  refine ⟨.str codePoints, rfl, 1, fun fuel hfuel => ?_⟩
  obtain ⟨fuel, rfl⟩ : ∃ k, fuel = k + 1 := ⟨fuel - 1, by omega⟩
  rw [encode, encodeString, List.cons_append, List.append_assoc, List.singleton_append]
  exact (yields_ofOption (scanString_encode htext rest)).bind (yields_pure _)

theorem stops_comma (r : List Char) : Stops continuesNumber (',' :: r) := stops_cons rfl

theorem stops_newline (level : ℕ) (r : List Char) :
    Stops continuesNumber (newline level ++ r) := stops_cons rfl

/-- The items of a list are read back, from the first one on. -/
theorem scanItems_encode {item : Data} {items : List Data} (hitem : IsReadBack limits depth item)
    (hitems : ∀ x ∈ items, IsReadBack limits depth x) (level level' : ℕ) (rest : List Char) :
    ∃ values : List Value, dataItems values = item :: items ∧ ∃ n, ∀ fuel, n ≤ fuel →
      Yields limits (scanItems fuel depth (encode level item ++ (encodeItems level items ++
        (newline level' ++ ']' :: rest)))) (values, rest) := by
  induction items generalizing item with
  | nil =>
    obtain ⟨value, hvalue, n, hn⟩ := hitem level _ (stops_newline level' (']' :: rest))
    refine ⟨[value], by rw [dataItems, dataItems, hvalue], n + 1, fun fuel hfuel => ?_⟩
    obtain ⟨fuel, rfl⟩ : ∃ k, fuel = k + 1 := ⟨fuel - 1, by omega⟩
    rw [scanItems]
    refine (hn fuel (by omega)).bind ?_
    dsimp only
    rw [skipSpace_newline]
    exact yields_pure _
  | cons next items ih =>
    obtain ⟨values, hvalues, m, hm⟩ :=
      ih (hitems next (List.mem_cons_self ..)) fun x hx => hitems x (List.mem_cons_of_mem next hx)
    obtain ⟨value, hvalue, n, hn⟩ := hitem level (encodeItems level (next :: items) ++
      (newline level' ++ ']' :: rest)) (stops_comma _)
    refine ⟨value :: values, by rw [dataItems, hvalue, hvalues], max n m + 1, fun fuel hfuel => ?_⟩
    obtain ⟨fuel, rfl⟩ : ∃ k, fuel = k + 1 := ⟨fuel - 1, by omega⟩
    rw [scanItems]
    refine (hn fuel (by omega)).bind ?_
    rw [encodeItems]
    simp only [List.cons_append, List.append_assoc]
    change Yields limits (scanItems fuel depth (skipSpace (newline level ++ _)) >>= _) _
    rw [skipSpace_newline, skipSpace_starts ((startsValue_encode level next).append _)]
    exact (hm fuel (by omega)).bind (yields_pure _)

/-- The entries of a dictionary are read back, from the first one on. -/
theorem scanMembers_encode {key : List ℕ} {data : Data} {entries : List (List ℕ × Data)}
    (hkey : IsText key) (hdata : IsReadBack limits depth data)
    (hkeys : ∀ x ∈ entries, IsText x.1) (hvalues : ∀ x ∈ entries, IsReadBack limits depth x.2)
    (level level' : ℕ) (rest : List Char) :
    ∃ members : List (List ℕ × Value),
      members.map (fun m => (m.1, m.2.data)) = (key, data) :: entries ∧ ∃ n, ∀ fuel, n ≤ fuel →
        Yields limits (scanMembers fuel depth (encodeString key ++ (':' :: ' ' ::
          (encode level data ++ (encodeEntries level entries ++
            (newline level' ++ '\x7d' :: rest)))))) (members, rest) := by
  induction entries generalizing key data with
  | nil =>
    obtain ⟨value, hvalue, n, hn⟩ := hdata level _ (stops_newline level' ('\x7d' :: rest))
    refine ⟨[(key, value)], by rw [← hvalue]; rfl, n + 1, fun fuel hfuel => ?_⟩
    obtain ⟨fuel, rfl⟩ : ∃ k, fuel = k + 1 := ⟨fuel - 1, by omega⟩
    rw [encodeString, List.cons_append, List.append_assoc, List.singleton_append, scanMembers]
    refine (yields_ofOption (scanString_encode hkey _)).bind ?_
    change Yields limits (scanOnce fuel depth (skipSpace (encode level data ++ _)) >>= _) _
    rw [skipSpace_starts ((startsValue_encode level data).append _)]
    refine (hn fuel (by omega)).bind ?_
    dsimp only
    rw [skipSpace_newline]
    exact yields_pure _
  | cons next entries ih =>
    obtain ⟨members, hmembers, m, hm⟩ :=
      ih (hkeys next (List.mem_cons_self ..)) (hvalues next (List.mem_cons_self ..))
        (fun x hx => hkeys x (List.mem_cons_of_mem next hx))
        fun x hx => hvalues x (List.mem_cons_of_mem next hx)
    obtain ⟨value, hvalue, n, hn⟩ := hdata level (encodeEntries level (next :: entries) ++
      (newline level' ++ '\x7d' :: rest)) (stops_comma _)
    refine ⟨(key, value) :: members, by rw [List.map_cons, hmembers, hvalue], max n m + 1,
      fun fuel hfuel => ?_⟩
    obtain ⟨fuel, rfl⟩ : ∃ k, fuel = k + 1 := ⟨fuel - 1, by omega⟩
    rw [encodeString, List.cons_append, List.append_assoc, List.singleton_append, scanMembers]
    refine (yields_ofOption (scanString_encode hkey _)).bind ?_
    change Yields limits (scanOnce fuel depth (skipSpace (encode level data ++ _)) >>= _) _
    rw [skipSpace_starts ((startsValue_encode level data).append _)]
    refine (hn fuel (by omega)).bind ?_
    rw [encodeEntries]
    simp only [List.cons_append, List.append_assoc]
    change Yields limits (scanMembers fuel depth (skipSpace (newline level ++ _)) >>= _) _
    rw [skipSpace_newline]
    exact (hm fuel (by omega)).bind (yields_pure _)

/-! ### Dictionaries -/

section Entries

variable {entries : List (List ℕ × α)} {key : List ℕ} {value : α}

theorem setItem_new (h : key ∉ entries.map Prod.fst) :
    setItem entries key value = entries ++ [(key, value)] := by
  induction entries with
  | nil => rfl
  | cons entry entries ih =>
    rw [List.map_cons, List.mem_cons, not_or] at h
    rw [setItem, if_neg (Ne.symm h.1), ih h.2, List.cons_append]

theorem map_fst_setItem (entries : List (List ℕ × α)) (key : List ℕ) (value : α) :
    (setItem entries key value).map Prod.fst =
      if key ∈ entries.map Prod.fst then entries.map Prod.fst
      else entries.map Prod.fst ++ [key] := by
  induction entries with
  | nil => rfl
  | cons entry entries ih =>
    rw [setItem]
    by_cases h : entry.1 = key
    · rw [if_pos h, if_pos (by rw [List.map_cons, h]; exact List.mem_cons_self ..)]
      rfl
    · rw [if_neg h, List.map_cons, ih, List.map_cons]
      by_cases hmem : key ∈ entries.map Prod.fst
      · rw [if_pos hmem, if_pos (List.mem_cons_of_mem _ hmem)]
      · rw [if_neg hmem, if_neg, List.cons_append]
        rw [List.mem_cons, not_or]
        exact ⟨Ne.symm h, hmem⟩

theorem setItem_setItem (entries : List (List ℕ × α)) (key : List ℕ) (value value' : α) :
    setItem (setItem entries key value) key value' = setItem entries key value' := by
  induction entries with
  | nil => exact if_pos rfl
  | cons entry entries ih =>
    rw [setItem, setItem]
    by_cases h : entry.1 = key
    · rw [if_pos h, if_pos h]
      exact if_pos h
    · rw [if_neg h, if_neg h, setItem, if_neg h, ih]

theorem getItem_setItem (entries : List (List ℕ × α)) (key k : List ℕ) (value : α) :
    getItem (setItem entries key value) k =
      if k = key then some value else getItem entries k := by
  induction entries with
  | nil =>
    rw [setItem, getItem, List.find?_cons]
    by_cases h : k = key
    · rw [if_pos h, decide_eq_true h.symm]
      rfl
    · rw [if_neg h, decide_eq_false (Ne.symm h)]
      rfl
  | cons entry entries ih =>
    rw [getItem] at ih
    rw [setItem, getItem, getItem, List.find?_cons (a := entry)]
    by_cases h : entry.1 = key
    · rw [if_pos h, List.find?_cons]
      by_cases hk : k = key
      · rw [if_pos hk, decide_eq_true (h.trans hk.symm)]
        rfl
      · rw [if_neg hk, decide_eq_false fun heq => hk (heq.symm.trans h)]
    · rw [if_neg h, List.find?_cons]
      by_cases hk : entry.1 = k
      · rw [decide_eq_true hk, if_neg fun heq => h (hk.trans heq)]
      · rw [decide_eq_false hk]
        exact ih

theorem nodup_setItem (h : (entries.map Prod.fst).Nodup) (key : List ℕ) (value : α) :
    ((setItem entries key value).map Prod.fst).Nodup := by
  rw [map_fst_setItem]
  split
  · exact h
  · rename_i hnew
    rw [List.nodup_append]
    refine ⟨h, List.nodup_cons.mpr ⟨List.not_mem_nil, List.nodup_nil⟩, fun a ha b hb => ?_⟩
    rw [List.mem_singleton.mp hb]
    rintro rfl
    exact hnew ha

theorem forall_setItem {P : List ℕ × α → Prop} (h : ∀ entry ∈ entries, P entry)
    (hnew : P (key, value)) : ∀ entry ∈ setItem entries key value, P entry := by
  induction entries with
  | nil =>
    intro entry hentry
    rw [List.mem_singleton.mp hentry]
    exact hnew
  | cons first entries ih =>
    intro entry hentry
    rw [setItem] at hentry
    split at hentry
    · rename_i heq
      rcases List.mem_cons.mp hentry with rfl | hentry
      · rw [heq]
        exact hnew
      · exact h entry (List.mem_cons_of_mem first hentry)
    · rcases List.mem_cons.mp hentry with rfl | hentry
      · exact h _ (List.mem_cons_self ..)
      · exact ih (fun x hx => h x (List.mem_cons_of_mem first hx)) entry hentry

end Entries

/-- Members with different keys are entered as they are. -/
theorem dataMembers_of_nodup {entries : List (List ℕ × Data)} {members : List (List ℕ × Value)}
    (h : (entries.map Prod.fst ++ members.map Prod.fst).Nodup) :
    dataMembers entries members = entries ++ members.map fun m => (m.1, m.2.data) := by
  induction members generalizing entries with
  | nil => rw [dataMembers, List.map_nil, List.append_nil]
  | cons m members ih =>
    have hnew : m.1 ∉ entries.map Prod.fst := by
      intro hm
      exact (List.nodup_append.mp h).2.2 _ hm _ (List.mem_cons_self ..) rfl
    rw [dataMembers, setItem_new hnew, ih, List.append_assoc]
    · rfl
    · rw [List.map_append, List.append_assoc]
      exact h

/-! ### Reading back -/

theorem isReadBack_list {items : List Data} (hdepth : depth + 1 ≤ limits.depth)
    (hitems : ∀ item ∈ items, IsReadBack limits (depth + 1) item) :
    IsReadBack limits depth (.list items) := by
  intro level rest _
  have hdemand := yields_demand (exceeds_nesting hdepth)
  cases items with
  | nil =>
    refine ⟨.array [], rfl, 1, fun fuel hfuel => ?_⟩
    obtain ⟨fuel, rfl⟩ : ∃ k, fuel = k + 1 := ⟨fuel - 1, by omega⟩
    exact hdemand.bind (yields_pure _)
  | cons item items =>
    obtain ⟨values, hvalues, n, hn⟩ := scanItems_encode (hitems item (List.mem_cons_self ..))
      (fun x hx => hitems x (List.mem_cons_of_mem item hx)) (level + 1) level rest
    refine ⟨.array values, by rw [Value.data, hvalues], n + 1, fun fuel hfuel => ?_⟩
    obtain ⟨fuel, rfl⟩ : ∃ k, fuel = k + 1 := ⟨fuel - 1, by omega⟩
    rw [encode]
    simp only [List.cons_append, List.append_assoc, List.nil_append]
    rw [scanOnce.eq_def]
    refine hdemand.bind ?_
    have hstarts := (startsValue_encode (level + 1) item).append
      (encodeItems (level + 1) items ++ (newline level ++ ']' :: rest))
    rw [skipSpace_newline, skipSpace_starts hstarts]
    obtain ⟨c, r, hcr, -, hclose, -⟩ := hstarts
    split
    · rename_i heq
      rw [hcr] at heq
      exact absurd (List.cons.inj heq).1 hclose
    · exact (hn fuel (by omega)).bind (yields_pure _)

theorem isReadBack_dict {entries : List (List ℕ × Data)} (hdepth : depth + 1 ≤ limits.depth)
    (hkeys : (entries.map Prod.fst).Nodup) (htexts : ∀ entry ∈ entries, IsText entry.1)
    (hvalues : ∀ entry ∈ entries, IsReadBack limits (depth + 1) entry.2) :
    IsReadBack limits depth (.dict entries) := by
  intro level rest _
  have hdemand := yields_demand (exceeds_nesting hdepth)
  cases entries with
  | nil =>
    refine ⟨.object [], rfl, 1, fun fuel hfuel => ?_⟩
    obtain ⟨fuel, rfl⟩ : ∃ k, fuel = k + 1 := ⟨fuel - 1, by omega⟩
    exact hdemand.bind (yields_pure _)
  | cons entry entries =>
    obtain ⟨key, data⟩ := entry
    obtain ⟨members, hmembers, n, hn⟩ := scanMembers_encode
      (htexts _ (List.mem_cons_self ..)) (hvalues _ (List.mem_cons_self ..))
      (fun x hx => htexts x (List.mem_cons_of_mem _ hx))
      (fun x hx => hvalues x (List.mem_cons_of_mem _ hx)) (level + 1) level rest
    have hfst : members.map Prod.fst = ((key, data) :: entries).map Prod.fst := by
      rw [← hmembers, List.map_map]
      rfl
    have hdata : (Value.object members).data = .dict ((key, data) :: entries) := by
      rw [Value.data, dataMembers_of_nodup (by rw [hfst]; exact hkeys), hmembers, List.nil_append]
    refine ⟨.object members, hdata, n + 1, fun fuel hfuel => ?_⟩
    obtain ⟨fuel, rfl⟩ : ∃ k, fuel = k + 1 := ⟨fuel - 1, by omega⟩
    rw [encode]
    simp only [List.cons_append, List.append_assoc, List.nil_append]
    rw [scanOnce.eq_def]
    refine hdemand.bind ?_
    rw [skipSpace_newline]
    exact (hn fuel (by omega)).bind (yields_pure _)

theorem Data.Kept.isReadBack {data : Data} (h : data.Kept limits depth) :
    IsReadBack limits depth data := by
  induction h with
  | none =>
    intro level rest _
    refine ⟨.null, rfl, 1, fun fuel hfuel => ?_⟩
    obtain ⟨fuel, rfl⟩ : ∃ k, fuel = k + 1 := ⟨fuel - 1, by omega⟩
    exact yields_pure _
  | bool =>
    rename_i value
    intro level rest _
    refine ⟨.bool value, rfl, 1, fun fuel hfuel => ?_⟩
    obtain ⟨fuel, rfl⟩ : ∃ k, fuel = k + 1 := ⟨fuel - 1, by omega⟩
    cases value with
    | false => exact yields_pure _
    | true => exact yields_pure _
  | int hdigits => exact isReadBack_int hdigits
  | float => exact isReadBack_float _
  | str htext => exact isReadBack_str htext
  | list hdepth _ ih => exact isReadBack_list hdepth ih
  | dict hdepth hkeys htexts _ ih => exact isReadBack_dict hdepth hkeys htexts ih

/-- **What is printed is read back.** -/
theorem parse_encode {data : Data} (h : data.Kept limits 0) :
    parse limits (encode 0 data ++ ['\n']) = .ok data := by
  obtain ⟨value, hvalue, n, hn⟩ := h.isReadBack 0 ['\n'] (stops_newline 0 [])
  have hstarts := (startsValue_encode 0 data).append ['\n']
  have hscan : Yields limits (scan (encode 0 data ++ ['\n'])) value := by
    have hdecode : scan (encode 0 data ++ ['\n']) = decode (encode 0 data ++ ['\n']) := by
      obtain ⟨c, r, hcr, -, -, hmark⟩ := hstarts
      rw [hcr]
      exact scan.eq_2 _ fun t ht => hmark (List.cons.inj ht).1
    rw [hdecode, decode, skipSpace_starts hstarts, scanOnce_fuel (Nat.le_max_left _ n)]
    exact (hn _ (Nat.le_max_right _ n)).bind (yields_pure _)
  rw [parse, loads_of_within hscan.within, hscan.result, ← hvalue]
  rfl

/-! ### What is read -/

namespace Scan

variable {s : Scan α} {f : α → Scan β} {Q : α → Prop} {R : β → Prop}

/-- Where the step asks for nothing beyond the limits, its result is like this. -/
def Returns (limits : Limits) (Q : α → Prop) (s : Scan α) : Prop :=
  (∀ demand ∈ s.demands, demand.exceeds limits = none) → ∀ a, s.result = some a → Q a

theorem returns_fail : Returns limits Q (fail : Scan α) := by
  intro _ a h
  cases h

theorem returns_pure {a : α} (h : Q a) : Returns limits Q (pure a : Scan α) := by
  intro _ b hb
  cases hb
  exact h

theorem Returns.bind (h : Returns limits Q s) (hf : ∀ a, Q a → Returns limits R (f a)) :
    Returns limits R (s >>= f) := by
  intro hwithin b hb
  have hbind : s >>= f = Scan.bind s f := rfl
  rw [hbind, Scan.bind] at hwithin hb
  cases hs : s.result with
  | none =>
    rw [hs] at hb
    cases hb
  | some a =>
    rw [hs] at hwithin hb
    have hfirst : ∀ demand ∈ s.demands, demand.exceeds limits = none :=
      fun demand hd => hwithin demand (List.mem_append_left _ hd)
    exact hf a (h hfirst a hs) (fun demand hd => hwithin demand (List.mem_append_right _ hd)) b hb

theorem returns_nesting (depth : ℕ) :
    Returns limits (fun _ => depth ≤ limits.depth) (demand (.nesting depth)) := by
  intro hwithin _ _
  have h := hwithin _ (List.mem_singleton.mpr rfl)
  rw [Demand.exceeds] at h
  split at h
  · cases h
  · omega

theorem returns_digits (count : ℕ) :
    Returns limits (fun _ => count ≤ limits.digits) (demand (.digits count)) := by
  intro hwithin _ _
  have h := hwithin _ (List.mem_singleton.mpr rfl)
  rw [Demand.exceeds] at h
  split at h
  · cases h
  · omega

end Scan

theorem integerPart_digits (t : List Char) : IsDigits (integerPart t) := by
  rw [integerPart.eq_def]
  split
  · exact isDigits_zeros 1
  · intro c hc
    have hall : (t.takeWhile isDigit).all isDigit = true := List.all_takeWhile
    exact List.all_eq_true.mp hall c hc

theorem natOf_lt (h : IsDigits t) : natOf t < 10 ^ t.length := by
  induction t with
  | nil => decide
  | cons c t ih =>
    have hc : isDigit c = true := h c (List.mem_cons_self ..)
    have hlt : natOf [c] < 10 := by
      rw [isDigit, Bool.and_eq_true, decide_eq_true_eq, decide_eq_true_eq] at hc
      have h9 : c.toNat ≤ '9'.toNat := hc.2
      change 10 * 0 + (c.toNat - '0'.toNat) < 10
      have h9' : '9'.toNat = 57 := rfl
      have h0' : '0'.toNat = 48 := rfl
      omega
    have hih := ih fun b hb => h b (List.mem_cons_of_mem c hb)
    have hle : (natOf [c] + 1) * 10 ^ t.length ≤ 10 * 10 ^ t.length :=
      Nat.mul_le_mul_right _ hlt
    rw [← List.singleton_append, natOf_append, List.length_append, List.length_singleton,
      Nat.pow_add, Nat.pow_one]
    rw [Nat.add_mul, Nat.one_mul] at hle
    omega

theorem returns_scanUnsigned (negative : Bool) (t : List Char) :
    Returns limits (fun p => p.1.data.Kept limits depth) (scanUnsigned negative t) := by
  rw [scanUnsigned]
  split
  · exact returns_fail
  · rename_i hne
    split
    · refine (returns_digits _).bind fun _ hdigits => returns_pure ?_
      have hlength : (Nat.toDigits 10 (natOf (integerPart t))).length ≤ limits.digits := by
        refine Nat.le_trans ?_ hdigits
        rw [Nat.length_toDigits_le_iff (by decide) (List.length_pos_iff.mpr (by simpa using hne))]
        exact natOf_lt (integerPart_digits t)
      refine .int ?_
      cases negative with
      | false => exact hlength
      | true =>
        rw [if_pos rfl, Int.natAbs_neg]
        exact hlength
    · exact returns_pure .float

theorem returns_scanNumber (t : List Char) :
    Returns limits (fun p => p.1.data.Kept limits depth) (scanNumber t) := by
  rw [scanNumber.eq_def]
  split
  · exact returns_scanUnsigned true _
  · exact returns_scanUnsigned false _

theorem returns_scanString (t : List Char) :
    Returns limits (fun p => IsText p.1) (Scan.ofOption (scanString t)) := by
  intro _ a ha
  exact isText_scanString ha

theorem forall_dataItems {P : Data → Prop} {values : List Value} (h : ∀ v ∈ values, P v.data) :
    ∀ item ∈ dataItems values, P item := by
  induction values with
  | nil =>
    intro item hitem
    cases hitem
  | cons v values ih =>
    intro item hitem
    rw [dataItems] at hitem
    rcases List.mem_cons.mp hitem with rfl | hitem
    · exact h v (List.mem_cons_self ..)
    · exact ih (fun x hx => h x (List.mem_cons_of_mem v hx)) item hitem

theorem dataMembers_spec {P : List ℕ × Data → Prop} {entries : List (List ℕ × Data)}
    {members : List (List ℕ × Value)} (hkeys : (entries.map Prod.fst).Nodup)
    (hentries : ∀ entry ∈ entries, P entry) (hmembers : ∀ m ∈ members, P (m.1, m.2.data)) :
    ((dataMembers entries members).map Prod.fst).Nodup ∧
      ∀ entry ∈ dataMembers entries members, P entry := by
  induction members generalizing entries with
  | nil =>
    rw [dataMembers]
    exact ⟨hkeys, hentries⟩
  | cons m members ih =>
    rw [dataMembers]
    exact ih (nodup_setItem hkeys m.1 m.2.data)
      (forall_setItem hentries (hmembers m (List.mem_cons_self ..)))
      fun x hx => hmembers x (List.mem_cons_of_mem m hx)

/-- The data of the members of an object. -/
def MembersKept (limits : Limits) (depth : ℕ) (members : List (List ℕ × Value)) : Prop :=
  ∀ m ∈ members, IsText m.1 ∧ m.2.data.Kept limits depth

theorem kept_object {members : List (List ℕ × Value)} (hdepth : depth + 1 ≤ limits.depth)
    (h : MembersKept limits (depth + 1) members) :
    (Value.object members).data.Kept limits depth := by
  have hspec := @dataMembers_spec (fun e => IsText e.1 ∧ e.2.Kept limits (depth + 1)) [] members
    List.nodup_nil (fun e he => by cases he) h
  rw [Value.data]
  exact .dict hdepth hspec.1 (fun e he => (hspec.2 e he).1) fun e he => (hspec.2 e he).2

theorem kept_array {values : List Value} (hdepth : depth + 1 ≤ limits.depth)
    (h : ∀ v ∈ values, v.data.Kept limits (depth + 1)) :
    (Value.array values).data.Kept limits depth := by
  rw [Value.data]
  exact .list hdepth (forall_dataItems h)

theorem returns_values (n : ℕ) :
    (∀ depth t, Returns limits (fun p => p.1.data.Kept limits depth) (scanOnce n depth t)) ∧
    (∀ depth t, Returns limits (fun p => MembersKept limits depth p.1) (scanMembers n depth t)) ∧
    ∀ depth t, Returns limits (fun p => ∀ v ∈ p.1, v.data.Kept limits depth)
      (scanItems n depth t) := by
  induction n with
  | zero => exact ⟨fun _ _ => returns_fail, fun _ _ => returns_fail, fun _ _ => returns_fail⟩
  | succ n ih =>
    obtain ⟨ihOnce, ihMembers, ihItems⟩ := ih
    refine ⟨fun depth t => ?_, fun depth t => ?_, fun depth t => ?_⟩
    · rw [scanOnce.eq_def]
      dsimp only
      split
      · exact (returns_scanString _).bind fun s hs => returns_pure (.str hs)
      · refine (returns_nesting _).bind fun _ hdepth => ?_
        split
        · exact returns_pure (kept_object hdepth fun m hm => by cases hm)
        · exact (ihMembers _ _).bind fun p hp => returns_pure (kept_object hdepth hp)
      · refine (returns_nesting _).bind fun _ hdepth => ?_
        split
        · exact returns_pure (kept_array hdepth fun v hv => by cases hv)
        · exact (ihItems _ _).bind fun p hp => returns_pure (kept_array hdepth hp)
      · exact returns_pure .none
      · exact returns_pure .bool
      · exact returns_pure .bool
      · exact returns_pure .float
      · exact returns_pure .float
      · exact returns_pure .float
      · exact returns_scanNumber _
    · rw [scanMembers.eq_def]
      dsimp only
      split
      · refine (returns_scanString _).bind fun key hkey => ?_
        split
        · refine (ihOnce _ _).bind fun value hvalue => ?_
          split
          · refine returns_pure fun m hm => ?_
            rw [List.mem_singleton.mp hm]
            exact ⟨hkey, hvalue⟩
          · refine (ihMembers _ _).bind fun p hp => returns_pure fun m hm => ?_
            rcases List.mem_cons.mp hm with rfl | hm
            · exact ⟨hkey, hvalue⟩
            · exact hp m hm
          · exact returns_fail
        · exact returns_fail
      · exact returns_fail
    · rw [scanItems.eq_def]
      dsimp only
      refine (ihOnce _ _).bind fun value hvalue => ?_
      split
      · refine returns_pure fun v hv => ?_
        rw [List.mem_singleton.mp hv]
        exact hvalue
      · refine (ihItems _ _).bind fun p hp => returns_pure fun v hv => ?_
        rcases List.mem_cons.mp hv with rfl | hv
        · exact hvalue
        · exact hp v hv
      · exact returns_fail

theorem returns_scan (t : List Char) :
    Returns limits (fun v => v.data.Kept limits 0) (scan t) := by
  rw [scan.eq_def]
  split
  · exact returns_fail
  · rw [decode]
    refine ((returns_values _).1 _ _).bind fun p hp => ?_
    obtain ⟨value, rest⟩ := p
    dsimp only
    split
    · exact returns_pure hp
    · exact returns_fail

/-- **What is read is kept.** -/
theorem kept_of_parse {data : Data} (h : parse limits t = .ok data) : data.Kept limits 0 := by
  by_cases hwithin : Within limits t
  · rw [parse, loads_of_within hwithin] at h
    cases hresult : (scan t).result with
    | none =>
      rw [hresult] at h
      cases h
    | some value =>
      rw [hresult] at h
      cases h
      exact returns_scan t hwithin value hresult
  · rw [parse] at h
    rcases loads_of_not_within hwithin with herror | herror
    · rw [herror] at h
      cases h
    · rw [herror] at h
      cases h

/-! ### Line ends -/

/-- No carriage return. -/
def IsUnix (t : List Char) : Prop := ∀ c ∈ t, c ≠ '\r'

theorem IsUnix.append {s : List Char} (hs : IsUnix s) (ht : IsUnix t) : IsUnix (s ++ t) := by
  intro c hc
  rcases List.mem_append.mp hc with hc | hc
  · exact hs c hc
  · exact ht c hc

theorem IsUnix.cons {c : Char} (hc : c ≠ '\r') (ht : IsUnix t) : IsUnix (c :: t) := by
  intro b hb
  rcases List.mem_cons.mp hb with rfl | hb
  · exact hc
  · exact ht b hb

theorem isUnix_nil : IsUnix [] := by
  intro c hc
  cases hc

theorem isUnix_digits (h : IsDigits t) : IsUnix t := by
  rintro c hc rfl
  exact absurd (h _ hc) (by decide)

theorem hexChar_ne (n : ℕ) : hexChar n ≠ '\r' := by
  have h : ∀ d : Fin 16, Nat.digitChar d.val ≠ '\r' := by decide
  exact h ⟨n % 16, Nat.mod_lt n (by decide)⟩

theorem isUnix_unicodeEscape (n : ℕ) : IsUnix (unicodeEscape n) :=
  .cons (by decide) (.cons (by decide) (.cons (hexChar_ne _) (.cons (hexChar_ne _)
    (.cons (hexChar_ne _) (.cons (hexChar_ne _) isUnix_nil)))))

theorem isUnix_encodeCodePoint (n : ℕ) : IsUnix (encodeCodePoint n) := by
  have htwo : ∀ a b : Char, a ≠ '\r' → b ≠ '\r' → IsUnix [a, b] :=
    fun a b ha hb => .cons ha (.cons hb isUnix_nil)
  rw [encodeCodePoint]
  repeat' split
  all_goals try exact htwo _ _ (by decide) (by decide)
  · rename_i hrange
    refine .cons ?_ isUnix_nil
    have h : ∀ m : Fin 0x7f, 0x20 ≤ m.val → Char.ofNat m.val ≠ '\r' := by decide
    exact h ⟨n, by omega⟩ hrange.1
  · exact isUnix_unicodeEscape n
  · exact (isUnix_unicodeEscape _).append (isUnix_unicodeEscape _)

theorem isUnix_encodeString (s : List ℕ) : IsUnix (encodeString s) := by
  refine .cons (by decide) (.append ?_ (.cons (by decide) isUnix_nil))
  intro c hc
  obtain ⟨n, -, hc⟩ := List.mem_flatMap.mp hc
  exact isUnix_encodeCodePoint n c hc

theorem isUnix_newline (level : ℕ) : IsUnix (newline level) := by
  refine .cons (by decide) fun c hc => ?_
  rw [(List.mem_replicate.mp hc).2]
  decide

theorem isUnix_unsigned {literal : List Char} {numerator denominator : ℕ}
    (h : IsUnsigned literal numerator denominator) : IsUnix literal := by
  obtain ⟨-, hwhole, -, hfraction, hexponent, -⟩ := h
  rename_i whole fraction exponent up down
  have hpoint : IsUnix (point fraction) := by
    rcases point_cases fraction with ⟨-, hp⟩ | ⟨-, hp⟩
    · rw [hp]
      exact isUnix_nil
    · rw [hp]
      exact .cons (by decide) (isUnix_digits hfraction)
  have hlast : IsUnix exponent := by
    cases hexponent with
    | none => exact isUnix_nil
    | up hne hds => exact .cons (by decide) (.cons (by decide) (isUnix_digits hds))
    | down hne hds => exact .cons (by decide) (.cons (by decide) (isUnix_digits hds))
  exact (isUnix_digits hwhole).append (hpoint.append hlast)

theorem isUnix_sign (negative : Bool) : IsUnix (if negative then ['-'] else []) := by
  cases negative with
  | false => exact isUnix_nil
  | true => exact .cons (by decide) isUnix_nil

theorem isUnix_repr (d : Double) : IsUnix d.repr := by
  cases d with
  | nan =>
    change IsUnix ['N', 'a', 'N']
    simp [IsUnix]
  | infinity negative =>
    cases negative with
    | false =>
      change IsUnix ['I', 'n', 'f', 'i', 'n', 'i', 't', 'y']
      simp [IsUnix]
    | true =>
      change IsUnix ['-', 'I', 'n', 'f', 'i', 'n', 'i', 't', 'y']
      simp [IsUnix]
  | finite negative units hr hlt =>
    obtain ⟨numerator, denominator, hform, -⟩ := Double.isUnsigned_repr hr
    exact (isUnix_sign negative).append (isUnix_unsigned hform)

theorem isUnix_encodeItems {items : List Data} (h : ∀ x ∈ items, IsUnix (encode level x)) :
    IsUnix (encodeItems level items) := by
  induction items with
  | nil => exact isUnix_nil
  | cons item items ih =>
    rw [encodeItems]
    exact .cons (by decide) ((isUnix_newline level).append ((h item (List.mem_cons_self ..)).append
      (ih fun x hx => h x (List.mem_cons_of_mem item hx))))

theorem isUnix_encodeEntries {entries : List (List ℕ × Data)}
    (h : ∀ x ∈ entries, IsUnix (encode level x.2)) : IsUnix (encodeEntries level entries) := by
  induction entries with
  | nil => exact isUnix_nil
  | cons entry entries ih =>
    rw [encodeEntries]
    exact .cons (by decide) ((isUnix_newline level).append ((isUnix_encodeString entry.1).append
      (.cons (by decide) (.cons (by decide) ((h entry (List.mem_cons_self ..)).append
        (ih fun x hx => h x (List.mem_cons_of_mem entry hx)))))))

/-- **There is no carriage return in what is printed.** -/
theorem isUnix_encode {data : Data} (h : data.Kept limits depth) (level : ℕ) :
    IsUnix (encode level data) := by
  induction h generalizing level with
  | none =>
    change IsUnix ['n', 'u', 'l', 'l']
    simp [IsUnix]
  | bool =>
    rename_i value
    cases value with
    | false =>
      change IsUnix ['f', 'a', 'l', 's', 'e']
      simp [IsUnix]
    | true =>
      change IsUnix ['t', 'r', 'u', 'e']
      simp [IsUnix]
  | int hdigits =>
    rename_i value
    rw [encode, encodeInt]
    refine .append ?_ (isUnix_digits (isDigits_toDigits _))
    split
    · exact isUnix_sign true
    · exact isUnix_nil
  | float => exact isUnix_repr _
  | str htext => exact isUnix_encodeString _
  | list hdepth hitems ih =>
    rename_i items
    have hclose : IsUnix (newline level ++ [']']) :=
      (isUnix_newline level).append (.cons (by decide) isUnix_nil)
    cases items with
    | nil =>
      change IsUnix ['[', ']']
      simp [IsUnix]
    | cons item items =>
      rw [encode]
      exact .cons (by decide) ((isUnix_newline _).append ((ih item (List.mem_cons_self ..) _).append
        ((isUnix_encodeItems fun x hx => ih x (List.mem_cons_of_mem item hx) _).append hclose)))
  | dict hdepth hkeys htexts hvalues ih =>
    rename_i entries
    have hclose : IsUnix (newline level ++ ['\x7d']) :=
      (isUnix_newline level).append (.cons (by decide) isUnix_nil)
    cases entries with
    | nil =>
      change IsUnix ['\x7b', '\x7d']
      simp [IsUnix]
    | cons entry entries =>
      obtain ⟨key, value⟩ := entry
      rw [encode]
      exact .cons (by decide) ((isUnix_newline _).append ((isUnix_encodeString key).append
        (.cons (by decide) (.cons (by decide) ((ih _ (List.mem_cons_self ..) _).append
          ((isUnix_encodeEntries fun x hx => ih x (List.mem_cons_of_mem _ hx) _).append
            hclose))))))

end Json
