import PzServer.Json.Dumps

/-!
# Strings of a JSON text

A string is printed code point by code point, and read back unit by unit: a code point beyond the
first plane is printed as two escapes, the halves of a surrogate pair, and the two are joined again.
So a string comes back as it was unless it had two halves side by side already; and no string that
was read has.

## Main results

* `scanString_encode` — what is printed is read back
* `isText_scanString` — what is read can be printed
-/

namespace Json

/-- The two halves of a surrogate pair. -/
def IsPair (high low : ℕ) : Prop := 0xd800 ≤ high ∧ high < 0xdc00 ∧ 0xdc00 ≤ low ∧ low < 0xe000

/-- A Python string without two halves of a surrogate pair side by side. -/
inductive IsText : List ℕ → Prop where
  | nil : IsText []
  | cons {n : ℕ} {us : List ℕ} (hlt : n < 0x110000)
    (hpair : ∀ low, us.head? = some low → ¬ IsPair n low) (htext : IsText us) : IsText (n :: us)

variable {n high low : ℕ} {us units : List ℕ} {t rest : List Char}

/-! ### Surrogate pairs -/

/-- A code point as it is escaped. -/
def unitsOf (n : ℕ) : List ℕ :=
  if n < 0x10000 then [n]
  else [0xd800 + (n - 0x10000) / 0x400 % 0x400, 0xdc00 + (n - 0x10000) % 0x400]

theorem joinSurrogates_pair (h : IsPair high low) (us : List ℕ) :
    joinSurrogates (high :: low :: us) =
      (0x10000 + (high - 0xd800) * 0x400 + (low - 0xdc00)) :: joinSurrogates us := by
  rw [joinSurrogates]
  exact if_pos h

theorem joinSurrogates_single (h : ∀ low, us.head? = some low → ¬ IsPair n low) :
    joinSurrogates (n :: us) = n :: joinSurrogates us := by
  cases us with
  | nil => rfl
  | cons low us =>
    rw [joinSurrogates]
    exact if_neg (h low rfl)

theorem joinSurrogates_head {n low : ℕ} (h : (joinSurrogates (n :: us)).head? = some low) :
    low = n ∨ 0x10000 ≤ low := by
  cases us with
  | nil =>
    cases h
    exact .inl rfl
  | cons m us =>
    rw [joinSurrogates] at h
    split at h
    · have h := Option.some.inj h
      exact .inr (by omega)
    · exact .inl (Option.some.inj h).symm

theorem unitsOf_head {m : ℕ} (h : (unitsOf n).head? = some m) :
    m = n ∨ (0xd800 ≤ m ∧ m < 0xdc00) := by
  rw [unitsOf] at h
  split at h
  · cases h
    exact .inl rfl
  · cases h
    exact .inr (by omega)

theorem unitsOf_ne_nil (n : ℕ) : unitsOf n ≠ [] := by
  rw [unitsOf]
  split
  · exact List.cons_ne_nil _ _
  · exact List.cons_ne_nil _ _

/-- **The halves that the printer makes are joined again.** -/
theorem joinSurrogates_units (h : IsText us) : joinSurrogates (us.flatMap unitsOf) = us := by
  induction h with
  | nil => rfl
  | cons hlt hpair htext ih =>
    rename_i n us
    rw [List.flatMap_cons, unitsOf]
    by_cases hn : n < 0x10000
    · rw [if_pos hn, List.singleton_append, joinSurrogates_single, ih]
      intro low hlow
      cases us with
      | nil => cases hlow
      | cons m us =>
        obtain ⟨u, more, hunits⟩ := List.exists_cons_of_ne_nil (unitsOf_ne_nil m)
        rw [List.flatMap_cons, hunits] at hlow
        cases hlow
        intro hu
        have hhead : (unitsOf m).head? = some low := by rw [hunits, List.head?_cons]
        rcases unitsOf_head hhead with heq | hhigh
        · rw [heq] at hu
          exact hpair m rfl hu
        · obtain ⟨-, -, hlow, -⟩ := hu
          omega
    · rw [if_neg hn]
      have hhalves : IsPair (0xd800 + (n - 0x10000) / 0x400 % 0x400)
          (0xdc00 + (n - 0x10000) % 0x400) := by
        refine ⟨?_, ?_, ?_, ?_⟩
        all_goals omega
      have hjoined : 0x10000 + (0xd800 + (n - 0x10000) / 0x400 % 0x400 - 0xd800) * 0x400 +
          (0xdc00 + (n - 0x10000) % 0x400 - 0xdc00) = n := by omega
      rw [List.cons_append, List.singleton_append, joinSurrogates_pair hhalves, ih, hjoined]

/-- After joining, no pair is left. -/
theorem isText_joinSurrogates (h : ∀ u ∈ units, u < 0x110000) :
    IsText (joinSurrogates units) := by
  induction units using joinSurrogates.induct with
  | case1 high low units hpair ih =>
    rw [joinSurrogates_pair hpair]
    obtain ⟨hhigh, hhigh', hlow, hlow'⟩ := hpair
    refine .cons (by omega) (fun m _ hm => ?_) (ih fun u hu => h u (by simp [hu]))
    obtain ⟨-, hm, -, -⟩ := hm
    omega
  | case2 high low units hpair ih =>
    have hsingle : joinSurrogates (high :: low :: units) =
        high :: joinSurrogates (low :: units) :=
      joinSurrogates_single fun m hm => by
        cases hm
        exact hpair
    rw [hsingle]
    refine .cons (h high (List.mem_cons_self ..)) (fun m hm hm' => ?_)
      (ih fun u hu => h u (List.mem_cons_of_mem high hu))
    rcases joinSurrogates_head hm with rfl | hle
    · exact hpair hm'
    · obtain ⟨-, -, -, hm'⟩ := hm'
      omega
  | case3 units hnil =>
    cases units with
    | nil => exact .nil
    | cons n units =>
      cases units with
      | nil => exact .cons (h n (List.mem_cons_self ..)) (fun m hm => by cases hm) .nil
      | cons m units => exact absurd rfl (hnil n m units)

/-! ### Escapes -/

theorem hexDigit_hexChar (n : ℕ) : hexDigit (hexChar n) = some (n % 16) := by
  have h : ∀ d : Fin 16, hexDigit (Nat.digitChar d.val) = some d.val := by decide
  exact h ⟨n % 16, Nat.mod_lt n (by decide)⟩

theorem hex4_hexChar (h : n < 0x10000) :
    hex4 (hexChar (n / 4096)) (hexChar (n / 256)) (hexChar (n / 16)) (hexChar n) = some n := by
  simp only [hex4, hexDigit_hexChar, Option.bind_eq_bind, Option.bind_some, Option.pure_def]
  congr 1
  omega

/-- The units before a string that is read already. -/
def prepend (units : List ℕ) (scanned : List ℕ × List Char) : List ℕ × List Char :=
  (units ++ scanned.1, scanned.2)

theorem scanChars_unicodeEscape (h : n < 0x10000) (t : List Char) :
    scanChars (unicodeEscape n ++ t) = (scanChars t).map (prepend [n]) := by
  have heq : unicodeEscape n ++ t = '\\' :: 'u' :: hexChar (n / 4096) :: hexChar (n / 256) ::
      hexChar (n / 16) :: hexChar n :: t := rfl
  rw [heq, scanChars, hex4_hexChar h]
  cases scanChars t <;> rfl

theorem scanChars_escape {c : Char} (hc : c ≠ 'u') (h : escape c = some n) (t : List Char) :
    scanChars ('\\' :: c :: t) = (scanChars t).map (prepend [n]) := by
  rw [scanChars.eq_4 _ _ fun _ _ _ _ _ hu _ => hc hu, h]
  cases scanChars t <;> rfl

theorem scanChars_plain {c : Char} (hquote : c ≠ '"') (hslash : c ≠ '\\') (hc : 0x20 ≤ c.toNat)
    (t : List Char) : scanChars (c :: t) = (scanChars t).map (prepend [c.toNat]) := by
  have hplain : ¬ (c = '\\' ∨ c.toNat < 0x20) := by
    rintro (h | h)
    · exact hslash h
    · omega
  rw [scanChars.eq_5 _ _ hquote (fun _ _ _ _ _ h _ => hslash h) (fun _ _ h _ => hslash h),
    if_neg hplain]
  cases scanChars t <;> rfl

theorem plain_ofNat (hlt : n < 0x7f) (hle : 0x20 ≤ n) (hquote : n ≠ 0x22) (hslash : n ≠ 0x5c) :
    Char.ofNat n ≠ '"' ∧ Char.ofNat n ≠ '\\' ∧ (Char.ofNat n).toNat = n := by
  have h : ∀ m : Fin 0x7f, 0x20 ≤ m.val → m.val ≠ 0x22 → m.val ≠ 0x5c →
      Char.ofNat m.val ≠ '"' ∧ Char.ofNat m.val ≠ '\\' ∧ (Char.ofNat m.val).toNat = m.val := by
    decide
  exact h ⟨n, hlt⟩ hle hquote hslash

theorem prepend_prepend (us vs : List ℕ) :
    prepend us ∘ prepend vs = prepend (us ++ vs) := by
  funext scanned
  simp only [Function.comp, prepend, List.append_assoc]

/-- A code point is printed so that its units are read. -/
theorem scanChars_encodeCodePoint (h : n < 0x110000) (t : List Char) :
    scanChars (encodeCodePoint n ++ t) = (scanChars t).map (prepend (unitsOf n)) := by
  have hsmall : n < 0x10000 → unitsOf n = [n] := fun hn => if_pos hn
  rw [encodeCodePoint]
  split
  · subst n
    exact scanChars_escape (by decide) rfl t
  split
  · subst n
    exact scanChars_escape (by decide) rfl t
  split
  · subst n
    exact scanChars_escape (by decide) rfl t
  split
  · subst n
    exact scanChars_escape (by decide) rfl t
  split
  · subst n
    exact scanChars_escape (by decide) rfl t
  split
  · subst n
    exact scanChars_escape (by decide) rfl t
  split
  · subst n
    exact scanChars_escape (by decide) rfl t
  split
  · rename_i hquote hslash _ _ _ _ _ hrange
    obtain ⟨h1, h2, h3⟩ := plain_ofNat (n := n) (by omega) hrange.1 hquote hslash
    rw [List.singleton_append, scanChars_plain h1 h2 (by rw [h3]; exact hrange.1), h3,
      hsmall (by omega)]
  split
  · rename_i hn
    rw [scanChars_unicodeEscape hn, hsmall hn]
  · rename_i hn
    rw [List.append_assoc, scanChars_unicodeEscape (by omega), scanChars_unicodeEscape (by omega),
      Option.map_map, prepend_prepend, unitsOf, if_neg hn]
    rfl

theorem IsText.lt (h : IsText us) : ∀ n ∈ us, n < 0x110000 := by
  induction h with
  | nil =>
    intro n hn
    cases hn
  | cons hlt hpair htext ih =>
    intro n hn
    rcases List.mem_cons.mp hn with rfl | hn
    · exact hlt
    · exact ih n hn

theorem scanChars_encode (h : ∀ n ∈ us, n < 0x110000) (rest : List Char) :
    scanChars (us.flatMap encodeCodePoint ++ '"' :: rest) = some (us.flatMap unitsOf, rest) := by
  induction us with
  | nil => rfl
  | cons n us ih =>
    rw [List.flatMap_cons, List.append_assoc,
      scanChars_encodeCodePoint (h n (List.mem_cons_self ..)),
      ih fun m hm => h m (List.mem_cons_of_mem n hm)]
    rfl

/-- **What is printed is read back.** -/
theorem scanString_encode (h : IsText us) (rest : List Char) :
    scanString (us.flatMap encodeCodePoint ++ '"' :: rest) = some (us, rest) := by
  have hjoined := joinSurrogates_units h
  rw [scanString, scanChars_encode h.lt, Option.map_some]
  dsimp only
  rw [hjoined]

/-! ### What is read -/

theorem hexDigit_lt {c : Char} (h : hexDigit c = some n) : n < 16 := by
  rw [hexDigit] at h
  split at h
  · rename_i hc
    cases h
    have h9 : c.toNat ≤ '9'.toNat := hc.2
    have h9' : '9'.toNat = 57 := rfl
    have h0' : '0'.toNat = 48 := rfl
    omega
  split at h
  · rename_i hc
    cases h
    have hf : c.toNat ≤ 'f'.toNat := hc.2
    have hf' : 'f'.toNat = 102 := rfl
    have ha' : 'a'.toNat = 97 := rfl
    omega
  split at h
  · rename_i hc
    cases h
    have hF : c.toNat ≤ 'F'.toNat := hc.2
    have hF' : 'F'.toNat = 70 := rfl
    have hA' : 'A'.toNat = 65 := rfl
    omega
  · cases h

theorem hex4_lt {a b c d : Char} (h : hex4 a b c d = some n) : n < 0x10000 := by
  simp only [hex4, Option.bind_eq_bind, Option.bind_eq_some_iff, Option.pure_def,
    Option.some.injEq] at h
  obtain ⟨a', ha, b', hb, c', hc, d', hd, rfl⟩ := h
  have ha := hexDigit_lt ha
  have hb := hexDigit_lt hb
  have hc := hexDigit_lt hc
  have hd := hexDigit_lt hd
  omega

theorem escape_lt {c : Char} (h : escape c = some n) : n < 0x80 := by
  rw [escape.eq_def] at h
  split at h
  all_goals
    cases h
    try decide

theorem scanChars_lt (h : scanChars t = some (units, rest)) : ∀ u ∈ units, u < 0x110000 := by
  have hmore : ∀ {t : List Char} {n : ℕ}, n < 0x110000 →
      (∀ {units : List ℕ} {rest : List Char}, scanChars t = some (units, rest) →
        ∀ u ∈ units, u < 0x110000) →
      ∀ {units rest}, (scanChars t).bind (fun p => some (n :: p.1, p.2)) = some (units, rest) →
        ∀ u ∈ units, u < 0x110000 := by
    intro t n hn ih units rest h u hu
    obtain ⟨⟨more, rest'⟩, hscan, h⟩ := Option.bind_eq_some_iff.mp h
    obtain ⟨rfl, rfl⟩ := Prod.mk.inj (Option.some.inj h)
    rcases List.mem_cons.mp hu with rfl | hu
    · exact hn
    · exact ih hscan u hu
  induction t using scanChars.induct generalizing units rest with
  | case1 => cases h
  | case2 t =>
    obtain ⟨rfl, rfl⟩ := Prod.mk.inj (Option.some.inj h)
    intro u hu
    cases hu
  | case3 a b c d t ih =>
    rw [scanChars] at h
    obtain ⟨unit, hunit, h⟩ := Option.bind_eq_some_iff.mp h
    exact hmore (Nat.lt_trans (hex4_lt hunit) (by decide)) ih h
  | case4 c t hne ih =>
    rw [scanChars.eq_4 _ _ hne] at h
    obtain ⟨unit, hunit, h⟩ := Option.bind_eq_some_iff.mp h
    exact hmore (Nat.lt_trans (escape_lt hunit) (by decide)) ih h
  | case5 c t h1 h2 h3 hc =>
    rw [scanChars.eq_5 _ _ h1 h2 h3, if_pos hc] at h
    cases h
  | case6 c t h1 h2 h3 hc ih =>
    rw [scanChars.eq_5 _ _ h1 h2 h3, if_neg hc] at h
    have hlt : c.toNat < 0x110000 := by
      rcases c.valid with h | h
      · exact Nat.lt_trans h (by decide)
      · exact h.2
    exact hmore hlt ih h

/-- **What is read can be printed.** -/
theorem isText_scanString (h : scanString t = some (us, rest)) : IsText us := by
  obtain ⟨⟨units, rest'⟩, hscan, h⟩ := Option.map_eq_some_iff.mp h
  obtain ⟨rfl, -⟩ := Prod.mk.inj h
  exact isText_joinSurrogates (scanChars_lt hscan)

end Json
