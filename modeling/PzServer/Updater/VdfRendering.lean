import PzServer.Updater.VdfGrammar
import PzServer.Watchdog.Matching

/-!
# What Steam writes is read back

Steam writes a tree of strings with every string quoted, a backslash before every quote and every
backslash of a string, and between the tokens whatever it likes: space, comments without quotes and
braces, and the control sequences of a terminal. `Renders` is that, token by token, followed by any
other output.

The tokens of such a text are those it was written from, so the parser returns the tree, and what is
looked up in it is what was stored. A manifest is read as a text file, which turns every line end
into a line feed, within strings too; that changes no number, but it can make two keys one.

## Main results

* `scan_renders` — the tokens of a rendering
* `vdf_faithful` — the parser and its two callers, for every tree
* `readInstalledMetadata_collides` — two keys that a text file does not keep apart
-/

namespace PzServer

open Collections

open Watchdog (Text)

open Watchdog.Text

namespace Updater

/-! ### Quoting -/

/-- A backslash before every backslash and every quote. -/
def escape : Text → Text
  | [] => []
  | c :: t => if c = '\\' ∨ c = '"' then '\\' :: c :: escape t else c :: escape t

/-- No character begins a control sequence. -/
def NoEscape (t : Text) : Prop := ∀ c ∈ t, c.toNat ≠ 0x1b

section Quoting

variable {s t : Text} {c : Char}

theorem escape_special (h : c = '\\' ∨ c = '"') : escape (c :: t) = '\\' :: c :: escape t :=
  if_pos h

theorem escape_plain (h : ¬ (c = '\\' ∨ c = '"')) : escape (c :: t) = c :: escape t := if_neg h

theorem isBody_escape (s : Text) : IsBody (escape s) := by
  induction s with
  | nil => exact .nil
  | cons c s ih =>
    by_cases h : c = '\\' ∨ c = '"'
    · rw [escape_special h]
      refine .escape ?_ ih
      rcases h with rfl | rfl <;> decide
    · rw [escape_plain h]
      rw [not_or] at h
      exact .plain h.2 h.1 ih

theorem decode_escape (s : Text) : decode (escape s) = s := by
  induction s with
  | nil => rfl
  | cons c s ih =>
    by_cases h : c = '\\' ∨ c = '"'
    · rw [escape_special h, decode, if_pos h.symm, ih]
    · rw [escape_plain h, decode_plain fun hc => h (.inl hc), ih]

theorem NoEscape.escape (h : NoEscape s) : NoEscape (escape s) := by
  induction s with
  | nil => exact h
  | cons c s ih =>
    obtain ⟨hc, hs⟩ := List.forall_mem_cons.mp h
    by_cases hspecial : c = '\\' ∨ c = '"'
    · rw [escape_special hspecial]
      exact List.forall_mem_cons.mpr ⟨by decide, List.forall_mem_cons.mpr ⟨hc, ih hs⟩⟩
    · rw [escape_plain hspecial]
      exact List.forall_mem_cons.mpr ⟨hc, ih hs⟩

end Quoting

/-! ### What stands between the tokens -/

/-- A character that belongs to no token. -/
def IsIgnored (c : Char) : Prop := c ≠ '"' ∧ c ≠ '{' ∧ c ≠ '}'

/-- Control sequences, and text without escapes, quotes and braces. -/
inductive Filler : Text → Prop where
  | nil : Filler []
  | csi {e f : Text} (he : IsCsi e) (hf : Filler f) : Filler (e ++ f)
  | plain {c : Char} {f : Text} (hc : IsIgnored c) (hescape : c.toNat ≠ 0x1b) (hf : Filler f) :
    Filler (c :: f)

section Filler

variable {f p t : Text} {c : Char}

/-- Without its control sequences a filler has only ignored characters. -/
theorem Filler.exists_ignored (hf : Filler f) :
    ∃ p : Text, (∀ c ∈ p, IsIgnored c) ∧ ∀ t, removeAnsi (f ++ t) = p ++ removeAnsi t := by
  induction hf with
  | nil => exact ⟨[], List.forall_mem_nil _, fun _ => rfl⟩
  | csi he hf ih =>
    obtain ⟨p, hp, heq⟩ := ih
    refine ⟨p, hp, fun t => ?_⟩
    rw [List.append_assoc, removeAnsi_append he, heq]
  | plain hc hescape hf ih =>
    obtain ⟨p, hp, heq⟩ := ih
    refine ⟨_ :: p, List.forall_mem_cons.mpr ⟨hc, hp⟩, fun t => ?_⟩
    rw [List.cons_append, removeAnsi_cons hescape, heq]
    rfl

theorem finditer_ignored (hc : IsIgnored c) : finditer 0 (c :: t) = finditer 0 t := by
  rw [finditer, if_neg hc.1, if_neg hc.2.1, if_neg hc.2.2]

theorem finditer_append (hp : ∀ c ∈ p, IsIgnored c) : finditer 0 (p ++ t) = finditer 0 t := by
  induction p with
  | nil => rfl
  | cons c p ih =>
    obtain ⟨hc, hp⟩ := List.forall_mem_cons.mp hp
    rw [List.cons_append, finditer_ignored hc, ih hp]

/-- A filler has no tokens. -/
theorem scan_filler (hf : Filler f) (t : Text) : scan (f ++ t) = scan t := by
  obtain ⟨p, hp, heq⟩ := hf.exists_ignored
  rw [scan, heq, finditer_append hp]
  rfl

theorem removeAnsi_keeps (h : NoEscape p) (t : Text) : removeAnsi (p ++ t) = p ++ removeAnsi t := by
  induction p with
  | nil => rfl
  | cons c p ih =>
    obtain ⟨hc, hp⟩ := List.forall_mem_cons.mp h
    rw [List.cons_append, removeAnsi_cons hc, ih hp]
    rfl

theorem finditer_eq_drop (n : ℕ) (t : Text) : finditer n t = finditer 0 (t.drop n) := by
  induction n generalizing t with
  | zero => rfl
  | succ n ih =>
    cases t with
    | nil => rfl
    | cons c t => exact ih t

theorem scan_opening (t : Text) : scan ('{' :: t) = .opening :: scan t := by
  rw [scan, removeAnsi_cons (by decide)]
  rfl

theorem scan_closing (t : Text) : scan ('}' :: t) = .closing :: scan t := by
  rw [scan, removeAnsi_cons (by decide)]
  rfl

/-- A quoted string is one token. -/
theorem scan_quoted {s : Text} (hs : NoEscape s) (t : Text) :
    scan ('"' :: (escape s ++ '"' :: t)) = .quoted s :: scan t := by
  have hclean : removeAnsi ('"' :: (escape s ++ '"' :: t)) =
      '"' :: (escape s ++ '"' :: removeAnsi t) := by
    rw [removeAnsi_cons (by decide), removeAnsi_keeps hs.escape, removeAnsi_cons (by decide)]
  have hdrop : (escape s ++ '"' :: removeAnsi t).drop ((escape s).length + 1) = removeAnsi t := by
    rw [List.drop_append]
    simp
  rw [scan, hclean, finditer, if_pos rfl, quotedBody_append (isBody_escape s)]
  dsimp only
  rw [finditer_eq_drop, hdrop, List.map_cons, VdfMatch.toToken, decode_escape]
  rfl

end Filler

/-! ### Renderings -/

/-- A text in which the tokens are written one after the other, with fillers before them, and then
`after`. -/
inductive Renders (after : Text) : List Token → Text → Prop where
  | nil : Renders after [] after
  | quoted {f s t : Text} {tokens : List Token} (hf : Filler f) (ht : Renders after tokens t) :
    Renders after (.quoted s :: tokens) (f ++ '"' :: (escape s ++ '"' :: t))
  | opening {f t : Text} {tokens : List Token} (hf : Filler f) (ht : Renders after tokens t) :
    Renders after (.opening :: tokens) (f ++ '{' :: t)
  | closing {f t : Text} {tokens : List Token} (hf : Filler f) (ht : Renders after tokens t) :
    Renders after (.closing :: tokens) (f ++ '}' :: t)

/-- **The tokens of a rendering.** -/
theorem scan_renders {after text : Text} {tokens : List Token} (h : Renders after tokens text)
    (hplain : ∀ s, .quoted s ∈ tokens → NoEscape s) : scan text = tokens ++ scan after := by
  induction h with
  | nil => rfl
  | quoted hf ht ih =>
    rw [scan_filler hf, scan_quoted (hplain _ List.mem_cons_self),
      ih fun s hs => hplain s (List.mem_cons_of_mem _ hs)]
    rfl
  | opening hf ht ih =>
    rw [scan_filler hf, scan_opening, ih fun s hs => hplain s (List.mem_cons_of_mem _ hs)]
    rfl
  | closing hf ht ih =>
    rw [scan_filler hf, scan_closing, ih fun s hs => hplain s (List.mem_cons_of_mem _ hs)]
    rfl

/-! ### Trees -/

/-- A string without escape characters that is not exactly one brace. -/
def IsPlain (s : Text) : Prop := NoEscape s ∧ s ≠ ['{'] ∧ s ≠ ['}']

/-- Every string of the tree is plain. -/
def VdfObject.Plain : VdfObject → Prop
  | empty => True
  | text key value rest => IsPlain key ∧ IsPlain value ∧ rest.Plain
  | object key value rest => IsPlain key ∧ value.Plain ∧ rest.Plain

/-- The tokens of a tree under its root key. -/
def rootTokens (root : Text) (o : VdfObject) : List Token :=
  .quoted root :: .opening :: (o.fieldTokens ++ [.closing])

instance (s : Text) : Decidable (NoEscape s) :=
  decidable_of_iff (s.all (·.toNat ≠ 0x1b) = true) (by simp [NoEscape])

instance (s : Text) : Decidable (IsPlain s) :=
  inferInstanceAs (Decidable (NoEscape s ∧ s ≠ ['{'] ∧ s ≠ ['}']))

instance decidablePlain : DecidablePred VdfObject.Plain
  | .empty => .isTrue trivial
  | .text _ _ rest => @instDecidableAnd _ _ inferInstance
    (@instDecidableAnd _ _ inferInstance (decidablePlain rest))
  | .object _ value rest => @instDecidableAnd _ _ inferInstance
    (@instDecidableAnd _ _ (decidablePlain value) (decidablePlain rest))

instance decidableDistinct : DecidablePred VdfObject.Distinct
  | .empty => .isTrue trivial
  | .text _ _ rest => @instDecidableAnd _ _ inferInstance (decidableDistinct rest)
  | .object _ value rest => @instDecidableAnd _ _ inferInstance
    (@instDecidableAnd _ _ (decidableDistinct value) (decidableDistinct rest))

section Trees

variable {o : VdfObject} {root text after : Text}

theorem VdfObject.Plain.readable (h : o.Plain) : o.Readable := by
  induction o with
  | empty => trivial
  | text key value rest ih =>
    obtain ⟨⟨-, hopening, hclosing⟩, ⟨-, hvalue, -⟩, hrest⟩ := h
    exact ⟨hopening, hclosing, hvalue, ih hrest⟩
  | object key value rest ihvalue ih =>
    obtain ⟨⟨-, hopening, hclosing⟩, hvalue, hrest⟩ := h
    exact ⟨hopening, hclosing, ihvalue hvalue, ih hrest⟩

theorem VdfObject.Plain.noEscape (h : o.Plain) {s : Text} (hs : .quoted s ∈ o.fieldTokens) :
    NoEscape s := by
  induction o with
  | empty => cases hs
  | text key value rest ih =>
    obtain ⟨⟨hkey, -⟩, ⟨hvalue, -⟩, hrest⟩ := h
    simp only [fieldTokens, List.mem_cons, Token.quoted.injEq] at hs
    rcases hs with rfl | rfl | hs
    · exact hkey
    · exact hvalue
    · exact ih hrest hs
  | object key value rest ihvalue ih =>
    obtain ⟨⟨hkey, -⟩, hvalue, hrest⟩ := h
    simp only [fieldTokens, List.mem_cons, List.mem_append, Token.quoted.injEq, reduceCtorEq,
      false_or] at hs
    rcases hs with rfl | hs | hs
    · exact hkey
    · exact ihvalue hvalue hs
    · exact ih hrest hs

/-- **The round trip.** -/
theorem parseVdfRoot_renders (h : Renders after (rootTokens root o) text) (hroot : IsPlain root)
    (hplain : o.Plain) (hdistinct : o.Distinct) : parseVdfRoot text root = .ok o := by
  have hstrings : ∀ s, .quoted s ∈ rootTokens root o → NoEscape s := by
    intro s hs
    simp only [rootTokens, List.mem_cons, List.mem_append, Token.quoted.injEq, reduceCtorEq,
      false_or, List.not_mem_nil, or_false] at hs
    rcases hs with rfl | hs
    · exact hroot.1
    · exact hplain.noEscape hs
  have hscan : scan text = [] ++ .quoted root :: .opening ::
      ((o.fieldTokens ++ [Token.closing]) ++ scan after) := scan_renders h hstrings
  refine parseVdfRoot_eq_ok_iff.mpr ⟨.quoted root, .opening, o.fieldTokens ++ [.closing],
    hplain.readable, hdistinct, ⟨[], scan after, hscan, ⟨rfl, rfl⟩, List.isChain_singleton _⟩, ?_⟩
  simp [VdfObject.fieldTexts, Token.text]

end Trees

/-! ### Looking up -/

/-- The value at the end of a path. -/
def VdfValue.lookup : List Text → VdfValue → Option VdfValue
  | [], v => some v
  | key :: path, .object o => (o.get key).bind (lookup path)
  | _ :: _, .text _ => none

/-- A positive number in decimal digits, of which there are not too many. -/
def IsPositive (raw : Text) (n : ℕ) : Prop :=
  isDecimal raw = true ∧ raw.length ≤ 4300 ∧ value raw = n ∧ 0 < n

/-- The tree says that this build is installed. -/
structure StatesInstalled (o : VdfObject) (appId : ℕ) (m : SteamBuildMetadata) : Prop where
  app : o.get "appid".toList = some (.text (decimal appId))
  build : ∃ raw, o.get "buildid".toList = some (.text raw) ∧ IsPositive raw m.buildId
  flags : o.get "StateFlags".toList = some (.text ['4'])
  result : o.get "UpdateResult".toList = none ∨ o.get "UpdateResult".toList = some (.text ['0'])
  size : sizeOf (o.get "SizeOnDisk".toList) = .ok m.sizeOnDisk

section Lookup

variable {o : VdfObject} {v : VdfValue} {raw s : Text} {n appId : ℕ} {m : SteamBuildMetadata}
  {path keys : List Text} {message : String}

theorem nestedValue_eq_ok_iff {w : VdfValue} :
    nestedValue path keys v = .ok w ↔ VdfValue.lookup keys v = some w := by
  induction keys generalizing v with
  | nil =>
    constructor
    · intro h
      rw [VdfValue.lookup, Except.ok.inj h]
    · intro h
      rw [nestedValue, Option.some.inj h]
  | cons key keys ih =>
    cases v with
    | text s => exact iff_of_false (fun h => by cases h) fun h => by cases h
    | object o =>
      rw [nestedValue, VdfValue.lookup]
      cases o.get key with
      | none => exact iff_of_false (fun h => by cases h) fun h => by cases h
      | some v => exact ih

theorem nestedString_eq_ok_iff : nestedString o path = .ok s ↔
    VdfValue.lookup path (.object o) = some (.text s) ∧ s ≠ [] := by
  rw [← @nestedValue_eq_ok_iff _ path, nestedString]
  cases nestedValue path path (.object o) with
  | error e => exact iff_of_false (fun h => by cases h) fun h => by cases h.1
  | ok v =>
    cases v with
    | object o => exact iff_of_false (fun h => by cases h) fun h => by cases h.1
    | text s' =>
      by_cases hs : s' = []
      · subst hs
        refine iff_of_false (fun h => by cases h) fun h => h.2 ?_
        exact (VdfValue.text.inj (Except.ok.inj h.1)).symm
      · constructor
        · intro h
          change (if s' = [] then _ else Except.ok s') = .ok s at h
          rw [if_neg hs] at h
          obtain rfl := Except.ok.inj h
          exact ⟨rfl, hs⟩
        · rintro ⟨h, -⟩
          obtain rfl := VdfValue.text.inj (Except.ok.inj h)
          exact if_neg hs

theorem IsPositive.ne_nil (h : IsPositive raw n) : raw ≠ [] := by
  rintro rfl
  cases h.1

theorem positiveDecimal_eq_ok_iff : positiveDecimal raw message = .ok n ↔ IsPositive raw n := by
  rw [positiveDecimal, IsPositive]
  by_cases hdecimal : isDecimal raw = true
  · rw [if_pos hdecimal, and_iff_right hdecimal, ← and_assoc, ← toInt_eq_some_iff, intOf]
    cases toInt raw with
    | none => exact iff_of_false (fun h => by cases h) fun h => by cases h.1
    | some k =>
      change (if k ≤ 0 then _ else Except.ok k) = .ok n ↔ _
      by_cases hk : k ≤ 0
      · rw [if_pos hk]
        refine iff_of_false (fun h => by cases h) fun h => ?_
        obtain rfl := Option.some.inj h.1
        omega
      · rw [if_neg hk]
        constructor
        · intro h
          obtain rfl := Except.ok.inj h
          exact ⟨rfl, by omega⟩
        · rintro ⟨h, -⟩
          rw [Option.some.inj h]
  · rw [if_neg hdecimal]
    exact iff_of_false (fun h => by cases h) fun h => hdecimal h.1

/-- What `parse_app_info_build` makes of a tree. -/
theorem parseAppInfoBuild_eq_ok_iff {text branch : Text}
    (h : parseVdfRoot text (decimal appId) = .ok o) :
    parseAppInfoBuild text appId branch = .ok n ↔
      ∃ raw, VdfValue.lookup ["depots".toList, "branches".toList, branch, "buildid".toList]
        (.object o) = some (.text raw) ∧ IsPositive raw n := by
  rw [parseAppInfoBuild, h]
  refine bind_eq_ok_iff.trans ?_
  constructor
  · rintro ⟨_, happ, h⟩
    obtain rfl := Except.ok.inj happ
    obtain ⟨raw, hraw, hn⟩ := bind_eq_ok_iff.mp h
    exact ⟨raw, (nestedString_eq_ok_iff.mp hraw).1, positiveDecimal_eq_ok_iff.mp hn⟩
  · rintro ⟨raw, hraw, hn⟩
    exact ⟨o, rfl, bind_eq_ok_iff.mpr ⟨raw, nestedString_eq_ok_iff.mpr ⟨hraw, hn.ne_nil⟩,
      positiveDecimal_eq_ok_iff.mpr hn⟩⟩

theorem lookup_singleton (key : Text) : VdfValue.lookup [key] (.object o) = o.get key := by
  rw [VdfValue.lookup]
  cases o.get key <;> rfl

theorem requireEqual_eq_ok_iff {actual expected : Text} :
    requireEqual actual expected message = .ok () ↔ actual = expected := by
  rw [requireEqual]
  by_cases h : actual = expected
  · rw [if_neg (not_not_intro h)]
    exact iff_of_true rfl h
  · rw [if_pos h]
    exact iff_of_false (fun h => by cases h) h

theorem checkUpdateResult_eq_ok_iff {v : Option VdfValue} :
    checkUpdateResult v = .ok () ↔ v = none ∨ v = some (.text ['0']) := by
  rcases v with _ | v | v
  · exact iff_of_true rfl (.inl rfl)
  · rw [checkUpdateResult]
    by_cases h : v = ['0']
    · rw [if_pos h, h]
      exact iff_of_true rfl (.inr rfl)
    · rw [if_neg h]
      simp [malformed, h]
  · simp [checkUpdateResult]

theorem decimal_eq (n : ℕ) : decimal n = Nat.toDigits 10 n := Nat.toList_repr

theorem decimal_ne_nil (n : ℕ) : decimal n ≠ [] := by
  rw [decimal_eq]
  exact Nat.toDigits_ne_nil

/-- What `read_installed_metadata` makes of a tree. -/
theorem installedMetadata_eq_ok_iff :
    installedMetadata o appId = .ok m ↔ StatesInstalled o appId m := by
  constructor
  · intro h
    obtain ⟨app, happ, h⟩ := bind_eq_ok_iff.mp h
    obtain ⟨⟨⟩, hequal, h⟩ := bind_eq_ok_iff.mp h
    obtain ⟨raw, hraw, h⟩ := bind_eq_ok_iff.mp h
    obtain ⟨build, hbuild, h⟩ := bind_eq_ok_iff.mp h
    obtain ⟨flags, hflags, h⟩ := bind_eq_ok_iff.mp h
    obtain ⟨⟨⟩, hequal', h⟩ := bind_eq_ok_iff.mp h
    obtain ⟨⟨⟩, hresult, h⟩ := bind_eq_ok_iff.mp h
    obtain ⟨size, hsize, h⟩ := bind_eq_ok_iff.mp h
    obtain rfl := Except.ok.inj h
    rw [nestedString_eq_ok_iff, lookup_singleton] at happ hraw hflags
    rw [requireEqual_eq_ok_iff] at hequal hequal'
    subst hequal hequal'
    exact ⟨happ.1, ⟨raw, hraw.1, positiveDecimal_eq_ok_iff.mp hbuild⟩, hflags.1,
      checkUpdateResult_eq_ok_iff.mp hresult, hsize⟩
  · rintro ⟨happ, ⟨raw, hraw, hbuild⟩, hflags, hresult, hsize⟩
    rw [← lookup_singleton] at happ hraw hflags
    have happ' := nestedString_eq_ok_iff.mpr ⟨happ, decimal_ne_nil appId⟩
    have hraw' := nestedString_eq_ok_iff.mpr ⟨hraw, hbuild.ne_nil⟩
    have hflags' := nestedString_eq_ok_iff.mpr ⟨hflags, List.cons_ne_nil _ _⟩
    refine bind_eq_ok_iff.mpr ⟨_, happ', bind_eq_ok_iff.mpr ⟨(), ?_, ?_⟩⟩
    · exact requireEqual_eq_ok_iff.mpr rfl
    refine bind_eq_ok_iff.mpr ⟨_, hraw', bind_eq_ok_iff.mpr ⟨m.buildId, ?_, ?_⟩⟩
    · exact positiveDecimal_eq_ok_iff.mpr hbuild
    refine bind_eq_ok_iff.mpr ⟨_, hflags', bind_eq_ok_iff.mpr ⟨(), ?_, ?_⟩⟩
    · exact requireEqual_eq_ok_iff.mpr rfl
    refine bind_eq_ok_iff.mpr ⟨(), checkUpdateResult_eq_ok_iff.mpr hresult, ?_⟩
    exact bind_eq_ok_iff.mpr ⟨m.sizeOnDisk, hsize, rfl⟩

end Lookup

/-! ### Line ends -/

/-- Apply a function to every string of a tree. -/
def VdfObject.mapText (f : Text → Text) : VdfObject → VdfObject
  | empty => empty
  | text key value rest => text (f key) (f value) (rest.mapText f)
  | object key value rest => object (f key) (value.mapText f) (rest.mapText f)

/-- Apply a function to every string of a value. -/
def VdfValue.mapText (f : Text → Text) : VdfValue → VdfValue
  | text value => text (f value)
  | object value => object (value.mapText f)

/-- Apply a function to a quoted string. -/
def Token.mapText (f : Text → Text) : Token → Token
  | quoted value => quoted (f value)
  | opening => opening
  | closing => closing

section LineEnds

variable {s t f : Text} {c : Char} {o : VdfObject}

/-- Quoting and turning line ends commute, for no character of a line end is quoted. -/
theorem universalNewlines_escape (s : Text) :
    universalNewlines (escape s) = escape (universalNewlines s) := by
  induction s using universalNewlines.induct with
  | case1 s ih =>
    rw [universalNewlines_crlf, escape_plain (by decide), escape_plain (by decide),
      escape_plain (by decide), universalNewlines_crlf, ih]
  | case2 s hs ih =>
    have hs' := head?_ne_newline hs
    have hescape : (escape s).head? ≠ some '\n' := by
      rcases s with _ | ⟨d, s⟩
      · exact hs'
      · by_cases hd : d = '\\' ∨ d = '"'
        · rw [escape_special hd, List.head?_cons]
          decide
        · rw [escape_plain hd]
          exact hs'
    rw [escape_plain (by decide), universalNewlines_return hescape, universalNewlines_return hs',
      escape_plain (by decide), ih]
  | case3 c s hcrlf hc ih =>
    have hc' : c ≠ '\r' := fun h => hc h
    rw [universalNewlines_cons hc']
    by_cases hspecial : c = '\\' ∨ c = '"'
    · rw [escape_special hspecial, escape_special hspecial, universalNewlines_cons (by decide),
        universalNewlines_cons hc', ih]
    · rw [escape_plain hspecial, escape_plain hspecial, universalNewlines_cons hc', ih]
  | case4 => rfl

/-- A control sequence has no line end. -/
theorem IsCsi.ne_return {e : Text} (he : IsCsi e) : ∀ c ∈ e, c ≠ '\r' ∧ c ≠ '\n' := by
  obtain ⟨hescape, hparameters, hintermediates, hfinal⟩ := he
  have hne : ∀ c : Char, 0x1b ≤ c.toNat → c ≠ '\r' ∧ c ≠ '\n' := by
    intro c hc
    constructor
    · rintro rfl
      revert hc
      decide
    · rintro rfl
      revert hc
      decide
  intro c hc
  simp only [List.mem_cons, List.mem_append, List.not_mem_nil, or_false] at hc
  refine hne c ?_
  rcases hc with rfl | rfl | hc | hc | rfl
  · omega
  · decide
  · have := hparameters c hc
    omega
  · have := hintermediates c hc
    omega
  · omega

/-- A filler stays one, and does so without a line feed at its beginning. -/
theorem Filler.universalNewlines (hf : Filler f) : Filler (universalNewlines f) ∧
    ∀ t, f = '\n' :: t → Filler (Updater.universalNewlines t) := by
  induction hf with
  | nil => exact ⟨.nil, fun t h => by cases h⟩
  | @csi e f he hf ih =>
    refine ⟨?_, fun t h => ?_⟩
    · rw [universalNewlines_keeps fun c hc => (IsCsi.ne_return he c hc).1]
      exact .csi he ih.1
    · cases he with
      | mk hescape =>
        obtain ⟨rfl, -⟩ := List.cons_eq_cons.mp h
        cases hescape
  | @plain c f hc hescape hf ih =>
    have hnewline : IsIgnored '\n' := ⟨by decide, by decide, by decide⟩
    refine ⟨?_, fun t h => ?_⟩
    · by_cases hreturn : c = '\r'
      · subst hreturn
        by_cases hnext : f.head? = some '\n'
        · obtain ⟨t, rfl⟩ : ∃ t, f = '\n' :: t := List.head?_eq_some_iff.mp hnext
          rw [universalNewlines_crlf]
          exact .plain hnewline (by decide) (ih.2 t rfl)
        · rw [universalNewlines_return hnext]
          exact .plain hnewline (by decide) ih.1
      · rw [universalNewlines_cons hreturn]
        exact .plain hc hescape ih.1
    · obtain ⟨-, rfl⟩ := List.cons_eq_cons.mp h
      exact ih.1

/-- A rendering that is read as a text file renders the tokens read as such. -/
theorem Renders.universalNewlines {after text : Text} {tokens : List Token}
    (h : Renders after tokens text) : Renders (universalNewlines after)
      (tokens.map (Token.mapText Updater.universalNewlines)) (Updater.universalNewlines text) := by
  induction h with
  | nil => exact .nil
  | quoted hf ht ih =>
    rw [universalNewlines_append_cons (by decide) (by decide),
      universalNewlines_append_cons (by decide) (by decide), universalNewlines_escape]
    exact .quoted hf.universalNewlines.1 ih
  | opening hf ht ih =>
    rw [universalNewlines_append_cons (by decide) (by decide)]
    exact .opening hf.universalNewlines.1 ih
  | closing hf ht ih =>
    rw [universalNewlines_append_cons (by decide) (by decide)]
    exact .closing hf.universalNewlines.1 ih

theorem universalNewlines_eq_iff (hnewline : '\n' ∉ t) (hreturn : '\r' ∉ t) :
    universalNewlines s = t ↔ s = t := by
  induction s using universalNewlines.induct generalizing t with
  | case1 s ih =>
    rw [universalNewlines_crlf]
    refine iff_of_false (fun h => hnewline ?_) fun h => hreturn ?_
    · rw [← h]
      exact List.mem_cons_self
    · rw [← h]
      exact List.mem_cons_self
  | case2 s hs ih =>
    rw [universalNewlines_return (head?_ne_newline hs)]
    refine iff_of_false (fun h => hnewline ?_) fun h => hreturn ?_
    · rw [← h]
      exact List.mem_cons_self
    · rw [← h]
      exact List.mem_cons_self
  | case3 c s hcrlf hc ih =>
    rw [universalNewlines_cons fun h => hc h]
    cases t with
    | nil => exact iff_of_false (fun h => by cases h) fun h => by cases h
    | cons d t =>
      rw [List.cons_eq_cons, List.cons_eq_cons, ih (fun h => hnewline (List.mem_cons_of_mem _ h))
        fun h => hreturn (List.mem_cons_of_mem _ h)]
  | case4 => rfl

end LineEnds

/-! ### A tree that was read as a text file -/

section File

variable {o : VdfObject} {s t k : Text} {m : SteamBuildMetadata} {appId : ℕ}

/-- The text has no line end in it. -/
def OneLine (t : Text) : Prop := '\n' ∉ t ∧ '\r' ∉ t

theorem VdfObject.get_mapText (hk : OneLine k) :
    (o.mapText universalNewlines).get k = (o.get k).map (VdfValue.mapText universalNewlines) := by
  induction o with
  | empty => rfl
  | text key value rest ih =>
    rw [mapText, get, get]
    by_cases h : key = k
    · rw [if_pos h, if_pos ((universalNewlines_eq_iff hk.1 hk.2).mpr h)]
      rfl
    · rw [if_neg h, if_neg fun h' => h ((universalNewlines_eq_iff hk.1 hk.2).mp h'), ih]
  | object key value rest _ ih =>
    rw [mapText, get, get]
    by_cases h : key = k
    · rw [if_pos h, if_pos ((universalNewlines_eq_iff hk.1 hk.2).mpr h)]
      rfl
    · rw [if_neg h, if_neg fun h' => h ((universalNewlines_eq_iff hk.1 hk.2).mp h'), ih]

theorem VdfValue.mapText_eq_text_iff {v : VdfValue} (ht : OneLine t) :
    v.mapText universalNewlines = .text t ↔ v = .text t := by
  cases v with
  | text s => rw [mapText, text.injEq, text.injEq, universalNewlines_eq_iff ht.1 ht.2]
  | object o => exact iff_of_false (fun h => by cases h) fun h => by cases h

theorem VdfObject.get_mapText_eq_text_iff (hk : OneLine k) (ht : OneLine t) :
    (o.mapText universalNewlines).get k = some (.text t) ↔ o.get k = some (.text t) := by
  rw [get_mapText hk]
  cases o.get k with
  | none => exact iff_of_false (fun h => by cases h) fun h => by cases h
  | some v =>
    rw [Option.map_some, Option.some_inj, Option.some_inj, VdfValue.mapText_eq_text_iff ht]

/-- Decimal digits are no line ends. -/
theorem oneLine_of_isDecimal (h : isDecimal t = true) : OneLine t := by
  have hall : ∀ c ∈ t, (digitValue c).isSome = true := by
    simp only [isDecimal, Bool.and_eq_true, List.all_eq_true] at h
    exact h.2
  constructor
  · intro hmem
    have := hall _ hmem
    revert this
    decide
  · intro hmem
    have := hall _ hmem
    revert this
    decide

theorem oneLine_decimal (n : ℕ) : OneLine (decimal n) := by
  have hall : ∀ c ∈ decimal n, c.isDigit = true := by
    rw [decimal_eq]
    exact fun c hc => Nat.isDigit_of_mem_toDigits (by decide) (by decide) hc
  constructor
  · intro hmem
    have := hall _ hmem
    revert this
    decide
  · intro hmem
    have := hall _ hmem
    revert this
    decide

theorem sizeOf_mapText (v : Option VdfValue) :
    sizeOf (v.map (VdfValue.mapText universalNewlines)) = sizeOf v := by
  rcases v with _ | s | o
  · rfl
  · have heq : isDecimal (universalNewlines s) = true ∨ isDecimal s = true →
        universalNewlines s = s := by
      rintro (h | h)
      · obtain ⟨hnewline, hreturn⟩ := oneLine_of_isDecimal h
        exact ((universalNewlines_eq_iff hnewline hreturn).mp rfl).symm
      · obtain ⟨hnewline, hreturn⟩ := oneLine_of_isDecimal h
        exact (universalNewlines_eq_iff hnewline hreturn).mpr rfl
    rw [Option.map_some, VdfValue.mapText, sizeOf, sizeOf]
    by_cases h : isDecimal (universalNewlines s) = true ∨ isDecimal s = true
    · rw [heq h]
    · rw [not_or] at h
      rw [if_neg h.1, if_neg h.2]
  · rfl

/-- **Line ends decide no build.** -/
theorem statesInstalled_mapText_iff :
    StatesInstalled (o.mapText universalNewlines) appId m ↔ StatesInstalled o appId m := by
  have hkey : ∀ k ∈ ["appid", "buildid", "StateFlags", "UpdateResult", "SizeOnDisk"],
      OneLine k.toList := by
    simp only [List.forall_mem_cons, OneLine]
    decide
  simp only [List.forall_mem_cons] at hkey
  obtain ⟨happ, hbuild, hflags, hresult, hsize, -⟩ := hkey
  have h₁ := VdfObject.get_mapText_eq_text_iff (o := o) happ (oneLine_decimal appId)
  have h₂ : (∃ raw, (o.mapText universalNewlines).get "buildid".toList = some (.text raw) ∧
      IsPositive raw m.buildId) ↔
      ∃ raw, o.get "buildid".toList = some (.text raw) ∧ IsPositive raw m.buildId := by
    refine exists_congr fun raw => and_congr_left fun hn => ?_
    exact VdfObject.get_mapText_eq_text_iff hbuild (oneLine_of_isDecimal hn.1)
  have h₃ := VdfObject.get_mapText_eq_text_iff (o := o) hflags (t := ['4']) ⟨by decide, by decide⟩
  have h₄ := VdfObject.get_mapText_eq_text_iff (o := o) hresult (t := ['0'])
    ⟨by decide, by decide⟩
  have h₄' : (o.mapText universalNewlines).get "UpdateResult".toList = none ↔
      o.get "UpdateResult".toList = none := by
    rw [VdfObject.get_mapText hresult, Option.map_eq_none_iff]
  have h₅ : sizeOf ((o.mapText universalNewlines).get "SizeOnDisk".toList) =
      sizeOf (o.get "SizeOnDisk".toList) := by
    rw [VdfObject.get_mapText hsize, sizeOf_mapText]
  constructor
  · rintro ⟨happ, hbuild, hflags, hresult, hsize⟩
    exact ⟨h₁.mp happ, h₂.mp hbuild, h₃.mp hflags, (or_congr h₄' h₄).mp hresult,
      h₅.symm.trans hsize⟩
  · rintro ⟨happ, hbuild, hflags, hresult, hsize⟩
    exact ⟨h₁.mpr happ, h₂.mpr hbuild, h₃.mpr hflags, (or_congr h₄' h₄).mpr hresult,
      h₅.trans hsize⟩

theorem NoEscape.universalNewlines (h : NoEscape s) : NoEscape (universalNewlines s) := by
  induction s using universalNewlines.induct with
  | case1 s ih =>
    rw [universalNewlines_crlf]
    exact List.forall_mem_cons.mpr ⟨by decide, ih fun c hc =>
      h c (List.mem_cons_of_mem _ (List.mem_cons_of_mem _ hc))⟩
  | case2 s hs ih =>
    rw [universalNewlines_return (head?_ne_newline hs)]
    exact List.forall_mem_cons.mpr ⟨by decide, ih fun c hc => h c (List.mem_cons_of_mem _ hc)⟩
  | case3 c s hcrlf hc ih =>
    obtain ⟨hc', hs⟩ := List.forall_mem_cons.mp h
    rw [universalNewlines_cons fun h => hc h]
    exact List.forall_mem_cons.mpr ⟨hc', ih hs⟩
  | case4 => exact h

theorem IsPlain.universalNewlines (h : IsPlain s) : IsPlain (universalNewlines s) := by
  obtain ⟨hescape, hopening, hclosing⟩ := h
  refine ⟨hescape.universalNewlines, fun heq => hopening ?_, fun heq => hclosing ?_⟩
  · exact (universalNewlines_eq_iff (by decide) (by decide)).mp heq
  · exact (universalNewlines_eq_iff (by decide) (by decide)).mp heq

theorem VdfObject.Plain.universalNewlines (h : o.Plain) : (o.mapText universalNewlines).Plain := by
  induction o with
  | empty => trivial
  | text key value rest ih => exact ⟨h.1.universalNewlines, h.2.1.universalNewlines, ih h.2.2⟩
  | object key value rest ihvalue ih =>
    exact ⟨h.1.universalNewlines, ihvalue h.2.1, ih h.2.2⟩

theorem fieldTokens_mapText (f : Text → Text) : (o.mapText f).fieldTokens =
    o.fieldTokens.map (Token.mapText f) := by
  induction o with
  | empty => rfl
  | text key value rest ih =>
    rw [VdfObject.mapText, VdfObject.fieldTokens, VdfObject.fieldTokens, ih]
    rfl
  | object key value rest ihvalue ih =>
    rw [VdfObject.mapText, VdfObject.fieldTokens, VdfObject.fieldTokens, ihvalue, ih]
    simp [Token.mapText]

theorem rootTokens_mapText (f : Text → Text) (root : Text) :
    (rootTokens root o).map (Token.mapText f) = rootTokens (f root) (o.mapText f) := by
  rw [rootTokens, rootTokens, fieldTokens_mapText]
  simp [Token.mapText]

end File

/-! ### Every tree -/

/-- **VDF is decoded faithfully.** A tree of plain strings, with distinct keys in each object, is
read back from every rendering of it, and so is the build that it stores for a branch. From a file
the installed build is read back too, if the keys stay distinct when line ends become line feeds. -/
theorem vdf_faithful {root text after : Text} {o : VdfObject}
    (h : Renders after (rootTokens root o) text) (hroot : IsPlain root) (hplain : o.Plain)
    (hdistinct : o.Distinct) :
    parseVdfRoot text root = .ok o ∧
    (∀ appId branch n, root = decimal appId → (parseAppInfoBuild text appId branch = .ok n ↔
      ∃ raw, VdfValue.lookup ["depots".toList, "branches".toList, branch, "buildid".toList]
        (.object o) = some (.text raw) ∧ IsPositive raw n)) ∧
    ∀ manifest appId m, root = "AppState".toList → (o.mapText universalNewlines).Distinct →
      (readInstalledMetadata manifest (.ok text) appId = .ok m ↔ StatesInstalled o appId m) := by
  have hparse := parseVdfRoot_renders h hroot hplain hdistinct
  refine ⟨hparse, ?_, ?_⟩
  · rintro appId branch n rfl
    exact parseAppInfoBuild_eq_ok_iff hparse
  · rintro manifest appId m rfl hdistinct'
    have hfile := h.universalNewlines
    rw [rootTokens_mapText] at hfile
    have hread : parseVdfRoot (universalNewlines text) "AppState".toList =
        .ok (o.mapText universalNewlines) :=
      parseVdfRoot_renders hfile hroot hplain.universalNewlines hdistinct'
    rw [readInstalledMetadata, hread, ← statesInstalled_mapText_iff]
    exact installedMetadata_eq_ok_iff

/-- The rendering without anything between the tokens. -/
def render : List Token → Text
  | [] => []
  | .quoted s :: tokens => '"' :: (escape s ++ '"' :: render tokens)
  | .opening :: tokens => '{' :: render tokens
  | .closing :: tokens => '}' :: render tokens

theorem renders_render (tokens : List Token) : Renders [] tokens (render tokens) := by
  induction tokens with
  | nil => exact .nil
  | cons token tokens ih =>
    cases token with
    | quoted s => exact .quoted .nil ih
    | opening => exact .opening .nil ih
    | closing => exact .closing .nil ih

/-- The answer of Steam for one branch. -/
def appInfo : VdfObject :=
  .object "depots".toList (.object "branches".toList (.object "public".toList
    (.text "buildid".toList "24775771".toList .empty) .empty) .empty) .empty

theorem vdf_faithful_public : let red := [Char.ofNat 0x1b, '[', '3', '1', 'm']
    parseAppInfoBuild (red ++ render (rootTokens "380870".toList appInfo)) 380870 "public".toList =
      .ok 24775771 := by
  have hred : IsCsi [Char.ofNat 0x1b, '[', '3', '1', 'm'] :=
    @IsCsi.mk _ 'm' ['3', '1'] [] rfl (by simp) (by simp) (by decide)
  have hrenders : Renders [] (rootTokens "380870".toList appInfo)
      ([Char.ofNat 0x1b, '[', '3', '1', 'm'] ++ render (rootTokens "380870".toList appInfo)) :=
    .quoted (.csi hred .nil) (renders_render _)
  have hpositive : IsPositive "24775771".toList 24775771 :=
    ⟨by decide +kernel, by decide, by decide +kernel, by decide⟩
  exact ((vdf_faithful hrenders (by decide +kernel) (by decide +kernel) (by decide +kernel)).2.1
    380870 "public".toList 24775771 (by decide +kernel)).mpr ⟨_, rfl, hpositive⟩

/-- A manifest with two keys that differ in a line end. -/
def collidingManifest : VdfObject :=
  .text "appid".toList "380870".toList (.text "buildid".toList "5".toList
    (.text "StateFlags".toList "4".toList (.text "a\r".toList "1".toList
      (.text "a\n".toList "2".toList .empty))))

/-- The keys are distinct in the file, and not in what is read from it. -/
theorem readInstalledMetadata_collides :
    let text := render (rootTokens "AppState".toList collidingManifest)
    Renders [] (rootTokens "AppState".toList collidingManifest) text ∧ collidingManifest.Plain ∧
    collidingManifest.Distinct ∧ StatesInstalled collidingManifest 380870 ⟨5, none⟩ ∧
    readInstalledMetadata "" (.ok text) 380870 ≠ .ok ⟨5, none⟩ := by
  have hpositive : IsPositive "5".toList 5 :=
    ⟨by decide +kernel, by decide, by decide +kernel, by decide⟩
  refine ⟨renders_render _, by decide +kernel, by decide +kernel, ?_, by decide +kernel⟩
  exact ⟨by decide +kernel, ⟨_, rfl, hpositive⟩, rfl, .inl rfl, rfl⟩

end Updater

end PzServer
