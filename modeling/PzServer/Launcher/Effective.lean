import PzServer.Launcher.Configured

/-!
# The heap that the virtual machine takes

Of several flags of a kind the virtual machine takes the last, in any of its notations. The updater
knows only some of them. It replaces the flag that it knows where it is, and a later one that it
does not know stays in force.

## Main definitions

* `Effective` — the configured heap is the one that the virtual machine takes
* `Dominant` — the flags that the updater sets are the last of their kind

## Main results

* `effective_iff` — the one is the other
-/

namespace PzServer

namespace Launcher

open Json (Data codePoints getItem setItem)

open Updater (Err)

open Watchdog (Text)

/-! ### Flags in force -/

/-- `item.startswith(name)` -/
def startsWith (name : String) (item : List ℕ) : Bool := (codePoints name).isPrefixOf item

/-- What the virtual machine takes for a flag: the last item that begins with its name. -/
def effectiveFlag (name : String) (arguments : List (List ℕ)) : Option (List ℕ) :=
  (arguments.filter (startsWith name)).getLast?

/-- No item begins with this name. -/
def lacks (name : String) (items : List (List ℕ)) : Bool :=
  items.all fun item => !startsWith name item

/-- What comes after the recognised `-Xmx`. -/
def behindXmx (arguments : List (List ℕ)) : List (List ℕ) :=
  (arguments.dropWhile fun item => !isHeapFlag "-Xmx" item).tail

/-- What comes after the place of `-Xms`: after the recognised one, or from the recognised `-Xmx`
on. -/
def behindXms (arguments : List (List ℕ)) : List (List ℕ) :=
  if arguments.any (isHeapFlag "-Xms") then
    (arguments.dropWhile fun item => !isHeapFlag "-Xms" item).tail
  else arguments.dropWhile fun item => !isHeapFlag "-Xmx" item

/-- The flags that the updater sets are the last of their kind. -/
def Dominant (arguments : List (List ℕ)) : Bool :=
  lacks "-Xmx" (behindXmx arguments) && lacks "-Xms" (behindXms arguments)

/-- The text that was written, against the file that was read: the configured heap is the one that
the virtual machine takes, all other arguments are there in their order, and so is every other
field. -/
structure Effective (settings : Settings) (entries : List (List ℕ × Data))
    (arguments : List (List ℕ)) (entries' : List (List ℕ × Data)) (arguments' : List (List ℕ)) :
    Prop where
  xmx : effectiveFlag "-Xmx" arguments' = some (settings.xmx.flag "-Xmx")
  xms : effectiveFlag "-Xms" arguments' = some (settings.xms.flag "-Xms")
  others : arguments'.filter (!isRecognised ·) = arguments.filter (!isRecognised ·)
  keys : entries'.map Prod.fst = entries.map Prod.fst
  fields : ∀ key, key ≠ codePoints "vmArgs" → getItem entries' key = getItem entries key

variable {name : String} {item a b : List ℕ} {items pre post arguments : List (List ℕ)}
  {slots : Slots}

theorem lacks_append : lacks name (pre ++ post) = (lacks name pre && lacks name post) :=
  List.all_append

theorem startsWith_of_flag (h : isHeapFlag name item = true) : startsWith name item = true := by
  rw [isHeapFlag, Bool.and_eq_true] at h
  exact h.1

/-- A flag is the last of its kind just if none comes after it. -/
theorem effectiveFlag_iff (hitem : isHeapFlag name item = true)
    (hpost : ∀ x ∈ post, isHeapFlag name x = false) :
    effectiveFlag name (pre ++ item :: post) = some item ↔ lacks name post = true := by
  rw [effectiveFlag, List.filter_append, List.filter_cons_of_pos (startsWith_of_flag hitem)]
  constructor
  · intro h
    rw [lacks, List.all_eq_true]
    intro x hx
    cases hstart : startsWith name x with
    | false => rfl
    | true =>
      have hne : post.filter (startsWith name) ≠ [] :=
        List.ne_nil_of_mem (List.mem_filter.mpr ⟨hx, hstart⟩)
      have hlast : item ∈ post.filter (startsWith name) := by
        obtain ⟨y, ys, hys⟩ := List.exists_cons_of_ne_nil hne
        rw [hys, List.getLast?_append, List.getLast?_cons_cons, List.getLast?_cons] at h
        rw [hys]
        refine List.mem_of_getLast? ?_
        rw [List.getLast?_cons]
        exact h
      rw [hpost item (List.mem_filter.mp hlast).1] at hitem
      cases hitem
  · intro h
    have hnil : post.filter (startsWith name) = [] := by
      rw [List.filter_eq_nil_iff]
      intro x hx
      have hx := List.all_eq_true.mp h x hx
      simpa using hx
    rw [hnil, List.getLast?_append]
    rfl

theorem dropWhile_flag (hitem : isHeapFlag name item = true)
    (hpre : ∀ x ∈ pre, isHeapFlag name x = false) :
    (pre ++ item :: post).dropWhile (fun item => !isHeapFlag name item) = item :: post := by
  rw [List.dropWhile_append_of_pos fun x hx => by rw [hpre x hx]; rfl,
    List.dropWhile_cons_of_neg (by rw [hitem]; decide)]

/-- The two names differ. -/
theorem startsWith_exclusive (h : startsWith "-Xms" item = true) :
    startsWith "-Xmx" item = false := by
  cases hxmx : startsWith "-Xmx" item with
  | false => rfl
  | true =>
    rw [startsWith, List.isPrefixOf_iff_prefix] at h hxmx
    obtain ⟨r, rfl⟩ := h
    obtain ⟨r', heq⟩ := hxmx
    have hthird := congrArg (fun l => l[3]?) heq
    exact absurd hthird (by simp [codePoints])

theorem xmx_of_xms (h : isHeapFlag "-Xms" item = true) : startsWith "-Xmx" item = false :=
  startsWith_exclusive (startsWith_of_flag h)

theorem xms_of_xmx (h : isHeapFlag "-Xmx" item = true) : startsWith "-Xms" item = false := by
  cases hxms : startsWith "-Xms" item with
  | false => rfl
  | true => exact absurd (startsWith_of_flag h) (by rw [startsWith_exclusive hxms]; decide)

/-! ### Flags in the slots -/

theorem lacks_skip (h : startsWith name item = false) :
    lacks name (pre ++ item :: post) = lacks name (pre ++ post) := by
  rw [lacks_append, lacks_append, lacks, lacks, lacks, List.all_cons, h]
  rfl

/-- What comes after `-Xmx` in the slots, but for the other flag. -/
def Slots.behindXmx (slots : Slots) : List (List ℕ) :=
  if slots.swapped then slots.between ++ slots.after else slots.after

/-- What comes after `-Xms` in the slots, but for the other flag. -/
def Slots.behindXms (slots : Slots) : List (List ℕ) :=
  if slots.swapped then slots.after else slots.between ++ slots.after

theorem effectiveFlag_fill (ha : isHeapFlag "-Xms" a = true) (hb : isHeapFlag "-Xmx" b = true) :
    (effectiveFlag "-Xmx" (slots.fill a b) = some b ↔ lacks "-Xmx" slots.behindXmx = true) ∧
    (effectiveFlag "-Xms" (slots.fill a b) = some a ↔ lacks "-Xms" slots.behindXms = true) := by
  have hplain := fun x hx => @Slots.not_flag x slots hx
  have hxmx := isHeapFlag_exclusive ha
  have hxms := isHeapFlag_exclusive' hb
  rw [Slots.fill, Slots.behindXmx, Slots.behindXms]
  cases hswapped : slots.swapped with
  | false =>
    rw [if_neg (by decide), if_neg (by decide), if_neg (by decide)]
    constructor
    · have hreassoc : slots.before ++ a :: (slots.between ++ b :: slots.after) =
          (slots.before ++ a :: slots.between) ++ b :: slots.after := by simp
      rw [hreassoc]
      exact effectiveFlag_iff hb fun x hx => (hplain x (.inr (.inr hx))).2
    · rw [← lacks_skip (xms_of_xmx hb)]
      refine effectiveFlag_iff ha fun x hx => ?_
      grind
  | true =>
    rw [if_pos rfl, if_pos rfl, if_pos rfl]
    constructor
    · rw [← lacks_skip (xmx_of_xms ha)]
      refine effectiveFlag_iff hb fun x hx => ?_
      grind
    · have hreassoc : slots.before ++ b :: (slots.between ++ a :: slots.after) =
          (slots.before ++ b :: slots.between) ++ a :: slots.after := by simp
      rw [hreassoc]
      exact effectiveFlag_iff ha fun x hx => (hplain x (.inr (.inr hx))).1

theorem any_flag (pre post : List (List ℕ)) (h : isHeapFlag name item = true) :
    (pre ++ item :: post).any (isHeapFlag name) = true := by
  rw [List.any_append, List.any_cons, h]
  simp

/-- What comes after the flags does not depend on how they are found. -/
theorem dominant_of_finds (h : Finds arguments slots) :
    Dominant arguments = (lacks "-Xmx" slots.behindXmx && lacks "-Xms" slots.behindXms) := by
  have hplain := fun x hx => @Slots.not_flag x slots hx
  obtain ⟨before, between, after, swapped, plain⟩ := slots
  rw [Dominant, behindXmx, behindXms, Slots.behindXmx, Slots.behindXms]
  rcases h with ⟨a, b, ha, hb, rfl⟩ | ⟨b, hb, hswapped, hempty, rfl⟩
  · have hxmx := isHeapFlag_exclusive ha
    have hxms := isHeapFlag_exclusive' hb
    rw [Slots.fill]
    cases swapped with
    | false =>
      have hreassoc : before ++ a :: (between ++ b :: after) =
          (before ++ a :: between) ++ b :: after := by simp
      have hdropXmx : (before ++ a :: (between ++ b :: after)).dropWhile
          (fun item => !isHeapFlag "-Xmx" item) = b :: after := by
        rw [hreassoc]
        refine dropWhile_flag hb fun x hx => ?_
        grind
      have hdropXms : (before ++ a :: (between ++ b :: after)).dropWhile
          (fun item => !isHeapFlag "-Xms" item) = a :: (between ++ b :: after) :=
        dropWhile_flag ha fun x hx => (hplain x (.inl hx)).1
      simp only [Bool.false_eq_true, if_false]
      rw [hdropXmx, hdropXms, if_pos (any_flag _ _ ha), List.tail_cons, List.tail_cons,
        lacks_skip (xms_of_xmx hb)]
    | true =>
      have hreassoc : before ++ b :: (between ++ a :: after) =
          (before ++ b :: between) ++ a :: after := by simp
      have hdropXmx : (before ++ b :: (between ++ a :: after)).dropWhile
          (fun item => !isHeapFlag "-Xmx" item) = b :: (between ++ a :: after) :=
        dropWhile_flag hb fun x hx => (hplain x (.inl hx)).2
      have hdropXms : (before ++ b :: (between ++ a :: after)).dropWhile
          (fun item => !isHeapFlag "-Xms" item) = a :: after := by
        rw [hreassoc]
        refine dropWhile_flag ha fun x hx => ?_
        grind
      have hany : (before ++ b :: (between ++ a :: after)).any (isHeapFlag "-Xms") = true := by
        rw [hreassoc]
        exact any_flag _ _ ha
      simp only [if_true]
      rw [hdropXmx, hdropXms, if_pos hany, List.tail_cons, List.tail_cons,
        lacks_skip (xmx_of_xms ha)]
  · dsimp only at hswapped hempty ⊢
    subst hswapped hempty
    have hdropXmx : (before ++ b :: after).dropWhile (fun item => !isHeapFlag "-Xmx" item) =
        b :: after := dropWhile_flag hb fun x hx => (hplain x (.inl hx)).2
    have hnone : ¬ (before ++ b :: after).any (isHeapFlag "-Xms") = true := by
      rw [List.any_eq_true]
      rintro ⟨x, hx, hflag⟩
      have hxms := isHeapFlag_exclusive' hb
      grind
    have hb' : lacks "-Xms" (b :: after) = lacks "-Xms" after :=
      @lacks_skip _ _ [] after (xms_of_xmx hb)
    rw [hdropXmx, if_neg hnone, hb', List.tail_cons]
    rfl

theorem filter_plain (h : ∀ x ∈ items, isRecognised x = false) :
    items.filter (!isRecognised ·) = items :=
  List.filter_eq_self.mpr fun x hx => by rw [h x hx]; rfl

theorem filter_flag (h : isHeapFlag "-Xms" item = true ∨ isHeapFlag "-Xmx" item = true) :
    (item :: items).filter (!isRecognised ·) = items.filter (!isRecognised ·) := by
  refine List.filter_cons_of_neg ?_
  have hitem : isRecognised item = true := Bool.or_eq_true .. |>.mpr h
  rw [hitem]
  decide

/-- What is left without the flags that are recognised. -/
theorem filter_of_finds (h : Finds arguments slots) :
    arguments.filter (!isRecognised ·) = slots.before ++ (slots.between ++ slots.after) := by
  obtain ⟨before, between, after, swapped, plain⟩ := slots
  have hbefore := filter_plain fun x hx => plain x (List.mem_append_left _ hx)
  have hbetween := filter_plain fun x hx =>
    plain x (List.mem_append_right _ (List.mem_append_left _ hx))
  have hafter := filter_plain fun x hx =>
    plain x (List.mem_append_right _ (List.mem_append_right _ hx))
  rcases h with ⟨a, b, ha, hb, rfl⟩ | ⟨b, hb, hswapped, hempty, rfl⟩
  · rw [Slots.fill]
    cases swapped with
    | false =>
      simp only [Bool.false_eq_true, if_false]
      rw [List.filter_append, filter_flag (.inl ha), List.filter_append,
        filter_flag (.inr hb), hbefore, hbetween, hafter]
    | true =>
      simp only [if_true]
      rw [List.filter_append, filter_flag (.inr hb), List.filter_append,
        filter_flag (.inl ha), hbefore, hbetween, hafter]
  · dsimp only at hempty ⊢
    subst hempty
    rw [List.filter_append, filter_flag (.inr hb), hbefore, hafter]
    rfl

/-! ### The document -/

variable {python : Interpreter} {file : Option ByteArray} {out : Text} {settings : Settings}
  {entries : List (List ℕ × Data)}

/-- What the two texts say is effective just if the flags were the last of their kind. -/
theorem effective_filled (h : IsLauncher entries arguments slots) (settings : Settings) :
    Effective settings entries arguments (filled entries slots settings)
      (slots.fill (settings.xms.flag "-Xms") (settings.xmx.flag "-Xmx")) ↔
    Dominant arguments = true := by
  have hflags := @effectiveFlag_fill _ _ slots (isHeapFlag_flag settings.xms "-Xms")
    (isHeapFlag_flag settings.xmx "-Xmx")
  rw [dominant_of_finds h.finds, Bool.and_eq_true, ← hflags.1, ← hflags.2]
  constructor
  · intro heffective
    exact ⟨heffective.xmx, heffective.xms⟩
  · rintro ⟨hxmx, hxms⟩
    have hold := vmArguments_eq_some.mp h.vmArgs
    refine ⟨hxmx, hxms, ?_, ?_, ?_⟩
    · rw [filter_of_finds h.finds, filter_of_finds (finds_fill slots settings.xms settings.xmx)]
    · rw [filled, Json.map_fst_setItem, if_pos]
      obtain ⟨entry, hentry, -⟩ := Option.map_eq_some_iff.mp hold
      have hkey : entry.1 = codePoints "vmArgs" := by simpa using List.find?_some hentry
      rw [← hkey]
      exact List.mem_map_of_mem (List.mem_of_find?_eq_some hentry)
    · intro key hkey
      rw [filled, Json.getItem_setItem, if_neg hkey]

/-- **The configured heap is the effective heap** just if the flags that the updater recognises are
the last of their kind. -/
theorem effective_iff (h : configuredLauncherJson python file settings = .ok out) :
    ∃ entries arguments entries' arguments', readDocument python file = .ok (.dict entries) ∧
      vmArguments entries = some arguments ∧
      readDocument python (written out) = .ok (.dict entries') ∧
      vmArguments entries' = some arguments' ∧
      (Effective settings entries arguments entries' arguments' ↔ Dominant arguments = true) := by
  obtain ⟨document, configured, hread, hconfigure, hwritten⟩ := readDocument_configured h
  obtain ⟨entries, arguments, slots, rfl, hlauncher, rfl⟩ := configure_eq_ok.mp hconfigure
  exact ⟨entries, arguments, _, _, hread, hlauncher.vmArgs, hwritten,
    (isLauncher_filled hlauncher settings).vmArgs, effective_filled hlauncher settings⟩

/-- A document whose flags are the last of their kind. -/
theorem effective_iff_game :
    ∃ entries arguments entries' arguments',
      readDocument cpython (written (gameText ["-Xmx16g"])) = .ok (.dict entries) ∧
      vmArguments entries = some arguments ∧
      readDocument cpython (written (gameText ["-Xms2g", "-Xmx8g"])) = .ok (.dict entries') ∧
      vmArguments entries' = some arguments' ∧
      (Effective (gigabytes 1 7) entries arguments entries' arguments' ↔
        Dominant arguments = true) :=
  effective_iff (@configured_game (gigabytes 1 7) _ _ (by decide))

/-- A later flag in kilobytes stays in force. -/
theorem heap_overridden :
    configuredLauncherJson cpython (written (gameText ["-Xmx8g", "-Xmx16384k"])) (gigabytes 1 7) =
      .ok (gameText ["-Xms2g", "-Xmx8g", "-Xmx16384k"]) ∧
    readDocument cpython (written (gameText ["-Xms2g", "-Xmx8g", "-Xmx16384k"])) =
      .ok (gameDocument ["-Xms2g", "-Xmx8g", "-Xmx16384k"]) ∧
    effectiveFlag "-Xmx" (["-Xms2g", "-Xmx8g", "-Xmx16384k"].map codePoints) =
      some (codePoints "-Xmx16384k") ∧
    some (codePoints "-Xmx16384k") ≠ some ((gigabytes 1 7).xmx.flag "-Xmx") :=
  ⟨@configured_game (gigabytes 1 7) _ _ (by decide), readDocument_game _, by decide, by decide⟩

end Launcher

end PzServer
