import PzServer.Collections.Indexes
import PzServer.Json.Dumps
import PzServer.Updater.Vdf
import PzServer.Watchdog.Text

/-!
# The heap flags of the launcher

The arguments of the Java virtual machine hold the size of its heap in two flags. The updater finds
the flags that are spelled as it would spell them, replaces the two sizes by the configured ones,
and puts `-Xms` before `-Xmx` where it was missing.

Afterwards the arguments are `Slots`: they fall into three parts without such a flag, with one flag
between each. To configure them again is to fill the slots again, whatever they were filled with.

## Main definitions

* `HeapSize`, `heapSize` — `_heap_size`
* `setHeap` — the part of `_configured_launcher_json` that changes the arguments
* `Slots` — arguments with both flags

## Main results

* `setHeap_eq_some` — what the arguments were, and what they are then
* `finds_fill` — slots that were filled are found again
-/

namespace PzServer

namespace Launcher

open Collections (indexes indexes_eq_nil indexes_eq_singleton set_length insertIdx_length)

open Json (codePoints)

open Updater (Err malformed)

open Watchdog (Text)

/-! ### Sizes -/

/-- `\d` -/
def isDecimalDigit (n : ℕ) : Bool := Text.zeros.any fun z => z ≤ n && n < z + 10

/-- `[gGmM]` -/
def isUnit (c : Char) : Bool := c = 'g' || c = 'G' || c = 'm' || c = 'M'

/-- `re.fullmatch(r"[1-9]\d*[gGmM]", value)` -/
def isHeapSetting : Text → Bool
  | first :: rest => '1' ≤ first && first ≤ '9' && match rest.reverse with
    | unit :: digits => isUnit unit && digits.all fun c => isDecimalDigit c.toNat
    | [] => false
  | [] => false

/-- A size of the heap as it is configured. -/
structure HeapSize where
  size : Text
  valid : isHeapSetting size = true

/-- `str.lower`, for what a size is made of -/
def lower (value : Text) : Text := value.map Char.toLower

theorem toNat_toLower {c : Char} (h : ¬ ('A' ≤ c ∧ c ≤ 'Z')) : c.toLower = c :=
  dif_neg h

theorem isHeapSetting_lower {value : Text} (h : isHeapSetting value = true) :
    isHeapSetting (lower value) = true := by
  have hunit : ∀ c, isUnit c = true → isUnit c.toLower = true := by
    intro c hc
    simp only [isUnit, Bool.or_eq_true, decide_eq_true_eq] at hc
    rcases hc with ((rfl | rfl) | rfl) | rfl
    all_goals rfl
  have hdigit : ∀ c : Char, isDecimalDigit c.toNat = true → c.toLower = c := by
    intro c hc
    refine toNat_toLower ?_
    rintro ⟨hA, hZ⟩
    have hA : 65 ≤ c.toNat := hA
    have hZ : c.toNat ≤ 90 := hZ
    have hnone : ∀ n : Fin 26, isDecimalDigit (65 + n.val) = false := by decide
    have hthis := hnone ⟨c.toNat - 65, by omega⟩
    rw [show 65 + (c.toNat - 65) = c.toNat by omega, hc] at hthis
    cases hthis
  cases value with
  | nil => cases h
  | cons first rest =>
    rw [lower, List.map_cons, isHeapSetting, ← List.map_reverse]
    rw [isHeapSetting] at h
    cases hrest : rest.reverse with
    | nil =>
      rw [hrest] at h
      simp at h
    | cons unit digits =>
      rw [hrest] at h
      simp only [Bool.and_eq_true, decide_eq_true_eq] at h
      obtain ⟨⟨h1, h9⟩, hu, hdigits⟩ := h
      have hfirst : first.toLower = first := toNat_toLower fun hA => by
        have hA : 65 ≤ first.toNat := hA.1
        have h9 : first.toNat ≤ 57 := h9
        omega
      have hall : digits.map Char.toLower = digits := by
        rw [List.map_congr_left fun c hc => hdigit c (List.all_eq_true.mp hdigits c hc)]
        exact List.map_id' digits
      rw [List.map_cons, hfirst, hall]
      simp only [Bool.and_eq_true, decide_eq_true_eq]
      exact ⟨⟨h1, h9⟩, hunit unit hu, hdigits⟩

/-- `_heap_size` -/
def heapSize (values : String → Option Text) (name default : String) : Except Err HeapSize :=
  let value := Text.strip ((values name).getD default.toList)
  if h : isHeapSetting value = true then .ok ⟨lower value, isHeapSetting_lower h⟩
  else malformed s!"{name} must be a positive integer followed by g or m"

/-! ### Flags -/

/-- `re.fullmatch(r"-Xms\d+[gGmM]", item)`, and the same for the other name -/
def isHeapFlag (name : String) (item : List ℕ) : Bool :=
  (codePoints name).isPrefixOf item && match (item.drop (codePoints name).length).reverse with
    | unit :: digits =>
      unit ∈ ['g', 'G', 'm', 'M'].map Char.toNat && digits ≠ [] && digits.all isDecimalDigit
    | [] => false

/-- `f"-Xms{xms}"`, and the same for the other name -/
def HeapSize.flag (heap : HeapSize) (name : String) : List ℕ :=
  codePoints name ++ heap.size.map Char.toNat

/-- The change to the arguments, unless their memory structure is incompatible. -/
def setHeap (arguments : List (List ℕ)) (xms xmx : HeapSize) : Option (List (List ℕ)) :=
  let xmsIndexes := indexes (isHeapFlag "-Xms") arguments
  let xmxIndexes := indexes (isHeapFlag "-Xmx") arguments
  if xmsIndexes.length > 1 then none
  else
    match xmxIndexes with
    | [xmxIndex] =>
      let arguments := arguments.set xmxIndex (xmx.flag "-Xmx")
      match xmsIndexes with
      | xmsIndex :: _ => some (arguments.set xmsIndex (xms.flag "-Xms"))
      | [] => some (arguments.insertIdx xmxIndex (xms.flag "-Xms"))
    | _ => none

/-- A flag that the updater recognises. -/
def isRecognised (item : List ℕ) : Bool := isHeapFlag "-Xms" item || isHeapFlag "-Xmx" item

/-! ### Slots -/

/-- Three parts of the arguments, around the places of the two flags. -/
structure Slots where
  before : List (List ℕ)
  between : List (List ℕ)
  after : List (List ℕ)
  /-- `-Xmx` comes first. -/
  swapped : Bool
  plain : ∀ item ∈ before ++ (between ++ after), isRecognised item = false

/-- The arguments, with these flags in their places. -/
def Slots.fill (slots : Slots) (xms xmx : List ℕ) : List (List ℕ) :=
  if slots.swapped then slots.before ++ xmx :: (slots.between ++ xms :: slots.after)
  else slots.before ++ xms :: (slots.between ++ xmx :: slots.after)

section Flags

variable {item : List ℕ}

theorem isHeapFlag_flag (heap : HeapSize) (name : String) :
    isHeapFlag name (heap.flag name) = true := by
  obtain ⟨size, hvalid⟩ := heap
  have hprefix : (codePoints name).isPrefixOf (codePoints name ++ size.map Char.toNat) = true :=
    List.isPrefixOf_iff_prefix.mpr (List.prefix_append _ _)
  rw [isHeapFlag, HeapSize.flag, hprefix, List.drop_left, Bool.true_and, ← List.map_reverse]
  cases size with
  | nil => cases hvalid
  | cons first rest =>
    rw [isHeapSetting] at hvalid
    rw [List.reverse_cons]
    cases hrest : rest.reverse with
    | nil =>
      rw [hrest] at hvalid
      simp at hvalid
    | cons unit digits =>
      rw [hrest] at hvalid
      simp only [Bool.and_eq_true, decide_eq_true_eq] at hvalid
      obtain ⟨⟨h1, h9⟩, hunit, hdigits⟩ := hvalid
      have hfirst : isDecimalDigit first.toNat = true := by
        have h1 : 49 ≤ first.toNat := h1
        have h9 : first.toNat ≤ 57 := h9
        have hall : ∀ n : Fin 9, isDecimalDigit (49 + n.val) = true := by decide
        have hthis := hall ⟨first.toNat - 49, by omega⟩
        rwa [show 49 + (first.toNat - 49) = first.toNat by omega] at hthis
      have hunit' : unit.toNat ∈ ['g'.toNat, 'G'.toNat, 'm'.toNat, 'M'.toNat] := by
        simp only [isUnit, Bool.or_eq_true, decide_eq_true_eq] at hunit
        rcases hunit with ((rfl | rfl) | rfl) | rfl
        all_goals decide
      simp only [List.cons_append, List.map_cons, List.map_append, List.map_nil]
      rw [decide_eq_true hunit', Bool.true_and, Bool.and_eq_true]
      refine ⟨by simp, ?_⟩
      rw [List.all_append, List.all_map, Bool.and_eq_true]
      exact ⟨hdigits, by simp [hfirst]⟩

/-- The two names differ. -/
theorem isHeapFlag_exclusive (h : isHeapFlag "-Xms" item = true) :
    isHeapFlag "-Xmx" item = false := by
  cases hxmx : isHeapFlag "-Xmx" item with
  | false => rfl
  | true =>
    rw [isHeapFlag, Bool.and_eq_true, List.isPrefixOf_iff_prefix] at h hxmx
    obtain ⟨⟨r, rfl⟩, -⟩ := h
    obtain ⟨⟨r', heq⟩, -⟩ := hxmx
    have hthird := congrArg (fun l => l[3]?) heq
    exact absurd hthird (by simp [codePoints])

theorem isHeapFlag_exclusive' (h : isHeapFlag "-Xmx" item = true) :
    isHeapFlag "-Xms" item = false := by
  cases hxms : isHeapFlag "-Xms" item with
  | false => rfl
  | true => exact absurd (isHeapFlag_exclusive hxms) (by rw [h]; decide)

theorem isRecognised_eq_false : isRecognised item = false ↔
    isHeapFlag "-Xms" item = false ∧ isHeapFlag "-Xmx" item = false := by
  rw [isRecognised, Bool.or_eq_false_iff]

/-- The parts of the arguments have no flag that is recognised. -/
theorem Slots.not_flag (slots : Slots)
    (h : item ∈ slots.before ∨ item ∈ slots.between ∨ item ∈ slots.after) :
    isHeapFlag "-Xms" item = false ∧ isHeapFlag "-Xmx" item = false := by
  refine isRecognised_eq_false.mp (slots.plain item ?_)
  rw [List.mem_append, List.mem_append]
  exact h

end Flags

section Set

variable {arguments out : List (List ℕ)} {xms xmx : HeapSize} {slots : Slots} {a b item : List ℕ}

/-- Both flags are there, with these values. -/
def HasFlags (arguments : List (List ℕ)) (slots : Slots) : Prop :=
  ∃ a b, isHeapFlag "-Xms" a = true ∧ isHeapFlag "-Xmx" b = true ∧ arguments = slots.fill a b

/-- `-Xms` is missing before `-Xmx`. -/
def LacksXms (arguments : List (List ℕ)) (slots : Slots) : Prop :=
  ∃ b, isHeapFlag "-Xmx" b = true ∧ slots.swapped = false ∧ slots.between = [] ∧
    arguments = slots.before ++ b :: slots.after

/-- The updater finds the slots in the arguments. -/
def Finds (arguments : List (List ℕ)) (slots : Slots) : Prop :=
  HasFlags arguments slots ∨ LacksXms arguments slots

theorem finds_fill (slots : Slots) (xms xmx : HeapSize) :
    Finds (slots.fill (xms.flag "-Xms") (xmx.flag "-Xmx")) slots :=
  .inl ⟨_, _, isHeapFlag_flag xms _, isHeapFlag_flag xmx _, rfl⟩

/-- Where there is one flag of a kind, the arguments fall into two parts. -/
theorem indexes_split {p : List ℕ → Bool} {pre post : List (List ℕ)} (hitem : p item = true)
    (hpre : ∀ x ∈ pre, p x = false) (hpost : ∀ x ∈ post, p x = false) :
    indexes p (pre ++ item :: post) = [pre.length] :=
  indexes_eq_singleton.mpr ⟨pre, item, post, rfl, rfl, hitem, hpre, hpost⟩

/-- **The slots that were found are filled.** -/
theorem setHeap_of_finds (h : Finds arguments slots) :
    setHeap arguments xms xmx = some (slots.fill (xms.flag "-Xms") (xmx.flag "-Xmx")) := by
  have hbefore := fun x hx => @Slots.not_flag x slots (.inl hx)
  have hbetween := fun x hx => @Slots.not_flag x slots (.inr (.inl hx))
  have hafter := fun x hx => @Slots.not_flag x slots (.inr (.inr hx))
  obtain ⟨before, between, after, swapped, plain⟩ := slots
  have hmid : ∀ {p : List ℕ → Bool} {xs ys : List (List ℕ)} {x : List ℕ},
      (∀ y ∈ xs, p y = false) → p x = false → (∀ y ∈ ys, p y = false) →
      ∀ y ∈ xs ++ x :: ys, p y = false := by
    intro p xs ys x hxs hx hys y hy
    rcases List.mem_append.mp hy with hy | hy
    · exact hxs y hy
    · rcases List.mem_cons.mp hy with rfl | hy
      · exact hx
      · exact hys y hy
  rcases h with ⟨a, b, ha, hb, rfl⟩ | ⟨b, hb, hswapped, hempty, rfl⟩
  · have hab := isHeapFlag_exclusive ha
    have hba := isHeapFlag_exclusive' hb
    cases swapped with
    | false =>
      have hreassoc : before ++ a :: (between ++ b :: after) =
          (before ++ a :: between) ++ b :: after := by simp
      have hxms : indexes (isHeapFlag "-Xms") (before ++ a :: (between ++ b :: after)) =
          [before.length] :=
        indexes_split ha (fun x hx => (hbefore x hx).1)
          (hmid (fun x hx => (hbetween x hx).1) hba fun x hx => (hafter x hx).1)
      have hxmx : indexes (isHeapFlag "-Xmx") (before ++ a :: (between ++ b :: after)) =
          [(before ++ a :: between).length] := by
        rw [hreassoc]
        exact indexes_split hb (hmid (fun x hx => (hbefore x hx).2) hab
          fun x hx => (hbetween x hx).2) fun x hx => (hafter x hx).2
      simp only [setHeap, Slots.fill, Bool.false_eq_true, if_false, hxms, hxmx]
      rw [hreassoc, set_length, if_neg (by simp), List.append_assoc, List.cons_append, set_length]
    | true =>
      have hreassoc : before ++ b :: (between ++ a :: after) =
          (before ++ b :: between) ++ a :: after := by simp
      have hxms : indexes (isHeapFlag "-Xms") (before ++ b :: (between ++ a :: after)) =
          [(before ++ b :: between).length] := by
        rw [hreassoc]
        exact indexes_split ha (hmid (fun x hx => (hbefore x hx).1) hba
          fun x hx => (hbetween x hx).1) fun x hx => (hafter x hx).1
      have hxmx : indexes (isHeapFlag "-Xmx") (before ++ b :: (between ++ a :: after)) =
          [before.length] :=
        indexes_split hb (fun x hx => (hbefore x hx).2)
          (hmid (fun x hx => (hbetween x hx).2) hab fun x hx => (hafter x hx).2)
      have hlength : (before ++ b :: between).length =
          (before ++ xmx.flag "-Xmx" :: between).length := by simp
      have hreassoc' : before ++ xmx.flag "-Xmx" :: (between ++ a :: after) =
          (before ++ xmx.flag "-Xmx" :: between) ++ a :: after := by simp
      simp only [setHeap, Slots.fill, if_true, hxms, hxmx]
      rw [set_length, if_neg (by simp), hlength, hreassoc', set_length, List.append_assoc,
        List.cons_append]
  · dsimp only at hswapped hempty
    subst hswapped hempty
    have hba := isHeapFlag_exclusive' hb
    have hxms : indexes (isHeapFlag "-Xms") (before ++ b :: after) = [] :=
      indexes_eq_nil.mpr (hmid (fun x hx => (hbefore x hx).1) hba fun x hx => (hafter x hx).1)
    have hxmx : indexes (isHeapFlag "-Xmx") (before ++ b :: after) = [before.length] :=
      indexes_split hb (fun x hx => (hbefore x hx).2) fun x hx => (hafter x hx).2
    simp only [setHeap, Slots.fill, Bool.false_eq_true, if_false, hxms, hxmx]
    rw [if_neg (by simp), set_length, insertIdx_length]
    rfl

/-- **Where the change succeeds, there are slots.** -/
theorem exists_finds (h : setHeap arguments xms xmx = some out) :
    ∃ slots, Finds arguments slots := by
  rw [setHeap] at h
  split at h
  · cases h
  rename_i hfew
  split at h
  · rename_i xmxIndex hxmx
    obtain ⟨pre, b, post, harguments, -, hb, hpre, hpost⟩ := indexes_eq_singleton.mp hxmx
    split at h
    · rename_i xmsIndex more hxms
      have hmore : more = [] := by
        rw [hxms, List.length_cons] at hfew
        exact List.length_eq_zero_iff.mp (by omega)
      subst hmore
      obtain ⟨pre', a, post', harguments', -, ha, hpre', hpost'⟩ := indexes_eq_singleton.mp hxms
      have hne : b ≠ a := by
        rintro rfl
        rw [isHeapFlag_exclusive ha] at hb
        cases hb
      rcases Collections.split_two (harguments.symm.trans harguments') hne with
        ⟨mid, rfl, rfl⟩ | ⟨mid, rfl, rfl⟩
      · refine ⟨⟨pre', mid, post, false, ?_⟩, .inl ⟨a, b, ha, hb, ?_⟩⟩
        · intro item hitem
          refine isRecognised_eq_false.mpr ?_
          simp only [List.mem_append, List.mem_cons] at *
          grind
        · rw [harguments']
          rfl
      · refine ⟨⟨pre, mid, post', true, ?_⟩, .inl ⟨a, b, ha, hb, ?_⟩⟩
        · intro item hitem
          refine isRecognised_eq_false.mpr ?_
          simp only [List.mem_append, List.mem_cons] at *
          grind
        · rw [harguments]
          rfl
    · rename_i hxms
      have hnone := indexes_eq_nil.mp hxms
      rw [harguments] at hnone
      refine ⟨⟨pre, [], post, false, ?_⟩, .inr ⟨b, hb, rfl, rfl, harguments⟩⟩
      intro item hitem
      refine isRecognised_eq_false.mpr ?_
      simp only [List.mem_append, List.mem_cons, List.not_mem_nil, false_or] at *
      grind
  · cases h

/-- **What the arguments were, and what they are then.** -/
theorem setHeap_eq_some : setHeap arguments xms xmx = some out ↔
    ∃ slots, Finds arguments slots ∧ out = slots.fill (xms.flag "-Xms") (xmx.flag "-Xmx") := by
  constructor
  · intro h
    obtain ⟨slots, hslots⟩ := exists_finds h
    rw [setHeap_of_finds hslots] at h
    exact ⟨slots, hslots, (Option.some.inj h).symm⟩
  · rintro ⟨slots, hslots, rfl⟩
    exact setHeap_of_finds hslots

end Set

end Launcher

end PzServer
