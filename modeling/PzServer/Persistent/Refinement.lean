import PzServer.Collections.Trim
import PzServer.Persistent.Status
import PzServer.Persistent.Written

/-!
# The files and the disk

The results about runs of the updater speak of a `Disk`, where the record is a structure and a
pointer is a release. The files are rows of bytes. Here the two are connected: `Stores` says that
the files of an install root hold a disk, the record as `StateStore.load` gives it back and the
pointers as `write_active` and `write_previous` write them.

Reading the files then is reading the disk, and writing a file is a step of the disk. The reader of
the metrics does the same on both sides, one step after the other, so its two results are compared
by a simulation.

## Main definitions

* `Stores` — the files hold the disk

## Main results

* `readUpdateStatus_stored` — the metrics read from the files what they should read from the disk
* `stores_updates_iff` — what the files hold after some commands
-/

namespace PzServer

namespace Persistent

open Updater (Err Field Scalar Dict Disk Record Release stringFields buildFields)

/-! ### Values -/

/-- A scalar, as JSON. -/
def valueOf : Scalar → Json.Value
  | .null => .null
  | .bool value => .bool value
  | .int value => .int value
  | .str value => text value

/-- The two results are the same. -/
def Reflects (result : Status) (dict : Dict) : Prop := ∀ field, result field = valueOf (dict field)

/-- The document has the fields of the dictionary. -/
def Represents (document : Document) (state : Dict) : Prop :=
  ∀ field : Field, document.get field.name = valueOf (state field)

variable {result : Status} {dict state : Dict} {document : Document} {field : Field}

theorem Reflects.update (h : Reflects result dict) {value : Json.Value} {scalar : Scalar}
    (hvalue : value = valueOf scalar) :
    Reflects (Function.update result field value) (Function.update dict field scalar) := by
  intro f
  by_cases hf : f = field
  · rw [hf, Function.update_self, Function.update_self, hvalue]
  · rw [Function.update_of_ne hf, Function.update_of_ne hf]
    exact h f

theorem text_first500 (s : String) :
    text (Updater.first500 s) = .str ((Json.codePoints s).take 500) := by
  rw [text, Updater.first500, Json.codePoints, String.toList_ofList, List.map_take, Json.codePoints]

theorem codePoints_inj {s t : String} : Json.codePoints s = Json.codePoints t ↔ s = t := by
  refine ⟨fun h => String.toList_injective ?_, fun h => h ▸ rfl⟩
  exact List.map_injective_iff.mpr (fun _ _ => Char.toNat_inj.mp) h

/-! ### Simulation -/

section Simulation

variable {α β γ δ : Type}

/-- The two computations end in the same way. -/
inductive Agree (R : α → β → Prop) : Except Err α × Status → Except Err β × Dict → Prop where
  | ok {a : α} {b : β} {result : Status} {dict : Dict} (h : R a b) (hdict : Reflects result dict) :
    Agree R (.ok a, result) (.ok b, dict)
  | error {e : Err} {result : Status} {dict : Dict} (he : e.isUpdateError = true)
    (hdict : Reflects result dict) : Agree R (.error e, result) (.error e, dict)

/-- On results that are the same, the two computations do the same. -/
def Simulates (p : ReadM α) (q : Updater.ReadM β) (R : α → β → Prop) : Prop :=
  ∀ ⦃result dict⦄, Reflects result dict → Agree R (p.run result) (q.run dict)

theorem Simulates.bind {p : ReadM α} {q : Updater.ReadM β} {f : α → ReadM γ}
    {g : β → Updater.ReadM δ} {R : α → β → Prop} {S : γ → δ → Prop} (h : Simulates p q R)
    (hf : ∀ a b, R a b → Simulates (f a) (g b) S) : Simulates (p >>= f) (q >>= g) S := by
  intro result dict hdict
  rw [run_bind]
  cases hp : p.run result with
  | mk r result' =>
    cases hq : q.run dict with
    | mk r' dict' =>
      have hagree := h hdict
      rw [hp, hq] at hagree
      cases hagree with
      | ok hR hdict' =>
        rw [Updater.run_bind_ok hq]
        exact hf _ _ hR hdict'
      | error he hdict' =>
        rw [Updater.run_bind_error hq]
        exact .error he hdict'

theorem simulates_setField {value : Json.Value} {scalar : Scalar} (h : value = valueOf scalar) :
    Simulates (setField field value) (Updater.setField field scalar) fun _ _ => True :=
  fun _ _ hdict => .ok trivial (hdict.update h)

theorem simulates_pure {R : α → β → Prop} {a : α} {b : β} (h : R a b) :
    Simulates (pure a) (pure b) R := fun _ _ hdict => .ok h hdict

theorem simulates_throw {R : α → β → Prop} (message : String) :
    Simulates (throw (.update message)) (throw (.update message)) R :=
  fun _ _ hdict => .error rfl hdict

theorem simulates_forM {step : Field → ReadM Unit} {step' : Field → Updater.ReadM Unit}
    (h : ∀ field, Simulates (step field) (step' field) fun _ _ => True) :
    ∀ fields : List Field, Simulates (fields.forM step) (fields.forM step') fun _ _ => True
  | [] => simulates_pure trivial
  | field :: fields => (h field).bind fun _ _ _ => simulates_forM h fields

end Simulation

/-! ### The record -/

theorem simulates_readStringField (h : Represents document state) (field : Field) :
    Simulates (readStringField document field) (Updater.readStringField state field)
      fun _ _ => True := by
  rw [readStringField, Updater.readStringField, h field]
  cases state field with
  | null => exact simulates_setField rfl
  | bool value => exact simulates_throw _
  | int value => exact simulates_throw _
  | str value => exact simulates_setField (text_first500 value).symm

theorem simulates_readBuildField (h : Represents document state) (field : Field) :
    Simulates (readBuildField document field) (Updater.readBuildField state field)
      fun _ _ => True := by
  rw [readBuildField, Updater.readBuildField, h field]
  cases state field with
  | null => exact simulates_setField rfl
  | bool value => exact simulates_throw _
  | int value => exact simulates_setField rfl
  | str value => exact simulates_throw _

theorem simulates_readSetting (h : Represents document state) (field : Field) :
    Simulates (readSetting document field) (Updater.readSetting state field)
      fun _ _ => True := by
  rw [readSetting, Updater.readSetting, h field]
  cases state field with
  | null => exact simulates_pure trivial
  | bool value => exact simulates_pure trivial
  | int value => exact simulates_pure trivial
  | str value =>
    rcases hvalue : value.toList with _ | ⟨c, t⟩
    · have hempty : value = "" := String.toList_injective (hvalue.trans rfl)
      rw [hempty]
      exact simulates_pure trivial
    · have hne : value ≠ "" := fun hempty => by
        rw [hempty] at hvalue
        cases hvalue
      have htext : valueOf (.str value) = .str (c.toNat :: t.map Char.toNat) := by
        rw [valueOf, text, Json.codePoints, hvalue, List.map_cons]
      dsimp only
      rw [htext, if_neg hne]
      exact simulates_setField htext.symm

/-- **The fields of the record** are read in the same way. -/
theorem simulates_readFields (h : Represents document state) :
    Simulates (readFields document) (Updater.readFields state)
      fun name name' => name = Json.codePoints name' := by
  have hstate : document.get "state" = valueOf (state .state) := h .state
  rw [readFields, Updater.readFields, hstate]
  cases state .state with
  | null => exact simulates_throw _
  | bool value => exact simulates_throw _
  | int value => exact simulates_throw _
  | str name =>
    have hname : Simulates (setField .state (.str (Json.codePoints name)))
      (Updater.setField .state (.str name)) fun _ _ => True := simulates_setField rfl
    refine hname.bind fun _ _ _ => ?_
    refine (simulates_forM (simulates_readStringField h) _).bind fun _ _ _ => ?_
    refine (simulates_forM (simulates_readBuildField h) _).bind fun _ _ _ => ?_
    exact (simulates_forM (simulates_readSetting h) _).bind fun _ _ _ => simulates_pure rfl

/-! ### The pointers -/

/-- What `write_active` and `write_previous` write. -/
def pointerFile (r : Release) : ByteArray :=
  (String.ofList (r.relative.toList ++ ['\n'])).toByteArray

/-- The file of a pointer. -/
def pointerNode : Option Release → Node
  | none => .absent
  | some r => .regular (pointerFile r)

theorem exists_digit {b n : ℕ} (hb : 1 < b) {c : Char} (hc : c ∈ Nat.toDigits b n) :
    ∃ m < b, c = m.digitChar := by
  induction n using Nat.strongRecOn with
  | _ n ih =>
    rw [Nat.toDigits_eq_if hb] at hc
    split at hc
    · rename_i hn
      exact ⟨n, hn, List.mem_singleton.mp hc⟩
    · rename_i hn
      rcases List.mem_append.mp hc with hc | hc
      · exact ih (n / b) (Nat.div_lt_self (by omega) hb) hc
      · exact ⟨n % b, Nat.mod_lt n (by omega), List.mem_singleton.mp hc⟩

/-- Digits can be in a release name. -/
theorem isNameChar_of_digit {b n : ℕ} (hb : 1 < b) (hb' : b ≤ 16) {c : Char}
    (hc : c ∈ Nat.toDigits b n) : isNameChar c = true := by
  obtain ⟨m, hm, rfl⟩ := exists_digit hb hc
  have hall : ∀ m < 16, isNameChar m.digitChar = true := by decide
  exact hall m (Nat.lt_of_lt_of_le hm hb')

theorem all_padded {b : ℕ} (hb : 1 < b) (hb' : b ≤ 16) (width n : ℕ) :
    (Updater.padded b width n).toList.all isNameChar = true := by
  rw [Updater.padded, String.toList_ofList, List.all_append, Bool.and_eq_true]
  refine ⟨List.all_eq_true.mpr fun c hc => ?_, List.all_eq_true.mpr fun c hc => ?_⟩
  · rw [List.eq_of_mem_replicate hc]
    rfl
  · exact isNameChar_of_digit hb hb' hc

theorem all_decimal (n : ℕ) : (toString n).toList.all isNameChar = true := by
  have hdigits : (toString n).toList = Nat.toDigits 10 n := Nat.toList_repr
  rw [hdigits]
  exact List.all_eq_true.mpr fun c hc => isNameChar_of_digit (by decide) (by decide) hc

theorem all_append {s t : String} (hs : s.toList.all isNameChar = true)
    (ht : t.toList.all isNameChar = true) : (s ++ t).toList.all isNameChar = true := by
  rw [String.toList_append, List.all_append, hs, ht]
  rfl

/-- A release name has the characters that a pointer may have. -/
theorem all_name (r : Release) : r.name.toList.all isNameChar = true := by
  have hdate : ∀ date time, (Updater.timestamp date time).toList.all isNameChar = true := by
    intro date time
    have hpadded := fun width n => @all_padded 10 (by decide) (by decide) width n
    exact all_append (all_append (all_append (hpadded 8 date) (by decide)) (hpadded 6 time))
      (by decide)
  have hpadded := fun width n => @all_padded 16 (by decide) (by decide) width n
  cases r with
  | candidate build uuid =>
    exact all_append (all_append (all_append (by decide) (all_decimal build)) (by decide))
      (hpadded 12 uuid)
  | steam build date time =>
    exact all_append (all_append (all_append (by decide) (all_decimal build)) (by decide))
      (hdate date time)
  | steamUnique build date time uuid =>
    exact all_append (all_append (all_append (all_append (all_append (by decide)
      (all_decimal build)) (by decide)) (hdate date time)) (by decide)) (hpadded 8 uuid)

theorem toList_append_ne_nil {s t : String} (hs : s.toList ≠ []) : (s ++ t).toList ≠ [] := by
  rw [String.toList_append]
  exact List.append_ne_nil_of_left_ne_nil hs _

theorem name_ne_nil (r : Release) : r.name.toList ≠ [] := by
  cases r with
  | candidate build uuid =>
    exact toList_append_ne_nil (toList_append_ne_nil (toList_append_ne_nil (by decide)))
  | steam build date time =>
    exact toList_append_ne_nil (toList_append_ne_nil (toList_append_ne_nil (by decide)))
  | steamUnique build date time uuid =>
    exact toList_append_ne_nil (toList_append_ne_nil (toList_append_ne_nil
      (toList_append_ne_nil (toList_append_ne_nil (by decide)))))

theorem size_toByteArray_le (t : Watchdog.Text) :
    (String.ofList t).toByteArray.size ≤ 4 * t.length := by
  rw [String.toByteArray_ofList]
  induction t with
  | nil => exact Nat.le_refl 0
  | cons c t ih =>
    have hsize : [c].utf8Encode.size ≤ 4 := by
      rw [List.utf8Encode_singleton, List.size_toByteArray, String.length_utf8EncodeChar]
      exact c.utf8Size_le_four
    rw [List.utf8Encode_cons, ByteArray.size_append, List.length_cons]
    omega

/-- Such a character is neither white space nor a carriage return. -/
theorem isNameChar_plain {c : Char} (hc : isNameChar c = true) :
    Watchdog.Text.isSpace c = false ∧ c ≠ '\r' := by
  have hrange : 0x2d ≤ c.toNat ∧ c.toNat ≤ 0x7a := by
    have hbetween : ∀ a b : Char, a ≤ c → c ≤ b → a.toNat ≤ c.toNat ∧ c.toNat ≤ b.toNat :=
      fun a b ha hb => ⟨ha, hb⟩
    simp only [isNameChar, Bool.or_eq_true, Bool.and_eq_true, decide_eq_true_eq] at hc
    rcases hc with ((((⟨ha, hb⟩ | ⟨ha, hb⟩) | ⟨ha, hb⟩) | rfl) | rfl) | rfl
    · exact (hbetween 'A' 'Z' ha hb).imp (Nat.le_trans (by decide)) (Nat.le_trans · (by decide))
    · exact (hbetween 'a' 'z' ha hb).imp (Nat.le_trans (by decide)) (Nat.le_trans · (by decide))
    · exact (hbetween '0' '9' ha hb).imp (Nat.le_trans (by decide)) (Nat.le_trans · (by decide))
    · decide
    · decide
    · decide
  constructor
  · simp only [Watchdog.Text.isSpace, decide_eq_false_iff_not, List.mem_cons, List.not_mem_nil,
      or_false]
    omega
  · rintro rfl
    exact absurd hrange.1 (by decide)

/-- The characters of a pointer. -/
theorem relative_plain (r : Release) :
    ∀ c ∈ r.relative.toList, Watchdog.Text.isSpace c = false ∧ c ≠ '\r' := by
  have hsplit : r.relative.toList = "releases/".toList ++ r.name.toList := String.toList_append
  intro c hc
  rw [hsplit] at hc
  rcases List.mem_append.mp hc with hc | hc
  · have hall : "releases/".toList.all
        (fun c => !Watchdog.Text.isSpace c && decide (c ≠ '\r')) = true := rfl
    have hplain := List.all_eq_true.mp hall c hc
    rwa [Bool.and_eq_true, Bool.not_eq_true', decide_eq_true_eq] at hplain
  · exact isNameChar_plain (List.all_eq_true.mp (all_name r) c hc)

theorem strip_relative (r : Release) :
    Watchdog.Text.strip (r.relative.toList ++ ['\n']) = r.relative.toList := by
  have hplain := relative_plain r
  have htrim : Watchdog.Text.strip (r.relative.toList ++ ['\n']) =
      Collections.trim Watchdog.Text.isSpace r.relative.toList :=
    Collections.trim_append_right fun c hc => by rw [List.mem_singleton.mp hc]; rfl
  rw [htrim, Collections.trim]
  rw [Collections.dropWhile_self fun c hc => (hplain c (List.mem_of_head? hc)).1]
  rw [Collections.dropWhile_self, List.reverse_reverse]
  exact fun c hc => (hplain c (List.mem_reverse.mp (List.mem_of_head? hc))).1

theorem releaseName_relative (r : Release) :
    releaseName r.relative.toList = some r.name.toList := by
  have hsplit : r.relative.toList = "releases/".toList ++ r.name.toList :=
    String.toList_append
  have htake : r.relative.toList.take "releases/".toList.length = "releases/".toList := by
    rw [hsplit, List.take_left]
  have hdrop : r.relative.toList.drop "releases/".toList.length = r.name.toList := by
    rw [hsplit, List.drop_left]
  rw [releaseName, htake, hdrop, if_pos ⟨rfl, name_ne_nil r, all_name r⟩]

/-- **What was written to a pointer is read again**, if the release is there. -/
theorem readPointer_pointerFile {root : InstallRoot} {name : String} {r : Release}
    (hlength : r.name.toList.length ≤ nameMax) :
    readPointer root name (.regular (pointerFile r)) =
      selectRelease root name r.name.toList := by
  have hsplit : r.relative.toList = "releases/".toList ++ r.name.toList := String.toList_append
  have hsize : (pointerFile r).size ≤ 4096 := by
    refine (size_toByteArray_le _).trans ?_
    have hdirectory : "releases/".toList.length = 9 := rfl
    rw [hsplit, List.length_append, List.length_append, hdirectory, List.length_singleton]
    rw [nameMax] at hlength
    omega
  have htext : Updater.readText (pointerFile r) = .ok (r.relative.toList ++ ['\n']) := by
    refine Updater.readText_written fun c hc => ?_
    rcases List.mem_append.mp hc with hc | hc
    · exact (relative_plain r c hc).2
    · rw [List.mem_singleton.mp hc]
      decide
  rw [readPointer, if_neg (Nat.not_lt.mpr hsize), htext]
  dsimp only [Bind.bind, Except.bind]
  rw [strip_relative, releaseName_relative]

/-! ### The files hold the disk -/

/-- The entries have the fields of the record. -/
def Fields (entries : Entries) (r : Record) : Prop :=
  ∀ field : Field, (Json.getItem entries (Json.codePoints field.name)).getD .none =
    (valueOf (r.dict field)).data

/-- The files of the install root hold the disk, with these entries in the record. -/
structure Stores (stack : Stack) (root : InstallRoot) (entries : Entries) (d : Disk) : Prop where
  holds : Holds stack s!"{root.path}/update-state.json" root.updateState entries
  storable : Storable stack entries
  fields : Fields entries d.loaded
  active : root.activeRelease = pointerNode d.active
  previous : root.previousRelease = pointerNode d.previous
  flat : root.flat = .ok false
  isDir : ∀ r, root.isDir r.name.toList = .ok (d.releases r).isSome
  nameMax : ∀ r, (d.releases r).isSome → r.name.toList.length ≤ nameMax
  resolve : ∀ r, (d.releases r).isSome →
    root.resolve r.name.toList = .ok (some ["releases".toList, r.name.toList])
  manifest : ∀ r D m, d.releases r = some D → D.manifest = some m →
    installedMetadata stack root (some r.name.toList) appId = .ok m

variable {stack : Stack} {root : InstallRoot} {entries : Entries} {d : Disk}

theorem data_eq_of_sorted {x : Json.Data} {scalar : Scalar}
    (h : x.sorted = (valueOf scalar).data.sorted) : x = (valueOf scalar).data := by
  cases scalar <;> cases x <;> first | exact h | cases h

theorem value_eq_of_data {value : Json.Value} {scalar : Scalar}
    (h : value.data = (valueOf scalar).data) : value = valueOf scalar := by
  cases scalar <;> cases value <;> cases h <;> rfl

/-- The document that is loaded has the fields of the record. -/
theorem Stores.represents (h : Stores stack root entries d) :
    ∃ document, load stack root = .ok document ∧ Represents document d.loaded.dict := by
  obtain ⟨document, hload, hitems⟩ := h.holds
  refine ⟨document, hload, fun field => ?_⟩
  have hkey := hitems (Json.codePoints field.name)
  have hget : (Json.get document field.name).map Json.Value.data =
      Json.getItem document.entries (Json.codePoints field.name) := Json.map_get document field.name
  have hfield := h.fields field
  rw [Document.get]
  cases hentry : Json.getItem entries (Json.codePoints field.name) with
  | none =>
    rw [hentry] at hkey hfield
    rw [Option.map_eq_none_iff.mp hkey, Option.map_eq_none_iff] at hget
    rw [hget]
    exact value_eq_of_data hfield
  | some x =>
    rw [hentry] at hkey hfield
    obtain ⟨y, hy, hsorted⟩ := Option.map_eq_some_iff.mp hkey
    rw [hy, Option.map_eq_some_iff] at hget
    obtain ⟨value, hvalue, hdata⟩ := hget
    have hx : x = (valueOf (d.loaded.dict field)).data := hfield
    rw [hx] at hsorted
    rw [hvalue]
    exact value_eq_of_data (hdata.trans (data_eq_of_sorted hsorted))

/-- The pointer is read as the disk has it. -/
theorem readPointer_stored (h : Stores stack root entries d) (name : String)
    {pointer : Option Release} (hthere : ∀ r, pointer = some r → (d.releases r).isSome) :
    readPointer root name (pointerNode pointer) = .ok (pointer.map fun r => r.name.toList) := by
  cases pointer with
  | none => rfl
  | some r =>
    have hsome := hthere r rfl
    have hlength := h.nameMax r hsome
    have hdir : root.isDir r.name.toList = .ok true := (h.isDir r).trans (congrArg _ hsome)
    have hrelative : relative root r.name.toList = .ok ("releases/".toList ++ r.name.toList) := by
      rw [relative, h.resolve r hsome]
      rfl
    rw [pointerNode, readPointer_pointerFile hlength, selectRelease,
      if_neg (Nat.not_lt.mpr hlength), hdir]
    change (relative root r.name.toList >>= fun _ => pure (some r.name.toList)) = _
    rw [hrelative]
    rfl

theorem simulates_reading {α β : Type} {R : α → β → Prop} {r : Except Err α} {r' : Except Err β}
    {a : α} {b : β} (hr : r = .ok a) (hr' : r' = .ok b) (h : R a b) :
    Simulates (reading r) (ExceptT.mk (pure r')) R := by
  rw [hr, hr']
  exact fun _ _ hdict => .ok h hdict

/-- A question about the files that the disk does not know. -/
theorem simulates_reading_bind {α β γ : Type} {R : β → γ → Prop} {r : Except Err α} {a : α}
    (hr : r = .ok a) {f : α → ReadM β} {q : Updater.ReadM γ} (h : Simulates (f a) q R) :
    Simulates (reading r >>= f) q R := by
  intro result dict hdict
  rw [run_reading_ok hr]
  exact h hdict

/-- **The build of the selected release** is read in the same way. -/
theorem simulates_readSelected (h : Stores stack root entries d) (hd : Updater.Inv d)
    {name : List ℕ} {name' : String} (hname : name = Json.codePoints name') :
    Simulates (readSelected stack root name) (Updater.readSelected none d name')
      fun _ _ => True := by
  have hthere : ∀ r, d.active = some r → (d.releases r).isSome := fun r hr => by
    obtain ⟨D, m, hD, -⟩ := hd.active_valid r hr
    rw [hD]
    rfl
  have hactive : active root = .ok (d.active.map fun r => r.name.toList) := by
    rw [active, h.active]
    exact readPointer_stored h _ hthere
  rw [readSelected, Updater.readSelected]
  refine (simulates_reading (R := fun release release' => release' = d.active ∧
    release = d.active.map fun r => r.name.toList) hactive hd.readPointer_active ⟨rfl, rfl⟩).bind ?_
  rintro release release' ⟨rfl, rfl⟩
  cases hrelease : d.active with
  | none =>
    change Simulates (reading (pathQuery root.flat) >>= fun flat =>
        if flat = true then readBuild stack root none
        else if name ≠ Json.codePoints "uninitialized" then
          throw (.update "Update state has no selected game release") else pure ())
      (if name' ≠ "uninitialized" then
        throw (.update "Update state has no selected game release") else pure ()) fun _ _ => True
    have hquery : pathQuery root.flat = .ok false := by
      rw [h.flat]
      rfl
    refine simulates_reading_bind hquery ?_
    rw [if_neg (by decide), hname]
    by_cases huninitialized : name' = "uninitialized"
    · rw [if_neg (not_not.mpr (congrArg Json.codePoints huninitialized)),
        if_neg (not_not.mpr huninitialized)]
      exact simulates_pure trivial
    · rw [if_pos (mt codePoints_inj.mp huninitialized), if_pos huninitialized]
      exact simulates_throw _
  | some r =>
    obtain ⟨D, m, hD, -, hm⟩ := hd.active_valid r hrelease
    have hread : d.readInstalled r .ok = .ok m := by simp [Disk.readInstalled, hD, hm]
    refine (simulates_reading (R := fun metadata metadata' => metadata' = metadata)
      (h.manifest r D m hD hm) hread rfl).bind ?_
    rintro metadata _ rfl
    exact simulates_setField rfl

theorem reflects_initialStatus (updatePolicy steamBranch : String) :
    Reflects (initialStatus updatePolicy steamBranch)
      (Updater.initialStatus updatePolicy steamBranch) := by
  intro field
  cases field <;> rfl

/-- **Reading the files is reading the disk**: where the files hold a disk that a run of the updater
reaches, the metrics have a result, and it is the one that they have of the disk. -/
theorem readUpdateStatus_stored (h : Stores stack root entries d) (hd : Updater.Inv d)
    (updatePolicy steamBranch : String) :
    readUpdateStatus stack updatePolicy steamBranch root = .ok fun field =>
      valueOf (Updater.readUpdateStatus updatePolicy steamBranch none d field) := by
  obtain ⟨document, hload, hdocument⟩ := h.represents
  have hbody : Simulates (readStatus stack root)
      (Updater.readFields d.loaded.dict >>= Updater.readSelected none d) fun _ _ => True := by
    intro result dict hdict
    rw [readStatus, run_reading_ok hload]
    exact (simulates_readFields hdocument).bind (fun _ _ => simulates_readSelected h hd) hdict
  have hagree := hbody (reflects_initialStatus updatePolicy steamBranch)
  rcases hfiles : (readStatus stack root).run (initialStatus updatePolicy steamBranch) with
    ⟨r, result⟩
  rcases hdisk : (Updater.readFields d.loaded.dict >>= Updater.readSelected none d).run
    (Updater.initialStatus updatePolicy steamBranch) with ⟨r', dict⟩
  rw [hfiles, hdisk] at hagree
  rw [readUpdateStatus, hfiles]
  cases hagree with
  | ok _ hdict =>
    refine congrArg Except.ok (funext fun field => ?_)
    rw [Updater.readUpdateStatus, hdisk]
    exact hdict field
  | @error e _ _ he hdict =>
    dsimp only
    rw [if_pos he]
    refine congrArg Except.ok (funext fun field => ?_)
    rw [Updater.readUpdateStatus, hdisk]
    cases field <;> first | rfl | exact hdict _

/-! ### Writing the files -/

/-- The command turns one record into another, on the fields that a reader looks at. -/
def Change.Records {limits : Json.Limits} (change : Change limits) (old new : Record) : Prop :=
  ∀ field : Field, match Json.getItem change.items.reverse (Json.codePoints field.name) with
    | some x => x = (valueOf (new.dict field)).data
    | none => new.dict field = old.dict field

/-- Commands, each with the record that it leaves. -/
def Recorded {limits : Json.Limits} : Record → List (Change limits × Record) → Prop
  | _, [] => True
  | r, (change, r') :: steps => change.Records r r' ∧ Recorded r' steps

/-- The record at the end. -/
def lastRecord {limits : Json.Limits} (r : Record) (steps : List (Change limits × Record)) :
    Record :=
  steps.foldl (fun _ step => step.2) r

/-- The install root with another state file. -/
def InstallRoot.withState (root : InstallRoot) (node : Node) : InstallRoot :=
  { root with updateState := node }

/-- The disk with another record. -/
def withRecord (d : Disk) (r : Record) : Disk := { d with record := some r }

variable {printable : ℕ} {change : Change stack.limits} {r r' : Record} {node : Node}

theorem name_ne_schemaVersion (field : Field) :
    ¬ schemaVersion.1 = Json.codePoints field.name := by
  cases field <;> decide

theorem Fields.written (h : Fields entries r) (hr : change.Records r r') :
    Fields (Json.setItems entries change.written) r' := by
  intro field
  have hitems : Json.getItem change.written.reverse (Json.codePoints field.name) =
      Json.getItem change.items.reverse (Json.codePoints field.name) := by
    rw [Change.written, List.reverse_append, Json.getItem]
    change (List.find? _ (schemaVersion :: change.items.reverse)).map Prod.snd = _
    rw [List.find?_cons_of_neg (by simpa using name_ne_schemaVersion field)]
    rfl
  rw [Json.getItem_setItems, hitems]
  have hfield := hr field
  cases hx : Json.getItem change.items.reverse (Json.codePoints field.name) with
  | none =>
    rw [hx] at hfield
    rw [Option.none_or, h field]
    exact congrArg (fun scalar => (valueOf scalar).data) hfield.symm
  | some x =>
    rw [hx] at hfield
    exact hfield

theorem Fields.after (h : Fields entries r) (steps : List (Change stack.limits × Record))
    (hsteps : Recorded r steps) :
    Fields (Persistent.after entries (steps.map Prod.fst)) (lastRecord r steps) := by
  induction steps generalizing r entries with
  | nil => exact h
  | cons step steps ih =>
    rw [List.map_cons, after_cons]
    exact ih (h.written hsteps.1) hsteps.2

theorem storable_after (h : Storable stack entries) (changes : List (Change stack.limits)) :
    Storable stack (after entries changes) := by
  induction changes generalizing entries with
  | nil => exact h
  | cons change changes ih =>
    rw [after_cons]
    exact ih (h.written change)

theorem Stores.after (h : Stores stack root entries d)
    (steps : List (Change stack.limits × Record)) (hsteps : Recorded d.loaded steps)
    (hholds : Holds stack s!"{root.path}/update-state.json" node
      (after entries (steps.map Prod.fst))) :
    Stores stack (root.withState node) (Persistent.after entries (steps.map Prod.fst))
      (withRecord d (lastRecord d.loaded steps)) :=
  { h with
    holds := hholds
    storable := storable_after h.storable _
    fields := h.fields.after steps hsteps }

/-- `write_active` -/
theorem Stores.writeActive (h : Stores stack root entries d) (r : Release) :
    Stores stack { root with activeRelease := .regular (pointerFile r) } entries
      { d with active := some r } :=
  { h with active := rfl }

/-- `write_previous` -/
theorem Stores.writePrevious (h : Stores stack root entries d) (r : Option Release) :
    Stores stack { root with previousRelease := pointerNode r } entries { d with previous := r } :=
  { h with previous := rfl }

/-- **Writing the files is writing the disk**: after any number of commands the state file holds the
last record, and the other files what they held, if and only if every document on the way fits. -/
theorem stores_updates_iff (hstack : 0 < stack.json) (h : Stores stack root entries d)
    (steps : List (Change stack.limits × Record)) (hsteps : Recorded d.loaded steps) :
    (∃ node, (steps.map Prod.fst).foldlM
          (update stack printable s!"{root.path}/update-state.json") root.updateState = .ok node ∧
        Stores stack (root.withState node) (after entries (steps.map Prod.fst))
          (withRecord d (lastRecord d.loaded steps))) ↔
      ∀ n < steps.length, Fits printable (after entries ((steps.map Prod.fst).take (n + 1))) := by
  have hlength : (steps.map Prod.fst).length = steps.length := List.length_map _
  rw [← hlength, ← holds_after_iff h.storable hstack h.holds]
  refine exists_congr fun node => and_congr_right fun _ => ?_
  exact ⟨fun hnew => hnew.holds, h.after steps hsteps⟩

/-! ### An installed release -/

/-- A release with build 5. -/
def build5 : Release := .steam 5 20260101 0

/-- The manifest of the release. -/
def manifest5 : Watchdog.Text :=
  "\"AppState\" \x7b \"appid\" \"380870\" \"StateFlags\" \"4\" \"buildid\" \"5\" \x7d".toList

/-- An install root in which a release is active, and its build was recorded. -/
def installed : InstallRoot where
  path := "/srv/server"
  updateState := .regular (String.ofList annotatedFile).toByteArray
  activeRelease := pointerNode (some build5)
  previousRelease := .absent
  isDir name := .ok (name = build5.name.toList)
  resolve name := .ok (if name = build5.name.toList then some ["releases".toList, name] else none)
  flat := .ok false
  manifest _ := .ok (String.ofList manifest5).toByteArray

/-- The same as a disk. -/
def installedDisk : Disk where
  record := some { state := .current, currentBuild := some 5 }
  active := some build5
  previous := none
  releases r := if r.name = build5.name then some ⟨some ⟨5, none⟩, none, true, true⟩ else none

theorem installedMetadata_installed :
    installedMetadata ⟨100, 100⟩ installed (some build5.name.toList) appId = .ok ⟨5, none⟩ := by
  have htext : Updater.decodeText (String.ofList manifest5).toByteArray = .ok manifest5 :=
    Updater.decodeText_written manifest5
  rw [installedMetadata, manifestText.eq_def]
  change Updater.readInstalledMetadata _ (do
    let file ← Updater.decodeText (String.ofList manifest5).toByteArray
    if vdfDepth file > 100 then .error (.other "RecursionError") else return file) appId = _
  rw [htext]
  decide +kernel

theorem releases_of_eq {r : Release} (h : r.name = build5.name) :
    installedDisk.releases r = some ⟨some ⟨5, none⟩, none, true, true⟩ := if_pos h

theorem releases_of_ne {r : Release} (h : r.name ≠ build5.name) :
    installedDisk.releases r = none := if_neg h

theorem name_of_isSome {r : Release} (h : (installedDisk.releases r).isSome) :
    r.name = build5.name := by
  by_contra hne
  rw [releases_of_ne hne] at h
  cases h

theorem stores_installed :
    Stores ⟨100, 100⟩ installed annotated.entries installedDisk where
  holds := ⟨annotated, load_annotated _, fun _ => rfl⟩
  storable := storable_of_load (by decide) (load_annotated "update-state.json")
  fields field := by cases field <;> rfl
  active := rfl
  previous := rfl
  flat := rfl
  isDir r := by
    by_cases hname : r.name = build5.name
    · rw [releases_of_eq hname]
      exact congrArg Except.ok (decide_eq_true (congrArg String.toList hname))
    · rw [releases_of_ne hname]
      exact congrArg Except.ok (decide_eq_false fun h => hname (String.toList_injective h))
  nameMax r hr := by
    rw [name_of_isSome hr]
    decide +kernel
  resolve r hr := by
    rw [name_of_isSome hr]
    exact congrArg Except.ok (if_pos rfl)
  manifest r D m hD hm := by
    have hname : r.name = build5.name := name_of_isSome (by rw [hD]; rfl)
    rw [releases_of_eq hname] at hD
    cases hD
    cases hm
    rw [hname]
    exact installedMetadata_installed

theorem inv_installed : Updater.Inv installedDisk where
  active_valid r hr := by
    obtain rfl : build5 = r := Option.some.inj hr
    exact ⟨_, _, releases_of_eq rfl, rfl, rfl⟩
  previous_of_first _ := rfl
  settled _ := ⟨rfl, rfl⟩
  staging h := h.elim
  staged h := h.elim
  forgotten h := h.elim
  kept h := by cases h
  activating h := by cases h
  selected h := by
    rcases h with h | h
    · cases h
    · exact h.elim
  committed h := h.elim
  opened h := h.elim

theorem readUpdateStatus_stored_installed :
    readUpdateStatus ⟨100, 100⟩ "manual" "public" installed = .ok fun field =>
      valueOf (Updater.readUpdateStatus "manual" "public" none installedDisk field) :=
  readUpdateStatus_stored stores_installed inv_installed "manual" "public"

/-- The record while the candidate is downloaded. -/
def downloadingRecord : Record :=
  { state := .downloadingCandidate, currentBuild := some 5, candidateBuild := some 7 }

/-- The record when the candidate is current. -/
def recordedRecord : Record :=
  { state := .current, currentBuild := some 7, candidateBuild := some 7 }

theorem stores_updates_recorded : ∃ node,
    [downloading, recorded].foldlM (update ⟨100, 100⟩ 100 "/srv/server/update-state.json")
        installed.updateState = .ok node ∧
      Stores ⟨100, 100⟩ (installed.withState node)
        (after annotated.entries [downloading, recorded])
        (withRecord installedDisk recordedRecord) := by
  have hdownloading : downloading.Records installedDisk.loaded downloadingRecord := by
    intro field
    cases field <;> rfl
  have hrecorded : recorded.Records downloadingRecord recordedRecord := by
    intro field
    cases field <;> rfl
  refine (stores_updates_iff (by decide) stores_installed
    [(downloading, downloadingRecord), (recorded, recordedRecord)]
    ⟨hdownloading, hrecorded, trivial⟩).mpr ?_
  decide +kernel

end Persistent

end PzServer
