import PzServer.Json.RoundTrip
import PzServer.Launcher.Heap

/-!
# The launcher document

`ProjectZomboid64.json` names the main class of the game and the arguments of its virtual machine.
On every start the updater reads it, changes the two heap flags among the arguments and writes the
whole document again, so the text goes through `json.loads` and `json.dumps` each time.

## Main definitions

* `configuredLauncherJson` — `LauncherValidator._configured_launcher_json`

## Main results

* `readDocument_configured` — what is read back of it
* `configured_absorbing` — to configure a document again is to configure it once
-/

namespace PzServer

namespace Launcher

open Json (Data codePoints getItem setItem)

open Updater (Err malformed readText readText_written)

open Watchdog (Text)

/-! ### The document -/

/-- The interpreter where the launcher document is read and printed. -/
structure Interpreter where
  /-- what stops `json.loads` -/
  limits : Json.Limits
  /-- how many lists and dictionaries `json.dumps` can be inside -/
  printable : ℕ

/-- The sizes of the heap in the configuration. -/
structure Settings where
  xms : HeapSize
  xmx : HeapSize

/-- `value == literal` -/
def equalsText (literal : String) : Option Data → Bool
  | some (.str s) => s = codePoints literal
  | _ => false

/-- The items of a list, if all of them are strings. -/
def strings : List Data → Option (List (List ℕ))
  | [] => some []
  | .str s :: items => (s :: ·) <$> strings items
  | _ :: _ => none

/-- `document["vmArgs"]`, if it is a list of strings. -/
def vmArguments (entries : List (List ℕ × Data)) : Option (List (List ℕ)) :=
  match getItem entries (codePoints "vmArgs") with
  | some (.list items) => strings items
  | _ => none

/-- The checks of `_configured_launcher_json`, and its change to the arguments. -/
def configure (settings : Settings) : Data → Except Err Data
  | .dict entries =>
    if equalsText "zombie/network/GameServer" (getItem entries (codePoints "mainClass")) then
      match vmArguments entries with
      | some arguments =>
        match setHeap arguments settings.xms settings.xmx with
        | some arguments =>
          .ok (.dict (setItem entries (codePoints "vmArgs") (.list (arguments.map .str))))
        | none => malformed "ProjectZomboid64.json memory structure is incompatible"
      | none => malformed "ProjectZomboid64.json vmArgs is malformed"
    else malformed "ProjectZomboid64.json no longer identifies the dedicated GameServer"
  | _ => malformed "ProjectZomboid64.json no longer identifies the dedicated GameServer"

/-- The exceptions of `json.loads`, of which one is caught. -/
def loadsError : Json.Error → Err
  | .jsonDecodeError => .update "ProjectZomboid64.json is missing or malformed"
  | .recursionError => .other "RecursionError"
  | .valueError => .other "ValueError"

/-- `json.loads(path.read_text(encoding="utf-8"))`: of a file, unless reading it fails with an
`OSError`. -/
def readDocument (python : Interpreter) : Option ByteArray → Except Err Data
  | none => malformed "ProjectZomboid64.json is missing or malformed"
  | some content => do
    let t ← readText content
    (Json.parse python.limits t).mapError loadsError

/-- `json.dumps(document, indent=2) + "\n"` -/
def printDocument (python : Interpreter) (document : Data) : Except Err Text :=
  match Json.dumps python.printable document with
  | .ok t => .ok (t ++ ['\n'])
  | .error _ => .error (.other "RecursionError")

/-- `LauncherValidator._configured_launcher_json` -/
def configuredLauncherJson (python : Interpreter) (file : Option ByteArray) (settings : Settings) :
    Except Err Text := do
  let document ← readDocument python file
  let configured ← configure settings document
  printDocument python configured

/-- The file that is written with a text. -/
def written (out : Text) : Option ByteArray := some (String.ofList out).toByteArray

/-! ### Printing and reading back -/

section ReadBack

variable {python : Interpreter} {file : Option ByteArray} {document : Data} {out t : Text}
  {depth level n : ℕ}

/-- **What is printed is read back.** -/
theorem readDocument_written (hkept : document.Kept python.limits 0)
    (h : printDocument python document = .ok out) :
    readDocument python (written out) = .ok document := by
  rw [printDocument, Json.dumps] at h
  split at h
  · rename_i t ht
    cases h
    split at ht
    · cases ht
    cases ht
    have hunix : Json.IsUnix (Json.encode 0 document ++ ['\n']) :=
      (Json.isUnix_encode hkept 0).append (.cons (by decide) Json.isUnix_nil)
    rw [written, readDocument, readText_written hunix]
    change (Json.parse python.limits (Json.encode 0 document ++ ['\n'])).mapError loadsError = _
    rw [Json.parse_encode hkept]
    rfl
  · cases h

/-- What was read can be printed and read again. -/
theorem kept_of_readDocument (h : readDocument python file = .ok document) :
    document.Kept python.limits 0 := by
  cases file with
  | none => cases h
  | some content =>
    rw [readDocument] at h
    cases ht : readText content with
    | error error =>
      rw [ht] at h
      cases h
    | ok t =>
      rw [ht] at h
      change (Json.parse python.limits t).mapError loadsError = .ok document at h
      cases hparse : Json.parse python.limits t with
      | error error =>
        rw [hparse] at h
        cases h
      | ok data =>
        rw [hparse] at h
        cases h
        exact Json.kept_of_parse hparse

end ReadBack

/-! ### The change to a document -/

section Configure

variable {python : Interpreter} {file : Option ByteArray} {document configured : Data} {out : Text}
  {settings settings' : Settings} {entries : List (List ℕ × Data)} {items : List Data}
  {arguments : List (List ℕ)} {slots : Slots} {depth : ℕ} {key : List ℕ} {value : Data}

theorem strings_eq_some : strings items = some arguments ↔ items = arguments.map .str := by
  induction items generalizing arguments with
  | nil =>
    rw [strings, Option.some.injEq]
    constructor
    · rintro rfl
      rfl
    · intro h
      exact (List.map_eq_nil_iff.mp h.symm).symm
  | cons item items ih =>
    constructor
    · intro h
      cases item with
      | str s =>
        rw [strings] at h
        obtain ⟨rest, hrest, rfl⟩ := Option.map_eq_some_iff.mp h
        rw [ih.mp hrest]
        rfl
      | _ => cases h
    · intro h
      cases arguments with
      | nil => cases h
      | cons s rest =>
        obtain ⟨rfl, hitems⟩ := List.cons.inj h
        rw [strings, ih.mpr hitems]
        rfl

/-- The entries, with the slots of the arguments filled. -/
def filled (entries : List (List ℕ × Data)) (slots : Slots) (settings : Settings) :
    List (List ℕ × Data) :=
  setItem entries (codePoints "vmArgs")
    (.list ((slots.fill (settings.xms.flag "-Xms") (settings.xmx.flag "-Xmx")).map .str))

/-- The checks that a document passes. -/
structure IsLauncher (entries : List (List ℕ × Data)) (arguments : List (List ℕ)) (slots : Slots) :
    Prop where
  mainClass : equalsText "zombie/network/GameServer" (getItem entries (codePoints "mainClass"))
  vmArgs : vmArguments entries = some arguments
  finds : Finds arguments slots

theorem vmArguments_eq_some : vmArguments entries = some arguments ↔
    getItem entries (codePoints "vmArgs") = some (.list (arguments.map .str)) := by
  rw [vmArguments]
  split
  · rename_i items hitems
    rw [strings_eq_some, hitems, Option.some.injEq, Data.list.injEq]
  · rename_i hother
    constructor
    · intro h
      cases h
    · intro h
      exact absurd h (hother _)

/-- **What the document was, and what it is then.** -/
theorem configure_eq_ok : configure settings document = .ok configured ↔
    ∃ entries arguments slots, document = .dict entries ∧ IsLauncher entries arguments slots ∧
      configured = .dict (filled entries slots settings) := by
  constructor
  · intro h
    cases document with
    | dict entries =>
      rw [configure] at h
      split at h
      · rename_i hmain
        cases harguments : vmArguments entries with
        | none =>
          rw [harguments] at h
          cases h
        | some arguments =>
          simp only [harguments] at h
          cases hset : setHeap arguments settings.xms settings.xmx with
          | none =>
            rw [hset] at h
            cases h
          | some out =>
            rw [hset] at h
            cases h
            obtain ⟨slots, hslots, rfl⟩ := setHeap_eq_some.mp hset
            exact ⟨entries, arguments, slots, rfl, ⟨hmain, harguments, hslots⟩, rfl⟩
      · cases h
    | _ => cases h
  · rintro ⟨entries, arguments, slots, rfl, ⟨hmain, harguments, hslots⟩, rfl⟩
    rw [configure, if_pos hmain]
    simp only [harguments, setHeap_of_finds hslots]
    rfl

/-- A configured document passes the checks again, with the same slots. -/
theorem isLauncher_filled (h : IsLauncher entries arguments slots) (settings : Settings) :
    IsLauncher (filled entries slots settings)
      (slots.fill (settings.xms.flag "-Xms") (settings.xmx.flag "-Xmx")) slots := by
  refine ⟨?_, ?_, finds_fill slots settings.xms settings.xmx⟩
  · rw [filled, Json.getItem_setItem, if_neg (by decide)]
    exact h.mainClass
  · rw [vmArguments_eq_some, filled, Json.getItem_setItem, if_pos rfl]

theorem filled_filled (entries : List (List ℕ × Data)) (slots : Slots)
    (settings settings' : Settings) :
    filled (filled entries slots settings) slots settings' = filled entries slots settings' :=
  Json.setItem_setItem _ _ _ _

/-- To configure a document again is to configure it once. -/
theorem configure_configure (h : configure settings document = .ok configured)
    (settings' : Settings) :
    ∃ configured', configure settings' document = .ok configured' ∧
      configure settings' configured = .ok configured' := by
  obtain ⟨entries, arguments, slots, rfl, hlauncher, rfl⟩ := configure_eq_ok.mp h
  refine ⟨.dict (filled entries slots settings'), ?_, ?_⟩
  · exact configure_eq_ok.mpr ⟨entries, arguments, slots, rfl, hlauncher, rfl⟩
  · refine configure_eq_ok.mpr ⟨_, _, slots, rfl, isLauncher_filled hlauncher settings, ?_⟩
    rw [filled_filled]

/-! ### Nesting and texts -/

theorem depth_strings (arguments : List (List ℕ)) :
    (Data.list (arguments.map .str)).depth = 1 := by
  have h : Json.depthItems (arguments.map .str) = 0 := by
    induction arguments with
    | nil => rfl
    | cons s arguments ih =>
      rw [List.map_cons, Json.depthItems, ih]
      rfl
  rw [Data.depth, h]

theorem depthEntries_setItem {old : Data} (h : getItem entries key = some old)
    (hdepth : old.depth = value.depth) :
    Json.depthEntries (setItem entries key value) = Json.depthEntries entries := by
  induction entries with
  | nil => cases h
  | cons entry entries ih =>
    rw [getItem, List.find?_cons] at h
    rw [setItem]
    by_cases hkey : entry.1 = key
    · rw [decide_eq_true hkey] at h
      cases h
      rw [if_pos hkey, Json.depthEntries, Json.depthEntries, hdepth]
    · rw [decide_eq_false hkey] at h
      rw [if_neg hkey, Json.depthEntries, Json.depthEntries, ih h]

/-- Configured, a document is nested as it was. -/
theorem depth_configured (h : configure settings document = .ok configured) :
    configured.depth = document.depth := by
  obtain ⟨entries, arguments, slots, rfl, hlauncher, rfl⟩ := configure_eq_ok.mp h
  rw [Data.depth, Data.depth, filled,
    depthEntries_setItem (vmArguments_eq_some.mp hlauncher.vmArgs)]
  rw [depth_strings, depth_strings]

theorem isText_chars (t : Text) : Json.IsText (t.map Char.toNat) := by
  induction t with
  | nil => exact .nil
  | cons c t ih =>
    have hvalid : c.toNat < 0xd800 ∨ 0xdfff < c.toNat ∧ c.toNat < 0x110000 := c.valid
    refine .cons (by omega) (fun low _ hpair => ?_) ih
    obtain ⟨hhigh, hhigh', -, -⟩ := hpair
    omega

theorem isText_flag (heap : HeapSize) (name : String) : Json.IsText (heap.flag name) := by
  rw [HeapSize.flag, codePoints, ← List.map_append]
  exact isText_chars _

/-- What is in the slots was among the arguments. -/
theorem mem_of_finds {item : List ℕ} (h : Finds arguments slots)
    (hitem : item ∈ slots.before ++ (slots.between ++ slots.after)) : item ∈ arguments := by
  obtain ⟨before, between, after, swapped, plain⟩ := slots
  rcases h with ⟨a, b, -, -, rfl⟩ | ⟨b, -, -, hbetween, rfl⟩
  · cases swapped with
    | false =>
      simp only [Slots.fill] at *
      grind
    | true =>
      simp only [Slots.fill] at *
      grind
  · dsimp only at hbetween
    subst hbetween
    simp only [List.mem_append, List.mem_cons] at *
    grind

theorem mem_fill {item a b : List ℕ} (h : item ∈ slots.fill a b) :
    item = a ∨ item = b ∨ item ∈ slots.before ++ (slots.between ++ slots.after) := by
  rw [Slots.fill] at h
  split at h
  · grind
  · grind

/-- A configured document can be printed and read again. -/
theorem kept_configured {limits : Json.Limits} (hkept : document.Kept limits 0)
    (h : configure settings document = .ok configured) : configured.Kept limits 0 := by
  obtain ⟨entries, arguments, slots, rfl, hlauncher, rfl⟩ := configure_eq_ok.mp h
  have hold := vmArguments_eq_some.mp hlauncher.vmArgs
  cases hkept with
  | dict hdepth hkeys htexts hvalues =>
    obtain ⟨entry, hentry, hvalue⟩ := Option.map_eq_some_iff.mp hold
    have hmem := List.mem_of_find?_eq_some hentry
    have hlist := hvalues entry hmem
    rw [hvalue] at hlist
    cases hlist with
    | list hdepth' hitems =>
      have hkey : entry.1 = codePoints "vmArgs" := by simpa using List.find?_some hentry
      have hnew : (Data.list ((slots.fill (settings.xms.flag "-Xms")
          (settings.xmx.flag "-Xmx")).map .str)).Kept limits (0 + 1) := by
        refine .list hdepth' fun item hitem => ?_
        obtain ⟨s, hs, rfl⟩ := List.mem_map.mp hitem
        rcases mem_fill hs with rfl | rfl | hs
        · exact .str (isText_flag _ _)
        · exact .str (isText_flag _ _)
        · exact hitems _ (List.mem_map.mpr ⟨s, mem_of_finds hlauncher.finds hs, rfl⟩)
      have hboth := Json.forall_setItem (P := fun e => Json.IsText e.1 ∧ e.2.Kept limits (0 + 1))
        (fun e he => ⟨htexts e he, hvalues e he⟩) ⟨hkey ▸ htexts entry hmem, hnew⟩
      exact .dict hdepth (Json.nodup_setItem hkeys _ _) (fun e he => (hboth e he).1)
        fun e he => (hboth e he).2

end Configure

/-! ### Configuring again -/

section Absorbing

variable {python : Interpreter} {file : Option ByteArray} {document : Data} {out : Text}
  {settings : Settings}

theorem printDocument_eq_ok : printDocument python document = .ok out ↔
    document.depth ≤ python.printable ∧ out = Json.encode 0 document ++ ['\n'] := by
  rw [printDocument, Json.dumps]
  by_cases h : python.printable < document.depth
  · rw [if_pos h]
    constructor
    · intro hout
      cases hout
    · rintro ⟨hle, -⟩
      omega
  · rw [if_neg h]
    constructor
    · intro hout
      cases hout
      exact ⟨Nat.le_of_not_lt h, rfl⟩
    · rintro ⟨-, rfl⟩
      rfl

/-- The stages of a successful call. -/
theorem configuredLauncherJson_eq_ok : configuredLauncherJson python file settings = .ok out ↔
    ∃ document configured, readDocument python file = .ok document ∧
      configure settings document = .ok configured ∧ printDocument python configured = .ok out := by
  rw [configuredLauncherJson]
  cases hread : readDocument python file with
  | error error =>
    constructor
    · intro h
      cases h
    · rintro ⟨document, configured, h, -⟩
      cases h
  | ok document =>
    change (configure settings document >>= printDocument python) = .ok out ↔ _
    cases hconfigure : configure settings document with
    | error error =>
      constructor
      · intro h
        cases h
      · rintro ⟨document', configured, h, h', -⟩
        cases h
        rw [hconfigure] at h'
        cases h'
    | ok configured =>
      constructor
      · intro h
        exact ⟨document, configured, rfl, hconfigure, h⟩
      · rintro ⟨document', configured', h, h', hprint⟩
        cases h
        rw [hconfigure] at h'
        cases h'
        exact hprint

/-- What is written is the configured document. -/
theorem readDocument_configured (h : configuredLauncherJson python file settings = .ok out) :
    ∃ document configured, readDocument python file = .ok document ∧
      configure settings document = .ok configured ∧
      readDocument python (written out) = .ok configured := by
  obtain ⟨document, configured, hread, hconfigure, hprint⟩ := configuredLauncherJson_eq_ok.mp h
  have hkept := kept_configured (kept_of_readDocument hread) hconfigure
  exact ⟨document, configured, hread, hconfigure, readDocument_written hkept hprint⟩

/-- One more preparation. -/
theorem configured_again (h : configuredLauncherJson python file settings = .ok out)
    (settings' : Settings) :
    ∃ out', configuredLauncherJson python file settings' = .ok out' ∧
      configuredLauncherJson python (written out) settings' = .ok out' := by
  obtain ⟨document, configured, hread, hconfigure, hprint⟩ := configuredLauncherJson_eq_ok.mp h
  obtain ⟨configured', hfirst, hagain⟩ := configure_configure hconfigure settings'
  have hkept := kept_configured (kept_of_readDocument hread) hconfigure
  have hwritten := readDocument_written hkept hprint
  have hprint' : printDocument python configured' =
      .ok (Json.encode 0 configured' ++ ['\n']) := by
    refine printDocument_eq_ok.mpr ⟨?_, rfl⟩
    rw [depth_configured hfirst, ← depth_configured hconfigure]
    exact (printDocument_eq_ok.mp hprint).1
  exact ⟨_, configuredLauncherJson_eq_ok.mpr ⟨document, configured', hread, hfirst, hprint'⟩,
    configuredLauncherJson_eq_ok.mpr ⟨configured, configured', hwritten, hagain, hprint'⟩⟩

/-- Preparing one after the other, each time from what was written before. -/
def configureAll (python : Interpreter) : Text → List Settings → Except Err Text
  | out, [] => .ok out
  | out, settings :: more => do
    let out ← configuredLauncherJson python (written out) settings
    configureAll python out more

theorem configureAll_append (h : configuredLauncherJson python file settings = .ok out)
    (past : List Settings) (last : Settings) :
    ∃ out', configuredLauncherJson python file last = .ok out' ∧
      configureAll python out (past ++ [last]) = .ok out' := by
  induction past generalizing settings out with
  | nil =>
    obtain ⟨out', hfirst, hagain⟩ := configured_again h last
    refine ⟨out', hfirst, ?_⟩
    rw [List.nil_append, configureAll, hagain]
    rfl
  | cons next past ih =>
    obtain ⟨out', hfirst, hagain⟩ := configured_again h next
    obtain ⟨out'', hlast, hall⟩ := ih hfirst
    refine ⟨out'', hlast, ?_⟩
    rw [List.cons_append, configureAll, hagain]
    exact hall

/-! ### A small document -/

/-- The fields of the game, with these arguments. -/
def gameFields (arguments : List String) : List (List ℕ × Data) :=
  [(codePoints "mainClass", .str (codePoints "zombie/network/GameServer")),
    (codePoints "vmArgs", .list ((arguments.map codePoints).map .str))]

def gameDocument (arguments : List String) : Data := .dict (gameFields arguments)

def gameText (arguments : List String) : Text := Json.encode 0 (gameDocument arguments) ++ ['\n']

/-- The interpreter of the container. -/
def cpython : Interpreter := ⟨⟨900, 4300⟩, 300⟩

/-- So many gigabytes each. -/
def gigabytes (xms xmx : Fin 9) : Settings :=
  ⟨⟨[Nat.digitChar (xms + 1), 'g'], by revert xms; decide⟩,
    ⟨[Nat.digitChar (xmx + 1), 'g'], by revert xmx; decide⟩⟩

theorem kept_gameDocument (arguments : List String) :
    (gameDocument arguments).Kept cpython.limits 0 := by
  have htext : ∀ s, Json.IsText (codePoints s) := fun s => isText_chars _
  have hkeys : [codePoints "mainClass", codePoints "vmArgs"].Nodup := by decide
  refine .dict (by decide) hkeys (fun entry hentry => ?_) fun entry hentry => ?_
  · rcases List.mem_cons.mp hentry with rfl | hentry
    · exact htext _
    · rw [List.mem_singleton.mp hentry]
      exact htext _
  · rcases List.mem_cons.mp hentry with rfl | hentry
    · exact .str (htext _)
    · rw [List.mem_singleton.mp hentry]
      refine .list (by decide) fun item hitem => ?_
      obtain ⟨s, hs, rfl⟩ := List.mem_map.mp hitem
      obtain ⟨a, -, rfl⟩ := List.mem_map.mp hs
      exact .str (htext a)

theorem printDocument_game (arguments : List String) :
    printDocument cpython (gameDocument arguments) = .ok (gameText arguments) := by
  refine printDocument_eq_ok.mpr ⟨?_, rfl⟩
  rw [gameDocument, gameFields, Data.depth, Json.depthEntries, Json.depthEntries, depth_strings]
  decide

theorem readDocument_game (arguments : List String) :
    readDocument cpython (written (gameText arguments)) = .ok (gameDocument arguments) :=
  readDocument_written (kept_gameDocument arguments) (printDocument_game arguments)

theorem configured_game {arguments arguments' : List String}
    (h : setHeap (arguments.map codePoints) settings.xms settings.xmx =
      some (arguments'.map codePoints)) :
    configuredLauncherJson cpython (written (gameText arguments)) settings =
      .ok (gameText arguments') := by
  refine configuredLauncherJson_eq_ok.mpr ⟨_, gameDocument arguments', readDocument_game arguments,
    ?_, printDocument_game arguments'⟩
  have hmain : equalsText "zombie/network/GameServer"
      (getItem (gameFields arguments) (codePoints "mainClass")) = true := rfl
  have hvmArgs : vmArguments (gameFields arguments) = some (arguments.map codePoints) :=
    vmArguments_eq_some.mpr rfl
  rw [gameDocument, configure, if_pos hmain]
  simp only [hvmArgs, h]
  rfl

/-- **Configuring is absorbing.** After any preparations, a document is configured as it would have
been at once, byte for byte. -/
theorem configured_absorbing (h : configuredLauncherJson python file settings = .ok out) :
    (∀ settings', ∃ out', configuredLauncherJson python file settings' = .ok out' ∧
      configuredLauncherJson python (written out) settings' = .ok out') ∧
    configuredLauncherJson python (written out) settings = .ok out ∧
    ∀ past last, ∃ out', configuredLauncherJson python file last = .ok out' ∧
      configureAll python out (past ++ [last]) = .ok out' := by
  refine ⟨configured_again h, ?_, configureAll_append h⟩
  obtain ⟨out', hfirst, hagain⟩ := configured_again h settings
  rw [h] at hfirst
  cases hfirst
  exact hagain

theorem configured_absorbing_game :
    (∀ settings', ∃ out',
      configuredLauncherJson cpython (written (gameText ["-Xmx16g"])) settings' = .ok out' ∧
      configuredLauncherJson cpython (written (gameText ["-Xms2g", "-Xmx8g"])) settings' =
        .ok out') ∧
    configuredLauncherJson cpython (written (gameText ["-Xms2g", "-Xmx8g"])) (gigabytes 1 7) =
      .ok (gameText ["-Xms2g", "-Xmx8g"]) ∧
    ∀ past last, ∃ out',
      configuredLauncherJson cpython (written (gameText ["-Xmx16g"])) last = .ok out' ∧
      configureAll cpython (gameText ["-Xms2g", "-Xmx8g"]) (past ++ [last]) = .ok out' :=
  configured_absorbing (@configured_game (gigabytes 1 7) _ _ (by decide))

end Absorbing

end Launcher

end PzServer
