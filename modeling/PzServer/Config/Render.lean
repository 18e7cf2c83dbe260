import PzServer.Config.Environment
import PzServer.Config.Merge
import Mathlib.Data.List.TakeWhile

/-!
# `render_configuration`

The template of the INI file sets each managed key once. Some of the values are variables that
`envsubst` replaces, as text: a value with a newline becomes several lines of the rendered file, and
the merge takes each of them for what it looks like. The variables that `validate_environment`
checks have no newlines; three of the others may have, and then one of them can set a key that is
not its own.

## Main definitions

* `template`, `envsubst`, `renderConfiguration` — the rendered file and its merge
* `Governed` — the managed keys have the values of the template
* `Contained` — the environments, and the files, for which they have

## Main results

* `keyLines_envsubst` — the lines that set a key of the template
* `newline_notMem_substituted` — the values that are one line
* `renderConfiguration_governed_iff` — when the managed keys have the values of the template
-/

namespace PzServer

namespace Config

/-! ### The template -/

/-- A part of a value. -/
inductive Segment where
  | text (t : String)
  | reference (v : Variable)
  deriving DecidableEq

/-- A line of the template. -/
structure Setting where
  key : String
  value : List Segment
  deriving DecidableEq

/-- The first line of `server.ini.template`. -/
def header : String :=
  "# Managed by pz-server. Unknown/generated keys in the runtime file are preserved."

/-- The other lines of `server.ini.template`. -/
def template : List Setting :=
  [⟨"PVP", [.text "true"]⟩, ⟨"PVPLogToolChat", [.text "true"]⟩,
   ⟨"PVPLogToolFile", [.text "true"]⟩, ⟨"PauseEmpty", [.text "true"]⟩,
   ⟨"GlobalChat", [.text "true"]⟩, ⟨"ChatStreams", [.text "s,r,a,w,y,sh,f,all"]⟩,
   ⟨"Open", [.text "true"]⟩,
   ⟨"ServerWelcomeMessage", [.text "Welcome to ", .reference .serverPublicName,
     .text "! The world pauses while nobody is connected."]⟩,
   ⟨"DisplayUserName", [.text "true"]⟩, ⟨"ShowFirstAndLastName", [.text "false"]⟩,
   ⟨"SafetySystem", [.text "true"]⟩, ⟨"ShowSafety", [.text "true"]⟩,
   ⟨"DefaultPort", [.reference .gamePort]⟩, ⟨"UDPPort", [.reference .directPort]⟩,
   ⟨"Mods", [.reference .mods]⟩, ⟨"Map", [.reference .mapNames]⟩, ⟨"DoLuaChecksum", [.text "true"]⟩,
   ⟨"Public", [.text "false"]⟩, ⟨"PublicName", [.reference .serverPublicName]⟩,
   ⟨"PublicDescription", [.text "Private Build 42 server for friends"]⟩,
   ⟨"MaxPlayers", [.reference .maxPlayers]⟩, ⟨"SaveWorldEveryMinutes", [.text "10"]⟩,
   ⟨"RCONPort", [.reference .rconPort]⟩, ⟨"RCONPassword", [.reference .rconPassword]⟩,
   ⟨"Password", [.reference .serverPassword]⟩, ⟨"MaxAccountsPerUser", [.text "1"]⟩,
   ⟨"WorkshopItems", [.reference .workshopItems]⟩, ⟨"SteamScoreboard", [.text "false"]⟩,
   ⟨"SteamVAC", [.text "true"]⟩, ⟨"UPnP", [.text "false"]⟩, ⟨"VoiceEnable", [.text "true"]⟩,
   ⟨"BackupsCount", [.text "5"]⟩, ⟨"BackupsOnStart", [.text "true"]⟩,
   ⟨"BackupsOnVersionChange", [.text "true"]⟩, ⟨"BackupsPeriod", [.text "0"]⟩,
   ⟨"DiscordEnable", [.text "false"]⟩]

/-- The variables that `envsubst` is allowed to replace. -/
def allowlist : List Variable :=
  [.serverPublicName, .serverPassword, .maxPlayers, .gamePort, .directPort, .rconPort,
   .rconPassword, .mods, .workshopItems, .mapNames]

section Substitution

variable (value : Variable → Text)

/-- The text that stands for a part of a value. -/
def Segment.substituted : Segment → Text
  | text t => t.toList
  | reference v => if v ∈ allowlist then value v else ("$\x7b" ++ v.name ++ "\x7d").toList

namespace Setting

/-- The value that stands after the `=`. -/
def substituted (s : Setting) : Text := s.value.flatMap (·.substituted value)

/-- What becomes of a line of the template. -/
def rendered (s : Setting) : Text := s.key.toList ++ '=' :: s.substituted value ++ ['\n']

end Setting

/-- `envsubst < template` -/
def envsubst : Text := header.toList ++ '\n' :: template.flatMap (·.rendered value)

end Substitution

/-- `render_configuration`: the file that is there afterwards, where `destination` is the one that
was there before. -/
def renderConfiguration (env : Environment) : Option Text → Text
  | none => envsubst env.exported
  | some destination => mergeManagedIni (envsubst env.exported) destination

/-! ### The lines of a rendered file -/

/-- The lines that set `key`. -/
def keyLines (lines : List Text) (key : Text) : List Text :=
  lines.filter fun line => isKeyLine line ∧ keyOf line = key

namespace Setting

variable (value : Variable → Text)

/-- The lines that a line of the template becomes. -/
def lines (s : Setting) : List Text := records (s.rendered value)

/-- The first of them. -/
def line (s : Setting) : Text :=
  s.key.toList ++ '=' :: (s.substituted value).takeWhile (· ≠ '\n')

/-- The others. -/
def injected (s : Setting) : List Text := (records (s.substituted value ++ ['\n'])).tail

end Setting

section Lines

variable {key t : Text}

/-- A text that begins with no newline is in its first line. -/
theorem records_append_takeWhile (h : '\n' ∉ key) :
    records (key ++ t ++ ['\n']) =
      (key ++ t.takeWhile (· ≠ '\n')) :: (records (t ++ ['\n'])).tail := by
  obtain ⟨rest, hrest⟩ : ∃ rest, t ++ ['\n'] = t.takeWhile (· ≠ '\n') ++ '\n' :: rest := by
    induction t with
    | nil => exact ⟨[], rfl⟩
    | cons c t ih =>
      by_cases hc : c = '\n'
      · exact ⟨t ++ ['\n'], by simp [hc]⟩
      · obtain ⟨rest, hrest⟩ := ih
        refine ⟨rest, ?_⟩
        rw [List.cons_append, hrest, List.takeWhile_cons_of_pos (by simpa using hc)]
        rfl
  have htake : '\n' ∉ t.takeWhile (· ≠ '\n') := by
    intro hmem
    simpa using List.all_eq_true.mp (List.all_takeWhile ..) _ hmem
  rw [List.append_assoc, hrest, ← List.append_assoc, records_append htake,
    records_append (by rw [List.mem_append, not_or]; exact ⟨h, htake⟩)]
  rfl

theorem records_flatMap {α : Type} (f : α → Text) (xs : List α) :
    records (xs.flatMap fun x => f x ++ ['\n']) = xs.flatMap fun x => records (f x ++ ['\n']) := by
  induction xs with
  | nil => rfl
  | cons x xs ih =>
    rw [List.flatMap_cons, List.flatMap_cons, List.append_assoc, List.singleton_append,
      records_append_newline, ih]

theorem keyLines_append (lines lines' : List Text) :
    keyLines (lines ++ lines') key = keyLines lines key ++ keyLines lines' key :=
  List.filter_append ..

theorem mem_keyLines {lines : List Text} {line : Text} :
    line ∈ keyLines lines key ↔ line ∈ lines ∧ isKeyLine line ∧ keyOf line = key := by
  rw [keyLines, List.mem_filter, decide_eq_true_eq]

theorem count_keys (lines : List Text) : (keys lines).count key = (keyLines lines key).length := by
  rw [keys, List.count, List.countP_map, List.countP_eq_length_filter, settings,
    List.filter_filter, keyLines]
  congr 2
  funext line
  simp [Bool.and_comm, beq_eq_decide]

theorem setting_eq_getLast (lines : List Text) :
    setting lines key = (keyLines lines key).getLast?.getD [] := by
  rw [setting, setting?, ← List.head?_filter, List.filter_reverse, List.head?_reverse, settings,
    List.filter_filter, keyLines]
  congr 3
  funext line
  simp [Bool.and_comm]

end Lines

/-! ### The keys of the template -/

namespace Setting

variable {s : Setting} {value : Variable → Text}

/-- A key without characters that lines, settings, comments or blanks are told by. -/
def hasPlainKey (s : Setting) : Bool :=
  trim s.key.toList == s.key.toList && !s.key.toList.contains '=' &&
    !s.key.toList.contains '\n' && !isCommentKey s.key.toList

theorem hasPlainKey_of_mem (h : s ∈ template) : s.hasPlainKey :=
  List.all_eq_true.mp (by decide : template.all hasPlainKey) s h

theorem newline_notMem_key (h : s.hasPlainKey) : '\n' ∉ s.key.toList := by
  simp only [hasPlainKey, Bool.and_eq_true] at h
  simpa using h.1.2

theorem keyOf_line (h : s.hasPlainKey) : keyOf (s.line value) = s.key.toList := by
  simp only [hasPlainKey, Bool.and_eq_true, beq_iff_eq] at h
  have hequals : '=' ∉ s.key.toList := by simpa using h.1.1.2
  have hkey : ∀ c ∈ s.key.toList, decide (c ≠ '=') = true := by
    intro c hc
    rw [decide_eq_true_eq]
    rintro rfl
    exact hequals hc
  rw [keyOf, line, List.takeWhile_append_of_pos hkey, List.takeWhile_cons_of_neg (by simp),
    List.append_nil, h.1.1.1]

theorem isKeyLine_line (h : s.hasPlainKey) : isKeyLine (s.line value) := by
  rw [isKeyLine, isComment_eq, keyOf_line h, hasEquals, line]
  simp only [hasPlainKey, Bool.and_eq_true] at h
  simpa using h.2

/-- The lines of a setting: its own, and those that its value brings. -/
theorem lines_eq (h : s.hasPlainKey) : s.lines value = s.line value :: s.injected value := by
  have hkey : '\n' ∉ s.key.toList ++ ['='] := by
    rw [List.mem_append, not_or]
    exact ⟨newline_notMem_key h, by simp⟩
  have hshape : ∀ t, s.key.toList ++ '=' :: t = s.key.toList ++ ['='] ++ t := fun t => by
    rw [List.append_assoc, List.singleton_append]
  rw [lines, rendered, line, injected, hshape (s.substituted value),
    hshape ((s.substituted value).takeWhile _)]
  exact records_append_takeWhile hkey

theorem keyLines_lines_self (h : s.hasPlainKey) :
    keyLines (s.lines value) s.key.toList =
      s.line value :: keyLines (s.injected value) s.key.toList := by
  rw [lines_eq h, keyLines, List.filter_cons_of_pos, keyLines]
  simpa using ⟨isKeyLine_line h, keyOf_line h⟩

theorem keyLines_lines_of_ne {s' : Setting} (h : s.hasPlainKey) (hne : s.key ≠ s'.key) :
    keyLines (s.lines value) s'.key.toList = keyLines (s.injected value) s'.key.toList := by
  rw [lines_eq h, keyLines, List.filter_cons_of_neg, keyLines]
  rw [keyOf_line h, decide_eq_true_eq, not_and]
  exact fun _ heq => hne (String.toList_injective heq)

theorem keyLines_flatMap_of_ne {settings : List Setting} {s' : Setting}
    (h : ∀ s ∈ settings, s.hasPlainKey ∧ s.key ≠ s'.key) :
    keyLines (settings.flatMap (·.lines value)) s'.key.toList =
      keyLines (settings.flatMap (·.injected value)) s'.key.toList := by
  induction settings with
  | nil => rfl
  | cons s settings ih =>
    obtain ⟨hplain, hne⟩ := h s List.mem_cons_self
    rw [List.flatMap_cons, List.flatMap_cons, keyLines_append, keyLines_append,
      keyLines_lines_of_ne hplain hne, ih fun s hs => h s (List.mem_cons_of_mem _ hs)]

end Setting

section Rendered

variable {s : Setting} {before after : List Setting} {value : Variable → Text}

/-- The settings around one of the template have other keys. -/
theorem plain_of_template (h : template = before ++ s :: after) :
    s.hasPlainKey ∧ (∀ s' ∈ before, s'.hasPlainKey ∧ s'.key ≠ s.key) ∧
      ∀ s' ∈ after, s'.hasPlainKey ∧ s'.key ≠ s.key := by
  have hplain : ∀ s' ∈ before ++ s :: after, s'.hasPlainKey :=
    fun s' hs' => Setting.hasPlainKey_of_mem (h ▸ hs')
  have hdistinct : (template.map (·.key)).Nodup := by decide
  rw [h, List.map_append, List.map_cons, List.nodup_middle, List.nodup_cons, List.mem_append,
    not_or] at hdistinct
  obtain ⟨⟨hbefore, hafter⟩, -⟩ := hdistinct
  refine ⟨hplain s (by simp), fun s' hs' => ⟨hplain s' (by simp [hs']), fun heq => ?_⟩,
    fun s' hs' => ⟨hplain s' (by simp [hs']), fun heq => ?_⟩⟩
  · exact hbefore (heq ▸ List.mem_map_of_mem hs')
  · exact hafter (heq ▸ List.mem_map_of_mem hs')

theorem records_envsubst : records (envsubst value) =
    header.toList :: template.flatMap (·.lines value) := by
  rw [envsubst, records_append (by decide)]
  exact congrArg _ (records_flatMap (fun s : Setting => s.key.toList ++ '=' :: s.substituted value)
    template)

/-- **The lines that set a key of the template**: its own, and those that values bring before it
and after it. -/
theorem keyLines_envsubst (h : template = before ++ s :: after) :
    keyLines (records (envsubst value)) s.key.toList =
      keyLines (before.flatMap (·.injected value)) s.key.toList ++
        s.line value :: (keyLines (s.injected value) s.key.toList ++
          keyLines (after.flatMap (·.injected value)) s.key.toList) := by
  obtain ⟨hplain, hbefore, hafter⟩ := plain_of_template h
  have hheader : keyLines [header.toList] s.key.toList = [] := by
    have hcomment : isKeyLine header.toList = false := by decide
    rw [keyLines, List.filter_eq_nil_iff]
    simp [hcomment]
  rw [records_envsubst, ← List.singleton_append, keyLines_append, hheader, List.nil_append, h,
    List.flatMap_append, List.flatMap_cons, keyLines_append, keyLines_append,
    Setting.keyLines_flatMap_of_ne hbefore, Setting.keyLines_lines_self hplain,
    Setting.keyLines_flatMap_of_ne hafter, List.cons_append]

end Rendered

/-! ### Values of one line -/

section SingleLine

variable {s : Setting} {value : Variable → Text}

theorem Setting.injected_eq_nil (h : '\n' ∉ s.substituted value) : s.injected value = [] := by
  rw [injected, records_append h]
  rfl

theorem Setting.line_eq (h : '\n' ∉ s.substituted value) :
    s.line value = s.key.toList ++ '=' :: s.substituted value := by
  have hvalue : ∀ c ∈ s.substituted value, decide (c ≠ '\n') = true := by
    intro c hc
    rw [decide_eq_true_eq]
    rintro rfl
    exact h hc
  rw [line, List.takeWhile_eq_self_iff.mpr hvalue]

end SingleLine

/-- The variables of the template that no check makes a single line. -/
def unchecked : List Variable := [.mods, .mapNames, .workshopItems]

/-- A part of a value without newlines, once the environment is accepted. -/
def Segment.isSingle : Segment → Bool
  | text t => !t.toList.contains '\n'
  | reference v => v ∈ allowlist && v ∉ unchecked

/-- The settings whose values may have several lines are those of the unchecked variables. -/
example : (template.filter fun s => !s.value.all (·.isSingle)).map (·.value) =
    [[.reference .mods], [.reference .mapNames], [.reference .workshopItems]] := by decide

section Checked

variable {env : Environment} {s : Setting}

theorem newline_notMem_of_isNumber {t : Text} (h : isNumber t) : '\n' ∉ t := by
  rw [isNumber, Bool.and_eq_true, List.all_eq_true] at h
  intro hmem
  exact absurd (h.2 _ hmem) (by decide)

theorem newline_notMem_of_isSingleLine {t : Text} (h : isSingleLine t) : '\n' ∉ t := by
  rw [isSingleLine, Bool.and_eq_true] at h
  simpa using h.1

/-- An accepted environment has newlines only in the unchecked variables. -/
theorem newline_notMem_exported (h : Checked env.shell) {v : Variable} (hv : v ∈ allowlist)
    (hunchecked : v ∉ unchecked) : '\n' ∉ env.exported v := by
  rw [Environment.exported]
  split
  · simp only [allowlist, List.mem_cons, List.not_mem_nil, or_false] at hv
    rcases hv with rfl | rfl | rfl | rfl | rfl | rfl | rfl | rfl | rfl | rfl
    · exact newline_notMem_of_isSingleLine (h.single _ (by simp))
    · exact newline_notMem_of_isSingleLine (h.single _ (by simp))
    · exact newline_notMem_of_isNumber (h.numbers _ (by simp))
    · exact newline_notMem_of_isNumber (h.numbers _ (by simp))
    · exact newline_notMem_of_isNumber (h.numbers _ (by simp))
    · exact newline_notMem_of_isNumber (h.numbers _ (by simp))
    · exact newline_notMem_of_isSingleLine (h.single _ (by simp))
    · exact absurd (by decide) hunchecked
    · exact absurd (by decide) hunchecked
    · exact absurd (by decide) hunchecked
  · exact List.not_mem_nil

/-- **Which variables are one line.** -/
theorem newline_notMem_substituted (h : Checked env.shell) (hs : s.value.all (·.isSingle)) :
    '\n' ∉ s.substituted env.exported := by
  rw [Setting.substituted, List.mem_flatMap]
  rintro ⟨segment, hmem, hline⟩
  have hsingle := List.all_eq_true.mp hs segment hmem
  cases segment with
  | text t =>
    rw [Segment.isSingle, Bool.not_eq_true', ← Bool.not_eq_true, List.contains_iff_mem] at hsingle
    exact hsingle hline
  | reference v =>
    simp only [Segment.isSingle, Bool.and_eq_true, decide_eq_true_eq] at hsingle
    rw [Segment.substituted, if_pos hsingle.1] at hline
    exact newline_notMem_exported h hsingle.1 hsingle.2 hline

end Checked

/-! ### The merged file -/

/-- The keys whose values were checked, and the variables. -/
def validatedKeys : List (String × Variable) :=
  [("DefaultPort", .gamePort), ("UDPPort", .directPort), ("MaxPlayers", .maxPlayers),
   ("RCONPort", .rconPort), ("RCONPassword", .rconPassword), ("Password", .serverPassword)]

/-- **The managed keys have the values of the template.** -/
structure Governed (env : Environment) (ini : Text) : Prop where
  /-- each key is set by one line, one that its own value was rendered to -/
  own : ∀ s ∈ template, ∃ line ∈ s.lines env.exported, keyLines (records ini) s.key.toList = [line]
  /-- the settings without variables are unchanged -/
  fixed : ∀ s ∈ template, ∀ t, s.value = [.text t] →
    keyLines (records ini) s.key.toList = [s.key.toList ++ '=' :: t.toList]
  /-- the ports, the passwords and the player limit have the values that were checked -/
  validated : ∀ p ∈ validatedKeys,
    keyLines (records ini) p.1.toList = [p.1.toList ++ '=' :: env.shell p.2]

/-- The file that is there sets `key`. -/
def IsSet (destination : Option Text) (key : Text) : Prop :=
  keyLines (records (destination.getD [])) key ≠ []

/-- **No value reaches beyond its own key.** A variable with a default is there, perhaps empty, and
no value brings a line with the key of another setting, or of its own for the second time. Where the
file sets the key already, only what comes after its own line counts: the last line wins. -/
structure Contained (env : Environment) (destination : Option Text) : Prop where
  given : ∀ v ∈ [.maxPlayers, .gamePort, .directPort, .rconPort], (env v).isSome
  new : ∀ s ∈ template, ¬ IsSet destination s.key.toList →
    keyLines (template.flatMap (·.injected env.exported)) s.key.toList = []
  old : ∀ before s after, template = before ++ s :: after → IsSet destination s.key.toList →
    ∀ line ∈ (keyLines (after.flatMap (·.injected env.exported)) s.key.toList).getLast?,
      line ∈ s.lines env.exported

section Merge

variable {rendered old key : Text}

/-- The lines of a key in the merged file: the last rendered one, once if the key was there. -/
theorem keyLines_mergeManagedIni (h : keyLines (records rendered) key ≠ []) :
    keyLines (records (mergeManagedIni rendered old)) key =
      if keyLines (records old) key ≠ [] then [(keyLines (records rendered) key).getLast h]
      else List.replicate (keyLines (records rendered) key).length
        ((keyLines (records rendered) key).getLast h) := by
  have hkey : key ∈ keys (records rendered) := by
    rw [← List.count_pos_iff, count_keys, List.length_pos_iff]
    exact h
  have hrendered : rendered ≠ [] := by
    rintro rfl
    exact h rfl
  have hold : key ∈ (records old).filterMap (managedKey (records rendered)) ↔
      keyLines (records old) key ≠ [] := by
    rw [List.mem_filterMap]
    constructor
    · rintro ⟨line, hline, hmanaged⟩
      obtain ⟨hset, heq, -⟩ := managedKey_eq_some.mp hmanaged
      exact List.ne_nil_of_mem (mem_keyLines.mpr ⟨hline, hset, heq⟩)
    · intro hne
      obtain ⟨line, hline⟩ := List.exists_mem_of_ne_nil _ hne
      obtain ⟨hmem, hset, heq⟩ := mem_keyLines.mp hline
      exact ⟨line, hmem, managedKey_eq_some.mpr ⟨hset, heq, hkey⟩⟩
  rw [keyLines, records_mergeManagedIni old hrendered,
    filter_mergeLines_key (records_ne_nil hrendered) hkey, count_keys, setting_eq_getLast,
    List.getLast?_eq_some_getLast h]
  simp only [hold, Option.getD_some]

end Merge

section Own

variable {env : Environment} {destination : Option Text} {s : Setting} {before after : List Setting}

/-- Whether the last element is one of those in the middle. -/
theorem getLast_mem_iff {α : Type} {first own rest all : List α} (hown : own ≠ [])
    (hall : ∀ x ∈ own, x ∈ all) (h : first ++ (own ++ rest) ≠ []) :
    (first ++ (own ++ rest)).getLast h ∈ all ↔ ∀ x ∈ rest.getLast?, x ∈ all := by
  rcases List.eq_nil_or_concat rest with rfl | ⟨rest', x, rfl⟩
  · constructor
    · intro _ x hx
      cases hx
    · intro _
      simp only [List.append_nil]
      rw [List.getLast_append_of_ne_nil _ hown]
      exact hall _ (List.getLast_mem hown)
  · simp

theorem keyLines_lines_subset (key : Text) (lines : List Text) :
    ∀ line ∈ keyLines lines key, line ∈ lines :=
  fun _ hline => (mem_keyLines.mp hline).1

/-- A key of the template has one line more than the values bring. -/
theorem length_keyLines_envsubst {value : Variable → Text} (h : template = before ++ s :: after) :
    (keyLines (records (envsubst value)) s.key.toList).length =
      (keyLines (template.flatMap (·.injected value)) s.key.toList).length + 1 := by
  rw [keyLines_envsubst h, h, List.flatMap_append, List.flatMap_cons, keyLines_append,
    keyLines_append, List.length_append, List.length_append, List.length_cons, List.length_append]
  omega

theorem keyLines_envsubst_of_nil {value : Variable → Text} (h : template = before ++ s :: after)
    (hnil : keyLines (template.flatMap (·.injected value)) s.key.toList = []) :
    keyLines (records (envsubst value)) s.key.toList = [s.line value] := by
  rw [h, List.flatMap_append, List.flatMap_cons, keyLines_append, keyLines_append,
    List.append_eq_nil_iff, List.append_eq_nil_iff] at hnil
  rw [keyLines_envsubst h, hnil.1, hnil.2.1, hnil.2.2]
  rfl

/-- **When a key is set by one line of its own**, for each key of the template. -/
theorem own_iff (h : template = before ++ s :: after) :
    (∃ line ∈ s.lines env.exported,
        keyLines (records (renderConfiguration env destination)) s.key.toList = [line]) ↔
      (¬ IsSet destination s.key.toList →
        keyLines (template.flatMap (·.injected env.exported)) s.key.toList = []) ∧
      (IsSet destination s.key.toList →
        ∀ line ∈ (keyLines (after.flatMap (·.injected env.exported)) s.key.toList).getLast?,
          line ∈ s.lines env.exported) := by
  have hplain := (plain_of_template h).1
  have hlength := @length_keyLines_envsubst s before after env.exported h
  have hne : keyLines (records (envsubst env.exported)) s.key.toList ≠ [] := by
    rw [← List.length_pos_iff, hlength]
    omega
  have hfirst : s.line env.exported ∈ s.lines env.exported := by
    rw [Setting.lines_eq hplain]
    exact List.mem_cons_self
  by_cases hset : IsSet destination s.key.toList
  · -- the key keeps its place, with the last rendered line
    have hmem : (keyLines (records (envsubst env.exported)) s.key.toList).getLast hne ∈
          s.lines env.exported ↔
        ∀ line ∈ (keyLines (after.flatMap (·.injected env.exported)) s.key.toList).getLast?,
          line ∈ s.lines env.exported := by
      have hrendered := @keyLines_envsubst s before after env.exported h
      rw [← List.cons_append, ← Setting.keyLines_lines_self hplain] at hrendered
      simp only [hrendered]
      refine getLast_mem_iff ?_ (keyLines_lines_subset _ _) _
      rw [Setting.keyLines_lines_self hplain]
      exact List.cons_ne_nil _ _
    cases destination with
    | none => exact absurd rfl hset
    | some old =>
      have hold : keyLines (records old) s.key.toList ≠ [] := hset
      rw [renderConfiguration, keyLines_mergeManagedIni hne, if_pos hold, ← hmem]
      constructor
      · rintro ⟨line, hline, heq⟩
        rw [List.singleton_inj] at heq
        exact ⟨absurd hset, fun _ => heq ▸ hline⟩
      · intro hall
        exact ⟨_, hall.2 hset, rfl⟩
  · -- the key is new: every line that sets it is kept or appended
    have hnew : ∀ old, destination = some old → ¬ keyLines (records old) s.key.toList ≠ [] := by
      rintro old rfl
      exact hset
    have hlines : (keyLines (records (renderConfiguration env destination)) s.key.toList).length =
        (keyLines (records (envsubst env.exported)) s.key.toList).length := by
      cases destination with
      | none => rfl
      | some old =>
        rw [renderConfiguration, keyLines_mergeManagedIni hne, if_neg (hnew old rfl),
          List.length_replicate]
    constructor
    · rintro ⟨line, -, heq⟩
      rw [heq, hlength, List.length_singleton, eq_comm, Nat.add_eq_right, List.length_eq_zero_iff]
        at hlines
      exact ⟨fun _ => hlines, fun hold => absurd hold hset⟩
    · rintro ⟨hnil, -⟩
      have hline := keyLines_envsubst_of_nil h (hnil hset)
      refine ⟨_, hfirst, ?_⟩
      cases destination with
      | none => exact hline
      | some old =>
        rw [renderConfiguration, keyLines_mergeManagedIni hne, if_neg (hnew old rfl)]
        simp [hline]

end Own

section Governed

variable {env : Environment} {destination : Option Text}

/-- A value is exported as it was checked, if it is exported. -/
theorem exported_eq_shell_iff {v : Variable} (h : env.shell v ≠ []) :
    env.exported v = env.shell v ↔ (env v).isSome := by
  rw [Environment.exported]
  split
  · rename_i hsome
    exact iff_of_true rfl hsome
  · rename_i hnone
    exact iff_of_false (Ne.symm h) hnone

/-- The variables with a checked value are there, or have a default. -/
theorem shell_ne_nil (h : Checked env.shell) : ∀ p ∈ validatedKeys, env.shell p.2 ≠ [] := by
  have hnumber : ∀ t, isNumber t → t ≠ [] := by
    rintro _ ht rfl
    cases ht
  intro p hp
  simp only [validatedKeys, List.mem_cons, List.not_mem_nil, or_false] at hp
  rcases hp with rfl | rfl | rfl | rfl | rfl | rfl
  · exact hnumber _ (h.numbers _ (by simp))
  · exact hnumber _ (h.numbers _ (by simp))
  · exact hnumber _ (h.numbers _ (by simp))
  · exact hnumber _ (h.numbers _ (by simp))
  · exact h.secrets _ (by simp)
  · exact h.secrets _ (by simp)

/-- The checked values are the exported ones when the variables with a default are there: a password
has no default. -/
theorem exported_eq_shell (h : Checked env.shell)
    (hgiven : ∀ v ∈ [.maxPlayers, .gamePort, .directPort, .rconPort], (env v).isSome) :
    ∀ p ∈ validatedKeys, env.exported p.2 = env.shell p.2 := by
  have hpassword : ∀ v ∈ [.rconPassword, .serverPassword], (env v).isSome := by
    intro v hv
    have hne := h.secrets v hv
    rw [Option.isSome_iff_ne_none]
    intro hnone
    simp only [List.mem_cons, List.not_mem_nil, or_false] at hv
    rw [Environment.shell, hnone] at hne
    rcases hv with rfl | rfl
    · exact hne rfl
    · exact hne rfl
  intro p hp
  rw [exported_eq_shell_iff (shell_ne_nil h p hp)]
  simp only [validatedKeys, List.mem_cons, List.not_mem_nil, or_false] at hp
  rcases hp with rfl | rfl | rfl | rfl | rfl | rfl
  · exact hgiven _ (by simp)
  · exact hgiven _ (by simp)
  · exact hgiven _ (by simp)
  · exact hgiven _ (by simp)
  · exact hpassword _ (by simp)
  · exact hpassword _ (by simp)

/-- A key that is set by a line of its own, whose value is one line. -/
theorem keyLines_of_own {s : Setting} {ini : Text} (h : Checked env.shell) (hs : s ∈ template)
    (hsingle : s.value.all (·.isSingle))
    (hown : ∃ line ∈ s.lines env.exported, keyLines (records ini) s.key.toList = [line]) :
    keyLines (records ini) s.key.toList =
      [s.key.toList ++ '=' :: s.substituted env.exported] := by
  obtain ⟨line, hline, hlines⟩ := hown
  have hvalue := newline_notMem_substituted h hsingle
  rw [Setting.lines_eq (Setting.hasPlainKey_of_mem hs), Setting.injected_eq_nil hvalue,
    Setting.line_eq hvalue, List.mem_singleton] at hline
  rw [hlines, hline]

/-- The keys with a checked value, and their lines. -/
theorem keyLines_validated {ini : Text} (h : Checked env.shell)
    (hown : ∀ s ∈ template, ∃ line ∈ s.lines env.exported,
      keyLines (records ini) s.key.toList = [line]) :
    ∀ p ∈ validatedKeys,
      keyLines (records ini) p.1.toList = [p.1.toList ++ '=' :: env.exported p.2] := by
  have htemplate : ∀ p ∈ validatedKeys, (⟨p.1, [.reference p.2]⟩ : Setting) ∈ template ∧
      (p.2 ∈ allowlist ∧ p.2 ∉ unchecked) := by decide
  intro p hp
  obtain ⟨hmem, hallowed, hchecked⟩ := htemplate p hp
  have hlines := keyLines_of_own h hmem (by simp [Segment.isSingle, hallowed, hchecked])
    (hown _ hmem)
  rw [Setting.substituted, List.flatMap_singleton, Segment.substituted, if_pos hallowed] at hlines
  exact hlines

/-- **When the managed keys have the values of the template**, in every file and every environment
that is accepted. -/
theorem renderConfiguration_governed_iff (h : validateEnvironment env = .ok ()) :
    Governed env (renderConfiguration env destination) ↔ Contained env destination := by
  have hchecked := checked_of_validateEnvironment h
  constructor
  · intro hgoverned
    refine ⟨?_, fun s hs => ?_, fun before s after hsplit => ?_⟩
    · have hexported : ∀ p ∈ validatedKeys, (env p.2).isSome := by
        intro p hp
        have hline := (keyLines_validated hchecked hgoverned.own p hp).symm.trans
          (hgoverned.validated p hp)
        rw [List.singleton_inj, List.append_cancel_left_eq, List.cons_inj_right] at hline
        exact (exported_eq_shell_iff (shell_ne_nil hchecked p hp)).mp hline
      intro v hv
      simp only [List.mem_cons, List.not_mem_nil, or_false] at hv
      rcases hv with rfl | rfl | rfl | rfl
      · exact hexported ("MaxPlayers", .maxPlayers) (by decide)
      · exact hexported ("DefaultPort", .gamePort) (by decide)
      · exact hexported ("UDPPort", .directPort) (by decide)
      · exact hexported ("RCONPort", .rconPort) (by decide)
    · obtain ⟨before, after, hsplit⟩ := List.append_of_mem hs
      exact ((own_iff hsplit).mp (hgoverned.own s hs)).1
    · have hs : s ∈ template := by
        rw [hsplit]
        simp
      exact ((own_iff hsplit).mp (hgoverned.own s hs)).2
  · intro hcontained
    have hown : ∀ s ∈ template, ∃ line ∈ s.lines env.exported,
        keyLines (records (renderConfiguration env destination)) s.key.toList = [line] := by
      intro s hs
      obtain ⟨before, after, hsplit⟩ := List.append_of_mem hs
      exact (own_iff hsplit).mpr ⟨hcontained.new s hs, hcontained.old before s after hsplit⟩
    refine ⟨hown, fun s hs t ht => ?_, fun p hp => ?_⟩
    · have hplain : template.all fun s => s.value.all fun
          | .text t => !t.toList.contains '\n'
          | .reference _ => true := by decide
      have hsingle := List.all_eq_true.mp hplain s hs
      have hlines := keyLines_of_own hchecked hs (by rw [ht] at hsingle ⊢; exact hsingle)
        (hown s hs)
      rw [Setting.substituted, ht, List.flatMap_singleton, Segment.substituted] at hlines
      exact hlines
    · rw [keyLines_validated hchecked hown p hp,
        exported_eq_shell hchecked hcontained.given p hp]

end Governed

/-- A deployment with its own passwords and workshop items, and the defaults. -/
def Environment.deployment (workshopItems : String) : Environment
  | .adminPassword => some "admin-secret".toList
  | .rconPassword => some "rcon-secret".toList
  | .serverPassword => some "door".toList
  | .workshopItems => some workshopItems.toList
  | v => some v.default.toList

theorem renderConfiguration_governed_deployment :
    Governed (.deployment "2392709985") (renderConfiguration (.deployment "2392709985")
      (some "Public=true\nResetID=7\n".toList)) := by
  have hnil : template.flatMap (·.injected (Environment.deployment "2392709985").exported) =
      [] := by decide
  refine (renderConfiguration_governed_iff (by decide)).mpr
    ⟨by decide, fun s _ _ => by rw [hnil]; rfl, fun before s after h _ line hline => ?_⟩
  rw [h, List.flatMap_append, List.flatMap_cons, List.append_eq_nil_iff,
    List.append_eq_nil_iff] at hnil
  rw [hnil.2.2] at hline
  cases hline

/-- A second line of the workshop items opens the server to the public. -/
theorem renderConfiguration_public :
    validateEnvironment (.deployment "2392709985\nPublic=true") = .ok () ∧
      ¬ Governed (.deployment "2392709985\nPublic=true")
        (renderConfiguration (.deployment "2392709985\nPublic=true")
          (some "Public=false\nResetID=7\n".toList)) := by
  refine ⟨by decide, fun h => ?_⟩
  have hpublic := h.fixed ⟨"Public", [.text "false"]⟩ (by decide) "false" rfl
  exact absurd hpublic (by decide +kernel)

end Config

end PzServer
