import Mathlib.Data.Nat.Basic
import PzServer.Restore.Script

/-!
# Restoring loses no world

The directories of a run go through few stages, and `Stage` lists them: nothing has changed but what
the script extracts, the old world is set aside, or the new one is in its place. So a world that was
in the data directory or in a safety directory still is in one of them, wherever the script is cut
off.

It need not be in the data directory. There is none between the two moves, and an exception in the
second move takes the first one back, while an interruption does not. `restorePZLocal_survives_iff`
says exactly when a run in which one command fails leaves no data directory.

## Main definitions

* `Stage` — how far a run has come
* `Restores` — runs of the script, cut off anywhere, and play in between

## Main results

* `Restores.no_loss` — no world is lost, over any number of runs
* `restorePZLocal_survives_iff` — when there is a world in the data directory in the end
-/

namespace PzServer

namespace Restore

open Interaction

variable {α : Type} {trees : Trees α} {site s new : Site α} {date time : ℕ} {a b e : Option α}
  {w x : α}

/-! ### The stages -/

/-- The directories of a run, and the others as they were. -/
def Site.layout (site : Site α) (date time : ℕ) (a b e : Option α) : Site α := fun place =>
  if place = .data then a
  else if place = .previous date time then b
  else if place = .extraction date time then e
  else site place

theorem layout_data : site.layout date time a b e .data = a := if_pos rfl

theorem layout_previous : site.layout date time a b e (.previous date time) = b :=
  (if_neg (by simp)).trans (if_pos rfl)

theorem layout_extraction : site.layout date time a b e (.extraction date time) = e :=
  (if_neg (by simp)).trans ((if_neg (by simp)).trans (if_pos rfl))

theorem layout_self (site : Site α) (date time : ℕ) :
    site.layout date time (site .data) (site (.previous date time))
      (site (.extraction date time)) = site := by
  funext place
  rw [Site.layout]
  split
  · rename_i h
    rw [h]
  split
  · rename_i h
    rw [h]
  split
  · rename_i h
    rw [h]
  · rfl

theorem update_layout (left : Option α) :
    Function.update (site.layout date time a b e) (.extraction date time) left =
      site.layout date time a b left := by
  funext place
  by_cases h : place = .extraction date time
  · rw [h, Function.update_self, layout_extraction]
  · rw [Function.update_of_ne h, Site.layout, Site.layout, if_neg h, if_neg h]

/-- A directory that is moved to a place where none is. -/
theorem move_eq {source target : Place} (h : site target = none) :
    site.move trees source target =
      Function.update (Function.update site source none) target (site source) := by
  rw [Site.move, h]
  cases site source <;> rfl

theorem move_aside :
    (site.layout date time (some w) none e).move trees .data (.previous date time) =
      site.layout date time none (some w) e := by
  rw [move_eq layout_previous, layout_data]
  funext place
  by_cases hprevious : place = .previous date time
  · rw [hprevious, Function.update_self, layout_previous]
  rw [Function.update_of_ne hprevious]
  by_cases hdata : place = .data
  · rw [hdata, Function.update_self, layout_data]
  · rw [Function.update_of_ne hdata, Site.layout, Site.layout, if_neg hdata, if_neg hdata,
      if_neg hprevious, if_neg hprevious]

theorem move_back :
    (site.layout date time none (some w) e).move trees (.previous date time) .data =
      site.layout date time (some w) none e := by
  rw [move_eq layout_data, layout_previous]
  funext place
  by_cases hdata : place = .data
  · rw [hdata, Function.update_self, layout_data]
  rw [Function.update_of_ne hdata]
  by_cases hprevious : place = .previous date time
  · rw [hprevious, Function.update_self, layout_previous]
  · rw [Function.update_of_ne hprevious, Site.layout, Site.layout, if_neg hdata, if_neg hdata,
      if_neg hprevious, if_neg hprevious]

theorem move_inPlace :
    (site.layout date time none b (some x)).move trees (.extraction date time) .data =
      site.layout date time (some x) b none := by
  rw [move_eq layout_data, layout_extraction, update_layout]
  funext place
  by_cases hdata : place = .data
  · rw [hdata, Function.update_self, layout_data]
  · rw [Function.update_of_ne hdata, Site.layout, Site.layout, if_neg hdata, if_neg hdata]

/-- How far a run has come. -/
inductive Stage (trees : Trees α) (site : Site α) (date time : ℕ) : Site α → Prop where
  | before (e : Option α) : Stage trees site date time
      (site.layout date time (site .data) (site (.previous date time)) e)
  | aside {w : α} (e : Option α) (hdata : site .data = some w)
    (hfree : site (.previous date time) = none) :
    Stage trees site date time (site.layout date time none (some w) e)
  | replaced {w : α} (hdata : site .data = some w) (hfree : site (.previous date time) = none) :
    Stage trees site date time (site.layout date time (some trees.archived) (some w) none)
  /-- There was nothing in the data directory. -/
  | placed (hdata : site .data = none) : Stage trees site date time
      (site.layout date time (some trees.archived) (site (.previous date time)) none)
  /-- There was nothing in the data directory, and a run of the same second had set this aside. -/
  | takenBack {w : α} (e : Option α) (hdata : site .data = none)
    (hprevious : site (.previous date time) = some w) :
    Stage trees site date time (site.layout date time (some w) none e)

theorem stage_before (ha : site .data = a) (hb : site (.previous date time) = b) :
    Stage trees site date time (site.layout date time a b e) := by
  rw [← ha, ← hb]
  exact .before e

theorem stage_placed (hdata : site .data = none) (hb : site (.previous date time) = b) :
    Stage trees site date time (site.layout date time (some trees.archived) b none) := by
  rw [← hb]
  exact .placed hdata

theorem Stage.start (trees : Trees α) (site : Site α) (date time : ℕ) :
    Stage trees site date time site := by
  have h : Stage trees site date time (site.layout date time _ _ (site (.extraction date time))) :=
    stage_before rfl rfl
  rwa [layout_self] at h

/-- The extracted directory can be removed, or partly. -/
theorem Stage.update (h : Stage trees site date time s)
    (hthere : (s (.extraction date time)).isSome) (left : Option α) :
    Stage trees site date time (Function.update s (.extraction date time) left) := by
  cases h with
  | before e =>
    rw [update_layout]
    exact .before left
  | aside e hdata hfree =>
    rw [update_layout]
    exact .aside left hdata hfree
  | replaced hdata hfree =>
    rw [layout_extraction] at hthere
    cases hthere
  | placed hdata =>
    rw [layout_extraction] at hthere
    cases hthere
  | takenBack e hdata hprevious =>
    rw [update_layout]
    exact .takenBack left hdata hprevious

/-- The world is in the data directory, or in a safety directory. -/
def Site.Holds (site : Site α) (w : α) : Prop :=
  site .data = some w ∨ ∃ date time, site (.previous date time) = some w

theorem Site.Holds.layout (h : site.Holds w) (hdata : site .data = some w → a = some w ∨ b = some w)
    (hprevious : site (.previous date time) = some w → a = some w ∨ b = some w) :
    (site.layout date time a b e).Holds w := by
  have hholds : a = some w ∨ b = some w → (site.layout date time a b e).Holds w := by
    rintro (ha | hb)
    · exact .inl (layout_data.trans ha)
    · exact .inr ⟨date, time, layout_previous.trans hb⟩
  rcases h with hw | ⟨date', time', hw⟩
  · exact hholds (hdata hw)
  · by_cases hsame : Place.previous date' time' = .previous date time
    · exact hholds (hprevious (hsame ▸ hw))
    · refine .inr ⟨date', time', ?_⟩
      rw [Site.layout, if_neg (by simp), if_neg hsame, if_neg (by simp)]
      exact hw

/-- **No stage has lost a world.** -/
theorem Stage.holds (h : Stage trees site date time s) (hw : site.Holds w) : s.Holds w := by
  cases h with
  | before e => exact hw.layout .inl .inr
  | aside e hdata hfree =>
    exact hw.layout (fun h => .inr (hdata.symm.trans h)) fun h =>
      absurd (h.symm.trans hfree) (Option.some_ne_none _)
  | replaced hdata hfree =>
    exact hw.layout (fun h => .inr (hdata.symm.trans h)) fun h =>
      absurd (h.symm.trans hfree) (Option.some_ne_none _)
  | placed hdata =>
    exact hw.layout (fun h => absurd (h.symm.trans hdata) (Option.some_ne_none _)) .inr
  | takenBack e hdata hprevious =>
    exact hw.layout (fun h => absurd (h.symm.trans hdata) (Option.some_ne_none _)) fun h =>
      .inl (hprevious.symm.trans h)

/-! ### Commands -/

abbrev RestoreMove (α : Type) : Type := Move RestoreCommand RestoreReply (Site α)

/-- The command did not return. -/
def failed (m : RestoreMove α) : Bool := m.reply.isOk.not

/-- The data directory was moved away by a command that did not return, or the command that should
replace it was interrupted. -/
def vacates (m : RestoreMove α) : Bool :=
  match m with
  | ⟨.move .data _, .error _, _, after⟩ => (after .data).isNone
  | ⟨.move (.extraction ..) _, .error .interrupted, _, after⟩ => (after .data).isNone
  | _ => false

/-- The moves after `past` leave the data directory alone. -/
def Quiet (past past' : List (RestoreMove α)) : Prop :=
  past <:+ past' ∧ past'.any vacates = past.any vacates

variable {past past' past'' : List (RestoreMove α)} {m : RestoreMove α} {v : RestoreVariables}
  {β : Type} {q : RestoreCommand}

theorem quiet_refl (past : List (RestoreMove α)) : Quiet past past := ⟨List.suffix_refl past, rfl⟩

theorem quiet_cons (h : vacates m = false) : Quiet past (m :: past) := by
  refine ⟨List.suffix_cons m past, ?_⟩
  rw [List.any_cons, h, Bool.false_or]

theorem Quiet.trans (h : Quiet past past') (h' : Quiet past' past'') : Quiet past past'' :=
  ⟨h.1.trans h'.1, h'.2.trans h.2⟩

/-- Every move leads to a stage. -/
def KeepsStage (trees : Trees α) (site : Site α) (date time : ℕ) (_ : List (RestoreMove α))
    (m : RestoreMove α) : Prop :=
  Stage trees site date time m.after

theorem ensures_invoke {G : List (RestoreMove α) → RestoreMove α → Prop}
    {ok : RestoreValue q → List (RestoreMove α) → Site α → Prop}
    {err : Ended → List (RestoreMove α) → Site α → Prop}
    (h : ∀ c, trees.world.allowed s q c = true → G past (trees.world.move s q c) ∧
      match (trees.world.answer s q c).1 with
      | .ok value => ok value (trees.world.move s q c :: past) (trees.world.answer s q c).2
      | .error ending =>
        err ⟨ending, v⟩ (trees.world.move s q c :: past) (trees.world.answer s q c).2) :
    trees.world.Ensures G (invoke v q) ok err past s := by
  refine World.Ensures.bind (World.ensures_request fun c hc => ⟨(h c hc).1, ?_⟩)
  have hpost := (h c hc).2
  cases hr : (trees.world.answer s q c).1 with
  | ok value =>
    rw [hr] at hpost
    exact hpost
  | error ending =>
    rw [hr] at hpost
    exact hpost

/-- The command changes no directory. -/
def RestoreCommand.idle : RestoreCommand → Bool
  | .make _ | .tar _ | .move .. | .remove _ => false
  | _ => true

theorem answer_idle (hq : q.idle = true) (c : RestoreChoice α q) :
    (trees.answer s q c).2 = s := by
  cases q <;> first | rfl | cases hq

theorem vacates_idle (hq : m.request.idle = true) : vacates m = false := by
  obtain ⟨q, reply, before, after⟩ := m
  cases q <;> first | rfl | cases hq

/-- A command that changes no directory. -/
theorem ensures_idle (hq : q.idle = true) (hs : Stage trees site date time s) :
    trees.world.Ensures (KeepsStage trees site date time) (invoke v q)
      (fun _ past' new => new = s ∧ Quiet past past')
      (fun _ past' new => new = s ∧ Quiet past past') past s := by
  refine ensures_invoke fun c _ => ?_
  have hnew : (trees.world.answer s q c).2 = s := answer_idle hq c
  refine ⟨?_, ?_⟩
  · change Stage trees site date time (trees.world.answer s q c).2
    rwa [hnew]
  · have hquiet : Quiet past (trees.world.move s q c :: past) := quiet_cons (vacates_idle hq)
    split
    · exact ⟨hnew, hquiet⟩
    · exact ⟨hnew, hquiet⟩

/-! ### Programs that only look -/

/-- The program changes no directory. -/
def Harmless (trees : Trees α) (p : RestoreM β) : Prop :=
  ∀ ⦃site s : Site α⦄ ⦃date time : ℕ⦄ ⦃past : List (RestoreMove α)⦄,
    Stage trees site date time s → trees.world.Ensures (KeepsStage trees site date time) p
      (fun _ past' new => new = s ∧ Quiet past past')
      (fun _ past' new => new = s ∧ Quiet past past') past s

theorem harmless_invoke (hq : q.idle = true) : Harmless trees (invoke v q) :=
  fun _ _ _ _ _ => ensures_idle hq

theorem harmless_pure (a : β) : Harmless trees (pure a) :=
  fun _ _ _ _ _ _ => World.ensures_pure ⟨rfl, quiet_refl _⟩

theorem harmless_raise : Harmless trees (raise v : RestoreM β) :=
  fun _ _ _ _ _ _ => World.ensures_throw ⟨rfl, quiet_refl _⟩

theorem Harmless.bind {γ : Type} {p : RestoreM β} {f : β → RestoreM γ} (hp : Harmless trees p)
    (hf : ∀ a, Harmless trees (f a)) : Harmless trees (p >>= f) := by
  intro site s date time past hs
  refine (hp hs).seq (fun a past₁ s₁ _ h₁ => ?_) fun _ _ _ _ => id
  obtain ⟨rfl, hquiet⟩ := h₁
  exact (hf a hs).mono (fun _ _ _ h => ⟨h.1, hquiet.trans h.2⟩) fun _ _ _ h =>
    ⟨h.1, hquiet.trans h.2⟩

theorem Harmless.when {P : Prop} [Decidable P] {p : RestoreM Unit} {f : Unit → RestoreM β}
    (h : Harmless trees (f ())) (hp : Harmless trees p) :
    Harmless trees (if P then p >>= f else f ()) := by
  split
  · exact hp.bind fun _ => h
  · exact h

/-- A check that raises. -/
theorem Harmless.check {P : Prop} [Decidable P] {f : Unit → RestoreM β}
    (h : Harmless trees (f ())) : Harmless trees (if P then raise v >>= f else f ()) :=
  h.when harmless_raise

theorem harmless_verifyArchive : Harmless trees (verifyArchive v) := by
  have hcompose : Harmless trees (do
      let mounts ← invoke v .composeConfig
      if mounts ≠ 1 then raise v) :=
    (harmless_invoke (q := .composeConfig) rfl).bind fun _ => by
      split
      · exact harmless_raise
      · exact harmless_pure ()
  have htar : Harmless trees (do
      if !(← invoke v .findTar) then raise v
      let mounts ← invoke v .composeConfig
      if mounts ≠ 1 then raise v) :=
    (harmless_invoke (q := .findTar) rfl).bind fun _ => hcompose.check
  refine (harmless_invoke (q := .testArchive) rfl).bind fun _ => .check ?_
  refine (harmless_invoke (q := .testChecksum) rfl).bind fun _ => .check ?_
  refine (harmless_invoke (q := .readChecksum) rfl).bind fun line => ?_
  dsimp only
  cases expectedHash line with
  | none => exact harmless_raise.bind fun _ => htar
  | some expected => exact (harmless_invoke (q := .fileHash) rfl).bind fun _ => htar.check

theorem harmless_stopCompose : Harmless trees (stopCompose v) := by
  have hdown : Harmless trees (invoke v .composeDown) := harmless_invoke (q := .composeDown) rfl
  refine (harmless_invoke (q := .composePs) rfl).bind fun identifiers => ?_
  rcases identifiers with _ | ⟨identifier, _ | ⟨_, _⟩⟩
  · exact hdown
  · exact (harmless_invoke (q := .inspect identifier) rfl).bind fun state => hdown.check
  · exact harmless_raise.bind fun _ => hdown

theorem harmless_announce (start : Bool) : Harmless trees (announce start date time v) := by
  have hlog : Harmless trees (invoke v .log) := harmless_invoke (q := .log) rfl
  have hup : Harmless trees (do
      if start then invoke v .composeUp
      invoke v .log) :=
    hlog.when (harmless_invoke (q := .composeUp) rfl)
  refine hlog.bind fun _ => ?_
  exact (harmless_invoke (q := .test (.previous date time)) rfl).bind fun there => hup.when hlog

/-! ### The steps of a run -/

/-- The world is in the data directory, and it was not moved. -/
structure Before (site : Site α) (date time : ℕ) (past : List (RestoreMove α)) (new : Site α) :
    Prop where
  unmoved : ∃ e, new = site.layout date time (site .data) (site (.previous date time)) e
  quiet : past.any vacates = false

/-- How a run ends: with at most one command failing, there is a data directory unless one of the
moves left none. -/
structure Settled (trees : Trees α) (site : Site α) (date time : ℕ) (past : List (RestoreMove α))
    (new : Site α) : Prop where
  stage : Stage trees site date time new
  data : (site .data).isSome → past.countP failed ≤ 1 → (new .data).isNone = past.any vacates

theorem Before.stage (h : Before site date time past s) : Stage trees site date time s := by
  obtain ⟨e, rfl⟩ := h.unmoved
  exact .before e

theorem Before.quiet_trans (h : Before site date time past s) (hquiet : Quiet past past') :
    Before site date time past' s := ⟨h.unmoved, hquiet.2.trans h.quiet⟩

theorem Before.settled (h : Before site date time past s) :
    Settled trees site date time past s := by
  refine ⟨h.stage, fun hdata _ => ?_⟩
  obtain ⟨e, rfl⟩ := h.unmoved
  rw [h.quiet, layout_data, Option.isNone_eq_false_iff]
  exact hdata

/-- A command that touches a directory leaves it as it was, or with something in it. -/
theorem leaves_cases (c : Extracted α) (success : Option α) (site : Site α) (place : Place) :
    c.leaves success site place = site ∨
      ∃ left, c.leaves success site place = Function.update site place left := by
  obtain ⟨ending, left⟩ := c
  rcases ending with _ | ending
  · exact .inr ⟨success, rfl⟩
  · rcases left with _ | left
    · exact .inl rfl
    · exact .inr ⟨left, rfl⟩

/-- What comes of a command that fills the extraction directory. -/
theorem Before.leaves {c : Extracted α} (h : Before site date time past s)
    (hm : vacates m = false) :
    Before site date time (m :: past) (c.leaves a s (.extraction date time)) := by
  obtain ⟨e, rfl⟩ := h.unmoved
  refine ⟨?_, (quiet_cons hm).2.trans h.quiet⟩
  rcases leaves_cases c a (site.layout date time (site .data) (site (.previous date time)) e)
    (.extraction date time) with hnew | ⟨left, hnew⟩
  · exact ⟨e, hnew⟩
  · exact ⟨left, hnew.trans (update_layout left)⟩

theorem ensures_before (hq : q.idle = true) (h : Before site date time past s) :
    trees.world.Ensures (KeepsStage trees site date time) (invoke v q)
      (fun _ => Before site date time) (fun _ => Before site date time) past s := by
  refine (ensures_idle hq h.stage).mono (fun _ past' new hnew => ?_) fun _ past' new hnew => ?_
  · rw [hnew.1]
    exact h.quiet_trans hnew.2
  · rw [hnew.1]
    exact h.quiet_trans hnew.2

theorem ensures_make (h : Before site date time past s) :
    trees.world.Ensures (KeepsStage trees site date time)
      (invoke v (.make (.extraction date time))) (fun _ => Before site date time)
      (fun _ => Before site date time) past s := by
  refine ensures_invoke fun c _ => ?_
  have hnew : Before site date time (trees.world.move s (.make (.extraction date time)) c :: past)
      (c.leaves (some trees.empty) s (.extraction date time)) := h.leaves rfl
  refine ⟨hnew.stage, ?_⟩
  split
  · exact hnew
  · exact hnew

theorem ensures_tar (h : Before site date time past s) :
    trees.world.Ensures (KeepsStage trees site date time)
      (invoke v (.tar (.extraction date time)))
      (fun _ past' new => past'.any vacates = false ∧ new =
        site.layout date time (site .data) (site (.previous date time)) (some trees.archived))
      (fun _ => Before site date time) past s := by
  refine ensures_invoke fun c _ => ?_
  have hnew : Before site date time (trees.world.move s (.tar (.extraction date time)) c :: past)
      (c.leaves (some trees.archived) s (.extraction date time)) := h.leaves rfl
  refine ⟨hnew.stage, ?_⟩
  obtain ⟨ending, left⟩ := c
  cases ending with
  | none =>
    obtain ⟨e, rfl⟩ := h.unmoved
    exact ⟨hnew.quiet, update_layout (some trees.archived)⟩
  | some ending => exact hnew

theorem ensures_extract (h : Before site date time past s) :
    trees.world.Ensures (KeepsStage trees site date time) (extract date time v)
      (fun _ past' new => past'.any vacates = false ∧
        new = site.layout date time (site .data) (site (.previous date time)) (some trees.archived))
      (fun _ => Before site date time) past s := by
  have hfill : ∀ past s, Before site date time past s →
      trees.world.Ensures (KeepsStage trees site date time)
        (do
          invoke v (.make (.extraction date time))
          let v := { v with extracted := true }
          invoke v (.tar (.extraction date time))
          return v)
        (fun _ past' new => past'.any vacates = false ∧ new =
          site.layout date time (site .data) (site (.previous date time)) (some trees.archived))
        (fun _ => Before site date time) past s := fun past s h =>
    (ensures_make h).seq (fun _ past₁ s₁ _ h₁ => (ensures_tar h₁).seq
      (fun _ past₂ s₂ _ h₂ => World.ensures_pure h₂) fun _ _ _ _ => id) fun _ _ _ _ => id
  have hcheck : ∀ past s, Before site date time past s →
      trees.world.Ensures (KeepsStage trees site date time)
        (do
          if ← invoke v (.test (.extraction date time)) then raise v
          invoke v (.make (.extraction date time))
          let v := { v with extracted := true }
          invoke v (.tar (.extraction date time))
          return v)
        (fun _ past' new => past'.any vacates = false ∧ new =
          site.layout date time (site .data) (site (.previous date time)) (some trees.archived))
        (fun _ => Before site date time) past s := by
    intro past s h
    refine (ensures_before rfl h).seq (fun there past₁ s₁ _ h₁ => ?_) fun _ _ _ _ => id
    dsimp only
    split
    · exact World.Ensures.bind (World.ensures_throw h₁)
    · exact hfill past₁ s₁ h₁
  refine (ensures_before rfl h).seq (fun there past₁ s₁ _ h₁ => ?_) fun _ _ _ _ => id
  dsimp only
  split
  · exact (ensures_before rfl h₁).seq (fun _ past₂ s₂ _ h₂ => hcheck past₂ s₂ h₂) fun _ _ _ _ => id
  · exact hcheck past₁ s₁ h₁

/-- The data directory is free: the world that was there is set aside. -/
structure Aside (trees : Trees α) (site : Site α) (date time : ℕ) (b : Option α)
    (past : List (RestoreMove α)) (new : Site α) : Prop where
  layout : new = site.layout date time none b (some trees.archived)
  free : site .data = none ∧ b = site (.previous date time) ∨
    site .data = b ∧ site (.previous date time) = none
  quiet : past.any vacates = false

/-- `Test-Path` -/
theorem ensures_test (place : Place) (hs : Stage trees site date time s) :
    trees.world.Ensures (KeepsStage trees site date time) (invoke v (.test place))
      (fun there past' new => there = (s place).isSome ∧ s = new ∧ Quiet past past')
      (fun _ past' new => s = new ∧ Quiet past past' ∧
        past'.countP failed = past.countP failed + 1) past s := by
  refine ensures_invoke fun c _ => ⟨hs, ?_⟩
  have hquiet : Quiet past (trees.world.move s (.test place) c :: past) := quiet_cons rfl
  cases c with
  | none => exact ⟨rfl, rfl, hquiet⟩
  | some ending => exact ⟨rfl, hquiet, List.countP_cons_of_pos rfl⟩

/-- The data directory is moved. -/
theorem ensures_moveAside (hpast : past.any vacates = false) (hdata : site .data = some w)
    (hfree : site (.previous date time) = none)
    (hs : s = site.layout date time (some w) none (some trees.archived)) :
    trees.world.Ensures (KeepsStage trees site date time)
      (invoke v (.move .data (.previous date time)))
      (fun _ => Aside trees site date time (some w)) (fun _ => Settled trees site date time)
      past s := by
  have hbefore : Before site date time past s := by
    refine ⟨⟨some trees.archived, ?_⟩, hpast⟩
    rw [hdata, hfree, hs]
  have hmoved : s.move trees .data (.previous date time) =
      site.layout date time none (some w) (some trees.archived) := by
    rw [hs, move_aside]
  have hstage : Stage trees site date time (s.move trees .data (.previous date time)) := by
    rw [hmoved]
    exact .aside _ hdata hfree
  refine ensures_invoke fun c hc => ?_
  obtain ⟨ending, done⟩ := c
  cases ending with
  | none =>
    obtain rfl : done = true := ((Bool.and_eq_true _ _).mp hc).1
    exact ⟨hstage, hmoved, .inr ⟨hdata, hfree⟩, (quiet_cons rfl).2.trans hpast⟩
  | some ending =>
    cases done with
    | false =>
      have hquiet : vacates (trees.world.move s (.move .data (.previous date time))
          ⟨some ending, false⟩) = false := by
        change (s .data).isNone = false
        rw [hs, layout_data]
        rfl
      exact ⟨hbefore.stage, (hbefore.quiet_trans (quiet_cons hquiet)).settled⟩
    | true =>
      have hnone : ((s.move trees .data (.previous date time)) .data).isNone = true := by
        rw [hmoved, layout_data]
        rfl
      have hvacates : vacates (trees.world.move s (.move .data (.previous date time))
          ⟨some ending, true⟩) = true := hnone
      refine ⟨hstage, hstage, fun _ _ => ?_⟩
      rw [List.any_cons, hvacates, Bool.true_or]
      exact hnone

theorem ensures_setAside (hpast : past.any vacates = false) (hs : s =
      site.layout date time (site .data) (site (.previous date time)) (some trees.archived)) :
    trees.world.Ensures (KeepsStage trees site date time) (setAside date time v)
      (fun _ past' new => ∃ b, Aside trees site date time b past' new)
      (fun _ => Settled trees site date time) past s := by
  have hbefore : Before site date time past s := ⟨⟨_, hs⟩, hpast⟩
  refine (ensures_test .data hbefore.stage).seq (fun there past₁ s₁ _ h₁ => ?_)
    fun _ past₁ s₁ _ h₁ => ?_
  · obtain ⟨hthere, rfl, hquiet⟩ := h₁
    have hbefore₁ := hbefore.quiet_trans hquiet
    cases hdata : site .data with
    | none =>
      have hnone : there = false := by
        rw [hthere, hs, layout_data, hdata]
        rfl
      subst hnone
      refine World.ensures_pure ⟨site (.previous date time), ?_, .inl ⟨hdata, rfl⟩, hbefore₁.quiet⟩
      rw [hs, hdata]
    | some w =>
      have hsome : there = true := by
        rw [hthere, hs, layout_data, hdata]
        rfl
      subst hsome
      refine (ensures_test (.previous date time) hbefore₁.stage).seq
        (fun taken past₂ s₂ _ h₂ => ?_) fun _ past₂ s₂ _ h₂ => ?_
      · obtain ⟨htaken, rfl, hquiet₂⟩ := h₂
        have hbefore₂ := hbefore₁.quiet_trans hquiet₂
        cases hprevious : site (.previous date time) with
        | none =>
          have hfree : taken = false := by
            rw [htaken, hs, layout_previous, hprevious]
            rfl
          subst hfree
          refine (ensures_moveAside hbefore₂.quiet hdata hprevious ?_).mono
            (fun _ _ _ h => ⟨some w, h⟩) fun _ _ _ => id
          rw [hs, hdata, hprevious]
        | some w' =>
          have hnot : taken = true := by
            rw [htaken, hs, layout_previous, hprevious]
            rfl
          subst hnot
          exact World.Ensures.bind (World.ensures_throw hbefore₂.settled)
      · obtain ⟨rfl, hquiet₂, -⟩ := h₂
        exact (hbefore₁.quiet_trans hquiet₂).settled
  · obtain ⟨rfl, hquiet, -⟩ := h₁
    exact (hbefore.quiet_trans hquiet).settled

theorem countP_le_of_quiet (h : Quiet past past') : past.countP failed ≤ past'.countP failed :=
  h.1.sublist.countP_le

/-- What the `catch` block leaves: with no second failure, a data directory where one was left. -/
structure Returned (trees : Trees α) (site : Site α) (date time : ℕ) (past : List (RestoreMove α))
    (s : Site α) (past' : List (RestoreMove α)) (new : Site α) : Prop where
  stage : Stage trees site date time new
  quiet : Quiet past past'
  data : past'.countP failed ≤ 1 → (s .data).isSome ∨ (s (.previous date time)).isSome →
    (new .data).isSome

theorem Returned.of_failed (hstage : Stage trees site date time new) (hquiet : Quiet past past')
    (h : 1 < past'.countP failed) : Returned trees site date time past s past' new :=
  ⟨hstage, hquiet, fun hle => absurd h (Nat.not_lt_of_le hle)⟩

/-- The world that was set aside is moved back. -/
theorem ensures_takeBack (hs : Stage trees site date time s) (hdata : s .data = none)
    (hprevious : s (.previous date time) = some w)
    (hback : Stage trees site date time (s.move trees (.previous date time) .data))
    (hone : 1 ≤ past.countP failed) :
    trees.world.Ensures (KeepsStage trees site date time)
      (invoke v (.move (.previous date time) .data))
      (fun _ => Returned trees site date time past s)
      (fun _ => Returned trees site date time past s) past s := by
  refine ensures_invoke fun c hc => ?_
  obtain ⟨ending, done⟩ := c
  cases ending with
  | none =>
    obtain rfl : done = true := ((Bool.and_eq_true _ _).mp hc).1
    refine ⟨hback, hback, quiet_cons rfl, fun _ _ => ?_⟩
    change ((s.move trees (.previous date time) .data) .data).isSome = true
    rw [move_eq hdata, Function.update_self, hprevious]
    rfl
  | some ending =>
    have hcount : 1 < (trees.world.move s (.move (.previous date time) .data)
        ⟨some ending, done⟩ :: past).countP failed := by
      rw [List.countP_cons_of_pos rfl]
      exact Nat.lt_succ_of_le hone
    cases done with
    | false => exact ⟨hs, .of_failed hs (quiet_cons rfl) hcount⟩
    | true => exact ⟨hback, .of_failed hback (quiet_cons rfl) hcount⟩

/-- The `catch` block takes a world back where there is none. -/
theorem ensures_moveBack (hs : Stage trees site date time s)
    (hback : ∀ w, s .data = none → s (.previous date time) = some w →
      Stage trees site date time (s.move trees (.previous date time) .data))
    (hone : 1 ≤ past.countP failed) :
    trees.world.Ensures (KeepsStage trees site date time) (moveBack date time v)
      (fun _ _ _ => False) (fun _ => Returned trees site date time past s) past s := by
  refine (ensures_test (.previous date time) hs).seq (fun there past₁ s₁ _ h₁ => ?_)
    fun _ past₁ s₁ _ h₁ => ?_
  · obtain ⟨hthere, rfl, hquiet₁⟩ := h₁
    have hone₁ := Nat.le_trans hone (countP_le_of_quiet hquiet₁)
    cases hprevious : s (.previous date time) with
    | none =>
      have hnone : there = false := by
        rw [hthere, hprevious]
        rfl
      subst hnone
      refine World.ensures_throw ⟨hs, hquiet₁, fun _ hsome => ?_⟩
      rcases hsome with hdata | hother
      · exact hdata
      · rw [hprevious] at hother
        cases hother
    | some w =>
      have hsome : there = true := by
        rw [hthere, hprevious]
        rfl
      subst hsome
      refine (ensures_test .data hs).seq (fun present past₂ s₂ _ h₂ => ?_)
        fun _ past₂ s₂ _ h₂ => ?_
      · obtain ⟨hpresent, rfl, hquiet₂⟩ := h₂
        have hquiet := hquiet₁.trans hquiet₂
        cases hdata : s .data with
        | none =>
          have hnot : present = false := by
            rw [hpresent, hdata]
            rfl
          subst hnot
          have hone₂ := Nat.le_trans hone₁ (countP_le_of_quiet hquiet₂)
          refine (ensures_takeBack hs hdata hprevious (hback w hdata hprevious) hone₂).seq
            (fun _ past₃ s₃ _ h₃ => ?_) fun _ _ _ _ h₃ => ?_
          · exact World.ensures_throw ⟨h₃.stage, hquiet.trans h₃.quiet, h₃.data⟩
          · exact ⟨h₃.stage, hquiet.trans h₃.quiet, h₃.data⟩
        | some x =>
          have hso : present = true := by
            rw [hpresent, hdata]
            rfl
          subst hso
          refine World.ensures_throw ⟨hs, hquiet, fun _ _ => ?_⟩
          rw [hdata]
          rfl
      · obtain ⟨rfl, hquiet₂, hcount⟩ := h₂
        refine .of_failed hs (hquiet₁.trans hquiet₂) ?_
        rw [hcount]
        exact Nat.lt_succ_of_le hone₁
  · obtain ⟨rfl, hquiet, hcount⟩ := h₁
    refine .of_failed hs hquiet ?_
    rw [hcount]
    exact Nat.lt_succ_of_le hone

theorem Aside.stage (h : Aside trees site date time b past s) : Stage trees site date time s := by
  obtain ⟨rfl, ⟨hdata, rfl⟩ | ⟨hdata, hfree⟩, -⟩ := h
  · exact stage_before hdata rfl
  · cases b with
    | none => exact stage_before hdata hfree
    | some w => exact .aside _ hdata hfree

theorem Aside.stage_back (h : Aside trees site date time (some w) past s) :
    Stage trees site date time (s.move trees (.previous date time) .data) := by
  obtain ⟨rfl, hfree, -⟩ := h
  rw [move_back]
  rcases hfree with ⟨hdata, hprevious⟩ | ⟨hdata, hprevious⟩
  · exact .takenBack _ hdata hprevious.symm
  · exact stage_before hdata hprevious

theorem Aside.moved (h : Aside trees site date time b past s) :
    s.move trees (.extraction date time) .data =
      site.layout date time (some trees.archived) b none := by
  rw [h.layout, move_inPlace]

theorem Aside.stage_moved (h : Aside trees site date time b past s) :
    Stage trees site date time (s.move trees (.extraction date time) .data) := by
  rw [h.moved]
  rcases h.free with ⟨hdata, rfl⟩ | ⟨hdata, hfree⟩
  · exact .placed hdata
  · cases b with
    | none => exact stage_placed hdata hfree
    | some w => exact .replaced hdata hfree

/-- The world that was in the data directory is set aside. -/
theorem Aside.isSome (h : Aside trees site date time b past s) (hdata : (site .data).isSome) :
    (s (.previous date time)).isSome := by
  rw [h.layout, layout_previous]
  rcases h.free with ⟨hnone, -⟩ | ⟨hb, -⟩
  · rw [hnone] at hdata
    cases hdata
  · rwa [← hb]

/-- The archive's world is in the data directory. -/
structure Replaced (trees : Trees α) (site : Site α) (date time : ℕ) (past : List (RestoreMove α))
    (new : Site α) : Prop where
  stage : Stage trees site date time new
  data : new .data = some trees.archived
  quiet : past.any vacates = false

/-- What the second move leaves, done or not. -/
def Site.replaced (trees : Trees α) (s : Site α) (date time : ℕ) (done : Bool) : Site α :=
  if done then s.move trees (.extraction date time) .data else s

/-- After the second move raised, there is something that can be in the data directory. -/
theorem Aside.returned {done : Bool} (h : Aside trees site date time b past s)
    (hquiet : past'.any vacates = false)
    (hreturned : Returned trees site date time past' (s.replaced trees date time done) past'' new) :
    Settled trees site date time past'' new := by
  refine ⟨hreturned.stage, fun hdata hone => ?_⟩
  rw [hreturned.quiet.2, hquiet, Option.isNone_eq_false_iff]
  refine hreturned.data hone ?_
  cases done with
  | false => exact .inr (h.isSome hdata)
  | true =>
    refine .inl ?_
    change ((s.move trees (.extraction date time) .data) .data).isSome = true
    rw [h.moved, layout_data]
    rfl

theorem Aside.catch_stage {done : Bool} (h : Aside trees site date time b past s)
    (hdata : (s.replaced trees date time done) .data = none)
    (hprevious : (s.replaced trees date time done) (.previous date time) = some w) :
    Stage trees site date time ((s.replaced trees date time done).move trees
      (.previous date time) .data) := by
  cases done with
  | false =>
    obtain rfl : b = some w := by
      rw [← hprevious]
      change b = s (.previous date time)
      rw [h.layout, layout_previous]
    exact h.stage_back
  | true =>
    change (s.move trees (.extraction date time) .data) .data = none at hdata
    rw [h.moved, layout_data] at hdata
    cases hdata

theorem ensures_putInPlace (h : Aside trees site date time b past s) :
    trees.world.Ensures (KeepsStage trees site date time) (putInPlace date time v)
      (fun _ => Replaced trees site date time) (fun _ => Settled trees site date time) past s := by
  have hdata : (s.move trees (.extraction date time) .data) .data = some trees.archived := by
    rw [h.moved, layout_data]
  refine World.Ensures.bind (World.ensures_tryCatch (ensures_invoke fun c hc => ?_))
  obtain ⟨ending, done⟩ := c
  have hleft : Stage trees site date time (s.replaced trees date time done) := by
    rw [Site.replaced]
    split
    · exact h.stage_moved
    · exact h.stage
  refine ⟨hleft, ?_⟩
  cases ending with
  | none =>
    obtain rfl : done = true := ((Bool.and_eq_true _ _).mp hc).1
    exact World.ensures_pure ⟨h.stage_moved, hdata, (quiet_cons rfl).2.trans h.quiet⟩
  | some ending =>
    cases ending with
    | exception =>
      have hquiet : (trees.world.move s (.move (.extraction date time) .data)
          ⟨some .exception, done⟩ :: past).any vacates = false :=
        (quiet_cons rfl).2.trans h.quiet
      have hcount : 1 ≤ (trees.world.move s (.move (.extraction date time) .data)
          ⟨some .exception, done⟩ :: past).countP failed := by
        rw [List.countP_cons_of_pos rfl]
        exact Nat.le_add_left 1 _
      exact (ensures_moveBack hleft (fun _ => h.catch_stage) hcount).mono
        (fun _ _ _ hno => hno.elim) fun _ _ _ hreturned => h.returned hquiet hreturned
    | interrupted =>
      refine World.ensures_throw ⟨hleft, fun _ _ => ?_⟩
      rw [List.any_cons, h.quiet, Bool.or_false]
      rfl

/-! ### A run -/

theorem Replaced.settled (h : Replaced trees site date time past s) :
    Settled trees site date time past s := by
  refine ⟨h.stage, fun _ _ => ?_⟩
  rw [h.quiet, h.data]
  rfl

theorem Replaced.quiet_trans (h : Replaced trees site date time past s)
    (hquiet : Quiet past past') : Replaced trees site date time past' s :=
  ⟨h.stage, h.data, hquiet.2.trans h.quiet⟩

theorem ensures_restoreBody (start : Bool) (h : Before site date time past s) :
    trees.world.Ensures (KeepsStage trees site date time) (restoreBody start date time v)
      (fun _ => Replaced trees site date time) (fun _ => Settled trees site date time) past s := by
  refine (ensures_before rfl h).seq (fun _ past₁ s₁ _ h₁ => ?_) fun _ _ _ _ h₁ => h₁.settled
  refine (harmless_stopCompose h₁.stage).seq (fun _ past₂ s₂ _ h₂ => ?_) fun _ past₂ s₂ _ h₂ => ?_
  · obtain ⟨rfl, hquiet⟩ := h₂
    refine (ensures_extract (h₁.quiet_trans hquiet)).seq (fun v₃ past₃ s₃ _ h₃ => ?_)
      fun _ _ _ _ h₃ => h₃.settled
    refine (ensures_setAside h₃.1 h₃.2).seq (fun _ past₄ s₄ _ h₄ => ?_) fun _ _ _ _ => id
    obtain ⟨b, h₄⟩ := h₄
    refine (ensures_putInPlace h₄).seq (fun v₅ past₅ s₅ _ h₅ => ?_) fun _ _ _ _ => id
    refine (harmless_announce start h₅.stage).seq (fun _ past₆ s₆ _ h₆ => ?_)
      fun _ past₆ s₆ _ h₆ => ?_
    · obtain ⟨rfl, hquiet₆⟩ := h₆
      exact World.ensures_pure (h₅.quiet_trans hquiet₆)
    · obtain ⟨rfl, hquiet₆⟩ := h₆
      exact (h₅.quiet_trans hquiet₆).settled
  · obtain ⟨rfl, hquiet⟩ := h₂
    exact (h₁.quiet_trans hquiet).settled

/-- What the `finally` block leaves. -/
structure Cleaned (trees : Trees α) (site : Site α) (date time : ℕ) (past : List (RestoreMove α))
    (s : Site α) (past' : List (RestoreMove α)) (new : Site α) : Prop where
  stage : Stage trees site date time new
  quiet : Quiet past past'
  data : new .data = s .data

theorem harmless_leave :
    Harmless trees (do
      if v.locationPushed then invoke v .location
      invoke v .unlock) :=
  (harmless_invoke (q := .unlock) rfl).when (harmless_invoke (q := .location) rfl)

/-- `Remove-Item` of the extraction directory, whatever comes of it. -/
theorem ensures_remove (hs : Stage trees site date time s)
    (hsome : (s (.extraction date time)).isSome) :
    trees.world.Ensures (KeepsStage trees site date time)
      (ExceptT.lift (request (.remove (.extraction date time))) : RestoreM _)
      (fun _ => Cleaned trees site date time past s) (fun _ _ _ => False) past s := by
  refine World.ensures_request fun c _ => ?_
  have hcleaned : Cleaned trees site date time past s
      (trees.world.move s (.remove (.extraction date time)) c :: past)
      (c.leaves none s (.extraction date time)) := by
    rcases leaves_cases c none s (.extraction date time) with hnew | ⟨left, hnew⟩
    · rw [hnew]
      exact ⟨hs, quiet_cons rfl, rfl⟩
    · rw [hnew]
      exact ⟨hs.update hsome left, quiet_cons rfl, Function.update_of_ne (by simp) ..⟩
  exact ⟨hcleaned.stage, hcleaned⟩

theorem ensures_restoreFinally (hs : Stage trees site date time s) :
    trees.world.Ensures (KeepsStage trees site date time) (restoreFinally date time v)
      (fun _ => Cleaned trees site date time past s)
      (fun _ => Cleaned trees site date time past s) past s := by
  have hleave : ∀ past₁ s₁, Cleaned trees site date time past s past₁ s₁ →
      trees.world.Ensures (KeepsStage trees site date time)
        (do
          if v.locationPushed then invoke v .location
          invoke v .unlock)
        (fun _ => Cleaned trees site date time past s)
        (fun _ => Cleaned trees site date time past s) past₁ s₁ := by
    intro past₁ s₁ h₁
    refine (harmless_leave h₁.stage).mono (fun _ past₂ s₂ h₂ => ?_) fun _ past₂ s₂ h₂ => ?_
    · obtain ⟨rfl, hquiet⟩ := h₂
      exact ⟨h₁.stage, h₁.quiet.trans hquiet, h₁.data⟩
    · obtain ⟨rfl, hquiet⟩ := h₂
      exact ⟨h₁.stage, h₁.quiet.trans hquiet, h₁.data⟩
  unfold restoreFinally
  dsimp only
  split
  · refine (ensures_test (.extraction date time) hs).seq (fun there past₁ s₁ _ h₁ => ?_)
      fun _ past₁ s₁ _ h₁ => ?_
    · obtain ⟨hthere, rfl, hquiet⟩ := h₁
      split
      · rename_i hpresent
        have hsome : (s (.extraction date time)).isSome := hthere.symm.trans hpresent
        refine World.Ensures.bind ?_
        refine World.Ensures.bind ((ensures_remove hs hsome).mono (fun _ past₂ s₂ h₂ => ?_)
          fun _ _ _ hno => hno.elim)
        exact hleave past₂ s₂ ⟨h₂.stage, hquiet.trans h₂.quiet, h₂.data⟩
      · exact hleave past₁ s ⟨hs, hquiet, rfl⟩
    · obtain ⟨rfl, hquiet, -⟩ := h₁
      exact ⟨hs, hquiet, rfl⟩
  · exact hleave past s ⟨hs, quiet_refl past, rfl⟩

theorem Settled.cleaned (h : Settled trees site date time past s)
    (hcleaned : Cleaned trees site date time past s past' new) :
    Settled trees site date time past' new := by
  refine ⟨hcleaned.stage, fun hdata hone => ?_⟩
  rw [hcleaned.data, hcleaned.quiet.2]
  exact h.data hdata (Nat.le_trans (countP_le_of_quiet hcleaned.quiet) hone)

theorem ensures_restoreLocked (start : Bool) (h : Before site date time past s) :
    trees.world.Ensures (KeepsStage trees site date time) (restoreLocked start date time v)
      (fun _ past' new => Settled trees site date time past' new ∧ new .data = some trees.archived)
      (fun _ => Settled trees site date time) past s := by
  refine World.guarantees_bind.mpr (World.Guarantees.mono ?_ (ensures_restoreBody start h))
  intro result past₁ s₁ h₁
  cases result with
  | ok v₁ =>
    have hreplaced : Replaced trees site date time past₁ s₁ := h₁
    refine (ensures_restoreFinally hreplaced.stage).mono (fun _ past₂ s₂ h₂ => ?_)
      fun _ past₂ s₂ h₂ => ?_
    · exact ⟨hreplaced.settled.cleaned h₂, h₂.data.trans hreplaced.data⟩
    · exact hreplaced.settled.cleaned h₂
  | error e =>
    have hsettled : Settled trees site date time past₁ s₁ := h₁
    refine (ensures_restoreFinally hsettled.stage).seq (fun _ past₂ s₂ _ h₂ => ?_)
      fun _ past₂ s₂ _ h₂ => ?_
    · exact World.ensures_throw (hsettled.cleaned h₂)
    · exact hsettled.cleaned h₂

/-- Every move leads to a stage of a run at some time. -/
def KeepsSomeStage (trees : Trees α) (site : Site α) (_ : List (RestoreMove α))
    (m : RestoreMove α) : Prop :=
  ∃ date time, Stage trees site date time m.after

/-- How a run ends. -/
def Ends (trees : Trees α) (site : Site α) (past : List (RestoreMove α)) (new : Site α) : Prop :=
  ∃ date time, Settled trees site date time past new

theorem Before.start (site : Site α) (date time : ℕ) (hpast : past.any vacates = false) :
    Before site date time past site :=
  ⟨⟨site (.extraction date time), (layout_self site date time).symm⟩, hpast⟩

/-- A part of the script before the lock is taken. -/
theorem Harmless.start {p : RestoreM β} (h : Harmless trees p)
    (hpast : past.any vacates = false) :
    trees.world.Ensures (KeepsSomeStage trees site) p
      (fun _ past' new => site = new ∧ past'.any vacates = false) (fun _ => Ends trees site)
      past site := by
  refine ((h (Stage.start trees site 0 0)).weaken fun _ _ hm => ⟨0, 0, hm⟩).mono
    (fun _ past' new hnew => ⟨hnew.1.symm, hnew.2.2.trans hpast⟩) fun _ past' new hnew => ?_
  obtain ⟨rfl, hquiet⟩ := hnew
  exact ⟨0, 0, (Before.start new 0 0 (hquiet.2.trans hpast)).settled⟩

/-- **A run of the script.** -/
theorem ensures_restorePZLocal (trees : Trees α) (site : Site α) (start : Bool) :
    trees.world.Ensures (KeepsSomeStage trees site) (restorePZLocal start)
      (fun _ past' new => Ends trees site past' new ∧ new .data = some trees.archived)
      (fun _ => Ends trees site) [] site := by
  refine (harmless_verifyArchive.start rfl).seq (fun _ past₁ s₁ _ h₁ => ?_) fun _ _ _ _ => id
  obtain ⟨rfl, hpast₁⟩ := h₁
  refine ((harmless_invoke (q := .lock) rfl).start hpast₁).seq (fun taken past₂ s₂ _ h₂ => ?_)
    fun _ _ _ _ => id
  obtain ⟨rfl, hpast₂⟩ := h₂
  have hrest : ∀ past, past.any vacates = false →
      trees.world.Ensures (KeepsSomeStage trees site)
        (do
          let now ← invoke ⟨false, false⟩ .date
          restoreLocked start now.1 now.2 ⟨false, false⟩)
        (fun _ past' new => Ends trees site past' new ∧ new .data = some trees.archived)
        (fun _ => Ends trees site) past site := by
    intro past hpast
    refine ((harmless_invoke (q := .date) rfl).start hpast).seq (fun now past₃ s₃ _ h₃ => ?_)
      fun _ _ _ _ => id
    obtain ⟨rfl, hpast₃⟩ := h₃
    refine (World.Ensures.weaken (ensures_restoreLocked start
      (Before.start site now.1 now.2 hpast₃)) fun _ _ hm => ⟨now.1, now.2, hm⟩).mono ?_ ?_
    · exact fun _ _ _ h => ⟨⟨now.1, now.2, h.1⟩, h.2⟩
    · exact fun _ _ _ h => ⟨now.1, now.2, h⟩
  cases taken with
  | true => exact hrest past₂ hpast₂
  | false =>
    refine ((harmless_invoke (q := .unlock) rfl).start hpast₂).seq (fun _ past₃ s₃ _ h₃ => ?_)
      fun _ _ _ _ => id
    obtain ⟨rfl, hpast₃⟩ := h₃
    have hends : Ends trees site past₃ site := ⟨0, 0, (Before.start site 0 0 hpast₃).settled⟩
    exact World.Ensures.bind (World.ensures_throw hends)

/-! ### The results -/

/-- Runs of the script on a data directory, each to its end or cut off anywhere, and with any
archive, and play in between. A world that is played on becomes a later one. -/
inductive Restores [LE α] (empty : α) (nest : α → α → α) (site : Site α) : Site α → Prop where
  | start : Restores empty nest site site
  | run {s new : Site α} {archived : α} {start : Bool} {past : List (RestoreMove α)}
    {rest : Program RestoreCommand RestoreReply (Except Ended Unit)}
    (h : Restores empty nest site s)
    (he : (Trees.world ⟨empty, nest, archived⟩).Exec (restorePZLocal start).run [] s rest past
      new) : Restores empty nest site new
  | play {s : Site α} {w : α} (h : Restores empty nest site s)
    (hle : ∀ w', s .data = some w' → w' ≤ w) :
    Restores empty nest site (Function.update s .data (some w))

/-- **No world is lost**: over any number of runs, wherever they were cut off, a world that was in
the data directory or in a safety directory still is, or a later one is. -/
theorem Restores.no_loss [Preorder α] {empty : α} {nest : α → α → α}
    (h : Restores empty nest site new) (hw : site.Holds w) : ∃ w', w ≤ w' ∧ new.Holds w' := by
  induction h with
  | start => exact ⟨w, le_refl w, hw⟩
  | @run s new archived start past rest h he ih =>
    obtain ⟨w', hle, hholds⟩ := ih
    have hguarantees : (Trees.world ⟨empty, nest, archived⟩).Guarantees (KeepsSomeStage _ s)
      (restorePZLocal start).run _ [] s := ensures_restorePZLocal ⟨empty, nest, archived⟩ s start
    obtain ⟨date, time, hstage⟩ := hguarantees.exec_after
      (K := fun _ new => ∃ date time, Stage ⟨empty, nest, archived⟩ s date time new)
      (fun _ _ hm => hm) he ⟨0, 0, Stage.start _ s 0 0⟩
    exact ⟨w', hle, hstage.holds hholds⟩
  | @play s played h hle ih =>
    obtain ⟨w', hw', hholds⟩ := ih
    rcases hholds with hdata | ⟨date, time, hprevious⟩
    · exact ⟨played, le_trans hw' (hle w' hdata), .inl (Function.update_self ..)⟩
    · exact ⟨w', hw', .inr ⟨date, time, (Function.update_of_ne (by simp) ..).trans hprevious⟩⟩

/-- A world that is at its second stage. -/
def played : Site ℕ := fun place => if place = .data then some 1 else none

/-- A hash, and a checksum file's line that starts with it. -/
def hash : String := String.ofList (List.replicate 64 'a')

/-- A local host on which every command succeeds, but the second move ends like this. -/
def localHost (taken : MovedItem) : (Trees.world (α := ℕ) ⟨0, (· + ·), 3⟩).Oracle := fun _ _ q =>
  match q with
  | .testArchive | .testChecksum | .findTar | .lock | .testParent => .ok true
  | .readChecksum => .ok (hash ++ "  pz.tar.gz")
  | .fileHash => .ok hash
  | .composeConfig => .ok 1
  | .date => .ok (20260101, 0)
  | .composePs => .ok []
  | .inspect _ => .ok ⟨false, false⟩
  | .test _ => (none : Option Ending)
  | .make _ | .tar _ | .remove _ => ⟨none, none⟩
  | .move (.extraction ..) _ => taken
  | .move .. => ⟨none, true⟩
  | .location | .composeDown | .makeParent | .log | .composeUp | .unlock => .ok ()

/-- A run that is cut off between the two moves: the world is in the safety directory. -/
theorem Restores.no_loss_interrupted :
    ∃ new : Site ℕ, Restores 0 (· + ·) played new ∧ new .data = none ∧
      new (.previous 20260101 0) = some 2 ∧ ∃ w', 1 ≤ w' ∧ new.Holds w' := by
  have hplayed : Restores 0 (· + ·) played (Function.update played .data (some 2)) :=
    .play .start fun w' hw' => (Option.some.inj hw') ▸ Nat.le_succ 1
  have he := (Trees.world ⟨0, (· + ·), 3⟩).exec_runFor (localHost ⟨none, true⟩) 18
    (restorePZLocal false).run [] (Function.update played .data (some 2)) (by decide +kernel)
  have hrun := Restores.run hplayed he
  exact ⟨_, hrun, by decide +kernel, by decide +kernel, hrun.no_loss (.inl rfl)⟩

theorem Stage.survives_iff (h : Stage trees site date time s) (hdata : site .data = some w) :
    (s .data = some w ∨ s .data = some trees.archived) ↔ (s .data).isNone = false := by
  constructor
  · rintro (hs | hs)
    · rw [hs]
      rfl
    · rw [hs]
      rfl
  · intro hsome
    cases h with
    | before e => exact .inl (layout_data.trans hdata)
    | aside e hdata' hfree =>
      rw [layout_data] at hsome
      cases hsome
    | replaced hdata' hfree => exact .inr layout_data
    | placed hnone => exact .inr layout_data
    | takenBack e hnone hprevious => exact absurd (hdata.symm.trans hnone) (Option.some_ne_none w)

/-- **When a world is left in the data directory**: where a run ends in which at most one command
failed, the old world is there or the archive's, unless the command was the first move, done all the
same, or an interruption of the second one. A run that returns has put the archive's there. -/
theorem restorePZLocal_survives_iff {start : Bool} {result : Except Ended Unit}
    (hdata : site .data = some w) (hone : past.countP failed ≤ 1)
    (he : trees.world.Exec (restorePZLocal start).run [] site (.done result) past new) :
    ((new .data = some w ∨ new .data = some trees.archived) ↔ ∀ m ∈ past, vacates m = false) ∧
      (result = .ok () → new .data = some trees.archived) := by
  have hguarantees : trees.world.Guarantees (KeepsSomeStage trees site)
    (restorePZLocal start).run _ [] site := ensures_restorePZLocal trees site start
  have hend := hguarantees.exec_done he
  have hends : Ends trees site past new := by
    cases result with
    | ok => exact hend.1
    | error e => exact hend
  obtain ⟨date, time, hstage, hsettled⟩ := hends
  have hvacated := hsettled (by rw [hdata]; rfl) hone
  constructor
  · rw [hstage.survives_iff hdata, hvacated, List.any_eq_false]
    simp only [Bool.not_eq_true]
  · rintro rfl
    exact hend.2

/-- The second move raises, and the first one is undone; and it is interrupted. -/
theorem restorePZLocal_survives_undone :
    (∃ past new, (Trees.world ⟨0, (· + ·), 3⟩).Exec (restorePZLocal true).run [] played
        (.done (.error ⟨.exception, ⟨true, true⟩⟩)) past new ∧
      (new .data = some 1 ∨ new .data = some 3)) ∧
    ∃ past new, (Trees.world ⟨0, (· + ·), 3⟩).Exec (restorePZLocal true).run [] played
        (.done (.error ⟨.interrupted, ⟨true, true⟩⟩)) past new ∧
      ¬ (new .data = some 1 ∨ new .data = some 3) := by
  have hdata : played .data = some 1 := rfl
  constructor
  · have hrun := (Trees.world ⟨0, (· + ·), 3⟩).exec_runFor (localHost ⟨some .exception, false⟩) 40
      (restorePZLocal true).run [] played (by decide +kernel)
    have hdone : ((Trees.world ⟨0, (· + ·), 3⟩).runFor (localHost ⟨some .exception, false⟩) 40
        (restorePZLocal true).run [] played).1 =
          .done (.error ⟨.exception, ⟨true, true⟩⟩) := by rfl
    rw [hdone] at hrun
    refine ⟨_, _, hrun, (restorePZLocal_survives_iff hdata ?_ hrun).1.mpr ?_⟩
    · decide +kernel
    · decide +kernel
  · have hrun := (Trees.world ⟨0, (· + ·), 3⟩).exec_runFor (localHost ⟨some .interrupted, false⟩) 40
      (restorePZLocal true).run [] played (by decide +kernel)
    have hdone : ((Trees.world ⟨0, (· + ·), 3⟩).runFor (localHost ⟨some .interrupted, false⟩) 40
        (restorePZLocal true).run [] played).1 =
          .done (.error ⟨.interrupted, ⟨true, true⟩⟩) := by rfl
    rw [hdone] at hrun
    refine ⟨_, _, hrun, mt (restorePZLocal_survives_iff hdata ?_ hrun).1.mp ?_⟩
    · decide +kernel
    · decide +kernel

end Restore

end PzServer
