import PzServer.Updater.Runs

/-!
# Release directories that nothing names

A candidate takes gigabytes, and only what the disk names is ever removed again: the record names a
candidate while it is staged, `active-release` and `previous-release` name what was installed. A
directory that nothing names is an orphan, and stays for good.

`orphans` reads off the moves of an operation which orphans it leaves. There are two ways. A
directory is made before the record names it, so an operation that is killed in between leaves it,
and so does one that can neither write the record nor remove the directory again. And the handlers
of a failed update ignore that a directory could not be removed, and then write a record that no
longer names it.

`Tracked` says that these are all the ways: at every point of an operation, each directory is named
or among the orphans so far. This file has the rules for it, one for each kind of request.

## Main definitions

* `Disk.Names`, `Tidy` — what names a release
* `orphans` — the directories an operation leaves behind
* `Tracked`, `Tracks` — each directory is named or accounted for
-/

namespace PzServer

namespace Updater

open Interaction

variable {α : Type} {s new : Disk} {past : List UpdaterMove} {r : Release}
  {ok : α → List UpdaterMove → Disk → Prop} {err : Err → List UpdaterMove → Disk → Prop}

/-! ### Names -/

/-- The record names release `r`. -/
def Record.Names (v : Record) (r : Release) : Prop :=
  v.candidateRelease = some r ∨ v.promotedRelease = some r

instance (v : Record) (r : Release) : Decidable (v.Names r) := inferInstanceAs (Decidable (_ ∨ _))

/-- One of the pointers or the record names release `r`. -/
def Disk.Names (d : Disk) (r : Release) : Prop :=
  d.active = some r ∨ d.previous = some r ∨ d.loaded.Names r

instance (d : Disk) (r : Release) : Decidable (d.Names r) := inferInstanceAs (Decidable (_ ∨ _))

/-- Every directory under `releases/` is named. -/
def Tidy (d : Disk) : Prop := ∀ r, (d.releases r).isSome → d.Names r

/-! ### Orphans -/

/-- The directories that were made, and since then neither named by a record nor removed. -/
def unrecorded : List UpdaterMove → List Release
  | [] => []
  | ⟨.mkdir r, .ok _, _, _⟩ :: past => r :: unrecorded past
  | ⟨.rmtree r, .ok _, _, _⟩ :: past => (unrecorded past).filter (· ≠ r)
  | ⟨.writeState value, _, _, after⟩ :: past =>
    if after.record = some value then (unrecorded past).filter (¬ value.Names ·)
    else unrecorded past
  | _ :: past => unrecorded past

/-- The directories that the record named when removing them failed, and that have not been removed
since. -/
def stuck : List UpdaterMove → List Release
  | [] => []
  | ⟨.rmtree r, .ok _, _, _⟩ :: past => (stuck past).filter (· ≠ r)
  | ⟨.rmtree r, .error _, before, after⟩ :: past =>
    if before.loaded.Names r ∧ (after.releases r).isSome then r :: stuck past else stuck past
  | _ :: past => stuck past

/-- The directories that a record stopped naming after removing them had failed. -/
def dropped : List UpdaterMove → List Release
  | [] => []
  | ⟨.writeState value, _, _, after⟩ :: past =>
    if after.record = some value then (stuck past).filter (¬ value.Names ·) ++ dropped past
    else dropped past
  | _ :: past => dropped past

/-- What an operation that made these moves leaves behind. -/
def orphans (past : List UpdaterMove) : List Release := unrecorded past ++ dropped past

/-- Each directory is named or an orphan. -/
def Tracked (past : List UpdaterMove) (s : Disk) : Prop :=
  ∀ r, (s.releases r).isSome → s.Names r ∨ r ∈ orphans past

/-- **Where nothing is left behind, every directory is named.** -/
theorem Tracked.named (h : Tracked past s) (hnone : orphans past = []) : Tidy s := by
  intro r hr
  rcases h r hr with hnamed | horphan
  · exact hnamed
  · simp [hnone] at horphan

theorem Tidy.tracked (h : Tidy s) : Tracked [] s := fun r hr => .inl (h r hr)

/-! ### One move -/

/-- The requests that make or remove no release directory and write no record. -/
def Request.Inert : Request → Prop
  | .mkdir _ | .rmtree _ | .writeState _ => False
  | _ => True

theorem orphans_inert {q : Request} (hq : q.Inert) {reply : Reply q} :
    orphans (⟨q, reply, s, new⟩ :: past) = orphans past := by
  cases q <;> first
    | exact hq.elim
    | rfl

theorem stuck_inert {q : Request} (hq : q.Inert) {reply : Reply q} :
    stuck (⟨q, reply, s, new⟩ :: past) = stuck past := by
  cases q <;> first
    | exact hq.elim
    | rfl

/-- The record and the pointers are the same, and no directory has been made. -/
structure Shrunk (s new : Disk) : Prop where
  record : new.record = s.record
  active : new.active = s.active
  previous : new.previous = s.previous
  present : ∀ r, (new.releases r).isSome → (s.releases r).isSome

theorem Shrunk.refl (s : Disk) : Shrunk s s := ⟨rfl, rfl, rfl, fun _ => id⟩

theorem Shrunk.trans {s₁ s₂ s₃ : Disk} (h : Shrunk s₁ s₂) (h' : Shrunk s₂ s₃) : Shrunk s₁ s₃ :=
  ⟨h'.record.trans h.record, h'.active.trans h.active, h'.previous.trans h.previous,
    fun r hr => h.present r (h'.present r hr)⟩

theorem Shrunk.loaded (h : Shrunk s new) : new.loaded = s.loaded := by
  rw [Disk.loaded, Disk.loaded, h.record]

theorem Shrunk.names (h : Shrunk s new) : new.Names r ↔ s.Names r := by
  rw [Disk.Names, Disk.Names, h.active, h.previous, h.loaded]

theorem Shrunk.inDirectory (s : Disk) (r : Release) (f : Directory → Directory) :
    Shrunk s (s.inDirectory r f) := by
  unfold Disk.inDirectory
  split
  · exact .refl s
  · rename_i D hD
    refine ⟨rfl, rfl, rfl, fun q hq => ?_⟩
    by_cases hqr : q = r
    · rw [hqr, hD]
      rfl
    · rwa [s.setDirectory_of_ne _ hqr] at hq

/-- Where nothing new has to be accounted for. -/
theorem Tracked.shrunk {past' : List UpdaterMove} (h : Tracked past s) (hs : Shrunk s new)
    (horphans : ∀ r, (new.releases r).isSome → r ∈ orphans past → r ∈ orphans past') :
    Tracked past' new := by
  intro r hr
  rcases h r (hs.present r hr) with hnamed | horphan
  · exact .inl (hs.names.mpr hnamed)
  · exact .inr (horphans r hr horphan)

/-- Release `r` is gone, or removing it has failed. -/
def Tried (r : Release) (past : List UpdaterMove) (s : Disk) : Prop :=
  (s.releases r).isSome → r ∈ stuck past

theorem Tried.shrunk {past' : List UpdaterMove} (h : Tried r past s) (hs : Shrunk s new)
    (hstuck : (new.releases r).isSome → r ∈ stuck past → r ∈ stuck past') : Tried r past' new :=
  fun hr => hstuck hr (h (hs.present r hr))

theorem Tried.of_none (h : s.releases r = none) : Tried r past s := by
  intro hr
  rw [h] at hr
  cases hr

/-- What steps lead to that make no directory and write no record. -/
structure Leads (past : List UpdaterMove) (s : Disk) (past' : List UpdaterMove) (new : Disk) :
    Prop where
  shrunk : Shrunk s new
  tracked : Tracked past' new
  tried : ∀ r, Tried r past s → Tried r past' new

theorem Leads.trans {past₁ past₂ past₃ : List UpdaterMove} {s₁ s₂ s₃ : Disk}
    (h : Leads past₁ s₁ past₂ s₂) (h' : Leads past₂ s₂ past₃ s₃) :
    Leads past₁ s₁ past₃ s₃ :=
  ⟨h.shrunk.trans h'.shrunk, h'.tracked, fun r hr => h'.tried r (h.tried r hr)⟩

theorem Tracked.leads (h : Tracked past s) : Leads past s past s :=
  ⟨.refl s, h, fun _ => id⟩

/-! ### Rules -/

/-- What every execution of `p` does, when each of its moves leaves a tracked disk. -/
abbrev Tracks (p : UpdaterM α) (ok : α → List UpdaterMove → Disk → Prop)
    (err : Err → List UpdaterMove → Disk → Prop) (past : List UpdaterMove) (s : Disk) : Prop :=
  world.Ensures (fun past m => Tracked (m :: past) m.after) p ok err past s

/-- Anything may have been raised. -/
def Tracking (_ : Err) (past : List UpdaterMove) (s : Disk) : Prop := Tracked past s

/-- One request, from what is known of its answers. -/
theorem tracks_answer {q : Request} {ok : Value q → List UpdaterMove → Disk → Prop}
    {R : Reply q → Disk → Prop}
    (hanswer : ∀ c, allowed s q c = true → R (answer s q c).1 (answer s q c).2)
    (hmove : ∀ reply new, R reply new → Tracked (⟨q, reply, s, new⟩ :: past) new)
    (hok : ∀ v new, R (.ok v) new → ok v (⟨q, .ok v, s, new⟩ :: past) new)
    (herr : ∀ e new, R (.error e) new → err e (⟨q, .error e, s, new⟩ :: past) new) :
    Tracks (ask q) ok err past s := by
  refine World.ensures_ask fun c hc => ?_
  have hR := hanswer c hc
  refine ⟨hmove _ _ hR, ?_⟩
  simp only [world, World.move]
  cases hr : (answer s q c).1 with
  | ok v =>
    rw [hr] at hR
    simpa [hr] using hok v _ hR
  | error e =>
    rw [hr] at hR
    simpa [hr] using herr e _ hR

/-- One request, from its effect. -/
theorem tracks_ask {q : Request} {ok : Value q → List UpdaterMove → Disk → Prop}
    (hmove : ∀ reply new, Effect s new q reply → Tracked (⟨q, reply, s, new⟩ :: past) new)
    (hok : ∀ v new, Effect s new q (.ok v) → ok v (⟨q, .ok v, s, new⟩ :: past) new)
    (herr : ∀ e new, Effect s new q (.error e) → err e (⟨q, .error e, s, new⟩ :: past) new) :
    Tracks (ask q) ok err past s :=
  tracks_answer (R := fun reply new => Effect s new q reply) (fun _ hc => effect_answer hc) hmove
    hok herr

/-- One request that makes no directory and touches no name. -/
theorem tracks_inert {q : Request} {ok : Value q → List UpdaterMove → Disk → Prop} (hq : q.Inert)
    (h : Tracked past s) (hs : ∀ reply new, Effect s new q reply → Shrunk s new)
    (hok : ∀ v past' new, Effect s new q (.ok v) → Leads past s past' new → ok v past' new)
    (herr : ∀ e past' new, Effect s new q (.error e) → Leads past s past' new →
      err e past' new) :
    Tracks (ask q) ok err past s := by
  have hfollows : ∀ reply new, Effect s new q reply →
      Leads past s (⟨q, reply, s, new⟩ :: past) new := by
    intro reply new he
    refine ⟨hs reply new he, h.shrunk (hs reply new he) fun r _ horphan => ?_, fun r htried => ?_⟩
    · rwa [orphans_inert hq]
    · exact htried.shrunk (hs reply new he) fun _ hstuck => by rwa [stuck_inert hq]
  refine tracks_ask (fun reply new he => (hfollows reply new he).tracked) (fun v new he => ?_)
    fun e new he => ?_
  · exact hok v _ new he (hfollows _ new he)
  · exact herr e _ new he (hfollows _ new he)

theorem Request.Reads.inert {q : Request} (hq : q.Reads) : q.Inert := by
  cases q <;> first
    | exact hq.elim
    | trivial

/-- One request that changes nothing. -/
theorem tracks_read {q : Request} {ok : Value q → List UpdaterMove → Disk → Prop} (hq : q.Reads)
    (h : Tracked past s)
    (hok : ∀ v past', Effect s s q (.ok v) → Leads past s past' s → ok v past' s)
    (herr : ∀ e past', Leads past s past' s → err e past' s) :
    Tracks (ask q) ok err past s := by
  refine tracks_inert hq.inert h (fun reply new he => ?_) (fun v past' new he hnew => ?_)
    fun e past' new he hnew => ?_
  · rw [he.eq_of_reads hq]
    exact .refl s
  · obtain rfl := he.eq_of_reads hq
    exact hok v past' he hnew
  · obtain rfl := he.eq_of_reads hq
    exact herr e past' hnew

/-- One request that changes nothing, and what follows it. -/
theorem tracks_read_bind {q : Request} {f : Value q → UpdaterM α} (hq : q.Reads)
    (h : Tracked past s)
    (hok : ∀ v past', Effect s s q (.ok v) → Leads past s past' s →
      Tracks (f v) ok err past' s)
    (herr : ∀ e past', Leads past s past' s → err e past' s) :
    Tracks (ask q >>= f) ok err past s :=
  .bind (tracks_read hq h hok herr)

/-- Making a directory: it is accounted for until a record names it. -/
theorem mkdir_tracks (h : Tracked past s) :
    Tracks (ask (.mkdir r))
      (fun _ past' new => Tracked past' new ∧ s.releases r = none ∧
        new = s.setDirectory r (some .empty))
      (fun _ past' new => Tracked past' new ∧ new = s) past s := by
  have hok : s.releases r = none →
      Tracked (⟨.mkdir r, .ok (), s, s.setDirectory r (some .empty)⟩ :: past)
        (s.setDirectory r (some .empty)) := by
    intro hnone q hq
    by_cases hqr : q = r
    · rw [hqr]
      exact .inr (by simp [orphans, unrecorded])
    · rw [s.setDirectory_of_ne _ hqr] at hq
      rcases h q hq with hnamed | horphan
      · exact .inl hnamed
      · refine .inr ?_
        rcases List.mem_append.mp horphan with hmem | hmem
        · exact List.mem_append_left _ (List.mem_cons_of_mem _ hmem)
        · exact List.mem_append_right _ hmem
  have herr : ∀ e, Tracked (⟨.mkdir r, .error e, s, s⟩ :: past) s := fun e => h
  refine tracks_ask (fun reply new he => ?_) (fun _ new he => ?_) fun e new he => ?_
  · cases reply with
    | ok =>
      obtain ⟨hnone, rfl⟩ := he
      exact hok hnone
    | error e =>
      obtain rfl := he
      exact herr e
  · obtain ⟨hnone, rfl⟩ := he
    exact ⟨hok hnone, hnone, rfl⟩
  · obtain rfl := he
    exact ⟨herr e, rfl⟩

/-- Setting a directory that is there. -/
theorem Shrunk.setDirectory {D : Option Directory} (h : D.isSome → (s.releases r).isSome) :
    Shrunk s (s.setDirectory r D) := by
  refine ⟨rfl, rfl, rfl, fun q hq => ?_⟩
  by_cases hqr : q = r
  · subst hqr
    exact h (by simpa using hq)
  · rwa [s.setDirectory_of_ne _ hqr] at hq

/-- Removing a directory makes none, also where it fails half way. -/
theorem Shrunk.answer_rmtree (c : Choice (.rmtree r)) : Shrunk s (answer s (.rmtree r) c).2 := by
  cases hr : s.releases r with
  | none => simpa [answer, hr] using Shrunk.refl s
  | some D =>
    have hpresent : (s.releases r).isSome := by rw [hr]; rfl
    cases c with
    | removed =>
      have hgone : Shrunk s (s.setDirectory r none) := .setDirectory fun hsome => by cases hsome
      simpa [answer, hr] using hgone
    | failed name left => simpa [answer, hr] using Shrunk.setDirectory fun _ => hpresent

/-- Removing a directory: it is gone, or it is remembered that this failed. -/
theorem rmtree_tracks (h : Tracked past s) :
    Tracks (ask (.rmtree r))
      (fun _ past' new => Leads past s past' new ∧ new.releases r = none)
      (fun _ past' new => Leads past s past' new ∧ (s.loaded.Names r → Tried r past' new))
      past s := by
  have hremoved : Leads past s (⟨.rmtree r, .ok (), s, s.setDirectory r none⟩ :: past)
      (s.setDirectory r none) := by
    have hshrunk : Shrunk s (s.setDirectory r none) := .setDirectory fun hsome => by cases hsome
    have hother : ∀ q, ((s.setDirectory r none).releases q).isSome → q ≠ r := by
      rintro q hq rfl
      simp at hq
    refine ⟨hshrunk, h.shrunk hshrunk fun q hq horphan => ?_, fun q hq => ?_⟩
    · rcases List.mem_append.mp horphan with hmem | hmem
      · exact List.mem_append_left _ (List.mem_filter.mpr ⟨hmem, by simpa using hother q hq⟩)
      · exact List.mem_append_right _ hmem
    · refine hq.shrunk hshrunk fun hpresent hmem => ?_
      exact List.mem_filter.mpr ⟨hmem, by simpa using hother q hpresent⟩
  have hfailed : ∀ e new, Shrunk s new →
      Leads past s (⟨.rmtree r, .error e, s, new⟩ :: past) new ∧
        (s.loaded.Names r → Tried r (⟨.rmtree r, .error e, s, new⟩ :: past) new) := by
    intro e new hshrunk
    refine ⟨⟨hshrunk, h.shrunk hshrunk fun q _ horphan => horphan, fun q hq => ?_⟩,
      fun hnames hpresent => ?_⟩
    · refine hq.shrunk hshrunk fun _ hmem => ?_
      rw [stuck]
      split
      · exact List.mem_cons_of_mem _ hmem
      · exact hmem
    · rw [stuck, if_pos ⟨hnames, hpresent⟩]
      exact List.mem_cons_self
  refine tracks_answer (R := fun reply new => Effect s new (.rmtree r) reply ∧ Shrunk s new)
    (fun c hc => ⟨effect_answer hc, .answer_rmtree c⟩) (fun reply new he => ?_)
    (fun _ new he => ?_) fun e new he => hfailed e new he.2
  · cases reply with
    | ok =>
      obtain rfl : new = s.setDirectory r none := he.1
      exact hremoved.tracked
    | error e => exact (hfailed e new he.2).1.tracked
  · obtain rfl : new = s.setDirectory r none := he.1
    exact ⟨hremoved, by simp⟩

/-- **Replacing the record.** What it stops naming must be named otherwise, be gone, or have been
tried to remove. -/
theorem writeState_tracks {value : Record} (h : Tracked past s)
    (hnames : ∀ r, s.loaded.Names r →
      value.Names r ∨ s.active = some r ∨ s.previous = some r ∨ Tried r past s) :
    Tracks (writeState value)
      (fun v past' new => v = value ∧ new = { s with record := some value } ∧ Tracked past' new)
      (fun _ past' new => (new = s ∨ new = { s with record := some value }) ∧ Tracked past' new)
      past s := by
  have hwritten : ∀ reply, Tracked (⟨.writeState value, reply, s, { s with record := some value }⟩
      :: past) { s with record := some value } := by
    intro reply r hr
    have horphans : orphans (⟨.writeState value, reply, s, { s with record := some value }⟩ ::
        past) = (unrecorded past).filter (¬ value.Names ·) ++
          ((stuck past).filter (¬ value.Names ·) ++ dropped past) := by
      rw [orphans, unrecorded, dropped, if_pos rfl, if_pos rfl]
    by_cases hvalue : value.Names r
    · exact .inl (.inr (.inr hvalue))
    have hdrop : ∀ l : List Release, r ∈ l → r ∈ l.filter (¬ value.Names ·) := fun l hl =>
      List.mem_filter.mpr ⟨hl, by simpa using hvalue⟩
    rw [horphans]
    rcases h r hr with (hactive | hprevious | hrecord) | horphan
    · exact .inl (.inl hactive)
    · exact .inl (.inr (.inl hprevious))
    · rcases hnames r hrecord with hvalue' | hactive | hprevious | htried
      · exact absurd hvalue' hvalue
      · exact .inl (.inl hactive)
      · exact .inl (.inr (.inl hprevious))
      · exact .inr (List.mem_append_right _ (List.mem_append_left _ (hdrop _ (htried hr))))
    · rcases List.mem_append.mp horphan with hmem | hmem
      · exact .inr (List.mem_append_left _ (hdrop _ hmem))
      · exact .inr (List.mem_append_right _ (List.mem_append_right _ hmem))
  have hkept : ∀ e, Tracked (⟨.writeState value, .error e, s, s⟩ :: past) s := by
    intro e
    by_cases hrecord : s.record = some value
    · have hsame : { s with record := some value } = s := by rw [← hrecord]
      have htracked := hwritten (.error e)
      rwa [hsame] at htracked
    · have horphans : orphans (⟨.writeState value, .error e, s, s⟩ :: past) = orphans past := by
        rw [orphans, unrecorded, dropped, if_neg hrecord, if_neg hrecord, orphans]
      rwa [Tracked, horphans]
  refine .bind (tracks_ask (fun reply new he => ?_) (fun _ new he => ?_) fun e new he => ?_)
  · cases reply with
    | ok =>
      obtain rfl := he
      exact hwritten _
    | error e =>
      obtain rfl | rfl := he
      · exact hkept e
      · exact hwritten _
  · obtain rfl := he
    exact World.ensures_pure ⟨rfl, rfl, hwritten _⟩
  · obtain rfl | rfl := he
    · exact ⟨.inl rfl, hkept e⟩
    · exact ⟨.inr rfl, hwritten _⟩

end Updater

end PzServer
