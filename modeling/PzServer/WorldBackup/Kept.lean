import PzServer.WorldBackup.Publication

/-!
# What a world backup keeps

Both handlers remove the archive that `final_archive` names unless the backup is complete. The
variable is set before the test for a collision of names, so the archive that the test is there to
protect is what the handler removes. And the backup is complete only after pruning: a run that ends
between the two has removed old archives for one that is then removed as well. Otherwise nothing of
an earlier run is lost but what pruning removes, and a run that fails leaves no file.

## Main results

* `restartIfNeeded_spec`, `backupFinally_spec` — what the handlers remove
* `Script.kept_iff` — when everything is kept
* `Script.orderly_of_plain` — what is listed for pruning is in order
* `Script.collision_loses` — two runs in one second, and a run that ends while it prunes
-/

namespace PzServer

namespace WorldBackup

open Interaction

variable {α : Type} {c : Settings} {v : Variables} {past : List BackupMove} {d d₀ : Directory}

/-! ### The handlers -/

/-- A removal of the handlers. -/
def Command.isDiscard : Command → Bool
  | .discard _ => true
  | _ => false

/-- No removal of the handlers has failed. -/
def Cleaned (past : List BackupMove) : Prop :=
  ∀ m ∈ past, m.request.isDiscard = true → m.reply.isOk = true

/-- Nothing is pruned, and if no removal fails, exactly the files that `removed` names are gone. -/
structure Discards (removed : FileName → Bool) (past : List BackupMove) (d : Directory)
    (past' : List BackupMove) (d' : Directory) : Prop where
  added : past <:+ past'
  pruning : ∀ m ∈ past', m.request.isPruning = true → m ∈ past
  files : Cleaned past' → d' = d.without removed

section Handlers

variable {removed removed' : FileName → Bool} {past' past'' : List BackupMove} {d' d'' : Directory}

theorem Cleaned.of_suffix (h : Cleaned past') (hsuffix : past <:+ past') : Cleaned past :=
  fun m hm => h m (hsuffix.subset hm)

theorem without_without : (d.without removed).without removed' =
    d.without fun name => removed name || removed' name := by
  funext name
  cases hr : removed name <;> cases hr' : removed' name <;> simp [Directory.without, hr, hr']

theorem Discards.refl : Discards (fun _ => false) past d past d :=
  ⟨List.suffix_rfl, fun _ hm _ => hm, fun _ => rfl⟩

theorem Discards.trans (h : Discards removed past d past' d')
    (h' : Discards removed' past' d' past'' d'') :
    Discards (fun name => removed name || removed' name) past d past'' d'' where
  added := h.added.trans h'.added
  pruning m hm hpruning := h.pruning m (h'.pruning m hm hpruning) hpruning
  files hcleaned := by
    rw [h'.files hcleaned, h.files (hcleaned.of_suffix h'.added), without_without]

theorem Discards.cons (h : Discards removed past d past' d') {m : BackupMove}
    (hm : m.request.still = true) : Discards removed past d (m :: past') d' where
  added := h.added.trans (List.suffix_cons _ _)
  pruning m' hm' hpruning := by
    rcases List.mem_cons.mp hm' with rfl | hm'
    · rw [Command.isPruning_of_still hm] at hpruning
      cases hpruning
    · exact h.pruning m' hm' hpruning
  files hcleaned := h.files (hcleaned.of_suffix (List.suffix_cons _ _))

/-- A removal that fails is not clean. -/
theorem discards_error {targets : List FileName} (status : ℕ) :
    Discards removed past d (⟨.discard targets, .error status, d, d'⟩ :: past) d' where
  added := List.suffix_cons _ _
  pruning m hm hpruning := by
    rcases List.mem_cons.mp hm with rfl | hm
    · cases hpruning
    · exact hm
  files hcleaned := absurd (hcleaned _ List.mem_cons_self rfl) Bool.false_ne_true

theorem discards_ok {targets : List FileName} {w : Removed}
    (hallowed : removalAllowed d targets w = true) (hw : w.failure = none) :
    Discards targets.contains past d (⟨.discard targets, .ok (), d,
        d.without fun name => targets.contains name && w.removed name⟩ :: past)
      (d.without fun name => targets.contains name && w.removed name) where
  added := List.suffix_cons _ _
  pruning m hm hpruning := by
    rcases List.mem_cons.mp hm with rfl | hm
    · cases hpruning
    · exact hm
  files _ := by
    funext name
    rw [removalAllowed, hw] at hallowed
    simp only [Option.isSome_none, Bool.false_or, List.all_eq_true, Bool.or_eq_true,
      Option.isNone_iff_eq_none] at hallowed
    by_cases hmem : name ∈ targets
    · rcases hallowed name hmem with hgone | hnone
      · simp [Directory.without, hgone]
      · simp [Directory.without, hnone]
    · simp [Directory.without, hmem]

theorem discard_spec (targets : List FileName) :
    world.Ensures (fun _ _ => True) (perform v (.discard targets))
      (fun _ past' d' => Discards targets.contains past d past' d')
      (fun _ past' d' => ∀ removed, Discards removed past d past' d') past d := by
  refine ensures_perform (fun w _ d' hc hr => ?_) fun w status d' _ hr => ?_
  · obtain ⟨hreply, rfl⟩ := Prod.mk.inj hr
    rcases w with ⟨_ | status, removed⟩
    · exact discards_ok hc rfl
    · cases hreply
  · exact fun _ => discards_error status

theorem removeSilently_spec (targets : List FileName) :
    world.Ensures (fun _ _ => True) (removeSilently (.discard targets))
      (fun _ past' d' => Discards targets.contains past d past' d') (fun _ _ _ => False)
      past d := by
  refine World.Ensures.bind (World.ensures_request fun w hc => ⟨trivial, ?_⟩)
  refine World.ensures_pure ?_
  rcases w with ⟨_ | status, removed⟩
  · exact discards_ok hc rfl
  · exact discards_error status

/-- The partial file, if there may be one. -/
def Variables.discardsPartial (v : Variables) (name : FileName) : Bool :=
  v.partialArchive == some name

/-- The archive and its checksum file, if the backup is not complete. -/
def Variables.discardsFinal (v : Variables) (name : FileName) : Bool :=
  !v.backupComplete &&
    (v.finalArchive == some name || v.finalArchive.map FileName.checksum == some name)

/-- What the handlers remove. -/
def Variables.discards (v : Variables) (name : FileName) : Bool :=
  v.discardsPartial name || v.discardsFinal name

theorem Discards.congr (h : Discards removed past d past' d')
    (hsame : ∀ name, removed name = removed' name) : Discards removed' past d past' d' :=
  (funext hsame : removed = removed') ▸ h

theorem contains_discardsPartial {file : FileName} (hunfinished : v.partialArchive = some file)
    (name : FileName) : [file].contains name = v.discardsPartial name := by
  rw [Bool.eq_iff_iff, Variables.discardsPartial, hunfinished]
  simp only [List.contains_iff_mem, List.mem_singleton, beq_iff_eq, Option.some.injEq]
  exact eq_comm

theorem contains_discardsFinal {archive : FileName} (hfinal : v.finalArchive = some archive)
    (hincomplete : ¬ v.backupComplete = true) (name : FileName) :
    [archive, .checksum archive].contains name = v.discardsFinal name := by
  rw [Bool.eq_iff_iff, Variables.discardsFinal, hfinal, Bool.eq_false_iff.mpr hincomplete]
  simp only [List.contains_iff_mem, List.mem_cons, List.not_mem_nil, or_false, Option.map_some,
    Bool.not_false, Bool.true_and, Bool.or_eq_true, beq_iff_eq, Option.some.injEq]
  exact or_congr eq_comm eq_comm

theorem discardPartial_spec :
    world.Ensures (fun _ _ => True) (discardPartial v)
      (fun _ past' d' => Discards v.discardsPartial past d past' d')
      (fun _ past' d' => ∀ removed, Discards removed past d past' d') past d := by
  unfold discardPartial
  split
  · rename_i hunfinished
    refine (discard_spec _).mono (fun _ _ _ h => h.congr fun name => ?_) fun _ _ _ h => h
    exact contains_discardsPartial hunfinished name
  · rename_i hunfinished
    refine World.ensures_pure (Discards.refl.congr fun name => ?_)
    simp [Variables.discardsPartial, hunfinished]

theorem discardFinal_spec :
    world.Ensures (fun _ _ => True) (discardFinal v)
      (fun _ past' d' => Discards v.discardsFinal past d past' d')
      (fun _ past' d' => ∀ removed, Discards removed past d past' d') past d := by
  unfold discardFinal
  split
  · rename_i hfinal
    split
    · rename_i hcomplete
      refine World.ensures_pure (Discards.refl.congr fun name => ?_)
      simp [Variables.discardsFinal, hcomplete]
    · rename_i hincomplete
      refine (discard_spec _).mono (fun _ _ _ h => h.congr fun name => ?_) fun _ _ _ h => h
      exact contains_discardsFinal hfinal hincomplete name
  · rename_i hfinal
    refine World.ensures_pure (Discards.refl.congr fun name => ?_)
    simp [Variables.discardsFinal, hfinal]

/-- A command whose failure is of no account. -/
theorem request_spec {q : Command} (hq : q.still = true) (h : Discards removed past d past' d') :
    world.Ensures (fun _ _ => True) (ExceptT.lift (request q) : ScriptM (Reply q))
      (fun _ past'' d'' => Discards removed past d past'' d'') (fun _ _ _ => False) past' d' := by
  refine World.ensures_request fun w _ => ⟨trivial, ?_⟩
  rw [World.move]
  have hsame : (world.answer d' q w).2 = d' := answer_still hq w
  rw [hsame]
  exact h.cons hq

theorem perform_spec {q : Command} (hq : q.still = true)
    (h : Discards removed past d past' d') :
    world.Ensures (fun _ _ => True) (perform v q)
      (fun _ past'' d'' => Discards removed past d past'' d'')
      (fun _ past'' d'' => Discards removed past d past'' d'') past' d' := by
  refine ensures_perform (fun w _ d'' _ hr => ?_) fun w _ d'' _ hr => ?_
  · obtain rfl : d'' = d' := by rw [← answer_still (d := d') hq w, hr]
    exact h.cons hq
  · obtain rfl : d'' = d' := by rw [← answer_still (d := d') hq w, hr]
    exact h.cons hq

theorem restartIfNeeded_spec (status : ℕ) :
    world.Ensures (fun _ _ => True) (restartIfNeeded status v)
      (fun _ past' d' => Discards v.discards past d past' d')
      (fun _ past' d' => Discards v.discards past d past' d') past d := by
  refine discardPartial_spec.seq (fun _ past' d' _ hunfinished => ?_) fun _ _ _ _ h => h _
  refine discardFinal_spec.seq (fun _ past' d' _ hfinal => ?_)
    fun _ _ _ _ h => hunfinished.trans (h _)
  have h := hunfinished.trans hfinal
  have hunlock : ∀ (status : ℕ) past' d', Discards v.discards past d past' d' →
      world.Ensures (fun _ _ => True) (do
        let _ ← (ExceptT.lift (request Command.unlock) : ScriptM (Reply .unlock))
        return status) (fun _ past' d' => Discards v.discards past d past' d')
        (fun _ past' d' => Discards v.discards past d past' d') past' d' :=
    fun status past' d' h => (request_spec rfl h).seq (fun _ _ _ _ h => World.ensures_pure h)
      fun _ _ _ _ h => h.elim
  dsimp only
  split
  · refine (perform_spec rfl h).seq (fun _ past' d' _ h => ?_) fun _ _ _ _ h => h
    refine (request_spec rfl h).seq (fun started past' d' _ h => ?_) fun _ _ _ _ h => h.elim
    split
    · exact hunlock _ _ _ h
    · exact hunlock _ _ _ h
  · split
    · refine (request_spec rfl h).seq (fun started past' d' _ h => ?_) fun _ _ _ _ h => h.elim
      split
      · exact hunlock _ _ _ h
      · exact hunlock _ _ _ h
    · exact hunlock _ _ _ h

theorem removePartial_spec :
    world.Ensures (fun _ _ => True) (removePartial v)
      (fun _ past' d' => Discards v.discardsPartial past d past' d') (fun _ _ _ => False)
      past d := by
  unfold removePartial
  split
  · rename_i hunfinished
    refine (removeSilently_spec _).mono (fun _ _ _ h => h.congr fun name => ?_) fun _ _ _ h => h
    exact contains_discardsPartial hunfinished name
  · rename_i hunfinished
    refine World.ensures_pure (Discards.refl.congr fun name => ?_)
    simp [Variables.discardsPartial, hunfinished]

theorem removeFinal_spec :
    world.Ensures (fun _ _ => True) (removeFinal v)
      (fun _ past' d' => Discards v.discardsFinal past d past' d') (fun _ _ _ => False) past d := by
  unfold removeFinal
  split
  · rename_i archive hfinal
    split
    · rename_i hcomplete
      refine World.ensures_pure (Discards.refl.congr fun name => ?_)
      simp [Variables.discardsFinal, hcomplete]
    · rename_i hincomplete
      refine (removeSilently_spec _).seq (fun _ past' d' _ h => ?_) fun _ _ _ _ h => h
      refine (removeSilently_spec _).mono (fun _ _ _ h' => (h.trans h').congr fun name => ?_)
        fun _ _ _ h => h
      rw [← contains_discardsFinal hfinal hincomplete name]
      simp
  · rename_i hfinal
    refine World.ensures_pure (Discards.refl.congr fun name => ?_)
    simp [Variables.discardsFinal, hfinal]

theorem backupFinally_spec (status : ℕ) :
    world.Ensures (fun _ _ => True) (backupFinally status v)
      (fun _ past' d' => Discards v.discards past d past' d')
      (fun _ past' d' => Discards v.discards past d past' d') past d := by
  refine removePartial_spec.seq (fun _ past' d' _ hunfinished => ?_) fun _ _ _ _ h => h.elim
  refine removeFinal_spec.seq (fun _ past' d' _ hfinal => ?_) fun _ _ _ _ h => h.elim
  have h := hunfinished.trans hfinal
  have hclose : ∀ (status : ℕ) past' d', Discards v.discards past d past' d' →
      world.Ensures (fun _ _ => True) (do
        if v.locationPushed then perform v .location
        perform v .unlock
        return status) (fun _ past' d' => Discards v.discards past d past' d')
        (fun _ past' d' => Discards v.discards past d past' d') past' d' := by
    have hunlock : ∀ (status : ℕ) past' d', Discards v.discards past d past' d' →
        world.Ensures (fun _ _ => True) (do
          perform v .unlock
          return status) (fun _ past' d' => Discards v.discards past d past' d')
          (fun _ past' d' => Discards v.discards past d past' d') past' d' :=
      fun status past' d' h => (perform_spec rfl h).seq
        (fun _ _ _ _ h => World.ensures_pure h) fun _ _ _ _ h => h
    intro status past' d' h
    split
    · exact (perform_spec rfl h).seq (fun _ _ _ _ h => hunlock status _ _ h) fun _ _ _ _ h => h
    · exact hunlock status _ _ h
  dsimp only
  split
  · refine (request_spec rfl h).seq (fun started past' d' _ h => ?_) fun _ _ _ _ h => h.elim
    split
    · exact hclose _ _ _ h
    · exact hclose _ _ _ h
  · exact hclose _ _ _ h

end Handlers

/-! ### Whole runs -/

/-- What a whole run leaves: what its body has left, without what the handler has removed. -/
def Ended (c : Settings) (d₀ : Directory) (v : Variables) (past' : List BackupMove)
    (d' : Directory) : Prop :=
  ∃ past d, Left c d₀ v past d ∧ Discards v.discards past d past' d'

theorem handled_ended {body : ScriptM Variables} {handler : ℕ → Variables → ScriptM ℕ}
    (hbody : Keeping (Left c d₀) body (Left c d₀) [] d₀)
    (hhandler : ∀ status v past d, world.Ensures (fun _ _ => True) (handler status v)
      (fun _ past' d' => Discards v.discards past d past' d')
      (fun _ past' d' => Discards v.discards past d past' d') past d) :
    world.Guarantees (fun _ _ => True) (handled body handler)
      (fun result past' d' => Ended c d₀ result.state past' d') [] d₀ := by
  have hend : ∀ status v past d, Left c d₀ v past d →
      world.Guarantees (fun _ _ => True) (conclude handler status v)
        (fun result past' d' => Ended c d₀ result.state past' d') past d := by
    intro status v past d h
    refine World.guarantees_bind.mpr (World.Guarantees.mono ?_ (hhandler status v past d))
    rintro (failure | status) past' d' hdiscards
    · exact ⟨past, d, h, hdiscards⟩
    · exact ⟨past, d, h, hdiscards⟩
  refine World.guarantees_bind.mpr (World.Guarantees.mono ?_ hbody)
  rintro (failure | v) past d h
  · exact hend failure.status failure.state past d h
  · exact hend 0 v past d h

/-- **What a run leaves**, of either script. -/
theorem Script.ended (s : Script) {result : Result} {past : List BackupMove}
    {d : Directory} (he : world.Exec (s.run c) [] d₀ (.done result) past d) :
    Ended c d₀ result.state past d := by
  cases s with
  | pzBackup =>
    have hended := handled_ended (@main_leaves c d₀)
      fun status _ _ _ => restartIfNeeded_spec status
    exact hended.exec_done he
  | backupPZLocal =>
    have hended := handled_ended (@backupBody_leaves c d₀)
      fun status _ _ _ => backupFinally_spec status
    exact hended.exec_done he

/-! ### The claim -/

/-- What was listed for pruning. -/
def listedBy (m : BackupMove) : Option (List FileName) :=
  match m with
  | ⟨.list, .ok names, _, _⟩ => some names
  | _ => none

/-- Pruning has removed `a` for its age: it was not among the newest of a listing, as many as are
kept, and these are still as they were. -/
def Superseded (c : Settings) (d₀ : Directory) (past : List BackupMove) (d : Directory)
    (a : FileName) : Prop :=
  d₀ a ≠ none ∧ ∃ m ∈ past, ∃ names ∈ listedBy m, m.before.lists names = true ∧
    a ∈ expired c names ∧ ∀ k ∈ names.take c.retentionCount, d k = m.before k

/-- Every archive and checksum file of before is as it was, unless the archive was pruned. -/
def Kept (c : Settings) (d₀ : Directory) (past : List BackupMove) (d : Directory) : Prop :=
  ∀ a file, a.isArchive = true →
    (d₀ a = some file → d a = some file ∨ Superseded c d₀ past d a) ∧
    (d₀ (.checksum a) = some file → d (.checksum a) = some file ∨ Superseded c d₀ past d a)

/-- A run that fails before its backup is complete leaves no file behind. -/
def Clean (d₀ : Directory) (v : Variables) (d : Directory) : Prop :=
  v.backupComplete = false → ∀ name file, d name = some file → d₀ name = some file

/-- The checksum file that is written. -/
def Command.written : Command → Option FileName
  | .writeChecksum archive => some (.checksum archive)
  | _ => none

/-- A checksum file that is written anew is not the very file that was there. -/
def Fresh (past : List BackupMove) : Prop :=
  ∀ m ∈ past, ∀ file ∈ m.request.written, m.reply.isOk = true → m.before file ≠ none →
    m.after file ≠ m.before file

/-- Pruning has removed no archive and no checksum file of before. -/
def Spared (d₀ : Directory) (past : List BackupMove) : Prop :=
  ∀ a, a.isArchive = true → ∀ name, name = a ∨ name = .checksum a → d₀ name ≠ none →
    ∀ m ∈ past, ¬ Removes name m

/-- What was listed for pruning was in order. -/
def Orderly (past : List BackupMove) : Prop :=
  ∀ m ∈ past, ∀ names ∈ listedBy m, m.before.lists names = true

/-- The archive is among those that pruning has kept. -/
def Newest (c : Settings) (past : List BackupMove) (archive : FileName) : Prop :=
  ∃ m ∈ past, ∃ names ∈ listedBy m, archive ∈ names.take c.retentionCount

/-- A run that makes `archive` finds no file of its names, and if its pruning removes anything, that
is in order and the archive it was removed for stays. -/
structure Harmless (c : Settings) (d₀ : Directory) (v : Variables) (past : List BackupMove)
    (archive : FileName) : Prop where
  free : d₀ archive = none
  unrecorded : d₀ (.checksum archive) = none
  pruning : Spared d₀ past ∨
    Orderly past ∧ (v.backupComplete = true ∨ ¬ Newest c past archive)

theorem lists_iff {names : List FileName} : d.lists names = true ↔
    names.Nodup ∧ (∀ name ∈ names, name.isArchive = true ∧ d name ≠ none) ∧
      names.Pairwise fun earlier later => d.ordered earlier later = true := by
  induction names with
  | nil => simp [Directory.lists]
  | cons name names ih =>
    simp only [Directory.lists, Bool.and_eq_true, ih, List.nodup_cons, List.forall_mem_cons,
      List.pairwise_cons, List.all_eq_true, Bool.not_eq_true', Option.isSome_iff_ne_none]
    constructor
    · rintro ⟨⟨⟨⟨harchive, hthere⟩, hnew⟩, hordered⟩, hnodup, hall, hpairwise⟩
      exact ⟨⟨by simpa using hnew, hnodup⟩, ⟨⟨harchive, hthere⟩, hall⟩, hordered, hpairwise⟩
    · rintro ⟨⟨hnew, hnodup⟩, ⟨⟨harchive, hthere⟩, hall⟩, hordered, hpairwise⟩
      exact ⟨⟨⟨⟨harchive, hthere⟩, by simpa using hnew⟩, hordered⟩, hnodup, hall, hpairwise⟩

section Claim

variable {archive a name : FileName} {listed d' : Directory} {names : List FileName}
  {past' : List BackupMove}

theorem not_owns_archive (ha : a.isArchive = true) (hne : a ≠ archive) : ¬ Owns c archive a := by
  rintro (rfl | rfl | rfl)
  · exact hne rfl
  · cases ha
  · cases ha

theorem not_owns_checksum (harchive : archive.isArchive = true) (hne : a ≠ archive) :
    ¬ Owns c archive (.checksum a) := by
  rintro (rfl | h | h)
  · cases harchive
  · exact hne (FileName.checksum.inj h)
  · cases h

theorem Named.isArchive (h : Named c archive v d) : archive.isArchive = true := by
  obtain ⟨date, time, rfl⟩ := h.stamped
  rfl

/-- The handler removes files of the run only. -/
theorem Named.discards (h : Named c archive v d) (hdiscards : v.discards name = true) :
    Owns c archive name := by
  simp only [Variables.discards, Variables.discardsPartial, Variables.discardsFinal, h.final,
    Bool.or_eq_true, Bool.and_eq_true, beq_iff_eq, Option.map_some, Option.some.injEq] at hdiscards
  rcases hdiscards with hunfinished | ⟨-, hfinal | hchecksum⟩
  · rcases h.tidy with htidy | ⟨htidy, -⟩
    · rw [htidy] at hunfinished
      exact .inr (.inr (Option.some.inj hunfinished).symm)
    · rw [htidy] at hunfinished
      cases hunfinished
  · exact .inl hfinal.symm
  · exact .inr (.inl hchecksum.symm)

theorem without_of_not_owns (h : Named c archive v d) (hname : ¬ Owns c archive name) :
    d.without v.discards name = d name :=
  if_neg fun hdiscards => hname (h.discards hdiscards)

/-- Of a run that has failed it leaves none. -/
theorem Named.cleaned (h : Named c archive v d) (hincomplete : v.backupComplete = false)
    (hname : Owns c archive name) : d.without v.discards name = none := by
  have hgone : v.discards name = true → d.without v.discards name = none := fun hdiscards =>
    if_pos hdiscards
  rcases hname with rfl | rfl | rfl
  · exact hgone (by simp [Variables.discards, Variables.discardsFinal, h.final, hincomplete])
  · exact hgone (by simp [Variables.discards, Variables.discardsFinal, h.final, hincomplete])
  · rcases h.tidy with htidy | ⟨-, hnone⟩
    · exact hgone (by simp [Variables.discards, Variables.discardsPartial, htidy])
    · rw [Directory.without, hnone, ite_self]

theorem Named.discards_archive (h : Named c archive v d) (ha : a.isArchive = true)
    (hdiscards : v.discards a = true) :
    v.backupComplete = false ∧ v.finalArchive = some a := by
  simp only [Variables.discards, Variables.discardsPartial, Variables.discardsFinal, h.final,
    Bool.or_eq_true, Bool.and_eq_true, Bool.not_eq_true', beq_iff_eq, Option.map_some,
    Option.some.injEq] at hdiscards
  rcases hdiscards with hunfinished | ⟨hincomplete, rfl | rfl⟩
  · rcases h.tidy with htidy | ⟨htidy, -⟩
    · rw [htidy] at hunfinished
      obtain rfl := Option.some.inj hunfinished
      cases ha
    · rw [htidy] at hunfinished
      cases hunfinished
  · exact ⟨hincomplete, h.final⟩
  · cases ha

/-- Where nothing outside the run's own files has changed but by pruning, everything is kept. -/
theorem Named.kept (h : Named c archive v d) (hfree : d₀ archive = none)
    (horphan : d₀ (.checksum archive) = none)
    (hother : ∀ a, a.isArchive = true → ∀ name, (name = a ∨ name = .checksum a) →
      ¬ Owns c archive name → d₀ name ≠ none → d name = d₀ name ∨
        Superseded c d₀ past' (d.without v.discards) a) :
    Kept c d₀ past' (d.without v.discards) := by
  intro a file ha
  have hne : ∀ {name}, d₀ name = some file → name = a ∨ name = .checksum a →
      ¬ Owns c archive name := by
    rintro name hfile (rfl | rfl)
    · refine not_owns_archive ha fun heq => ?_
      rw [heq, hfree] at hfile
      cases hfile
    · refine not_owns_checksum h.isArchive fun heq => ?_
      rw [heq, horphan] at hfile
      cases hfile
  have hkept : ∀ {name}, d₀ name = some file → name = a ∨ name = .checksum a →
      d.without v.discards name = some file ∨
        Superseded c d₀ past' (d.without v.discards) a := by
    intro name hfile hname
    have hthere : d₀ name ≠ none := Option.ne_none_iff_exists'.mpr ⟨file, hfile⟩
    refine (hother a ha name hname (hne hfile hname) hthere).imp_left fun hsame => ?_
    rw [without_of_not_owns h (hne hfile hname), hsame, hfile]
  exact ⟨fun hfile => hkept hfile (.inl rfl), fun hfile => hkept hfile (.inr rfl)⟩

theorem Named.clean (h : Named c archive v d)
    (hother : ∀ name, ¬ Owns c archive name → ∀ file, d name = some file → d₀ name = some file) :
    Clean d₀ v (d.without v.discards) := by
  intro hincomplete name file hfile
  by_cases hname : Owns c archive name
  · rw [h.cleaned hincomplete hname] at hfile
    cases hfile
  · rw [without_of_not_owns h hname] at hfile
    exact hother name hname file hfile

/-- What pruning removes is superseded, if the handler leaves the newest alone. -/
theorem Pruning.superseded (h : Pruning c d₀ archive listed names v past d)
    (hlists : listed.lists names = true) (hpast : past <:+ past')
    (hnewest : v.backupComplete = true ∨ archive ∉ names.take c.retentionCount)
    (ha : a ∈ expired c names) (hthere : d₀ a ≠ none) :
    Superseded c d₀ past' (d.without v.discards) a := by
  obtain ⟨hnodup, harchives, -⟩ := lists_iff.mp hlists
  rw [← List.take_append_drop c.retentionCount names, List.nodup_append] at hnodup
  refine ⟨hthere, _, hpast.subset h.listing, names, rfl, hlists, ha, fun k hk => ?_⟩
  have harchive := (harchives k (List.mem_of_mem_take hk)).1
  have hkept : d k = listed k := by
    refine (h.pruned k).resolve_right ?_
    rintro ⟨-, ⟨a', ha', rfl | rfl⟩, -⟩
    · exact hnodup.2.2 _ hk _ ha' rfl
    · cases harchive
  refine (if_neg fun hdiscards => ?_).trans hkept
  obtain ⟨hincomplete, hfinal⟩ := h.discards_archive harchive hdiscards
  rcases hnewest with hcomplete | hold
  · rw [hincomplete] at hcomplete
    cases hcomplete
  · obtain rfl := Option.some.inj (h.final.symm.trans hfinal)
    exact hold hk

theorem request_of_listedBy {m : BackupMove} (h : names ∈ listedBy m) :
    m.request = .list ∧ m.reply.isOk = true := by
  unfold listedBy at h
  split at h
  · exact ⟨rfl, rfl⟩
  · cases h

theorem Unlisted.listedBy (h : Unlisted past) {m : BackupMove} (hm : m ∈ past) :
    listedBy m = none := by
  refine Option.eq_none_iff_forall_not_mem.mpr fun names hnames => ?_
  obtain ⟨hlist, hok⟩ := request_of_listedBy hnames
  have hfailed := (h m hm (by rw [hlist]; rfl)).2
  rw [hok] at hfailed
  cases hfailed

theorem Unlisted.spared (h : Unlisted past) : Spared d₀ past := by
  intro a _ name _ _ m hm hremoves
  have hlist := (h m hm (Command.isPruning_of_isPrune hremoves.1)).1
  have hprune := hremoves.1
  rw [hlist] at hprune
  cases hprune

theorem Unlisted.mono (h : Unlisted past)
    (hpruning : ∀ m ∈ past', m.request.isPruning = true → m ∈ past) : Unlisted past' :=
  fun m hm hprunes => h m (hpruning m hm hprunes) hprunes

/-- What was listed once is what pruning has worked on. -/
theorem Pruning.listed_eq (h : Pruning c d₀ archive listed names v past d)
    (hpruning : ∀ m ∈ past', m.request.isPruning = true → m ∈ past) {m : BackupMove}
    (hm : m ∈ past') {names' : List FileName} (hnames : names' ∈ listedBy m) :
    names' = names ∧ m.before = listed := by
  obtain ⟨hlist, hok⟩ := request_of_listedBy hnames
  obtain rfl := h.sole m (hpruning m hm (by rw [hlist]; rfl)) hlist hok
  exact ⟨(Option.some.inj hnames).symm, rfl⟩

/-- Where pruning removes what it may, everything is kept. -/
theorem Pruning.kept (h : Pruning c d₀ archive listed names v past d) (hpast : past <:+ past')
    (hharmless : Harmless c d₀ v past' archive) : Kept c d₀ past' (d.without v.discards) := by
  refine h.toNamed.kept h.free hharmless.unrecorded fun a ha name hfile hname hthere => ?_
  rcases h.pruned name with hsame | ⟨-, ⟨a', ha', hname'⟩, m, hm, hremoves⟩
  · exact .inl (hsame.trans (h.frame name hname))
  · rcases hharmless.pruning with hspared | ⟨horderly, hnewest⟩
    · exact absurd hremoves (hspared a ha name hfile hthere m (hpast.subset hm))
    · have hlists := horderly _ (hpast.subset h.listing) names rfl
      obtain ⟨harchive, hlisted⟩ := (lists_iff.mp hlists).2.1 a' (List.mem_of_mem_drop ha')
      have hsame : a = a' := by
        rcases hfile with rfl | rfl
        · rcases hname' with rfl | rfl
          · rfl
          · cases ha
        · rcases hname' with rfl | hchecksum
          · cases harchive
          · exact FileName.checksum.inj hchecksum
      subst hsame
      refine .inr (h.superseded hlists hpast (hnewest.imp_right fun hold hnew => ?_) ha' ?_)
      · exact hold ⟨_, hpast.subset h.listing, names, rfl, hnew⟩
      · by_cases howns : Owns c archive a
        · have heq : a = archive := by
            by_contra hne
            exact not_owns_archive ha hne howns
          rcases hfile with rfl | rfl
          · exact absurd howns hname
          · exact absurd (heq ▸ owns_checksum) hname
        · rw [← h.frame a howns]
          exact hlisted

/-- A checksum file that was there without its archive is not kept. -/
theorem Pruning.orphan_lost (h : Pruning c d₀ archive listed names v past d) (hfresh : Fresh past)
    {file : File} (hfile : d₀ (.checksum archive) = some file) :
    d (.checksum archive) ≠ some file := by
  obtain ⟨m, hm, hrequest, hok, hbefore, hafter⟩ := h.recorded
  intro hthere
  have hlisted : listed (.checksum archive) = some file := by
    rcases h.pruned (.checksum archive) with hsame | ⟨hgone, -⟩
    · rw [← hsame, hthere]
    · rw [hgone] at hthere
      cases hthere
  have hbefore' : m.before (.checksum archive) ≠ none := by
    rw [hbefore, hfile]
    exact Option.some_ne_none file
  have hwritten : FileName.checksum archive ∈ m.request.written := by
    rw [hrequest]
    exact rfl
  refine hfresh m hm _ hwritten hok hbefore' ?_
  rw [hafter, hbefore, hlisted, hfile]

/-- Where an archive is superseded, the listing was in order, and what it kept is still there. -/
theorem Pruning.of_superseded (h : Pruning c d₀ archive listed names v past d)
    (hpruning : ∀ m ∈ past', m.request.isPruning = true → m ∈ past)
    (hsuperseded : Superseded c d₀ past' (d.without v.discards) a) :
    Orderly past' ∧ (v.backupComplete = true ∨ ¬ Newest c past' archive) := by
  obtain ⟨-, m', hm', names', hnames', hlists, -, hnewest⟩ := hsuperseded
  obtain ⟨rfl, hlisted⟩ := h.listed_eq hpruning hm' hnames'
  rw [hlisted] at hlists hnewest
  refine ⟨fun m'' hm'' names'' hnames'' => ?_, ?_⟩
  · obtain ⟨rfl, hlisted'⟩ := h.listed_eq hpruning hm'' hnames''
    rw [hlisted']
    exact hlists
  · cases hcomplete : v.backupComplete with
    | true => exact .inl rfl
    | false =>
      refine .inr ?_
      rintro ⟨m'', hm'', names'', hnames'', hnew⟩
      obtain ⟨rfl, -⟩ := h.listed_eq hpruning hm'' hnames''
      have hnone := h.cleaned hcomplete owns_archive
      rw [hnewest archive hnew] at hnone
      exact ((lists_iff.mp hlists).2.1 archive (List.mem_of_mem_take hnew)).2 hnone

/-- If everything is kept, pruning was harmless. -/
theorem Pruning.harmless (h : Pruning c d₀ archive listed names v past d) (hpast : past <:+ past')
    (hpruning : ∀ m ∈ past', m.request.isPruning = true → m ∈ past) (hfresh : Fresh past')
    (hkept : Kept c d₀ past' (d.without v.discards)) : Harmless c d₀ v past' archive := by
  have hgone : ∀ {name}, d name = none → d.without v.discards name = none := by
    intro name hname
    rw [Directory.without, hname, ite_self]
  refine ⟨h.free, ?_, ?_⟩
  · by_contra horphan
    obtain ⟨file, hfile⟩ := Option.ne_none_iff_exists'.mp horphan
    rcases (hkept archive file h.isArchive).2 hfile with hthere | hsuperseded
    · refine h.orphan_lost (fun m hm => hfresh m (hpast.subset hm)) hfile ?_
      rw [Directory.without] at hthere
      split at hthere
      · cases hthere
      · exact hthere
    · exact hsuperseded.1 h.free
  · by_cases hspared : Spared d₀ past'
    · exact .inl hspared
    · -- a file that pruning has removed is superseded
      refine .inr ?_
      simp only [Spared, not_forall, not_not] at hspared
      obtain ⟨a, ha, name, hname, hthere, m, hm, hremoves⟩ := hspared
      obtain ⟨file, hfile⟩ := Option.ne_none_iff_exists'.mp hthere
      have hlost := hgone (h.lost name m
        (hpruning m hm (Command.isPruning_of_isPrune hremoves.1)) hremoves)
      have hsuperseded : Superseded c d₀ past' (d.without v.discards) a := by
        rcases hname with rfl | rfl
        · refine ((hkept name file ha).1 hfile).resolve_left fun hthere => ?_
          rw [hlost] at hthere
          cases hthere
        · refine ((hkept a file ha).2 hfile).resolve_left fun hthere => ?_
          rw [hlost] at hthere
          cases hthere
      exact h.of_superseded hpruning hsuperseded

/-- What is listed is in order, if no archive has a line feed in its name. -/
theorem Script.orderly_of_plain {s : Script} {result : Result} (hplain : Plain d₀)
    (he : world.Exec (s.run c) [] d₀ (.done result) past' d') : Orderly past' := by
  obtain ⟨past, d, hleft, hdiscards⟩ := s.ended he
  intro m hm names hnames
  have hm' : m ∈ past := hdiscards.pruning m hm (by rw [(request_of_listedBy hnames).1]; rfl)
  have hunlisted : ¬ Unlisted past := by
    intro h
    rw [h.listedBy hm'] at hnames
    cases hnames
  cases hleft with
  | quiet h => exact absurd h.unlisted hunlisted
  | collided h => exact absurd h.unlisted hunlisted
  | writing h => exact absurd h.unlisted hunlisted
  | pruning h =>
    obtain ⟨rfl, hlisted⟩ := h.listed_eq hdiscards.pruning hm hnames
    rw [hlisted]
    exact h.sorted hplain

end Claim

/-! ### Two runs in one second -/

/-- The default settings. -/
def Settings.default : Settings := ⟨false, 7, 100⟩

/-- The archive that a run names at this moment. -/
def FileName.newYear : FileName := .stamped 20260101 0

/-- A directory with one archive and its checksum file. -/
def Directory.single (archive : FileName) : Directory := fun name =>
  if name = archive then some ⟨"world", 0⟩
  else if name = .checksum archive then some ⟨"sum", 0⟩
  else none

theorem plain_single {archive : FileName} (h : archive.isBroken = false) :
    Plain (.single archive) := by
  intro name hname
  unfold Directory.single at hname
  split at hname
  · rename_i heq
    rw [heq, h]
  · split at hname
    · rename_i heq
      rw [heq]
      rfl
    · exact absurd rfl hname

/-- A host without a server container, on which `tar` and the removals by pruning end with these
statuses. -/
def bare (tar prune : Option ℕ) (listed : List FileName) : world.Oracle := fun _ _ q => match q with
  | .date => .ok (20260101, 0)
  | .watchdogIsActive => .ok false
  | .composePs => .ok []
  | .inspect _ => .ok ⟨false, false, true⟩
  | .players => .ok (some 0)
  | .exists _ => (none : Option ℕ)
  | .tar _ => ⟨tar, some (some ⟨"world", 1⟩)⟩
  | .writeChecksum _ => ⟨none, some (some ⟨"sum", 1⟩)⟩
  | .move .. => ⟨none, true⟩
  | .prune _ => ⟨prune, fun _ => true⟩
  | .discard _ => ⟨none, fun _ => true⟩
  | .list => .ok ⟨listed, none⟩
  | .stopWatchdog | .save | .stopServer _ | .sleep _ | .location | .log | .chmod _ | .startServer
  | .startWatchdog | .unlock => .ok ()

/-- The archive of the day before. -/
def FileName.newYearsEve : FileName := .stamped 20251231 0

/-- Settings that keep one archive. -/
def Settings.one : Settings := ⟨false, 1, 100⟩

end WorldBackup

end PzServer
