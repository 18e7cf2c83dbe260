import PzServer.Backup.Effect

/-!
# What `create` leaves when it returns

When `create` returns, the archive was written and verified, its sidecars are there, and the
archives beyond the retention are gone. Which these are is decided by modification times alone: the
archive that was just made is one of them if as many older archives as are kept have later times,
or the same and an earlier place in the listing of the directory.

## Main results

* `BackupManager.writeBackup_returns`, `BackupManager.prune_returns` — the two halves of `create`
* `BackupManager.create_complete_iff` — when the archive that is returned is there
-/

namespace PzServer

namespace Backup

open Interaction Collections

variable {B : Type} {w : Media B} {d d₀ : Directory B} {a : Attempt}
  {past : List (Move Request Reply (Directory B))}

/-- The names that an attempt writes to. -/
def Attempt.Owns (a : Attempt) (n : FileName) : Prop :=
  n = a.archive ∨ n = a.checksum ∨ n = a.metadata ∨ n = a.partialArchive ∨
    ∃ name uuid, n = .temporary name a.pid uuid

/-- The text of the checksum file. -/
def Attempt.checksumText (a : Attempt) (digest : String) : String :=
  digest ++ "  " ++ a.archive.text ++ "\n"

/-! ### Writing the backup -/

theorem atomicWrite_returns {pid : ℕ} {path : FileName} {content : String} :
    w.world.Returns (atomicWrite pid path content)
      (fun _ _ d' => (∃ mtime, d'.lookup path = some ⟨.text content, mtime⟩) ∧
        ∀ n, n ≠ path → (∀ uuid, n ≠ .temporary path pid uuid) → d'.lookup n = d.lookup n)
      past d := by
  refine returns_ask_bind fun _ d₁ h₁ => returns_ask_bind fun uuid d₂ h₂ => ?_
  obtain rfl : d₁ = d := h₁
  obtain rfl : d₂ = d₁ := h₂
  have hne : path ≠ .temporary path pid uuid := by
    intro h
    have := congrArg sizeOf h
    simp only [FileName.temporary.sizeOf_spec] at this
    omega
  refine World.returns_withCleanup (P := fun _ _ d' =>
    ∃ mtime, d'.lookup path = some ⟨.text content, mtime⟩ ∧
      ∀ n, n ≠ path → n ≠ .temporary path pid uuid → d'.lookup n = d₂.lookup n) ?_ ?_
  · refine returns_ask_bind fun _ d₃ h₃ => returns_ask_bind fun _ d₄ h₄ =>
      returns_ask_bind fun _ d₅ h₅ => returns_ask fun _ d₆ h₆ => ?_
    obtain ⟨-, mtime, rfl⟩ := h₃
    obtain rfl := h₄
    obtain ⟨file, hfile, rfl⟩ := h₅
    obtain rfl := h₆
    rw [AList.lookup_insert] at hfile
    obtain rfl := Option.some.inj hfile
    refine ⟨mtime, AList.lookup_insert _, fun n hpath htemporary => ?_⟩
    rw [AList.lookup_insert_ne hpath, AList.lookup_erase_ne htemporary,
      AList.lookup_insert_ne htemporary]
  · rintro _ past' d₃ - ⟨mtime, hpath, hframe⟩
    refine returns_ask fun _ d₄ h₄ => ?_
    obtain rfl := h₄
    refine ⟨⟨mtime, by rw [AList.lookup_erase_ne hne, hpath]⟩, fun n hn htemporary => ?_⟩
    rw [AList.lookup_erase_ne (htemporary uuid), hframe n hn (htemporary uuid)]

/-- The archive was written with this modification time. -/
def Wrote (a : Attempt) (mtime : ℤ) (past : List (Move Request Reply (Directory B))) : Prop :=
  ∃ before after, ⟨.writeArchive a.partialArchive, .ok (), before, after⟩ ∈ past ∧
    (after.lookup a.partialArchive).map File.mtime = some mtime

theorem Wrote.mono {mtime : ℤ} {past' : List (Move Request Reply (Directory B))}
    (h : Wrote a mtime past) (hsuf : past <:+ past') : Wrote a mtime past' := by
  obtain ⟨before, after, hmem, hmtime⟩ := h
  exact ⟨before, after, hsuf.subset hmem, hmtime⟩

/-- The archive and its sidecars are in place, and nothing else has changed. -/
structure Written (w : Media B) (a : Attempt) (d d' : Directory B) (mtime : ℤ) : Prop where
  archive : d'.lookup a.archive = some ⟨.tar w.data.members, mtime⟩
  checksum : ∃ time, d'.lookup a.checksum =
    some ⟨.text (a.checksumText (w.digest (.tar w.data.members))), time⟩
  metadata : a.metadata ∈ d'
  frame : ∀ n, ¬ a.Owns n → d'.lookup n = d.lookup n

namespace BackupManager

/-- **The backup is written.** -/
theorem writeBackup_returns (hw : w.faithful) :
    w.world.Returns (writeBackup a)
      (fun _ past' d' => ∃ mtime, Wrote a mtime past' ∧ Written w a d d' mtime) past d := by
  refine returns_ask_bind fun _ d₁ h₁ => ?_
  obtain ⟨mtime, rfl⟩ := h₁
  have hwrote : Wrote a mtime (⟨.writeArchive a.partialArchive, .ok (), d,
      d.insert a.partialArchive ⟨.tar w.data.members, mtime⟩⟩ :: past) :=
    ⟨d, _, List.mem_cons_self, by rw [AList.lookup_insert]; rfl⟩
  refine (World.Returns.suffix (P := fun _ _ d' => Written w a d d' mtime) ?_).mono
    fun _ _ _ h => ⟨mtime, hwrote.mono h.1, h.2⟩
  refine returns_ask_bind fun _ d₂ h₂ => returns_ask_bind fun names d₃ h₃ => ?_
  obtain rfl := h₂
  obtain ⟨rfl, -⟩ := h₃
  split
  · exact World.returns_throw
  refine returns_ask_bind fun digest d₄ h₄ => returns_ask_bind fun _ d₅ h₅ =>
    returns_ask_bind fun _ d₆ h₆ => returns_ask_bind fun _ d₇ h₇ => ?_
  obtain ⟨rfl, hdigest⟩ := h₄
  obtain rfl := h₅
  obtain ⟨file, hfile, rfl⟩ := h₆
  obtain rfl := h₇
  have hdigest := hdigest hw
  rw [AList.lookup_insert] at hfile hdigest
  obtain rfl := Option.some.inj hfile
  obtain rfl := Option.some.inj hdigest
  -- the archive is in place; its sidecars leave it alone
  refine atomicWrite_returns.seq fun _ _ d₈ _ hchecksum => ?_
  refine returns_ask_bind fun createdAt d₉ h₉ => ?_
  obtain rfl := h₉
  refine atomicWrite_returns.seq fun _ _ d₁₀ _ hmetadata => returns_ask_bind fun _ d₁₁ h₁₁ => ?_
  obtain ⟨rfl, -⟩ := h₁₁
  split
  · exact World.returns_throw
  obtain ⟨⟨time, hchecksum⟩, hframe₁⟩ := hchecksum
  obtain ⟨⟨time', hmetadata⟩, hframe₂⟩ := hmetadata
  refine World.returns_pure ⟨?_, ⟨time, ?_⟩, ?_, fun n hn => ?_⟩
  · rw [hframe₂ a.archive nofun nofun, hframe₁ a.archive nofun nofun, AList.lookup_insert]
  · rw [hframe₂ a.checksum nofun nofun, hchecksum]
    rfl
  · exact AList.lookup_isSome.mp (by rw [hmetadata]; rfl)
  · simp only [Attempt.Owns, not_or, not_exists] at hn
    obtain ⟨harchive, hchecksum, hmetadata, hpartial, htemporary⟩ := hn
    rw [hframe₂ n hmetadata (htemporary _), hframe₁ n hchecksum (htemporary _),
      AList.lookup_insert_ne harchive, AList.lookup_erase_ne hpartial,
      AList.lookup_insert_ne hpartial]

end BackupManager

/-! ### Pruning -/

/-- The modification time of a file. -/
def modified (d : Directory B) (n : FileName) : ℤ := (d.lookup n).elim 0 File.mtime

/-- An archive that is removed, or a sidecar of one. -/
def Pruned (names : List FileName) (n : FileName) : Prop :=
  n ∈ names ∨ ∃ archive ∈ names, n = .checksum archive ∨ n = .metadata archive

theorem pruned_cons {name n : FileName} {names : List FileName} :
    Pruned (name :: names) n ↔
      (n = name ∨ n = .checksum name ∨ n = .metadata name) ∨ Pruned names n := by
  simp only [Pruned, List.mem_cons, exists_eq_or_imp]
  exact or_or_or_comm

/-- What pruning leaves: an archive is kept if it is among the latest, and other files unless they
belong to one that is not. -/
structure Kept (m : BackupManager) (listing : List FileName) (d d' : Directory B) : Prop where
  listed : listing.Perm (archives d)
  pruned : ∀ n, Pruned ((descending (modified d) listing).drop m.retention) n → d'.lookup n = none
  kept : ∀ n, ¬ Pruned ((descending (modified d) listing).drop m.retention) n →
    d'.lookup n = d.lookup n

namespace BackupManager

theorem readTimes_returns {names : List FileName} :
    w.world.Returns (readTimes names)
      (fun times _ d' => d' = d ∧ times = names.map fun n => (modified d n, n)) past d := by
  induction names generalizing past with
  | nil => exact World.returns_pure ⟨rfl, rfl⟩
  | cons name names ih =>
    refine returns_ask_bind fun time d₁ h₁ => ?_
    obtain ⟨rfl, htime⟩ := h₁
    refine ih.seq fun times _ d₂ _ h₂ => ?_
    obtain ⟨rfl, rfl⟩ := h₂
    obtain ⟨file, hfile, rfl⟩ := Option.map_eq_some_iff.mp htime
    have hmodified : modified d₂ name = file.mtime := by rw [modified, hfile]; rfl
    exact World.returns_pure ⟨rfl, by rw [List.map_cons, hmodified]⟩

theorem unlinkArchives_returns {names : List FileName} :
    w.world.Returns (unlinkArchives names)
      (fun _ _ d' => ∀ n, (Pruned names n → d'.lookup n = none) ∧
        (¬ Pruned names n → d'.lookup n = d.lookup n)) past d := by
  induction names generalizing past d with
  | nil => exact World.returns_pure fun n => ⟨fun h => by simp [Pruned] at h, fun _ => rfl⟩
  | cons name names ih =>
    refine returns_ask_bind fun _ d₁ h₁ => returns_ask_bind fun _ d₂ h₂ =>
      returns_ask_bind fun _ d₃ h₃ => ?_
    obtain ⟨-, rfl⟩ := h₁
    obtain ⟨-, rfl⟩ := h₂
    obtain ⟨-, rfl⟩ := h₃
    refine ih.mono fun _ _ d' h n => ?_
    obtain ⟨hpruned, hkept⟩ := h n
    by_cases hn : Pruned names n
    · exact ⟨fun _ => hpruned hn, fun hnot => absurd (pruned_cons.mpr (.inr hn)) hnot⟩
    · rw [hkept hn, pruned_cons, lookup_erase, lookup_erase, lookup_erase]
      constructor
      · rintro (heq | h)
        · rcases heq with rfl | rfl | rfl <;> simp
        · exact absurd h hn
      · intro hnot
        rw [if_neg fun h => hnot (.inl (.inr (.inr h))),
          if_neg fun h => hnot (.inl (.inr (.inl h))), if_neg fun h => hnot (.inl (.inl h))]

theorem prune_returns {m : BackupManager} :
    w.world.Returns m.prune
      (fun _ past' d' => ∃ listing, (∃ d₁ d₂, ⟨.glob, .ok listing, d₁, d₂⟩ ∈ past') ∧
        Kept m listing d d') past d := by
  refine returns_ask_bind fun listing d₁ h₁ => ?_
  obtain ⟨rfl, hperm⟩ := h₁
  refine readTimes_returns.seq fun times _ d₂ hpast h₂ => ?_
  obtain ⟨rfl, rfl⟩ := h₂
  have hnames : ((descending Prod.fst (listing.map fun n => (modified d₂ n, n))).drop
      m.retention).map Prod.snd = (descending (modified d₂) listing).drop m.retention := by
    rw [descending_map_key, ← List.map_drop, List.map_map]
    exact List.map_id _
  dsimp only
  rw [hnames]
  refine unlinkArchives_returns.suffix.mono fun _ past' d' h => ?_
  refine ⟨listing, ⟨d₂, d₂, h.1.subset (hpast.subset List.mem_cons_self)⟩, hperm, ?_, ?_⟩
  · exact fun n => (h.2 n).1
  · exact fun n => (h.2 n).2

end BackupManager

/-! ### What remains -/

section Remaining

variable {m : BackupManager} {listing : List FileName} {d' : Directory B}

theorem pruned_archive {names : List FileName} {n : FileName} (hn : n.isArchive) :
    Pruned names n ↔ n ∈ names := by
  refine ⟨?_, .inl⟩
  rintro (h | ⟨archive, -, rfl | rfl⟩)
  · exact h
  · cases hn
  · cases hn

theorem not_pruned_sidecar {names : List FileName} {a : Attempt} (hnames : ∀ n ∈ names, n.isArchive)
    (ha : a.archive ∉ names) : ¬ Pruned names a.checksum ∧ ¬ Pruned names a.metadata := by
  constructor
  · rintro (h | ⟨archive, h, heq | heq⟩)
    · cases hnames _ h
    · exact ha (FileName.checksum.inj heq ▸ h)
    · cases heq
  · rintro (h | ⟨archive, h, heq | heq⟩)
    · cases hnames _ h
    · cases heq
    · exact ha (FileName.metadata.inj heq ▸ h)

/-- The archives that are left are the latest ones. -/
theorem Kept.archives_perm (h : Kept m listing d d') :
    (archives d').Perm ((descending (modified d) listing).take m.retention) := by
  have hnodup : (descending (modified d) listing).Nodup :=
    descending_perm.nodup_iff.mpr (h.listed.nodup_iff.mpr (archives_nodup d))
  have hdisjoint := List.disjoint_take_drop hnodup (le_refl m.retention)
  refine (List.perm_ext_iff_of_nodup (archives_nodup d') hnodup.take).mpr fun n => ?_
  have hlisted : n ∈ listing ↔ n.isArchive ∧ n ∈ d := h.listed.mem_iff.trans mem_archives
  have hsorted : n ∈ listing ↔ n ∈ (descending (modified d) listing).take m.retention ∨
      n ∈ (descending (modified d) listing).drop m.retention := by
    rw [← List.mem_append, List.take_append_drop, mem_descending]
  rw [mem_archives]
  constructor
  · rintro ⟨harchive, hmem⟩
    have hnot : n ∉ (descending (modified d) listing).drop m.retention := by
      intro hdrop
      have hnone := h.pruned n (.inl hdrop)
      rw [AList.lookup_eq_none] at hnone
      exact hnone hmem
    have hkept := h.kept n (fun hp => hnot ((pruned_archive harchive).mp hp))
    have hmem' : n ∈ d := by rwa [← AList.lookup_isSome, ← hkept, AList.lookup_isSome]
    exact (hsorted.mp (hlisted.mpr ⟨harchive, hmem'⟩)).resolve_right hnot
  · intro htake
    obtain ⟨harchive, hmem⟩ := hlisted.mp (hsorted.mpr (.inl htake))
    have hnot : ¬ Pruned ((descending (modified d) listing).drop m.retention) n :=
      fun hp => hdisjoint htake ((pruned_archive harchive).mp hp)
    exact ⟨harchive, by rwa [← AList.lookup_isSome, h.kept n hnot, AList.lookup_isSome]⟩

/-- The number of archives that are left. -/
theorem Kept.length_archives (h : Kept m listing d d') :
    (archives d').length = min m.retention (archives d).length := by
  rw [h.archives_perm.length_eq, List.length_take, length_descending, h.listed.length_eq]

/-- An archive is left if fewer others than are kept outrank it. -/
theorem Kept.mem_archives_iff (h : Kept m listing d d') {n : FileName} (hn : n ∈ archives d) :
    n ∈ archives d' ↔
      ((archives d).filter fun y => Outranks (modified d) listing n y).length < m.retention := by
  have hnodup : listing.Nodup := h.listed.nodup_iff.mpr (archives_nodup d)
  rw [h.archives_perm.mem_iff, mem_take_descending hnodup (h.listed.mem_iff.mpr hn),
    (h.listed.filter _).length_eq]

end Remaining

/-! ### The result of `create` -/

/-- What a successful backup is to leave: the archive that is returned, its sidecars, and as many
archives as are to be kept. -/
structure Complete (w : Media B) (m : BackupManager) (a : Attempt) (d₀ d : Directory B) : Prop where
  archive : ∃ mtime, d.lookup a.archive = some ⟨.tar w.data.members, mtime⟩
  checksum : ∃ mtime, d.lookup a.checksum =
    some ⟨.text (a.checksumText (w.digest (.tar w.data.members))), mtime⟩
  metadata : a.metadata ∈ d
  count : (archives d).length = min m.retention ((archives d₀).length + 1)
  kept : a.archive ∈ archives d

/-- The archives that were there before and that pruning prefers to the new one: they have a later
modification time, or the same and an earlier place in the listing. -/
def preferred (d₀ : Directory B) (listing : List FileName) (a : Attempt) (mtime : ℤ) :
    List FileName :=
  (archives d₀).filter fun n => mtime < modified d₀ n ∨
    modified d₀ n = mtime ∧ listing.idxOf n < listing.idxOf a.archive

section Written

variable {mtime : ℤ} {d₁ : Directory B} {listing : List FileName}

theorem Attempt.not_owns_archive {n : FileName} (hn : n.isArchive) (hne : n ≠ a.archive) :
    ¬ a.Owns n := by
  rintro (h | rfl | rfl | rfl | ⟨name, uuid, rfl⟩)
  · exact hne h
  all_goals cases hn

/-- The new archive joins those that were there. -/
theorem Written.archives_perm (h : Written w a d₀ d₁ mtime) (hnew : a.archive ∉ d₀) :
    (archives d₁).Perm (a.archive :: archives d₀) := by
  have hnot : a.archive ∉ archives d₀ := fun hmem => hnew (mem_archives.mp hmem).2
  have hnodup : (a.archive :: archives d₀).Nodup := List.nodup_cons.mpr ⟨hnot, archives_nodup d₀⟩
  refine (List.perm_ext_iff_of_nodup (archives_nodup d₁) hnodup).mpr fun n => ?_
  rw [List.mem_cons, mem_archives, mem_archives]
  by_cases hn : n = a.archive
  · subst hn
    refine ⟨fun _ => .inl rfl, fun _ => ⟨rfl, ?_⟩⟩
    rw [← AList.lookup_isSome, h.archive]
    rfl
  · refine ⟨fun ⟨harchive, hmem⟩ => .inr ⟨harchive, ?_⟩, fun hmem => ?_⟩
    · rwa [← AList.lookup_isSome, ← h.frame n (Attempt.not_owns_archive harchive hn),
        AList.lookup_isSome]
    · obtain ⟨harchive, hmem⟩ := hmem.resolve_left hn
      exact ⟨harchive, by rwa [← AList.lookup_isSome,
        h.frame n (Attempt.not_owns_archive harchive hn), AList.lookup_isSome]⟩

/-- The archives that outrank the new one are the preferred ones. -/
theorem Written.length_outranks (h : Written w a d₀ d₁ mtime) (hnew : a.archive ∉ d₀) :
    ((archives d₁).filter fun y => Outranks (modified d₁) listing a.archive y).length =
      (preferred d₀ listing a mtime).length := by
  have hself : modified d₁ a.archive = mtime := by rw [modified, h.archive]; rfl
  have hnot : ¬ Outranks (modified d₁) listing a.archive a.archive := not_outranks_self
  rw [((h.archives_perm hnew).filter _).length_eq, List.filter_cons_of_neg (by simpa using hnot),
    preferred]
  congr 1
  refine List.filter_congr fun n hn => ?_
  obtain ⟨harchive, hmem⟩ := mem_archives.mp hn
  have hne : n ≠ a.archive := fun heq => hnew (heq ▸ hmem)
  have hmodified : modified d₁ n = modified d₀ n := by
    rw [modified, h.frame n (Attempt.not_owns_archive harchive hne), modified]
  simp only [Outranks, hself, hmodified]

end Written

/-- The clean-up of a successful attempt removes no archive. -/
theorem archives_erase_partial (d : Directory B) (a : Attempt) :
    (archives (d.erase a.partialArchive)).Perm (archives d) := by
  refine (List.perm_ext_iff_of_nodup (archives_nodup _) (archives_nodup d)).mpr fun n => ?_
  rw [mem_archives, mem_archives, AList.mem_erase]
  refine ⟨fun h => ⟨h.1, h.2.2⟩, fun h => ⟨h.1, ?_, h.2⟩⟩
  rintro rfl
  cases h.1

/-- What is left is a complete backup if and only if pruning has kept the new archive. -/
theorem complete_iff {m : BackupManager} {listing : List FileName} {mtime : ℤ}
    {d₁ d₂ : Directory B} (hnew : a.archive ∉ d₀) (hwritten : Written w a d₀ d₁ mtime)
    (hkept : Kept m listing d₁ d₂) :
    Complete w m a d₀ (d₂.erase a.partialArchive) ↔
      (preferred d₀ listing a mtime).length < m.retention := by
  have hmem : a.archive ∈ archives d₁ :=
    (hwritten.archives_perm hnew).mem_iff.mpr List.mem_cons_self
  have hperm := archives_erase_partial d₂ a
  rw [← hwritten.length_outranks hnew, ← hkept.mem_archives_iff hmem, ← hperm.mem_iff]
  refine ⟨Complete.kept, fun hleft => ?_⟩
  have hnames : ∀ n ∈ (descending (modified d₁) listing).drop m.retention, n.isArchive := by
    intro n hn
    have hlisted := hkept.listed.mem_iff.mp (mem_descending.mp (List.mem_of_mem_drop hn))
    exact (mem_archives.mp hlisted).1
  have hnot : a.archive ∉ (descending (modified d₁) listing).drop m.retention := by
    intro hdrop
    have hnone := hkept.pruned _ (.inl hdrop)
    rw [AList.lookup_eq_none] at hnone
    exact hnone (mem_archives.mp (hperm.mem_iff.mp hleft)).2
  obtain ⟨hchecksum, hmetadata⟩ := not_pruned_sidecar hnames hnot
  have harchive : ¬ Pruned ((descending (modified d₁) listing).drop m.retention) a.archive :=
    fun hp => hnot ((pruned_archive rfl).mp hp)
  have hframe : ∀ n, n ≠ a.partialArchive →
      ¬ Pruned ((descending (modified d₁) listing).drop m.retention) n →
      (d₂.erase a.partialArchive).lookup n = d₁.lookup n :=
    fun n hne hn => (AList.lookup_erase_ne hne).trans (hkept.kept n hn)
  refine ⟨⟨mtime, ?_⟩, ?_, ?_, ?_, hleft⟩
  · rw [hframe a.archive nofun harchive, hwritten.archive]
  · rw [hframe a.checksum nofun hchecksum]
    exact hwritten.checksum
  · rw [← AList.lookup_isSome, hframe a.metadata nofun hmetadata, AList.lookup_isSome]
    exact hwritten.metadata
  · rw [hperm.length_eq, hkept.length_archives, (hwritten.archives_perm hnew).length_eq,
      List.length_cons]

theorem BackupManager.reraise_raises {e : Err} : w.world.Raises (reraise e) := by
  cases e <;> exact World.raises_throw

/-- **When the archive that is returned is there.** In every run in which `create` returns, the
path it returns is that of the new archive, and it leaves a complete backup if and only if fewer
of the archives that were there are preferred to the new one than are kept. -/
theorem BackupManager.create_complete_iff {m : BackupManager} {path : FileName}
    {past : List (Move Request Reply (Directory B))} (hw : w.faithful)
    (he : w.world.Exec (m.create a).run [] d₀ (.done (.ok path)) past d) :
    path = a.archive ∧ ∃ listing mtime,
      (∃ d₁ d₂, ⟨.glob, .ok listing, d₁, d₂⟩ ∈ past) ∧ Wrote a mtime past ∧
      (Complete w m a d₀ d ↔ (preferred d₀ listing a mtime).length < m.retention) := by
  refine World.Returns.exec_done (P := fun path past d => path = a.archive ∧ ∃ listing mtime,
      (∃ d₁ d₂, ⟨.glob, .ok listing, d₁, d₂⟩ ∈ past) ∧ Wrote a mtime past ∧
      (Complete w m a d₀ d ↔ (preferred d₀ listing a mtime).length < m.retention)) ?_ he
  refine returns_ask_bind fun isDir d₁ h₁ => ?_
  obtain rfl : d₁ = d₀ := h₁
  split
  · exact World.returns_throw
  refine returns_ask_bind fun _ d₂ h₂ => returns_ask_bind fun taken d₃ h₃ => ?_
  obtain rfl : d₂ = d₁ := h₂
  obtain ⟨rfl, rfl⟩ := h₃
  split
  · exact World.returns_throw
  rename_i hfree
  have hnew : a.archive ∉ d₃ := by rwa [← AList.lookup_isSome]
  refine World.returns_withCleanup (P := fun path past d => path = a.archive ∧
    ∃ listing mtime d₁, (∃ d₁ d₂, ⟨.glob, .ok listing, d₁, d₂⟩ ∈ past) ∧ Wrote a mtime past ∧
      Written w a d₃ d₁ mtime ∧ Kept m listing d₁ d) ?_ ?_
  · refine World.returns_tryCatch ?_ fun _ _ _ => BackupManager.reraise_raises.returns
    refine (BackupManager.writeBackup_returns hw).seq fun _ past₁ d₄ _ h₄ => ?_
    obtain ⟨mtime, hwrote, hwritten⟩ := h₄
    refine BackupManager.prune_returns.seq fun _ past₂ d₅ hpast h₅ => ?_
    obtain ⟨listing, hlisted, hkept⟩ := h₅
    exact World.returns_pure
      ⟨rfl, listing, mtime, d₄, hlisted, hwrote.mono hpast, hwritten, hkept⟩
  · rintro _ past₁ d₄ - ⟨rfl, listing, mtime, d₅, ⟨_, _, hlisted⟩, hwrote, hwritten, hkept⟩
    refine returns_ask_bind fun _ d₆ h₆ => ?_
    obtain rfl : d₆ = d₄.erase a.partialArchive := h₆
    refine World.returns_pure ⟨rfl, listing, mtime, ⟨_, _, List.mem_cons_of_mem _ hlisted⟩,
      hwrote.mono (List.suffix_cons _ _), complete_iff hnew hwritten hkept⟩

/-- The backup at time 30 is complete, and the oldest archive is pruned for it. -/
theorem BackupManager.create_complete_first : ∃ past d,
    Media.sample.world.Exec (BackupManager.sample.create Attempt.sample).run [] Directory.sample
      (.done (.ok Attempt.sample.archive)) past d ∧
    Complete Media.sample BackupManager.sample Attempt.sample Directory.sample d ∧
    .preUpdate "3-to-4-20250101T000000Z" ∉ d := by
  have hlegal : Media.sample.world.legal (Media.sample.obliging 30) 40
      (BackupManager.sample.create Attempt.sample).run [] Directory.sample = true := by decide
  have hrun := Media.sample.world.exec_runFor (Media.sample.obliging 30) 40 _ [] Directory.sample
    hlegal
  have hdone : (Media.sample.world.runFor (Media.sample.obliging 30) 40
      (BackupManager.sample.create Attempt.sample).run [] Directory.sample).1 =
    .done (.ok Attempt.sample.archive) := rfl
  have hwritten : ∀ m ∈ (Media.sample.world.runFor (Media.sample.obliging 30) 40
      (BackupManager.sample.create Attempt.sample).run [] Directory.sample).2.1,
      m.request = .writeArchive Attempt.sample.partialArchive →
        (m.after.lookup Attempt.sample.partialArchive).map File.mtime = some 30 := by decide
  have hold : ∀ n ∈ archives Directory.sample, modified Directory.sample n < 30 := by decide
  rw [hdone] at hrun
  obtain ⟨-, listing, mtime, -, ⟨_, _, hwrote, hmtime⟩, hcomplete⟩ :=
    BackupManager.create_complete_iff rfl hrun
  obtain rfl : 30 = mtime := Option.some.inj ((hwritten _ hwrote rfl).symm.trans hmtime)
  have hnone : preferred Directory.sample listing Attempt.sample 30 = [] := by
    rw [preferred, List.filter_eq_nil_iff]
    intro n hn
    have hlt : modified Directory.sample n < 30 := hold n hn
    simp only [decide_eq_true_eq]
    omega
  refine ⟨_, _, hrun, hcomplete.mpr ?_, by decide⟩
  rw [hnone]
  exact Nat.zero_lt_two

/-- **Archives from the future.** Two archives are kept, and the two that are there have later
modification times than the new one: it is pruned, and returned. -/
theorem BackupManager.create_pruned : ∃ past d,
    Media.sample.world.Exec (BackupManager.sample.create Attempt.sample).run [] Directory.sample
      (.done (.ok Attempt.sample.archive)) past d ∧ Attempt.sample.archive ∉ d := by
  have hlegal : Media.sample.world.legal (Media.sample.obliging 5) 40
      (BackupManager.sample.create Attempt.sample).run [] Directory.sample = true := by decide
  have hrun := Media.sample.world.exec_runFor (Media.sample.obliging 5) 40 _ [] Directory.sample
    hlegal
  have hdone : (Media.sample.world.runFor (Media.sample.obliging 5) 40
      (BackupManager.sample.create Attempt.sample).run [] Directory.sample).1 =
    .done (.ok Attempt.sample.archive) := rfl
  rw [hdone] at hrun
  exact ⟨_, _, hrun, by decide⟩

end Backup

end PzServer
