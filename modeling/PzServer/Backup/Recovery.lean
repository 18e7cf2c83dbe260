import PzServer.Backup.Effect

/-!
# What `create` leaves when it raises

A failed attempt is to leave the backup directory as it was. Up to the pruning nothing that was
there is touched, unless a sidecar of the new archive's name was left over from an earlier archive;
the clean-up then removes what the attempt has made, and such a leftover with it. Pruning is part
of what can fail, and the archives it has unlinked by then do not come back.

The directory is followed through the two parts of an attempt. While the backup is written
(`Base`), only the files of the attempt change. From the pruning on (`Removing`), files only
disappear, so that the directory in the end is determined by the moves that removed something.

## Main results

* `BackupManager.writeBackup_base` — writing the backup leaves every other file alone
* `BackupManager.prune_removing`, `BackupManager.cleanUp_ends` — what is removed, and in what order
* `BackupManager.create_recovers_iff` — when a failed attempt leaves the directory as it was
-/

namespace PzServer

namespace Backup

open Interaction Collections

variable {B : Type} {w : Media B} {d d' d₀ d₁ : Directory B} {a : Attempt} {n : FileName}
  {past : List (Move Request Reply (Directory B))}

/-- An archive, a sidecar of one, or one that is still being written. -/
def FileName.isBackup (n : FileName) : Bool := n.isArchive || n.isSidecar || n.isPartial

/-- The four files of an attempt. -/
def Attempt.files (a : Attempt) : List FileName :=
  [a.partialArchive, a.archive, a.checksum, a.metadata]

/-- **What a failed attempt is to leave**: every archive and sidecar that was there, and no archive,
sidecar or partial file that was not. -/
structure Recovered (d₀ d : Directory B) : Prop where
  kept : ∀ n file, n.isArchive ∨ n.isSidecar → d₀.lookup n = some file → d.lookup n = some file
  clean : ∀ n file, n.isBackup → d.lookup n = some file → d₀.lookup n = some file

/-- The move unlinked `n`. -/
def Takes (m : Move Request Reply (Directory B)) (n : FileName) : Prop :=
  match m.request, m.reply with
  | .unlink name _, .ok _ | .discard name, .ok _ => name = n
  | _, _ => False

theorem Takes.cases {m : Move Request Reply (Directory B)} (h : Takes m n) :
    (∃ missingOk d₂ d₃, m = ⟨.unlink n missingOk, .ok (), d₂, d₃⟩) ∨
      ∃ d₂ d₃, m = ⟨.discard n, .ok (), d₂, d₃⟩ := by
  obtain ⟨q, r, d₂, d₃⟩ := m
  cases q with
  | unlink name missingOk =>
    cases r with
    | ok =>
      obtain rfl : name = n := h
      exact .inl ⟨missingOk, d₂, d₃, rfl⟩
    | error => exact h.elim
  | discard name =>
    cases r with
    | ok =>
      obtain rfl : name = n := h
      exact .inr ⟨d₂, d₃, rfl⟩
    | error => exact h.elim
  | _ => exact h.elim

/-- `n` was unlinked. -/
def Removed (past : List (Move Request Reply (Directory B))) (n : FileName) : Prop :=
  ∃ m ∈ past, Takes m n

theorem Removed.mono {past' : List (Move Request Reply (Directory B))} (h : Removed past n)
    (hsuf : past <:+ past') : Removed past' n := by
  obtain ⟨m, hm, htakes⟩ := h
  exact ⟨m, hsuf.subset hm, htakes⟩

theorem removed_cons {m : Move Request Reply (Directory B)} :
    Removed (m :: past) n ↔ Takes m n ∨ Removed past n := by
  rw [Removed, List.exists_mem_cons_iff]
  rfl

/-- **A failure that does no harm**: pruning has unlinked no older archive, no sidecar was
unlinked that was there before, and no unlink of the clean-up has failed while a file of the
attempt was there. -/
structure Harmless (a : Attempt) (d₀ : Directory B)
    (past : List (Move Request Reply (Directory B))) : Prop where
  unpruned : ∀ name d₂ d₃, ⟨.unlink name false, .ok (), d₂, d₃⟩ ∈ past → name = a.archive
  orphans : ∀ n, n = a.checksum ∨ n = a.metadata → Removed past n → n ∉ d₀
  swept : ∀ name e d₂ d₃, ⟨.discard name, .error e, d₂, d₃⟩ ∈ past → name ∈ a.files →
    ∀ n ∈ a.files, ∀ file, d₂.lookup n = some file → d₀.lookup n = some file

/-! ### While the backup is written -/

/-- The requests made before the pruning. -/
def Writes (a : Attempt) : Request → Prop
  | .writeArchive name => name = a.partialArchive
  | .replace source target => ¬ source.isBackup ∧ (target = a.checksum ∨ target = a.metadata) ∨
    source = a.partialArchive ∧ target = a.archive
  | .writeNew name _ | .discard name => ¬ name.isBackup
  | .unlink .. => False
  | _ => True

theorem only_ask {q : Request} (h : Writes a q) :
    w.world.Only (fun m => Writes a m.request) (ask q) :=
  World.only_ask fun _ _ _ => h

theorem only_ask_bind {α : Type} {q : Request} {f : Value q → BackupM α} (h : Writes a q)
    (hf : ∀ v, w.world.Only (fun m => Writes a m.request) (f v)) :
    w.world.Only (fun m => Writes a m.request) (ask q >>= f) :=
  (only_ask h).bind hf

theorem atomicWrite_writes {path : FileName} {content : String}
    (hpath : path = a.checksum ∨ path = a.metadata) :
    w.world.Only (fun m => Writes a m.request) (atomicWrite a.pid path content) := by
  refine only_ask_bind trivial fun _ => only_ask_bind trivial fun uuid => ?_
  have htemporary : ¬ (FileName.temporary path a.pid uuid).isBackup := nofun
  refine World.Only.withCleanup ?_ fun _ => only_ask htemporary
  refine only_ask_bind htemporary fun _ => only_ask_bind trivial fun _ => ?_
  exact only_ask_bind (.inl ⟨htemporary, hpath⟩) fun _ => only_ask trivial

theorem BackupManager.writeBackup_writes :
    w.world.Only (fun m => Writes a m.request) (BackupManager.writeBackup a) := by
  refine only_ask_bind rfl fun _ => only_ask_bind trivial fun _ =>
    only_ask_bind trivial fun names => ?_
  split
  · exact World.only_throw_bind
  refine only_ask_bind trivial fun digest => only_ask_bind trivial fun _ =>
    only_ask_bind (.inr ⟨rfl, rfl⟩) fun _ => only_ask_bind trivial fun _ => ?_
  refine (atomicWrite_writes (.inl rfl)).bind fun _ => only_ask_bind trivial fun createdAt => ?_
  refine (atomicWrite_writes (.inr rfl)).bind fun _ => only_ask_bind trivial fun again => ?_
  split
  · exact World.only_throw
  · exact World.only_pure

/-- What was there is still there, but for the files of the attempt; and its sidecars, if they were
there, may have been replaced but not removed. -/
structure Base (a : Attempt) (d₀ d : Directory B) : Prop where
  frame : ∀ n, n.isBackup → n ∉ a.files → d.lookup n = d₀.lookup n
  sidecars : ∀ n, n = a.checksum ∨ n = a.metadata → n ∈ d₀ → n ∈ d

/-- No backup file was unlinked. -/
def Quiet (past : List (Move Request Reply (Directory B))) : Prop :=
  ∀ m ∈ past, match m.request with
    | .unlink .. => False
    | .discard name => ¬ name.isBackup
    | _ => True

theorem Base.insert {name : FileName} {file : File B} (h : Base a d₀ d)
    (hname : name.isBackup → name ∈ a.files) : Base a d₀ (d.insert name file) := by
  refine ⟨fun n hn hfiles => ?_, fun n hn hmem => ?_⟩
  · have hne : n ≠ name := fun heq => hfiles (heq ▸ hname (heq ▸ hn))
    rw [AList.lookup_insert_ne hne, h.frame n hn hfiles]
  · exact (AList.mem_insert _).mpr (.inr (h.sidecars n hn hmem))

theorem Base.erase {name : FileName} (h : Base a d₀ d) (hname : name.isBackup → name ∈ a.files)
    (hsidecar : name ≠ a.checksum ∧ name ≠ a.metadata) : Base a d₀ (d.erase name) := by
  refine ⟨fun n hn hfiles => ?_, fun n hn hmem => ?_⟩
  · have hne : n ≠ name := fun heq => hfiles (heq ▸ hname (heq ▸ hn))
    rw [AList.lookup_erase_ne hne, h.frame n hn hfiles]
  · refine AList.mem_erase.mpr ⟨?_, h.sidecars n hn hmem⟩
    rintro rfl
    rcases hn with hn | hn
    · exact hsidecar.1 hn
    · exact hsidecar.2 hn

/-- One request of the writing part. -/
theorem Base.step {q : Request} {r : Reply q} (h : Base a d₀ d) (he : Effect w d d' q r)
    (hq : Writes a q) : Base a d₀ d' := by
  have hfiles : ∀ {n}, n = a.checksum ∨ n = a.metadata → n ∈ a.files := by
    rintro n (rfl | rfl)
    · simp [Attempt.files]
    · simp [Attempt.files]
  have hsidecar : ∀ {n}, ¬ n.isBackup → n ≠ a.checksum ∧ n ≠ a.metadata := by
    refine fun hn => ⟨?_, ?_⟩
    · rintro rfl
      exact hn rfl
    · rintro rfl
      exact hn rfl
  cases q with
  | writeArchive name =>
    obtain rfl : name = a.partialArchive := hq
    have hname : a.partialArchive ∈ a.files := by simp [Attempt.files]
    cases r with
    | ok =>
      obtain ⟨mtime, rfl⟩ := he
      exact h.insert fun _ => hname
    | error e =>
      rcases he with rfl | ⟨file, rfl⟩
      · exact h
      · exact h.insert fun _ => hname
  | writeNew name content =>
    cases r with
    | ok =>
      obtain ⟨-, mtime, rfl⟩ := he
      exact h.insert fun hn => absurd hn hq
    | error e =>
      rcases he with rfl | ⟨file, rfl⟩
      · exact h
      · exact h.insert fun hn => absurd hn hq
  | replace source target =>
    cases r with
    | ok =>
      obtain ⟨file, -, rfl⟩ := he
      rcases hq with ⟨hsource, htarget⟩ | ⟨rfl, rfl⟩
      · exact (h.erase (fun hn => absurd hn hsource) (hsidecar hsource)).insert
          fun _ => hfiles htarget
      · have hpartial : a.partialArchive ∈ a.files := by simp [Attempt.files]
        have harchive : a.archive ∈ a.files := by simp [Attempt.files]
        exact (h.erase (fun _ => hpartial) ⟨nofun, nofun⟩).insert fun _ => harchive
    | error e => exact (show d' = d from he) ▸ h
  | discard name =>
    cases r with
    | ok =>
      obtain rfl := he
      exact h.erase (fun hn => absurd hn hq) (hsidecar hq)
    | error e => exact (show d' = d from he) ▸ h
  | unlink => exact hq.elim
  | dataRootIsDir | mkdirBackupRoot | fsync | chmod | fsyncDirectory | utcNow | uuid =>
    exact (show d' = d by cases r <;> exact he) ▸ h
  | «exists» | memberNames | sha256 | glob | mtime =>
    have heq : d' = d := by
      cases r with
      | ok => exact he.1
      | error => exact he
    exact heq ▸ h

theorem Quiet.cons {q : Request} {r : Reply q} (h : Quiet past) (hq : Writes a q) :
    Quiet (⟨q, r, d, d'⟩ :: past) := by
  rintro m (_ | ⟨_, hm⟩)
  · cases q with
    | unlink => exact hq
    | discard => exact hq
    | _ => trivial
  · exact h m hm

/-- **Writing the backup leaves every other file alone.** -/
theorem BackupManager.writeBackup_base (hquiet : Quiet past) (h : Base a d₀ d) :
    w.world.Ensures (fun _ _ => True) (BackupManager.writeBackup a)
      (fun _ past' d' => Quiet past' ∧ Base a d₀ d') (fun _ past' d' => Quiet past' ∧ Base a d₀ d')
      past d :=
  writeBackup_writes.preserves (K := fun past d => Quiet past ∧ Base a d₀ d)
    (fun _ _ _ _ hc hq hK => ⟨trivial, hK.1.cons hq, hK.2.step (w.effect_answer hc) hq⟩)
    ⟨hquiet, h⟩

/-! ### From the pruning on -/

/-- Since the directory was `d₁`, files have only disappeared, and the moves tell which. -/
structure Removing (a : Attempt) (d₁ : Directory B) (past : List (Move Request Reply (Directory B)))
    (d : Directory B) : Prop where
  removed : ∀ n, n.isBackup → Removed past n → d.lookup n = none
  left : ∀ n, n.isBackup → ¬ Removed past n → d.lookup n = d₁.lookup n
  archive : ∀ n d₂ d₃, ⟨.unlink n false, .ok (), d₂, d₃⟩ ∈ past → n.isArchive ∧ n ∈ d₁
  sidecar : ∀ n d₂ d₃, ⟨.unlink n true, .ok (), d₂, d₃⟩ ∈ past →
    ∃ archive d₄ d₅, (n = .checksum archive ∨ n = .metadata archive) ∧
      ⟨.unlink archive false, .ok (), d₄, d₅⟩ ∈ past
  discarded : ∀ n d₂ d₃, ⟨.discard n, .ok (), d₂, d₃⟩ ∈ past → n.isBackup → n ∈ a.files
  unswept : ∀ n e d₂ d₃, ⟨.discard n, .error e, d₂, d₃⟩ ∈ past → n ∉ a.files

theorem not_removed (h : Quiet past) (hn : n.isBackup) : ¬ Removed past n := by
  rintro ⟨m, hm, htakes⟩
  rcases htakes.cases with ⟨missingOk, d₂, d₃, rfl⟩ | ⟨d₂, d₃, rfl⟩
  · exact h _ hm
  · exact h _ hm hn

theorem Attempt.isBackup_of_mem_files (h : n ∈ a.files) : n.isBackup := by
  simp only [Attempt.files, List.mem_cons, List.not_mem_nil, or_false] at h
  rcases h with rfl | rfl | rfl | rfl <;> rfl

/-- Nothing has disappeared yet. -/
theorem Removing.start (h : Quiet past) : Removing a d past d where
  removed _ hn hr := absurd hr (not_removed h hn)
  left _ _ _ := rfl
  archive _ _ _ hmem := (h _ hmem).elim
  sidecar _ _ _ hmem := (h _ hmem).elim
  discarded _ _ _ hmem hn := absurd hn (h _ hmem)
  unswept _ _ _ _ hmem hfiles := h _ hmem (Attempt.isBackup_of_mem_files hfiles)

/-- A move that removes nothing and is no failed unlink of the clean-up. -/
def Idle (m : Move Request Reply (Directory B)) : Prop :=
  match m.request, m.reply with
  | .unlink .., .ok _ | .discard _, _ => False
  | _, _ => True

theorem Idle.not_takes {m : Move Request Reply (Directory B)} (h : Idle m) : ¬ Takes m n := by
  intro htakes
  rcases htakes.cases with ⟨_, _, _, rfl⟩ | ⟨_, _, rfl⟩ <;> exact h

theorem Removing.idle {m : Move Request Reply (Directory B)} (h : Removing a d₁ past d)
    (hm : Idle m) : Removing a d₁ (m :: past) d := by
  have htail : ∀ {m'}, ¬ Idle m' → m' ∈ m :: past → m' ∈ past := fun hm' hmem =>
    (List.mem_cons.mp hmem).resolve_left fun heq => hm' (heq ▸ hm)
  refine ⟨fun n hn hr => ?_, fun n hn hr => ?_, ?_, ?_, ?_, ?_⟩
  · exact h.removed n hn ((removed_cons.mp hr).resolve_left hm.not_takes)
  · exact h.left n hn fun hr' => hr (removed_cons.mpr (.inr hr'))
  · exact fun n d₂ d₃ hmem => h.archive n d₂ d₃ (htail id hmem)
  · intro n d₂ d₃ hmem
    obtain ⟨archive, d₄, d₅, hn, hunlinked⟩ := h.sidecar n d₂ d₃ (htail id hmem)
    exact ⟨archive, d₄, d₅, hn, List.mem_cons_of_mem _ hunlinked⟩
  · exact fun n d₂ d₃ hmem => h.discarded n d₂ d₃ (htail id hmem)
  · exact fun n e d₂ d₃ hmem => h.unswept n e d₂ d₃ (htail id hmem)

/-- A move that unlinks `name`, and that the other conditions allow. -/
theorem Removing.erase {name : FileName} {m : Move Request Reply (Directory B)}
    (h : Removing a d₁ past d) (hm : Takes m name)
    (harchive : ∀ n d₂ d₃, m = ⟨.unlink n false, .ok (), d₂, d₃⟩ → n.isArchive ∧ n ∈ d₁)
    (hsidecar : ∀ n d₂ d₃, m = ⟨.unlink n true, .ok (), d₂, d₃⟩ →
      ∃ archive d₄ d₅, (n = .checksum archive ∨ n = .metadata archive) ∧
        ⟨.unlink archive false, .ok (), d₄, d₅⟩ ∈ past)
    (hdiscard : ∀ n d₂ d₃, m = ⟨.discard n, .ok (), d₂, d₃⟩ → n ∈ a.files) :
    Removing a d₁ (m :: past) (d.erase name) := by
  have htakes : ∀ n, Takes m n → n = name := by
    intro n hn
    rcases hm.cases with ⟨_, _, _, rfl⟩ | ⟨_, _, rfl⟩
    · exact hn.symm
    · exact hn.symm
  refine ⟨fun n hn hr => ?_, fun n hn hr => ?_, ?_, ?_, ?_, ?_⟩
  · rw [lookup_erase]
    split
    · rfl
    · rename_i hne
      exact h.removed n hn ((removed_cons.mp hr).resolve_left fun ht => hne (htakes n ht))
  · have hne : n ≠ name := fun heq => hr (removed_cons.mpr (.inl (heq ▸ hm)))
    rw [AList.lookup_erase_ne hne]
    exact h.left n hn fun hr' => hr (removed_cons.mpr (.inr hr'))
  · rintro n d₂ d₃ hmem
    rcases List.mem_cons.mp hmem with heq | hmem
    · exact harchive n d₂ d₃ heq.symm
    · exact h.archive n d₂ d₃ hmem
  · intro n d₂ d₃ hmem
    have hunlinked : ∃ archive d₄ d₅, (n = .checksum archive ∨ n = .metadata archive) ∧
        ⟨.unlink archive false, .ok (), d₄, d₅⟩ ∈ past := by
      rcases List.mem_cons.mp hmem with heq | hmem
      · exact hsidecar n d₂ d₃ heq.symm
      · exact h.sidecar n d₂ d₃ hmem
    obtain ⟨archive, d₄, d₅, hn, hunlinked⟩ := hunlinked
    exact ⟨archive, d₄, d₅, hn, List.mem_cons_of_mem _ hunlinked⟩
  · intro n d₂ d₃ hmem hn
    rcases List.mem_cons.mp hmem with heq | hmem
    · exact hdiscard n d₂ d₃ heq.symm
    · exact h.discarded n d₂ d₃ hmem hn
  · intro n e d₂ d₃ hmem
    rcases List.mem_cons.mp hmem with heq | hmem
    · rw [← heq] at hm
      exact hm.elim
    · exact h.unswept n e d₂ d₃ hmem

/-- What is there now was there before. -/
theorem Removing.mem (h : Removing a d₁ past d) (hn : n.isBackup) (hmem : n ∈ d) : n ∈ d₁ := by
  have hr : ¬ Removed past n := fun hr => AList.lookup_eq_none.mp (h.removed n hn hr) hmem
  rwa [← AList.lookup_isSome, ← h.left n hn hr, AList.lookup_isSome]

theorem FileName.isBackup_of_isArchive (h : n.isArchive) : n.isBackup := by
  rw [isBackup, h]
  rfl

/-- How the clean-up ends: all files of the attempt were unlinked, or the last move was an unlink
that failed. -/
def Ends (a : Attempt) (d₁ : Directory B) (past : List (Move Request Reply (Directory B)))
    (d : Directory B) : Prop :=
  (Removing a d₁ past d ∧ ∀ n ∈ a.files, Removed past n) ∨
    ∃ name e past', past = ⟨.discard name, .error e, d, d⟩ :: past' ∧ name ∈ a.files ∧
      Removing a d₁ past' d

namespace BackupManager

variable {names : List FileName}

/-- An archive is unlinked, or a sidecar of one that was. -/
theorem unlink_removing (missingOk : Bool) (h : Removing a d₁ past d)
    (harchive : missingOk = false → n.isArchive)
    (hsidecar : missingOk = true → ∃ archive d₂ d₃,
      (n = .checksum archive ∨ n = .metadata archive) ∧
        ⟨.unlink archive false, .ok (), d₂, d₃⟩ ∈ past) :
    w.world.Ensures (fun _ _ => True) (ask (.unlink n missingOk))
      (fun _ past' d' => Removing a d₁ past' d' ∧
        ∃ d₂ d₃, ⟨.unlink n missingOk, .ok (), d₂, d₃⟩ ∈ past')
      (fun _ past' d' => Removing a d₁ past' d') past d := by
  refine ensures_ask (fun _ _ _ => trivial) ?_ ?_
  · rintro _ d' ⟨hstrict, rfl⟩
    refine ⟨h.erase rfl ?_ ?_ nofun, _, _, List.mem_cons_self⟩
    · rintro n _ _ heq
      cases heq
      have hn := harchive rfl
      exact ⟨hn, h.mem (FileName.isBackup_of_isArchive hn) (hstrict rfl)⟩
    · rintro n _ _ heq
      cases heq
      exact hsidecar rfl
  · intro e d' he
    obtain rfl : d' = d := he
    exact h.idle (show Idle ⟨.unlink n missingOk, .error e, d', d'⟩ from trivial)

/-- The loop of `_prune`: each archive goes before its sidecars. -/
theorem unlinkArchives_removing (hnames : ∀ n ∈ names, n.isArchive) (h : Removing a d₁ past d) :
    w.world.Ensures (fun _ _ => True) (unlinkArchives names)
      (fun _ past' d' => Removing a d₁ past' d') (fun _ past' d' => Removing a d₁ past' d')
      past d := by
  induction names generalizing past d with
  | nil => exact World.ensures_pure h
  | cons name names ih =>
    have hname : name.isArchive := hnames name List.mem_cons_self
    refine (unlink_removing false h (fun _ => hname) nofun).seq ?_ fun _ _ _ _ h => h
    rintro _ past₁ d₂ - ⟨h₁, d₃, d₄, hunlinked⟩
    refine (unlink_removing true h₁ nofun fun _ => ⟨name, d₃, d₄, .inl rfl, hunlinked⟩).seq ?_
      fun _ _ _ _ h => h
    rintro _ past₂ d₅ hsuf ⟨h₂, -⟩
    refine (unlink_removing true h₂ nofun fun _ =>
      ⟨name, d₃, d₄, .inr rfl, hsuf.subset hunlinked⟩).seq ?_ fun _ _ _ _ h => h
    rintro _ past₃ d₆ - ⟨h₃, -⟩
    exact ih (fun n hn => hnames n (List.mem_cons_of_mem _ hn)) h₃

theorem readTimes_removing (h : Removing a d₁ past d) :
    w.world.Ensures (fun _ _ => True) (readTimes names)
      (fun times past' d' => Removing a d₁ past' d' ∧ times.map Prod.snd = names)
      (fun _ past' d' => Removing a d₁ past' d') past d := by
  induction names generalizing past with
  | nil => exact World.ensures_pure ⟨h, rfl⟩
  | cons name names ih =>
    refine World.Ensures.bind (ensures_ask (fun _ _ _ => trivial) ?_ ?_)
    · rintro time d' ⟨rfl, -⟩
      refine (ih (h.idle (show Idle ⟨.mtime name, .ok time, d', d'⟩ from trivial))).seq ?_
        fun _ _ _ _ h => h
      rintro times past' d₂ - ⟨h', rfl⟩
      exact World.ensures_pure ⟨h', rfl⟩
    · intro e d' he
      obtain rfl : d' = d := he
      exact h.idle (show Idle ⟨.mtime name, .error e, d', d'⟩ from trivial)

/-- **What pruning removes**: archives that were listed, each before its sidecars. -/
theorem prune_removing {m : BackupManager} (h : Removing a d₁ past d) :
    w.world.Ensures (fun _ _ => True) m.prune (fun _ past' d' => Removing a d₁ past' d')
      (fun _ past' d' => Removing a d₁ past' d') past d := by
  refine World.Ensures.bind (ensures_ask (fun _ _ _ => trivial) ?_ ?_)
  · rintro listing d' ⟨rfl, hperm⟩
    have hlisting := h.idle (show Idle ⟨.glob, .ok listing, d', d'⟩ from trivial)
    refine (readTimes_removing hlisting).seq ?_ fun _ _ _ _ h => h
    rintro times past' d₂ - ⟨h', hnames⟩
    refine unlinkArchives_removing (fun n hn => ?_) h'
    obtain ⟨time, hmem, rfl⟩ := List.mem_map.mp hn
    have htimes := mem_descending.mp (List.mem_of_mem_drop hmem)
    have hlisted : time.2 ∈ listing := hnames ▸ List.mem_map_of_mem htimes
    exact (mem_archives.mp (hperm.mem_iff.mp hlisted)).1
  · intro e d' he
    obtain rfl : d' = d := he
    exact h.idle (show Idle ⟨.glob, .error e, d', d'⟩ from trivial)

/-! ### The clean-up -/

theorem discard_removing (hn : n ∈ a.files) (h : Removing a d₁ past d) :
    w.world.Ensures (fun _ _ => True) (ask (.discard n))
      (fun _ past' d' => Removing a d₁ past' d' ∧ Removed past' n)
      (fun _ past' d' => Ends a d₁ past' d') past d := by
  refine ensures_ask (fun _ _ _ => trivial) ?_ ?_
  · rintro _ d' he
    obtain rfl : d' = d.erase n := he
    refine ⟨h.erase rfl nofun nofun ?_, removed_cons.mpr (.inl rfl)⟩
    rintro n' _ _ heq
    cases heq
    exact hn
  · intro e d' he
    obtain rfl : d' = d := he
    exact .inr ⟨n, e, past, rfl, hn, h⟩

/-- The clean-up of a failed attempt. -/
theorem cleanUp_ends (h : Removing a d₁ past d) :
    w.world.Ensures (fun _ _ => True) (cleanUp a false) (fun _ past' d' => Ends a d₁ past' d')
      (fun _ past' d' => Ends a d₁ past' d') past d := by
  have hmem : a.partialArchive ∈ a.files ∧ a.archive ∈ a.files ∧ a.checksum ∈ a.files ∧
      a.metadata ∈ a.files := by simp [Attempt.files]
  refine (discard_removing hmem.1 h).seq ?_ fun _ _ _ _ h => h
  rintro _ past₁ _ - ⟨h₁, hpartial⟩
  refine (discard_removing hmem.2.1 h₁).seq ?_ fun _ _ _ _ h => h
  rintro _ past₂ _ hsuf₂ ⟨h₂, harchive⟩
  refine (discard_removing hmem.2.2.1 h₂).seq ?_ fun _ _ _ _ h => h
  rintro _ past₃ _ hsuf₃ ⟨h₃, hchecksum⟩
  refine ((discard_removing hmem.2.2.2 h₃).suffix).mono ?_ fun _ _ _ h => h.2
  rintro _ past₄ _ ⟨hsuf₄, h₄, hmetadata⟩
  refine .inl ⟨h₄, fun n hn => ?_⟩
  simp only [Attempt.files, List.mem_cons, List.not_mem_nil, or_false] at hn
  rcases hn with rfl | rfl | rfl | rfl
  · exact hpartial.mono ((hsuf₂.trans hsuf₃).trans hsuf₄)
  · exact harchive.mono (hsuf₃.trans hsuf₄)
  · exact hchecksum.mono hsuf₄
  · exact hmetadata

end BackupManager

/-! ### What a failure leaves -/

/-- What an attempt that failed has removed, and what it has left. -/
structure Settled (a : Attempt) (d₁ : Directory B) (past : List (Move Request Reply (Directory B)))
    (d : Directory B) : Prop where
  removed : ∀ n, n.isBackup → Removed past n → d.lookup n = none
  left : ∀ n, n.isBackup → ¬ Removed past n → d.lookup n = d₁.lookup n
  archive : ∀ n d₂ d₃, ⟨.unlink n false, .ok (), d₂, d₃⟩ ∈ past → n.isArchive ∧ n ∈ d₁
  owner : ∀ n, n.isBackup → Removed past n → n ∈ a.files ∨
    ∃ archive d₂ d₃, ⟨.unlink archive false, .ok (), d₂, d₃⟩ ∈ past ∧
      (n = archive ∨ n = .checksum archive ∨ n = .metadata archive)
  last : ∀ n e d₂ d₃, ⟨.discard n, .error e, d₂, d₃⟩ ∈ past → n ∈ a.files → d₂ = d
  ended : (∀ n ∈ a.files, Removed past n) ∨
    ∃ n e d₂ d₃, ⟨.discard n, .error e, d₂, d₃⟩ ∈ past ∧ n ∈ a.files

/-- Whose file was unlinked: one of the attempt's, or one of an archive that was unlinked. -/
theorem Removing.owner (h : Removing a d₁ past d) (hn : n.isBackup) (hr : Removed past n) :
    n ∈ a.files ∨ ∃ archive d₂ d₃, ⟨.unlink archive false, .ok (), d₂, d₃⟩ ∈ past ∧
      (n = archive ∨ n = .checksum archive ∨ n = .metadata archive) := by
  obtain ⟨m, hm, htakes⟩ := hr
  rcases htakes.cases with ⟨missingOk, d₂, d₃, rfl⟩ | ⟨d₂, d₃, rfl⟩
  · cases missingOk with
    | false => exact .inr ⟨n, d₂, d₃, hm, .inl rfl⟩
    | true =>
      obtain ⟨archive, d₄, d₅, hsidecar, hunlinked⟩ := h.sidecar n d₂ d₃ hm
      exact .inr ⟨archive, d₄, d₅, hunlinked, .inr hsidecar⟩
  · exact .inl (h.discarded n d₂ d₃ hm hn)

theorem Ends.settled (h : Ends a d₁ past d) : Settled a d₁ past d := by
  rcases h with ⟨h, hall⟩ | ⟨name, e, past, rfl, hname, h⟩
  · exact ⟨h.removed, h.left, h.archive, fun n hn hr => h.owner hn hr,
      fun n e d₂ d₃ hmem hn => absurd hn (h.unswept n e d₂ d₃ hmem), .inl hall⟩
  · have hremoved : ∀ {n}, Removed (⟨.discard name, .error e, d, d⟩ :: past) n ↔ Removed past n :=
      removed_cons.trans (or_iff_right id)
    have htail : ∀ {n missingOk d₂ d₃}, (⟨.unlink n missingOk, .ok (), d₂, d₃⟩ :
        Move Request Reply (Directory B)) ∈ (⟨.discard name, .error e, d, d⟩ :: past) →
        ⟨.unlink n missingOk, .ok (), d₂, d₃⟩ ∈ past :=
      fun hmem => (List.mem_cons.mp hmem).resolve_left nofun
    refine ⟨fun n hn hr => h.removed n hn (hremoved.mp hr),
      fun n hn hr => h.left n hn fun hr' => hr (hremoved.mpr hr'),
      fun n d₂ d₃ hmem => h.archive n d₂ d₃ (htail hmem), fun n hn hr => ?_, ?_,
      .inr ⟨name, e, d, d, List.mem_cons_self, hname⟩⟩
    · rcases h.owner hn (hremoved.mp hr) with hfiles | ⟨archive, d₂, d₃, hmem, heq⟩
      · exact .inl hfiles
      · exact .inr ⟨archive, d₂, d₃, List.mem_cons_of_mem _ hmem, heq⟩
    · intro n e' d₂ d₃ hmem hn
      rcases List.mem_cons.mp hmem with heq | hmem
      · cases heq
        rfl
      · exact absurd hn (h.unswept n e' d₂ d₃ hmem)

section Settled

variable (hbase : Base a d₀ d₁) (h : Settled a d₁ past d)
include hbase h

/-- A failure that does no harm leaves the directory as it was. -/
theorem Settled.recovered (hnew : a.archive ∉ d₀) (hharmless : Harmless a d₀ past) :
    Recovered d₀ d := by
  -- the only files that were unlinked are the attempt's
  have hown : ∀ n, n.isBackup → Removed past n → n ∈ a.files := by
    intro n hn hr
    rcases h.owner n hn hr with hfiles | ⟨archive, d₂, d₃, hmem, heq⟩
    · exact hfiles
    · obtain rfl := hharmless.unpruned archive d₂ d₃ hmem
      simp only [Attempt.files, List.mem_cons, List.not_mem_nil, or_false]
      rcases heq with rfl | rfl | rfl
      · exact .inr (.inl rfl)
      · exact .inr (.inr (.inl rfl))
      · exact .inr (.inr (.inr rfl))
  -- where the clean-up has failed, the attempt's files are those that were there
  have hleft : ∀ n ∈ a.files, ¬ Removed past n → ∀ file, d.lookup n = some file →
      d₀.lookup n = some file := by
    intro n hn hr file hfile
    rcases h.ended with hall | ⟨name, e, d₂, d₃, hmem, hname⟩
    · exact absurd (hall n hn) hr
    · obtain rfl := h.last name e d₂ d₃ hmem hname
      exact hharmless.swept name e _ d₃ hmem hname n hn file hfile
  refine ⟨fun n file hn hfile => ?_, fun n file hn hfile => ?_⟩
  · have hbackup : n.isBackup := by
      rw [FileName.isBackup]
      rcases hn with hn | hn <;> simp [hn]
    by_cases hfiles : n ∈ a.files
    · have hsidecar : n = a.checksum ∨ n = a.metadata := by
        have hmem := hfiles
        simp only [Attempt.files, List.mem_cons, List.not_mem_nil, or_false] at hmem
        rcases hmem with rfl | rfl | hsidecar
        · rcases hn with hn | hn <;> cases hn
        · rw [← AList.lookup_eq_none, hfile] at hnew
          cases hnew
        · exact hsidecar
      have hthere : n ∈ d₀ := AList.lookup_isSome.mp (by rw [hfile]; rfl)
      have hr : ¬ Removed past n := fun hr => hharmless.orphans n hsidecar hr hthere
      obtain ⟨file', hfile'⟩ := Option.isSome_iff_exists.mp
        (AList.lookup_isSome.mpr (hbase.sidecars n hsidecar hthere))
      have hd : d.lookup n = some file' := (h.left n hbackup hr).trans hfile'
      have hsame := hleft n hfiles hr file' hd
      rw [hd, ← hsame, hfile]
    · rw [h.left n hbackup fun hr => hfiles (hown n hbackup hr), hbase.frame n hbackup hfiles,
        hfile]
  · have hr : ¬ Removed past n := by
      intro hr
      rw [h.removed n hn hr] at hfile
      cases hfile
    by_cases hfiles : n ∈ a.files
    · exact hleft n hfiles hr file hfile
    · rwa [← hbase.frame n hn hfiles, ← h.left n hn hr]

/-- A directory that is as it was comes from a failure that has done no harm. -/
theorem Settled.harmless (hrecovered : Recovered d₀ d) : Harmless a d₀ past := by
  have hgone : ∀ n, n.isArchive ∨ n.isSidecar → Removed past n → n ∉ d₀ := by
    intro n hn hr hmem
    have hbackup : n.isBackup := by
      rw [FileName.isBackup]
      rcases hn with hn | hn <;> simp [hn]
    obtain ⟨file, hfile⟩ := Option.isSome_iff_exists.mp (AList.lookup_isSome.mpr hmem)
    have hkept := hrecovered.kept n file hn hfile
    rw [h.removed n hbackup hr] at hkept
    cases hkept
  refine ⟨fun name d₂ d₃ hmem => ?_, fun n hn hr => ?_, fun name e d₂ d₃ hmem hname n hn file => ?_⟩
  · obtain ⟨harchive, hthere⟩ := h.archive name d₂ d₃ hmem
    by_contra hne
    have hbackup := FileName.isBackup_of_isArchive harchive
    have hfiles : name ∉ a.files := by
      simp only [Attempt.files, List.mem_cons, List.not_mem_nil, or_false]
      rintro (rfl | rfl | rfl | rfl)
      · cases harchive
      · exact hne rfl
      · cases harchive
      · cases harchive
    refine hgone name (.inl harchive) ⟨_, hmem, rfl⟩ ?_
    rwa [← AList.lookup_isSome, ← hbase.frame name hbackup hfiles, AList.lookup_isSome]
  · refine hgone n ?_ hr
    rcases hn with rfl | rfl
    · exact .inr rfl
    · exact .inr rfl
  · obtain rfl := h.last name e d₂ d₃ hmem hname
    exact hrecovered.clean n file (Attempt.isBackup_of_mem_files hn)

end Settled

theorem recovered_self : Recovered d d := ⟨fun _ _ _ h => h, fun _ _ _ h => h⟩

/-- Before the backup is written no failure does harm. -/
theorem harmless_of_quiet (h : Quiet past) : Harmless a d₀ past where
  unpruned _ _ _ hmem := (h _ hmem).elim
  orphans n hn hr := by
    refine absurd hr (not_removed h ?_)
    rcases hn with rfl | rfl <;> rfl
  swept _ _ _ _ hmem hname := absurd (Attempt.isBackup_of_mem_files hname) (h _ hmem)

/-- A request that is made before the backup is written. -/
theorem read_ensures {q : Request} {f : Value q → BackupM FileName}
    (hread : ∀ r d', Effect w d₀ d' q r → d' = d₀) (hq : Writes a q) (hquiet : Quiet past)
    (hf : ∀ v past', Quiet past' → Effect w d₀ d₀ q (.ok v) →
      w.world.Ensures (fun _ _ => True) (f v) (fun _ _ _ => True)
        (fun _ past d => Recovered d₀ d ↔ Harmless a d₀ past) past' d₀) :
    w.world.Ensures (fun _ _ => True) (ask q >>= f) (fun _ _ _ => True)
      (fun _ past d => Recovered d₀ d ↔ Harmless a d₀ past) past d₀ := by
  refine .bind (ensures_ask (fun _ _ _ => trivial) (fun v d' h => ?_) fun e d' h => ?_)
  · obtain rfl := hread _ d' h
    exact hf v _ (hquiet.cons hq) h
  · obtain rfl := hread _ d' h
    exact iff_of_true recovered_self (harmless_of_quiet (hquiet.cons hq))

/-- The protected part of `create`, however it ends. -/
theorem BackupManager.protected_removing {m : BackupManager} (hquiet : Quiet past)
    (h : Base a d₀ d) :
    w.world.Ensures (fun _ _ => True)
      (tryCatch
        (do
          writeBackup a
          m.prune
          return a.archive)
        reraise)
      (fun _ past' d' => ∃ d₁, Base a d₀ d₁ ∧ Removing a d₁ past' d')
      (fun _ past' d' => ∃ d₁, Base a d₀ d₁ ∧ Removing a d₁ past' d') past d := by
  refine World.Ensures.handle (show w.world.Ensures _ _ _ (fun _ past' d' => ∃ d₁,
    Base a d₀ d₁ ∧ Removing a d₁ past' d') past d from ?_) (fun _ _ _ _ h => h) ?_
  · refine (writeBackup_base hquiet h).seq ?_ fun _ _ d₁ _ h₁ => ⟨d₁, h₁.2, .start h₁.1⟩
    rintro _ past₁ d₁ - ⟨hquiet₁, hbase₁⟩
    refine (prune_removing (.start hquiet₁)).seq ?_ fun _ _ _ _ h₂ => ⟨d₁, hbase₁, h₂⟩
    exact fun _ _ _ _ h₂ => World.ensures_pure ⟨d₁, hbase₁, h₂⟩
  · intro e past₁ d₁ _ h₁
    cases e <;> exact World.ensures_throw h₁

/-- **When a failed attempt leaves the directory as it was.** In every run in which `create` raises,
every archive and sidecar that was there is there unchanged and no file of the attempt is left, if
and only if the failure does no harm. -/
theorem BackupManager.create_recovers_iff {m : BackupManager} {e : Err}
    (he : w.world.Exec (m.create a).run [] d₀ (.done (.error e)) past d) :
    Recovered d₀ d ↔ Harmless a d₀ past := by
  have hspec : w.world.Ensures (fun _ _ => True) (m.create a) (fun _ _ _ => True)
      (fun _ past d => Recovered d₀ d ↔ Harmless a d₀ past) [] d₀ := by
    refine read_ensures (fun r d' h => by cases r <;> exact h) trivial nofun ?_
    intro isDir past₁ hquiet₁ _
    split
    · exact World.ensures_throw (iff_of_true recovered_self (harmless_of_quiet hquiet₁))
    refine read_ensures (fun r d' h => by cases r <;> exact h) trivial hquiet₁ ?_
    intro _ past₂ hquiet₂ _
    refine read_ensures (fun r d' h => by cases r with | ok => exact h.1 | error => exact h) trivial
      hquiet₂ ?_
    rintro taken past₃ hquiet₃ ⟨-, htaken⟩
    split
    · exact World.ensures_throw (iff_of_true recovered_self (harmless_of_quiet hquiet₃))
    rename_i hfree
    have hnew : a.archive ∉ d₀ := by rwa [← AList.lookup_isSome, ← htaken]
    have hends : ∀ {d₁ past d}, Base a d₀ d₁ → Ends a d₁ past d →
        (Recovered d₀ d ↔ Harmless a d₀ past) := fun hbase h =>
      ⟨h.settled.harmless hbase, h.settled.recovered hbase hnew⟩
    have hbase : Base a d₀ d₀ := ⟨fun _ _ _ => rfl, fun _ _ h => h⟩
    refine (protected_removing hquiet₃ hbase).withCleanup ?_ ?_
    · rintro _ past₄ d₂ - ⟨d₁, hbase₁, h⟩
      have hmem : a.partialArchive ∈ a.files := by simp [Attempt.files]
      refine .bind ((discard_removing hmem h).mono (fun _ _ _ _ => ?_)
        fun _ _ _ h => hends hbase₁ h)
      exact World.ensures_pure trivial
    · rintro e past₄ d₂ - ⟨d₁, hbase₁, h⟩
      exact (cleanUp_ends h).mono (fun _ _ _ h => hends hbase₁ h) fun _ _ _ h => hends hbase₁ h
  have hpost : w.world.Guarantees (fun _ _ => True) (m.create a).run _ [] d₀ := hspec
  exact hpost.exec_done he

/-! ### Concrete failures -/

/-- As `obliging`, but `request` raises, if it is a directory sync or an unlink. -/
def Media.failing (w : Media B) (now : ℤ) (request : Request) : w.world.Oracle :=
  fun past d q => match q with
  | .fsyncDirectory => if request = .fsyncDirectory then some (.os "OSError") else none
  | .unlink name missingOk =>
    if request = .unlink name missingOk then some (.os "OSError") else none
  | q => w.obliging now past d q

/-- The directory sync after the archive was put in place fails: the directory is as it was, and
the failure has done no harm. -/
theorem BackupManager.create_recovers_sync : ∃ past e,
    Media.sample.world.Exec (BackupManager.sample.create Attempt.sample).run [] Directory.sample
      (.done (.error e)) past Directory.sample ∧ Harmless Attempt.sample Directory.sample past := by
  have hlegal : Media.sample.world.legal (Media.sample.failing 30 .fsyncDirectory) 40
      (BackupManager.sample.create Attempt.sample).run [] Directory.sample = true := by decide
  have hrun := Media.sample.world.exec_runFor (Media.sample.failing 30 .fsyncDirectory) 40 _ []
    Directory.sample hlegal
  have hdone : (Media.sample.world.runFor (Media.sample.failing 30 .fsyncDirectory) 40
      (BackupManager.sample.create Attempt.sample).run [] Directory.sample).1 =
    .done (.error (.update "Pre-update backup failed: OSError")) := rfl
  have hsame : (Media.sample.world.runFor (Media.sample.failing 30 .fsyncDirectory) 40
      (BackupManager.sample.create Attempt.sample).run [] Directory.sample).2.2 =
    Directory.sample := rfl
  rw [hdone, hsame] at hrun
  exact ⟨_, _, hrun, (BackupManager.create_recovers_iff hrun).mp recovered_self⟩

/-- **A recovery point is lost.** Two archives are kept and two are there. Pruning unlinks the
older one, and fails to unlink its checksum: the clean-up then removes the new archive as well. -/
theorem BackupManager.create_loses_archive : ∃ past d e,
    Media.sample.world.Exec (BackupManager.sample.create Attempt.sample).run [] Directory.sample
      (.done (.error e)) past d ∧ ¬ Recovered Directory.sample d := by
  have hlegal : Media.sample.world.legal (Media.sample.failing 30
      (.unlink (.checksum (.preUpdate "3-to-4-20250101T000000Z")) true)) 50
      (BackupManager.sample.create Attempt.sample).run [] Directory.sample = true := by decide
  have hrun := Media.sample.world.exec_runFor _ 50 _ [] Directory.sample hlegal
  have hdone : (Media.sample.world.runFor (Media.sample.failing 30
      (.unlink (.checksum (.preUpdate "3-to-4-20250101T000000Z")) true)) 50
      (BackupManager.sample.create Attempt.sample).run [] Directory.sample).1 =
    .done (.error (.update "Pre-update backup failed: OSError")) := rfl
  rw [hdone] at hrun
  refine ⟨_, _, _, hrun, fun hrecovered => ?_⟩
  have hkept := hrecovered.kept (.preUpdate "3-to-4-20250101T000000Z") ⟨.tar [("data", ())], 10⟩
    (.inl rfl) rfl
  cases hkept

end Backup

end PzServer
