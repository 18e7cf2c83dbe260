import PzServer.WorldBackup.Scripts

/-!
# Publishing a world backup

A run goes through four phases: the archive has no name yet; its name is taken; its files are being
written; the expired archives are being removed. Each phase is an assertion about the variables, the
commands so far and the directory, which says what has changed since the run got the lock. The body
of either script leaves one of them behind wherever it ends.

## Main results

* `Left` — the phases
* `main_leaves`, `backupBody_leaves` — the bodies of the two scripts
-/

namespace PzServer

namespace WorldBackup

open Interaction

variable {α : Type} {c : Settings} {v : Variables} {past : List BackupMove} {d d₀ : Directory}

/-! ### Commands that leave the directory alone -/

/-- A command that neither changes the directory nor lists it. -/
def Command.still : Command → Bool
  | .tar _ | .move .. | .writeChecksum _ | .prune _ | .discard _ | .list => false
  | _ => true

theorem answer_still {q : Command} (h : q.still = true) (c : Choice q) : (answer d q c).2 = d := by
  cases q with
  | tar | move | writeChecksum | prune | discard | list => cases h
  | «exists» => cases c <;> rfl
  | _ => rfl

/-- The removal of an expired file. -/
def Command.isPrune : Command → Bool
  | .prune _ => true
  | _ => false

/-- The listing of the archives, and what is done with it. -/
def Command.isPruning : Command → Bool
  | .list | .prune _ => true
  | _ => false

theorem Command.isPruning_of_still {q : Command} (h : q.still = true) : q.isPruning = false := by
  cases q with
  | list | prune => cases h
  | _ => rfl

theorem Command.isPruning_of_isPrune {q : Command} (h : q.isPrune = true) : q.isPruning = true := by
  cases q with
  | prune => rfl
  | _ => cases h

/-- A command, by what it answers. -/
theorem ensures_perform {q : Command} {ok : Value q → List BackupMove → Directory → Prop}
    {err : Failure → List BackupMove → Directory → Prop}
    (hok : ∀ ch value d', allowed d q ch = true → answer d q ch = (.ok value, d') →
      ok value (⟨q, .ok value, d, d'⟩ :: past) d')
    (herr : ∀ ch status d', allowed d q ch = true → answer d q ch = (.error status, d') →
      err ⟨status, v⟩ (⟨q, .error status, d, d'⟩ :: past) d') :
    world.Ensures (fun _ _ => True) (perform v q) ok err past d := by
  refine .bind (World.ensures_request fun ch hc => ⟨trivial, ?_⟩)
  have hreply : world.answer d q ch = answer d q ch := rfl
  rw [World.move, hreply]
  rcases hr : answer d q ch with ⟨status | value, d'⟩
  · exact World.ensures_throw (herr ch status d' hc hr)
  · exact World.ensures_pure (hok ch value d' hc hr)

/-- An assertion that commands which leave the directory alone, and the variables that only matter
for the restart, cannot falsify. -/
structure Indifferent (P : Variables → List BackupMove → Directory → Prop) : Prop where
  still : ∀ {v past d} {m : BackupMove}, m.request.still = true → P v past d → P v (m :: past) d
  running : ∀ {v past d} (b : Bool), P v past d → P { v with wasRunning := b } past d
  watchdog : ∀ {v past d} (b : Bool), P v past d → P { v with watchdogWasActive := b } past d
  location : ∀ {v past d} (b : Bool), P v past d → P { v with locationPushed := b } past d

/-- A piece of a script that keeps an assertion, whether or not it ends the body. -/
def Keeping (P : Variables → List BackupMove → Directory → Prop) (p : ScriptM α)
    (ok : α → List BackupMove → Directory → Prop) (past : List BackupMove) (d : Directory) : Prop :=
  world.Ensures (fun _ _ => True) p ok (fun e past' d' => P e.state past' d') past d

section Indifferent

variable {P : Variables → List BackupMove → Directory → Prop}

theorem Keeping.bind {β : Type} {p : ScriptM α} {f : α → ScriptM β}
    {ok : α → List BackupMove → Directory → Prop} {ok' : β → List BackupMove → Directory → Prop}
    (h : Keeping P p ok past d) (hf : ∀ a past' d', ok a past' d' → Keeping P (f a) ok' past' d') :
    Keeping P (p >>= f) ok' past d :=
  World.Ensures.seq h (fun a past' d' _ ha => hf a past' d' ha) fun _ _ _ _ he => he

theorem keeping_pure {ok : α → List BackupMove → Directory → Prop} {a : α} (h : ok a past d) :
    Keeping P (pure a) ok past d := World.ensures_pure h

theorem keeping_fail {ok : α → List BackupMove → Directory → Prop} (h : P v past d) :
    Keeping P (fail v) ok past d := World.ensures_throw h

theorem keeping_perform (hP : Indifferent P) (h : P v past d) {q : Command} (hq : q.still = true) :
    Keeping P (perform v q) (fun _ => P v) past d := by
  refine ensures_perform (fun ch value d' _ hr => ?_) fun ch status d' _ hr => ?_
  · obtain rfl : d' = d := by rw [← answer_still (d := d) hq ch, hr]
    exact hP.still hq h
  · obtain rfl : d' = d := by rw [← answer_still (d := d) hq ch, hr]
    exact hP.still hq h

theorem Keeping.weaken {P' : Variables → List BackupMove → Directory → Prop} {p : ScriptM α}
    {ok : α → List BackupMove → Directory → Prop} (h : Keeping P p ok past d)
    (himp : ∀ v past d, P v past d → P' v past d) : Keeping P' p ok past d :=
  World.Ensures.mono h (fun _ _ _ ha => ha) fun _ _ _ he => himp _ _ _ he

theorem composeIdentifier_keeps (hP : Indifferent P) (h : P v past d) :
    Keeping P (composeIdentifier v) (fun _ => P v) past d := by
  refine (keeping_perform hP h rfl).bind fun lines past d h => ?_
  rcases lines with _ | ⟨identifier, _ | _⟩
  · exact keeping_pure h
  · exact keeping_pure h
  · exact keeping_fail h

theorem verifyQuiescent_keeps (hP : Indifferent P) (h : P v past d) (identifier : String) :
    Keeping P (verifyQuiescent v identifier) (fun _ => P v) past d := by
  refine (composeIdentifier_keeps hP h).bind fun current past d h => ?_
  split
  · exact keeping_fail h
  · split
    · exact keeping_pure h
    · refine (keeping_perform hP h rfl).bind fun state past d h => ?_
      split
      · exact keeping_fail h
      · exact keeping_pure h

theorem stopForBackup_keeps (hP : Indifferent P) (h : P v past d) (identifier : String) :
    Keeping P (stopForBackup c v identifier) P past d := by
  unfold stopForBackup
  split
  · exact keeping_pure h
  · refine (keeping_perform hP h rfl).bind fun state past d h => ?_
    split
    · exact keeping_fail h
    · split
      · refine (keeping_perform hP h rfl).bind fun players past d h => ?_
        rcases players with _ | players
        · exact keeping_fail h
        · dsimp only
          split
          · exact keeping_fail h
          · exact (keeping_perform hP (hP.running true h) rfl).bind fun _ _ _ h => keeping_pure h
      · exact (verifyQuiescent_keeps hP h identifier).bind fun _ _ _ h => keeping_pure h

theorem getComposeContainerId_keeps (hP : Indifferent P) (h : P v past d) :
    Keeping P (getComposeContainerId v) (fun _ => P v) past d := by
  refine (keeping_perform hP h rfl).bind fun lines past d h => ?_
  rcases lines with _ | ⟨identifier, _ | _⟩
  · exact keeping_pure h
  · exact keeping_pure h
  · exact keeping_fail h

theorem assertContainerQuiescent_keeps (hP : Indifferent P) (h : P v past d)
    (identifier : Option String) :
    Keeping P (assertContainerQuiescent v identifier) (fun _ => P v) past d := by
  refine (getComposeContainerId_keeps hP h).bind fun current past d h => ?_
  split
  · exact keeping_fail h
  · rcases identifier with _ | identifier
    · exact keeping_pure h
    · refine (keeping_perform hP h rfl).bind fun state past d h => ?_
      split
      · exact keeping_fail h
      · exact keeping_pure h

theorem confirmPlayers_keeps (hP : Indifferent P) (h : P v past d) :
    Keeping P (confirmPlayers c v) (fun _ => P v) past d := by
  refine (keeping_perform hP h rfl).bind fun players past d h => ?_
  rcases players with _ | players
  · exact keeping_fail h
  · dsimp only
    split
    · exact keeping_fail h
    · exact keeping_pure h

theorem stopLocal_keeps (hP : Indifferent P) (h : P v past d) (containerId : Option String) :
    Keeping P (stopLocal c v containerId) P past d := by
  rcases containerId with _ | identifier
  · exact keeping_pure h
  · refine (keeping_perform hP h rfl).bind fun state past d h => ?_
    split
    · exact keeping_fail h
    · have h := hP.running state.running h
      dsimp only
      split
      · exact (assertContainerQuiescent_keeps hP h _).bind fun _ _ _ h => keeping_pure h
      · refine (confirmPlayers_keeps hP h).bind fun _ _ _ h => ?_
        refine (keeping_perform hP h rfl).bind fun _ _ _ h => ?_
        refine (keeping_perform hP h rfl).bind fun _ _ _ h => ?_
        refine (confirmPlayers_keeps hP h).bind fun _ _ _ h => ?_
        refine (keeping_perform hP h rfl).bind fun _ _ _ h => ?_
        exact (assertContainerQuiescent_keeps hP h _).bind fun _ _ _ h => keeping_pure h

end Indifferent

/-! ### How far a run has come -/

/-- The files of a run that makes `archive`. -/
def Owns (c : Settings) (archive name : FileName) : Prop :=
  name = archive ∨ name = .checksum archive ∨ name = .partialOf archive c.pid

/-- The archives have not been listed yet; at most that has failed. -/
def Unlisted (past : List BackupMove) : Prop :=
  ∀ m ∈ past, m.request.isPruning = true → m.request = .list ∧ m.reply.isOk = false

/-- The archive has no name yet. -/
structure Quiet (d₀ : Directory) (v : Variables) (past : List BackupMove) (d : Directory) :
    Prop where
  unnamed : v.finalArchive = none
  unwritten : v.partialArchive = none
  incomplete : v.backupComplete = false
  unlisted : Unlisted past
  same : d = d₀

/-- The archive has its name. -/
structure Named (c : Settings) (archive : FileName) (v : Variables) (d : Directory) : Prop where
  final : v.finalArchive = some archive
  stamped : ∃ date time, archive = .stamped date time
  tidy : v.partialArchive = some (.partialOf archive c.pid) ∨
    v.partialArchive = none ∧ d (.partialOf archive c.pid) = none

/-- No archive has a line feed in its name. -/
def Plain (d : Directory) : Prop := ∀ name, d name ≠ none → name.isBroken = false

/-- An archive of that name was there. -/
structure Collided (c : Settings) (d₀ : Directory) (archive : FileName) (v : Variables)
    (past : List BackupMove) (d : Directory) : Prop extends Named c archive v d where
  taken : d₀ archive ≠ none
  incomplete : v.backupComplete = false
  unlisted : Unlisted past
  same : d = d₀

/-- There was none, and the files are being written. -/
structure Writing (c : Settings) (d₀ : Directory) (archive : FileName) (v : Variables)
    (past : List BackupMove) (d : Directory) : Prop extends Named c archive v d where
  free : d₀ archive = none
  incomplete : v.backupComplete = false
  unlisted : Unlisted past
  frame : ∀ name, ¬ Owns c archive name → d name = d₀ name

/-- The checksum file is still as it was. -/
structure Preparing (c : Settings) (d₀ : Directory) (archive : FileName) (v : Variables)
    (past : List BackupMove) (d : Directory) : Prop extends Writing c d₀ archive v past d where
  unrecorded : d (.checksum archive) = d₀ (.checksum archive)

/-- The checksum file in `d` has been written. -/
def Recorded (d₀ : Directory) (archive : FileName) (past : List BackupMove) (d : Directory) :
    Prop :=
  ∃ m ∈ past, m.request = .writeChecksum archive ∧ m.reply.isOk = true ∧
    m.before (.checksum archive) = d₀ (.checksum archive) ∧
    m.after (.checksum archive) = d (.checksum archive)

/-- It has been written last. -/
structure Publishing (c : Settings) (d₀ : Directory) (archive : FileName) (v : Variables)
    (past : List BackupMove) (d : Directory) : Prop extends Writing c d₀ archive v past d where
  recorded : Recorded d₀ archive past d

/-- Pruning takes a file away. -/
def Removes (name : FileName) (m : BackupMove) : Prop :=
  m.request.isPrune = true ∧ m.after name ≠ m.before name

/-- The expired archives among `names`, the listing of `listed`, are being removed. -/
structure Pruning (c : Settings) (d₀ : Directory) (archive : FileName) (listed : Directory)
    (names : List FileName) (v : Variables) (past : List BackupMove) (d : Directory) : Prop extends
    Named c archive v d where
  free : d₀ archive = none
  recorded : Recorded d₀ archive past listed
  listing : (⟨.list, .ok names, listed, listed⟩ : BackupMove) ∈ past
  sole : ∀ m ∈ past, m.request = .list → m.reply.isOk = true →
    m = ⟨.list, .ok names, listed, listed⟩
  sorted : Plain d₀ → listed.lists names = true
  frame : ∀ name, ¬ Owns c archive name → listed name = d₀ name
  pruned : ∀ name, d name = listed name ∨ d name = none ∧
    (∃ a ∈ expired c names, name = a ∨ name = .checksum a) ∧ ∃ m ∈ past, Removes name m
  lost : ∀ name, ∀ m ∈ past, Removes name m → d name = none

/-- Completing a backup changes nothing but the variable. -/
theorem Pruning.complete {archive : FileName} {listed : Directory} {names : List FileName}
    (h : Pruning c d₀ archive listed names v past d) :
    Pruning c d₀ archive listed names { v with backupComplete := true } past d :=
  ⟨⟨h.final, h.stamped, h.tidy⟩, h.free, h.recorded, h.listing, h.sole, h.sorted, h.frame,
    h.pruned, h.lost⟩

/-- What the body of a script can leave behind. -/
inductive Left (c : Settings) (d₀ : Directory) (v : Variables) (past : List BackupMove)
    (d : Directory) : Prop where
  | quiet (h : Quiet d₀ v past d)
  | collided {archive : FileName} (h : Collided c d₀ archive v past d)
  | writing {archive : FileName} (h : Writing c d₀ archive v past d)
  | pruning {archive : FileName} {listed : Directory} {names : List FileName}
      (h : Pruning c d₀ archive listed names v past d)

theorem Unlisted.cons (h : Unlisted past) {m : BackupMove} (hm : m.request.isPruning = false) :
    Unlisted (m :: past) :=
  List.forall_mem_cons.mpr ⟨fun hpruning => (Bool.false_ne_true (hm.symm.trans hpruning)).elim, h⟩

theorem Unlisted.still (h : Unlisted past) {m : BackupMove} (hm : m.request.still = true) :
    Unlisted (m :: past) := h.cons (Command.isPruning_of_still hm)

theorem Recorded.cons {archive : FileName} (h : Recorded d₀ archive past d) (m : BackupMove) :
    Recorded d₀ archive (m :: past) d :=
  h.imp fun _ hm => ⟨List.mem_cons_of_mem _ hm.1, hm.2⟩

theorem quiet_indifferent : Indifferent (Quiet d₀) where
  still hm h := ⟨h.unnamed, h.unwritten, h.incomplete, h.unlisted.still hm, h.same⟩
  running _ h := ⟨h.unnamed, h.unwritten, h.incomplete, h.unlisted, h.same⟩
  watchdog _ h := ⟨h.unnamed, h.unwritten, h.incomplete, h.unlisted, h.same⟩
  location _ h := ⟨h.unnamed, h.unwritten, h.incomplete, h.unlisted, h.same⟩

theorem writing_indifferent {archive : FileName} : Indifferent (Writing c d₀ archive) where
  still hm h := ⟨h.toNamed, h.free, h.incomplete, h.unlisted.still hm, h.frame⟩
  running _ h := ⟨⟨h.final, h.stamped, h.tidy⟩, h.free, h.incomplete, h.unlisted, h.frame⟩
  watchdog _ h := ⟨⟨h.final, h.stamped, h.tidy⟩, h.free, h.incomplete, h.unlisted, h.frame⟩
  location _ h := ⟨⟨h.final, h.stamped, h.tidy⟩, h.free, h.incomplete, h.unlisted, h.frame⟩

theorem preparing_indifferent {archive : FileName} : Indifferent (Preparing c d₀ archive) where
  still hm h := ⟨writing_indifferent.still hm h.toWriting, h.unrecorded⟩
  running b h := ⟨writing_indifferent.running b h.toWriting, h.unrecorded⟩
  watchdog b h := ⟨writing_indifferent.watchdog b h.toWriting, h.unrecorded⟩
  location b h := ⟨writing_indifferent.location b h.toWriting, h.unrecorded⟩

theorem publishing_indifferent {archive : FileName} : Indifferent (Publishing c d₀ archive) where
  still hm h := ⟨writing_indifferent.still hm h.toWriting, h.recorded.cons _⟩
  running b h := ⟨writing_indifferent.running b h.toWriting, h.recorded⟩
  watchdog b h := ⟨writing_indifferent.watchdog b h.toWriting, h.recorded⟩
  location b h := ⟨writing_indifferent.location b h.toWriting, h.recorded⟩

/-- A command that does not prune takes nothing away from what pruning has done. -/
theorem Pruning.cons {archive : FileName} {listed : Directory} {names : List FileName}
    (h : Pruning c d₀ archive listed names v past d) {m : BackupMove}
    (hm : m.request.isPruning = false) : Pruning c d₀ archive listed names v (m :: past) d where
  toNamed := h.toNamed
  free := h.free
  recorded := h.recorded.cons m
  listing := List.mem_cons_of_mem _ h.listing
  sole m' hm' hlist hok := by
    rcases List.mem_cons.mp hm' with rfl | hm'
    · rw [hlist] at hm
      cases hm
    · exact h.sole m' hm' hlist hok
  sorted := h.sorted
  frame := h.frame
  pruned name := (h.pruned name).imp_right fun hgone =>
    ⟨hgone.1, hgone.2.1, hgone.2.2.imp fun _ hm' => ⟨List.mem_cons_of_mem _ hm'.1, hm'.2⟩⟩
  lost name m' hm' hremoves := by
    rcases List.mem_cons.mp hm' with rfl | hm'
    · rw [Command.isPruning_of_isPrune hremoves.1] at hm
      cases hm
    · exact h.lost name m' hm' hremoves

theorem pruning_indifferent {archive : FileName} {listed : Directory} {names : List FileName} :
    Indifferent (Pruning c d₀ archive listed names) where
  still hm h := h.cons (Command.isPruning_of_still hm)
  running _ h := ⟨⟨h.final, h.stamped, h.tidy⟩, h.free, h.recorded, h.listing, h.sole, h.sorted,
    h.frame, h.pruned, h.lost⟩
  watchdog _ h := ⟨⟨h.final, h.stamped, h.tidy⟩, h.free, h.recorded, h.listing, h.sole, h.sorted,
    h.frame, h.pruned, h.lost⟩
  location _ h := ⟨⟨h.final, h.stamped, h.tidy⟩, h.free, h.recorded, h.listing, h.sole, h.sorted,
    h.frame, h.pruned, h.lost⟩

/-! ### The steps of the publication -/

section Publication

variable {archive : FileName}

/-- The variables once the archive has its name. -/
def Variables.named (v : Variables) (c : Settings) (archive : FileName) : Variables :=
  { v with finalArchive := some archive, partialArchive := some (.partialOf archive c.pid) }

theorem owns_archive : Owns c archive archive := .inl rfl

theorem owns_checksum : Owns c archive (.checksum archive) := .inr (.inl rfl)

theorem owns_partialOf : Owns c archive (.partialOf archive c.pid) := .inr (.inr rfl)

theorem put_of_ne {name name' : FileName} (h : name' ≠ name) (file : Option File) :
    d.put name file name' = d name' := by
  rw [Directory.put, Function.update_of_ne h]

/-- What is written to a file of the run's own changes no other file. -/
theorem leaves_of_not_owns {name name' : FileName} (hname : Owns c archive name)
    (hname' : ¬ Owns c archive name') (w : Written) : w.leaves d name name' = d name' := by
  rcases w with ⟨failure, _ | file⟩
  · rfl
  · exact put_of_ne (fun h : name' = name => hname' (h ▸ hname)) file

theorem collides_keeps (h : Quiet d₀ v past d) (date time : ℕ) :
    Keeping (Left c d₀) (perform (v.named c (.stamped date time)) (.exists (.stamped date time)))
      (fun taken past' d' =>
        if taken then Collided c d₀ (.stamped date time) (v.named c (.stamped date time)) past' d'
        else Preparing c d₀ (.stamped date time) (v.named c (.stamped date time)) past' d')
      past d := by
  obtain rfl := h.same
  have hnamed : Named c (.stamped date time) (v.named c (.stamped date time)) d :=
    ⟨rfl, ⟨date, time, rfl⟩, .inl rfl⟩
  have hpreparing : ∀ {m : BackupMove}, m.request.still = true → d (.stamped date time) = none →
      Preparing c d (.stamped date time) (v.named c (.stamped date time)) (m :: past) d :=
    fun hm hfree => ⟨⟨hnamed, hfree, h.incomplete, h.unlisted.still hm, fun _ _ => rfl⟩, rfl⟩
  have hcollided : ∀ {m : BackupMove}, m.request.still = true → d (.stamped date time) ≠ none →
      Collided c d (.stamped date time) (v.named c (.stamped date time)) (m :: past) d :=
    fun hm htaken => ⟨hnamed, htaken, h.incomplete, h.unlisted.still hm, rfl⟩
  refine ensures_perform (fun ch taken d' _ hr => ?_) fun ch status d' _ hr => ?_
  · rcases ch with _ | status
    · obtain ⟨htaken, rfl⟩ := Prod.mk.inj hr
      obtain rfl := Except.ok.inj htaken
      split
      · rename_i htaken
        exact hcollided rfl (Option.isSome_iff_ne_none.mp htaken)
      · rename_i hfree
        exact hpreparing rfl (Option.not_isSome_iff_eq_none.mp hfree)
    · cases hr
  · obtain rfl : d' = d := by
      rcases ch with _ | _
      · cases hr
      · exact (Prod.mk.inj hr).2.symm
    by_cases hfree : d' (.stamped date time) = none
    · exact .writing (hpreparing rfl hfree).toWriting
    · exact .collided (hcollided rfl hfree)

theorem Writing.step {v' : Variables} {d' : Directory} (h : Writing c d₀ archive v past d)
    {m : BackupMove} (hm : m.request.isPruning = false) (hnamed : Named c archive v' d')
    (hincomplete : v'.backupComplete = false)
    (hframe : ∀ name, ¬ Owns c archive name → d' name = d name) :
    Writing c d₀ archive v' (m :: past) d' :=
  ⟨hnamed, h.free, hincomplete, h.unlisted.cons hm,
    fun name hname => (hframe name hname).trans (h.frame name hname)⟩

theorem tar_keeps (h : Preparing c d₀ archive v past d)
    (hunfinished : v.partialArchive = some (.partialOf archive c.pid)) :
    Keeping (Left c d₀) (perform v (.tar (.partialOf archive c.pid)))
      (fun _ => Preparing c d₀ archive v) past d := by
  have hchecksum : ∀ w : Written,
      w.leaves d (.partialOf archive c.pid) (.checksum archive) = d (.checksum archive) := by
    rintro ⟨failure, _ | file⟩
    · rfl
    · exact put_of_ne (by simp) file
  have hpreparing : ∀ (w : Written) (r : Reply (.tar (.partialOf archive c.pid))),
      Preparing c d₀ archive v (⟨.tar (.partialOf archive c.pid), r, d,
        w.leaves d (.partialOf archive c.pid)⟩ :: past) (w.leaves d (.partialOf archive c.pid)) :=
    fun w r => ⟨h.step rfl ⟨h.final, h.stamped, .inl hunfinished⟩ h.incomplete
      fun name hname => leaves_of_not_owns owns_partialOf hname w,
      (hchecksum w).trans h.unrecorded⟩
  refine ensures_perform (fun w _ d' _ hr => ?_) fun w status d' _ hr => ?_
  · obtain rfl := (Prod.mk.inj hr).2
    exact hpreparing w _
  · obtain rfl := (Prod.mk.inj hr).2
    exact .writing (hpreparing w _).toWriting

theorem move_of_not_owns {name : FileName} (hname : ¬ Owns c archive name) :
    d.move (.partialOf archive c.pid) archive name = d name :=
  (put_of_ne (fun h : name = archive => hname (h ▸ owns_archive)) _).trans
    (put_of_ne (fun h : name = .partialOf archive c.pid => hname (h ▸ owns_partialOf)) _)

theorem move_keeps (h : Preparing c d₀ archive v past d)
    (hunfinished : v.partialArchive = some (.partialOf archive c.pid)) :
    Keeping (Left c d₀) (perform v (.move (.partialOf archive c.pid) archive))
      (fun _ => Preparing c d₀ archive { v with partialArchive := none }) past d := by
  obtain ⟨date, time, hstamped⟩ := h.stamped
  refine ensures_perform (fun w _ d' hc hr => ?_) fun w status d' hc hr => ?_
  · obtain ⟨hreply, rfl⟩ := Prod.mk.inj hr
    obtain ⟨failure, done⟩ := w
    have hdone : done = true := by
      rcases failure with _ | _
      · simpa [allowed] using (Bool.and_eq_true _ _ ▸ hc : _ ∧ _).1
      · cases hreply
    rw [hdone]
    refine ⟨h.step rfl ⟨h.final, h.stamped, .inr ⟨rfl, ?_⟩⟩ h.incomplete
      fun name hname => move_of_not_owns hname, Eq.trans ?_ h.unrecorded⟩
    · refine (put_of_ne ?_ _).trans (Function.update_self ..)
      rw [hstamped]
      simp
    · refine (put_of_ne ?_ _).trans (put_of_ne ?_ _)
      · rw [hstamped]
        simp
      · simp
  · obtain rfl := (Prod.mk.inj hr).2
    refine .writing (h.step rfl ⟨h.final, h.stamped, .inl hunfinished⟩ h.incomplete ?_)
    intro name hname
    split
    · exact move_of_not_owns hname
    · rfl

theorem writeChecksum_keeps (h : Preparing c d₀ archive v past d) :
    Keeping (Left c d₀) (perform v (.writeChecksum archive)) (fun _ => Publishing c d₀ archive v)
      past d := by
  have hunfinished : ∀ w : Written,
      w.leaves d (.checksum archive) (.partialOf archive c.pid) = d (.partialOf archive c.pid) := by
    rintro ⟨failure, _ | file⟩
    · rfl
    · exact put_of_ne (by simp) file
  have hwriting : ∀ (w : Written) (r : Reply (.writeChecksum archive)),
      Writing c d₀ archive v
        (⟨.writeChecksum archive, r, d, w.leaves d (.checksum archive)⟩ :: past)
        (w.leaves d (.checksum archive)) := by
    intro w r
    refine h.step rfl ⟨h.final, h.stamped, ?_⟩ h.incomplete
      fun name hname => leaves_of_not_owns owns_checksum hname w
    rw [hunfinished w]
    exact h.tidy
  refine ensures_perform (fun w value d' _ hr => ?_) fun w status d' _ hr => ?_
  · obtain rfl := (Prod.mk.inj hr).2
    exact ⟨hwriting w _, _, List.mem_cons_self, rfl, rfl, h.unrecorded, rfl⟩
  · obtain rfl := (Prod.mk.inj hr).2
    exact .writing (hwriting w _)

/-- Where no name is broken a listing is in order. -/
theorem Publishing.lists_of_plain (h : Publishing c d₀ archive v past d) (hplain : Plain d₀)
    {ch : Choice .list} {names : List FileName} (hallowed : allowed d .list ch = true)
    (hnames : ch.map Listed.names = .ok names) : d.lists names = true := by
  rcases ch with status | ⟨listed, _ | name⟩
  · cases hnames
  · obtain rfl := Except.ok.inj hnames
    exact hallowed
  · have hbroken : (name.isArchive = true ∧ name.isBroken = true) ∧ (d name).isSome = true := by
      simpa [allowed, listAllowed] using hallowed
    have hnot : ¬ Owns c archive name := by
      obtain ⟨date, time, hstamped⟩ := h.stamped
      rintro (rfl | rfl | rfl)
      · rw [hstamped] at hbroken
        exact Bool.false_ne_true hbroken.1.2
      · exact Bool.false_ne_true hbroken.1.2
      · exact Bool.false_ne_true hbroken.1.2
    have hthere : d₀ name ≠ none := by
      rw [← h.frame name hnot]
      exact Option.isSome_iff_ne_none.mp hbroken.2
    exact absurd (hbroken.1.2.symm.trans (hplain name hthere)) Bool.false_ne_true.symm

theorem list_keeps (h : Publishing c d₀ archive v past d) :
    Keeping (Left c d₀) (perform v .list)
      (fun names past' d' => ∃ listed, Pruning c d₀ archive listed names v past' d') past d := by
  have hunpruned : ∀ {name} {m : BackupMove}, m ∈ past → ¬ Removes name m := by
    intro name m hm hremoves
    have hlist := (h.unlisted m hm (Command.isPruning_of_isPrune hremoves.1)).1
    have hprune := hremoves.1
    rw [hlist] at hprune
    cases hprune
  refine ensures_perform (fun ch names d' hc hr => ?_) fun ch status d' _ hr => ?_
  · obtain ⟨hnames, rfl⟩ := Prod.mk.inj hr
    refine ⟨d, h.toNamed, h.free, h.recorded.cons _, List.mem_cons_self, fun m hm hlist hok => ?_,
      fun hplain => h.lists_of_plain hplain hc hnames, h.frame, fun _ => .inl rfl,
      fun name m hm hremoves => ?_⟩
    · rcases List.mem_cons.mp hm with rfl | hm
      · rfl
      · have hfailed := (h.unlisted m hm (by rw [hlist]; rfl)).2
        rw [hok] at hfailed
        cases hfailed
    · rcases List.mem_cons.mp hm with rfl | hm
      · cases hremoves.1
      · exact absurd hremoves (hunpruned hm)
  · obtain rfl := (Prod.mk.inj hr).2
    exact .writing ⟨h.toNamed, h.free, h.incomplete,
      List.forall_mem_cons.mpr ⟨fun _ => ⟨rfl, rfl⟩, h.unlisted⟩, h.frame⟩

/-! ### Pruning -/

variable {listed : Directory} {names : List FileName} {a : FileName}

/-- A removal of expired files, whether it succeeds or not. -/
theorem Pruning.removes (h : Pruning c d₀ archive listed names v past d)
    {targets : List FileName} {removed : FileName → Bool} (r : Reply (.prune targets))
    (hremoved : ∀ name, removed name = true →
      ∃ a ∈ expired c names, name = a ∨ name = .checksum a) :
    Pruning c d₀ archive listed names v
      (⟨.prune targets, r, d, d.without removed⟩ :: past) (d.without removed) := by
  have hnone : ∀ {name}, d name = none → d.without removed name = none := by
    intro name hname
    rw [Directory.without, hname, ite_self]
  refine ⟨⟨h.final, h.stamped, h.tidy.imp_right fun hgone => ⟨hgone.1, hnone hgone.2⟩⟩, h.free,
    h.recorded.cons _, List.mem_cons_of_mem _ h.listing, fun m hm hlist => ?_, h.sorted, h.frame,
    fun name => ?_, fun name m hm hremoves => ?_⟩
  · rcases List.mem_cons.mp hm with rfl | hm
    · cases hlist
    · exact h.sole m hm hlist
  · have hpruned := h.pruned name
    by_cases hgone : removed name = true ∧ d name ≠ none
    · have hwithout : d.without removed name = none := if_pos hgone.1
      refine .inr ⟨hwithout, hremoved name hgone.1, _, List.mem_cons_self, rfl, fun hsame => ?_⟩
      exact hgone.2 (hsame.symm.trans hwithout)
    · have hsame : d.without removed name = d name := by
        by_cases hname : d name = none
        · rw [hname, hnone hname]
        · exact if_neg fun hr => hgone ⟨hr, hname⟩
      rw [hsame]
      exact hpruned.imp_right fun hlost => ⟨hlost.1, hlost.2.1,
        hlost.2.2.imp fun _ hm => ⟨List.mem_cons_of_mem _ hm.1, hm.2⟩⟩
  · rcases List.mem_cons.mp hm with rfl | hm
    · refine if_pos ?_
      by_contra hkept
      exact hremoves.2 (if_neg hkept)
    · exact hnone (h.lost name m hm hremoves)

theorem prune_keeps (h : Pruning c d₀ archive listed names v past d) {targets : List FileName}
    (htargets : ∀ name ∈ targets, ∃ a ∈ expired c names, name = a ∨ name = .checksum a) :
    Keeping (Pruning c d₀ archive listed names) (perform v (.prune targets))
      (fun _ => Pruning c d₀ archive listed names v) past d := by
  have hremoves : ∀ (w : Removed) (r : Reply (.prune targets)),
      Pruning c d₀ archive listed names v
        (⟨.prune targets, r, d, d.without fun name => targets.contains name && w.removed name⟩ ::
          past)
        (d.without fun name => targets.contains name && w.removed name) := by
    refine fun w r => h.removes r fun name hname => htargets name ?_
    rw [Bool.and_eq_true] at hname
    simpa using hname.1
  refine ensures_perform (fun w _ d' _ hr => ?_) fun w status d' _ hr => ?_
  · obtain rfl := (Prod.mk.inj hr).2
    exact hremoves w _
  · obtain rfl := (Prod.mk.inj hr).2
    exact hremoves w _

theorem removeSilently_keeps (h : Pruning c d₀ archive listed names v past d)
    {targets : List FileName}
    (htargets : ∀ name ∈ targets, ∃ a ∈ expired c names, name = a ∨ name = .checksum a) :
    Keeping (Pruning c d₀ archive listed names) (removeSilently (.prune targets))
      (fun _ => Pruning c d₀ archive listed names v) past d := by
  refine World.Ensures.bind (World.ensures_request fun w _ => ⟨trivial, ?_⟩)
  refine keeping_pure (h.removes _ fun name hname => htargets name ?_)
  rw [Bool.and_eq_true] at hname
  simpa using hname.1

/-- The removals one after another. -/
theorem forM_keeps {P : Variables → List BackupMove → Directory → Prop}
    {step : FileName → ScriptM Unit} {targets : List FileName}
    (hstep : ∀ a ∈ targets, ∀ past d, P v past d → Keeping P (step a) (fun _ => P v) past d) :
    ∀ past d, P v past d → Keeping P (targets.forM step) (fun _ => P v) past d := by
  induction targets with
  | nil => exact fun past d h => keeping_pure h
  | cons a targets ih =>
    intro past d h
    refine Keeping.bind (hstep a List.mem_cons_self past d h) fun _ past' d' h' => ?_
    exact ih (fun a' ha' => hstep a' (List.mem_cons_of_mem _ ha')) past' d' h'

/-- What the publication has reached when it has pruned. -/
def Pruned (c : Settings) (d₀ : Directory) (v : Variables) (past : List BackupMove)
    (d : Directory) : Prop :=
  ∃ archive listed names, Pruning c d₀ archive listed names v past d

theorem pruneArchives_keeps (h : Publishing c d₀ archive v past d) :
    Keeping (Left c d₀) (pruneArchives c v) (fun _ => Pruned c d₀ v) past d := by
  refine (list_keeps h).bind fun names past d ⟨listed, h⟩ => ?_
  refine Keeping.weaken (World.Ensures.mono (forM_keeps (fun a ha past d h => ?_) past d h)
    (fun _ _ _ h => ⟨_, _, _, h⟩) fun _ _ _ h => h) fun _ _ _ h => .pruning h
  exact prune_keeps h fun name hname => ⟨a, ha, by simpa using hname⟩

theorem removeExpired_keeps (h : Publishing c d₀ archive v past d) :
    Keeping (Left c d₀) (removeExpired c v) (fun _ => Pruned c d₀ v) past d := by
  refine (list_keeps h).bind fun names past d ⟨listed, h⟩ => ?_
  refine Keeping.weaken (World.Ensures.mono (forM_keeps (fun a ha past d h => ?_) past d h)
    (fun _ _ _ h => ⟨_, _, _, h⟩) fun _ _ _ h => h) fun _ _ _ h => .pruning h
  refine (prune_keeps h fun name hname => ⟨a, ha, .inl (by simpa using hname)⟩).bind
    fun _ past d h => ?_
  exact removeSilently_keeps h fun name hname => ⟨a, ha, .inr (by simpa using hname)⟩

/-! ### The bodies -/

theorem publish_leaves (h : Quiet d₀ v past d) (identifier : String) :
    Keeping (Left c d₀) (publish c v identifier) (Left c d₀) past d := by
  have hpreparing : ∀ {archive : FileName} v past d, Preparing c d₀ archive v past d →
      Left c d₀ v past d := fun _ _ _ h => .writing h.toWriting
  refine ((keeping_perform quiet_indifferent h rfl).weaken fun _ _ _ h => .quiet h).bind
    fun (date, time) past d h => ?_
  refine (collides_keeps h date time).bind fun taken past d h => ?_
  dsimp only
  split
  · rename_i htaken
    rw [if_pos htaken] at h
    exact keeping_fail (.collided h)
  · rename_i hfree
    rw [if_neg hfree] at h
    refine ((keeping_perform preparing_indifferent h rfl).weaken hpreparing).bind
      fun _ past d h => ?_
    refine (tar_keeps h rfl).bind fun _ past d h => ?_
    refine ((verifyQuiescent_keeps preparing_indifferent h identifier).weaken hpreparing).bind
      fun _ past d h => ?_
    refine (move_keeps h rfl).bind fun _ past d h => ?_
    refine (writeChecksum_keeps h).bind fun _ past d h => ?_
    refine ((keeping_perform publishing_indifferent h rfl).weaken
      fun _ _ _ h => .writing h.toWriting).bind fun _ past d h => ?_
    refine (pruneArchives_keeps h).bind fun _ past d ⟨archive, listed, names, h⟩ => ?_
    have hcomplete := Pruning.complete h
    refine ((keeping_perform pruning_indifferent hcomplete rfl).weaken
      fun _ _ _ h => .pruning h).bind fun _ past d h => ?_
    exact keeping_pure (.pruning h)

theorem publishLocal_leaves (h : Quiet d₀ v past d)
    (containerId : Option String) :
    Keeping (Left c d₀) (publishLocal c v containerId) (Left c d₀) past d := by
  have hpreparing : ∀ {archive : FileName} v past d, Preparing c d₀ archive v past d →
      Left c d₀ v past d := fun _ _ _ h => .writing h.toWriting
  refine ((keeping_perform quiet_indifferent h rfl).weaken fun _ _ _ h => .quiet h).bind
    fun (date, time) past d h => ?_
  refine (collides_keeps h date time).bind fun taken past d h => ?_
  dsimp only
  split
  · rename_i htaken
    rw [if_pos htaken] at h
    exact keeping_fail (.collided h)
  · rename_i hfree
    rw [if_neg hfree] at h
    refine (tar_keeps h rfl).bind fun _ past d h => ?_
    refine ((assertContainerQuiescent_keeps preparing_indifferent h containerId).weaken
      hpreparing).bind fun _ past d h => ?_
    refine (move_keeps h rfl).bind fun _ past d h => ?_
    refine (writeChecksum_keeps h).bind fun _ past d h => ?_
    refine (removeExpired_keeps h).bind fun _ past d ⟨archive, listed, names, h⟩ => ?_
    have hcomplete := Pruning.complete h
    refine ((keeping_perform pruning_indifferent hcomplete rfl).weaken
      fun _ _ _ h => .pruning h).bind fun _ past d h => ?_
    exact keeping_pure (.pruning h)

end Publication

theorem quiet_initial : Quiet d₀ .initial [] d₀ :=
  ⟨rfl, rfl, rfl, fun _ hm => absurd hm List.not_mem_nil, rfl⟩

theorem main_leaves :
    Keeping (Left c d₀) (main c) (Left c d₀) [] d₀ := by
  have hquiet : ∀ v past d, Quiet d₀ v past d → Left c d₀ v past d := fun _ _ _ h => .quiet h
  refine ((keeping_perform quiet_indifferent quiet_initial rfl).weaken hquiet).bind
    fun active past d h => ?_
  have h := quiet_indifferent.watchdog active h
  have hrest : ∀ v past d, Quiet d₀ v past d → Keeping (Left c d₀) (do
      let identifier ← composeIdentifier v
      let v ← stopForBackup c v identifier
      publish c v identifier) (Left c d₀) past d := by
    intro v past d h
    refine ((composeIdentifier_keeps quiet_indifferent h).weaken hquiet).bind
      fun identifier past d h => ?_
    refine ((stopForBackup_keeps quiet_indifferent h identifier).weaken hquiet).bind
      fun v past d h => ?_
    exact publish_leaves h identifier
  dsimp only
  split
  · exact ((keeping_perform quiet_indifferent h rfl).weaken hquiet).bind
      fun _ past d h => hrest _ past d h
  · exact hrest _ past d h

theorem backupBody_leaves :
    Keeping (Left c d₀) (backupBody c) (Left c d₀) [] d₀ := by
  have hquiet : ∀ v past d, Quiet d₀ v past d → Left c d₀ v past d := fun _ _ _ h => .quiet h
  refine ((keeping_perform quiet_indifferent quiet_initial rfl).weaken hquiet).bind
    fun _ past d h => ?_
  have h := quiet_indifferent.location true h
  refine ((getComposeContainerId_keeps quiet_indifferent h).weaken hquiet).bind
    fun containerId past d h => ?_
  refine ((stopLocal_keeps quiet_indifferent h containerId).weaken hquiet).bind fun v past d h => ?_
  exact publishLocal_leaves h containerId

end WorldBackup

end PzServer
