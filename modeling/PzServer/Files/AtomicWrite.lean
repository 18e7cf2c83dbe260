import Mathlib.Data.Nat.Basic
import PzServer.Durable.Requests
import PzServer.Updater.Requests

/-!
# `atomic_write`

The record, the pointers, the launcher document and the checksums of the backups are all written by
one function: into a new file, which is synchronized, gets its mode and takes the place of the old
one, and then the directory is written back. The temporary file is removed at last, whatever
happened.

Elsewhere a write is one step, which leaves the old file or the new one, and `durably` says what may
come of it. Here that is proved of the function, with the power failing between any two of its
system calls.

## Main definitions

* `atomicWrite`
* `Writes` — writing again and again, with kills and power failures

## Main results

* `atomicWrite_durably` — a write is one step
* `Writes.shows_latest` — what the file shows after many writes
-/

namespace PzServer

namespace Files

open Interaction Durable

variable {ν α : Type} [DecidableEq ν]

/-- `atomic_write`, in a directory that is there. -/
def atomicWrite (temporary path : ν) (content : α) : FileM ν α Unit :=
  withCleanup
    (do
      ask (.create temporary)
      ask (.write temporary content)
      ask (.sync temporary)
      ask (.setMode temporary)
      ask (.rename temporary path)
      ask .syncDirectory)
    fun _ => ask (.unlink temporary)

/-- The moves of a program on a directory. -/
abbrev Moves (ν α : Type) : Type :=
  List (Move (Request ν α) (fun _ => Except String Unit) (Volume ν α))

variable {v v' : Volume ν α} {S : Option α → Prop} {temporary path : ν} {content : α}
  {q : Request ν α} {past past' : Moves ν α}

/-! ### One write -/

/-- The target shows something in `S` after every move. -/
def KeepsShowing (path : ν) (S : Option α → Prop) (_ : Moves ν α)
    (m : Move (Request ν α) (fun _ => Except String Unit) (Volume ν α)) : Prop :=
  m.after.Shows path S

/-- A request about the temporary file. -/
theorem ensures_prepare (q : Request ν α) (hq : q.Prepares temporary)
    (h : Publishing temporary path S v) (hne : path ≠ temporary) :
    world.Ensures (KeepsShowing path S) (ask q)
      (fun _ _ new => Publishing temporary path S new ∧ q.possible v = true ∧
        ∃ left, new = q.perform left v)
      (fun _ _ new => Publishing temporary path S new) past v := by
  refine ensures_ask (fun left hpossible => ?_) fun error left => ?_
  · have hnew : Publishing temporary path S (q.perform left v) := h.prepare hne hq
    exact ⟨hnew.shows, hnew, hpossible, left, rfl⟩
  · have hnew : Publishing temporary path S (q.abandon left v) := h.abandon hq
    exact ⟨hnew.shows, hnew⟩

/-- The new content is written to the temporary file. -/
theorem ensures_fill (h : Publishing temporary path S v) (hne : path ≠ temporary) :
    world.Ensures (KeepsShowing path S)
      (do
        ask (.create temporary)
        ask (.write temporary content)
        ask (.sync temporary)
        ask (.setMode temporary) : FileM ν α Unit)
      (fun _ _ new => Publishing temporary path S new ∧ new.Safe temporary content)
      (fun _ _ new => Publishing temporary path S new) past v := by
  refine (ensures_prepare (.create temporary) rfl h hne).seq (fun _ past₁ v₁ _ h₁ => ?_)
    fun _ _ _ _ => id
  refine (ensures_prepare (.write temporary content) rfl h₁.1 hne).seq
    (fun _ past₂ v₂ _ h₂ => ?_) fun _ _ _ _ => id
  obtain ⟨h₂, hentry, left₂, rfl⟩ := h₂
  refine (ensures_prepare (.sync temporary) rfl h₂ hne).seq (fun _ past₃ v₃ _ h₃ => ?_)
    fun _ _ _ _ => id
  obtain ⟨h₃, -, left₃, rfl⟩ := h₃
  refine (ensures_prepare (.setMode temporary) rfl h₃ hne).mono (fun _ _ _ h₄ => ?_) fun _ _ _ => id
  obtain ⟨h₄, -, left₄, rfl⟩ := h₄
  exact ⟨h₄, Volume.safe_sync (Volume.read_write hentry)⟩

/-- The temporary file takes the place of the target. -/
theorem ensures_replace (h : Publishing temporary path S v) (hne : path ≠ temporary)
    (hc : v.Safe temporary content) (hS : S (some content)) :
    world.Ensures (KeepsShowing path S)
      (do
        ask (.rename temporary path)
        ask .syncDirectory : FileM ν α Unit)
      (fun _ _ new => Publishing temporary path (· = some content) new)
      (fun _ _ new => Publishing temporary path S new) past v := by
  have hrename : Publishing temporary path S (v.rename temporary path) := h.rename hne hc hS
  have hentry := v.entry_rename_source temporary path
  have hrenamed : world.Ensures (KeepsShowing path S)
      (ask (.rename temporary path) : FileM ν α Unit) (fun _ _ new => new = v.rename temporary path)
      (fun _ _ new => Publishing temporary path S new) past v :=
    ensures_ask (fun _ _ => ⟨hrename.shows, rfl⟩) fun _ _ => ⟨h.shows, h⟩
  refine hrenamed.seq (fun _ past₁ v₁ _ h₁ => ?_) fun _ _ _ _ => id
  subst h₁
  have hshows := (hc.rename hne).shows_syncDirectory
  refine ensures_ask (fun _ _ => ⟨?_, ?_, hshows⟩) fun _ _ => ⟨hrename.shows, hrename⟩
  · exact hrename.shows.syncDirectory
  · exact Volume.apart_of_entry hentry

/-- **One write.** At every point the file shows what it showed before or the new content, whatever
the power does; when the write returns, it is the new content. -/
theorem atomicWrite_ensures (h : Publishing temporary path S v) (hne : path ≠ temporary)
    (hS : S (some content)) :
    world.Ensures (KeepsShowing path S) (atomicWrite temporary path content)
      (fun _ _ new => new.Shows path (· = some content)) (fun _ _ new => new.Shows path S)
      past v := by
  have hbody : world.Ensures (KeepsShowing path S)
      (do
        ask (.create temporary)
        ask (.write temporary content)
        ask (.sync temporary)
        ask (.setMode temporary)
        ask (.rename temporary path)
        ask .syncDirectory : FileM ν α Unit)
      (fun _ _ new => Publishing temporary path (· = some content) new)
      (fun _ _ new => Publishing temporary path S new) past v := by
    have hfill := @ensures_fill _ _ _ v S temporary path content past h hne
    have hsplit := hfill.seq (fun _ _ _ _ h₁ => ensures_replace h₁.1 hne h₁.2 hS) fun _ _ _ _ => id
    simpa only [bind_assoc] using hsplit
  refine hbody.withCleanup (fun _ past' new _ hnew => ?_) fun _ _ new _ hnew => ?_
  · have hS' : ∀ x, x = some content → S x := fun x hx => hx ▸ hS
    have hremoved :=
      @ensures_prepare _ _ _ _ _ temporary path past' (.unlink temporary) rfl hnew hne
    refine (hremoved.weaken fun past m (hm : m.after.Shows path _) => hm.mono hS').mono
      (fun _ _ _ h' => h'.1.shows) fun _ _ _ h' => h'.shows.mono hS'
  · exact (ensures_prepare (.unlink temporary) rfl hnew hne).mono (fun _ _ _ h' => h'.1.shows)
      fun _ _ _ h' => h'.shows

/-- A write that succeeds. -/
theorem exists_exec (temporary path : ν) (content : α) (hfree : v.entry temporary = none) :
    ∃ past v', world.Exec (atomicWrite temporary path content).run [] v (.done (.ok ())) past v' ∧
      v'.entry temporary = none := by
  have hcreated : ((v.create temporary content).entry temporary).isSome := by
    rw [Volume.create, Volume.entry_point_self]
    rfl
  have hwritten : (((v.create temporary content).write temporary content).entry temporary).isSome :=
    by rwa [Volume.entry_write]
  have hsynced : ((((v.create temporary content).write temporary content).sync temporary).entry
      temporary).isSome := by rwa [Volume.entry_sync]
  refine ⟨_, _, .ask ⟨none, content⟩ ?_ (.ask ⟨none, content⟩ hcreated
    (.ask ⟨none, content⟩ hwritten (.ask ⟨none, content⟩ hsynced (.ask ⟨none, content⟩ hsynced
      (.ask ⟨none, content⟩ rfl (.ask ⟨none, content⟩ rfl (.refl _ _ _))))))), ?_⟩
  · exact congrArg Option.isNone hfree
  · exact Volume.entry_unlink ..

/-- A directory with one file, or with none. -/
def single [Inhabited α] (path : ν) (shown : Option α) : Volume ν α where
  entry n := if n = path then shown.map fun _ => 0 else none
  older _ := []
  content _ := shown.getD default
  synced _ := true
  fresh := 1
  lt_fresh n i hi := by
    rw [List.mem_singleton] at hi
    split at hi
    · cases shown with
      | none => cases hi
      | some x =>
        cases hi
        exact Nat.one_pos
    · cases hi

theorem shows_single [Inhabited α] (path : ν) (shown : Option α) :
    (single path shown).Shows path (· = shown) := by
  intro e he
  have hentry : e = shown.map fun _ => 0 := (List.mem_singleton.mp he).trans (if_pos rfl)
  refine ⟨?_, fun _ _ => rfl⟩
  rw [hentry]
  cases shown <;> rfl

/-- **A write is one step**: what is left of it, also by a power failure afterwards, is what is left
of the step with some outcome. -/
theorem atomicWrite_durably (d d' : Updater.Disk) (shown : Updater.Disk → Option α)
    (raise : String → Updater.Err) {result : Except String Unit} {left : Volume ν α}
    (h : Publishing temporary path (· = shown d) v) (hne : path ≠ temporary)
    (hnew : shown d' = some content)
    (he : world.Exec (atomicWrite temporary path content).run past v (.done result) past' v')
    (hleft : left = v' ∨ v'.Crashed left) :
    ∃ c : Updater.WriteOutcome, (Updater.durably raise d d' c).1 = result.mapError raise ∧
      left.read path = shown (Updater.durably raise d d' c).2 := by
  have hshows : ∀ {S : Option α → Prop}, v'.Shows path S → S (left.read path) := by
    intro S hS
    rcases hleft with rfl | hcrashed
    · exact hS.read
    · exact (hS.crashed hcrashed).read
  have heither : Publishing temporary path (fun x => x = shown d ∨ x = some content) v :=
    h.mono fun _ => .inl
  have hguarantees : world.Guarantees _ (atomicWrite temporary path content).run _ past v :=
    atomicWrite_ensures heither hne (.inr rfl)
  have hend := hguarantees.exec_done he
  cases result with
  | ok =>
    have hread : left.read path = some content := hshows hend
    exact ⟨.ok, rfl, hread.trans hnew.symm⟩
  | error name =>
    rcases hshows hend with hread | hread
    · exact ⟨.failedBefore name, rfl, hread⟩
    · exact ⟨.failedAfter name, rfl, hread.trans hnew.symm⟩

/-- The pointer as the content of its file. -/
def pointerShown (d : Updater.Disk) : Option ℕ := some (if d.active.isSome then 1 else 0)

/-- A disk with an active release. -/
def pointed : Updater.Disk := { Updater.Disk.empty with active := some (.steam 5 0 0) }

/-- A write whose directory sync fails after the rename. The old file can still come back. -/
theorem exists_exec_unsynced : ∃ (past : Moves ℕ ℕ) (v : Volume ℕ ℕ),
    world.Exec (atomicWrite 1 0 1).run [] (single 0 (some 0)) (.done (.error "OSError")) past v ∧
      v.read 0 = some 1 ∧ v.content 0 = 0 ∧ ∀ n, (single 0 (some 0)).entry n ∈ v.held n := by
  refine ⟨_, _, .ask ⟨none, 1⟩ rfl (.ask ⟨none, 1⟩ rfl (.ask ⟨none, 1⟩ rfl (.ask ⟨none, 1⟩ rfl
    (.ask ⟨none, 1⟩ rfl (.ask ⟨some "OSError", 1⟩ rfl (.ask ⟨none, 1⟩ rfl (.refl _ _ _))))))),
    rfl, rfl, fun n => ?_⟩
  cases n with
  | zero => exact .tail _ (.head _)
  | succ n =>
    cases n with
    | zero => exact .head _
    | succ => exact .head _

/-- A write that returns, and one whose directory sync fails after the rename: it raises, the new
content is there, and a power failure brings the old one back. -/
theorem atomicWrite_durably_active :
    (∃ (past : Moves ℕ ℕ) (left : Volume ℕ ℕ),
      world.Exec (atomicWrite 1 0 1).run [] (single 0 (some 0)) (.done (.ok ())) past left ∧
        ∃ c : Updater.WriteOutcome, (Updater.durably .os .empty pointed c).1 = .ok () ∧
          left.read 0 = pointerShown (Updater.durably .os .empty pointed c).2) ∧
    ∃ (past : Moves ℕ ℕ) (v left : Volume ℕ ℕ),
      world.Exec (atomicWrite 1 0 1).run [] (single 0 (some 0)) (.done (.error "OSError")) past v ∧
        v.read 0 = some 1 ∧ v.Crashed left ∧ left.read 0 = some 0 ∧
        ∃ c : Updater.WriteOutcome,
          (Updater.durably .os .empty pointed c).1 = .error (.os "OSError") ∧
          left.read 0 = pointerShown (Updater.durably .os .empty pointed c).2 := by
  have hpublishing : Publishing 1 0 (· = some 0) (single 0 (some 0)) :=
    ⟨Volume.apart_of_entry rfl, shows_single 0 (some 0)⟩
  constructor
  · obtain ⟨past, left, he, -⟩ := exists_exec 1 0 1 (rfl : (single 0 (some 0)).entry 1 = none)
    exact ⟨past, left, he, atomicWrite_durably .empty pointed pointerShown .os hpublishing
      (by decide) rfl he (.inl rfl)⟩
  · obtain ⟨past, v, he, hread, hcontent, hheld⟩ := exists_exec_unsynced
    have hcrashed := v.crashed_crash (single 0 (some 0)).entry hheld fun _ => 0
    have hlost : (v.crash (single 0 (some 0)).entry hheld fun _ => 0).read 0 = some 0 := by
      refine congrArg some ?_
      change (if v.synced 0 then v.content 0 else 0) = 0
      rw [hcontent, ite_self]
    exact ⟨past, v, _, he, hread, hcrashed, hlost, atomicWrite_durably .empty pointed pointerShown
      .os hpublishing (by decide) rfl he (.inr hcrashed)⟩

/-! ### Writing again and again -/

/-- What became of a write. -/
inductive Event (α : Type) where
  | returned (content : α)
  /-- It raised, was killed, or the power failed. -/
  | unfinished (content : α)

/-- Writing the file again and again: every write runs to its end or is cut off anywhere, and the
power may fail between two writes as well as where one was cut off. -/
inductive Writes (path : ν) (initial : Option α) : List (Event α) → Volume ν α → Prop where
  | start {v : Volume ν α} (h : v.Shows path (· = initial)) : Writes path initial [] v
  | returned {events : List (Event α)} {v v' : Volume ν α} {temporary : ν} {content : α}
    {past : Moves ν α} (h : Writes path initial events v) (hne : path ≠ temporary)
    (hfree : v.entry temporary = none)
    (he : world.Exec (atomicWrite temporary path content).run [] v (.done (.ok ())) past v') :
    Writes path initial (.returned content :: events) v'
  | unfinished {events : List (Event α)} {v v' : Volume ν α} {temporary : ν} {content : α}
    {past : Moves ν α} {rest : Program (Request ν α) (fun _ => Except String Unit) _}
    (h : Writes path initial events v) (hne : path ≠ temporary) (hfree : v.entry temporary = none)
    (he : world.Exec (atomicWrite temporary path content).run [] v rest past v') :
    Writes path initial (.unfinished content :: events) v'
  | crashed {events : List (Event α)} {v v' : Volume ν α} (h : Writes path initial events v)
    (hcrashed : v.Crashed v') : Writes path initial events v'

/-- The contents of the last write that returned, or of one that came after it. -/
def Latest (initial : Option α) : List (Event α) → Option α → Prop
  | [], x => x = initial
  | .returned content :: _, x => x = some content
  | .unfinished content :: events, x => x = some content ∨ Latest initial events x

variable {initial : Option α} {events : List (Event α)} {x : Option α}

theorem Writes.shows_latest (h : Writes path initial events v) :
    v.Shows path (Latest initial events) := by
  induction h with
  | start h => exact h
  | @returned events v v' temporary content past h hne hfree he ih =>
    have hpublishing : Publishing temporary path
        (fun x => x = some content ∨ Latest initial events x) v :=
      ⟨Volume.apart_of_entry hfree, ih.mono fun _ => .inr⟩
    exact (atomicWrite_ensures hpublishing hne (.inl rfl)).exec_done he
  | @unfinished events v v' temporary content past rest h hne hfree he ih =>
    have hpublishing : Publishing temporary path
        (fun x => x = some content ∨ Latest initial events x) v :=
      ⟨Volume.apart_of_entry hfree, ih.mono fun _ => .inr⟩
    have hguarantees : world.Guarantees (KeepsShowing path _)
      (atomicWrite temporary path content).run _ [] v :=
        atomicWrite_ensures hpublishing hne (.inl rfl)
    exact hguarantees.exec_after (K := fun _ v => v.Shows path fun x => x = some content ∨
      Latest initial events x) (fun _ _ hm => hm) he hpublishing.shows
  | crashed h hcrashed ih => exact ih.crashed hcrashed

theorem exists_latest (initial : Option α) (events : List (Event α)) :
    ∃ x, Latest initial events x := by
  cases events with
  | nil => exact ⟨initial, rfl⟩
  | cons event events =>
    cases event with
    | returned content => exact ⟨some content, rfl⟩
    | unfinished content => exact ⟨some content, .inl rfl⟩

/-- **What the file shows** after any writes, kills and power failures: the content of the last
write that returned, or of one that came after it; and it may be each of these. -/
theorem Writes.read_iff [Inhabited α] [Nontrivial ν] (path : ν) (initial : Option α)
    (events : List (Event α)) (x : Option α) :
    (∃ v, Writes path initial events v ∧ v.read path = x) ↔ Latest initial events x := by
  constructor
  · rintro ⟨v, h, rfl⟩
    exact h.shows_latest.read
  obtain ⟨temporary, hne⟩ := exists_ne path
  intro hx
  suffices hfree : ∃ v, Writes path initial events v ∧ v.entry temporary = none ∧ v.read path = x by
    obtain ⟨v, hv, -, hread⟩ := hfree
    exact ⟨v, hv, hread⟩
  induction events generalizing x with
  | nil =>
    obtain rfl := hx
    exact ⟨single path x, .start (shows_single path x), if_neg hne, (shows_single path x).read⟩
  | cons event events ih =>
    have hwritten : ∀ content, ∃ v past v', Writes path initial events v ∧
        v.entry temporary = none ∧ v'.entry temporary = none ∧ v'.read path = some content ∧
        world.Exec (atomicWrite temporary path content).run [] v (.done (.ok ())) past v' := by
      intro content
      obtain ⟨y, hy⟩ := exists_latest initial events
      obtain ⟨v, hv, hfree, -⟩ := ih y hy
      obtain ⟨past, v', he, hfree'⟩ := exists_exec temporary path content hfree
      exact ⟨v, past, v', hv, hfree, hfree', (hv.returned hne.symm hfree he).shows_latest.read, he⟩
    cases event with
    | returned content =>
      obtain rfl := hx
      obtain ⟨v, past, v', hv, hfree, hfree', hread, he⟩ := hwritten content
      exact ⟨v', hv.returned hne.symm hfree he, hfree', hread⟩
    | unfinished content =>
      rcases hx with rfl | hx
      · obtain ⟨v, past, v', hv, hfree, hfree', hread, he⟩ := hwritten content
        exact ⟨v', hv.unfinished hne.symm hfree he, hfree', hread⟩
      · obtain ⟨v, hv, hfree, hread⟩ := ih x hx
        have he := World.Exec.refl (W := world) (atomicWrite temporary path content).run [] v
        exact ⟨v, hv.unfinished hne.symm hfree he, hfree, hread⟩

theorem Writes.read_interrupted :
    ∃ v : Volume ℕ ℕ, Writes 0 (some 0) [.unfinished 2, .returned 1] v ∧ v.read 0 = some 1 :=
  (Writes.read_iff 0 (some 0) [.unfinished 2, .returned 1] (some 1)).mpr (.inr rfl)

end Files

end PzServer
