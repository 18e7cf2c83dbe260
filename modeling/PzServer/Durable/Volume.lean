import Mathlib.Data.Nat.Notation
import Mathlib.Logic.Function.Basic

/-!
# Files that survive a power failure

A file system keeps in memory what it has not written back. The content of a file that was written
is safe when the file was synchronized; a name that was created, replaced or removed is safe when
its directory was. What is left after a power failure is therefore not one state but many: every
name leads to something that it led to since the directory was written back, and a file that was not
synchronized has any content.

`Volume` is one directory with its files. `Shows v n S` says that the name `n` is in `S` whatever
the power does; it can be checked on the volume, without a look at what a failure may leave
(`shows_iff`). The lemmas say what every operation does to it.

## Main definitions

* `Volume`, `Volume.read` — the directory
* `Volume.Crashed` — what a power failure leaves
* `Volume.Shows` — what a name shows, now and after any power failure

## Main results

* `Volume.shows_iff`
-/

namespace Durable

/-- A directory, with names in `ν` and contents in `α`. -/
structure Volume (ν α : Type) where
  /-- the file that a name leads to -/
  entry : ν → Option ℕ
  /-- what it led to before, since the directory was written back -/
  older : ν → List (Option ℕ)
  content : ℕ → α
  synced : ℕ → Bool
  /-- No file from here on was ever created. -/
  fresh : ℕ
  lt_fresh : ∀ n i, some i ∈ entry n :: older n → i < fresh

namespace Volume

variable {ν α : Type} {v v' : Volume ν α} {n m : ν} {i : ℕ} {e : Option ℕ} {c : α}
  {S T : Option α → Prop}

/-- What a name may lead to after a power failure. -/
def held (v : Volume ν α) (n : ν) : List (Option ℕ) := v.entry n :: v.older n

/-- What a name shows, if it is there. -/
def read (v : Volume ν α) (n : ν) : Option α := (v.entry n).map v.content

theorem entry_mem_held (v : Volume ν α) (n : ν) : v.entry n ∈ v.held n := List.mem_cons_self

theorem lt_fresh_of_entry (h : v.entry n = some i) : i < v.fresh :=
  v.lt_fresh n i (h ▸ List.mem_cons_self)

/-! ### Power failures -/

/-- `v'` is what a power failure may leave of `v`. -/
structure Crashed (v v' : Volume ν α) : Prop where
  entry : ∀ n, v'.entry n ∈ v.held n
  content : ∀ i, v.synced i = true → v'.content i = v.content i
  older : ∀ n, v'.older n = []
  synced : ∀ i, v'.synced i = true

/-- The volume that is left when every name leads to `entry`, and the contents that were not safe
are those of `content`. -/
def crash (v : Volume ν α) (entry : ν → Option ℕ) (h : ∀ n, entry n ∈ v.held n) (content : ℕ → α) :
    Volume ν α where
  entry := entry
  older _ := []
  content i := if v.synced i then v.content i else content i
  synced _ := true
  fresh := v.fresh
  lt_fresh n i hi := v.lt_fresh n i ((List.mem_singleton.mp hi) ▸ h n)

theorem crashed_crash (v : Volume ν α) (entry : ν → Option ℕ) (h : ∀ n, entry n ∈ v.held n)
    (content : ℕ → α) : Crashed v (v.crash entry h content) :=
  ⟨h, fun _ hi => if_pos hi, fun _ => rfl, fun _ => rfl⟩

/-- The name shows something in `S`, now and after any power failure. -/
def Shows (v : Volume ν α) (n : ν) (S : Option α → Prop) : Prop :=
  ∀ e ∈ v.held n, S (e.map v.content) ∧ ∀ i, e = some i → v.synced i = true

theorem Shows.read (h : v.Shows n S) : S (v.read n) := (h _ (v.entry_mem_held n)).1

theorem Shows.synced (h : v.Shows n S) (hi : v.entry n = some i) : v.synced i = true :=
  (h _ (v.entry_mem_held n)).2 i hi

theorem Shows.mono (h : v.Shows n S) (hST : ∀ x, S x → T x) : v.Shows n T :=
  fun e he => ⟨hST _ (h e he).1, (h e he).2⟩

/-- The name leads to a file with this content, which is safe itself. -/
structure Safe (v : Volume ν α) (n : ν) (c : α) : Prop where
  read : v.read n = some c
  synced : ∀ i, v.entry n = some i → v.synced i = true

/-- The name leads to a file with this content, which is not safe. -/
def Loose (v : Volume ν α) (n : ν) (c : α) : Prop :=
  ∃ i, v.entry n = some i ∧ v.content i = c ∧ v.synced i = false

theorem Loose.read (h : v.Loose n c) : v.read n = some c := by
  obtain ⟨i, hi, rfl, -⟩ := h
  rw [Volume.read, hi, Option.map_some]

theorem Loose.not_shows (h : v.Loose n c) : ¬ v.Shows n S := by
  obtain ⟨i, hi, -, hsynced⟩ := h
  intro hshows
  rw [hshows.synced hi] at hsynced
  cases hsynced

theorem Shows.crashed (h : v.Shows n S) (hv : Crashed v v') : v'.Shows n S := by
  intro e he
  rw [held, hv.older, List.mem_singleton] at he
  subst he
  obtain ⟨hS, hsynced⟩ := h _ (hv.entry n)
  refine ⟨?_, fun i _ => hv.synced i⟩
  cases hentry : v'.entry n with
  | none =>
    rw [hentry] at hS
    exact hS
  | some i =>
    rw [hentry] at hS hsynced
    rw [Option.map_some, hv.content i (hsynced i rfl)]
    exact hS

/-- **Power failures**: a name is safe exactly where every failure leaves it so, if there is a
content that it should not show. -/
theorem shows_iff {junk : α} (hjunk : ¬ S (some junk)) :
    v.Shows n S ↔ ∀ v', Crashed v v' → S (v'.read n) := by
  classical
  constructor
  · exact fun h v' hv => (h.crashed hv).read
  · intro h e he
    have hheld : ∀ m, (if m = n then e else v.entry m) ∈ v.held m := by
      intro m
      by_cases hm : m = n
      · rw [if_pos hm, hm]
        exact he
      · rw [if_neg hm]
        exact v.entry_mem_held m
    have hleft : ∀ content : ℕ → α,
        S (e.map fun i => if v.synced i then v.content i else content i) := by
      intro content
      have hS := h _ (v.crashed_crash _ hheld content)
      change S ((if n = n then e else v.entry n).map _) at hS
      rwa [if_pos rfl] at hS
    constructor
    · have hS := hleft v.content
      simpa only [ite_self] using hS
    · rintro i rfl
      by_contra hi
      have hS := hleft fun _ => junk
      rw [Option.map_some, if_neg hi] at hS
      exact hjunk hS

/-! ### Files -/

/-- A file with some content; it is not safe. -/
def fill (v : Volume ν α) (i : ℕ) (c : α) : Volume ν α :=
  { v with
    content := Function.update v.content i c
    synced := Function.update v.synced i false }

/-- Write to the file that a name leads to. -/
def write (v : Volume ν α) (n : ν) (c : α) : Volume ν α :=
  match v.entry n with
  | none => v
  | some i => v.fill i c

/-- Synchronize the file that a name leads to. -/
def sync (v : Volume ν α) (n : ν) : Volume ν α :=
  match v.entry n with
  | none => v
  | some i => { v with synced := Function.update v.synced i true }

/-- The file that `m` leads to is none that `n` may lead to. -/
def Apart (v : Volume ν α) (m n : ν) : Prop := ∀ i, v.entry m = some i → some i ∉ v.held n

theorem apart_of_entry (h : v.entry m = none) : v.Apart m n := by
  intro i hi
  rw [h] at hi
  cases hi

theorem content_fill_self (v : Volume ν α) (i : ℕ) (c : α) : (v.fill i c).content i = c :=
  Function.update_self ..

theorem Shows.fill (h : v.Shows n S) (hi : some i ∉ v.held n) : (v.fill i c).Shows n S := by
  intro e he
  obtain ⟨hS, hsynced⟩ := h e he
  have hne : ∀ j, e = some j → j ≠ i := by
    rintro j rfl rfl
    exact hi he
  constructor
  · cases e with
    | none => exact hS
    | some j =>
      have hj : (v.fill i c).content j = v.content j := Function.update_of_ne (hne j rfl) ..
      rwa [Option.map_some, hj]
  · intro j hj
    have hsame : (v.fill i c).synced j = v.synced j := Function.update_of_ne (hne j hj) ..
    rw [hsame]
    exact hsynced j hj

theorem entry_write (v : Volume ν α) (m n : ν) (c : α) : (v.write m c).entry n = v.entry n := by
  rw [write]
  split <;> rfl

theorem held_write (v : Volume ν α) (m n : ν) (c : α) : (v.write m c).held n = v.held n := by
  rw [write]
  split <;> rfl

theorem read_write (h : (v.entry m).isSome) : (v.write m c).read m = some c := by
  obtain ⟨i, hi⟩ := Option.isSome_iff_exists.mp h
  rw [read, entry_write, hi, write, hi]
  exact congrArg some (content_fill_self ..)

theorem loose_write (h : (v.entry m).isSome) : (v.write m c).Loose m c := by
  obtain ⟨i, hi⟩ := Option.isSome_iff_exists.mp h
  refine ⟨i, (entry_write ..).trans hi, ?_, ?_⟩
  · rw [write, hi]
    exact content_fill_self ..
  · rw [write, hi]
    exact Function.update_self ..

theorem Shows.write (h : v.Shows n S) (hm : v.Apart m n) : (v.write m c).Shows n S := by
  rw [Volume.write]
  split
  · exact h
  · rename_i i hi
    exact h.fill (hm i hi)

theorem Apart.write (hm : v.Apart m n) : (v.write m c).Apart m n := by
  intro i hi
  rw [entry_write] at hi
  rw [held_write]
  exact hm i hi

theorem entry_sync (v : Volume ν α) (m n : ν) : (v.sync m).entry n = v.entry n := by
  rw [sync]
  split <;> rfl

theorem held_sync (v : Volume ν α) (m n : ν) : (v.sync m).held n = v.held n := by
  rw [sync]
  split <;> rfl

theorem read_sync (v : Volume ν α) (m n : ν) : (v.sync m).read n = v.read n := by
  rw [read, read, sync]
  split <;> rfl

/-- A synchronized file is safe. -/
theorem safe_sync (h : v.read n = some c) : (v.sync n).Safe n c := by
  refine ⟨(read_sync v n n).trans h, fun i hi => ?_⟩
  rw [entry_sync] at hi
  rw [sync, hi]
  exact Function.update_self ..

theorem Shows.sync (h : v.Shows n S) : (v.sync m).Shows n S := by
  rw [Volume.sync]
  split
  · exact h
  · refine fun e he => ⟨(h e he).1, fun i hi => ?_⟩
    change Function.update v.synced _ true i = true
    rw [Function.update_apply]
    split
    · rfl
    · exact (h e he).2 i hi

theorem Apart.sync (hm : v.Apart m n) : (v.sync m).Apart m n := by
  intro i hi
  rw [entry_sync] at hi
  rw [held_sync]
  exact hm i hi

/-! ### Writing back -/

/-- Write the directory back. -/
def syncDirectory (v : Volume ν α) : Volume ν α :=
  { v with
    older := fun _ => []
    lt_fresh := fun n i hi => v.lt_fresh n i (List.mem_cons.mpr (.inl (List.mem_singleton.mp hi))) }

/-- Write everything back. -/
def syncAll (v : Volume ν α) : Volume ν α := { v.syncDirectory with synced := fun _ => true }

/-- Written back, a name that leads to a safe file is safe. -/
theorem Safe.shows_syncDirectory (h : v.Safe n c) : v.syncDirectory.Shows n (· = some c) := by
  intro e he
  rw [List.mem_singleton.mp he]
  exact ⟨h.read, h.synced⟩

theorem Shows.syncDirectory (h : v.Shows n S) : v.syncDirectory.Shows n S := by
  intro e he
  rw [List.mem_singleton.mp he]
  exact ⟨h.read, fun _ => h.synced⟩

theorem shows_syncAll (hS : S (v.read n)) : v.syncAll.Shows n S := by
  intro e he
  rw [List.mem_singleton.mp he]
  exact ⟨hS, fun _ _ => rfl⟩

/-! ### Names -/

variable [DecidableEq ν]

/-- Let a name lead to something else. -/
def point (v : Volume ν α) (n : ν) (e : Option ℕ) (he : ∀ i, e = some i → i < v.fresh) :
    Volume ν α where
  entry := Function.update v.entry n e
  older := Function.update v.older n (v.held n)
  content := v.content
  synced := v.synced
  fresh := v.fresh
  lt_fresh m i hi := by
    by_cases hm : m = n
    · subst hm
      rw [Function.update_self, Function.update_self] at hi
      rcases List.mem_cons.mp hi with hi | hi
      · exact he i hi.symm
      · exact v.lt_fresh m i hi
    · rw [Function.update_of_ne hm, Function.update_of_ne hm] at hi
      exact v.lt_fresh m i hi

/-- A file that no name leads to, with something in it. -/
def allocate (v : Volume ν α) (c : α) : Volume ν α :=
  ({ v with
    fresh := v.fresh + 1
    lt_fresh := fun m i hi => Nat.lt_succ_of_lt (v.lt_fresh m i hi) } : Volume ν α).fill v.fresh c

/-- A new file, with something in it. -/
def create (v : Volume ν α) (n : ν) (c : α) : Volume ν α :=
  (v.allocate c).point n (some v.fresh) fun _ hi => Option.some.inj hi ▸ Nat.lt_succ_self v.fresh

def unlink (v : Volume ν α) (n : ν) : Volume ν α := v.point n none fun _ h => by cases h

def rename (v : Volume ν α) (source target : ν) : Volume ν α :=
  (v.point target (v.entry source) fun _ hi => v.lt_fresh_of_entry hi).unlink source

section Point

variable {he : ∀ i, e = some i → i < v.fresh}

theorem entry_point_self : (v.point n e he).entry n = e := Function.update_self ..

theorem entry_point_ne (h : m ≠ n) : (v.point n e he).entry m = v.entry m :=
  Function.update_of_ne h ..

theorem held_point_self : (v.point n e he).held n = e :: v.held n := by
  rw [held, entry_point_self]
  exact congrArg (e :: ·) (Function.update_self ..)

theorem held_point_ne (h : m ≠ n) : (v.point n e he).held m = v.held m := by
  rw [held, entry_point_ne h]
  exact congrArg (v.entry m :: ·) (Function.update_of_ne h ..)

theorem Shows.point_ne (h : v.Shows n S) (hm : n ≠ m) : (v.point m e he).Shows n S := by
  intro x hx
  rw [held_point_ne hm] at hx
  exact h x hx

theorem Shows.point (h : v.Shows n S) (hS : S (e.map v.content))
    (hsynced : ∀ i, e = some i → v.synced i = true) : (v.point n e he).Shows n S := by
  intro x hx
  rw [held_point_self] at hx
  rcases List.mem_cons.mp hx with rfl | hx
  · exact ⟨hS, hsynced⟩
  · exact h x hx

end Point

theorem Shows.create (h : v.Shows n S) (hm : n ≠ m) : (v.create m c).Shows n S := by
  refine Shows.point_ne (Shows.fill h fun hmem => ?_) hm
  exact Nat.lt_irrefl _ (v.lt_fresh n _ hmem)

theorem Apart.create (hm : n ≠ m) : (v.create m c).Apart m n := by
  intro i hi
  rw [Volume.create, entry_point_self, Option.some.injEq] at hi
  subst hi
  rw [Volume.create, held_point_ne hm]
  exact fun hmem => Nat.lt_irrefl _ (v.lt_fresh n _ hmem)

theorem entry_unlink (v : Volume ν α) (m : ν) : (v.unlink m).entry m = none := entry_point_self

theorem entry_unlink_ne (v : Volume ν α) (h : n ≠ m) : (v.unlink m).entry n = v.entry n :=
  entry_point_ne h

theorem Shows.unlink (h : v.Shows n S) (hm : n ≠ m) : (v.unlink m).Shows n S := h.point_ne hm

/-- A name that is replaced shows what it showed, or what the other name showed. -/
theorem Shows.rename (h : v.Shows n S) (hm : n ≠ m) (hc : v.Safe m c) (hS : S (some c)) :
    (v.rename m n).Shows n S := by
  refine (h.point ?_ hc.synced).unlink hm
  rw [← hc.read] at hS
  exact hS

theorem entry_rename (v : Volume ν α) (hm : n ≠ m) : (v.rename m n).entry n = v.entry m :=
  (entry_unlink_ne _ hm).trans entry_point_self

theorem read_rename (v : Volume ν α) (hm : n ≠ m) : (v.rename m n).read n = v.read m := by
  rw [read, read, entry_rename v hm]
  rfl

theorem Safe.rename (h : v.Safe m c) (hm : n ≠ m) : (v.rename m n).Safe n c := by
  refine ⟨(read_rename v hm).trans h.read, fun i hi => ?_⟩
  rw [entry_rename v hm] at hi
  exact h.synced i hi

theorem Loose.rename (h : v.Loose m c) (hm : n ≠ m) : (v.rename m n).Loose n c := by
  obtain ⟨i, hi, hcontent, hsynced⟩ := h
  exact ⟨i, (entry_rename v hm).trans hi, hcontent, hsynced⟩

theorem Loose.unlink (h : v.Loose n c) (hm : n ≠ m) : (v.unlink m).Loose n c := by
  obtain ⟨i, hi, hcontent, hsynced⟩ := h
  exact ⟨i, (entry_unlink_ne v hm).trans hi, hcontent, hsynced⟩

theorem entry_rename_source (v : Volume ν α) (m n : ν) : (v.rename m n).entry m = none :=
  entry_unlink ..

end Volume

end Durable
