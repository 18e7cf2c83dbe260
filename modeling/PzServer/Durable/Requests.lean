import PzServer.Durable.Volume
import PzServer.Interaction.Ensures

/-!
# Programs on a volume

The requests of a program that replaces a file through a temporary name, and the volume as their
surroundings. Every request can fail with an `OSError`; a write that fails has left something, and
the others have left everything as it was.

The requests of such a program are of two kinds. Those that only prepare the temporary file leave
the target as it is, whatever comes of them (`Publishing.prepare`). The others are the one `rename`.

## Main definitions

* `Request`, `world` — what programs ask for, and what comes of it
* `Publishing` — the target is safe, and the temporary file is another one

## Main results

* `Publishing.prepare`, `Publishing.rename`
-/

namespace Durable

open Interaction

/-- A request about one directory. -/
inductive Request (ν α : Type) where
  /-- Create a file that is not there. -/
  | create (name : ν)
  /-- Create a file, or empty it. -/
  | truncate (name : ν)
  | write (name : ν) (content : α)
  | setMode (name : ν)
  | sync (name : ν)
  | rename (source target : ν)
  | syncDirectory
  | syncAll
  /-- Remove a file, if it is there. -/
  | unlink (name : ν)

/-- How a request ends: with the exception's type if it fails. -/
structure Outcome (α : Type) where
  error : Option String
  /-- what a new or half written file holds -/
  left : α

section World

variable {ν α : Type} [DecidableEq ν]

/-- The volume after a request that succeeds. -/
def Request.perform (left : α) (v : Volume ν α) : Request ν α → Volume ν α
  | create n => v.create n left
  | truncate n => if (v.entry n).isSome then v.write n left else v.create n left
  | write n c => v.write n c
  | setMode _ => v
  | sync n => v.sync n
  | rename source target => v.rename source target
  | syncDirectory => v.syncDirectory
  | syncAll => v.syncAll
  | unlink n => v.unlink n

/-- The volume after a request that fails. -/
def Request.abandon (left : α) (v : Volume ν α) : Request ν α → Volume ν α
  | write n _ => v.write n left
  | _ => v

/-- Where a request can succeed. -/
def Request.possible (v : Volume ν α) : Request ν α → Bool
  | create n => (v.entry n).isNone
  | write n _ | setMode n | sync n => (v.entry n).isSome
  | rename source _ => (v.entry source).isSome
  | _ => true

/-- The surroundings of a program on a volume. -/
def world : World (Request ν α) (fun _ => Except String Unit) (Volume ν α) where
  Choice _ := Outcome α
  allowed v q c := c.error.isSome || q.possible v
  answer v q c := match c.error with
    | none => (.ok (), q.perform c.left v)
    | some error => (.error error, q.abandon c.left v)

/-- A program that can raise. -/
abbrev FileM (ν α β : Type) : Type :=
  ExceptT String (Program (Request ν α) fun _ => Except String Unit) β

def ask (q : Request ν α) : FileM ν α Unit := askRaising q

variable {G : List (Move (Request ν α) (fun _ => Except String Unit) (Volume ν α)) →
    Move (Request ν α) (fun _ => Except String Unit) (Volume ν α) → Prop}
  {past : List (Move (Request ν α) (fun _ => Except String Unit) (Volume ν α))} {v : Volume ν α}
  {q : Request ν α} {ok : Unit → List (Move (Request ν α) (fun _ => Except String Unit)
    (Volume ν α)) → Volume ν α → Prop}
  {err : String → List (Move (Request ν α) (fun _ => Except String Unit) (Volume ν α)) →
    Volume ν α → Prop}

/-- One request: it succeeds where it can, or fails. -/
theorem ensures_ask (hok : ∀ left, q.possible v = true →
      G past ⟨q, .ok (), v, q.perform left v⟩ ∧
        ok () (⟨q, .ok (), v, q.perform left v⟩ :: past) (q.perform left v))
    (herr : ∀ error left, G past ⟨q, .error error, v, q.abandon left v⟩ ∧
      err error (⟨q, .error error, v, q.abandon left v⟩ :: past) (q.abandon left v)) :
    world.Ensures G (ask q) ok err past v := by
  refine World.ensures_ask fun c hc => ?_
  obtain ⟨error, left⟩ := c
  cases error with
  | none => exact hok left hc
  | some error => exact herr error left

end World

/-! ### Replacing a file -/

section Publishing

variable {ν α : Type} {v : Volume ν α} {S T : Option α → Prop} {temporary target : ν}
  {q : Request ν α} {left content : α}

/-- The target is safe, and the temporary file is another one. -/
structure Publishing (temporary target : ν) (S : Option α → Prop) (v : Volume ν α) : Prop where
  apart : v.Apart temporary target
  shows : v.Shows target S

/-- The request is only about the temporary file, or writes back. -/
def Request.Prepares (temporary : ν) : Request ν α → Prop
  | create n | truncate n | write n _ | setMode n | sync n | unlink n => n = temporary
  | rename .. => False
  | syncDirectory | syncAll => True

theorem Publishing.mono (h : Publishing temporary target S v) (hST : ∀ x, S x → T x) :
    Publishing temporary target T v := ⟨h.apart, h.shows.mono hST⟩

theorem Publishing.write (h : Publishing temporary target S v) :
    Publishing temporary target S (v.write temporary left) :=
  ⟨h.apart.write, h.shows.write h.apart⟩

variable [DecidableEq ν]

theorem Publishing.create (h : Publishing temporary target S v) (hne : target ≠ temporary) :
    Publishing temporary target S (v.create temporary left) :=
  ⟨.create hne, h.shows.create hne⟩

theorem Publishing.unlink (h : Publishing temporary target S v) (hne : target ≠ temporary) :
    Publishing temporary target S (v.unlink temporary) :=
  ⟨Volume.apart_of_entry (v.entry_unlink temporary), h.shows.unlink hne⟩

/-- **Preparing** the temporary file leaves the target as it is. -/
theorem Publishing.prepare (h : Publishing temporary target S v) (hne : target ≠ temporary)
    (hq : q.Prepares temporary) : Publishing temporary target S (q.perform left v) := by
  have hapart : ∀ i, v.entry temporary = some i → some i ∉ [v.entry target] := by
    intro i hi hmem
    refine h.apart i hi ?_
    rw [List.mem_singleton.mp hmem]
    exact v.entry_mem_held target
  cases q with
  | create n =>
    obtain rfl := hq
    exact h.create hne
  | truncate n =>
    obtain rfl := hq
    rw [Request.perform]
    split
    · exact h.write
    · exact h.create hne
  | write n c =>
    obtain rfl := hq
    exact h.write
  | setMode n => exact h
  | sync n =>
    obtain rfl := hq
    exact ⟨h.apart.sync, h.shows.sync⟩
  | rename source n => exact hq.elim
  | syncDirectory => exact ⟨hapart, h.shows.syncDirectory⟩
  | syncAll => exact ⟨hapart, Volume.shows_syncAll h.shows.read⟩
  | unlink n =>
    obtain rfl := hq
    exact h.unlink hne

omit [DecidableEq ν] in
/-- It does so, too, where it fails. -/
theorem Publishing.abandon (h : Publishing temporary target S v) (hq : q.Prepares temporary) :
    Publishing temporary target S (q.abandon left v) := by
  cases q with
  | write n c =>
    obtain rfl := hq
    exact h.write
  | create | truncate | setMode | sync | rename | syncDirectory | syncAll | unlink => exact h

/-- **The temporary file takes the place of the target**, when it is safe. -/
theorem Publishing.rename (h : Publishing temporary target S v) (hne : target ≠ temporary)
    (hc : v.Safe temporary content) (hS : S (some content)) :
    Publishing temporary target S (v.rename temporary target) :=
  ⟨Volume.apart_of_entry (v.entry_rename_source temporary target), h.shows.rename hne hc hS⟩

end Publishing

end Durable
