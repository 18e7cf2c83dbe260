import PzServer.Backup.Manager
import PzServer.Interaction.Returns

/-!
# What one request does to the backup directory

`Effect` says it once for every request and reply, and nothing after this module looks at nature's
choices.

## Main results

* `Media.effect_answer` — every reply has its effect
* `returns_ask` — one request in a program
-/

namespace PzServer

namespace Backup

open Interaction

variable {B : Type} {w : Media B} {d d' : Directory B} {n : FileName}

/-- The directory after a request, and what its reply says. -/
def Effect (w : Media B) (d d' : Directory B) : (q : Request) → Reply q → Prop
  | .writeArchive name, .ok _ => ∃ mtime, d' = d.insert name ⟨.tar w.data.members, mtime⟩
  | .writeNew name content, .ok _ => name ∉ d ∧ ∃ mtime, d' = d.insert name ⟨.text content, mtime⟩
  | .writeArchive name, .error _ | .writeNew name _, .error _ =>
    d' = d ∨ ∃ file, d' = d.insert name file
  | .replace source target, .ok _ =>
    ∃ file, d.lookup source = some file ∧ d' = (d.erase source).insert target file
  | .unlink name missingOk, .ok _ => (missingOk = false → name ∈ d) ∧ d' = d.erase name
  | .discard name, .ok _ => d' = d.erase name
  | .exists name, .ok v => d' = d ∧ v = (d.lookup name).isSome
  | .memberNames name, .ok names =>
    d' = d ∧ (w.faithful → (d.lookup name).bind (·.content.memberNames) = some names)
  | .sha256 name, .ok digest =>
    d' = d ∧ (w.faithful → (d.lookup name).map (w.digest ·.content) = some digest)
  | .glob, .ok names => d' = d ∧ names.Perm (archives d)
  | .mtime name, .ok time => d' = d ∧ (d.lookup name).map File.mtime = some time
  | _, _ => d' = d

/-- **Every reply has its effect.** -/
theorem Media.effect_answer {q : Request} {c : Choice B q} (hc : w.world.allowed d q c = true) :
    Effect w d (w.world.answer d q c).2 q (w.world.answer d q c).1 := by
  simp only [Media.world] at hc ⊢
  cases q with
  | dataRootIsDir => cases c <;> rfl
  | memberNames name =>
    cases c with
    | ok names =>
      refine ⟨rfl, fun hw => ?_⟩
      simpa [Media.allowed, hw] using hc
    | error e => rfl
  | sha256 name =>
    cases c with
    | ok digest =>
      refine ⟨rfl, fun hw => ?_⟩
      simpa [Media.allowed, hw] using hc
    | error e => rfl
  | glob =>
    cases c with
    | ok names => exact ⟨rfl, by simpa [Media.allowed] using hc⟩
    | error e => rfl
  | utcNow => rfl
  | uuid => rfl
  | mkdirBackupRoot => cases c <;> rfl
  | fsync name => cases c <;> rfl
  | chmod name => cases c <;> rfl
  | fsyncDirectory => cases c <;> rfl
  | «exists» name =>
    cases c with
    | none => exact ⟨rfl, rfl⟩
    | some e => rfl
  | mtime name =>
    cases c with
    | none =>
      obtain ⟨file, hfile⟩ := Option.isSome_iff_exists.mp (by simpa [Media.allowed] using hc)
      refine ⟨rfl, ?_⟩
      simp [hfile]
    | some e => rfl
  | writeArchive name =>
    cases c with
    | written mtime => exact ⟨mtime, rfl⟩
    | failed e left =>
      cases left with
      | none => exact .inl rfl
      | some file => exact .inr ⟨file, rfl⟩
  | writeNew name content =>
    cases c with
    | written mtime =>
      refine ⟨?_, mtime, rfl⟩
      simpa [Media.allowed, AList.lookup_eq_none] using hc
    | failed e left =>
      cases left with
      | none => exact .inl rfl
      | some file => exact .inr ⟨file, rfl⟩
  | replace source target =>
    cases c with
    | none =>
      obtain ⟨file, hfile⟩ := Option.isSome_iff_exists.mp (by simpa [Media.allowed] using hc)
      exact ⟨file, hfile, by simp [Media.answer, orRaise, renamed, hfile]⟩
    | some e => rfl
  | unlink name missingOk =>
    cases c with
    | none =>
      refine ⟨fun hstrict => ?_, rfl⟩
      subst hstrict
      exact AList.lookup_isSome.mp (by simpa [Media.allowed] using hc)
    | some e => rfl
  | discard name => cases c <;> rfl

section Ask

variable {α : Type} {q : Request} {past : List (Move Request Reply (Directory B))}

/-- One request. -/
theorem ensures_ask {G : List (Move Request Reply (Directory B)) →
      Move Request Reply (Directory B) → Prop}
    {ok : Value q → List (Move Request Reply (Directory B)) → Directory B → Prop}
    {err : Err → List (Move Request Reply (Directory B)) → Directory B → Prop}
    (hG : ∀ r d', Effect w d d' q r → G past ⟨q, r, d, d'⟩)
    (hok : ∀ v d', Effect w d d' q (.ok v) → ok v (⟨q, .ok v, d, d'⟩ :: past) d')
    (herr : ∀ e d', Effect w d d' q (.error e) → err e (⟨q, .error e, d, d'⟩ :: past) d') :
    w.world.Ensures G (ask q) ok err past d := by
  refine World.ensures_ask fun c hc => ?_
  have heffect := w.effect_answer hc
  have hmove : w.world.move d q c =
    ⟨q, (w.world.answer d q c).1, d, (w.world.answer d q c).2⟩ := rfl
  rw [hmove]
  refine ⟨hG _ _ heffect, ?_⟩
  cases hr : (w.world.answer d q c).1 with
  | ok v => exact hok v _ (hr ▸ heffect)
  | error e => exact herr e _ (hr ▸ heffect)

/-- One request, where it returns. -/
theorem returns_ask_bind {f : Value q → BackupM α}
    {P : α → List (Move Request Reply (Directory B)) → Directory B → Prop}
    (hf : ∀ v d', Effect w d d' q (.ok v) →
      w.world.Returns (f v) P (⟨q, .ok v, d, d'⟩ :: past) d') :
    w.world.Returns (ask q >>= f) P past d :=
  World.Ensures.bind (ensures_ask (fun _ _ _ => trivial) hf fun _ _ _ => trivial)

theorem returns_ask {P : Value q → List (Move Request Reply (Directory B)) → Directory B → Prop}
    (h : ∀ v d', Effect w d d' q (.ok v) → P v (⟨q, .ok v, d, d'⟩ :: past) d') :
    w.world.Returns (ask q) P past d :=
  ensures_ask (fun _ _ _ => trivial) h fun _ _ _ => trivial

end Ask

/-! ### Concrete runs -/

/-- Surroundings in which everything succeeds, and files are written at time `now`. -/
def Media.obliging (w : Media B) (now : ℤ) : w.world.Oracle := fun _ d q => match q with
  | .dataRootIsDir => .ok true
  | .memberNames name => .ok (((d.lookup name).bind (·.content.memberNames)).getD [])
  | .sha256 name => .ok (((d.lookup name).map (w.digest ·.content)).getD "")
  | .utcNow => "2026-01-01T00:00:00+00:00"
  | .uuid => "0"
  | .glob => .ok (archives d)
  | .writeArchive _ | .writeNew .. => .written now
  | .mkdirBackupRoot | .exists _ | .fsync _ | .chmod _ | .replace .. | .fsyncDirectory | .mtime _
  | .unlink .. | .discard _ => none

/-- A data tree with two files, on a faithful disk. -/
def Media.sample : Media Unit := ⟨⟨(), [("map.bin", ()), ("players.db", ())]⟩, fun _ => "0", true⟩

/-- Two archives are kept. -/
def BackupManager.sample : BackupManager := ⟨"/data", "/backups", 2⟩

/-- The backup before the update from build 5 to build 6. -/
def Attempt.sample : Attempt := ⟨some 5, 6, "20260101T000000Z", 1⟩

/-- The backups before the last two updates. -/
def Directory.sample : Directory Unit :=
  let first := (∅ : Directory Unit).insert (.preUpdate "3-to-4-20250101T000000Z")
    ⟨.tar [("data", ())], 10⟩
  first.insert (.preUpdate "4-to-5-20250601T000000Z") ⟨.tar [("data", ())], 20⟩

end Backup

end PzServer
