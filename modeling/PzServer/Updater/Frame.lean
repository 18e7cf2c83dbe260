import PzServer.Updater.Protocol

/-!
# What a request leaves alone

A request touches at most one of the record, the two pointers and the directories it names, and
everything else stays. For the active release more can be said: the invariant rules out that its
directory is removed, replaced or filled again, so only the launcher writes change it.

## Main results

* `Effect.frame`, `Effect.active_eq` — the frames
* `answer_active_directory` — the directory of the active release
-/

namespace PzServer

namespace Updater

variable {d new : Disk}

/-! ### Directories -/

/-- The release directories a request may touch. -/
def Request.touches : Request → List Release
  | .install r .. | .mkdir r | .rmtree r | .writeLauncherJson r .. | .replaceWrapper r => [r]
  | .promote candidate final => [candidate, final]
  | _ => []

theorem Disk.inDirectory_of_ne {f : Directory → Directory} {r r' : Release} (h : r' ≠ r) :
    (d.inDirectory r f).releases r' = d.releases r' := by
  unfold inDirectory
  split
  · rfl
  · exact d.setDirectory_of_ne _ h

theorem Written.releases {d' : Disk} {r : Except Err Unit} (h : Written d d' new r)
    {r' : Release} (hr' : d'.releases r' = d.releases r') : new.releases r' = d.releases r' := by
  cases r with
  | ok => exact h ▸ hr'
  | error =>
    rcases h with rfl | rfl
    · rfl
    · exact hr'

/-- The frame of a request: the directories it does not touch are unchanged. -/
theorem Effect.frame {q : Request} {r : Reply q} (h : Effect d new q r) {r' : Release}
    (hr' : r' ∉ q.touches) : new.releases r' = d.releases r' := by
  cases q with
  | install q =>
    obtain ⟨D, rfl⟩ := h
    exact Disk.inDirectory_of_ne (by simpa [Request.touches] using hr')
  | writeState | writeActive | writePrevious => exact Written.releases h rfl
  | writeLauncherJson q =>
    exact Written.releases h (Disk.inDirectory_of_ne (by simpa [Request.touches] using hr'))
  | replaceWrapper q =>
    have hne : r' ≠ q := by simpa [Request.touches] using hr'
    cases r with
    | ok => exact h ▸ Disk.inDirectory_of_ne hne
    | error =>
      rcases h with rfl | rfl
      · rfl
      · exact Disk.inDirectory_of_ne hne
  | mkdir q =>
    have hne : r' ≠ q := by simpa [Request.touches] using hr'
    cases r with
    | ok => exact h.2 ▸ d.setDirectory_of_ne _ hne
    | error => exact congrArg (Disk.releases · r') h
  | rmtree q =>
    have hne : r' ≠ q := by simpa [Request.touches] using hr'
    cases r with
    | ok => exact h ▸ d.setDirectory_of_ne _ hne
    | error =>
      rcases h with rfl | ⟨left, rfl⟩
      · rfl
      · exact d.setDirectory_of_ne _ hne
  | promote c f =>
    obtain ⟨hc, hf⟩ : r' ≠ c ∧ r' ≠ f := by simpa [Request.touches] using hr'
    have hmoved : ∀ D, (((d.setDirectory c none).setDirectory f D).releases r') =
        d.releases r' := fun D =>
      (Disk.setDirectory_of_ne _ _ hf).trans (d.setDirectory_of_ne _ hc)
    cases r with
    | ok =>
      obtain ⟨D, -, rfl⟩ := h
      exact hmoved _
    | error =>
      rcases h with rfl | ⟨D, -, rfl⟩
      · rfl
      · exact hmoved _
  | loadState | readActive | readPrevious | pathExists | finalRelease | inspectLauncher
  | readInstalledMetadata =>
    cases r with
    | ok => exact congrArg (Disk.releases · r') h.2
    | error => exact congrArg (Disk.releases · r') h
  | unlinkPrevious =>
    cases r with
    | ok => exact h ▸ rfl
    | error => exact congrArg (Disk.releases · r') h
  | _ => cases r <;> exact congrArg (Disk.releases · r') h

/-! ### The record and the pointers -/

section Pointers

variable (d : Disk) (r : Release) (f : Directory → Directory)

@[simp] theorem Disk.inDirectory_record : (d.inDirectory r f).record = d.record := by
  rw [inDirectory]
  split
  · rfl
  · rfl

@[simp] theorem Disk.inDirectory_active : (d.inDirectory r f).active = d.active := by
  rw [inDirectory]
  split
  · rfl
  · rfl

@[simp] theorem Disk.inDirectory_previous : (d.inDirectory r f).previous = d.previous := by
  rw [inDirectory]
  split
  · rfl
  · rfl

end Pointers

/-- What a write that may have failed leaves alone. -/
theorem Written.congr {β : Type} {d' : Disk} {r : Except Err Unit} (f : Disk → β)
    (h : Written d d' new r) (hd' : f d' = f d) : f new = f d := by
  cases r with
  | ok => exact (congrArg f h).trans hd'
  | error =>
    rcases h with rfl | rfl
    · rfl
    · exact hd'

/-- A part of the disk that is not in the directories is the same after every request, if it is
after the writes of the record and the pointers. -/
theorem Effect.congr {β : Type} {q : Request} {r : Reply q} (f : Disk → β)
    (h : Effect d new q r) (hdirectory : ∀ d r D, f (Disk.setDirectory d r D) = f d)
    (hrecord : ∀ v, q = .writeState v → f { d with record := some v } = f d)
    (hactive : ∀ a, q = .writeActive a → f { d with active := some a } = f d)
    (hprevious : ∀ a, q = .writePrevious a → f { d with previous := some a } = f d)
    (hunlink : q = .unlinkPrevious → f { d with previous := none } = f d) : f new = f d := by
  have hin : ∀ r g, f (d.inDirectory r g) = f d := by
    intro r g
    rw [Disk.inDirectory]
    split
    · rfl
    · exact hdirectory _ _ _
  cases q with
  | writeState v => exact Written.congr f h (hrecord v rfl)
  | writeActive a => exact Written.congr f h (hactive a rfl)
  | writePrevious a => exact Written.congr f h (hprevious a rfl)
  | writeLauncherJson => exact Written.congr f h (hin _ _)
  | install =>
    obtain ⟨D, rfl⟩ := h
    exact hin _ _
  | unlinkPrevious =>
    cases r with
    | ok => exact h ▸ hunlink rfl
    | error => exact congrArg f h
  | replaceWrapper =>
    cases r with
    | ok => exact h ▸ hin _ _
    | error =>
      rcases h with rfl | rfl
      · rfl
      · exact hin _ _
  | mkdir =>
    cases r with
    | ok => exact h.2 ▸ hdirectory _ _ _
    | error => exact congrArg f h
  | rmtree =>
    cases r with
    | ok => exact h ▸ hdirectory _ _ _
    | error =>
      rcases h with rfl | ⟨left, rfl⟩
      · rfl
      · exact hdirectory _ _ _
  | promote =>
    cases r with
    | ok =>
      obtain ⟨D, -, rfl⟩ := h
      exact (hdirectory _ _ _).trans (hdirectory _ _ _)
    | error =>
      rcases h with rfl | ⟨D, -, rfl⟩
      · rfl
      · exact (hdirectory _ _ _).trans (hdirectory _ _ _)
  | loadState | readActive | readPrevious | pathExists | finalRelease | inspectLauncher
  | readInstalledMetadata =>
    cases r with
    | ok => exact congrArg f h.2
    | error => exact congrArg f h
  | _ => cases r <;> exact congrArg f h

section Frames

variable {q : Request} {r : Reply q}

theorem Effect.active_eq (h : Effect d new q r) (hq : ∀ a, q ≠ .writeActive a) :
    new.active = d.active :=
  h.congr Disk.active (fun _ _ _ => rfl) (fun _ _ => rfl) (fun a ha => absurd ha (hq a))
    (fun _ _ => rfl) fun _ => rfl

end Frames

/-! ### The active release -/

/-- Requests that write a launcher file of `r`. -/
def Request.launches (r : Release) : Request → Prop
  | .writeLauncherJson r' .. | .replaceWrapper r' => r' = r
  | _ => False

/-- **The directory of the active release** stays as it is, unless a launcher file is written. -/
theorem answer_active_directory {q : Request} {c : Choice q} {a : Release}
    (hc : allowed d q c = true) (hd : Inv d) (hnew : Inv (answer d q c).2)
    (ha : d.active = some a) (ha' : (answer d q c).2.active = some a) (hq : ¬ q.launches a) :
    (answer d q c).2.releases a = d.releases a := by
  obtain ⟨D, m, hD, hvalid, hm⟩ := hd.active_valid a ha
  obtain ⟨E, -, hE, hvalid', -⟩ := hnew.active_valid a ha'
  by_cases htouched : a ∈ q.touches
  · cases q with
    | install r =>
      obtain rfl : a = r := by simpa [Request.touches] using htouched
      simp [answer, Disk.inDirectory_of_some hD] at hE
      simp [← hE] at hvalid'
    | mkdir r =>
      obtain rfl : a = r := by simpa [Request.touches] using htouched
      simp [answer, hD]
    | rmtree r =>
      obtain rfl : a = r := by simpa [Request.touches] using htouched
      cases c with
      | removed => simp [answer, hD] at hE
      | failed name left =>
        simp [answer, hD] at hE
        simp [← hE] at hvalid'
    | promote candidate final =>
      have hf : (d.releases final).isSome → (answer d (.promote candidate final) c).2 = d := by
        intro hf
        cases hcandidate : d.releases candidate <;> simp [answer, hcandidate, hf]
      obtain rfl | rfl : a = candidate ∨ a = final := by simpa [Request.touches] using htouched
      · by_cases hfinal : (d.releases final).isSome
        · rw [hf hfinal]
        · have hne : a ≠ final := fun he => hfinal (by rw [← he, hD]; rfl)
          cases c <;> simp [answer, hD, hfinal, durably, Disk.setDirectory_of_ne _ _ hne] at hE ⊢
      · rw [hf (by rw [hD]; rfl)]
    | writeLauncherJson r =>
      have hr : a = r := by simpa [Request.touches] using htouched
      exact absurd hr.symm hq
    | replaceWrapper r =>
      have hr : a = r := by simpa [Request.touches] using htouched
      exact absurd hr.symm hq
    | _ => simp [Request.touches] at htouched
  · exact (effect_answer hc).frame htouched

end Updater

end PzServer
