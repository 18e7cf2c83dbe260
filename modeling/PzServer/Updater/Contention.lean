import PzServer.Updater.Readiness
import PzServer.Updater.Runs

/-!
# Readiness and the transaction lock

A failure of `wait-runtime-ready` makes the entrypoint stop the server. It should mean that the game
has exited or has given no exact reply in time, and the record of a candidate that waits after its
world was opened should say that it failed. The lock of `mark_runtime_ready` and `fail_readiness`
does not wait, and what they raise ends the command. So an exact reply is lost, or the record is
left as it was, when another command holds the lock at that moment, or a request fails, or the
record is not the one of an opened candidate that is active.

## Main results

* `markRuntimeReady_fair`, `failReadiness_fair` — when the two operations raise
* `failReadiness_settles` — the record that `fail_readiness` leaves
* `waitRuntimeReady_justified_iff` — when a failure is justified
* `waitRuntimeReady_contended` — a live server that has answered is reported unready
-/

namespace PzServer

namespace Readiness

open Interaction Updater

/-! ### The two operations -/

/-- A candidate whose world has been opened waits for its readiness. -/
def Awaiting (r : Record) : Prop :=
  r.state ∈ [.pendingReadiness, .startingCandidate, .runtimeReady] ∧ r.worldOpened = some true

/-- The candidate of a record is the active release. -/
def Matching (r : Record) (d : Disk) : Prop :=
  ∃ candidate build, r.candidateRelease = some candidate ∧ r.candidateBuild = some build ∧
    d.active = some candidate ∧ d.buildOf candidate = some build

/-- A candidate on the disk has had its world opened and is the active release. -/
def Coherent (d : Disk) : Prop :=
  d.state ∈ [.pendingReadiness, .startingCandidate, .runtimeReady] →
    d.loaded.worldOpened = some true ∧ Matching d.loaded d

/-- A request that does not raise. -/
def Succeeds (m : UpdaterMove) : Prop := m.reply.isOk = true

/-- The write of a failure that has replaced the record, whether it raises or not. -/
def Recorded (m : UpdaterMove) : Prop :=
  ∃ value, m.request = .writeState value ∧ value.state = .failedAfterWorldOpen ∧
    m.after.record = some value

/-- A request that raises; a failure that is recorded all the same does not count. -/
def Lost (m : UpdaterMove) : Prop := ¬ Succeeds m ∧ ¬ Recorded m

/-- The record of a candidate after a failure. -/
def Abandoned (r r' : Record) : Prop :=
  ∃ detail now, r' = { r with
    state := .failedAfterWorldOpen
    lastResult := some .readinessFailed
    detail := some (first500 detail)
    updatedAt := some now }

theorem lost_error {q : Request} (hq : ∀ value, q ≠ .writeState value) (e : Err) (d new : Disk) :
    Lost ⟨q, .error e, d, new⟩ :=
  ⟨Bool.false_ne_true, fun ⟨value, hwrite, _⟩ => hq value hwrite⟩

/-- A candidate that waits has not been given up. -/
theorem not_abandoned {r r' : Record} (h : r'.state ≠ .failedAfterWorldOpen) :
    ¬ Abandoned r r' := by
  rintro ⟨detail, now, rfl⟩
  exact h rfl

theorem Awaiting.state_ne {r : Record} (h : Awaiting r) : r.state ≠ .failedAfterWorldOpen := by
  intro hstate
  have hwaiting := h.1
  rw [hstate] at hwaiting
  simp at hwaiting

section Steps

variable {α : Type} {ok : α → List UpdaterMove → Disk → Prop}
  {err : Err → List UpdaterMove → Disk → Prop} {past : List UpdaterMove} {d : Disk}

/-- One request, and what follows it. -/
theorem ensures_ask_bind {q : Request} {f : Value q → UpdaterM α}
    (hok : ∀ v new, Effect d new q (.ok v) →
      Updater.world.Ensures (fun _ _ => True) (f v) ok err (⟨q, .ok v, d, new⟩ :: past) new)
    (herr : ∀ e new, Effect d new q (.error e) → err e (⟨q, .error e, d, new⟩ :: past) new) :
    Updater.world.Ensures (fun _ _ => True) (ask q >>= f) ok err past d := by
  refine .bind (World.ensures_ask fun c hc => ⟨trivial, ?_⟩)
  have heffect := effect_answer hc
  simp only [Updater.world, World.move]
  cases hr : (Updater.answer d q c).1 with
  | ok v =>
    rw [hr] at heffect
    exact hok v _ heffect
  | error e =>
    rw [hr] at heffect
    exact herr e _ heffect

end Steps

/-- All of them found and left the disk `d`. -/
def Still (d : Disk) (past : List UpdaterMove) : Prop := ∀ m ∈ past, m.before = d ∧ m.after = d

/-- `_verify_candidate_active` changes nothing. It returns if nothing fails and the candidate is the
active release. -/
theorem verifyCandidateActive_spec (state : Record) {past : List UpdaterMove} {d : Disk}
    (hstill : Still d past) :
    Updater.world.Ensures (fun _ _ => True) (verifyCandidateActive state)
      (fun _ past' d' => d' = d ∧ Matching state d ∧
        ∃ new, past' = new ++ past ∧ ∀ m ∈ new, m.request ≠ .lock ∧ Succeeds m)
      (fun _ past' d' => d' = d ∧ Still d past' ∧ past <:+ past' ∧
        ((∃ m ∈ past', Lost m) ∨ ¬ Matching state d))
      past d := by
  unfold verifyCandidateActive
  refine ensures_ask_bind (fun active new heffect => ?_) fun e new heffect => ?_
  · obtain ⟨rfl, rfl⟩ := heffect
    have hactive : Still new (⟨.readActive, .ok new.active, new, new⟩ :: past) :=
      List.forall_mem_cons.mpr ⟨⟨rfl, rfl⟩, hstill⟩
    split
    · rename_i candidate build release hcandidate hbuild hrelease
      split
      · rename_i hne
        refine World.ensures_throw ⟨rfl, hactive, List.suffix_cons _ _, .inr ?_⟩
        rintro ⟨candidate', build', hcandidate', -, hactive', -⟩
        rw [hcandidate] at hcandidate'
        rw [hrelease, ← hcandidate'] at hactive'
        exact hne (Option.some.inj hactive')
      · rename_i hsame
        obtain rfl : release = candidate := Decidable.not_not.mp hsame
        refine ensures_ask_bind (fun metadata same heffect => ?_) fun e same heffect => ?_
        · obtain ⟨⟨directory, hdirectory, hmanifest⟩, rfl⟩ := heffect
          have hinstalled : same.buildOf release = some metadata.buildId := by
            simp [Disk.buildOf, Directory.build, hdirectory, hmanifest]
          split
          · rename_i hne
            refine World.ensures_throw ⟨rfl, List.forall_mem_cons.mpr ⟨⟨rfl, rfl⟩, hactive⟩,
              (List.suffix_cons _ _).trans (List.suffix_cons _ _), .inr ?_⟩
            rintro ⟨candidate', build', hcandidate', hbuild', -, hbuildOf⟩
            obtain rfl := Option.some.inj (hcandidate.symm.trans hcandidate')
            obtain rfl := Option.some.inj (hbuild.symm.trans hbuild')
            exact hne (Option.some.inj (hinstalled.symm.trans hbuildOf))
          · rename_i heq
            obtain rfl : metadata.buildId = build := Decidable.not_not.mp heq
            refine World.ensures_pure ⟨rfl, ⟨release, _, hcandidate, hbuild, hrelease, hinstalled⟩,
              [_, _], rfl, ?_⟩
            simp [Succeeds, Except.isOk, Except.toBool]
        · obtain rfl : same = new := heffect
          exact ⟨rfl, List.forall_mem_cons.mpr ⟨⟨rfl, rfl⟩, hactive⟩,
            (List.suffix_cons _ _).trans (List.suffix_cons _ _),
            .inl ⟨_, List.mem_cons_self, lost_error (by simp) _ _ _⟩⟩
    · rename_i hnot
      refine World.ensures_throw ⟨rfl, hactive, List.suffix_cons _ _, .inr ?_⟩
      rintro ⟨candidate, build, hcandidate, hbuild, hrelease, -⟩
      exact hnot candidate build candidate hcandidate hbuild hrelease
  · obtain rfl : new = d := heffect
    exact ⟨rfl, List.forall_mem_cons.mpr ⟨⟨rfl, rfl⟩, hstill⟩, List.suffix_cons _ _,
      .inl ⟨_, List.mem_cons_self, lost_error (by simp) _ _ _⟩⟩

/-! ### When an operation may raise -/

section Fine

variable (B : Prop)

/-- Nothing is at stake: a failure may be reported, and no opened candidate waits. -/
def Idle (d : Disk) : Prop := B ∧ ¬ Awaiting d.loaded

/-- A request of `mark_runtime_ready` or `fail_readiness` that raises only where nothing is at
stake. The operations themselves raise if the record they find under the lock is not coherent. -/
def Fine (m : UpdaterMove) : Prop :=
  (Lost m → Idle B m.before) ∧ (m.request = .lock → Idle B m.before ∨ Coherent m.before)

/-- A failure may be reported, and a candidate that waited has been given up. -/
def Excusable (d₀ d : Disk) : Prop := B ∧ (Awaiting d₀.loaded → Abandoned d₀.loaded d.loaded)

/-- What is shown of both operations, which begin with the disk `d₀`. -/
def Fair {α : Type} (d₀ : Disk) (p : UpdaterM α) (past : List UpdaterMove) (d : Disk) : Prop :=
  Updater.world.Ensures (fun _ _ => True) p (fun _ past' _ => ∀ m ∈ past', Fine B m)
    (fun _ past' d' => (∀ m ∈ past', Fine B m) ↔ Excusable B d₀ d') past d

variable {B} {α β : Type} {past : List UpdaterMove} {d₀ d : Disk}

/-- Where the record is no failure, nobody has given up. -/
theorem idle_iff (h : Awaiting d₀.loaded → d.loaded.state ≠ .failedAfterWorldOpen) :
    Idle B d₀ ↔ Excusable B d₀ d := by
  refine and_congr_right fun _ => ⟨fun hnone hwaiting => absurd hwaiting hnone, ?_⟩
  exact fun hgiven hwaiting => not_abandoned (h hwaiting) (hgiven hwaiting)

theorem fine_ok {q : Request} (hq : q ≠ .lock) (v : Value q) (d new : Disk) :
    Fine B ⟨q, .ok v, d, new⟩ :=
  ⟨fun hlost => absurd rfl hlost.1, fun hlock => absurd hlock hq⟩

theorem fine_lock (h : Coherent d) : Fine B ⟨.lock, .ok (), d, d⟩ :=
  ⟨fun hlost => absurd rfl hlost.1, fun _ => .inr h⟩

theorem forall_fine_ok (h : ∀ m ∈ past, Fine B m) {q : Request} (hq : q ≠ .lock) (v : Value q)
    (d new : Disk) : ∀ m ∈ (⟨q, .ok v, d, new⟩ :: past : List UpdaterMove), Fine B m :=
  List.forall_mem_cons.mpr ⟨fine_ok hq v d new, h⟩

/-- A request that raises and is lost. -/
theorem forall_fine_lost (h : ∀ m ∈ past, Fine B m) {m : UpdaterMove} (hq : m.request ≠ .lock)
    (hlost : Lost m) : (∀ m' ∈ m :: past, Fine B m') ↔ Idle B m.before := by
  rw [List.forall_mem_cons, and_iff_left h]
  exact ⟨fun hfine => hfine.1 hlost, fun hidle => ⟨fun _ => hidle, fun hlock => absurd hlock hq⟩⟩

/-- While nothing is written, raising is fine exactly where nothing is at stake. -/
theorem forall_fine_still (hstill : Still d past)
    (h : (∃ m ∈ past, Lost m) ∨ (∃ m ∈ past, m.request = .lock) ∧ ¬ Coherent d) :
    (∀ m ∈ past, Fine B m) ↔ Excusable B d d := by
  rw [← idle_iff Awaiting.state_ne]
  constructor
  · intro hfine
    rcases h with ⟨m, hm, hlost⟩ | ⟨⟨m, hm, hlock⟩, hincoherent⟩
    · exact (hstill m hm).1 ▸ (hfine m hm).1 hlost
    · have hlocked := (hfine m hm).2 hlock
      rw [(hstill m hm).1] at hlocked
      exact hlocked.resolve_right hincoherent
  · intro hidle m hm
    refine ⟨fun _ => ?_, fun _ => .inl ?_⟩
    · rwa [(hstill m hm).1]
    · rwa [(hstill m hm).1]

theorem fair_pure (h : ∀ m ∈ past, Fine B m) (a : α) :
    Fair B d₀ (pure a : UpdaterM α) past d :=
  World.ensures_pure h

/-- Nothing is written when the time is asked. -/
theorem fair_utcNow_bind (h : ∀ m ∈ past, Fine B m) {f : String → UpdaterM α}
    (hf : ∀ now past', (∀ m ∈ past', Fine B m) → Fair B d (f now) past' d) :
    Fair B d (ask .utcNow >>= f) past d := by
  refine ensures_ask_bind (fun now new heffect => ?_) fun e new heffect => ?_
  · obtain rfl : new = d := heffect
    exact hf now _ (forall_fine_ok h (by nofun) now new new)
  · obtain rfl : new = d := heffect
    rw [forall_fine_lost h (by nofun) (lost_error (by simp) e new new)]
    exact idle_iff Awaiting.state_ne

theorem Fair.bind {p : UpdaterM α} {f : α → UpdaterM β} (h : Fair B d₀ p past d)
    (hf : ∀ a past' d', (∀ m ∈ past', Fine B m) → Fair B d₀ (f a) past' d') :
    Fair B d₀ (p >>= f) past d :=
  World.Ensures.seq h (fun a past' d' _ ha => hf a past' d' ha) fun _ _ _ _ he => he

/-- Writing a record that is no failure. -/
theorem writeState_fair (h : ∀ m ∈ past, Fine B m) {value : Record}
    (hvalue : value.state ≠ .failedAfterWorldOpen) : Fair B d (writeState value) past d := by
  refine ensures_ask_bind (fun _ new _ => ?_) fun e new heffect => ?_
  · exact World.ensures_pure (forall_fine_ok h (by simp) _ d new)
  · have hlost : Lost ⟨.writeState value, .error e, d, new⟩ := by
      refine ⟨Bool.false_ne_true, ?_⟩
      rintro ⟨value', hwrite, hstate, -⟩
      obtain rfl : value = value' := Request.writeState.inj hwrite
      exact hvalue hstate
    rw [forall_fine_lost h (by nofun) hlost]
    refine idle_iff fun hwaiting => ?_
    rcases heffect with rfl | rfl
    · exact hwaiting.state_ne
    · exact hvalue

theorem completeAcceptance_fair (h : ∀ m ∈ past, Fine B m) (state : Record)
    (hbuild : ∃ build, state.candidateBuild = some build) :
    Fair B d (completeAcceptance state) past d := by
  obtain ⟨build, hbuild⟩ := hbuild
  unfold completeAcceptance
  rw [hbuild]
  exact fair_utcNow_bind h fun _ _ h => fair_utcNow_bind h fun _ _ h =>
    writeState_fair h (by simp)

/-- What both operations begin with. -/
theorem fair_locked {f : Record → UpdaterM α}
    (hf : ∀ past, Still d past → (∃ m ∈ past, m.request = .lock) →
      (Coherent d → ∀ m ∈ past, Fine B m) → Fair B d (f d.loaded) past d) :
    Fair B d (do
      ask .lock
      let state ← ask .loadState
      f state) [] d := by
  refine ensures_ask_bind (fun _ new heffect => ?_) fun e new heffect => ?_
  · obtain rfl : new = d := heffect
    have hlock : Still new [⟨.lock, .ok (), new, new⟩] := List.forall_mem_singleton.mpr ⟨rfl, rfl⟩
    refine ensures_ask_bind (fun state same heffect => ?_) fun e same heffect => ?_
    · obtain ⟨rfl, rfl⟩ := heffect
      refine hf _ (List.forall_mem_cons.mpr ⟨⟨rfl, rfl⟩, hlock⟩)
        ⟨_, List.mem_cons_of_mem _ List.mem_cons_self, rfl⟩ fun hcoherent => ?_
      exact forall_fine_ok (List.forall_mem_singleton.mpr (fine_lock hcoherent)) (by nofun) _ _ _
    · obtain rfl : same = new := heffect
      exact forall_fine_still (List.forall_mem_cons.mpr ⟨⟨rfl, rfl⟩, hlock⟩)
        (.inl ⟨_, List.mem_cons_self, lost_error (by simp) _ _ _⟩)
  · obtain rfl : new = d := heffect
    exact forall_fine_still (List.forall_mem_singleton.mpr ⟨rfl, rfl⟩)
      (.inl ⟨_, List.mem_cons_self, lost_error (by simp) _ _ _⟩)

/-- What both do with an opened candidate. -/
theorem fair_verified {f : UpdaterM α} (hstill : Still d past)
    (hlock : ∃ m ∈ past, m.request = .lock) (hfine : Coherent d → ∀ m ∈ past, Fine B m)
    (hawaiting : Awaiting d.loaded)
    (hf : Matching d.loaded d → ∀ past', (∀ m ∈ past', Fine B m) → Fair B d f past' d) :
    Fair B d (verifyCandidateActive d.loaded >>= fun _ => f) past d := by
  refine (verifyCandidateActive_spec d.loaded hstill).seq ?_ ?_
  · rintro _ _ d' - ⟨rfl, hmatching, new, rfl, hnew⟩
    refine hf hmatching _ (List.forall_mem_append.mpr ⟨fun m hm => ?_, ?_⟩)
    · exact ⟨fun hlost => absurd (hnew m hm).2 hlost.1, fun h => absurd h (hnew m hm).1⟩
    · exact hfine fun _ => ⟨hawaiting.2, hmatching⟩
  · rintro _ _ d' - ⟨rfl, hstill', hsuffix, hwhy⟩
    refine forall_fine_still hstill' (hwhy.imp_right fun hmismatch => ⟨?_, fun hcoherent => ?_⟩)
    · obtain ⟨m, hm, hrequest⟩ := hlock
      exact ⟨m, hsuffix.subset hm, hrequest⟩
    · exact hmismatch (hcoherent hawaiting.1).2

/-- **`mark_runtime_ready`** raises only if a request does, or if the record it finds under the lock
is not coherent. -/
theorem markRuntimeReady_fair (c : UpdateConfiguration) (version revision : Option String)
    (d : Disk) : Fair B d (markRuntimeReady c version revision) [] d := by
  refine fair_locked fun past hstill hlock hfine => ?_
  split
  · rename_i hcurrent
    have hcoherent : Coherent d := by
      intro hwaiting
      rw [Disk.state, hcurrent] at hwaiting
      simp at hwaiting
    refine fair_utcNow_bind (hfine hcoherent) fun ready _ h => ?_
    refine fair_utcNow_bind h fun now _ h => ?_
    refine (writeState_fair h ?_).bind fun _ _ _ h => fair_pure h ()
    rw [hcurrent]
    decide
  · split
    · rename_i hother
      exact fair_pure (hfine fun hwaiting => absurd hwaiting hother) ()
    · rename_i hwaiting
      have hstate := Decidable.not_not.mp hwaiting
      split
      · rename_i hclosed
        refine World.ensures_throw (forall_fine_still hstill (.inr ⟨hlock, fun hcoherent => ?_⟩))
        exact hclosed (hcoherent hstate).1
      · rename_i hopen
        refine fair_verified hstill hlock hfine ⟨hstate, Decidable.not_not.mp hopen⟩
          fun hmatching past' h => ?_
        obtain ⟨candidate, build, -, hbuild, -⟩ := hmatching
        refine fair_utcNow_bind h fun ready _ h => ?_
        refine fair_utcNow_bind h fun now _ h => ?_
        split
        · refine Fair.bind (completeAcceptance_fair h _ ⟨build, ?_⟩) fun _ _ _ h => fair_pure h ()
          exact hbuild
        · exact (writeState_fair h (by simp)).bind fun _ _ _ h => fair_pure h ()

/-- Writing the failure of a candidate that waits. It is fine to raise once it is recorded. -/
theorem writeFailure_fair (hB : B) (h : ∀ m ∈ past, Fine B m) (hwaiting : Awaiting d.loaded)
    {value : Record} (hvalue : Abandoned d.loaded value) : Fair B d (writeState value) past d := by
  have hstate : value.state = .failedAfterWorldOpen := by
    obtain ⟨detail, now, rfl⟩ := hvalue
    rfl
  refine ensures_ask_bind (fun _ new _ => ?_) fun e new heffect => ?_
  · exact World.ensures_pure (forall_fine_ok h (by simp) _ d new)
  · rcases heffect with rfl | rfl
    · have hlost : Lost ⟨.writeState value, .error e, new, new⟩ := by
        refine ⟨Bool.false_ne_true, ?_⟩
        rintro ⟨value', hwrite, -, hrecord⟩
        obtain rfl : value = value' := Request.writeState.inj hwrite
        have hloaded : new.loaded = value := by
          rw [Disk.loaded, show new.record = some value from hrecord, Option.getD_some]
        exact hwaiting.state_ne (hloaded ▸ hstate)
      have hwrite : Request.writeState value ≠ .lock := Request.noConfusion
      rw [forall_fine_lost h hwrite hlost]
      exact idle_iff Awaiting.state_ne
    · refine iff_of_true (List.forall_mem_cons.mpr ⟨⟨fun hlost => ?_, Request.noConfusion⟩, h⟩)
        ⟨hB, fun _ => hvalue⟩
      exact absurd ⟨value, rfl, hstate, rfl⟩ hlost.2

/-- **`fail_readiness`** raises only if a request does, or if the record it finds under the lock is
not coherent. -/
theorem failReadiness_fair (hB : B) (detail : String) (d : Disk) :
    Fair B d (failReadiness detail) [] d := by
  refine fair_locked fun past hstill hlock hfine => ?_
  split
  · rename_i hother
    exact fair_pure (hfine fun hwaiting => absurd hwaiting hother) ()
  · rename_i hwaiting
    have hstate := Decidable.not_not.mp hwaiting
    split
    · rename_i hclosed
      refine World.ensures_throw (forall_fine_still hstill (.inr ⟨hlock, fun hcoherent => ?_⟩))
      exact hclosed (hcoherent hstate).1
    · rename_i hopen
      have hawaiting : Awaiting d.loaded := ⟨hstate, Decidable.not_not.mp hopen⟩
      refine fair_verified hstill hlock hfine hawaiting fun _ past' h => ?_
      refine fair_utcNow_bind h fun now _ h => ?_
      exact (writeFailure_fair hB h hawaiting ⟨detail, now, rfl⟩).bind
        fun _ _ _ h => fair_pure h ()

end Fine

/-- Where `fail_readiness` returns, a candidate that waited has been given up. -/
theorem failReadiness_settles (detail : String) (d : Disk) :
    Updater.world.Ensures (fun _ _ => True) (failReadiness detail)
      (fun _ _ d' => Awaiting d.loaded → Abandoned d.loaded d'.loaded) (fun _ _ _ => True)
      [] d := by
  unfold failReadiness
  refine ensures_ask_bind (fun _ new heffect => ?_) fun _ _ _ => trivial
  obtain rfl : new = d := heffect
  have hlock : Still new [⟨.lock, .ok (), new, new⟩] := List.forall_mem_singleton.mpr ⟨rfl, rfl⟩
  refine ensures_ask_bind (fun state same heffect => ?_) fun _ _ _ => trivial
  obtain ⟨rfl, rfl⟩ := heffect
  have hstill : Still same
      [⟨.loadState, .ok same.loaded, same, same⟩, ⟨.lock, .ok (), same, same⟩] :=
    List.forall_mem_cons.mpr ⟨⟨rfl, rfl⟩, hlock⟩
  split
  · rename_i hother
    exact World.ensures_pure fun h => absurd h.1 hother
  · split
    · exact World.ensures_throw trivial
    · refine (verifyCandidateActive_spec _ hstill).seq (fun _ past' d' _ h => ?_)
        fun _ _ _ _ _ => trivial
      obtain rfl := h.1
      refine ensures_ask_bind (fun now new heffect => .bind ?_) fun _ _ _ => trivial
      obtain rfl : new = d' := heffect
      refine ensures_ask_bind (fun _ written heffect => ?_) fun _ _ _ => trivial
      obtain rfl := heffect
      exact World.ensures_pure (World.ensures_pure fun _ => ⟨detail, now, rfl⟩)

/-! ### Operations in their surroundings -/

/-- A request of an operation, at a site. -/
def onSite (s : Site) (m : UpdaterMove) : ReadinessMove :=
  ⟨.updater m.request, m.reply, { s with disk := m.before }, { s with disk := m.after }⟩

/-- The others' turn. -/
def others (s s' : Site) : ReadinessMove := ⟨.pause, .ok (), s, s'⟩

theorem allowed_of_askAllowed {s : Site} {q : Request} {c : Updater.Choice q}
    (h : askAllowed s (.updater q) c = true) : Updater.allowed s.disk q c = true := by
  cases q with
  | lock => rfl
  | _ => exact h

section Embedding

variable {α β : Type} {past : List ReadinessMove} {s : Site}

/-- What is known of an operation by itself is known of it at a site. -/
theorem guarantees_embed {post : α → List UpdaterMove → Disk → Prop} :
    ∀ {p : Program Request Reply α} {added : List UpdaterMove} {d : Disk},
      Updater.world.Guarantees (fun _ _ => True) p post added d →
      site.Guarantees (fun _ _ => True) (p.embed .updater fun _ reply => reply)
        (fun a past' s' => ∃ added d', post a added d' ∧ past' = added.map (onSite s) ++ past ∧
          s' = { s with disk := d' })
        (added.map (onSite s) ++ past) { s with disk := d } := by
  intro p
  induction p with
  | done a => exact fun h => ⟨_, _, h, rfl, rfl⟩
  | ask q k ih =>
    intro added d h c hc
    exact ⟨trivial, ih _ (h c (allowed_of_askAllowed hc)).2⟩

theorem ensures_call {p : UpdaterM α} {ok : α → List ReadinessMove → Site → Prop}
    {err : Err → List ReadinessMove → Site → Prop}
    {okp : Site → α → List UpdaterMove → Disk → Prop}
    {errp : Site → Err → List UpdaterMove → Disk → Prop}
    (hp : ∀ s, Updater.world.Ensures (fun _ _ => True) p (okp s) (errp s) [] s.disk)
    (hok : ∀ s' a added d', okp s' a added d' →
      ok a (added.map (onSite s') ++ others s s' :: past) { s' with disk := d' })
    (herr : ∀ s' e added d', errp s' e added d' →
      err e (added.map (onSite s') ++ others s s' :: past) { s' with disk := d' }) :
    site.Ensures (fun _ _ => True) (call p) ok err past s := by
  refine .bind (World.ensures_ask fun events _ => ⟨trivial, ?_⟩)
  refine World.Guarantees.mono ?_ (guarantees_embed (hp (s.after events)))
  rintro (e | a) _ _ ⟨added, d', hpost, rfl, rfl⟩
  · exact herr _ e added d' hpost
  · exact hok _ a added d' hpost

theorem ensures_step {q : Ask} {ok : Answer q → List ReadinessMove → Site → Prop}
    {err : Err → List ReadinessMove → Site → Prop}
    (hok : ∀ s' c v s'', askAnswer s' q c = (.ok v, s'') →
      ok v (⟨q, .ok v, s', s''⟩ :: others s s' :: past) s'')
    (herr : ∀ s' c e s'', askAnswer s' q c = (.error e, s'') →
      err e (⟨q, .error e, s', s''⟩ :: others s s' :: past) s'') :
    site.Ensures (fun _ _ => True) (step q) ok err past s := by
  refine .bind (World.ensures_ask fun events _ => ⟨trivial, ?_⟩)
  refine World.ensures_ask fun c hc => ⟨trivial, ?_⟩
  have hreply : site.answer (site.answer s .pause events).2 q c = askAnswer (s.after events) q c :=
    rfl
  rw [World.move, hreply]
  rcases hr : askAnswer (s.after events) q c with ⟨e | v, s''⟩
  · exact herr _ c e s'' hr
  · exact hok _ c v s'' hr

end Embedding

/-! ### The claim -/

/-- The players that a request counted. -/
def players : ReadinessMove → Option ℕ
  | ⟨.queryPlayers, .ok count, _, _⟩ => some count
  | _ => none

/-- The time that a request read. -/
def clock : ReadinessMove → Option ℕ
  | ⟨.monotonic, .ok time, _, _⟩ => some time
  | _ => none

/-- A request that ends the command. After an `UpdateError`, a query is repeated. -/
def raises : ReadinessMove → Bool
  | ⟨.queryPlayers, .error e, _, _⟩ => !e.isUpdateError
  | ⟨_, .error _, _, _⟩ => true
  | ⟨_, .ok _, _, _⟩ => false

/-- When the command began to wait. -/
def started : List ReadinessMove → Option ℕ
  | [] => none
  | m :: past => (started past).or (clock m)

section Claim

variable (args : Arguments)

/-- An exact reply was obtained before the deadline. -/
def Answered (past : List ReadinessMove) : Prop :=
  ∃ m ∈ past, (players m).isSome ∧
    ∃ start, started past = some start ∧ m.after.now < start + args.timeout.toNat * second

/-- A failure may be reported: the game has exited or gave no exact reply in time. -/
def Unready (past : List ReadinessMove) (s : Site) : Prop := s.alive = false ∨ ¬ Answered args past

/-- The disk that the other commands have left last. -/
def lastLeft (s₀ : Site) : List ReadinessMove → Disk
  | [] => s₀.disk
  | ⟨.pause, _, _, s⟩ :: _ => s.disk
  | _ :: past => lastLeft s₀ past

/-- A failure that is justified: it may be reported, and a candidate that waited after its world was
opened has been given up. -/
def Excused (s₀ : Site) (past : List ReadinessMove) (s : Site) : Prop :=
  Unready args past s ∧
    (Awaiting (lastLeft s₀ past).loaded → Abandoned (lastLeft s₀ past).loaded s.disk.loaded)

/-- The command fails only if it is justified. -/
def Justified (s₀ : Site) (r : Except Err Printed) (past : List ReadinessMove) (s : Site) : Prop :=
  match r with
  | .ok _ => True
  | .error _ => Excused args s₀ past s

/-- The write of a failure that has replaced the record, whether it raises or not. -/
def Records (m : ReadinessMove) : Prop :=
  ∃ value, m.request = .updater (.writeState value) ∧ value.state = .failedAfterWorldOpen ∧
    m.after.disk.record = some value

/-- Nothing is at stake: a failure may be reported, and no opened candidate waits. -/
def Idling (past : List ReadinessMove) (s : Site) : Prop :=
  Unready args past s ∧ ¬ Awaiting s.disk.loaded

/-- While something is at stake, no request ends the command, unless the failure is recorded all the
same, and the record found under the lock is coherent. -/
def Undisturbed (past : List ReadinessMove) (m : ReadinessMove) : Prop :=
  (raises m = true → ¬ Records m → Idling args past m.before) ∧
    (m.request = .updater .lock → Idling args past m.before ∨ Coherent m.before.disk)

/-- Every request met the condition. -/
def Smooth : List ReadinessMove → Prop
  | [] => True
  | m :: past => Undisturbed args past m ∧ Smooth past

/-- The arguments that the command accepts. -/
def Arguments.Valid : Prop := 0 < args.pid ∧ 30 ≤ args.timeout ∧ args.timeout ≤ 3600

end Claim

section Runs

variable {args : Arguments} {α β : Type} {past : List ReadinessMove} {m : ReadinessMove} {s : Site}
  {start : ℕ} {s₀ : Site}

theorem started_cons (h : started past = some start) : started (m :: past) = some start := by
  rw [started, h]
  rfl

theorem answered_cons (h : started past = some start) (hm : players m = none) :
    Answered args (m :: past) ↔ Answered args past := by
  simp [Answered, started_cons h, h, hm]

theorem undisturbed_others (s' : Site) : Undisturbed args past (others s s') :=
  ⟨by nofun, by nofun⟩

theorem undisturbed_onSite {B : Prop} (hB : B ↔ Unready args past s) (m : UpdaterMove) :
    Undisturbed args past (onSite s m) ↔ Fine B m := by
  obtain ⟨q, reply, before, after⟩ := m
  have hraises : raises (onSite s ⟨q, reply, before, after⟩) = true ↔
      ¬ Succeeds ⟨q, reply, before, after⟩ := by
    cases reply <;> simp [onSite, raises, Succeeds, Except.isOk, Except.toBool]
  have hidling : Idling args past { s with disk := before } ↔ Idle B before := by
    rw [Idle, hB]
    exact Iff.rfl
  have hrecords : Records (onSite s ⟨q, reply, before, after⟩) ↔
      Recorded ⟨q, reply, before, after⟩ := by
    simp [Records, Recorded, onSite]
  rw [Undisturbed, Fine, Lost, hraises, hrecords, and_imp, ← hidling]
  simp [onSite]

/-- The moves of an operation, and those before it. -/
theorem smooth_onSite (h : started past = some start) {B : Prop}
    (hB : B ↔ Unready args past s) (hpast : Smooth args past)
    (added : List UpdaterMove) :
    (Smooth args (added.map (onSite s) ++ past) ↔ ∀ m ∈ added, Fine B m) ∧
      started (added.map (onSite s) ++ past) = some start ∧
      (Answered args (added.map (onSite s) ++ past) ↔ Answered args past) := by
  induction added with
  | nil => exact ⟨iff_of_true hpast (by simp), h, Iff.rfl⟩
  | cons m added ih =>
    obtain ⟨hsmooth, hstarted, hanswered⟩ := ih
    refine ⟨?_, started_cons hstarted, (answered_cons hstarted rfl).trans hanswered⟩
    have hB' : B ↔ Unready args (added.map (onSite s) ++ past) s := by
      rw [hB, Unready, Unready, hanswered]
    rw [List.forall_mem_cons, ← hsmooth, ← undisturbed_onSite hB' m]
    exact Iff.rfl

theorem lastLeft_onSite (s₀ : Site) (added : List UpdaterMove) (s' : Site) :
    lastLeft s₀ (added.map (onSite s') ++ others s s' :: past) = s'.disk := by
  induction added with
  | nil => rfl
  | cons m added ih => exact ih

/-! ### The command -/

/-- What every piece of the command leaves behind when it raises. -/
def Fails (args : Arguments) (s₀ : Site) (past : List ReadinessMove) (s : Site) : Prop :=
  Smooth args past ↔ Excused args s₀ past s

/-- The command waits, and all went well so far. -/
structure Going (args : Arguments) (start : ℕ) (past : List ReadinessMove) : Prop where
  started : started past = some start
  smooth : Smooth args past

/-- There has been no exact reply yet. -/
structure Polling (args : Arguments) (start : ℕ) (past : List ReadinessMove) : Prop extends
    Going args start past where
  unreplied : ∀ m ∈ past, players m = none

theorem players_eq_none {q : Ask} (hq : q ≠ .queryPlayers) (reply : Except Err (Answer q))
    (s s' : Site) : players ⟨q, reply, s, s'⟩ = none := by
  cases q with
  | queryPlayers => exact absurd rfl hq
  | _ => rfl

theorem raises_error {q : Ask} (hq : q ≠ .queryPlayers) (e : Err) (s s' : Site) :
    raises ⟨q, .error e, s, s'⟩ = true := by
  cases q with
  | queryPlayers => exact absurd rfl hq
  | _ => rfl

theorem raises_ok {q : Ask} (v : Answer q) (s s' : Site) :
    raises ⟨q, .ok v, s, s'⟩ = false := by
  cases q <;> rfl

theorem Going.cons (h : Going args start past) (hm : Undisturbed args past m) :
    Going args start (m :: past) :=
  ⟨started_cons h.started, hm, h.smooth⟩

theorem Going.others (h : Going args start past) (s s' : Site) :
    Going args start (others s s' :: past) :=
  h.cons (undisturbed_others s')

theorem Polling.cons (h : Polling args start past) (hm : Undisturbed args past m)
    (hnone : players m = none) : Polling args start (m :: past) :=
  ⟨h.toGoing.cons hm, List.forall_mem_cons.mpr ⟨hnone, h.unreplied⟩⟩

theorem Polling.others (h : Polling args start past) (s s' : Site) :
    Polling args start (others s s' :: past) :=
  h.cons (undisturbed_others s') rfl

theorem Polling.not_answered (h : Polling args start past) : ¬ Answered args past := by
  rintro ⟨m, hm, hsome, -⟩
  rw [h.unreplied m hm] at hsome
  exact Bool.false_ne_true hsome

/-- A request that asks the surroundings leaves the disk and the game as they are. -/
theorem askAnswer_same {q : Ask} (hpause : q ≠ .pause) (hupdater : ∀ r, q ≠ .updater r)
    (c : AskChoice q) :
    (askAnswer s q c).2.disk = s.disk ∧ (askAnswer s q c).2.alive = s.alive := by
  cases q with
  | pause => exact absurd rfl hpause
  | updater r => exact absurd rfl (hupdater r)
  | _ => exact ⟨rfl, rfl⟩

/-- A request that ends the command, when all went well before. -/
theorem Going.fails (h : Going args start past) {q : Ask} (hpause : q ≠ .pause)
    (hupdater : ∀ r, q ≠ .updater r) {s' s'' : Site} {c : AskChoice q} {e : Err}
    (hanswer : askAnswer s' q c = (.error e, s''))
    (hraises : raises ⟨q, .error e, s', s''⟩ = true) :
    Fails args s₀ (⟨q, .error e, s', s''⟩ :: Readiness.others s s' :: past) s'' := by
  obtain ⟨hdisk, halive⟩ := @askAnswer_same s' q hpause hupdater c
  rw [hanswer] at hdisk halive
  have hnone : players ⟨q, .error e, s', s''⟩ = none := by cases q <;> rfl
  have hrecords : ¬ Records ⟨q, .error e, s', s''⟩ := fun ⟨_, hwrite, _⟩ => hupdater _ hwrite
  have hleft : lastLeft s₀ (⟨q, .error e, s', s''⟩ :: Readiness.others s s' :: past) = s'.disk := by
    cases q with
    | pause => exact absurd rfl hpause
    | _ => rfl
  have hgoing := h.others s s'
  have hunready : Unready args (⟨q, .error e, s', s''⟩ :: Readiness.others s s' :: past) s'' ↔
      Unready args (Readiness.others s s' :: past) s' := by
    rw [Unready, Unready, answered_cons hgoing.started hnone, ← halive]
  rw [Fails, Excused, hunready, hleft, hdisk]
  refine Iff.trans ?_ (idle_iff Awaiting.state_ne)
  refine ⟨fun hsmooth => hsmooth.1.1 hraises hrecords, fun hidle => ⟨⟨fun _ _ => hidle, ?_⟩, ?_⟩⟩
  · exact fun hlock => absurd hlock (hupdater _)
  · exact hgoing.smooth

theorem undisturbed_ok {q : Ask} (hlock : q ≠ .updater .lock) (v : Answer q) (s s' : Site) :
    Undisturbed args past ⟨q, .ok v, s, s'⟩ :=
  ⟨fun h => absurd ((raises_ok v s s').symm.trans h) Bool.false_ne_true, fun h => absurd h hlock⟩

theorem step_going (h : Going args start past) {q : Ask} (hq : q ≠ .queryPlayers)
    (hpause : q ≠ .pause) (hupdater : ∀ r, q ≠ .updater r) :
    site.Ensures (fun _ _ => True) (step q) (fun _ past' _ => Going args start past')
      (fun _ past' s' => Fails args s₀ past' s') past s :=
  ensures_step
    (fun s' _ v s'' _ => (h.others s s').cons (undisturbed_ok (hupdater _) v s' s''))
    fun s' _ e s'' hanswer => h.fails hpause hupdater hanswer (raises_error hq e s' s'')

theorem step_polling (h : Polling args start past) {q : Ask} (hq : q ≠ .queryPlayers)
    (hpause : q ≠ .pause) (hupdater : ∀ r, q ≠ .updater r) :
    site.Ensures (fun _ _ => True) (step q) (fun _ past' _ => Polling args start past')
      (fun _ past' s' => Fails args s₀ past' s') past s :=
  ensures_step (fun s' _ v s'' _ => (h.others s s').cons
      (undisturbed_ok (hupdater _) v s' s'') (players_eq_none hq _ s' s''))
    fun s' _ e s'' hanswer => h.toGoing.fails hpause hupdater hanswer (raises_error hq e s' s'')

theorem query_spec (h : Polling args start past) :
    site.Ensures (fun _ _ => True) query
      (fun reply past' _ => match reply with
        | .ok _ => Going args start past'
        | .error _ => Polling args start past')
      (fun _ past' s' => Fails args s₀ past' s') past s := by
  refine World.ensures_tryCatch
    (.bind (ensures_step (fun s' _ v s'' _ => ?_) fun s' _ e s'' hanswer => ?_))
  · exact World.ensures_pure ((h.toGoing.others s s').cons (undisturbed_ok (by nofun) v s' s''))
  · split
    · rename_i hupdate
      have hraises : raises ⟨.queryPlayers, .error e, s', s''⟩ = false := by
        simp [raises, hupdate]
      refine World.ensures_pure ((h.others s s').cons ⟨?_, by simp⟩ rfl)
      exact fun htrue => absurd (hraises.symm.trans htrue) Bool.false_ne_true
    · rename_i hother
      refine World.ensures_throw (h.toGoing.fails (by simp) (by simp) hanswer ?_)
      simpa [raises] using hother

/-- An operation that raises only if a request does, or the record is not coherent. -/
theorem call_going (h : Going args start past) {p : UpdaterM α} (hp : ∀ B d, Fair B d p [] d) :
    site.Ensures (fun _ _ => True) (call p) (fun _ past' _ => Going args start past')
      (fun _ past' s' => Fails args s₀ past' s') past s := by
  refine ensures_call (fun s' => hp (Unready args (others s s' :: past) s') _)
    (fun s' a added d' hfine => ?_) fun s' e added d' hfails => ?_
  · obtain ⟨hsmooth, hstarted, -⟩ :=
      smooth_onSite (h.others s s').started Iff.rfl (h.others s s').smooth added
    exact ⟨hstarted, hsmooth.mpr hfine⟩
  · obtain ⟨hsmooth, -, hanswered⟩ :=
      smooth_onSite (h.others s s').started Iff.rfl (h.others s s').smooth added
    rw [Fails, hsmooth, hfails, Excused, lastLeft_onSite]
    exact and_congr_left' (or_congr_right (not_congr hanswered.symm))

theorem fail_spec (h : Polling args start past) (detail : String) :
    site.Ensures (fun _ _ => True) (fail detail) (fun _ past' _ => Smooth args past')
      (fun _ past' s' => Fails args s₀ past' s') past s := by
  have hunready : ∀ s', Unready args (others s s' :: past) s' :=
    fun s' => .inr (h.others s s').not_answered
  refine .bind (ensures_call (fun s' => (failReadiness_fair (hunready s') detail _).and
    (failReadiness_settles detail _)) (fun s' _ added d' hfine => ?_)
    fun s' e added d' hfails => ?_)
  · obtain ⟨hsmooth, -, hanswered⟩ :=
      smooth_onSite (h.toGoing.others s s').started Iff.rfl (h.toGoing.others s s').smooth added
    refine World.ensures_throw (iff_of_true (hsmooth.mpr hfine.1) ⟨?_, ?_⟩)
    · rw [Unready, hanswered]
      exact hunready s'
    · rw [lastLeft_onSite]
      exact hfine.2
  · obtain ⟨hsmooth, -, hanswered⟩ :=
      smooth_onSite (h.toGoing.others s s').started Iff.rfl (h.toGoing.others s s').smooth added
    rw [Fails, hsmooth, hfails.1, Excused, lastLeft_onSite]
    exact and_congr_left' (or_congr_right (not_congr hanswered.symm))

theorem recordReady_spec (c : UpdateConfiguration) (h : Going args start past) (count : ℕ) :
    site.Ensures (fun _ _ => True) (recordReady c args count) (fun _ past' _ => Smooth args past')
      (fun _ past' s' => Fails args s₀ past' s') past s := by
  refine (step_going h (by simp) (by simp) (by simp)).seq (fun fingerprint _ _ _ h => ?_)
    fun _ _ _ _ hfails => hfails
  have hrecord : ∀ version revision past s, Going args start past → site.Ensures (fun _ _ => True)
      (do
        call (markRuntimeReady c version revision)
        let state ← step (.status c)
        return (⟨count, revision, version, state⟩ : Printed))
      (fun _ past' _ => Smooth args past') (fun _ past' s' => Fails args s₀ past' s') past s := by
    intro version revision past s h
    refine (call_going h fun _ _ => markRuntimeReady_fair c version revision _).seq
      (fun _ _ _ _ h => ?_) fun _ _ _ _ hfails => hfails
    exact (step_going h (by simp) (by simp) (by simp)).seq
      (fun _ _ _ _ h => World.ensures_pure h.smooth)
      fun _ _ _ _ hfails => hfails
  dsimp only
  split
  · exact (step_going h (by simp) (by simp) (by simp)).seq
      (fun (version, revision) _ _ _ h => hrecord version revision _ _ h)
      fun _ _ _ _ hfails => hfails
  · exact hrecord none none _ _ h

theorem poll_spec (c : UpdateConfiguration) (deadline : ℕ) :
    ∀ (rounds : ℕ) (lastDetail : String) (past : List ReadinessMove) (s : Site),
      Polling args start past →
      site.Ensures (fun _ _ => True) (poll c args deadline rounds lastDetail)
        (fun _ past' _ => Smooth args past') (fun _ past' s' => Fails args s₀ past' s') past s := by
  intro rounds
  induction rounds with
  | zero => exact fun lastDetail past s h => fail_spec h _
  | succ rounds ih =>
    intro lastDetail past s h
    refine (step_polling h (by simp) (by simp) (by simp)).seq (fun now _ _ _ h => ?_)
      fun _ _ _ _ hfails => hfails
    split
    · refine (step_polling h (by simp) (by simp) (by simp)).seq (fun alive _ _ _ h => ?_)
        fun _ _ _ _ hfails => hfails
      split
      · refine (query_spec h).seq (fun reply _ _ _ h => ?_) fun _ _ _ _ hfails => hfails
        cases reply with
        | ok count => exact recordReady_spec c h count
        | error detail =>
          refine (step_polling h (by simp) (by simp) (by simp)).seq (fun now _ _ _ h => ?_)
            fun _ _ _ _ hfails => hfails
          exact (step_polling h (by simp) (by simp) (by simp)).seq
            (fun _ past' s' _ h => ih detail _ _ h)
            fun _ _ _ _ hfails => hfails
      · exact fail_spec h _
    · exact fail_spec h _

theorem waitRuntimeReady_spec (c : UpdateConfiguration) (hvalid : args.Valid) (s : Site) :
    site.Ensures (fun _ _ => True) (waitRuntimeReady c args) (fun _ past' _ => Smooth args past')
      (fun _ past' s' => Fails args s₀ past' s') [] s := by
  unfold waitRuntimeReady
  rw [if_neg (Int.not_le.mpr hvalid.1), if_neg (not_not_intro hvalid.2)]
  refine .bind (ensures_step (fun s' _ start s'' _ => ?_) fun s' c e s'' hanswer => ?_)
  · refine poll_spec c _ _ _ _ s'' ⟨⟨rfl, ?_, undisturbed_others s', trivial⟩, ?_⟩
    · exact undisturbed_ok (by nofun) start s' s''
    · rintro m (_ | ⟨_, _ | ⟨_, hm⟩⟩)
      · rfl
      · rfl
      · exact absurd hm List.not_mem_nil
  · cases hanswer

/-- **Whether a failure of `wait-runtime-ready` is justified.** -/
theorem waitRuntimeReady_justified_iff {c : UpdateConfiguration} {s₀ : Site}
    {result : Except Err Printed}
    (he : site.Exec (waitRuntimeReady c args).run [] s₀ (.done result) past s) :
    Justified args s₀ result past s ↔
      Smooth args past ∧ (args.Valid ∨ ¬ Awaiting s₀.disk.loaded) := by
  by_cases hvalid : args.Valid
  · have hdone := World.Guarantees.exec_done (@waitRuntimeReady_spec args s₀ c hvalid s₀) he
    rw [and_iff_left (Or.inl hvalid)]
    cases result with
    | ok printed => exact iff_of_true trivial hdone
    | error e => exact hdone.symm
  · have hrefused : ∃ text, waitRuntimeReady c args = throw (.update text) := by
      unfold waitRuntimeReady
      split
      · exact ⟨_, rfl⟩
      · rename_i hpid
        rw [if_pos fun htimeout => hvalid ⟨Int.not_le.mp hpid, htimeout⟩]
        exact ⟨_, rfl⟩
    obtain ⟨text, hrefused⟩ := hrefused
    rw [hrefused] at he
    cases he
    have hunanswered : ¬ Answered args [] := fun ⟨m, hm, _⟩ => List.not_mem_nil hm
    have hunready : Unready args [] s := .inr hunanswered
    rw [Justified, Excused, and_iff_right hunready]
    simp only [Smooth, hvalid, true_and, false_or]
    refine ⟨fun hgiven hwaiting => ?_, fun hnone hwaiting => absurd hwaiting hnone⟩
    exact not_abandoned hwaiting.state_ne (hgiven hwaiting)

end Runs

/-! ### A live server that is reported unready -/

/-- A candidate is starting, and its game runs. -/
def Site.starting : Site where
  disk := Disk.installed.afterObliging 5 10 .markWorldOpened
  held := false
  alive := true
  now := 0

/-- The arguments of the entrypoint, with its default timeout. -/
def Arguments.default : Arguments where
  pid := 42
  logFingerprint := "missing"
  timeout := 1800

/-- The first query is answered exactly, and nothing fails; the other commands do what `turn`
says. -/
def answering (turn : List ReadinessMove → List Event) : site.Oracle := fun past s q => match q with
  | .pause => turn past
  | .monotonic | .isAlive => ()
  | .queryPlayers => .ok 0
  | .logFingerprint => "missing"
  | .readPzVersion => (none, none)
  | .sleep _ => (0 : ℕ)
  | .status _ => .ok
  | .updater .lock => if s.held then .contended else .acquired
  | .updater q => obliging 5 [] s.disk q

/-- At the first turn. -/
def atOnce (events : List Event) (past : List ReadinessMove) : List Event :=
  if past.isEmpty then events else []

/-- Before the record is written. -/
def beforeRecording (events : List Event) (past : List ReadinessMove) : List Event :=
  match past with
  | ⟨.logFingerprint, _, _, _⟩ :: _ => events
  | _ => []

/-- Another command has come and gone before the lock is taken; and the game exits at once, and the
failure is recorded. -/
theorem waitRuntimeReady_justified_released :
    Smooth .default (site.runFor (answering (beforeRecording [.acquired, .released])) 30
      (waitRuntimeReady .default .default).run [] .starting).2.1 ∧
    Smooth .default (site.runFor (answering (atOnce [.died])) 30
      (waitRuntimeReady .default .default).run [] .starting).2.1 := by
  constructor
  · have hrun := site.exec_runFor (answering (beforeRecording [.acquired, .released])) 30
      (waitRuntimeReady .default .default).run [] .starting (by decide +kernel)
    have hdone : (site.runFor (answering (beforeRecording [.acquired, .released])) 30
        (waitRuntimeReady .default .default).run [] .starting).1 =
          .done (.ok ⟨0, none, none, .str "current"⟩) := by rfl
    rw [hdone] at hrun
    exact ((waitRuntimeReady_justified_iff hrun).mp trivial).1
  · have hrun := site.exec_runFor (answering (atOnce [.died])) 30
      (waitRuntimeReady .default .default).run [] .starting (by decide +kernel)
    have hdone : (site.runFor (answering (atOnce [.died])) 30
        (waitRuntimeReady .default .default).run [] .starting).1 =
          .done (.error (.update "Project Zomboid exited before exact RCON readiness")) := by rfl
    rw [hdone] at hrun
    refine ((waitRuntimeReady_justified_iff hrun).mp ⟨.inl (by decide +kernel), fun _ => ?_⟩).1
    exact ⟨"Project Zomboid exited before exact RCON readiness", "now", by decide +kernel⟩

/-- **Another command holds the lock.** The game is alive and answered exactly at the first query,
with half an hour left; the command fails, and the record still waits. -/
theorem waitRuntimeReady_contended :
    ∃ past s, site.Exec (waitRuntimeReady .default .default).run [] .starting
        (.done (.error (.update
          "Another Project Zomboid game update transaction is active or unavailable"))) past s ∧
      s.alive = true ∧ Answered .default past ∧ Awaiting s.disk.loaded ∧
      ¬ Excused .default .starting past s := by
  have hrun := site.exec_runFor (answering (beforeRecording [.acquired])) 30
    (waitRuntimeReady .default .default).run [] .starting (by decide +kernel)
  have hdone : (site.runFor (answering (beforeRecording [.acquired])) 30
      (waitRuntimeReady .default .default).run [] .starting).1 = .done (.error (.update
        "Another Project Zomboid game update transaction is active or unavailable")) := by rfl
  rw [hdone] at hrun
  have hquery : 4 < (site.runFor (answering (beforeRecording [.acquired])) 30
      (waitRuntimeReady .default .default).run [] .starting).2.1.length := by decide +kernel
  have halive : (site.runFor (answering (beforeRecording [.acquired])) 30
      (waitRuntimeReady .default .default).run [] .starting).2.2.alive = true := by decide +kernel
  have hanswered : Answered .default (site.runFor (answering (beforeRecording [.acquired])) 30
      (waitRuntimeReady .default .default).run [] .starting).2.1 :=
    ⟨_, List.getElem_mem hquery, by rfl, 0, by decide +kernel, by decide +revert +kernel⟩
  refine ⟨_, _, hrun, halive, hanswered, ⟨by decide +kernel, by decide +kernel⟩, fun hexcused => ?_⟩
  rcases hexcused.1 with hdead | hunanswered
  · rw [halive] at hdead
    cases hdead
  · exact hunanswered hanswered

end Readiness

end PzServer
