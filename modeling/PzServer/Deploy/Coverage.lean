import PzServer.Deploy.Changes

/-!
# The boot guard covers every deployment

`deployment-unit-guard.sh` lets the units start when there is no pending marker. So whenever the
marker is absent the host should be as the last completed deployment left it: `HEAD` is the recorded
commit, and the installed watchdog environment is the one built for it. `Guarded` is the invariant
behind that. Outside a transaction the host is `Settled`; inside one, the previous environment is
kept somewhere, and `HEAD` is still the previous commit as long as it is not preserved.

A single failure breaks it. When `record_deployed_commit` has removed the marker and only the sync
of the state directory fails, it reports a failure, and `deploy_commit` rolls the checkout back
without a marker.

## Main results

* `DeployHistory.covered` — without that failure, the guard covers every state of every run
* `uncovered_rollback` — with it, a run reaches a state that the guard does not cover
-/

namespace PzServer

namespace Deploy

open Interaction

/-! ### The property -/

/-- `deployment-unit-guard.sh`, without arguments: whether a unit may start. -/
def deploymentUnitGuard (s : Disk) (authorizationIsValid : Bool) : Bool :=
  s.pending.isNone || authorizationIsValid

/-- The host is as the recorded deployment left it, if one was recorded. -/
def Consistent (s : Disk) : Prop :=
  ∀ content, s.deployed = some content →
    content = line s.head.text ∧ BuiltFor s.watchdog s.head

/-- Without an authorization, units start only on a consistent host. -/
def Covered (s : Disk) : Prop := deploymentUnitGuard s false = true → Consistent s

theorem covered_iff {s : Disk} : Covered s ↔ (s.pending = none → Consistent s) := by
  rw [Covered, deploymentUnitGuard, Bool.or_false, Option.isNone_iff_eq_none]

/-! ### The invariant -/

/-- The host outside a transaction. -/
structure Settled (s : Disk) : Prop where
  deployed : s.deployed = none ∨ s.deployed = some (line s.head.text)
  environment : BuiltFor s.watchdog s.head

/-- The host inside a transaction. -/
structure InTransit (previous target : Sha) (s : Disk) : Prop where
  deployed : s.deployed = none ∨ s.deployed = some (line previous.text) ∨
    s.deployed = some (line target.text)
  environment : BuiltFor s.rollback previous ∨
    s.rollback = none ∧ s.head = previous ∧ BuiltFor s.watchdog previous

/-- The invariant. -/
structure Guarded (s : Disk) : Prop where
  settled : s.pending = none → Settled s
  transit : ∀ previous target, Marks s previous target → InTransit previous target s

/-- A host that was bootstrapped, with or without a record of it. -/
structure Bootstrapped (s : Disk) : Prop where
  pending : s.pending = none
  settled : Settled s

section Invariant

variable {s s' : Disk} {previous target p t : Sha} {past : List DeployMove}

theorem Marks.unique (h : Marks s previous target) (h' : Marks s p t) :
    previous = p ∧ target = t := by
  have heq : (previous, target) = (p, t) := Option.some.inj (h.symm.trans h')
  exact ⟨congrArg Prod.fst heq, congrArg Prod.snd heq⟩

theorem not_marks (h : s.pending = none) : ¬ Marks s previous target :=
  fun hmarks => hmarks.pending_ne_none h

/-- Without a marker there is only one thing to show. -/
theorem guarded_of_settled (hpending : s.pending = none) (h : Settled s) : Guarded s :=
  ⟨fun _ => h, fun _ _ hmarks => absurd hmarks (not_marks hpending)⟩

/-- With a marker there is only the other. -/
theorem guarded_of_transit (hmarks : Marks s previous target) (h : InTransit previous target s) :
    Guarded s := by
  refine ⟨fun hpending => absurd hmarks (not_marks hpending), fun p t hmarks' => ?_⟩
  obtain ⟨rfl, rfl⟩ := hmarks.unique hmarks'
  exact h

theorem BuiltFor.isSome {environment : Option Environment} {commit : Sha}
    (h : BuiltFor environment commit) : environment.isSome = true := by
  cases environment with
  | none => cases h
  | some _ => rfl

/-- While an environment is preserved, it is the previous one. -/
theorem InTransit.preserved (h : InTransit previous target s)
    (hrollback : s.rollback.isSome = true) : BuiltFor s.rollback previous := by
  rcases h.environment with hbuilt | ⟨hnone, -, -⟩
  · exact hbuilt
  · rw [hnone] at hrollback
    cases hrollback

/-- While none is, the host still has the previous one installed. -/
theorem InTransit.installed (h : InTransit previous target s) (hrollback : s.rollback = none) :
    s.head = previous ∧ BuiltFor s.watchdog previous := by
  rcases h.environment with hbuilt | ⟨-, hhead, hbuilt⟩
  · rw [hrollback] at hbuilt
    cases hbuilt
  · exact ⟨hhead, hbuilt⟩

/-- **Every step keeps the invariant**, but for a rollback without the marker. -/
theorem Change.guarded (h : Change past s s') (hkept : ∀ m ∈ past, ¬ losesRemoval m = true)
    (hs : Guarded s) : Guarded s' := by
  cases h with
  | same => exact hs
  | discard left hpending =>
    obtain ⟨hdeployed, hbuilt⟩ := hs.settled hpending
    exact guarded_of_settled hpending ⟨hdeployed, hbuilt⟩
  | orchestrate recovery hpending =>
    obtain ⟨hdeployed, hbuilt⟩ := hs.settled hpending
    exact guarded_of_settled hpending ⟨hdeployed, hbuilt⟩
  | orphan =>
    refine ⟨fun hpending => ?_, fun p t hmarks => ?_⟩
    · obtain ⟨hdeployed, hbuilt⟩ := hs.settled hpending
      exact ⟨hdeployed, hbuilt⟩
    · obtain ⟨hdeployed, henvironment⟩ := hs.transit p t hmarks
      exact ⟨hdeployed, henvironment⟩
  | mark target hpending hrollback hrecovery hrepository =>
    have hsettled := hs.settled hpending
    refine guarded_of_transit (parseMarker_line s.head target) ⟨?_, ?_⟩
    · rcases hsettled.deployed with hnone | hhead
      · exact .inl hnone
      · exact .inr (.inl hhead)
    · exact .inr ⟨hrollback, rfl, hsettled.environment⟩
  | unmark hmarks hrollback hhead hdeployed =>
    have htransit := hs.transit _ _ hmarks
    obtain ⟨-, hbuilt⟩ := htransit.installed hrollback
    subst hhead
    refine guarded_of_settled rfl ⟨?_, hbuilt⟩
    rcases htransit.deployed with hnone | hprevious | htarget
    · exact .inl hnone
    · exact .inr hprevious
    · refine .inr (htarget.trans ?_)
      rcases hdeployed with htarget' | hrecorded
      · rw [htarget']
      · rw [htarget, Option.getD_some, recorded_line] at hrecorded
        rw [hrecorded]
  | preserve hmarks hrollback hhead hwatchdog =>
    have htransit := hs.transit _ _ hmarks
    exact guarded_of_transit hmarks ⟨htransit.deployed, .inl (htransit.installed hrollback).2⟩
  | checkout head clean hmarks hrollback hhead =>
    have htransit := hs.transit _ _ hmarks
    exact guarded_of_transit hmarks ⟨htransit.deployed, .inl (htransit.preserved hrollback)⟩
  | replace watchdog hmarks hrollback =>
    have htransit := hs.transit _ _ hmarks
    exact guarded_of_transit hmarks ⟨htransit.deployed, .inl (htransit.preserved hrollback)⟩
  | restore hmarks hrollback hhead =>
    have htransit := hs.transit _ _ hmarks
    exact guarded_of_transit hmarks
      ⟨htransit.deployed, .inr ⟨rfl, hhead, htransit.preserved hrollback⟩⟩
  | record commit hmarks hcommit =>
    have htransit := hs.transit _ _ hmarks
    refine guarded_of_transit hmarks ⟨.inr ?_, htransit.environment⟩
    rcases hcommit with rfl | rfl
    · exact .inl rfl
    · exact .inr rfl
  | complete hmarks hdeployed hbuilt =>
    have htransit := hs.transit _ _ hmarks
    refine guarded_of_settled rfl ⟨.inr hdeployed, ?_⟩
    rcases hbuilt with hbuilt | ⟨hrollback, hhead⟩
    · exact hbuilt
    · show BuiltFor s.watchdog s.head
      rw [hhead]
      exact (htransit.installed hrollback).2
  | uncovered hlost =>
    obtain ⟨m, hm, hlost⟩ := hlost
    exact absurd hlost (hkept m hm)

theorem covered_of_guarded (h : Guarded s) : Covered s := by
  rw [covered_iff]
  intro hpending content hcontent
  obtain ⟨hdeployed, hbuilt⟩ := h.settled hpending
  rcases hdeployed with hnone | hhead
  · rw [hnone] at hcontent
    cases hcontent
  · exact ⟨Option.some.inj (hcontent.symm.trans hhead), hbuilt⟩

end Invariant

/-! ### All runs -/

/-- **The guard covers every deployment.** In every sequence of runs, wherever their commands fail
and wherever they stop: as long as the sync that follows the removal of the marker never fails while
the previous environment is still preserved, units that start without an authorization start on a
consistent host. -/
theorem DeployHistory.covered {h : List DeployEntry} {s : Disk}
    (hh : DeployHistory Bootstrapped h s) (hkept : ∀ e ∈ h, ¬ losesRemoval e.move = true) :
    Covered s := by
  have hguarded : Guarded s := by
    refine hh.invariant (R := fun m => losesRemoval m = true) hkept (fun s hs => ?_)
      fun past m hpast _ hchange hs => ?_
    · exact guarded_of_settled hs.pending hs.settled
    · exact hchange.guarded hpast hs
  exact covered_of_guarded hguarded

/-! ### A deployment -/

def shaA : Sha := ⟨List.replicate 40 'a', by decide⟩

def shaB : Sha := ⟨List.replicate 40 'b', by decide⟩

/-- The first commit is deployed. -/
def deployedHost : Disk where
  repository := true
  head := shaA
  clean := true
  watchdog := some ⟨some shaA, true⟩
  rollback := none
  pending := none
  deployed := some (line shaA.text)
  recovery := false

theorem bootstrapped_deployedHost : Bootstrapped deployedHost :=
  ⟨rfl, .inr rfl, rfl⟩

/-- The second one is to be. -/
def deployB : DeployCommand := ⟨"1234".toList, shaB.text, []⟩

/-- A run of the second deployment, for so many commands, with one choice for each of them. -/
def deploysB (choice : (s : Disk) → (q : DeployRequest) → DeployChoice q) (commands : ℕ) :
    Program DeployRequest DeployReply (Except Failure Unit) × List DeployMove × Disk :=
  deployHost.runFor (fun _ => choice) commands (deployCommit deployB).run [] deployedHost

/-- Such a run is a history of its own. -/
theorem deploysB_history (choice : (s : Disk) → (q : DeployRequest) → DeployChoice q)
    (commands : ℕ) {init : Disk → Prop} (hinit : init deployedHost)
    (hlegal : deployHost.legal (fun _ => choice) commands (deployCommit deployB).run []
      deployedHost = true) :
    DeployHistory init (entries deployB deployedHost (deploysB choice commands).2.1 ++ [])
      (deploysB choice commands).2.2 :=
  .run deployB (.start hinit) (deployHost.exec_runFor _ _ _ _ _ hlegal)

theorem covered_deployB :
    (deploysB (cooperate shaB) 100).2.2.head = shaB ∧
      Covered (deploysB (cooperate shaB) 100).2.2 := by
  have hhistory := deploysB_history (cooperate shaB) 100 bootstrapped_deployedHost
    (by decide +kernel)
  exact ⟨by decide +kernel, DeployHistory.covered hhistory (by decide +kernel)⟩

/-- Everything works, but for the sync of the state directory. -/
def failingSync (s : Disk) : (q : DeployRequest) → DeployChoice q
  | .syncStateDirectory => false
  | q => cooperate shaB s q

/-- **A rollback without the marker.** The second commit is installed and recorded, and the marker
is removed; the sync fails, and after the rollback's checkout the run is killed. `HEAD` is the first
commit again, the recorded one is the second, and the guard lets the units start. -/
theorem uncovered_rollback :
    ¬ ∀ (h : List DeployEntry) (s : Disk), DeployHistory Bootstrapped h s → Covered s := by
  intro hcovered
  have hhistory := deploysB_history failingSync 62 bootstrapped_deployedHost
    (by decide +kernel)
  have hpending : (deploysB failingSync 62).2.2.pending = none := by decide +kernel
  have hdeployed : (deploysB failingSync 62).2.2.deployed = some (line shaB.text) := by
    decide +kernel
  have hhead : (deploysB failingSync 62).2.2.head = shaA := by decide +kernel
  have hline := (covered_iff.mp (hcovered _ _ hhistory) hpending _ hdeployed).1
  rw [hhead] at hline
  exact absurd hline (by decide)

end Deploy

end PzServer
