import PzServer.Entrypoint.Waits

/-!
# A stop request is acted on at once

The handler of SIGTERM and SIGINT only sets a variable, and `run_server` tests it after its waits. A
wait that begins while the variable is set already, and before `save` and `quit` were sent, keeps a
requested stop waiting. There are three moments for a signal to bring that about:

* after the trap is set and before `wait -n` begins,
* between the last test and the wait for a server that is ready,
* when the server has ended by itself, so that nothing is sent, and readiness is waited for.

`inTime` says that no signal arrives at one of the first two, `neverOutlived` excludes the third.

## Main results

* `stop_served` — apart from these moments, no wait begins while a request is unserved
* `stop_unserved` — a run in which a request waits for readiness
-/

namespace PzServer

namespace Entrypoint

open Interaction

/-! ### Waits that block -/

/-- A command that does not return before something else happens. -/
def Host.blocks (s : Host) : Command → Bool
  | .waitAny => (s.server = .running || s.readiness = .running) &&
      !s.hasExited .server && !s.hasExited .readiness
  | .wait child => s.stage child = .running
  | _ => false

/-- `graceful_shutdown` has written `save` and `quit` to the console, or has tried to. -/
def Sent (past : List (Move Ask Reply Host)) : Prop :=
  (∃ m ∈ past, m.request = .run (.console .save)) ∧ ∃ m ∈ past, m.request = .run (.console .quit)

/-- The server was alive when `graceful_shutdown` looked. -/
def sawAlive : Move Ask Reply Host → Bool
  | ⟨.run .isAlive, alive, _, _⟩ => alive
  | _ => false

/-- `graceful_shutdown` has found a server to stop. -/
def found (past : List (Move Ask Reply Host)) : Bool := past.any sawAlive

/-- No signal is recorded between the trap and a `wait -n` that blocks, or right before a `wait` for
a server that runs and was not found running. -/
def onTime (past : List (Move Ask Reply Host)) (m : Move Ask Reply Host) : Bool :=
  match m.request with
  | .between .waitAny => !(m.after.requested && m.after.blocks .waitAny)
  | .between (.wait .server) =>
    !(!m.before.requested && m.after.requested && m.after.blocks (.wait .server)) || found past
  | _ => true

/-- No signal came at one of these moments. -/
def inTime : List (Move Ask Reply Host) → Bool
  | [] => true
  | m :: past => onTime past m && inTime past

/-- After a request, readiness is not waited for while it runs, unless a server was found. -/
def endsFirst (past : List (Move Ask Reply Host)) (m : Move Ask Reply Host) : Bool :=
  match m.request with
  | .between (.wait .readiness) =>
    !(m.after.requested && m.after.blocks (.wait .readiness)) || found past
  | _ => true

/-- Readiness never outlived a server that had ended by itself when a stop was requested. -/
def neverOutlived : List (Move Ask Reply Host) → Bool
  | [] => true
  | m :: past => endsFirst past m && neverOutlived past

/-- What a wait owes to a request. -/
def Served (past : List (Move Ask Reply Host)) (s : Host) (q : Command) : Prop :=
  inTime past = true → s.requested = true → s.blocks q = true →
    (s.server = .running → Sent past) ∧ (neverOutlived past = true → Sent past)

/-- Every command begins with nothing owed. -/
def Prompt (past : List (Move Ask Reply Host)) (m : Move Ask Reply Host) : Prop :=
  match m.request with
  | .between _ => True
  | .run q => Served past m.before q

/-- A triple about the moves and the host, in which nothing is owed. -/
def Prompts {α : Type} (P : List (Move Ask Reply Host) → Host → Prop) (p : ShellM α)
    (R : α → List (Move Ask Reply Host) → Host → Prop) : Prop :=
  world.Triple Prompt Prod.mk (fun t => P t.1 t.2) p fun a t => R a t.1 t.2

section Rules

variable {α β : Type} {P P' : List (Move Ask Reply Host) → Host → Prop} {p : ShellM α}
  {R R' : α → List (Move Ask Reply Host) → Host → Prop}

theorem Prompts.seq {f : α → ShellM β} {S : β → List (Move Ask Reply Host) → Host → Prop}
    (h : Prompts P p R) (hf : ∀ a, Prompts (R a) (f a) S) : Prompts P (p >>= f) S :=
  World.Triple.seq h hf

theorem Prompts.conseq (h : Prompts P p R) (hP : ∀ past s, P' past s → P past s)
    (hR : ∀ a past s, R a past s → R' a past s) : Prompts P' p R' :=
  World.Triple.conseq h (fun t => hP t.1 t.2) fun a t => hR a t.1 t.2

theorem Prompts.pre (h : Prompts P p R) (hP : ∀ past s, P' past s → P past s) : Prompts P' p R :=
  h.conseq hP fun _ _ _ ha => ha

theorem prompts_pure {a : α} (h : ∀ past s, P past s → R a past s) : Prompts P (pure a) R :=
  World.triple_pure fun t => h t.1 t.2

theorem prompts_throw {status : ℕ} : Prompts P (throw status : ShellM α) R := World.triple_throw

theorem prompts_expect {succeeded : Bool} : Prompts P (expect succeeded) fun _ => P := by
  cases succeeded
  · exact prompts_throw
  · exact prompts_pure fun _ _ hs => hs

/-- A command, with what happens before it. -/
theorem prompts_perform {q : Command}
    {R : CommandReply q → List (Move Ask Reply Host) → Host → Prop}
    (h : ∀ past s events, s.allowsAll events = true → P past s →
      Served (world.move s (.between q) events :: past) (s.after events) q ∧
        ∀ c, commandAllowed (s.after events) q c = true →
          R (commandAnswer (s.after events) q c).1
            (world.move (s.after events) (.run q) c :: world.move s (.between q) events :: past)
            (commandAnswer (s.after events) q c).2) :
    Prompts P (perform q) R := by
  refine triple_perform (S := fun t => Served t.1 t.2 q ∧ ∀ c, commandAllowed t.2 q c = true →
    R (commandAnswer t.2 q c).1 (world.move t.2 (.run q) c :: t.1) (commandAnswer t.2 q c).2) ?_ ?_
  · exact fun past s events hc hs => ⟨trivial, h past s events hc hs⟩
  · exact fun past s c hc hs => ⟨hs.1, hs.2 c hc⟩

end Rules

/-! ### What lasts -/

/-- Outside `graceful_shutdown`, a server that was found has been told to stop. -/
def Idle (past : List (Move Ask Reply Host)) : Prop := found past = true → Sent past

/-- The server has been told to stop, or there is none. -/
def Handled (past : List (Move Ask Reply Host)) (s : Host) : Prop :=
  Sent past ∨ s.server ≠ .running

theorem Sent.cons {past : List (Move Ask Reply Host)} (h : Sent past) (m : Move Ask Reply Host) :
    Sent (m :: past) :=
  ⟨h.1.imp fun _ hm => ⟨List.mem_cons_of_mem _ hm.1, hm.2⟩,
    h.2.imp fun _ hm => ⟨List.mem_cons_of_mem _ hm.1, hm.2⟩⟩

theorem Idle.cons {past : List (Move Ask Reply Host)} (h : Idle past) {m : Move Ask Reply Host}
    (hm : sawAlive m = false) : Idle (m :: past) := by
  intro hfound
  rw [found, List.any_cons, hm, Bool.false_or] at hfound
  exact (h hfound).cons m

theorem Sent.idle {past : List (Move Ask Reply Host)} (h : Sent past) : Idle past := fun _ => h

/-- What the commands that do not wait keep. -/
structure Durable (P : List (Move Ask Reply Host) → Host → Prop) : Prop where
  between : ∀ past s q events, s.allowsAll events = true → P past s →
    P (world.move s (.between q) events :: past) (s.after events)
  cons : ∀ past s m, sawAlive m = false → P past s → P (m :: past) s
  sleeps : ∀ past s n, P past s → P past { s with seconds := n }

theorem durable_sent : Durable fun past _ => Sent past :=
  ⟨fun _ _ _ _ _ h => h.cons _, fun _ _ _ _ h => h.cons _, fun _ _ _ h => h⟩

theorem durable_idle : Durable fun past _ => Idle past :=
  ⟨fun _ _ _ _ _ h => h.cons rfl, fun _ _ _ hm h => h.cons hm, fun _ _ _ h => h⟩

theorem durable_handled : Durable Handled where
  between _ _ _ _ hc h := h.imp (·.cons _) ((@stable_ended .server).after hc)
  cons _ _ _ _ h := h.imp_left (·.cons _)
  sleeps _ _ _ h := h

theorem Durable.and {P P' : List (Move Ask Reply Host) → Host → Prop} (h : Durable P)
    (h' : Durable P') : Durable fun past s => P past s ∧ P' past s where
  between past s q events hc hs := ⟨h.between past s q events hc hs.1,
    h'.between past s q events hc hs.2⟩
  cons past s m hm hs := ⟨h.cons past s m hm hs.1, h'.cons past s m hm hs.2⟩
  sleeps past s n hs := ⟨h.sleeps past s n hs.1, h'.sleeps past s n hs.2⟩

/-! ### Commands that do not wait -/

section Commands

variable {P : List (Move Ask Reply Host) → Host → Prop} {c : Settings}

/-- A command that does not wait owes nothing. -/
theorem prompts_command {q : Command}
    {R : CommandReply q → List (Move Ask Reply Host) → Host → Prop}
    (hq : ∀ s, Host.blocks s q = false) (hP : Durable P)
    (hrun : ∀ past s c, P past s →
      R (commandAnswer s q c).1 (world.move s (.run q) c :: past) (commandAnswer s q c).2) :
    Prompts P (perform q) R :=
  prompts_perform fun past s events hc hs =>
    ⟨fun _ _ hblocks => absurd hblocks (by rw [hq]; exact Bool.false_ne_true),
      fun c _ => hrun _ _ c (hP.between past s q events hc hs)⟩

/-- One that changes nothing keeps what lasts. -/
theorem prompts_quiet {q : Command} (hq : ∀ s, Host.blocks s q = false) (hP : Durable P)
    (hmove : ∀ s c, sawAlive (world.move s (.run q) c) = false)
    (hsame : ∀ s c, (commandAnswer s q c).2 = s) : Prompts P (perform q) fun _ => P := by
  refine prompts_command hq hP fun past s c hs => ?_
  rw [hsame]
  exact hP.cons past s _ (hmove s c) hs

theorem prompts_sleep (hP : Durable P) (n : ℕ) : Prompts P (perform (.sleep n)) fun _ => P :=
  prompts_command (fun _ => rfl) hP fun past s _ hs =>
    hP.sleeps _ s _ (hP.cons past s _ rfl hs)

/-- In the launch, only that nothing was found matters. -/
theorem prompts_launching {q : Command} (hq : ∀ s, Host.blocks s q = false)
    (hmove : ∀ s c, sawAlive (world.move s (.run q) c) = false) :
    Prompts (fun past _ => Idle past) (perform q) fun _ past _ => Idle past :=
  prompts_command hq durable_idle fun _ s c hs => hs.cons (hmove s c)

/-- A server that is told to stop, is told so before it is waited for. -/
theorem prompts_isAlive_sent :
    Prompts (fun past _ => Sent past) (perform .isAlive) fun _ past _ => Sent past :=
  prompts_command (fun _ => rfl) durable_sent fun _ _ _ hs => hs.cons _

theorem prompts_readSeconds (hP : Durable P) :
    Prompts P (perform .readSeconds) fun _ => P :=
  prompts_quiet (fun _ => rfl) hP (fun _ _ => rfl) fun _ _ => rfl

theorem prompts_killGroup (hP : Durable P) (escalation : Escalation) :
    Prompts P (perform (.killGroup escalation)) fun _ => P :=
  prompts_quiet (fun _ => rfl) hP (fun _ _ => rfl) fun _ _ => rfl

theorem awaitExit_prompts (deadline : ℕ) : ∀ rounds : ℕ,
    Prompts (fun past _ => Sent past) (awaitExit deadline rounds) fun _ past _ => Sent past
  | 0 => prompts_pure fun _ _ hs => hs
  | rounds + 1 => by
    refine prompts_isAlive_sent.seq fun alive => ?_
    split
    · refine (prompts_readSeconds durable_sent).seq fun seconds => ?_
      split
      · exact (prompts_sleep durable_sent 1).seq fun _ => awaitExit_prompts deadline rounds
      · exact prompts_pure fun _ _ hs => hs
    · exact prompts_pure fun _ _ hs => hs

theorem terminateGroup_prompts :
    Prompts (fun past _ => Sent past) terminateGroup fun _ past _ => Sent past := by
  refine prompts_isAlive_sent.seq fun alive => ?_
  split
  · refine (prompts_killGroup durable_sent .term).seq fun _ => ?_
    exact (prompts_sleep durable_sent 5).seq fun _ => prompts_pure fun _ _ hs => hs
  · exact prompts_pure fun _ _ hs => hs

theorem killGroup_prompts :
    Prompts (fun past _ => Sent past) killGroup fun _ past _ => Sent past := by
  refine prompts_isAlive_sent.seq fun alive => ?_
  split
  · exact prompts_killGroup durable_sent .kill
  · exact prompts_pure fun _ _ hs => hs

/-- `save` has been written, or at least tried. -/
def Saved (past : List (Move Ask Reply Host)) : Prop :=
  ∃ m ∈ past, m.request = .run (.console .save)

theorem Saved.cons {past : List (Move Ask Reply Host)} (h : Saved past)
    (m : Move Ask Reply Host) : Saved (m :: past) :=
  h.imp fun _ hm => ⟨List.mem_cons_of_mem _ hm.1, hm.2⟩

theorem durable_saved : Durable fun past _ => Saved past :=
  ⟨fun _ _ _ _ _ h => h.cons _, fun _ _ _ _ h => h.cons _, fun _ _ _ h => h⟩

theorem durable_true : Durable fun _ _ => True :=
  ⟨fun _ _ _ _ _ h => h, fun _ _ _ _ h => h, fun _ _ _ h => h⟩

theorem stopServer_prompts :
    Prompts (fun _ _ => True) (stopServer c) fun _ past _ => Sent past := by
  have hsave : Prompts (fun _ _ => True) (perform (.console .save)) fun _ past _ => Saved past :=
    prompts_command (fun _ => rfl) durable_true fun past s written _ =>
      ⟨_, List.mem_cons_self, rfl⟩
  have hquit : Prompts (fun past _ => Saved past) (perform (.console .quit))
      fun _ past _ => Sent past :=
    prompts_command (fun _ => rfl) durable_saved fun past s written hs =>
      ⟨hs.cons _, _, List.mem_cons_self, rfl⟩
  refine hsave.seq fun saved => (prompts_sleep durable_saved _).seq fun _ => ?_
  refine hquit.seq fun quit => ?_
  refine (prompts_readSeconds durable_sent).seq fun seconds => ?_
  refine (awaitExit_prompts _ _).seq fun _ => terminateGroup_prompts.seq fun stuck => ?_
  exact killGroup_prompts.seq fun _ => prompts_pure fun _ _ hs => hs

/-- **`graceful_shutdown`** leaves a server that has been told to stop, or none. -/
theorem gracefulShutdown_prompts (v : Variables) (hpid : v.serverPid = true) :
    Prompts (fun past _ => Idle past) (gracefulShutdown c v) fun _ past s =>
      Idle past ∧ Handled past s := by
  unfold gracefulShutdown
  rw [if_pos hpid]
  have halive : Prompts (fun past _ => Idle past) (perform .isAlive) fun alive past s =>
      alive = true ∨ Idle past ∧ s.server ≠ .running := by
    refine prompts_command (fun _ => rfl) durable_idle fun past s c hs => ?_
    by_cases hrunning : s.server = .running
    · exact .inl (decide_eq_true hrunning)
    · exact .inr ⟨hs.cons (decide_eq_false hrunning), hrunning⟩
  refine halive.seq fun alive => ?_
  split
  · refine (stopServer_prompts.pre fun _ _ _ => trivial).seq fun stopped => ?_
    exact prompts_pure fun _ _ hs => ⟨hs.idle, .inl hs⟩
  · rename_i hnot
    exact prompts_pure fun _ _ hs => (hs.resolve_left hnot).imp_right .inr

end Commands

/-! ### Waits -/

section Waits

theorem wait_ended {child : Child} {s : Host} {c : CommandChoice (.wait child)}
    (hc : commandAllowed s (.wait child) c = true) (hs : s.server ≠ .running) :
    (commandAnswer s (.wait child) c).2.server ≠ .running := by
  refine waitFor_keeps (@stable_ended .server) (fun s status _ hended => ?_) (waitFor_eq hc) hs
  cases child with
  | server => exact fun h => nomatch h
  | readiness => exact hended

theorem handled_wait {child : Child} {past : List (Move Ask Reply Host)} {s : Host}
    {c : CommandChoice (.wait child)} (hc : commandAllowed s (.wait child) c = true)
    (hs : Handled past s) :
    Handled (world.move s (.run (.wait child)) c :: past) (commandAnswer s (.wait child) c).2 :=
  hs.imp (·.cons _) (wait_ended hc)

/-- A server that has been told to stop may be waited for. -/
theorem prompts_wait_server :
    Prompts (fun past s => Idle past ∧ Handled past s) (perform (.wait .server))
      fun _ past s => Idle past ∧ Handled past s := by
  refine prompts_perform fun past s events hc ⟨hidle, hhandled⟩ => ?_
  have hnow := durable_handled.between past s (.wait .server) events hc hhandled
  refine ⟨fun _ _ hblocks => ?_, fun c hallowed => ?_⟩
  · have hsent := hnow.resolve_right (not_not_intro (of_decide_eq_true hblocks))
    exact ⟨fun _ => hsent, fun _ => hsent⟩
  · exact ⟨(hidle.cons rfl).cons rfl, handled_wait hallowed hnow⟩

/-- And so may readiness. -/
theorem prompts_wait_readiness :
    Prompts (fun past s => Idle past ∧ Handled past s) (perform (.wait .readiness))
      fun _ past s => Idle past ∧ Handled past s := by
  refine prompts_perform fun past s events hc ⟨hidle, hhandled⟩ => ?_
  have hnow := durable_handled.between past s (.wait .readiness) events hc hhandled
  refine ⟨fun _ hrequested hblocks => ⟨fun hrunning => ?_, fun houtlived => ?_⟩,
    fun c hallowed => ?_⟩
  · exact hnow.resolve_right (not_not_intro hrunning)
  · rw [neverOutlived, Bool.and_eq_true] at houtlived
    have hfirst : (!((s.after events).requested && (s.after events).blocks (.wait .readiness)) ||
      found past) = true := houtlived.1
    rw [hrequested, hblocks] at hfirst
    exact (hidle hfirst).cons _
  · exact ⟨(hidle.cons rfl).cons rfl, handled_wait hallowed hnow⟩

/-- The first wait, of which nothing is known but that no signal came too early. -/
theorem prompts_waitAny :
    Prompts (fun past _ => Idle past) (perform .waitAny) fun r past s =>
      Idle past ∧ (r.1 = some .server → s.server ≠ .running) := by
  refine prompts_perform fun past s events _ hidle => ?_
  refine ⟨fun hintime hrequested hblocks => ?_, fun first _ => ?_⟩
  · rw [inTime, Bool.and_eq_true] at hintime
    have hearly : (!((s.after events).requested && (s.after events).blocks .waitAny)) = true :=
      hintime.1
    rw [hrequested, hblocks] at hearly
    cases hearly
  · refine ⟨(hidle.cons rfl).cons rfl, ?_⟩
    cases first with
    | signal signal => exact fun h => nomatch h
    | exits child status =>
      intro h
      obtain rfl : child = .server := Option.some.inj h
      exact fun h => nomatch h

/-- The last wait, when no stop was requested just before. -/
theorem prompts_wait_unrequested :
    Prompts (fun past s => Idle past ∧ s.requested = false) (perform (.wait .server))
      fun _ past _ => Idle past := by
  refine prompts_perform fun past s events _ ⟨hidle, hunrequested⟩ => ?_
  refine ⟨fun hintime hrequested hblocks => ?_, fun c _ => (hidle.cons rfl).cons rfl⟩
  rw [inTime, Bool.and_eq_true] at hintime
  have hlate : (!(!s.requested && (s.after events).requested &&
    (s.after events).blocks (.wait .server)) || found past) = true := hintime.1
  rw [hunrequested, hrequested, hblocks] at hlate
  have hsent := (hidle hlate).cons (world.move s (.between (.wait .server)) events)
  exact ⟨fun _ => hsent, fun _ => hsent⟩

theorem endReadiness_prompts (v : Variables) :
    Prompts (fun past s => Idle past ∧ Handled past s) (endReadiness v)
      fun _ past s => Idle past ∧ Handled past s := by
  refine (prompts_quiet (q := .stopReadiness) (fun _ => rfl) (durable_idle.and durable_handled)
    (fun _ _ => rfl) fun _ _ => rfl).seq fun _ => ?_
  exact prompts_wait_readiness.seq fun _ => prompts_pure fun _ _ hs => hs

theorem collectServer_prompts (v : Variables) :
    Prompts (fun past s => Idle past ∧ Handled past s) (collectServer v)
      fun _ past s => Idle past ∧ Handled past s :=
  prompts_wait_server.seq fun _ => prompts_pure fun _ _ hs => hs

theorem prompts_isRequested {P : List (Move Ask Reply Host) → Host → Prop} (hP : Durable P) :
    Prompts P (perform .isRequested) fun requested past s => P past s ∧ s.requested = requested :=
  prompts_command (fun _ => rfl) hP fun past s _ hs => ⟨hP.cons past s _ rfl hs, rfl⟩

end Waits

/-! ### `run_server` -/

section Parts

variable {c : Settings}

/-- What is known where nothing is being stopped. -/
def Idles (past : List (Move Ask Reply Host)) (_ : Host) : Prop := Idle past

theorem launch_prompts (release : String) : Prompts Idles (launch c release) fun _ => Idles := by
  have hquiet : ∀ q : Command, (∀ s, Host.blocks s q = false) →
      (∀ s c, sawAlive (world.move s (.run q) c) = false) →
      Prompts Idles (perform q) fun _ => Idles := fun _ hq hmove => prompts_launching hq hmove
  refine (hquiet .hasDatabase (fun _ => rfl) fun _ _ => rfl).seq fun hasDatabase => ?_
  refine (hquiet .openConsole (fun _ => rfl) fun _ _ => rfl).seq fun opened => ?_
  refine prompts_expect.seq fun _ => ?_
  refine (hquiet .trap (fun _ => rfl) fun _ _ => rfl).seq fun _ => ?_
  refine (hquiet .logFingerprint (fun _ => rfl) fun _ _ => rfl).seq fun printed => ?_
  cases printed with
  | none => exact prompts_throw
  | some fingerprint =>
    refine (hquiet .markWorldOpened (fun _ => rfl) fun _ _ => rfl).seq fun marked => ?_
    refine prompts_expect.seq fun _ => ?_
    refine (hquiet (.enter release) (fun _ => rfl) fun _ _ => rfl).seq fun entered => ?_
    refine prompts_expect.seq fun _ => ?_
    refine (hquiet (.startServer _ _) (fun _ => rfl) fun _ _ => rfl).seq fun _ => ?_
    refine (hquiet .writePid (fun _ => rfl) fun _ _ => rfl).seq fun written => ?_
    exact prompts_expect.seq fun _ =>
      hquiet (.startReadiness fingerprint) (fun _ => rfl) fun _ _ => rfl

theorem readinessEnded_prompts (v : Variables) (hpid : v.serverPid = true) :
    Prompts Idles (readinessEnded c v) fun _ => Idles := by
  unfold readinessEnded
  split
  · refine (gracefulShutdown_prompts { v with readinessPid := false, readinessFailed := true }
      hpid).seq fun v' => ?_
    exact prompts_wait_server.seq fun final => prompts_pure fun _ _ hs => hs.1
  · exact prompts_pure fun _ _ hs => hs

theorem serverEnded_prompts (v : Variables) :
    Prompts (fun past s => Idle past ∧ s.server ≠ .running) (serverEnded v) fun _ => Idles := by
  refine ((endReadiness_prompts _).pre fun _ _ hs => ⟨hs.1, .inr hs.2⟩).seq fun v' => ?_
  refine (prompts_quiet (q := .failReadiness) (fun _ => rfl)
    (durable_idle.and durable_handled) (fun _ _ => rfl) fun _ _ => rfl).seq fun recorded => ?_
  exact prompts_pure fun _ _ hs => hs.1

theorem firstWait_prompts (v : Variables) (hpid : v.serverPid = true) :
    Prompts Idles (firstWait c v) fun _ => Idles := by
  refine prompts_waitAny.seq fun r => ?_
  obtain ⟨completed, status⟩ := r
  have hended : Durable fun past s =>
      Idle past ∧ (completed = some .server → s.server ≠ .running) :=
    durable_idle.and ⟨fun past s q events hc hs h => (@stable_ended .server).after hc (hs h),
      fun _ _ _ _ hs => hs, fun _ _ _ hs => hs⟩
  refine (prompts_isRequested hended).seq fun requested => ?_
  cases requested with
  | true =>
    refine ((gracefulShutdown_prompts { v with status := status } hpid).pre fun _ _ hs =>
      hs.1.1).seq fun v' => ?_
    refine (collectServer_prompts v').seq fun v'' => ?_
    exact (endReadiness_prompts v'').conseq (fun _ _ hs => hs) fun _ _ _ hs => hs.1
  | false =>
    rcases completed with _ | _ | _
    · exact prompts_throw
    · exact (serverEnded_prompts { v with status := status }).pre fun _ _ hs =>
        ⟨hs.1.1, hs.1.2 rfl⟩
    · exact (readinessEnded_prompts { v with status := status } hpid).pre fun _ _ hs => hs.1.1

theorem lastWait_prompts (v : Variables) : Prompts Idles (lastWait v) fun _ => Idles := by
  refine (prompts_isRequested durable_idle).seq fun requested => ?_
  split
  · rename_i hwait
    obtain ⟨-, hnot⟩ := (Bool.and_eq_true _ _ ▸ hwait : _ ∧ _)
    obtain rfl : requested = false := (Bool.not_eq_true' _).mp hnot
    refine prompts_wait_unrequested.seq fun status => ?_
    exact prompts_pure fun _ _ hs => hs
  · exact prompts_pure fun _ _ hs => hs.1

theorem lateShutdown_prompts (v : Variables) :
    Prompts Idles (lateShutdown c v) fun _ => Idles := by
  refine (prompts_isRequested durable_idle).seq fun requested => ?_
  split
  · rename_i hlate
    obtain ⟨-, hpid⟩ := (Bool.and_eq_true _ _ ▸ hlate : _ ∧ _)
    refine ((gracefulShutdown_prompts v hpid).pre fun _ _ hs => hs.1).seq fun v' => ?_
    refine (collectServer_prompts v').seq fun v'' => ?_
    split
    · exact (endReadiness_prompts v'').conseq (fun _ _ hs => hs) fun _ _ _ hs => hs.1
    · exact prompts_pure fun _ _ hs => hs.1
  · exact prompts_pure fun _ _ hs => hs.1

theorem runServer_prompts (release : String) :
    Prompts Idles (runServer c release) fun _ _ _ => True := by
  refine (launch_prompts release).seq fun _ => (firstWait_prompts _ rfl).seq fun v => ?_
  refine (lastWait_prompts v).seq fun v => (lateShutdown_prompts v).seq fun v => ?_
  refine (prompts_launching (q := .removeFiles) (fun _ => rfl) fun _ _ => rfl).seq
    fun removed => ?_
  refine prompts_expect.seq fun _ => (prompts_isRequested durable_idle).seq fun requested => ?_
  split
  · exact prompts_pure fun _ _ _ => trivial
  · exact prompts_pure fun _ _ _ => trivial

end Parts

/-- A command that blocks can still end. -/
theorem exists_allowed {s : Host} {q : Command} (h : s.blocks q = true) :
    ∃ c, commandAllowed s q c = true := by
  cases q with
  | waitAny =>
    simp only [Host.blocks, Bool.and_eq_true, Bool.or_eq_true, decide_eq_true_eq] at h
    obtain ⟨⟨hrunning | hrunning, hserver⟩, hreadiness⟩ := h
    · exact ⟨.exits .server 0, by
        simp [commandAllowed, Host.allowsFirst, hserver, hreadiness, Host.stage, hrunning]⟩
    · exact ⟨.exits .readiness 0, by
        simp [commandAllowed, Host.allowsFirst, hserver, hreadiness, Host.stage, hrunning]⟩
  | wait child =>
    have hrunning : s.stage child = .running := of_decide_eq_true h
    refine ⟨([.exits child 0], false), ?_⟩
    simp [commandAllowed, Host.waitFor, Host.allows, Host.happens, hrunning]
  | _ => exact absurd h Bool.false_ne_true

/-- **A stop request is acted on at once.** Where no signal came in the moments before the first and
the last wait, no wait begins with a request while a server runs that has not been told to save and
quit; nor when it has ended, if a server was still found or readiness has ended too. -/
theorem stop_served {c : Settings} {release : String} {seconds : ℕ} {q : Command}
    {k : CommandReply q → Program Ask Reply (Except ℕ ℕ)} {past : List (Move Ask Reply Host)}
    {s : Host}
    (he : world.Exec (runServer c release).run [] (.initial seconds) (.ask (.run q) k) past s)
    (hintime : inTime past = true) (hrequested : s.requested = true) (hblocks : s.blocks q = true) :
    (s.server = .running → Sent past) ∧ (neverOutlived past = true → Sent past) := by
  obtain ⟨choice, hchoice⟩ := exists_allowed hblocks
  have hidle : Idles [] (Host.initial seconds) := fun hfound => nomatch hfound
  have hserved : Served past s q := (runServer_prompts release).exec hidle he choice hchoice
  exact hserved hintime hrequested hblocks

/-- A signal interrupts the first wait, and the server obeys `quit`. -/
def interrupted : world.Oracle :=
  scripted (fun
    | .readSeconds => [.exits .server 0]
    | _ => []) (.signal .sigterm)

/-- Then the server has been told to save and quit before readiness is waited for. -/
theorem stop_served_readiness : ∃ past s k,
    world.Exec (runServer .sample "/releases/1").run [] (.initial 0)
      (.ask (.run (.wait .readiness)) k) past s ∧ Sent past := by
  have hlegal : world.legal interrupted 43 (runServer .sample "/releases/1").run []
      (.initial 0) = true := by decide +kernel
  have hrun := world.exec_runFor interrupted 43 (runServer .sample "/releases/1").run []
    (.initial 0) hlegal
  obtain ⟨k, hk⟩ : ∃ k, (world.runFor interrupted 43 (runServer .sample "/releases/1").run []
      (.initial 0)).1 = .ask (.run (.wait .readiness)) k := ⟨_, rfl⟩
  rw [hk] at hrun
  exact ⟨_, _, k, hrun, (stop_served hrun (by decide +kernel) rfl rfl).2 (by decide +kernel)⟩

/-- A signal arrives while readiness is started. -/
def hasty : world.Oracle :=
  scripted (fun
    | .startReadiness _ => [.signal .sigterm]
    | _ => []) (.exits .readiness 0)

/-- **A stop request waits.** `wait -n` begins all the same, with both processes running. -/
theorem stop_unserved : ∃ past s k,
    world.Exec (runServer .sample "/releases/1").run [] (.initial 0)
      (.ask (.run .waitAny) k) past s ∧ s.requested = true ∧ s.server = .running ∧
        s.blocks .waitAny = true ∧ ¬ Sent past := by
  have hlegal : world.legal hasty 19 (runServer .sample "/releases/1").run []
      (.initial 0) = true := by decide +kernel
  have hrun := world.exec_runFor hasty 19 (runServer .sample "/releases/1").run []
    (.initial 0) hlegal
  obtain ⟨k, hk⟩ : ∃ k, (world.runFor hasty 19 (runServer .sample "/releases/1").run []
      (.initial 0)).1 = .ask (.run .waitAny) k := ⟨_, rfl⟩
  rw [hk] at hrun
  refine ⟨_, _, k, hrun, rfl, rfl, rfl, fun hsent => ?_⟩
  exact absurd hsent.1 (by decide +kernel)

end Entrypoint

end PzServer
