import Mathlib.Data.Int.Notation
import PzServer.Updater.Readers
import PzServer.Interaction.Handlers

/-!
# Waiting for readiness

`pz-updater wait-runtime-ready` asks the server for its players until it answers, and then records
that the candidate is ready; if the game has exited or the time is over, it records a failure.
Other updater commands may run on the same install root meanwhile. Each holds the transaction lock
while it runs, for any time, and what it leaves on the disk is not restricted here. Between two
requests of the command anything may happen; while it holds the lock itself, nobody else can take
it.

Times are nanoseconds. What is only logged is left out.

## Main definitions

* `Site`, `Event`, `site` — the install root, the game, and the other commands
* `call` — an operation of `GameUpdater`
* `waitRuntimeReady` — `_wait_runtime_ready`

## Main results

* `poll_rounds` — the number of rounds that bounds the loop is enough
-/

namespace PzServer

namespace Readiness

open Interaction Updater

/-! ### The surroundings -/

/-- What `_wait_runtime_ready` finds. -/
structure Site where
  disk : Disk
  /-- Another updater command holds the transaction lock. -/
  held : Bool
  /-- The game process is alive. -/
  alive : Bool
  /-- `time.monotonic` -/
  now : ℕ

/-- What happens between two requests. -/
inductive Event where
  /-- Another command takes the lock. -/
  | acquired
  /-- It writes. -/
  | wrote (disk : Disk)
  /-- It releases the lock, or is killed. -/
  | released
  /-- The game process exits. -/
  | died
  | passed (time : ℕ)

namespace Site

def allows (s : Site) : Event → Bool
  | .acquired => !s.held
  | .wrote _ | .released => s.held
  | .died => s.alive
  | .passed _ => true

def happens (s : Site) : Event → Site
  | .acquired => { s with held := true }
  | .wrote disk => { s with disk := disk }
  | .released => { s with held := false }
  | .died => { s with alive := false }
  | .passed time => { s with now := s.now + time }

def allowsAll : Site → List Event → Bool
  | _, [] => true
  | s, e :: events => s.allows e && (s.happens e).allowsAll events

def after (s : Site) (events : List Event) : Site := events.foldl happens s

end Site

/-! ### Requests -/

/-- The requests of `_wait_runtime_ready`. -/
inductive Ask where
  /-- The other commands have their turn. -/
  | pause
  /-- `time.monotonic` -/
  | monotonic
  /-- `_process_alive` -/
  | isAlive
  /-- `_query_players` -/
  | queryPlayers
  /-- `_log_fingerprint` -/
  | logFingerprint
  /-- `read_pz_version` -/
  | readPzVersion
  /-- `time.sleep` -/
  | sleep (time : ℕ)
  /-- `GameUpdater.status`, and its `state` -/
  | status (c : UpdateConfiguration)
  /-- A request of a `GameUpdater` operation -/
  | updater (q : Request)

/-- What a request returns when it does not raise. -/
@[reducible] def Answer : Ask → Type
  | .pause | .sleep _ => Unit
  | .monotonic | .queryPlayers => ℕ
  | .isAlive => Bool
  | .logFingerprint => String
  | .readPzVersion => Option String × Option String
  | .status _ => Scalar
  | .updater q => Value q

/-- Nature's choices. -/
@[reducible] def AskChoice : Ask → Type
  | .pause => List Event
  | .monotonic | .isAlive => Unit
  | .queryPlayers => Except Err ℕ
  | .logFingerprint => String
  | .readPzVersion => Option String × Option String
  | .sleep _ => ℕ
  | .status _ => ReadOutcome
  | .updater q => Updater.Choice q

/-- The lock is contended exactly while another command holds it. The lock file can be unusable at
any time. -/
def lockAllowed (held : Bool) : LockOutcome → Bool
  | .acquired => !held
  | .contended => held
  | .failed _ => true

def askAllowed (s : Site) : (q : Ask) → AskChoice q → Bool
  | .pause, events => s.allowsAll events
  | .updater .lock, c => lockAllowed s.held c
  | .updater q, c => Updater.allowed s.disk q c
  | _, _ => true

/-- `updater.status().get("state")` -/
def statusState (c : UpdateConfiguration) (d : Disk) : ReadOutcome → Except Err Scalar
  | .failed => .error (.update "Update state is unreadable")
  | .ok => (Updater.status c d).map fun state => state .state

/-- The reply of each request, and what it leaves. -/
def askAnswer (s : Site) : (q : Ask) → AskChoice q → Except Err (Answer q) × Site
  | .pause, events => (.ok (), s.after events)
  | .monotonic, _ => (.ok s.now, s)
  | .isAlive, _ => (.ok s.alive, s)
  | .queryPlayers, reply => (reply, s)
  | .logFingerprint, fingerprint => (.ok fingerprint, s)
  | .readPzVersion, version => (.ok version, s)
  | .sleep time, longer => (.ok (), { s with now := s.now + time + longer })
  | .status c, read => (statusState c s.disk read, s)
  | .updater q, c => ((Updater.answer s.disk q c).1,
      { s with disk := (Updater.answer s.disk q c).2 })

/-- The surroundings of `_wait_runtime_ready`. -/
@[reducible] def site : World Ask (fun q => Except Err (Answer q)) Site :=
  ⟨AskChoice, askAllowed, askAnswer⟩

abbrev ReadinessMove : Type := Move Ask (fun q => Except Err (Answer q)) Site

abbrev ReadinessM : Type → Type := ExceptT Err (Program Ask fun q => Except Err (Answer q))

/-! ### `_wait_runtime_ready` -/

/-- A request, after the others' turn. -/
def step (q : Ask) : ReadinessM (Answer q) := do
  askRaising Ask.pause
  askRaising q

/-- An operation of `GameUpdater`. It takes the lock first, and then nobody interferes. -/
def call {α : Type} (p : UpdaterM α) : ReadinessM α := do
  askRaising Ask.pause
  ExceptT.mk (p.run.embed .updater fun _ reply => reply)

/-- The arguments of the command. -/
structure Arguments where
  pid : ℤ
  /-- `--log-fingerprint` -/
  logFingerprint : String
  /-- `--timeout`, in seconds -/
  timeout : ℤ

/-- What the command prints. -/
structure Printed where
  players : ℕ
  pzRevision : Option String
  pzVersion : Option String
  state : Scalar

/-- A second. -/
def second : ℕ := 1000000000

/-- Recording a failure, and raising it. -/
def fail (detail : String) : ReadinessM Printed := do
  call (failReadiness detail)
  throw (.update detail)

/-- What follows an exact reply. -/
def recordReady (c : UpdateConfiguration) (args : Arguments) (players : ℕ) :
    ReadinessM Printed := do
  let fingerprint ← step .logFingerprint
  let (version, revision) ← if fingerprint ≠ args.logFingerprint then step .readPzVersion
    else pure (none, none)
  call (markRuntimeReady c version revision)
  let state ← step (.status c)
  return ⟨players, revision, version, state⟩

/-- The query, with `except UpdateError`. -/
def query : ReadinessM (Except String ℕ) :=
  tryCatch (do return .ok (← step .queryPlayers)) fun error =>
    if error.isUpdateError then return .error error.message else throw error

/-- The loop. A `sleep` brings the deadline five seconds nearer or reaches it, so there are no more
rounds than that. -/
def poll (c : UpdateConfiguration) (args : Arguments) (deadline : ℕ) :
    ℕ → String → ReadinessM Printed
  | 0, lastDetail => fail ("Runtime readiness timed out: " ++ lastDetail)
  | rounds + 1, lastDetail => do
    let now ← step .monotonic
    if now < deadline then
      if ← step .isAlive then
        match ← query with
        | .ok players => recordReady c args players
        | .error detail =>
          let now ← step .monotonic
          step (.sleep (min (5 * second) (deadline - now)))
          poll c args deadline rounds detail
      else fail "Project Zomboid exited before exact RCON readiness"
    else fail ("Runtime readiness timed out: " ++ lastDetail)

/-- `_wait_runtime_ready` -/
def waitRuntimeReady (c : UpdateConfiguration) (args : Arguments) : ReadinessM Printed :=
  if args.pid ≤ 0 then throw (.update "--pid must identify a positive process ID")
  else if ¬ (30 ≤ args.timeout ∧ args.timeout ≤ 3600) then
    throw (.update "--timeout must be between 30 and 3600 seconds")
  else do
    let start ← step .monotonic
    poll c args (start + args.timeout.toNat * second) (args.timeout.toNat / 5 + 2)
      "RCON has not been queried"

/-! ### The number of rounds -/

section Rounds

variable {α : Type} {G : List ReadinessMove → ReadinessMove → Prop}
  {post : Except Err α → List ReadinessMove → Site → Prop} {past : List ReadinessMove} {s : Site}

theorem Site.now_le_after (s : Site) (events : List Event) : s.now ≤ (s.after events).now := by
  induction events generalizing s with
  | nil => exact Nat.le_refl _
  | cons event events ih =>
    refine Nat.le_trans ?_ (ih (s.happens event))
    cases event with
    | passed time => exact Nat.le_add_right _ _
    | _ => exact Nat.le_refl _

/-- What follows a request only matters for the replies it can have. -/
theorem guarantees_step_congr {q : Ask} {f g : Answer q → ReadinessM α}
    (h : ∀ s' c v s'' past, s.now ≤ s'.now → askAnswer s' q c = (.ok v, s'') →
      (site.Guarantees G (f v).run post past s'' ↔ site.Guarantees G (g v).run post past s'')) :
    site.Guarantees G (step q >>= f).run post past s ↔
      site.Guarantees G (step q >>= g).run post past s := by
  refine forall_congr' fun events => imp_congr_right fun _ => and_congr_right fun _ => ?_
  refine forall_congr' fun c => imp_congr_right fun _ => and_congr_right fun _ => ?_
  change site.Guarantees G (ExceptT.bindCont f (askAnswer (s.after events) q c).1) post _
      (askAnswer (s.after events) q c).2 ↔
    site.Guarantees G (ExceptT.bindCont g (askAnswer (s.after events) q c).1) post _
      (askAnswer (s.after events) q c).2
  rcases hr : askAnswer (s.after events) q c with ⟨e | v, s''⟩
  · exact Iff.rfl
  · exact h _ c v s'' _ (s.now_le_after events) hr

theorem guarantees_query_congr {f g : Except String ℕ → ReadinessM α}
    (hexact : ∀ count, f (.ok count) = g (.ok count))
    (h : ∀ detail s' past, s.now ≤ s'.now →
      (site.Guarantees G (f (.error detail)).run post past s' ↔
        site.Guarantees G (g (.error detail)).run post past s')) :
    site.Guarantees G (query >>= f).run post past s ↔
      site.Guarantees G (query >>= g).run post past s := by
  refine forall_congr' fun events => imp_congr_right fun _ => and_congr_right fun _ => ?_
  refine forall_congr' fun reply => imp_congr_right fun _ => and_congr_right fun _ => ?_
  rcases reply with e | count
  · change site.Guarantees G ((if e.isUpdateError then pure (.error e.message)
        else throw e : ReadinessM (Except String ℕ)) >>= f).run post _ _ ↔
      site.Guarantees G ((if e.isUpdateError then pure (.error e.message)
        else throw e : ReadinessM (Except String ℕ)) >>= g).run post _ _
    split
    · exact h e.message _ _ (s.now_le_after events)
    · exact Iff.rfl
  · change site.Guarantees G (f (.ok count)).run post _ _ ↔
      site.Guarantees G (g (.ok count)).run post _ _
    rw [hexact]

/-- **The rounds are enough.** With one round for every five seconds that are left, a further round
changes nothing: the time is over before the last one. -/
theorem poll_rounds (c : UpdateConfiguration) (args : Arguments) (deadline : ℕ)
    {post : Except Err Printed → List ReadinessMove → Site → Prop} :
    ∀ (rounds : ℕ) (lastDetail : String) (past : List ReadinessMove) (s : Site),
      deadline ≤ s.now + rounds * (5 * second) →
      (site.Guarantees G (poll c args deadline (rounds + 1) lastDetail).run post past s ↔
        site.Guarantees G (poll c args deadline (rounds + 2) lastDetail).run post past s) := by
  intro rounds
  induction rounds with
  | zero =>
    intro lastDetail past s hdeadline
    rw [poll, poll]
    refine guarantees_step_congr fun s' c now s'' past hlater hanswer => ?_
    obtain ⟨hnow, rfl⟩ := Prod.mk.inj hanswer
    obtain rfl := Except.ok.inj hnow
    have hover : ¬ s'.now < deadline := by omega
    rw [if_neg hover, if_neg hover]
  | succ rounds ih =>
    intro lastDetail past s hdeadline
    rw [poll, poll.eq_def]
    refine guarantees_step_congr fun s₁ c now s₁' past hlater₁ hanswer => ?_
    obtain ⟨hnow, rfl⟩ := Prod.mk.inj hanswer
    obtain rfl := Except.ok.inj hnow
    split
    · refine guarantees_step_congr fun s₂ c alive s₂' past hlater₂ hanswer => ?_
      obtain ⟨-, rfl⟩ := Prod.mk.inj hanswer
      split
      · refine guarantees_query_congr (fun count => rfl) fun detail s₃ past hlater₃ => ?_
        refine guarantees_step_congr fun s₄ c now s₄' past hlater₄ hanswer => ?_
        obtain ⟨hnow, rfl⟩ := Prod.mk.inj hanswer
        obtain rfl := Except.ok.inj hnow
        refine guarantees_step_congr fun s₅ longer _ s₅' past hlater₅ hanswer => ?_
        obtain ⟨-, rfl⟩ := Prod.mk.inj hanswer
        refine ih detail past _ ?_
        have hround : (rounds + 1) * (5 * second) = rounds * (5 * second) + 5 * second :=
          Nat.succ_mul _ _
        dsimp only
        omega
      · exact Iff.rfl
    · exact Iff.rfl

end Rounds

end Readiness

end PzServer
