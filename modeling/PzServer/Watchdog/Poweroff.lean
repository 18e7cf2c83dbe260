import PzServer.Interaction.Traces
import PzServer.Watchdog.Shutdown

/-!
# When the host is powered off

Every request to the host may be answered in any way, and still a tick of the watchdog powers the
host off only after a fixed sequence of moves. `PowerOffJustified` describes them, from the last one
back to the first: the guard, the two verifications of the stop, the stop, the last query, the save,
the query before it, the guard, the final checks, and the tick's own query.

Each function of the components gets one lemma about the moves it adds. From the power controller
upwards the lemmas say instead that the function is `Careful`: it powers the host off only where the
moves before it justify that.

## Main results

* `WatchdogRun.poweroff_justified` — the whole loop is careful
-/

namespace PzServer

namespace Watchdog

open Interaction

/-! ### What a host was told -/

/-- A players command whose reply was read as `r`. -/
def CountReply (r : Except Err ℕ) (m : HostMove) : Prop :=
  ∃ reply, m = ⟨.rcon "players", reply, (), ()⟩ ∧ (responseOf reply >>= parsePlayerCount) = r

/-- A move between the reply that counts and the start of its query: a failed attempt, or the pause
after one. -/
def FailedQuery (settings : Settings) (m : HostMove) : Prop :=
  m.request = .sleep settings.rconRetryDelaySeconds ∨ ∃ e, CountReply (.error e) m

/-- A query, with all its attempts, that ended in a reply of exactly `count` players. -/
def KnownQuery (settings : Settings) (count : ℕ) (moves : List HostMove) : Prop :=
  ∃ reply failed, moves = reply :: failed ∧ CountReply (.ok count) reply ∧
    ∀ m ∈ failed, FailedQuery settings m

/-- A move between the confirmation and the start of the save. -/
def FailedSave (settings : Settings) (m : HostMove) : Prop :=
  m.request = .sleep settings.rconRetryDelaySeconds ∨ m.request = .rcon "save"

/-- A save, with all its attempts, that ended in a reply of exactly the confirmation. -/
def Saved (settings : Settings) (moves : List HostMove) : Prop :=
  ∃ reply failed response, moves = ⟨.rcon "save", reply, (), ()⟩ :: failed ∧
    responseOf reply = .ok response ∧
    isSaveConfirmation (Text.strip (Text.removeAnsi response)) = true ∧
    ∀ m ∈ failed, FailedSave settings m

/-- The final checks of the engine: `n` times a pause and a query. -/
def FinalChecks (settings : Settings) : ℕ → List HostMove → Prop
  | 0, moves => moves = []
  | n + 1, moves => ∃ rest query pause, moves = rest ++ query ++ [pause] ∧
      pause.request = .sleep settings.finalCheckDelaySeconds ∧ KnownQuery settings 0 query ∧
      FinalChecks settings n rest

/-- The guard file was read, and was exact. -/
def ExactGuard (moves : List HostMove) : Prop :=
  ∃ metadata content,
    moves = [⟨.readGuard, .ok content, (), ()⟩, ⟨.lstatGuard, .ok metadata, (), ()⟩] ∧
    SystemdPowerController.isExactGuard metadata content = true

/-- The service was looked up, and has exactly this container. -/
def LooksUp (service : String) (identifier : Text) (m : HostMove) : Prop :=
  ∃ stdout stderr,
    m = ⟨.compose ["ps", "--quiet", "--all", service], .completed 0 stdout stderr, (), ()⟩ ∧
    Text.splitlines (Text.strip stdout) = [identifier]

/-- The container was inspected, and showed every sign of a clean exit. -/
def InspectsClean (identifier : Text) (m : HostMove) : Prop :=
  ∃ entries stderr,
    m = ⟨.inspect identifier, .completed 0 (some (.dict entries)) stderr, (), ()⟩ ∧
    DockerComposeService.isCleanExit (.dict entries) = true

/-- The service was stopped. -/
def Stops (settings : Settings) (m : HostMove) : Prop :=
  ∃ stdout stderr, m = ⟨.compose ["stop", "--timeout", toString settings.serviceStopTimeoutSeconds,
    settings.composeService], .completed 0 stdout stderr, (), ()⟩

/-- The container was found, the service was stopped, and the same container was inspected and found
again. -/
def StopsCleanly (settings : Settings) (identifier : Text) (moves : List HostMove) : Prop :=
  ∃ before stop inspect after_, moves = [after_, inspect, stop, before] ∧
    LooksUp settings.composeService identifier before ∧ Stops settings stop ∧
    InspectsClean identifier inspect ∧ LooksUp settings.composeService identifier after_

/-- The container was found and inspected once more. -/
def StaysStopped (settings : Settings) (identifier : Text) (moves : List HostMove) : Prop :=
  ∃ lookup inspect, moves = [inspect, lookup] ∧
    LooksUp settings.composeService identifier lookup ∧ InspectsClean identifier inspect

/-- The settings and the platform let this host be powered off. -/
structure MayPowerOff (settings : Settings) (platform : Platform) : Prop where
  environment : settings.deploymentEnvironment = "aws"
  enabled : settings.hostShutdownEnabled = true
  posix : platform.osName ≠ "nt"
  linux : platform.system = "Linux"

/-- The moves of a tick, newest first, after which the host may be powered off. -/
structure PowerOffJustified (settings : Settings) (platform : Platform) (moves : List HostMove) :
    Prop where
  wet : settings.dryRun = false
  permitted : MayPowerOff settings platform
  witnessed : ∃ own finals guard before saved settle after_ stopped verified guard' identifier,
    moves = guard' ++ verified ++ stopped ++ after_ ++ [settle] ++ saved ++ before ++ guard ++
      finals ++ own ∧
    KnownQuery settings 0 own ∧ FinalChecks settings (settings.finalCheckCount - 1) finals ∧
    ExactGuard guard ∧ KnownQuery settings 0 before ∧ Saved settings saved ∧
    settle.request = .sleep 10 ∧ KnownQuery settings 0 after_ ∧
    StopsCleanly settings identifier stopped ∧ StaysStopped settings identifier verified ∧
    ExactGuard guard'

/-- Any move but to power off. -/
def Harmless (m : HostMove) : Prop := m.request ≠ .poweroff

/-! ### Rules -/

section Rules

variable {α : Type} {P : α → List HostMove → Prop} {E : Err → List HostMove → Prop}

theorem ask_traces {q : HostRequest} (hq : q ≠ .poweroff) {P : HostReply q → List HostMove → Prop}
    (h : ∀ reply, P reply [⟨q, reply, (), ()⟩]) : host.Traces Harmless (ask q) P E :=
  World.traces_request fun _ reply _ => ⟨hq, h reply⟩

theorem ask_only {q : HostRequest} (hq : q ≠ .poweroff) : host.Only Harmless (ask q) :=
  ask_traces hq fun _ => trivial

theorem ask_bind_traces {β : Type} {q : HostRequest} (hq : q ≠ .poweroff)
    {f : HostReply q → HostM β} {P : β → List HostMove → Prop}
    (h : ∀ reply, host.Traces Harmless (f reply) (fun b l => P b (l ++ [⟨q, reply, (), ()⟩]))
      fun e l => E e (l ++ [⟨q, reply, (), ()⟩])) :
    host.Traces Harmless (ask q >>= f) P E := by
  refine World.Traces.bind (E := fun _ _ => False) (P := fun reply l => l = [⟨q, reply, (), ()⟩])
    (ask_traces hq fun _ => rfl) ?_ fun _ _ h => h.elim
  rintro reply _ rfl
  exact h reply

theorem raising_traces {r : Except Err α} (hok : ∀ a, r = .ok a → P a [])
    (herr : ∀ e, r = .error e → E e []) : host.Traces Harmless (raising r) P E := by
  cases r with
  | ok a => exact World.traces_pure (hok a rfl)
  | error e => exact World.traces_throw (herr e rfl)

theorem raising_bind_traces {β : Type} {r : Except Err α} {f : α → HostM β}
    {P : β → List HostMove → Prop} (hok : ∀ a, r = .ok a → host.Traces Harmless (f a) P E)
    (herr : ∀ e, r = .error e → E e []) : host.Traces Harmless (raising r >>= f) P E := by
  cases r with
  | ok a => exact hok a rfl
  | error e => exact World.traces_throw (herr e rfl)

end Rules

/-! ### RCON -/

section Rcon

theorem run_traces (command : String) : host.Traces Harmless (RconCliClient.run command)
    (fun response l =>
      ∃ reply, l = [⟨.rcon command, reply, (), ()⟩] ∧ responseOf reply = .ok response)
    (fun e l => ∃ reply, l = [⟨.rcon command, reply, (), ()⟩] ∧ responseOf reply = .error e) := by
  refine ask_bind_traces (fun h => by cases h) fun reply => ?_
  exact raising_traces (fun response h => ⟨reply, rfl, h⟩) fun e h => ⟨reply, rfl, h⟩

/-- What an attempt of a query returns, and how its reply was read. -/
def Attempted : Except String ℕ → HostMove → Prop
  | .ok count, m => CountReply (.ok count) m
  | .error _, m => ∃ e, CountReply (.error e) m

theorem queryAttempt_traces : host.Traces Harmless queryAttempt
    (fun r l => ∃ m, l = [m] ∧ Attempted r m) (fun _ _ => True) := by
  refine World.Traces.tryCatch (E := fun e l => ∃ m, l = [m] ∧ CountReply (.error e) m) ?_ ?_
  · refine (run_traces "players").bind ?_ ?_
    · rintro response _ ⟨reply, rfl, hreply⟩
      have hread : (responseOf reply >>= parsePlayerCount) = parsePlayerCount response := by
        rw [hreply]
        rfl
      refine raising_bind_traces (fun count hcount => ?_) fun e he => ?_
      · exact World.traces_pure ⟨_, rfl, reply, rfl, hread.trans hcount⟩
      · exact ⟨_, rfl, reply, rfl, hread.trans he⟩
    · rintro e _ ⟨reply, rfl, hreply⟩
      exact ⟨_, rfl, reply, rfl, by rw [hreply]; rfl⟩
  · rintro e _ ⟨m, rfl, hm⟩
    cases e with
    | rcon text | os text | value text => exact World.traces_pure ⟨m, rfl, _, hm⟩
    | serviceInspection text => exact World.traces_throw trivial

variable {settings : Settings}

theorem KnownQuery.append {count : ℕ} {moves failed : List HostMove}
    (h : KnownQuery settings count moves) (hf : ∀ m ∈ failed, FailedQuery settings m) :
    KnownQuery settings count (moves ++ failed) := by
  obtain ⟨reply, failed', rfl, hreply, hfailed⟩ := h
  refine ⟨reply, failed' ++ failed, rfl, hreply, fun m hm => ?_⟩
  rcases List.mem_append.mp hm with hm | hm
  · exact hfailed m hm
  · exact hf m hm

/-- The pause after a failed attempt, if there is one, and what follows. -/
theorem pause_traces {α : Type} {n : ℕ} {seconds : ℚ} {rest : HostM α}
    {ok ok' : α → List HostMove → Prop} (h : host.Traces Harmless rest ok fun _ _ => True)
    (hok : ∀ a l pause, (∀ m ∈ pause, m.request = .sleep seconds) → ok a l → ok' a (l ++ pause)) :
    host.Traces Harmless (if n ≠ 0 then ask (.sleep seconds) >>= fun _ => rest else rest) ok'
      fun _ _ => True := by
  split
  · refine ask_bind_traces (fun h => by cases h) fun _ => ?_
    refine h.mono (fun a l hl => hok a l _ (fun m hm => ?_) hl) fun _ _ _ => trivial
    rw [List.mem_singleton.mp hm]
  · refine h.mono (fun a l hl => ?_) fun _ _ _ => trivial
    simpa using hok a l [] (by simp) hl

theorem queryFrom_traces : ∀ (n : ℕ) (text : String),
    host.Traces Harmless (queryFrom settings.rconRetryDelaySeconds n text)
      (fun o l => ∀ count, o.count = some count → KnownQuery settings count l) (fun _ _ => True)
  | 0, text => World.traces_pure fun _ h => by cases h
  | n + 1, text => by
    refine queryAttempt_traces.bind ?_ fun _ _ _ => trivial
    rintro (text | count) _ ⟨m, rfl, hm⟩
    · refine pause_traces (queryFrom_traces n text) ?_
      intro o l pause hpause hl count hcount
      rw [List.append_assoc]
      refine (hl count hcount).append fun m' hm' => ?_
      rcases List.mem_append.mp hm' with hm' | hm'
      · exact .inl (hpause m' hm')
      · rw [List.mem_singleton.mp hm']
        exact .inr hm
    · refine World.traces_pure fun count' h => ?_
      cases h
      exact ⟨m, [], rfl, hm, by simp⟩

theorem queryPlayers_traces : host.Traces Harmless (ShutdownCoordinator.queryPlayers settings)
    (fun o l => ∀ count, o.count = some count → KnownQuery settings count l) (fun _ _ => True) :=
  queryFrom_traces _ _

theorem playersAllowShutdown_traces :
    host.Traces Harmless (ShutdownCoordinator.playersAllowShutdown settings false)
      (fun allowed l => allowed = true → KnownQuery settings 0 l) (fun _ _ => True) := by
  refine queryPlayers_traces.bind (fun o l hl => ?_) fun _ _ _ => trivial
  rcases o.cases_count with ⟨hunknown, -⟩ | ⟨hknown, hplayers, -⟩ | ⟨hknown, hplayers, hzero⟩
  · rw [if_pos hunknown]
    exact World.traces_pure fun h => by cases h
  · rw [if_neg (by simp [hknown]), if_pos (by simp [hplayers])]
    exact World.traces_pure fun h => by cases h
  · rw [if_neg (by simp [hknown]), if_neg (by simp [hplayers])]
    exact World.traces_pure fun _ => hl 0 hzero

/-- What an attempt to save returns: whether its reply was the confirmation. -/
theorem saveAttempt_traces : host.Traces Harmless saveAttempt
    (fun saved l => ∃ reply, l = [⟨.rcon "save", reply, (), ()⟩] ∧ (saved = true →
      ∃ response, responseOf reply = .ok response ∧
        isSaveConfirmation (Text.strip (Text.removeAnsi response)) = true)) (fun _ _ => True) := by
  refine World.Traces.tryCatch
    (E := fun _ l => ∃ reply, l = [⟨.rcon "save", reply, (), ()⟩]) ?_ ?_
  · refine (run_traces "save").bind ?_ ?_
    · rintro response _ ⟨reply, rfl, hreply⟩
      split
      · next hsaved => exact World.traces_pure ⟨reply, rfl, fun _ => ⟨response, hreply, hsaved⟩⟩
      · exact World.traces_throw ⟨reply, rfl⟩
    · rintro e _ ⟨reply, rfl, -⟩
      exact ⟨reply, rfl⟩
  · rintro e _ ⟨reply, rfl⟩
    cases e with
    | rcon text | os text => exact World.traces_pure ⟨reply, rfl, fun h => by cases h⟩
    | value text | serviceInspection text => exact World.traces_throw trivial

theorem Saved.append {moves failed : List HostMove} (h : Saved settings moves)
    (hf : ∀ m ∈ failed, FailedSave settings m) : Saved settings (moves ++ failed) := by
  obtain ⟨reply, failed', response, rfl, hreply, hconfirmed, hfailed⟩ := h
  refine ⟨reply, failed' ++ failed, response, rfl, hreply, hconfirmed, fun m hm => ?_⟩
  rcases List.mem_append.mp hm with hm | hm
  · exact hfailed m hm
  · exact hf m hm

theorem saveFrom_traces : ∀ n : ℕ,
    host.Traces Harmless (saveFrom settings.rconRetryDelaySeconds n)
      (fun saved l => saved = true → Saved settings l) (fun _ _ => True)
  | 0 => World.traces_pure fun h => by cases h
  | n + 1 => by
    refine saveAttempt_traces.bind ?_ fun _ _ _ => trivial
    rintro (_ | _) _ ⟨reply, rfl, hsaved⟩
    · refine pause_traces (saveFrom_traces n) ?_
      intro saved l pause hpause hl hsaved
      rw [List.append_assoc]
      refine (hl hsaved).append fun m hm => ?_
      rcases List.mem_append.mp hm with hm | hm
      · exact .inl (hpause m hm)
      · rw [List.mem_singleton.mp hm]
        exact .inr rfl
    · obtain ⟨response, hreply, hconfirmed⟩ := hsaved rfl
      exact World.traces_pure fun _ => ⟨reply, [], response, rfl, hreply, hconfirmed, by simp⟩

end Rcon

/-! ### The guard -/

theorem eligible_traces {settings : Settings} {platform : Platform} :
    host.Traces Harmless (SystemdPowerController.eligible settings platform)
      (fun eligible l => eligible = true → MayPowerOff settings platform ∧ ExactGuard l)
      (fun _ _ => True) := by
  unfold SystemdPowerController.eligible
  split_ifs with hplatform hsettings
  · exact World.traces_pure fun h => by cases h
  · exact World.traces_pure fun h => by cases h
  · have hmay : MayPowerOff settings platform := by
      simp only [not_or, not_not, ne_eq, Bool.not_eq_true'] at hplatform hsettings
      exact ⟨hsettings.1, by simpa using hsettings.2, hplatform.1, hplatform.2⟩
    refine World.Traces.tryCatch (E := fun _ _ => True) ?_ ?_
    · refine ask_bind_traces (fun h => by cases h) fun status => ?_
      refine raising_bind_traces (fun metadata hmetadata => ?_) fun _ _ => trivial
      refine ask_bind_traces (fun h => by cases h) fun text => ?_
      refine raising_bind_traces (fun content hcontent => ?_) fun _ _ => trivial
      subst hmetadata hcontent
      exact World.traces_pure fun hexact => ⟨hmay, metadata, content, rfl, hexact⟩
    · rintro e l -
      cases e with
      | os _ => exact World.traces_pure fun h => by cases h
      | rcon _ | value _ | serviceInspection _ => exact World.traces_throw trivial

/-! ### The container -/

section Container

open DockerComposeService

variable {settings : Settings} {service : String}

theorem exceptInspection_traces {α : Type} {body handler : HostM α}
    {ok : α → List HostMove → Prop} (h : host.Traces Harmless body ok fun _ _ => True)
    (hhandler : ∀ l, host.Traces Harmless handler (fun a l' => ok a (l' ++ l)) fun _ _ => True) :
    host.Traces Harmless (exceptInspection body handler) ok fun _ _ => True := by
  refine h.tryCatch fun e l _ => ?_
  cases e with
  | serviceInspection _ => exact hhandler l
  | rcon _ | os _ | value _ => exact World.traces_throw trivial

theorem runCompose_traces (arguments : List String) :
    host.Traces Harmless (runCompose arguments)
      (fun result l => ∃ reply, l = [⟨.compose arguments, reply, (), ()⟩] ∧
        (result.1 = 0 → ∃ stderr, reply = .completed 0 result.2 stderr)) fun _ _ => True := by
  refine ask_bind_traces (fun h => by cases h) fun reply => ?_
  cases reply with
  | completed returncode stdout stderr =>
    refine World.traces_pure ⟨_, rfl, fun h => ?_⟩
    obtain rfl : returncode = 0 := h
    exact ⟨stderr, rfl⟩
  | osError _ | timeoutExpired => exact World.traces_pure ⟨_, rfl, fun h => by cases h⟩
  | valueError _ => exact World.traces_throw trivial

theorem containerId_traces : host.Traces Harmless (containerId service)
    (fun found l => ∃ m, l = [m] ∧ ∀ identifier, found = some identifier →
      LooksUp service identifier m) fun _ _ => True := by
  refine (runCompose_traces _).bind ?_ fun _ _ _ => trivial
  rintro ⟨returncode, stdout⟩ _ ⟨reply, rfl, hreply⟩
  dsimp only
  split_ifs with hcode
  · exact World.traces_throw trivial
  · obtain ⟨stderr, rfl⟩ := hreply (not_not.mp hcode)
    split
    · exact World.traces_pure ⟨_, rfl, fun _ h => by cases h⟩
    · next identifier hlines =>
      refine World.traces_pure ⟨_, rfl, fun identifier' h => ?_⟩
      obtain rfl : identifier = identifier' := by simpa using h
      exact ⟨stdout, stderr, rfl, hlines⟩
    · exact World.traces_throw trivial

theorem inspectContainerState_traces (identifier : Text) :
    host.Traces Harmless (inspectContainerState identifier)
      (fun state l => ∃ m, l = [m] ∧ (isCleanExit state = true → InspectsClean identifier m))
      fun _ _ => True := by
  refine ask_bind_traces (fun h => by cases h) fun reply => ?_
  cases reply with
  | osError _ | timeoutExpired | valueError _ => exact World.traces_throw trivial
  | completed returncode stdout stderr =>
    dsimp only
    split_ifs with hcode
    · exact World.traces_throw trivial
    · obtain rfl : returncode = 0 := not_not.mp hcode
      split
      · exact World.traces_throw trivial
      · next entries => exact World.traces_pure ⟨_, rfl, fun h => ⟨entries, stderr, rfl, h⟩⟩
      · exact World.traces_throw trivial

theorem verifyStopped_traces (identifier : Text) :
    host.Traces Harmless (verifyStopped service identifier)
      (fun stopped l => stopped = true → ∃ lookup inspect, l = [lookup, inspect] ∧
        InspectsClean identifier inspect ∧ LooksUp service identifier lookup) fun _ _ => True := by
  refine exceptInspection_traces ?_ fun _ => World.traces_pure fun h => by cases h
  refine (inspectContainerState_traces identifier).bind ?_ fun _ _ _ => trivial
  rintro state _ ⟨inspect, rfl, hinspect⟩
  split_ifs with hclean
  · exact World.traces_pure fun h => by cases h
  · refine exceptInspection_traces ?_ fun _ => World.traces_pure fun h => by cases h
    refine containerId_traces.bind ?_ fun _ _ _ => trivial
    rintro found _ ⟨lookup, rfl, hlookup⟩
    refine World.traces_pure fun hfound => ?_
    exact ⟨lookup, inspect, rfl, hinspect (by simpa using hclean),
      hlookup identifier (of_decide_eq_true hfound)⟩

theorem gracefulStop_traces :
    host.Traces Harmless
      (gracefulStop settings.composeService settings.serviceStopTimeoutSeconds)
      (fun result l => result.1 = true →
        ∃ identifier, result.2 = some identifier ∧ StopsCleanly settings identifier l)
      fun _ _ => True := by
  refine World.Traces.bind (E := fun _ _ => True)
    (P := fun found l => ∀ identifier, found = some identifier →
      ∃ lookup, l = [lookup] ∧ LooksUp settings.composeService identifier lookup) ?_ ?_
      fun _ _ _ => trivial
  · refine exceptInspection_traces (containerId_traces.mono ?_ fun _ _ _ => trivial) fun _ =>
      World.traces_pure fun _ h => by cases h
    rintro found _ ⟨lookup, rfl, hlookup⟩ identifier rfl
    exact ⟨lookup, rfl, hlookup identifier rfl⟩
  · rintro (_ | identifier) l hl
    · exact World.traces_pure fun h => by cases h
    · obtain ⟨before, rfl, hbefore⟩ := hl identifier rfl
      refine (runCompose_traces _).bind ?_ fun _ _ _ => trivial
      rintro ⟨returncode, stdout⟩ _ ⟨reply, rfl, hreply⟩
      dsimp only
      split_ifs with hcode
      · exact World.traces_pure fun h => by cases h
      · obtain ⟨stderr, rfl⟩ := hreply (not_not.mp hcode)
        refine (verifyStopped_traces identifier).bind ?_ fun _ _ _ => trivial
        rintro (_ | _) l hverified
        · exact World.traces_pure fun h => by cases h
        · obtain ⟨lookup, inspect, rfl, hinspect, hlookup⟩ := hverified rfl
          exact World.traces_pure fun _ => ⟨identifier, rfl, before, _, inspect, lookup, rfl,
            hbefore, ⟨stdout, stderr, rfl⟩, hinspect, hlookup⟩

theorem isStopped_traces (identifier : Text) :
    host.Traces Harmless (isStopped settings.composeService (some identifier))
      (fun stopped l => stopped = true → StaysStopped settings identifier l) fun _ _ => True := by
  refine World.Traces.bind (E := fun _ _ => True)
    (P := fun found l => ∀ identifier, found = some (some identifier) →
      ∃ lookup, l = [lookup] ∧ LooksUp settings.composeService identifier lookup) ?_ ?_
      fun _ _ _ => trivial
  · refine exceptInspection_traces ?_ fun _ => World.traces_pure fun _ h => by cases h
    refine containerId_traces.bind ?_ fun _ _ _ => trivial
    rintro found _ ⟨lookup, rfl, hlookup⟩
    refine World.traces_pure fun identifier h => ?_
    exact ⟨lookup, rfl, hlookup identifier (Option.some.inj h)⟩
  · rintro (_ | _ | found) l hl
    · exact World.traces_pure fun h => by cases h
    · exact World.traces_pure fun h => by cases h
    · obtain ⟨lookup, rfl, hlookup⟩ := hl found rfl
      dsimp only
      split_ifs with hne
      · exact World.traces_pure fun h => by cases h
      · obtain rfl : found = identifier := not_not.mp hne
        refine exceptInspection_traces ?_ fun _ => World.traces_pure fun h => by cases h
        refine (inspectContainerState_traces found).bind ?_ fun _ _ _ => trivial
        rintro state _ ⟨inspect, rfl, hinspect⟩
        exact World.traces_pure fun hclean => ⟨lookup, inspect, rfl, hlookup, hinspect hclean⟩

theorem health_only : host.Only Harmless (health service) := by
  refine exceptInspection_traces ?_ fun _ => World.only_pure
  refine World.Only.bind ?_ fun _ => World.only_pure
  refine containerId_traces.only.bind ?_
  rintro (_ | identifier)
  · exact World.only_pure
  · exact (inspectContainerState_traces identifier).only.bind fun _ => World.only_pure

theorem waitUntilHealthy_only : host.Only Harmless (waitUntilHealthy service) := by
  refine (ask_only fun h => by cases h).bind fun n => ?_
  induction n with
  | zero => exact World.only_pure
  | succ n ih =>
    refine health_only.bind fun health => ?_
    split_ifs
    · exact World.only_pure
    · exact (ask_only fun h => by cases h).bind fun _ => ih

theorem restart_only : host.Only Harmless (restart service) := by
  refine (runCompose_traces _).only.bind ?_
  rintro ⟨returncode, stdout⟩
  dsimp only
  split_ifs
  · exact World.only_pure
  · exact waitUntilHealthy_only

theorem start_only : host.Only Harmless (start service) := by
  refine (runCompose_traces _).only.bind ?_
  rintro ⟨returncode, stdout⟩
  dsimp only
  split_ifs
  · exact waitUntilHealthy_only
  · exact World.only_pure

end Container

/-! ### The coordinator -/

/-- A move to power off comes after what permits it. -/
def Justified (settings : Settings) (platform : Platform) (past : List HostMove) (m : HostMove) :
    Prop :=
  m.request = .poweroff → PowerOffJustified settings platform past

section Coordinator

variable {settings : Settings} {platform : Platform} {past : List HostMove}

theorem Harmless.justified {past : List HostMove} {m : HostMove} (h : Harmless m) :
    Justified settings platform past m := fun hm => absurd hm h

/-- A program that ends in whatever way, but powers the host off only where that is justified. -/
abbrev Careful (settings : Settings) (platform : Platform) {α : Type} (p : HostM α)
    (past : List HostMove) : Prop :=
  host.Ensures (Justified settings platform) p (fun _ _ _ => True) (fun _ _ _ => True) past ()

theorem careful_of_only {α : Type} {p : HostM α} (h : host.Only Harmless p) :
    Careful settings platform p past :=
  h.ensures fun _ _ => Harmless.justified

theorem careful_bind {α β : Type} {p : HostM α} {f : α → HostM β} {ok : α → List HostMove → Prop}
    {err : Err → List HostMove → Prop} (h : host.Traces Harmless p ok err)
    (hf : ∀ a new, ok a new → Careful settings platform (f a) (new ++ past)) :
    Careful settings platform (p >>= f) past :=
  h.then (fun _ _ => Harmless.justified) (fun a new _ => hf a new) fun _ _ _ _ => trivial

theorem careful_pure {α : Type} {a : α} : Careful settings platform (pure a) past :=
  World.ensures_pure trivial

theorem shutdown_careful (h : ∀ guard', MayPowerOff settings platform → ExactGuard guard' →
      PowerOffJustified settings platform (guard' ++ past)) :
    Careful settings platform (SystemdPowerController.shutdown settings platform) past := by
  refine careful_bind eligible_traces ?_
  rintro (_ | _) guard' hguard
  · exact careful_pure
  · obtain ⟨hmay, hexact⟩ := hguard rfl
    refine .bind (World.ensures_request fun reply _ => ⟨fun _ => h guard' hmay hexact, ?_⟩)
    cases reply with
    | completed _ _ _ | osError _ | timeoutExpired => exact careful_pure
    | valueError _ => exact World.ensures_throw trivial

theorem powerOff_careful (h : ∀ guard', MayPowerOff settings platform → ExactGuard guard' →
      PowerOffJustified settings platform (guard' ++ past)) :
    Careful settings platform (ShutdownCoordinator.powerOff settings platform) past := by
  refine .bind ((shutdown_careful h).mono ?_ fun _ _ _ _ => trivial)
  rintro (_ | _) past' _ -
  · exact careful_of_only (start_only.bind fun _ => World.only_pure)
  · exact careful_pure

theorem stopAndPowerOff_careful (h : ∀ identifier stopped verified guard',
      MayPowerOff settings platform → StopsCleanly settings identifier stopped →
      StaysStopped settings identifier verified → ExactGuard guard' →
      PowerOffJustified settings platform (guard' ++ (verified ++ (stopped ++ past)))) :
    Careful settings platform (ShutdownCoordinator.stopAndPowerOff settings platform) past := by
  refine careful_bind gracefulStop_traces ?_
  rintro ⟨_ | _, found⟩ stopped hstopped
  · exact careful_pure
  · obtain ⟨identifier, hfound, hclean⟩ := hstopped rfl
    obtain rfl : found = some identifier := hfound
    refine careful_bind (isStopped_traces identifier) ?_
    rintro (_ | _) verified hverified
    · exact careful_pure
    · refine .bind ((powerOff_careful fun guard' hmay hguard => ?_).mono
        (fun _ _ _ _ => careful_pure) fun _ _ _ _ => trivial)
      exact h identifier stopped verified guard' hmay hclean (hverified rfl) hguard

theorem execute_careful {finals own : List HostMove} {verified : Option Text}
    (hown : KnownQuery settings 0 own)
    (hfinals : FinalChecks settings (settings.finalCheckCount - 1) finals) :
    Careful settings platform
      (ShutdownCoordinator.execute settings platform settings.dryRun false verified)
      (finals ++ own) := by
  unfold ShutdownCoordinator.execute
  split_ifs with hdry
  · exact careful_pure
  · refine careful_bind eligible_traces ?_
    rintro (_ | _) guard hguard
    · exact careful_pure
    · refine careful_bind playersAllowShutdown_traces ?_
      rintro (_ | _) before hbefore
      · exact careful_pure
      · refine careful_bind (saveFrom_traces _) ?_
        rintro (_ | _) saved hsaved
        · exact careful_pure
        · refine careful_bind (ask_traces (E := fun _ _ => True)
            (P := fun _ l => ∃ settle, l = [settle] ∧ settle.request = .sleep 10)
            (fun h => by cases h) fun _ => ⟨_, rfl, rfl⟩) ?_
          rintro _ _ ⟨settle, rfl, hsettle⟩
          refine careful_bind playersAllowShutdown_traces ?_
          rintro (_ | _) after_ hafter
          · exact careful_pure
          · refine stopAndPowerOff_careful ?_
            intro identifier stopped verified guard' hmay hstopped hverified hguard'
            refine ⟨by simpa using hdry, hmay, own, finals, guard, before, saved, settle, after_,
              stopped, verified, guard', identifier, ?_, hown, hfinals, (hguard rfl).2,
              hbefore rfl, hsaved rfl, hsettle, hafter rfl, hstopped, hverified, hguard'⟩
            simp

/-! ### The engine -/

/-- `p`, with the components that answer it. -/
abbrev Connected {α : Type} (settings : Settings) (platform : Platform) (p : EngineM ℚ α)
    (verified : Option Text) : HostM (α × Option Text) :=
  p.interpret (buildComponents settings platform) verified

theorem query_traces {verified : Option Text} :
    host.Traces Harmless (buildComponents settings platform .query verified)
      (fun r l => ∀ count, r.1.count = some count → KnownQuery settings count l)
      fun _ _ => True := by
  refine queryPlayers_traces.bind (fun o l hl => ?_) fun _ _ _ => trivial
  exact World.traces_pure hl

theorem finalChecks_traces : ∀ (n : ℕ) (verified : Option Text),
    host.Traces Harmless
      (Connected settings platform (finalChecks (policy settings) n) verified)
      (fun r l => r.1 = true → FinalChecks settings n l) fun _ _ => True
  | 0, _ => World.traces_pure fun _ => rfl
  | n + 1, verified => by
    unfold Connected finalChecks
    simp only [Program.interpret_request_bind]
    refine World.Traces.bind (E := fun _ _ => True)
      (P := fun _ l => ∃ pause, l = [pause] ∧
        pause.request = .sleep settings.finalCheckDelaySeconds) ?_ ?_ fun _ _ _ => trivial
    · exact ask_bind_traces (fun h => by cases h) fun _ => World.traces_pure ⟨_, rfl, rfl⟩
    · rintro ⟨-, verified⟩ _ ⟨pause, rfl, hpause⟩
      refine query_traces.bind ?_ fun _ _ _ => trivial
      rintro ⟨o, verified⟩ query hquery
      dsimp only
      split_ifs with hunknown hplayers
      · exact World.traces_pure fun h => by cases h
      · exact World.traces_pure fun h => by cases h
      · refine (finalChecks_traces n verified).mono ?_ fun _ _ _ => trivial
        intro r rest hrest hconfirmed
        have hzero : KnownQuery settings 0 query :=
          hquery 0 (PlayerObservation.knownZero_of hunknown hplayers)
        exact ⟨rest, query, pause, by simp, hpause, hzero, hrest hconfirmed⟩

theorem finalShutdownValidation_careful {own : List HostMove} {s : WatchdogState ℚ}
    {verified : Option Text} (hown : KnownQuery settings 0 own) :
    Careful settings platform
      (Connected settings platform (finalShutdownValidation (policy settings) s) verified) own := by
  unfold Connected finalShutdownValidation
  rw [Program.interpret_bind]
  refine careful_bind (finalChecks_traces _ verified) ?_
  rintro ⟨_ | _, verified⟩ finals hfinals
  · exact careful_pure
  · simp only [if_true, Program.interpret_request_bind]
    refine .bind ((execute_careful hown (hfinals rfl)).mono ?_ fun _ _ _ _ => trivial)
    rintro ⟨outcome, verified⟩ past _ -
    dsimp only
    split_ifs
    · exact careful_pure
    · exact careful_pure

theorem handleEmpty_careful {own : List HostMove} {now : ℚ} {s : WatchdogState ℚ}
    {verified : Option Text} (hown : KnownQuery settings 0 own) :
    Careful settings platform
      (Connected settings platform (handleEmpty (policy settings) now s) verified) own := by
  unfold handleEmpty
  cases s.emptySince with
  | none => exact careful_pure
  | some emptySince =>
    dsimp only
    split_ifs
    · exact careful_pure
    · exact finalShutdownValidation_careful hown

theorem handleUnknown_only {now : ℚ} {s : WatchdogState ℚ} {verified : Option Text} :
    host.Only Harmless
      (Connected settings platform (handleUnknown (policy settings) now s) verified) := by
  unfold Connected handleUnknown
  simp only [Program.interpret_request_bind]
  refine World.Only.bind (health_only.bind fun _ => World.only_pure) ?_
  rintro ⟨health, verified⟩
  dsimp only
  split_ifs with hhealth
  · split
    · exact World.only_pure
    · split_ifs
      · exact World.only_pure
      · simp only [Program.interpret_request_bind]
        exact World.Only.bind (restart_only.bind fun _ => World.only_pure) fun _ => World.only_pure
  · exact World.only_pure

theorem watchdogTick_careful (now : ℚ) (memory : WatchdogMemory) :
    Careful settings platform (watchdogTick settings platform now memory) [] := by
  unfold watchdogTick tick
  simp only [Program.interpret_request_bind]
  refine careful_bind query_traces ?_
  rintro ⟨o, verified⟩ own hquery
  dsimp only
  split_ifs with hunknown hplayers
  · exact careful_of_only handleUnknown_only
  · exact careful_pure
  · rw [List.append_nil]
    exact handleEmpty_careful (hquery 0 (PlayerObservation.knownZero_of hunknown hplayers))

/-- **No poweroff on doubt.** In every run of the watchdog, a tick powers the host off only after
moves that justify it. -/
theorem WatchdogRun.poweroff_justified {ticks : List (List HostMove)}
    {memory : Option WatchdogMemory} (hrun : WatchdogRun settings platform ticks memory)
    {moves later earlier : List HostMove} {m : HostMove} (hmoves : moves ∈ ticks)
    (hm : moves = later ++ m :: earlier) (hpoweroff : m.request = .poweroff) :
    PowerOffJustified settings platform earlier := by
  induction hrun with
  | start => cases hmoves
  | tick now hrun he ih =>
    rcases List.mem_cons.mp hmoves with rfl | hmoves
    · have hsound := (World.Guarantees.exec (watchdogTick_careful now _) he).2
      exact hsound later m earlier hm (List.nil_suffix) hpoweroff
    · exact ih hmoves

end Coordinator

/-! ### A host that is powered off -/

/-- Settings for the cloud; a host that is empty for ten minutes is powered off. -/
def awsSettings : Settings where
  rconRetryCount := 3
  rconRetryDelaySeconds := 5
  idleTimeoutSeconds := 600
  healthFailureTimeoutSeconds := 300
  finalCheckCount := 2
  finalCheckDelaySeconds := 30
  serviceStopTimeoutSeconds := 120
  dryRun := false
  deploymentEnvironment := "aws"
  hostShutdownEnabled := true
  composeService := "zomboid"
  retries := by decide
  idle_pos := by decide
  health_pos := by decide
  checks := by decide
  delay_pos := by decide

def linux : Platform := ⟨"posix", "Linux"⟩

/-- Nobody is connected, and everything works. -/
def agreeable : host.Oracle := fun _ _ q => match q with
  | .rcon command => .completed 0
    (if command = "save" then "World saved\n" else "Players connected (0):\n\n").toList []
  | .compose _ => .completed 0 "5c1f\n".toList []
  | .inspect _ => .completed 0 (some (.dict [("Status", .str "exited".toList),
      ("Running", .bool false), ("Restarting", .bool false), ("Dead", .bool false),
      ("OOMKilled", .bool false), ("ExitCode", .int 0), ("Error", .str [])])) []
  | .lstatGuard => .ok ⟨true, 0, 0o600⟩
  | .readGuard => .ok guardContent
  | .poweroff => .completed 0 [] []
  | .sleep _ => ()
  | .beforeDeadline _ => (0 : ℕ)

/-- The first tick finds the server empty. -/
def firstTick : Program HostRequest HostReply (Except Err WatchdogMemory) × List HostMove × Unit :=
  host.runFor agreeable 40 (watchdogTick awsSettings linux 0 ({}, none)).run [] ()

/-- What the second tick remembers. -/
def idleMemory : WatchdogMemory := ({ emptySince := some 0, lastProgressAt := some 0 }, none)

/-- The second tick comes ten minutes later. -/
def secondTick : Program HostRequest HostReply (Except Err WatchdogMemory) × List HostMove × Unit :=
  host.runFor agreeable 40 (watchdogTick awsSettings linux 600 idleMemory).run [] ()

theorem secondTick_ne_nil : secondTick.2.1 ≠ [] := by
  have hlength : secondTick.2.1.length = 18 := by decide +kernel
  intro h
  simp [h] at hlength

theorem poweroff_justified_aws :
    (secondTick.2.1.head secondTick_ne_nil).request = .poweroff ∧
      PowerOffJustified awsSettings linux secondTick.2.1.tail := by
  have hpoweroff : (secondTick.2.1.head secondTick_ne_nil).request = .poweroff := by decide +kernel
  have hfirst : WatchdogRun awsSettings linux [firstTick.2.1] (some idleMemory) :=
    .tick 0 .start (host.exec_runFor agreeable 40 _ _ _ (by decide +kernel))
  have hsecond := WatchdogRun.tick 600 hfirst
    (host.exec_runFor agreeable 40 _ [] () (by decide +kernel))
  have hsplit : secondTick.2.1 =
      [] ++ secondTick.2.1.head secondTick_ne_nil :: secondTick.2.1.tail :=
    (List.cons_head_tail secondTick_ne_nil).symm
  exact ⟨hpoweroff,
    WatchdogRun.poweroff_justified hsecond List.mem_cons_self hsplit hpoweroff⟩

end Watchdog

end PzServer
