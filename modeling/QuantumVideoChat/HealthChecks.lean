/-
Health checks of the server (`middleware/server_comms.py`, `configure_server`,
`_health_check_loop`, `start_health_checks`).

`configure_server` is followed here assignment by assignment, with every way its request can
end.  The health-check loop counts failures in a variable of its own; `server_alive` belongs
to both.

* `configureServer_eq` — the coarser handler of `ServerComms` is this one;
* `failed_configuration_changes_nothing_iff` — when a configuration that reports an error has
  left the state alone;
* `health_broadcasts_iff` — the runs in which the loop declares the server down only after
  two failed checks in a row.
-/
import QuantumVideoChat.ServerComms

namespace HealthChecks

open Transition

/-! ### configure_server -/

/-- How the request to `/admin/status` ends; `exc` is the text of the exception. -/
inductive StatusOutcome
  | connectionError
  | timeout (exc : String)
  | httpError (exc : String)
  /-- a success status, and `resp.json()` raises -/
  | notJson (exc : String)
  /-- a JSON body without `get`: the `AttributeError` is not handled -/
  | notObject
  | json
  deriving DecidableEq

def startHealthChecks (state : MiddlewareState) : MiddlewareState :=
  if state.healthGreenlet then state else { state with healthGreenlet := true }

def configureServer (state : MiddlewareState) (sid host : String) (port : ℤ)
    (outcome : StatusOutcome) : MiddlewareState × List BrowserEmission :=
  let couldNotConnect (msg : String) : BrowserEmission :=
    ⟨.serverError ("Could not connect to " ++ host ++ ":" ++ toString port ++ " -- " ++ msg),
      some sid⟩
  if host = "" then (state, [⟨.serverError "No host provided.", some sid⟩])
  else
    match outcome with
    | .connectionError => (state, [couldNotConnect "Connection refused"])
    | .timeout exc => (state, [couldNotConnect exc])
    | .httpError exc => (state, [couldNotConnect exc])
    -- the address is stored before the body is decoded
    | .notJson exc =>
      ({ state with serverHost := host, serverPort := port }, [couldNotConnect exc])
    | .notObject => ({ state with serverHost := host, serverPort := port }, [])
    | .json =>
      (startHealthChecks
          { state with serverHost := host, serverPort := port, serverAlive := true },
        [⟨.serverConnected, some sid⟩])

/-- The outcome as `ServerComms` tells them apart. -/
def StatusOutcome.reply : StatusOutcome → ServerComms.StatusReply
  | .connectionError => .failed "Connection refused"
  | .timeout exc | .httpError exc => .failed exc
  | .notJson _ | .notObject => .notJson
  | .json => .json

/-- For a body that is a page the handler of `ServerComms` is this one. -/
theorem configureServer_eq (w : ServerComms.System) (sid host : String) (port : ℤ)
    {outcome : StatusOutcome} (hobject : outcome ≠ .notObject)
    (hpage : ∀ exc, outcome = .notJson exc → exc = ServerComms.jsonDecodeError) :
    ServerComms.configureServer w sid host port outcome.reply
      = ({ w with state := (configureServer w.state sid host port outcome).1 },
        (configureServer w.state sid host port outcome).2) := by
  unfold ServerComms.configureServer configureServer
  split_ifs
  · rfl
  · cases outcome with
    | connectionError => rfl
    | timeout exc => rfl
    | httpError exc => rfl
    | notJson exc =>
      rw [hpage exc rfl]
      rfl
    | notObject => exact absurd rfl hobject
    | json =>
      cases hgreenlet : w.state.healthGreenlet <;> simp [StatusOutcome.reply, startHealthChecks]

def StatusOutcome.isNotJson : StatusOutcome → Bool
  | .notJson _ => true
  | _ => false

/-- The address, the status of the server and the greenlet are as before. -/
def SameConfiguration (state state' : MiddlewareState) : Prop :=
  state'.serverHost = state.serverHost ∧ state'.serverPort = state.serverPort ∧
    state'.serverAlive = state.serverAlive ∧ state'.healthGreenlet = state.healthGreenlet

instance (state state' : MiddlewareState) : Decidable (SameConfiguration state state') :=
  inferInstanceAs (Decidable (_ ∧ _ ∧ _ ∧ _))

/-- The call told the browser about an error. -/
def ReportsError (emissions : List BrowserEmission) : Prop :=
  ∃ e ∈ emissions, ∃ msg, e.event = .serverError msg

/-- **When a failed configuration changes nothing.**  The body is decoded after the address
has been stored. -/
theorem failed_configuration_changes_nothing_iff (state : MiddlewareState) (sid host : String)
    (port : ℤ) (outcome : StatusOutcome) :
    (ReportsError (configureServer state sid host port outcome).2 →
        SameConfiguration state (configureServer state sid host port outcome).1) ↔
      (outcome.isNotJson = true → host = "" ∨ (host = state.serverHost ∧ port = state.serverPort))
    := by
  unfold configureServer
  split_ifs with hhost
  · simp [SameConfiguration, hhost]
  · cases outcome with
    | connectionError => simp [SameConfiguration, StatusOutcome.isNotJson]
    | timeout exc => simp [SameConfiguration, StatusOutcome.isNotJson]
    | httpError exc => simp [SameConfiguration, StatusOutcome.isNotJson]
    | notObject => simp [ReportsError, StatusOutcome.isNotJson]
    | json => simp [ReportsError, StatusOutcome.isNotJson]
    | notJson exc => simp [ReportsError, SameConfiguration, StatusOutcome.isNotJson, hhost]

/-- A host that answers with a page takes the place of the configured server. -/
theorem page_replaces_server :
    let state : MiddlewareState :=
      { serverHost := "10.0.0.9", serverPort := 5050, serverAlive := true, healthGreenlet := true }
    let after := configureServer state "s1" "10.0.0.8" 80 (.notJson ServerComms.jsonDecodeError)
    ReportsError after.2 ∧ ¬ SameConfiguration state after.1 :=
  ⟨⟨_, List.mem_singleton.mpr rfl, _, rfl⟩, by decide +kernel⟩

/-! ### The health-check loop -/

/-- `_HEALTH_FAILURE_THRESHOLD`. -/
def healthFailureThreshold : ℕ := 2

def healthCheckFailed : BrowserEmission := { event := .serverError "Server health check failed." }

/-- One turn of `_health_check_loop`: the state, the counter and what is emitted; `ok` is the
result of the ping. -/
def healthCheck (state : MiddlewareState) (consecutiveFailures : ℕ) (ok : Bool) :
    MiddlewareState × ℕ × List BrowserEmission :=
  if state.serverHost = "" then
    if state.serverAlive then
      ({ state with serverAlive := false }, consecutiveFailures,
        [{ event := .serverError "Server connection lost." }])
    else (state, consecutiveFailures, [])
  else if ok then
    if state.serverAlive then (state, 0, [])
    else ({ state with serverAlive := true }, 0, [{ event := .serverConnected }])
  else
    let consecutiveFailures := consecutiveFailures + 1
    if healthFailureThreshold ≤ consecutiveFailures ∧ state.serverAlive = true then
      ({ state with serverAlive := false }, consecutiveFailures, [healthCheckFailed])
    else (state, consecutiveFailures, [])

/-- A call of `configure_server` succeeds, or it changes nothing but the address. -/
theorem configureServer_cases (state : MiddlewareState) (sid host : String) (port : ℤ)
    (outcome : StatusOutcome) :
    (host ≠ "" ∧ outcome = .json ∧ configureServer state sid host port outcome
      = ({ state with
            serverHost := host, serverPort := port, serverAlive := true, healthGreenlet := true },
          [⟨.serverConnected, some sid⟩])) ∨
    (¬ (host ≠ "" ∧ outcome = .json) ∧
      (configureServer state sid host port outcome).1.serverAlive = state.serverAlive ∧
      (configureServer state sid host port outcome).1.healthGreenlet = state.healthGreenlet ∧
      ((configureServer state sid host port outcome).1.serverHost = state.serverHost ∨
        (configureServer state sid host port outcome).1.serverHost = host ∧ host ≠ "") ∧
      ((configureServer state sid host port outcome).2 = [] ∨
        ∃ msg, (configureServer state sid host port outcome).2
          = [⟨.serverError msg, some sid⟩])) := by
  unfold configureServer
  split_ifs with hhost
  · exact .inr ⟨fun h => h.1 hhost, rfl, rfl, .inl rfl, .inr ⟨_, rfl⟩⟩
  · cases outcome with
    | connectionError => exact .inr ⟨by simp, rfl, rfl, .inl rfl, .inr ⟨_, rfl⟩⟩
    | timeout exc => exact .inr ⟨by simp, rfl, rfl, .inl rfl, .inr ⟨_, rfl⟩⟩
    | httpError exc => exact .inr ⟨by simp, rfl, rfl, .inl rfl, .inr ⟨_, rfl⟩⟩
    | notJson exc => exact .inr ⟨by simp, rfl, rfl, .inr ⟨rfl, hhost⟩, .inr ⟨_, rfl⟩⟩
    | notObject => exact .inr ⟨by simp, rfl, rfl, .inr ⟨rfl, hhost⟩, .inl rfl⟩
    | json =>
      refine .inl ⟨hhost, rfl, ?_⟩
      simp [startHealthChecks]

/-- A turn of the loop with a ping: it succeeds, it fails and is only counted, or the server
is declared down. -/
theorem healthCheck_cases {state : MiddlewareState} (hhost : state.serverHost ≠ "")
    (consecutiveFailures : ℕ) (ok : Bool) :
    (ok = true ∧ (healthCheck state consecutiveFailures ok).1
        = { state with serverAlive := true } ∧
      (healthCheck state consecutiveFailures ok).2.1 = 0 ∧
      ((state.serverAlive = true ∧ (healthCheck state consecutiveFailures ok).2.2 = []) ∨
        (healthCheck state consecutiveFailures ok).2.2 = [{ event := .serverConnected }])) ∨
    (ok = false ∧ ¬ (0 < consecutiveFailures ∧ state.serverAlive = true) ∧
      healthCheck state consecutiveFailures ok = (state, consecutiveFailures + 1, [])) ∨
    (ok = false ∧ 0 < consecutiveFailures ∧ state.serverAlive = true ∧
      healthCheck state consecutiveFailures ok
        = ({ state with serverAlive := false }, consecutiveFailures + 1, [healthCheckFailed])) := by
  rw [healthCheck, if_neg hhost]
  cases ok with
  | true =>
    refine .inl ⟨rfl, ?_⟩
    cases halive : state.serverAlive with
    | true => exact ⟨by simp [← halive], rfl, .inl ⟨rfl, rfl⟩⟩
    | false => exact ⟨rfl, rfl, .inr rfl⟩
  | false =>
    right
    by_cases hdown : 0 < consecutiveFailures ∧ state.serverAlive = true
    · refine .inr ⟨rfl, hdown.1, hdown.2, ?_⟩
      have hthreshold : healthFailureThreshold ≤ consecutiveFailures + 1 ∧
          state.serverAlive = true := ⟨Nat.succ_le_succ hdown.1, hdown.2⟩
      simp [hthreshold]
    · refine .inl ⟨rfl, hdown, ?_⟩
      have hthreshold : ¬ (healthFailureThreshold ≤ consecutiveFailures + 1 ∧
          state.serverAlive = true) := fun h => hdown ⟨Nat.le_of_succ_le_succ h.1, h.2⟩
      simp [hthreshold]

/-- A broadcast of the loop: the checks made so far, and `server_alive` around it. -/
structure Broadcast where
  checks : List Bool
  aliveBefore : Bool
  aliveAfter : Bool
  deriving DecidableEq

/-- The middleware with its loop.  `checks` lists the results of the checks of the server, the
pings and the successful calls of `configure_server`. -/
structure Monitored where
  state : MiddlewareState := {}
  consecutiveFailures : ℕ := 0
  checks : List Bool := []
  emissions : List BrowserEmission := []
  broadcasts : List Broadcast := []

namespace Monitored

inductive Action
  | configureServer (sid host : String) (port : ℤ) (outcome : StatusOutcome)
  | ping (ok : Bool)

/-- A call of `configure_server`; it checks the server when it succeeds. -/
def configure (w : Monitored) (sid host : String) (port : ℤ) (outcome : StatusOutcome) :
    Monitored :=
  let (state, emissions) := configureServer w.state sid host port outcome
  { w with
    state := state
    checks := w.checks ++ if host ≠ "" ∧ outcome = .json then [true] else []
    emissions := w.emissions ++ emissions }

/-- A turn of the loop, once it has been started. -/
def ping (w : Monitored) (ok : Bool) : Monitored :=
  if w.state.healthGreenlet then
    let (state, consecutiveFailures, emissions) :=
      healthCheck w.state w.consecutiveFailures ok
    let checks := w.checks ++ if w.state.serverHost = "" then [] else [ok]
    { state := state
      consecutiveFailures := consecutiveFailures
      checks := checks
      emissions := w.emissions ++ emissions
      broadcasts := w.broadcasts ++
        if healthCheckFailed ∈ emissions then
          [⟨checks, w.state.serverAlive, state.serverAlive⟩]
        else [] }
  else w

def step (w : Monitored) : Action → Monitored
  | .configureServer sid host port outcome => w.configure sid host port outcome
  | .ping ok => w.ping ok

/-! ### What is claimed of the broadcasts -/

/-- Two broadcasts have a `server-connected` between them. -/
def Separated (emissions : List BrowserEmission) : Prop :=
  ∀ i j, i < j → emissions[i]? = some healthCheckFailed →
    emissions[j]? = some healthCheckFailed →
      ∃ (k : ℕ) (e : BrowserEmission), i < k ∧ k < j ∧ emissions[k]? = some e ∧
        e.event = .serverConnected

/-- The two most recent checks failed. -/
def TwoFailures (checks : List Bool) : Prop := ∃ earlier, checks = earlier ++ [false, false]

/-- The broadcasts are what the threshold of two is for. -/
structure Sound (w : Monitored) : Prop where
  twoFailures : ∀ b ∈ w.broadcasts, TwoFailures b.checks
  changes : ∀ b ∈ w.broadcasts, b.aliveBefore = true ∧ b.aliveAfter = false
  separated : Separated w.emissions

/-- A ping that fails while failures are counted comes right after a failed check: no
`configure_server` has succeeded since the ping before it failed. -/
def CountsInARow (w : Monitored) : Action → Prop
  | .configureServer _ _ _ _ => True
  | .ping ok => ok = false → w.state.healthGreenlet = true → 0 < w.consecutiveFailures →
      w.checks.getLast? = some false

/-! ### Lists of emissions -/

/-- Every broadcast is followed by a `server-connected`. -/
def Answered (emissions : List BrowserEmission) : Prop :=
  ∀ i, emissions[i]? = some healthCheckFailed →
    ∃ (k : ℕ) (e : BrowserEmission), i < k ∧ emissions[k]? = some e ∧
      e.event = .serverConnected

section

variable {emissions : List BrowserEmission} {e : BrowserEmission}

/-- An entry of the longer list is an old one, or the new one at the end. -/
theorem getElem?_concat_cases {i : ℕ} {e' : BrowserEmission}
    (h : (emissions ++ [e])[i]? = some e') :
    (i < emissions.length ∧ emissions[i]? = some e') ∨ (i = emissions.length ∧ e = e') := by
  rcases Nat.lt_or_ge i emissions.length with hlt | hge
  · rw [List.getElem?_append_left hlt] at h
    exact .inl ⟨hlt, h⟩
  · rw [List.getElem?_append_right hge, List.getElem?_singleton] at h
    split_ifs at h with hi
    exact .inr ⟨by omega, Option.some_inj.mp h⟩

theorem getElem?_concat_of_some {i : ℕ} {e' : BrowserEmission} (h : emissions[i]? = some e') :
    (emissions ++ [e])[i]? = some e' := by
  rw [List.getElem?_append_left (List.getElem?_eq_some_iff.mp h).choose]
  exact h

theorem separated_concat (h : Separated emissions)
    (hnew : e = healthCheckFailed → Answered emissions) : Separated (emissions ++ [e]) := by
  intro i j hij hi hj
  rcases getElem?_concat_cases hj with ⟨hjlt, hj'⟩ | ⟨rfl, he⟩
  · rcases getElem?_concat_cases hi with ⟨-, hi'⟩ | ⟨rfl, -⟩
    · obtain ⟨k, e', hik, hkj, hk, hevent⟩ := h i j hij hi' hj'
      exact ⟨k, e', hik, hkj, getElem?_concat_of_some hk, hevent⟩
    · omega
  · -- the new emission is a broadcast, and the earlier one has been taken back
    rcases getElem?_concat_cases hi with ⟨-, hi'⟩ | ⟨rfl, -⟩
    · obtain ⟨k, e', hik, hk, hevent⟩ := hnew he i hi'
      exact ⟨k, e', hik, (List.getElem?_eq_some_iff.mp hk).choose, getElem?_concat_of_some hk,
        hevent⟩
    · omega

theorem answered_concat (h : Answered emissions) (he : e ≠ healthCheckFailed) :
    Answered (emissions ++ [e]) := by
  intro i hi
  rcases getElem?_concat_cases hi with ⟨-, hi'⟩ | ⟨-, hfailed⟩
  · obtain ⟨k, e', hik, hk, hevent⟩ := h i hi'
    exact ⟨k, e', hik, getElem?_concat_of_some hk, hevent⟩
  · exact absurd hfailed he

theorem answered_concat_connected (he : e.event = .serverConnected) :
    Answered (emissions ++ [e]) := by
  intro i hi
  rcases getElem?_concat_cases hi with ⟨hlt, -⟩ | ⟨-, hfailed⟩
  · exact ⟨emissions.length, e, hlt, by simp, he⟩
  · rw [hfailed] at he
    exact absurd he (by simp [healthCheckFailed])

end

/-! ### One step -/

/-- What holds between the loop, the state and the checks. -/
structure Inv (w : Monitored) : Prop where
  configured : w.state.healthGreenlet = true → w.state.serverHost ≠ ""
  counted : 0 < w.consecutiveFailures → w.checks ≠ []
  alive : w.checks.getLast? = some true → w.state.serverAlive = true
  changes : ∀ b ∈ w.broadcasts, b.aliveBefore = true ∧ b.aliveAfter = false
  separated : Separated w.emissions
  /-- once the server is alive again, the last broadcast has been taken back -/
  answered : w.state.serverAlive = true → Answered w.emissions

theorem inv_init : Inv {} where
  configured := by simp
  counted := by simp
  alive := by simp
  changes := by simp
  separated := fun _ _ _ hi => absurd hi (by simp)
  answered := by simp

variable {w : Monitored}

/-- Emissions that are no broadcast keep the broadcasts apart. -/
theorem separated_append {new : List BrowserEmission} (h : Separated w.emissions)
    (hnew : new = [] ∨ ∃ e, new = [e] ∧ e ≠ healthCheckFailed) :
    Separated (w.emissions ++ new) := by
  rcases hnew with rfl | ⟨e, rfl, he⟩
  · rwa [List.append_nil]
  · exact separated_concat h fun heq => absurd heq he

theorem inv_configure (h : Inv w) (sid host : String) (port : ℤ) (outcome : StatusOutcome) :
    Inv (w.configure sid host port outcome) := by
  rcases configureServer_cases w.state sid host port outcome with
    ⟨hhost, houtcome, hcall⟩ | ⟨hnot, halive, hgreenlet, haddress, hemissions⟩
  · -- a successful call brings the server back
    have hstep : w.configure sid host port outcome
        = { w with
            state := { w.state with
              serverHost := host, serverPort := port, serverAlive := true, healthGreenlet := true }
            checks := w.checks ++ [true]
            emissions := w.emissions ++ [⟨.serverConnected, some sid⟩] } := by
      rw [configure, hcall, if_pos ⟨hhost, houtcome⟩]
    rw [hstep]
    exact ⟨fun _ => hhost, fun _ => by simp, fun _ => rfl, h.changes,
      separated_concat h.separated (by simp [healthCheckFailed]),
      fun _ => answered_concat_connected rfl⟩
  · have hstep : w.configure sid host port outcome
        = { w with
            state := (configureServer w.state sid host port outcome).1
            emissions := w.emissions ++ (configureServer w.state sid host port outcome).2 } := by
      rw [configure, if_neg hnot, List.append_nil]
    have hnew : (configureServer w.state sid host port outcome).2 = [] ∨
        ∃ e, (configureServer w.state sid host port outcome).2 = [e] ∧ e ≠ healthCheckFailed := by
      rcases hemissions with hnil | ⟨msg, hmsg⟩
      · exact .inl hnil
      · exact .inr ⟨_, hmsg, by simp [healthCheckFailed]⟩
    rw [hstep]
    refine ⟨fun hg => ?_, h.counted, fun hlast => ?_, h.changes, separated_append h.separated hnew,
      fun ha => ?_⟩
    · rcases haddress with hsame | ⟨hhost, hne⟩
      · rw [hsame]
        exact h.configured (hgreenlet ▸ hg)
      · rwa [hhost]
    · rw [halive]
      exact h.alive hlast
    · rw [halive] at ha
      rcases hnew with hnil | ⟨e, he, hne⟩
      · rw [hnil, List.append_nil]
        exact h.answered ha
      · rw [he]
        exact answered_concat (h.answered ha) hne

/-- A turn of the loop in a reachable state: it has not been started, the ping succeeds, its
failure is only counted, or the server is declared down. -/
theorem ping_cases (h : Inv w) (ok : Bool) :
    (w.state.healthGreenlet = false ∧ w.ping ok = w) ∨
    (ok = true ∧ w.state.healthGreenlet = true ∧ ∃ new,
      ((w.state.serverAlive = true ∧ new = []) ∨ new = [{ event := .serverConnected }]) ∧
      w.ping ok = { w with
        state := { w.state with serverAlive := true }
        consecutiveFailures := 0
        checks := w.checks ++ [true]
        emissions := w.emissions ++ new }) ∨
    (ok = false ∧ w.state.healthGreenlet = true ∧
      ¬ (0 < w.consecutiveFailures ∧ w.state.serverAlive = true) ∧
      w.ping ok = { w with
        consecutiveFailures := w.consecutiveFailures + 1
        checks := w.checks ++ [false] }) ∨
    (ok = false ∧ w.state.healthGreenlet = true ∧ 0 < w.consecutiveFailures ∧
      w.state.serverAlive = true ∧ w.ping ok = { w with
        state := { w.state with serverAlive := false }
        consecutiveFailures := w.consecutiveFailures + 1
        checks := w.checks ++ [false]
        emissions := w.emissions ++ [healthCheckFailed]
        broadcasts := w.broadcasts ++ [⟨w.checks ++ [false], true, false⟩] }) := by
  cases hgreenlet : w.state.healthGreenlet with
  | false => exact .inl ⟨rfl, by rw [ping, hgreenlet]; rfl⟩
  | true =>
    right
    have hhost := h.configured hgreenlet
    rcases healthCheck_cases hhost w.consecutiveFailures ok with
      ⟨rfl, hstate, hcount, hnew⟩ | ⟨rfl, hup, hcall⟩ | ⟨rfl, hcounted, halive, hcall⟩
    · refine .inl ⟨rfl, rfl, (healthCheck w.state w.consecutiveFailures true).2.2, ?_, ?_⟩
      · exact hnew.imp_left fun hold => hold
      · have hquiet : healthCheckFailed ∉ (healthCheck w.state w.consecutiveFailures true).2.2 := by
          rcases hnew with ⟨-, hnil⟩ | hconnected
          · simp [hnil]
          · simp [hconnected, healthCheckFailed]
        simp only [ping, hgreenlet, if_true, if_neg hhost, if_neg hquiet, List.append_nil, hstate,
          hcount]
    · refine .inr (.inl ⟨rfl, rfl, hup, ?_⟩)
      simp only [ping, hgreenlet, if_true, if_neg hhost, hcall, List.not_mem_nil, if_false,
        List.append_nil]
    · refine .inr (.inr ⟨rfl, rfl, hcounted, halive, ?_⟩)
      simp only [ping, hgreenlet, if_true, if_neg hhost, hcall, List.mem_singleton, halive]

theorem inv_ping (h : Inv w) (ok : Bool) : Inv (w.ping ok) := by
  rcases ping_cases h ok with ⟨-, hstep⟩ | ⟨-, hgreenlet, new, hnew, hstep⟩ |
    ⟨-, hgreenlet, -, hstep⟩ | ⟨-, hgreenlet, -, halive, hstep⟩ <;> rw [hstep]
  · exact h
  · refine ⟨fun _ => h.configured hgreenlet, fun hcount => absurd hcount (lt_irrefl 0),
      fun _ => rfl, h.changes, ?_, fun _ => ?_⟩
    · refine separated_append h.separated ?_
      rcases hnew with ⟨-, hnil⟩ | hconnected
      · exact .inl hnil
      · exact .inr ⟨_, hconnected, by simp [healthCheckFailed]⟩
    · -- either the server was alive, or it is announced again
      rcases hnew with ⟨halive, hnil⟩ | hconnected
      · rw [hnil, List.append_nil]
        exact h.answered halive
      · rw [hconnected]
        exact answered_concat_connected rfl
  · exact ⟨h.configured, fun _ => by simp, fun hlast => absurd hlast (by simp), h.changes,
      h.separated, h.answered⟩
  · refine ⟨fun _ => h.configured hgreenlet, fun _ => by simp, fun hlast => absurd hlast (by simp),
      fun b hb => ?_, ?_, fun halive => absurd halive (by simp)⟩
    · rcases List.mem_append.mp hb with hb | hb
      · exact h.changes b hb
      · rw [List.mem_singleton.mp hb]
        exact ⟨rfl, rfl⟩
    · exact separated_concat h.separated fun _ => h.answered halive

theorem inv_step (w : Monitored) (a : Action) (h : Inv w) : Inv (w.step a) := by
  cases a with
  | configureServer sid host port outcome => exact inv_configure h sid host port outcome
  | ping ok => exact inv_ping h ok

/-- The two most recent checks had failed at every broadcast. -/
def AllTwoFailures (w : Monitored) : Prop := ∀ b ∈ w.broadcasts, TwoFailures b.checks

theorem twoFailures_concat {checks : List Bool} :
    TwoFailures (checks ++ [false]) ↔ checks.getLast? = some false := by
  constructor
  · rintro ⟨earlier, heq⟩
    rw [List.append_cons earlier false [false]] at heq
    rw [(List.append_inj_left' heq rfl), List.getLast?_concat]
  · intro hlast
    obtain ⟨earlier, rfl⟩ := List.getLast?_eq_some_iff.mp hlast
    exact ⟨earlier, by rw [List.append_assoc]; rfl⟩

/-- A step adds a broadcast without two failures before it exactly when it miscounts. -/
theorem allTwoFailures_step (w : Monitored) (a : Action) (h : Inv w) :
    AllTwoFailures (w.step a) ↔ AllTwoFailures w ∧ CountsInARow w a := by
  cases a with
  | configureServer sid host port outcome => exact (and_iff_left trivial).symm
  | ping ok =>
    rw [step, CountsInARow]
    rcases ping_cases h ok with ⟨hidle, hstep⟩ | ⟨hok, -, new, -, hstep⟩ |
      ⟨hok, hgreenlet, hup, hstep⟩ | ⟨hok, hgreenlet, hcounted, -, hstep⟩ <;> rw [hstep]
    · refine (and_iff_left fun _ hgreenlet => ?_).symm
      exact absurd (hidle.symm.trans hgreenlet) (by simp)
    · refine (and_iff_left fun hfailed => ?_).symm
      exact absurd (hok.symm.trans hfailed) (by simp)
    · -- the failure is only counted, so the server is not alive after a successful check
      refine (and_iff_left fun _ _ hcounted => ?_).symm
      obtain ⟨last, hlast⟩ := Option.isSome_iff_exists.mp
        (List.getLast?_isSome.mpr (h.counted hcounted))
      cases last with
      | true => exact absurd ⟨hcounted, h.alive hlast⟩ hup
      | false => exact hlast
    · simp only [AllTwoFailures, List.mem_append, List.mem_singleton, or_imp, forall_and,
        forall_eq, twoFailures_concat, hok, hgreenlet, hcounted, forall_const]

theorem inv_run (actions : List Action) : Inv (actions.foldl step {}) :=
  foldl_induction inv_init inv_step actions

/-- **When one failed ping does not take the server down.**  In any run every broadcast comes
after two failed checks, changes the status from alive to not alive, and is taken back before
the next one, exactly when no ping fails right after a successful configuration while older
failures are still counted. -/
theorem health_broadcasts_iff (actions : List Action) :
    Sound (actions.foldl step {}) ↔ Along step CountsInARow {} actions := by
  have hinv := inv_run actions
  have hiff := foldl_iff_along (f := step) (I := Inv) (P := AllTwoFailures) (g := CountsInARow)
    inv_step allTwoFailures_step inv_init actions
  have hnone : AllTwoFailures {} := fun b hb => absurd hb List.not_mem_nil
  rw [and_iff_right hnone] at hiff
  rw [← hiff]
  exact ⟨fun h => h.twoFailures, fun h => ⟨h, hinv.changes, hinv.separated⟩⟩

/-- The server is configured, a ping fails, it is configured again, a ping fails. -/
def blipRun : List Action :=
  [.configureServer "s1" "10.0.0.9" 5050 .json, .ping false,
    .configureServer "s1" "10.0.0.9" 5050 .json, .ping false]

/-- The second blip takes the server down, right after a successful check. -/
theorem blip_takes_server_down :
    ¬ Sound (blipRun.foldl step {}) ∧
      (blipRun.foldl step {}).broadcasts = [⟨[true, false, true, false], true, false⟩] := by
  refine ⟨fun hsound => ?_, by decide +kernel⟩
  obtain ⟨earlier, hchecks⟩ := hsound.twoFailures ⟨[true, false, true, false], true, false⟩
    (by decide +kernel)
  have hlast := congrArg (fun l : List Bool => l.reverse.take 2) hchecks
  simp at hlast

end Monitored

end HealthChecks
