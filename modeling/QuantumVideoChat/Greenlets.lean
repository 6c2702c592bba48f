/-
The greenlets of a middleware (`middleware/server_comms.py`, `middleware/events.py`).

A handler runs until it waits: for a response, for a socket to open or close, for the end of a
pause.  `joinRoom`, `restPeerConnection`, `leaveRoom` and `restPeerDisconnected` are the
handlers up to their first wait, and `run` is what a greenlet does with what it waited for.
The calls are numbered in the order in which their `join_room` or `/peer_connection` began.

* `run_concerns` — a greenlet connects nothing but the call it was started for;
* `runAlone_turns` — undisturbed, `connect_to_session_ws` ends as the sequential loop over the
  attempts does.
-/
import QuantumVideoChat.Cooperative
import QuantumVideoChat.ServerComms

namespace Greenlets

open Cooperative
open ServerComms (wsConnectMaxAttempts sessionAuth joinRequest joinResponse)

/-- A connection of `server_client`: the call it was opened for and the credentials. -/
structure Link where
  call : ℕ
  auth : SocketAuth
  deriving DecidableEq

/-- The state of `server_client`; after a transient failure it reconnects by itself. -/
inductive Client
  | off
  | connected (link : Link)
  | reconnecting (link : Link)
  deriving DecidableEq

structure Middleware where
  serverHost : String := ""
  userId : String := ""
  client : Client := .off
  emitted : List BrowserEmission := []
  deriving DecidableEq

/-- What a greenlet waits for.  `mark` is the number of calls begun when leaving began. -/
inductive Greenlet
  /-- `join_room`: the response to POST `/peer_connection` -/
  | joining (call : ℕ) (sid : String)
  /-- `gevent.spawn(connect_to_session_ws, ...)`: its first turn -/
  | spawned (call : ℕ) (wsEndpoint : List PyValue) (sessionId : String)
  /-- `connect_to_session_ws`: the end of `server_client.disconnect()` -/
  | closing (call : ℕ) (sessionId : String)
  /-- `connect_to_session_ws`: the end of `server_client.connect(...)` -/
  | attempting (call : ℕ) (sessionId : String) (attempt : ℕ) (auth : SocketAuth)
  /-- `connect_to_session_ws`: the end of `gevent.sleep(delay)` -/
  | sleeping (call : ℕ) (sessionId : String) (attempt : ℕ)
  /-- `leave_room`: the end of `server_client.disconnect()` -/
  | leaving (mark : ℕ)
  /-- `leave_room`: the response to POST `/disconnect_peer` -/
  | posting (mark : ℕ)
  /-- `_rest_peer_disconnected`: the end of `server_client.disconnect()` -/
  | peerLeaving (mark : ℕ)
  deriving DecidableEq

/-- What a greenlet gets: the response, how an attempt ended, or the end of a wait. -/
inductive Event
  | response (response : Except String Response)
  | opened
  | failed (exc : String)
  | done

namespace Middleware

def emit (m : Middleware) (e : BrowserEmission) : Middleware :=
  { m with emitted := m.emitted ++ [e] }

/-- `server_client.disconnect()`, up to the wait. -/
def disconnect (m : Middleware) : Middleware := { m with client := .off }

end Middleware

/-! ### connect_to_session_ws -/

/-- A failed attempt is followed by a pause, the last one by a report. -/
def attemptFailed (m : Middleware) (call : ℕ) (sessionId : String) (attempt : ℕ) (exc : String) :
    Middleware × Option Greenlet :=
  if attempt < wsConnectMaxAttempts then (m, some (.sleeping call sessionId attempt))
  else (m.emit { event := .serverError ("Could not connect to session -- " ++ exc) }, none)

/-- `server_client.connect(...)` raises at once if the client is connected. -/
def startAttempt (m : Middleware) (call : ℕ) (sessionId : String) (attempt : ℕ) :
    Middleware × Option Greenlet :=
  match m.client with
  | .connected _ => attemptFailed m call sessionId attempt "Already connected"
  | _ => (m, some (.attempting call sessionId attempt (sessionAuth m.userId sessionId)))

/-- `connect_to_session_ws`, up to its first wait. -/
def connectToSessionWs (m : Middleware) (call : ℕ) (wsEndpoint : List PyValue)
    (sessionId : String) : Middleware × Option Greenlet :=
  match wsEndpoint with
  | [_, _] =>
    match m.client with
    | .connected _ => (m.disconnect, some (.closing call sessionId))
    | _ => startAttempt m call sessionId 1
  | _ => (m, none)

/-! ### Handlers -/

def joinRoom (m : Middleware) (call : ℕ) (sid : String) (peerId : Option String) :
    Middleware × Option Greenlet :=
  match joinRequest m.serverHost m.userId peerId with
  | .error event => (m.emit ⟨event, some sid⟩, none)
  | .ok _ => (m, some (.joining call sid))

/-- `_rest_peer_connection` answers at once. -/
def restPeerConnection (m : Middleware) (call : ℕ) (wsEndpoint : List PyValue)
    (sessionId : String) : Middleware × Option Greenlet :=
  if wsEndpoint = [] then (m, none) else (m, some (.spawned call wsEndpoint sessionId))

/-- The end of `leave_room`: the server is told, if there is one to tell. -/
def postLeave (m : Middleware) (mark : ℕ) : Middleware × Option Greenlet :=
  if m.serverHost = "" ∨ m.userId = "" then (m, none) else (m, some (.posting mark))

/-- `leave_room`; it looks at the client once. -/
def leaveRoom (m : Middleware) (mark : ℕ) : Middleware × Option Greenlet :=
  match m.client with
  | .connected _ => (m.disconnect, some (.leaving mark))
  | _ => postLeave m mark

def restPeerDisconnected (m : Middleware) (mark : ℕ) (peerId : String) :
    Middleware × Option Greenlet :=
  let m := m.emit { event := .peerDisconnected peerId }
  match m.client with
  | .connected _ => (m.disconnect, some (.peerLeaving mark))
  | _ => (m, none)

/-- One turn of a greenlet; it goes on waiting when it gets something else. -/
def run (m : Middleware) : Greenlet → Event → Middleware × Option Greenlet
  | .joining call sid, .response response =>
    match joinResponse response with
    | .error msg => (m.emit ⟨.serverError msg, some sid⟩, none)
    | .ok none => (m, none)
    | .ok (some (wsEndpoint, sessionId)) => connectToSessionWs m call wsEndpoint sessionId
  | .spawned call wsEndpoint sessionId, .done => connectToSessionWs m call wsEndpoint sessionId
  | .closing call sessionId, .done => startAttempt m call sessionId 1
  | .attempting call sessionId attempt auth, .opened =>
    match m.client with
    -- another greenlet was faster
    | .connected _ => attemptFailed m call sessionId attempt "Already connected"
    | _ => ({ m with client := .connected ⟨call, auth⟩ }, none)
  | .attempting call sessionId attempt _, .failed exc => attemptFailed m call sessionId attempt exc
  | .sleeping call sessionId attempt, .done => startAttempt m call sessionId (attempt + 1)
  | .leaving mark, .done => postLeave m mark
  -- what comes of the request is only logged
  | .posting _, .response _ => (m, none)
  | .peerLeaving _, .done => (m, none)
  | g, _ => (m, some g)

/-! ### Steps -/

/-- `begun` counts the calls that began. -/
structure World where
  pool : Pool Middleware Greenlet := { shared := {} }
  begun : ℕ := 0

/-- A handler starts, a greenlet gets its turn, the connection breaks or is back, or
`configure_server` or `create_user` stores what it got. -/
inductive Action
  | joinRoom (sid : String) (peerId : Option String)
  | peerConnection (wsEndpoint : List PyValue) (sessionId : String)
  | leaveRoom
  | peerDisconnected (peerId : String)
  | resume (i : ℕ) (event : Event)
  | connectionLost
  | reconnected
  | configured (serverHost : String)
  | registered (userId : String)

/-- `join_room` and `/peer_connection` begin a call. -/
def Action.begins : Action → Bool
  | .joinRoom _ _ => true
  | .peerConnection _ _ => true
  | _ => false

def Client.lose : Client → Client
  | .connected link => .reconnecting link
  | client => client

def Client.reconnect : Client → Client
  | .reconnecting link => .connected link
  | client => client

def act (w : World) : Action → Pool Middleware Greenlet
  | .joinRoom sid peerId => w.pool.spawn (joinRoom w.pool.shared w.begun sid peerId)
  | .peerConnection wsEndpoint sessionId =>
    w.pool.spawn (restPeerConnection w.pool.shared w.begun wsEndpoint sessionId)
  | .leaveRoom => w.pool.spawn (leaveRoom w.pool.shared w.begun)
  | .peerDisconnected peerId => w.pool.spawn (restPeerDisconnected w.pool.shared w.begun peerId)
  | .resume i event => w.pool.resume run i event
  | .connectionLost =>
    { w.pool with shared := { w.pool.shared with client := w.pool.shared.client.lose } }
  | .reconnected =>
    { w.pool with shared := { w.pool.shared with client := w.pool.shared.client.reconnect } }
  | .configured serverHost =>
    { w.pool with shared := { w.pool.shared with serverHost := serverHost } }
  | .registered userId => { w.pool with shared := { w.pool.shared with userId := userId } }

def step (w : World) (a : Action) : World :=
  { pool := act w a, begun := if a.begins then w.begun + 1 else w.begun }

/-! ### Connections and calls -/

/-- The connection that is open. -/
def Client.open? : Client → Option Link
  | .connected link => some link
  | _ => none

/-- The connection that is open or about to be opened again. -/
def Client.link? : Client → Option Link
  | .off => none
  | .connected link => some link
  | .reconnecting link => some link

/-- The call that a greenlet may still connect. -/
def Greenlet.call? : Greenlet → Option ℕ
  | .joining call _ => some call
  -- without an address it will not get far
  | .spawned call wsEndpoint _ => if wsEndpoint.length = 2 then some call else none
  | .closing call _ => some call
  | .attempting call _ _ _ => some call
  | .sleeping call _ _ => some call
  | _ => none

@[simp] theorem link?_lose (client : Client) : client.lose.link? = client.link? := by
  cases client <;> rfl

@[simp] theorem link?_reconnect (client : Client) : client.reconnect.link? = client.link? := by
  cases client <;> rfl

theorem ne_connected {client : Client} (h : client.open? = none) (link : Link) :
    client ≠ .connected link := by
  rintro rfl
  exact absurd h (by simp [Client.open?])

theorem link?_of_open? {client : Client} {link : Link} (h : link ∈ client.open?) :
    link ∈ client.link? := by
  cases client with
  | connected link' => exact h
  | off => exact absurd h (by simp [Client.open?])
  | reconnecting link' => exact absurd h (by simp [Client.open?])

/-! ### What a turn can connect -/

variable {m : Middleware}

/-- A turn that is about the call `call?` adds nothing about another one. -/
structure Concerns (call? : Option ℕ) (m : Middleware) (r : Middleware × Option Greenlet) :
    Prop where
  client : ∀ link ∈ r.1.client.link?, link ∈ m.client.link? ∨ some link.call = call?
  greenlet : ∀ g ∈ r.2, ∀ call ∈ g.call?, some call = call?

theorem concerns_finished {call? : Option ℕ} {m' : Middleware} (h : m'.client = m.client) :
    Concerns call? m (m', none) :=
  ⟨fun link hlink => .inl (h ▸ hlink), fun g hg => absurd hg (by simp)⟩

theorem concerns_waiting {g : Greenlet} {m' : Middleware} (h : m'.client = m.client) :
    Concerns g.call? m (m', some g) := by
  refine ⟨fun link hlink => .inl (h ▸ hlink), fun g' hg call hcall => ?_⟩
  obtain rfl := Option.some_inj.mp hg
  exact hcall.symm

theorem concerns_disconnect {g : Greenlet} {m' : Middleware} :
    Concerns g.call? m (m'.disconnect, some g) := by
  refine ⟨fun link hlink => absurd hlink (by simp [Middleware.disconnect, Client.link?]),
    fun g' hg call hcall => ?_⟩
  obtain rfl := Option.some_inj.mp hg
  exact hcall.symm

theorem attemptFailed_concerns (m : Middleware) (call : ℕ) (sessionId : String) (attempt : ℕ)
    (exc : String) : Concerns (some call) m (attemptFailed m call sessionId attempt exc) := by
  rw [attemptFailed]
  split_ifs
  · exact concerns_waiting (g := .sleeping call sessionId attempt) rfl
  · exact concerns_finished rfl

theorem startAttempt_concerns (m : Middleware) (call : ℕ) (sessionId : String) (attempt : ℕ) :
    Concerns (some call) m (startAttempt m call sessionId attempt) := by
  unfold startAttempt
  split
  · exact attemptFailed_concerns m call sessionId attempt _
  · exact concerns_waiting
      (g := .attempting call sessionId attempt (sessionAuth m.userId sessionId)) rfl

theorem connectToSessionWs_concerns (m : Middleware) (call : ℕ) (wsEndpoint : List PyValue)
    (sessionId : String) :
    Concerns (Greenlet.spawned call wsEndpoint sessionId).call? m
      (connectToSessionWs m call wsEndpoint sessionId) := by
  unfold connectToSessionWs
  split
  · split
    · exact concerns_disconnect (g := .closing call sessionId)
    · exact startAttempt_concerns m call sessionId 1
  · exact concerns_finished rfl

theorem postLeave_concerns (m : Middleware) (mark : ℕ) : Concerns none m (postLeave m mark) := by
  rw [postLeave]
  split_ifs
  · exact concerns_finished rfl
  · exact concerns_waiting (g := .posting mark) rfl

theorem leaveRoom_concerns (m : Middleware) (mark : ℕ) : Concerns none m (leaveRoom m mark) := by
  unfold leaveRoom
  split
  · exact concerns_disconnect (g := .leaving mark)
  · exact postLeave_concerns m mark

theorem restPeerDisconnected_concerns (m : Middleware) (mark : ℕ) (peerId : String) :
    Concerns none m (restPeerDisconnected m mark peerId) := by
  unfold restPeerDisconnected
  dsimp only
  split
  · exact concerns_disconnect (g := .peerLeaving mark)
  · exact concerns_finished rfl

/-- A greenlet connects nothing but its own call. -/
theorem run_concerns (m : Middleware) (g : Greenlet) (e : Event) :
    Concerns g.call? m (run m g e) := by
  fun_cases run m g e with
  | case1 => exact concerns_finished rfl
  | case2 => exact concerns_finished rfl
  | case3 call sid response wsEndpoint sessionId hresponse =>
    -- an answer without an address is about no call at all
    obtain ⟨hclient, hgreenlet⟩ := connectToSessionWs_concerns m call wsEndpoint sessionId
    have hcall : ∀ c, some c = (Greenlet.spawned call wsEndpoint sessionId).call? →
        some c = (Greenlet.joining call sid).call? := by
      intro c hc
      rw [Greenlet.call?] at hc
      split_ifs at hc
      exact hc
    exact ⟨fun link hlink => (hclient link hlink).imp_right (hcall _),
      fun g hg c hc => hcall c (hgreenlet g hg c hc)⟩
  | case4 call wsEndpoint sessionId => exact connectToSessionWs_concerns m call wsEndpoint sessionId
  | case5 call sessionId => exact startAttempt_concerns m call sessionId 1
  | case6 call sessionId attempt => exact attemptFailed_concerns m call sessionId attempt _
  | case7 call sessionId attempt auth =>
    refine ⟨fun link hlink => .inr ?_, fun g hg => absurd hg (by simp)⟩
    obtain rfl := Option.some_inj.mp hlink
    rfl
  | case8 call sessionId attempt => exact attemptFailed_concerns m call sessionId attempt _
  | case9 call sessionId attempt => exact startAttempt_concerns m call sessionId (attempt + 1)
  | case10 mark => exact postLeave_concerns m mark
  | case11 => exact concerns_finished rfl
  | case12 => exact concerns_finished rfl
  | case13 => exact concerns_waiting rfl

/-! ### A greenlet left alone -/

theorem startAttempt_eq (h : m.client.open? = none) (call : ℕ) (sessionId : String)
    (attempt : ℕ) :
    startAttempt m call sessionId attempt
      = (m, some (.attempting call sessionId attempt (sessionAuth m.userId sessionId))) := by
  unfold startAttempt
  split
  · rename_i link hlink
    exact absurd hlink (ne_connected h link)
  · rfl

theorem run_opened (h : m.client.open? = none) (call : ℕ) (sessionId : String) (attempt : ℕ)
    (auth : SocketAuth) :
    run m (.attempting call sessionId attempt auth) .opened
      = ({ m with client := .connected ⟨call, auth⟩ }, none) := by
  rw [run]
  split
  · rename_i link hlink
    exact absurd hlink (ne_connected h link)
  · rfl

/-- The turns of an undisturbed `connect_to_session_ws`, given how its attempts end. -/
def turns : List (Except String ServerComms.System) → List Event
  | [] => []
  | .ok _ :: _ => [.opened]
  | .error exc :: results => .failed exc :: .done :: turns results

/-- Only the first greenlet gets its turns. -/
def runAlone (p : Pool Middleware Greenlet) (events : List Event) : Pool Middleware Greenlet :=
  events.foldl (fun p e => p.resume run 0 e) p

/-- An attempt under way, and no other greenlet. -/
def attemptAlone (m : Middleware) (call : ℕ) (sessionId : String) (attempt : ℕ) :
    Pool Middleware Greenlet :=
  { shared := m
    tasks := [.attempting call sessionId attempt (sessionAuth m.userId sessionId)] }

/-- A failed attempt that is not the last one, and the pause after it. -/
theorem resume_failed_done (h : m.client.open? = none) (call : ℕ) (sessionId : String)
    {attempt : ℕ} (hfew : attempt < wsConnectMaxAttempts) (exc : String) :
    ((attemptAlone m call sessionId attempt).resume run 0 (.failed exc)).resume run 0 .done
      = attemptAlone m call sessionId (attempt + 1) := by
  simp [attemptAlone, Pool.resume, run, attemptFailed, if_pos hfew, startAttempt_eq h]

/-- Undisturbed, the greenlet ends as the loop over the attempts does: it tells the browser the
same, and the client is connected if an attempt is accepted. -/
theorem runAlone_turns (uuid : UuidSource) (w : ServerComms.System) (h : m.client.open? = none)
    (call : ℕ) (sessionId : String) (attempts : List ServerComms.Attempt) (hne : attempts ≠ [])
    (attempt : ℕ) (hattempt : attempt + attempts.length = wsConnectMaxAttempts + 1) :
    let p := runAlone (attemptAlone m call sessionId attempt)
      (turns (attempts.map (ServerComms.attemptConnect uuid w sessionId)))
    p.tasks = [] ∧
      p.shared.emitted
        = m.emitted ++ (ServerComms.connectAttempts uuid w sessionId attempts).2 ∧
      (p.shared.client.open? ≠ none ↔
        ∃ a ∈ attempts, ∃ w', ServerComms.attemptConnect uuid w sessionId a = .ok w') := by
  induction attempts generalizing attempt with
  | nil => exact absurd rfl hne
  | cons a attempts ih =>
    rw [List.map_cons, ServerComms.connectAttempts]
    cases hresult : ServerComms.attemptConnect uuid w sessionId a with
    | ok w' =>
      simp [turns, runAlone, attemptAlone, Pool.resume, run_opened h, Client.open?, hresult]
    | error exc =>
      by_cases hlast : attempts = []
      · -- the last attempt is reported
        subst hlast
        have hfive : ¬ attempt < wsConnectMaxAttempts := by
          simp only [List.length_cons, List.length_nil] at hattempt
          omega
        simp [turns, runAlone, attemptAlone, Pool.resume, run, attemptFailed, if_neg hfive,
          Middleware.emit, h, hresult]
      · have hfew : attempt < wsConnectMaxAttempts := by
          have hpos := List.length_pos_iff.mpr hlast
          simp only [List.length_cons] at hattempt
          omega
        obtain ⟨htasks, hemitted, hopen⟩ := ih hlast (attempt + 1) (by
          rw [← hattempt, List.length_cons]
          omega)
        have hpause : runAlone (attemptAlone m call sessionId attempt)
            (turns (.error exc :: attempts.map (ServerComms.attemptConnect uuid w sessionId)))
            = runAlone (attemptAlone m call sessionId (attempt + 1))
              (turns (attempts.map (ServerComms.attemptConnect uuid w sessionId))) := by
          simp only [turns, runAlone, List.foldl_cons, resume_failed_done h call sessionId hfew]
        simp only [hpause, if_neg hlast, List.mem_cons, exists_eq_or_imp, hresult, reduceCtorEq,
          exists_false, false_or]
        exact ⟨htasks, hemitted, hopen⟩

end Greenlets
