/-
A middleware and its server (`middleware/server_comms.py`, `middleware/events.py`,
`middleware/state.py`).

An event of the browser and a request of the server are handled one at a time, each to its
end; what the network and the contacted clients do is an argument of the handler.  A handler
returns the two parties after it and what it emitted to the browser.

* `joinRoom_cases` — the ways `join_room` can end;
* `connectAttempts_eq_nil_iff` — when none of the attempts of `connect_to_session_ws` is
  reported to the browser;
* `step_reaches` — to the server, every step is a run of its own operations.
-/
import QuantumVideoChat.RestAPI

inductive BrowserEvent
  | serverConnected
  | serverError (msg : String)
  | userRegistered (userId : String)
  | waitingForPeer (userId : String)
  | peerDisconnected (peerId : String)
  deriving DecidableEq

/-- `sio.emit(event, room=sid)`; without a room it is for every browser. -/
structure BrowserEmission where
  event : BrowserEvent
  room : Option String := none
  deriving DecidableEq

/-- `serverClient` is the socket of `server_client` and its session while it is connected. -/
structure MiddlewareState where
  localIp : String := "127.0.0.1"
  middlewarePort : ℤ := 5001
  serverClient : Option (String × String) := none
  serverHost : String := ""
  serverPort : ℤ := 0
  serverAlive : Bool := false
  userId : String := ""
  healthGreenlet : Bool := false
  deriving DecidableEq

namespace ServerComms

open Transition

structure System where
  server : Server
  state : MiddlewareState := {}

/-! ### Requests to the server -/

/-- What becomes of a request.  An exception of `requests` comes with its text. -/
inductive Delivery
  | unreached (exc : String)
  | rateLimited
  /-- the server handles the request, and its response does not arrive -/
  | lost (exc : String)
  | answered
  deriving DecidableEq

def exchange (route : Server → Server × Response) (s : Server) :
    Delivery → Server × Except String Response
  | .unreached exc => (s, .error exc)
  | .rateLimited => (s, .ok RestAPI.rateLimited)
  | .lost exc => ((route s).1, .error exc)
  | .answered => ((route s).1, .ok (route s).2)

/-- The text of the `JSONDecodeError` for a page. -/
def jsonDecodeError : String := "Expecting value: line 1 column 1 (char 0)"

/-- The text of the `HTTPError` for a status, without the reason and the address. -/
def httpError (status : ℕ) : String := toString status ++ " Error"

/-! ### connect_to_session_ws -/

/-- `_WS_CONNECT_MAX_ATTEMPTS`. -/
def wsConnectMaxAttempts : ℕ := 5

/-- One `server_client.connect`: it fails by itself, or the server gets to see socket `sid`
and, if the session is complete then, draws `roomId`. -/
inductive Attempt
  | fails (exc : String)
  | reaches (sid roomId : String)
  deriving DecidableEq

/-- The credentials: an empty session id is left out. -/
def sessionAuth (userId sessionId : String) : SocketAuth :=
  ⟨some userId, if sessionId = "" then none else some sessionId⟩

/-- `server_client.disconnect()`, if it is connected. -/
def closeClient (uuid : UuidSource) (w : System) : System :=
  match w.state.serverClient with
  | none => w
  | some (sid, _) =>
    { server := w.server.step uuid (.socketDisconnect sid)
      state := { w.state with serverClient := none } }

def attemptConnect (uuid : UuidSource) (w : System) (sessionId : String) :
    Attempt → Except String System
  | .fails exc => .error exc
  | .reaches sid roomId =>
    match w.server.socketApi with
    | none => .error "Unexpected status code 404 in server response"
    | some api =>
      match SocketAPI.onConnect (J := Unit) api sid (some (sessionAuth w.state.userId sessionId))
        roomId with
      | (_, true, _) =>
        .ok
          { server := w.server.step uuid
              (.socketConnect sid (some (sessionAuth w.state.userId sessionId)) roomId)
            state := { w.state with serverClient := some (sid, sessionId) } }
      | (_, false, _) => .error "One or more namespaces failed to connect"

/-- The loop over the attempts; the pauses between them change nothing. -/
def connectAttempts (uuid : UuidSource) (w : System) (sessionId : String) :
    List Attempt → System × List BrowserEmission
  | [] => (w, [])
  | attempt :: attempts =>
    match attemptConnect uuid w sessionId attempt with
    | .ok w => (w, [])
    | .error exc =>
      -- only the last failure is reported
      if attempts = [] then
        (w, [{ event := .serverError ("Could not connect to session -- " ++ exc) }])
      else connectAttempts uuid w sessionId attempts

def connectToSessionWs (uuid : UuidSource) (w : System) (wsEndpoint : List PyValue)
    (sessionId : String) (attempts : Fin wsConnectMaxAttempts → Attempt) :
    System × List BrowserEmission :=
  match wsEndpoint with
  | [_, _] => connectAttempts uuid (closeClient uuid w) sessionId (List.ofFn attempts)
  -- `ws_host, ws_port = ws_endpoint` raises, and nobody catches it
  | _ => (w, [])

/-! ### Events of the browser -/

/-- What comes of GET `/admin/status`. -/
inductive StatusReply
  | failed (msg : String)
  | notJson
  | json
  deriving DecidableEq

def configureServer (w : System) (sid host : String) (port : ℤ) (reply : StatusReply) :
    System × List BrowserEmission :=
  let couldNotConnect (msg : String) : BrowserEmission :=
    ⟨.serverError ("Could not connect to " ++ host ++ ":" ++ toString port ++ " -- " ++ msg),
      some sid⟩
  if host = "" then (w, [⟨.serverError "No host provided.", some sid⟩])
  else
    match reply with
    | .failed msg => (w, [couldNotConnect msg])
    -- the address is stored before the body is read
    | .notJson =>
      ({ w with state := { w.state with serverHost := host, serverPort := port } },
        [couldNotConnect jsonDecodeError])
    | .json =>
      ({ w with state := { w.state with
          serverHost := host, serverPort := port, serverAlive := true, healthGreenlet := true } },
        [⟨.serverConnected, some sid⟩])

def createUser (w : System) (sid : String) (draws : IdDraws) (delivery : Delivery) :
    System × List BrowserEmission :=
  let failed (msg : String) : BrowserEmission :=
    ⟨.serverError ("Failed to register with server -- " ++ msg), some sid⟩
  if w.state.serverHost = "" then (w, [⟨.serverError "Not connected to a server.", some sid⟩])
  else
    match exchange (fun s => RestAPI.createUser s
      [.str w.state.localIp, .int w.state.middlewarePort] draws) w.server delivery with
    | (server, .error exc) => ({ w with server := server }, [failed exc])
    | (server, .ok ⟨status, body⟩) =>
      if 400 ≤ status then
        ({ w with server := server }, [failed (httpError status)])
      else
        let userId :=
          match body with
          | .user userId => userId
          | _ => ""
        ({ server := server, state := { w.state with userId := userId } },
          [⟨.userRegistered userId, some sid⟩])

/-- The checks of `join_room`: the peer to ask for, or what the browser is told instead. -/
def joinRequest (serverHost userId : String) (peerId : Option String) :
    Except BrowserEvent String :=
  if serverHost = "" then .error (.serverError "Not connected to a server.")
  else if userId = "" then .error (.serverError "Not registered with server yet.")
  else
    match peerId with
    | none => .error (.waitingForPeer userId)
    | some peerId =>
      if peerId = "" then .error (.waitingForPeer userId)
      else if peerId = userId then
        .error (.serverError ("Cannot connect to yourself (user_id=" ++ userId
          ++ "). For same-device testing, run a second middleware on a different port: "
          ++ "python3 client.py --port 5002"))
      else .ok peerId

/-- What `join_room` makes of the response: a message for the browser, or the session to
connect to, if there is one. -/
def joinResponse : Except String Response → Except String (Option (List PyValue × String))
  | .error exc => .error ("Peer connection failed -- " ++ exc)
  | .ok ⟨_, .page⟩ => .error ("Peer connection failed -- " ++ jsonDecodeError)
  | .ok ⟨status, body⟩ =>
    if status ≠ 200 then
      match body with
      | .error _ _ details => .error details
      | _ => .error "Unknown error"
    else
      match body with
      | .session wsEndpoint sessionId =>
        .ok (if wsEndpoint = [] then none else some (wsEndpoint, sessionId))
      | _ => .ok none

def joinRoom (uuid : UuidSource) (w : System) (sid : String) (peerId : Option String)
    (delivery : Delivery) (answer : ClientAnswer) (attempts : Fin wsConnectMaxAttempts → Attempt) :
    System × List BrowserEmission :=
  match joinRequest w.state.serverHost w.state.userId peerId with
  | .error event => (w, [⟨event, some sid⟩])
  | .ok peerId =>
    match exchange (fun s => RestAPI.handlePeerConnection uuid s w.state.userId peerId answer)
      w.server delivery with
    | (server, response) =>
      match joinResponse response with
      | .error msg => ({ w with server := server }, [⟨.serverError msg, some sid⟩])
      | .ok none => ({ w with server := server }, [])
      | .ok (some (wsEndpoint, sessionId)) =>
        connectToSessionWs uuid { w with server := server } wsEndpoint sessionId attempts

/-- `leave_room`: what comes of the request is only logged. -/
def leaveRoom (uuid : UuidSource) (w : System) (delivery : Delivery) (answer : ClientAnswer) :
    System :=
  let w := closeClient uuid w
  if w.state.serverHost = "" ∨ w.state.userId = "" then w
  else
    { w with server :=
        (exchange (fun s => RestAPI.disconnectPeer s w.state.userId answer) w.server delivery).1 }

/-! ### Requests of the server -/

/-- `_rest_peer_connection`; an empty endpoint counts as none. -/
def restPeerConnection (uuid : UuidSource) (w : System) (wsEndpoint : List PyValue)
    (sessionId : String) (attempts : Fin wsConnectMaxAttempts → Attempt) :
    System × List BrowserEmission :=
  if wsEndpoint = [] then (w, [])
  else connectToSessionWs uuid w wsEndpoint sessionId attempts

def restPeerDisconnected (uuid : UuidSource) (w : System) (peerId : String) :
    System × List BrowserEmission :=
  (closeClient uuid w, [{ event := .peerDisconnected peerId }])

/-! ### Steps -/

/-- The middleware handles an event or a request; or the server does something on behalf of
somebody else. -/
inductive Action
  | configureServer (sid host : String) (port : ℤ) (reply : StatusReply)
  | createUser (sid : String) (draws : IdDraws) (delivery : Delivery)
  | joinRoom (sid : String) (peerId : Option String) (delivery : Delivery) (answer : ClientAnswer)
      (attempts : Fin wsConnectMaxAttempts → Attempt)
  | leaveRoom (delivery : Delivery) (answer : ClientAnswer)
  | peerConnection (wsEndpoint : List PyValue) (sessionId : String)
      (attempts : Fin wsConnectMaxAttempts → Attempt)
  | peerDisconnected (peerId : String)
  | server (a : Server.Action)

def step (uuid : UuidSource) (w : System) : Action → System
  | .configureServer sid host port reply => (configureServer w sid host port reply).1
  | .createUser sid draws delivery => (createUser w sid draws delivery).1
  | .joinRoom sid peerId delivery answer attempts =>
    (joinRoom uuid w sid peerId delivery answer attempts).1
  | .leaveRoom delivery answer => leaveRoom uuid w delivery answer
  | .peerConnection wsEndpoint sessionId attempts =>
    (restPeerConnection uuid w wsEndpoint sessionId attempts).1
  | .peerDisconnected peerId => (restPeerDisconnected uuid w peerId).1
  | .server a => { w with server := w.server.step uuid a }

/-! ### What the handlers do -/

variable {uuid : UuidSource} {w : System} {sessionId : String}

theorem joinRequest_eq_ok {serverHost userId : String} {peerId : Option String}
    {peer : String} :
    joinRequest serverHost userId peerId = .ok peer ↔
      serverHost ≠ "" ∧ userId ≠ "" ∧ peerId = some peer ∧ peer ≠ "" ∧ peer ≠ userId := by
  unfold joinRequest
  split_ifs with hhost huser
  · simp [hhost]
  · simp [huser]
  · cases peerId with
    | none => simp
    | some peerId =>
      dsimp only
      split_ifs with hempty hself
      · simp only [Option.some.injEq, false_iff]
        rintro ⟨-, -, rfl, hne, -⟩
        exact hne hempty
      · simp only [Option.some.injEq, false_iff]
        rintro ⟨-, -, rfl, -, hne⟩
        exact hne hself
      · constructor
        · intro h
          obtain rfl := Except.ok.inj h
          exact ⟨hhost, huser, rfl, hempty, hself⟩
        · rintro ⟨-, -, heq, -, -⟩
          rw [Option.some_inj.mp heq]

/-- The two parties as far as calls are concerned: the users of the server, and which of them
the middleware is. -/
structure SameUsers (w w' : System) : Prop where
  users : w'.server.users = w.server.users
  userId : w'.state.userId = w.state.userId

theorem closeClient_sameUsers (uuid : UuidSource) (w : System) :
    SameUsers w (closeClient uuid w) := by
  rw [closeClient]
  cases w.state.serverClient <;> exact ⟨rfl, rfl⟩

theorem closeClient_reaches (uuid : UuidSource) (w : System) :
    Reaches (Server.step uuid) w.server (closeClient uuid w).server := by
  rw [closeClient]
  cases w.state.serverClient with
  | none => exact Reaches.refl _
  | some client => exact Reaches.step w.server (Server.Action.socketDisconnect client.1)

theorem attemptConnect_ok {attempt : Attempt} {w' : System}
    (h : attemptConnect uuid w sessionId attempt = .ok w') :
    SameUsers w w' ∧ Reaches (Server.step uuid) w.server w'.server := by
  cases attempt with
  | fails exc => exact absurd h (by simp [attemptConnect])
  | reaches sid roomId =>
    rw [attemptConnect] at h
    cases hapi : w.server.socketApi with
    | none => simp [hapi] at h
    | some api =>
      simp only [hapi] at h
      split at h
      · obtain rfl := Except.ok.inj h
        exact ⟨⟨rfl, rfl⟩, Reaches.step w.server
          (Server.Action.socketConnect sid (some (sessionAuth w.state.userId sessionId)) roomId)⟩
      · exact absurd h (by simp)

theorem connectAttempts_spec (uuid : UuidSource) (w : System) (sessionId : String)
    (attempts : List Attempt) :
    SameUsers w (connectAttempts uuid w sessionId attempts).1 ∧
      Reaches (Server.step uuid) w.server (connectAttempts uuid w sessionId attempts).1.server := by
  induction attempts with
  | nil => exact ⟨⟨rfl, rfl⟩, Reaches.refl _⟩
  | cons attempt attempts ih =>
    rw [connectAttempts]
    cases hattempt : attemptConnect uuid w sessionId attempt with
    | ok w' =>
      obtain ⟨hsame, hreaches⟩ := attemptConnect_ok hattempt
      exact ⟨hsame, hreaches⟩
    | error exc =>
      -- a failed attempt changes nothing, so the next one starts from the same system
      dsimp only
      split_ifs
      · exact ⟨⟨rfl, rfl⟩, Reaches.refl _⟩
      · exact ih

/-- Some attempt is accepted, or the browser is told about the last one. -/
theorem connectAttempts_eq_nil_iff (uuid : UuidSource) (w : System) (sessionId : String)
    {attempts : List Attempt} (hne : attempts ≠ []) :
    (connectAttempts uuid w sessionId attempts).2 = [] ↔
      ∃ attempt ∈ attempts, ∃ w', attemptConnect uuid w sessionId attempt = .ok w' := by
  induction attempts with
  | nil => exact absurd rfl hne
  | cons attempt attempts ih =>
    rw [connectAttempts]
    cases hattempt : attemptConnect uuid w sessionId attempt with
    | ok w' => simp [hattempt]
    | error exc =>
      by_cases hlast : attempts = []
      · simp [hlast, hattempt]
      · simp only [if_neg hlast, ih hlast, List.mem_cons, exists_eq_or_imp, hattempt, reduceCtorEq,
          exists_false, false_or]

/-- The only thing `connect_to_session_ws` tells the browser is an error. -/
theorem mem_connectAttempts {attempts : List Attempt} {e : BrowserEmission}
    (h : e ∈ (connectAttempts uuid w sessionId attempts).2) :
    ∃ msg, e = { event := .serverError msg } := by
  induction attempts with
  | nil => exact absurd h (by simp [connectAttempts])
  | cons attempt attempts ih =>
    rw [connectAttempts] at h
    cases hattempt : attemptConnect uuid w sessionId attempt with
    | ok w' => simp [hattempt] at h
    | error exc =>
      simp only [hattempt] at h
      split_ifs at h
      · exact ⟨_, List.mem_singleton.mp h⟩
      · exact ih h

theorem connectToSessionWs_spec (uuid : UuidSource) (w : System) (wsEndpoint : List PyValue)
    (sessionId : String) (attempts : Fin wsConnectMaxAttempts → Attempt) :
    SameUsers w (connectToSessionWs uuid w wsEndpoint sessionId attempts).1 ∧
      Reaches (Server.step uuid) w.server
        (connectToSessionWs uuid w wsEndpoint sessionId attempts).1.server := by
  unfold connectToSessionWs
  split
  · have hclose := closeClient_sameUsers uuid w
    obtain ⟨hsame, hreaches⟩ :=
      connectAttempts_spec uuid (closeClient uuid w) sessionId (List.ofFn attempts)
    exact ⟨⟨hsame.users.trans hclose.users, hsame.userId.trans hclose.userId⟩,
      (closeClient_reaches uuid w).trans hreaches⟩
  · exact ⟨⟨rfl, rfl⟩, Reaches.refl _⟩

theorem exchange_reaches (route : Server → Server × Response) {s : Server}
    (h : Reaches (Server.step uuid) s (route s).1) (delivery : Delivery) :
    Reaches (Server.step uuid) s (exchange route s delivery).1 := by
  cases delivery with
  | unreached exc => exact Reaches.refl s
  | rateLimited => exact Reaches.refl s
  | lost exc => exact h
  | answered => exact h

/-- The ways `join_room` can end: the checks turn the request down; the browser is told what
came of the request; there is no session; or there is one to connect to. -/
theorem joinRoom_cases (uuid : UuidSource) (w : System) (sid : String) (peerId : Option String)
    (delivery : Delivery) (answer : ClientAnswer)
    (attempts : Fin wsConnectMaxAttempts → Attempt) :
    (∃ event, joinRequest w.state.serverHost w.state.userId peerId = .error event ∧
      joinRoom uuid w sid peerId delivery answer attempts = (w, [⟨event, some sid⟩])) ∨
    ∃ peer server response, joinRequest w.state.serverHost w.state.userId peerId = .ok peer ∧
      exchange (fun s => RestAPI.handlePeerConnection uuid s w.state.userId peer answer) w.server
        delivery = (server, response) ∧
      ((∃ msg, joinResponse response = .error msg ∧
        joinRoom uuid w sid peerId delivery answer attempts
          = ({ w with server := server }, [⟨.serverError msg, some sid⟩])) ∨
      (joinResponse response = .ok none ∧
        joinRoom uuid w sid peerId delivery answer attempts = ({ w with server := server }, [])) ∨
      ∃ wsEndpoint sessionId, joinResponse response = .ok (some (wsEndpoint, sessionId)) ∧
        joinRoom uuid w sid peerId delivery answer attempts
          = connectToSessionWs uuid { w with server := server } wsEndpoint sessionId attempts) := by
  unfold joinRoom
  cases hrequest : joinRequest w.state.serverHost w.state.userId peerId with
  | error event => exact .inl ⟨event, rfl, rfl⟩
  | ok peer =>
    rcases hexchange : exchange (fun s => RestAPI.handlePeerConnection uuid s w.state.userId peer
      answer) w.server delivery with ⟨server, response⟩
    refine .inr ⟨peer, server, response, rfl, hexchange, ?_⟩
    dsimp only
    rw [hexchange]
    dsimp only
    rcases hresponse : joinResponse response with msg | _ | ⟨wsEndpoint, sessionId⟩
    · exact .inl ⟨msg, rfl, rfl⟩
    · exact .inr (.inl ⟨rfl, rfl⟩)
    · exact .inr (.inr ⟨wsEndpoint, sessionId, rfl, rfl⟩)

/-- To the server, every step is a run of its own operations. -/
theorem step_reaches (uuid : UuidSource) (w : System) (a : Action) :
    Reaches (Server.step uuid) w.server (step uuid w a).server := by
  cases a with
  | configureServer sid host port reply =>
    show Reaches (Server.step uuid) w.server (configureServer w sid host port reply).1.server
    unfold configureServer
    split_ifs
    · exact Reaches.refl _
    · cases reply <;> exact Reaches.refl _
  | createUser sid draws delivery =>
    have hroute := exchange_reaches
      (fun s => RestAPI.createUser s [.str w.state.localIp, .int w.state.middlewarePort] draws)
      (RestAPI.createUser_reaches uuid w.server _ draws) delivery
    show Reaches (Server.step uuid) w.server (createUser w sid draws delivery).1.server
    unfold createUser
    split_ifs
    · exact Reaches.refl _
    · rcases hexchange : exchange (fun s => RestAPI.createUser s
        [.str w.state.localIp, .int w.state.middlewarePort] draws) w.server delivery
        with ⟨server, _ | ⟨status, body⟩⟩
      · rwa [hexchange] at hroute
      · rw [hexchange] at hroute
        dsimp only
        split_ifs <;> exact hroute
  | joinRoom sid peerId delivery answer attempts =>
    rw [step]
    rcases joinRoom_cases uuid w sid peerId delivery answer attempts with ⟨event, -, hjoin⟩ |
      ⟨peer, server, response, -, hexchange, hends⟩
    · rw [hjoin]
      exact Reaches.refl _
    have hroute := exchange_reaches
      (fun s => RestAPI.handlePeerConnection uuid s w.state.userId peer answer)
      (RestAPI.handlePeerConnection_reaches uuid w.server w.state.userId peer answer) delivery
    rw [hexchange] at hroute
    rcases hends with ⟨msg, -, hjoin⟩ | ⟨-, hjoin⟩ | ⟨wsEndpoint, sessionId, -, hjoin⟩
    · rw [hjoin]
      exact hroute
    · rw [hjoin]
      exact hroute
    · rw [hjoin]
      exact hroute.trans
        (connectToSessionWs_spec uuid { w with server := server } wsEndpoint sessionId attempts).2
  | leaveRoom delivery answer =>
    rw [step, leaveRoom]
    have hclose := closeClient_reaches uuid w
    split_ifs
    · exact hclose
    · exact hclose.trans (exchange_reaches (fun s => RestAPI.disconnectPeer s _ answer)
        (RestAPI.disconnectPeer_reaches uuid _ _ answer) delivery)
  | peerConnection wsEndpoint sessionId attempts =>
    rw [step, restPeerConnection]
    split_ifs
    · exact Reaches.refl _
    · exact (connectToSessionWs_spec uuid w wsEndpoint sessionId attempts).2
  | peerDisconnected peerId => exact closeClient_reaches uuid w
  | server a => exact Reaches.step w.server a

end ServerComms
