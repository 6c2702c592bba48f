/-
Browsers, middlewares and the server, and the messages between them
(`middleware/server_comms.py`, `middleware/events.py`, `website/client/static/app.js`).

Messages in flight are delivered in any order and may be lost.  A handler that waits for an
answer is cut there, so `connect` of the server has a first half, which contacts the peer,
and a second half for the peer's answer.

Three things are remembered that no party stores: the calls in the order the server
established them, the call the server has each user in, and with a message of a teardown
the end of the call that it reacts to.

* `requestConnect_eq`, `answerConnect_server` — the handlers are the halves of `connect`;
* `answerConnect_cases`, `disconnect_cases` — what the server's handlers do to the calls;
* `leaveRoom_middleware` — what leaving a room does to the middleware.
-/
import QuantumVideoChat.CallPairing

namespace CallNetwork

/-- A call the server established. -/
structure Call where
  sessionId : String
  userId : String
  peerId : String
  deriving DecidableEq

namespace Call

def involves (call : Call) (userId : String) : Prop :=
  userId = call.userId ∨ userId = call.peerId

instance (call : Call) (userId : String) : Decidable (call.involves userId) :=
  inferInstanceAs (Decidable (_ ∨ _))

/-- The partner of `userId` in the call. -/
def other (call : Call) (userId : String) : String :=
  if userId = call.userId then call.peerId else call.userId

end Call

/-- The end of somebody's call with `peerId`, after `stamp` calls had been established. -/
structure CallEnd where
  stamp : ℕ
  peerId : String
  deriving DecidableEq

inductive Message
  /-- POST `/peer_connection` from the middleware of `userId` to the server -/
  | connectRequest (userId peerId : String)
  /-- POST `/peer_connection` from the server to the middleware of `peerId` -/
  | peerConnection (userId peerId sessionId : String)
  /-- what came of that request, on its way to the server -/
  | peerAnswer (userId peerId sessionId : String) (answer : ClientAnswer)
  /-- the server's 200 to the middleware of `userId` -/
  | connectResponse (userId peerId sessionId : String)
  /-- a started `connect_to_session_ws` in the middleware of `userId` -/
  | connectWs (userId peerId sessionId : String)
  /-- the `room-id` event of the session at the middleware of `userId` -/
  | roomId (userId sessionId : String)
  /-- `leave_room` from the browser of `userId` to its middleware -/
  | leaveRoom (userId : String) (reaction : Option CallEnd)
  /-- POST `/disconnect_peer` from the middleware of `userId` to the server -/
  | disconnectPeer (userId : String) (reaction : Option CallEnd)
  /-- POST `/peer_disconnected` from the server to the middleware of `userId` -/
  | peerDisconnected (userId peerId : String) (ended : CallEnd)
  /-- `peer-disconnected` from the middleware of `userId` to its browser -/
  | peerDisconnectedEvent (userId peerId : String) (ended : CallEnd)
  deriving DecidableEq

/-- The parts of `MiddlewareState` that belong to a call: the socket id and session of
`server_client` while it is connected, and the session a media thread was started for. -/
structure Middleware where
  serverClient : Option (String × String) := none
  videoThread : Option String := none
  audioThread : Option String := none
  deriving DecidableEq

structure World where
  server : Server
  middleware : String → Middleware := fun _ => {}
  net : List Message := []
  calls : List Call := []
  callOf : String → Option Call := fun _ => none

namespace World

def post (w : World) (messages : List Message) : World := { w with net := w.net ++ messages }

def setMiddleware (w : World) (userId : String) (mw : Middleware) : World :=
  { w with middleware := Function.update w.middleware userId mw }

def setServer (w : World) (server : Server) : World := { w with server := server }

def mapSocketApi (w : World) (f : SocketAPI → SocketAPI) : World :=
  w.setServer { w.server with socketApi := w.server.socketApi.map f }

/-! ### Middleware -/

/-- `server_client.disconnect()`, if it is connected; the server sees the socket close. -/
def closeSocket (w : World) (userId : String) : World :=
  match (w.middleware userId).serverClient with
  | none => w
  | some (sid, _) =>
    (w.mapSocketApi fun api => api.onDisconnect sid).setMiddleware userId
      { w.middleware userId with serverClient := none }

/-- Stop and forget both media threads. -/
def stopMedia (w : World) (userId : String) : World :=
  w.setMiddleware userId { w.middleware userId with videoThread := none, audioThread := none }

/-- `leave_room`. -/
def leaveRoom (w : World) (userId : String) (reaction : Option CallEnd) : World :=
  ((w.stopMedia userId).closeSocket userId).post [.disconnectPeer userId reaction]

/-- `_rest_peer_disconnected`. -/
def restPeerDisconnected (w : World) (userId peerId : String) (ended : CallEnd) : World :=
  ((w.post [.peerDisconnectedEvent userId peerId ended]).stopMedia userId).closeSocket userId

/-- `_rest_peer_connection` starts the socket connection and answers at once. -/
def restPeerConnection (w : World) (userId peerId sessionId : String) : World :=
  w.post [.connectWs peerId userId sessionId]

/-- `connect_to_session_ws`: an open socket is closed first; `sid` is the new socket, `none`
when all attempts fail.  When the session is complete, both users get a `room-id`. -/
def connectToSessionWs (w : World) (userId peerId sessionId : String) (sid : Option String)
    (roomId : String) : World :=
  let w := w.closeSocket userId
  match sid, w.server.socketApi with
  | some sid, some api =>
    match SocketAPI.onConnect (J := Unit) api sid
      (some ⟨some userId, some sessionId⟩) roomId with
    | (api, true, emissions) =>
      -- the emission goes to every socket of the session, and both users have one
      let w := (w.mapSocketApi fun _ => api).setMiddleware userId
        { w.middleware userId with serverClient := some (sid, sessionId) }
      if emissions = [] then w
      else w.post [.roomId userId sessionId, .roomId peerId sessionId]
    | (_, false, _) => w
  | _, _ => w

/-- `_server_room_id` starts both threads; a closed socket delivers nothing. -/
def serverRoomId (w : World) (userId sessionId : String) : World :=
  if (w.middleware userId).serverClient.map Prod.snd = some sessionId then
    w.setMiddleware userId { w.middleware userId with
      videoThread := some sessionId, audioThread := some sessionId }
  else w

/-! ### Browser -/

/-- The browser answers `peer-disconnected` with `leaveSession()`. -/
def onPeerDisconnected (w : World) (userId : String) (ended : CallEnd) : World :=
  w.post [.leaveRoom userId (some ended)]

/-! ### Server -/

/-- The first half of `connect`, up to the request to the peer. -/
def requestConnect (uuid : UuidSource) (w : World) (userId peerId : String) : World :=
  match w.server.checkConnect userId peerId with
  | .error _ => w
  | .ok () =>
    match w.server.startWebsocket uuid [userId, peerId] with
    | .error _ => w
    | .ok (server, sessionId) =>
      match server.contactClient peerId "/peer_connection" (.status Server.httpOk) with
      | .error _ => w.setServer server
      | .ok _ => (w.setServer server).post [.peerConnection userId peerId sessionId]

/-- The second half of `connect`, once the peer's answer is there. -/
def answerConnect (w : World) (userId peerId sessionId : String) (answer : ClientAnswer) :
    World :=
  match Server.checkAnswer peerId (.ok answer) with
  | .error _ => w
  | .ok () =>
    match w.server.finishConnect userId peerId sessionId with
    | (server, .error _) => w.setServer server
    | (server, .ok _) =>
      let call : Call := ⟨sessionId, userId, peerId⟩
      { w with
        server := server
        net := w.net ++ [.connectResponse userId peerId sessionId]
        calls := w.calls ++ [call]
        callOf := Function.update (Function.update w.callOf userId (some call)) peerId
          (some call) }

/-- `disconnect`; a notified peer learns that its call with `userId` has ended. -/
def disconnect (w : World) (userId : String) : World :=
  match w.server.findUser userId with
  | .error _ => w
  | .ok user =>
    match user.peer with
    | none => w
    | some peerId =>
      -- both users are reset before the peer is contacted
      let w' := { w with
        server := (w.server.disconnect userId (.status Server.httpOk)).1
        callOf := Function.update (Function.update w.callOf userId none) peerId none }
      match w'.server.contactClient peerId "/peer_disconnected" (.status Server.httpOk) with
      | .error _ => w'
      | .ok _ => w'.post [.peerDisconnected peerId userId ⟨w.calls.length, userId⟩]

end World

/-! ### Steps -/

/-- How the surroundings behave at a delivery: whether a contacted client handles the
request and what the server hears, the new socket, the drawn room id. -/
structure Circumstances where
  handled : Bool := true
  answer : ClientAnswer := .status 200
  sid : Option String := none
  roomId : String := ""

/-- The handler of a message. -/
def deliver (uuid : UuidSource) (w : World) (env : Circumstances) : Message → World
  | .connectRequest userId peerId => w.requestConnect uuid userId peerId
  | .peerConnection userId peerId sessionId =>
    (if env.handled then w.restPeerConnection userId peerId sessionId else w).post
      [.peerAnswer userId peerId sessionId env.answer]
  | .peerAnswer userId peerId sessionId answer => w.answerConnect userId peerId sessionId answer
  | .connectResponse userId peerId sessionId => w.post [.connectWs userId peerId sessionId]
  | .connectWs userId peerId sessionId =>
    w.connectToSessionWs userId peerId sessionId env.sid env.roomId
  | .roomId userId sessionId => w.serverRoomId userId sessionId
  | .leaveRoom userId reaction => w.leaveRoom userId reaction
  -- a POST `/disconnect_peer` does not say which call it is about
  | .disconnectPeer userId _ => w.disconnect userId
  | .peerDisconnected userId peerId ended => w.restPeerDisconnected userId peerId ended
  | .peerDisconnectedEvent userId _ ended => w.onPeerDisconnected userId ended

/-- A user registers, joins another one or leaves; a message arrives or is lost. -/
inductive Action
  | createUser (apiEndpoint : List PyValue) (draws : IdDraws)
  | joinRoom (userId peerId : String)
  | leaveSession (userId : String)
  | deliver (message : Message) (env : Circumstances)
  | lose (message : Message)

def step (uuid : UuidSource) (w : World) : Action → World
  | .createUser apiEndpoint draws => w.setServer (w.server.addUser apiEndpoint draws).1
  -- the middleware turns down a call to oneself
  | .joinRoom userId peerId =>
    if peerId = userId then w else w.post [.connectRequest userId peerId]
  | .leaveSession userId => w.post [.leaveRoom userId none]
  | .deliver message env =>
    if message ∈ w.net then deliver uuid { w with net := w.net.erase message } env message else w
  | .lose message => { w with net := w.net.erase message }

/-! ### The operations -/

variable {uuid : UuidSource} {w : World} {userId peerId sessionId : String}

/-- Neither the store of users nor the calls are touched. -/
structure SameCalls (w w' : World) : Prop where
  users : w'.server.users = w.server.users
  calls : w'.calls = w.calls
  callOf : w'.callOf = w.callOf

@[simp] theorem setMiddleware_middleware (w : World) (userId : String) (mw : Middleware) :
    (w.setMiddleware userId mw).middleware = Function.update w.middleware userId mw := rfl

@[simp] theorem closeSocket_net (w : World) (userId : String) :
    (w.closeSocket userId).net = w.net := by
  rw [World.closeSocket]
  split <;> rfl

theorem sameCalls_closeSocket (w : World) (userId : String) :
    SameCalls w (w.closeSocket userId) := by
  rw [World.closeSocket]
  split <;> exact ⟨rfl, rfl, rfl⟩

/-- Closing the socket of one user leaves the other middlewares alone. -/
theorem closeSocket_middleware (w : World) (userId : String) :
    (w.closeSocket userId).middleware
      = Function.update w.middleware userId { w.middleware userId with serverClient := none } := by
  rw [World.closeSocket]
  split
  · rename_i hnone
    rw [← hnone, Function.update_eq_self]
  · rfl

theorem sameCalls_leaveRoom (w : World) (userId : String) (reaction : Option CallEnd) :
    SameCalls w (w.leaveRoom userId reaction) :=
  have h := sameCalls_closeSocket (w.stopMedia userId) userId
  ⟨h.users, h.calls, h.callOf⟩

theorem leaveRoom_middleware (w : World) (userId : String) (reaction : Option CallEnd) :
    (w.leaveRoom userId reaction).middleware = Function.update w.middleware userId {} := by
  show ((w.stopMedia userId).closeSocket userId).middleware = _
  simp only [closeSocket_middleware, World.stopMedia, setMiddleware_middleware,
    Function.update_self, Function.update_idem]

theorem sameCalls_restPeerDisconnected (w : World) (userId peerId : String) (ended : CallEnd) :
    SameCalls w (w.restPeerDisconnected userId peerId ended) :=
  have h := sameCalls_closeSocket
    ((w.post [.peerDisconnectedEvent userId peerId ended]).stopMedia userId) userId
  ⟨h.users, h.calls, h.callOf⟩

theorem connectToSessionWs_spec (w : World) (userId peerId sessionId : String)
    (sid : Option String) (roomId : String) :
    SameCalls w (w.connectToSessionWs userId peerId sessionId sid roomId) ∧
      ∃ told ⊆ [Message.roomId userId sessionId, .roomId peerId sessionId],
        (w.connectToSessionWs userId peerId sessionId sid roomId).net = w.net ++ told := by
  have h := sameCalls_closeSocket w userId
  have hnet := closeSocket_net w userId
  unfold World.connectToSessionWs
  generalize w.closeSocket userId = w' at h hnet
  have hnone : ∃ told ⊆ [Message.roomId userId sessionId, .roomId peerId sessionId],
      w'.net = w.net ++ told := ⟨[], List.nil_subset _, by rw [hnet, List.append_nil]⟩
  dsimp only
  split
  · split
    · split
      · exact ⟨⟨h.users, h.calls, h.callOf⟩, hnone⟩
      · exact ⟨⟨h.users, h.calls, h.callOf⟩, _, List.Subset.refl _, congrArg (· ++ _) hnet⟩
    · exact ⟨h, hnone⟩
  · exact ⟨h, hnone⟩

theorem serverRoomId_spec (w : World) (userId sessionId : String) :
    SameCalls w (w.serverRoomId userId sessionId) ∧
      (w.serverRoomId userId sessionId).net = w.net := by
  rw [World.serverRoomId]
  split <;> exact ⟨⟨rfl, rfl, rfl⟩, rfl⟩

/-- The handlers of the network are the halves of `connect`. -/
theorem requestConnect_eq (uuid : UuidSource) (w : World) (userId peerId : String) :
    w.requestConnect uuid userId peerId
      = match w.server.requestConnect uuid userId peerId with
        | (server, .error _) => w.setServer server
        | (server, .ok sessionId) =>
          (w.setServer server).post [.peerConnection userId peerId sessionId] := by
  rw [World.requestConnect, Server.requestConnect]
  cases w.server.checkConnect userId peerId with
  | error e => rfl
  | ok u =>
    cases w.server.startWebsocket uuid [userId, peerId] with
    | error e => rfl
    | ok started =>
      dsimp only
      cases started.1.contactClient peerId "/peer_connection" (.status Server.httpOk) <;> rfl

theorem answerConnect_server (w : World) (userId peerId sessionId : String)
    (answer : ClientAnswer) :
    (w.answerConnect userId peerId sessionId answer).server
      = (w.server.answerConnect userId peerId sessionId answer).1 := by
  rw [World.answerConnect, Server.answerConnect]
  cases Server.checkAnswer peerId (.ok answer) with
  | error e => rfl
  | ok u =>
    dsimp only
    rcases w.server.finishConnect userId peerId sessionId with ⟨server, e | _⟩ <;> rfl

/-- A `connect` asks the peer, and then its answer decides, or it is over at once. -/
theorem requestConnect_cases (uuid : UuidSource) (w : World) (userId peerId : String) :
    (∃ server sessionId, w.server.checkConnect userId peerId = .ok () ∧
      server.users = w.server.users ∧
      w.requestConnect uuid userId peerId
        = (w.setServer server).post [.peerConnection userId peerId sessionId] ∧
      ∀ answer, (w.server.connect uuid userId peerId answer).1
        = ((w.setServer server).answerConnect userId peerId sessionId answer).server) ∨
    ∃ server, server.users = w.server.users ∧
      w.requestConnect uuid userId peerId = w.setServer server ∧
      ∀ answer, (w.server.connect uuid userId peerId answer).1 = server := by
  rw [requestConnect_eq]
  rcases hrequest : w.server.requestConnect uuid userId peerId with ⟨server, e | sessionId⟩
  · obtain ⟨husers, -⟩ := Server.requestConnect_cases hrequest
    refine .inr ⟨server, husers, rfl, fun answer => ?_⟩
    rw [Server.connect_eq_halves, hrequest]
  · obtain ⟨husers, hcheck⟩ := Server.requestConnect_cases hrequest
    refine .inl ⟨server, sessionId, hcheck sessionId rfl, husers, rfl, fun answer => ?_⟩
    rw [Server.connect_eq_halves, hrequest, answerConnect_server]
    rfl

/-- The answer of the peer changes nothing, or the call is established. -/
theorem answerConnect_cases (w : World) (sessionId : String) (answer : ClientAnswer)
    (hne : userId ≠ peerId) {user peer : User} (huser : w.server.users.lookup userId = some user)
    (hpeer : w.server.users.lookup peerId = some peer) :
    w.answerConnect userId peerId sessionId answer = w ∨
    (answer = .status Server.httpOk ∧ ∃ server,
      server.users
        = (w.server.users.insert userId
            { user with state := .connected, peer := some peerId }).insert peerId
            { peer with state := .connected, peer := some userId } ∧
      w.answerConnect userId peerId sessionId answer
        = { w with
            server := server
            net := w.net ++ [.connectResponse userId peerId sessionId]
            calls := w.calls ++ [⟨sessionId, userId, peerId⟩]
            callOf := Function.update
              (Function.update w.callOf userId (some ⟨sessionId, userId, peerId⟩)) peerId
              (some ⟨sessionId, userId, peerId⟩) }) := by
  rw [World.answerConnect]
  cases hcheck : Server.checkAnswer peerId (.ok answer) with
  | error e => exact .inl rfl
  | ok u =>
    obtain ⟨husers, -, hok⟩ := w.server.finishConnect_eq hne huser hpeer sessionId
    refine .inr ⟨Server.checkAnswer_eq_ok.mp hcheck, _, husers, ?_⟩
    rcases hfinish : w.server.finishConnect userId peerId sessionId with ⟨server, e | _⟩
    · rw [hfinish] at hok
      exact absurd hok (by simp)
    · rfl

theorem answerConnect_net (w : World) (userId peerId sessionId : String)
    (answer : ClientAnswer) :
    ∃ told ⊆ [Message.connectResponse userId peerId sessionId],
      (w.answerConnect userId peerId sessionId answer).net = w.net ++ told := by
  have hnone : ∃ told ⊆ [Message.connectResponse userId peerId sessionId],
      w.net = w.net ++ told := ⟨[], List.nil_subset _, (List.append_nil _).symm⟩
  rw [World.answerConnect]
  cases Server.checkAnswer peerId (.ok answer) with
  | error e => exact hnone
  | ok u =>
    dsimp only
    rcases w.server.finishConnect userId peerId sessionId with ⟨server, e | _⟩
    · exact hnone
    · exact ⟨_, List.Subset.refl _, rfl⟩

/-- A disconnect changes nothing, or it resets the user and its recorded peer, and the peer
may be told. -/
theorem disconnect_cases (w : World) (userId : String) :
    (w.disconnect userId = w ∧
      ∀ user, w.server.users.lookup userId = some user →
        (∃ e, user.apiEndpoint.copy = .ok e) → user.peer = none) ∨
    ∃ user peerId server, ∃ told ⊆ [Message.peerDisconnected peerId userId ⟨w.calls.length, userId⟩],
      w.server.users.lookup userId = some user ∧ user.peer = some peerId ∧
      server.users = UserManager.resetUser (UserManager.resetUser w.server.users userId) peerId ∧
      w.disconnect userId
        = { w with
            server := server
            net := w.net ++ told
            callOf := Function.update (Function.update w.callOf userId none) peerId none } := by
  rw [World.disconnect]
  cases hfind : w.server.findUser userId with
  | error e =>
    refine .inl ⟨rfl, fun user hlookup hcopy => ?_⟩
    obtain ⟨found, hok, -⟩ := Server.findUser_of_copy hlookup hcopy
    exact absurd (hfind.symm.trans hok) (by simp)
  | ok user =>
    cases hp : user.peer with
    | none =>
      refine .inl ⟨by simp [hp], fun user' hlookup hcopy => ?_⟩
      obtain ⟨found, hok, -, hpeer⟩ := Server.findUser_of_copy hlookup hcopy
      obtain rfl := Except.ok.inj (hfind.symm.trans hok)
      exact hpeer.symm.trans hp
    | some peerId =>
      right
      obtain ⟨stored, hlookup, hpeer, husers⟩ :=
        Server.disconnect_resets hfind hp (.status Server.httpOk)
      simp only [hp]
      -- the reset is done whether or not the peer can be told
      split
      · exact ⟨stored, peerId, _, [], List.nil_subset _, hlookup, hpeer, husers, by simp⟩
      · exact ⟨stored, peerId, _, _, List.Subset.refl _, hlookup, hpeer, husers, rfl⟩

end CallNetwork
