/-
The server (`server/server.py`, `server/peer_manager.py`, `server/client_notifier.py`,
`server/admin_routes.py`).

An operation returns the server after it together with its result or exception: `connect`
and `disconnect` may raise after they have changed something.  `ClientAnswer` is what comes
of the request to the contacted client.

* `connect_cases` — a call of `connect` changes no user, or marks two idle users as
  connected to each other;
* `disconnect_cases` — a call of `disconnect` changes no user, or resets the user and its
  recorded peer;
* `connect_eq_halves` — `connect` is what it does before the peer is asked, and what it makes
  of the answer.
-/
import QuantumVideoChat.UserManager
import QuantumVideoChat.SocketAPI
import QuantumVideoChat.Transition

/-- The entries of `event_log`, without their time stamps. -/
inductive ServerEvent
  | userAdded (userId : String)
  | userRemoved (userId : String)
  | peerConnected (userId peerId : String)
  | peerDisconnected (userId peerId : String)
  deriving DecidableEq

/-- The outcome of a POST to a client: a status code, no connection (`OSError`, which every
`requests.RequestException` is), or an exception of another class.  `urllib3` raises a
`ValueError` (`LocationParseError`) for a host such as `a..b`. -/
inductive ClientAnswer
  | status (code : ℕ)
  | unreachable
  | raises (error : PyError)
  deriving DecidableEq

structure Server where
  apiEndpoint : Endpoint
  users : UserStore := ∅
  eventLog : List ServerEvent := []
  socketApi : Option SocketAPI := some {}

namespace Server

/-- `event_log` is a `deque(maxlen=500)`. -/
def maxEvents : ℕ := 500

/-- `deque.append`: the oldest entry makes room. -/
def appendEvent (eventLog : List ServerEvent) (event : ServerEvent) : List ServerEvent :=
  (eventLog ++ [event]).drop (eventLog.length + 1 - maxEvents)

def logEvent (s : Server) (event : ServerEvent) : Server :=
  { s with eventLog := appendEvent s.eventLog event }

def addUser (s : Server) (apiEndpoint : List PyValue) (draws : IdDraws) :
    Server × Except ServerException String :=
  match UserManager.addUser s.users apiEndpoint draws with
  | .error e => (s, .error e)
  | .ok (userId, users) => ({ s with users := users }.logEvent (.userAdded userId), .ok userId)

def getUser (s : Server) (userId : String) : Except ServerException User :=
  UserManager.getUser s.users userId

/-- `remove_user` logs the removal of an unknown id too. -/
def removeUser (s : Server) (userId : String) : Server :=
  { s with users := UserManager.removeUser s.users userId }.logEvent (.userRemoved userId)

def setUserState (s : Server) (userId : String) (state : UserState) (peer : Option String) :
    Except ServerException Server :=
  match UserManager.setUserState s.users userId state peer with
  | .error e => .error e
  | .ok users => .ok { s with users := users }

/-- `ClientNotifier.notify`; the copies of the record and of the endpoint may raise. -/
def contactClient (s : Server) (userId route : String) (answer : ClientAnswer) :
    Except ServerException ClientAnswer :=
  match s.getUser userId with
  | .error e => .error e
  | .ok user =>
    match user.apiEndpoint.call route with
    | .error e => .error (.python e)
    | .ok _ => .ok answer

def startWebsocket (uuid : UuidSource) (s : Server) (users : List String) :
    Except ServerException (Server × String) :=
  match s.socketApi with
  | none => .error (.serverError "Cannot start WebSocket session without SocketAPI.")
  | some api =>
    let (api, sessionId) := api.createSession uuid users
    .ok ({ s with socketApi := some api }, sessionId)

/-! ### PeerConnectionManager -/

def httpOk : ℕ := 200

/-- A lookup that turns an unknown id into a bad request. -/
def findUser (s : Server) (userId : String) : Except ServerException User :=
  match s.getUser userId with
  | .error (.userNotFound _) => .error (.badRequest ("User " ++ userId ++ " does not exist."))
  | .error e => .error e
  | .ok user => .ok user

/-- The checks of `connect` before anything changes. -/
def checkConnect (s : Server) (userId peerId : String) : Except ServerException Unit :=
  if userId = peerId then
    .error (.badRequest ("Cannot intermediate connection between User " ++ userId
      ++ " and self."))
  else
    match s.findUser userId, s.findUser peerId with
    | .error e, _ => .error e
    | .ok _, .error e => .error e
    | .ok user, .ok peer =>
      if peer.state ≠ .idle then
        .error (.invalidState ("Cannot connect to peer User " ++ peerId
          ++ ": peer must be IDLE."))
      else if user.state ≠ .idle then
        .error (.invalidState ("Cannot connect User " ++ userId
          ++ " to peer: User must be IDLE."))
      else .ok ()

/-- The answer of the peer that `connect` goes on with. -/
def checkAnswer (peerId : String) : Except ServerException ClientAnswer →
    Except ServerException Unit
  | .error e => .error e
  | .ok .unreachable => .error (.badGateway ("Unable to reach peer User " ++ peerId ++ "."))
  | .ok (.raises e) => .error (.python e)
  | .ok (.status code) =>
    if code ≠ httpOk then
      .error (.badGateway ("Peer User " ++ peerId ++ " refused connection request."))
    else .ok ()

/-- The end of `connect`: both users are now connected to each other. -/
def finishConnect (s : Server) (userId peerId sessionId : String) :
    Server × Except ServerException (Endpoint × String) :=
  match s.setUserState userId .connected (some peerId) with
  | .error e => (s, .error e)
  | .ok s =>
    match s.setUserState peerId .connected (some userId) with
    | .error e => (s, .error e)
    | .ok s => (s.logEvent (.peerConnected userId peerId), .ok (s.apiEndpoint, sessionId))

def connect (uuid : UuidSource) (s : Server) (userId peerId : String) (answer : ClientAnswer) :
    Server × Except ServerException (Endpoint × String) :=
  match s.checkConnect userId peerId with
  | .error e => (s, .error e)
  | .ok () =>
    match s.startWebsocket uuid [userId, peerId] with
    | .error e => (s, .error e)
    -- from here on the session is there, whatever the peer answers
    | .ok (s, sessionId) =>
      match checkAnswer peerId (s.contactClient peerId "/peer_connection" answer) with
      | .error e => (s, .error e)
      | .ok () => s.finishConnect userId peerId sessionId

def resetUser (s : Server) (userId : String) : Server :=
  { s with users := UserManager.resetUser s.users userId }

def disconnect (s : Server) (userId : String) (answer : ClientAnswer) :
    Server × Except ServerException Unit :=
  match s.findUser userId with
  | .error e => (s, .error e)
  | .ok user =>
    match user.peer with
    | none => (s, .ok ())
    | some peerId =>
      let s := ((s.resetUser userId).resetUser peerId).logEvent
        (.peerDisconnected userId peerId)
      match s.contactClient peerId "/peer_disconnected" answer with
      | .error e => (s, .error e)
      | .ok (.raises e) => (s, .error (.python e))
      -- an unreachable peer is logged only
      | .ok _ => (s, .ok ())

/-- `admin_remove`, once authorised: the disconnect may fail. -/
def adminRemove (s : Server) (userId : String) (answer : ClientAnswer) : Server :=
  (s.disconnect userId answer).1.removeUser userId

@[simp] theorem logEvent_users (s : Server) (event : ServerEvent) :
    (s.logEvent event).users = s.users := by rw [logEvent]

@[simp] theorem logEvent_socketApi (s : Server) (event : ServerEvent) :
    (s.logEvent event).socketApi = s.socketApi := by rw [logEvent]

@[simp] theorem removeUser_users (s : Server) (userId : String) :
    (s.removeUser userId).users = s.users.erase userId := UserManager.removeUser_eq

theorem findUser_eq_ok {s : Server} {userId : String} {user : User} :
    s.findUser userId = .ok user ↔
      ∃ stored, s.users.lookup userId = some stored ∧
        stored.apiEndpoint.copy = .ok user.apiEndpoint ∧
        user.state = stored.state ∧ user.peer = stored.peer := by
  rw [← UserManager.getUser_eq_ok, findUser]
  show _ ↔ s.getUser userId = .ok user
  cases hget : s.getUser userId with
  | error e => cases e <;> simp
  | ok found => simp

theorem checkConnect_eq_ok {s : Server} {userId peerId : String}
    (h : s.checkConnect userId peerId = .ok ()) :
    userId ≠ peerId ∧
      (∃ user, s.users.lookup userId = some user ∧ user.state = .idle ∧
        ∃ e, user.apiEndpoint.copy = .ok e) ∧
      ∃ peer, s.users.lookup peerId = some peer ∧ peer.state = .idle ∧
        ∃ e, peer.apiEndpoint.copy = .ok e := by
  rw [checkConnect] at h
  by_cases heq : userId = peerId
  · rw [if_pos heq] at h
    exact absurd h (by simp)
  rw [if_neg heq] at h
  cases huser : s.findUser userId with
  | error e => simp [huser] at h
  | ok user =>
    cases hpeer : s.findUser peerId with
    | error e => simp [huser, hpeer] at h
    | ok peer =>
      simp only [huser, hpeer] at h
      obtain ⟨u, hu, hucopy, hustate, -⟩ := findUser_eq_ok.mp huser
      obtain ⟨p, hp, hpcopy, hpstate, -⟩ := findUser_eq_ok.mp hpeer
      split_ifs at h with hpidle huidle
      exact ⟨heq, ⟨u, hu, hustate ▸ not_not.mp huidle, _, hucopy⟩,
        p, hp, hpstate ▸ not_not.mp hpidle, _, hpcopy⟩

theorem startWebsocket_users {uuid : UuidSource} {s s' : Server} {sessionId : String}
    {users : List String} (h : s.startWebsocket uuid users = .ok (s', sessionId)) : s'.users = s.users := by
  rw [startWebsocket] at h
  cases hapi : s.socketApi with
  | none => simp [hapi] at h
  | some api =>
    simp only [hapi, Except.ok.injEq, Prod.mk.injEq] at h
    rw [← h.1]

/-- Whether a client can be contacted does not depend on its answer. -/
theorem contactClient_eq (s : Server) (userId route : String) (answer answer' : ClientAnswer) :
    s.contactClient userId route answer'
      = (s.contactClient userId route answer).map fun _ => answer' := by
  rw [contactClient, contactClient]
  cases s.getUser userId with
  | error e => rfl
  | ok user =>
    dsimp only
    cases user.apiEndpoint.call route <;> rfl

theorem checkAnswer_eq_ok {peerId : String} {answer : ClientAnswer} :
    checkAnswer peerId (.ok answer) = .ok () ↔ answer = .status httpOk := by
  cases answer with
  | unreachable => simp [checkAnswer]
  | raises e => simp [checkAnswer]
  | status code =>
    rw [checkAnswer]
    split_ifs with hcode
    · simp [hcode]
    · simp [not_not.mp hcode]

/-- The end of `connect` for two users in the store. -/
theorem finishConnect_eq (s : Server) {userId peerId : String} (hne : userId ≠ peerId)
    {user peer : User} (huser : s.users.lookup userId = some user)
    (hpeer : s.users.lookup peerId = some peer) (sessionId : String) :
    (s.finishConnect userId peerId sessionId).1.users
        = (s.users.insert userId { user with state := .connected, peer := some peerId }).insert
            peerId { peer with state := .connected, peer := some userId } ∧
      (s.finishConnect userId peerId sessionId).1.socketApi = s.socketApi ∧
      (s.finishConnect userId peerId sessionId).2 = .ok (s.apiEndpoint, sessionId) := by
  have hset : UserManager.setUserState s.users userId .connected (some peerId)
      = .ok (s.users.insert userId { user with state := .connected, peer := some peerId }) :=
    UserManager.setUserState_eq_ok.mpr ⟨by simp, user, huser, rfl⟩
  have hpeer' : (s.users.insert userId
      { user with state := .connected, peer := some peerId }).lookup peerId = some peer := by
    rw [Finmap.lookup_insert_of_ne _ hne.symm, hpeer]
  have hset' := UserManager.setUserState_eq_ok.mpr
    ⟨(by simp : UserState.connected = .idle ↔ some userId = none), peer, hpeer', rfl⟩
  simp only [finishConnect, setUserState, hset, hset', logEvent_users, logEvent_socketApi,
    and_self]

/-- A call of `connect` changes no user, or it succeeds and connects two idle users. -/
theorem connect_cases (uuid : UuidSource) (s : Server) (userId peerId : String)
    (answer : ClientAnswer) :
    ((s.connect uuid userId peerId answer).1.users = s.users ∧
      ∃ e, (s.connect uuid userId peerId answer).2 = .error e) ∨
    (userId ≠ peerId ∧
      ∃ user peer api, s.users.lookup userId = some user ∧ user.state = .idle ∧
        (∃ e, user.apiEndpoint.copy = .ok e) ∧
        s.users.lookup peerId = some peer ∧ peer.state = .idle ∧
        (∃ e, peer.apiEndpoint.copy = .ok e) ∧
        s.socketApi = some api ∧
        (s.connect uuid userId peerId answer).1.users
          = (s.users.insert userId { user with state := .connected, peer := some peerId }).insert
              peerId { peer with state := .connected, peer := some userId } ∧
        (s.connect uuid userId peerId answer).1.socketApi
          = some (api.createSession uuid [userId, peerId]).1 ∧
        (s.connect uuid userId peerId answer).2
          = .ok (s.apiEndpoint, (api.createSession uuid [userId, peerId]).2)) := by
  rw [connect]
  cases hcheck : s.checkConnect userId peerId with
  | error e => exact .inl ⟨rfl, e, rfl⟩
  | ok u =>
    obtain ⟨hne, ⟨user, huser, huidle, hucopy⟩, peer, hpeer, hpidle, hpcopy⟩ :=
      checkConnect_eq_ok hcheck
    cases hapi : s.socketApi with
    | none =>
      simp only [startWebsocket, hapi]
      exact .inl ⟨trivial, _, rfl⟩
    | some api =>
      simp only [startWebsocket, hapi]
      cases hanswer : checkAnswer peerId _ with
      | error e => exact .inl ⟨rfl, e, rfl⟩
      | ok u =>
        -- both users are in the store, so neither of the two state changes can fail
        right
        obtain ⟨husers, hsocket, hok⟩ := finishConnect_eq
          { s with socketApi := some (api.createSession uuid [userId, peerId]).1 } hne huser
          hpeer (api.createSession uuid [userId, peerId]).2
        exact ⟨hne, user, peer, api, huser, huidle, hucopy, hpeer, hpidle, hpcopy, rfl, husers,
          hsocket, hok⟩

/-- A state change touches nothing but the users. -/
theorem eq_of_setUserState {s s' : Server} {userId : String} {state : UserState}
    {peer : Option String} (h : s.setUserState userId state peer = .ok s') :
    ∃ users, UserManager.setUserState s.users userId state peer = .ok users ∧
      s' = { s with users := users } := by
  rw [setUserState] at h
  cases hset : UserManager.setUserState s.users userId state peer with
  | error e => simp [hset] at h
  | ok users =>
    simp only [hset, Except.ok.injEq] at h
    exact ⟨users, rfl, h.symm⟩

theorem setUserState_socketApi {s s' : Server} {userId : String} {state : UserState}
    {peer : Option String} (h : s.setUserState userId state peer = .ok s') :
    s'.socketApi = s.socketApi := by
  obtain ⟨users, -, rfl⟩ := eq_of_setUserState h
  rfl

theorem finishConnect_socketApi (s : Server) (userId peerId sessionId : String) :
    (s.finishConnect userId peerId sessionId).1.socketApi = s.socketApi := by
  rw [finishConnect]
  cases hset : s.setUserState userId .connected (some peerId) with
  | error e => rfl
  | ok s₁ =>
    have h₁ := setUserState_socketApi hset
    dsimp only
    cases hset' : s₁.setUserState peerId .connected (some userId) with
    | error e => exact h₁
    | ok s₂ =>
      dsimp only
      rw [logEvent_socketApi, setUserState_socketApi hset', h₁]

/-- Whatever comes of it, a call of `connect` creates at most one session. -/
theorem connect_socketApi (uuid : UuidSource) (s : Server) (userId peerId : String)
    (answer : ClientAnswer) :
    (s.connect uuid userId peerId answer).1.socketApi = s.socketApi ∨
      ∃ api, s.socketApi = some api ∧
        (s.connect uuid userId peerId answer).1.socketApi
          = some (api.createSession uuid [userId, peerId]).1 := by
  rw [connect]
  cases s.checkConnect userId peerId with
  | error e => exact .inl rfl
  | ok u =>
    cases hapi : s.socketApi with
    | none =>
      simp only [startWebsocket, hapi]
      exact .inl trivial
    | some api =>
      refine .inr ⟨api, rfl, ?_⟩
      simp only [startWebsocket, hapi]
      cases checkAnswer peerId _ with
      | error e => rfl
      | ok u => exact finishConnect_socketApi _ userId peerId _

/-- A user whose record can be copied is found. -/
theorem findUser_of_copy {s : Server} {userId : String} {user : User}
    (hlookup : s.users.lookup userId = some user) (hcopy : ∃ e, user.apiEndpoint.copy = .ok e) :
    ∃ found, s.findUser userId = .ok found ∧ found.state = user.state ∧
      found.peer = user.peer := by
  obtain ⟨endpoint, hcopy⟩ := hcopy
  exact ⟨⟨endpoint, user.state, user.peer⟩, findUser_eq_ok.mpr ⟨user, hlookup, hcopy, rfl, rfl⟩,
    rfl, rfl⟩

/-- A call of `disconnect` for a user with a recorded peer, whatever comes of the
notification. -/
theorem disconnect_resets {s : Server} {userId peerId : String} {user : User}
    (hfind : s.findUser userId = .ok user) (hpeer : user.peer = some peerId)
    (answer : ClientAnswer) :
    ∃ stored, s.users.lookup userId = some stored ∧ stored.peer = some peerId ∧
      (s.disconnect userId answer).1.users
        = UserManager.resetUser (UserManager.resetUser s.users userId) peerId := by
  obtain ⟨stored, hlookup, -, -, hstored⟩ := findUser_eq_ok.mp hfind
  refine ⟨stored, hlookup, hstored ▸ hpeer, ?_⟩
  simp only [disconnect, hfind, hpeer]
  -- the notification comes after the reset and changes nothing
  split <;> exact logEvent_users _ _

/-- A call of `disconnect` changes no user, and then the user is unknown, cannot be copied
or has no peer; or it resets the user and its recorded peer. -/
theorem disconnect_cases (s : Server) (userId : String) (answer : ClientAnswer) :
    ((s.disconnect userId answer).1 = s ∧
      ∀ user, s.users.lookup userId = some user → (∃ e, user.apiEndpoint.copy = .ok e) →
        user.peer = none) ∨
    ∃ user peerId, s.users.lookup userId = some user ∧ user.peer = some peerId ∧
      (s.disconnect userId answer).1.users
        = UserManager.resetUser (UserManager.resetUser s.users userId) peerId := by
  cases hfind : s.findUser userId with
  | error e =>
    refine .inl ⟨by rw [disconnect, hfind], fun user hlookup hcopy => ?_⟩
    obtain ⟨found, hok, -⟩ := findUser_of_copy hlookup hcopy
    exact absurd (hfind.symm.trans hok) (by simp)
  | ok user =>
    cases hp : user.peer with
    | none =>
      refine .inl ⟨by simp only [disconnect, hfind, hp], fun user' hlookup hcopy => ?_⟩
      obtain ⟨found, hok, -, hpeer⟩ := findUser_of_copy hlookup hcopy
      obtain rfl := Except.ok.inj (hfind.symm.trans hok)
      exact hpeer.symm.trans hp
    | some peerId =>
      obtain ⟨stored, hlookup, hpeer, husers⟩ := disconnect_resets hfind hp answer
      exact .inr ⟨stored, peerId, hlookup, hpeer, husers⟩

theorem disconnect_socketApi (s : Server) (userId : String) (answer : ClientAnswer) :
    (s.disconnect userId answer).1.socketApi = s.socketApi := by
  rw [disconnect]
  cases s.findUser userId with
  | error e => rfl
  | ok user =>
    cases hp : user.peer with
    | none => simp only [hp]
    | some peerId =>
      simp only [hp]
      split <;> exact logEvent_socketApi _ _

/-! ### The halves of `connect` -/

section

variable (uuid : UuidSource) (s : Server) (userId peerId : String)

/-- `connect` up to the request to the peer: the session the peer is asked to join. -/
def requestConnect : Server × Except ServerException String :=
  match s.checkConnect userId peerId with
  | .error e => (s, .error e)
  | .ok () =>
    match s.startWebsocket uuid [userId, peerId] with
    | .error e => (s, .error e)
    | .ok (s, sessionId) =>
      match s.contactClient peerId "/peer_connection" (.status httpOk) with
      | .error e => (s, .error e)
      | .ok _ => (s, .ok sessionId)

/-- `connect` from the answer of the peer on. -/
def answerConnect (sessionId : String) (answer : ClientAnswer) :
    Server × Except ServerException (Endpoint × String) :=
  match checkAnswer peerId (.ok answer) with
  | .error e => (s, .error e)
  | .ok () => s.finishConnect userId peerId sessionId

/-- Undisturbed, the two halves are `connect`. -/
theorem connect_eq_halves (answer : ClientAnswer) :
    s.connect uuid userId peerId answer
      = match s.requestConnect uuid userId peerId with
        | (s', .error e) => (s', .error e)
        | (s', .ok sessionId) => s'.answerConnect userId peerId sessionId answer := by
  rw [connect, requestConnect]
  cases hcheck : s.checkConnect userId peerId with
  | error e => rfl
  | ok u =>
    cases hstart : s.startWebsocket uuid [userId, peerId] with
    | error e => rfl
    | ok started =>
      obtain ⟨s', sessionId⟩ := started
      dsimp only
      -- whether the peer can be contacted does not depend on its answer
      rw [contactClient_eq s' peerId "/peer_connection" (.status httpOk) answer]
      cases s'.contactClient peerId "/peer_connection" (.status httpOk) with
      | error e => rfl
      | ok a => rfl

variable {uuid s userId peerId}

/-- The first half changes no record, and it goes on only for two idle users. -/
theorem requestConnect_cases {s' : Server} {r : Except ServerException String}
    (h : s.requestConnect uuid userId peerId = (s', r)) :
    s'.users = s.users ∧ ∀ sessionId, r = .ok sessionId →
      s.checkConnect userId peerId = .ok () := by
  rw [requestConnect] at h
  cases hcheck : s.checkConnect userId peerId with
  | error e =>
    simp only [hcheck, Prod.mk.injEq] at h
    obtain ⟨rfl, rfl⟩ := h
    exact ⟨rfl, fun sessionId hr => absurd hr (by simp)⟩
  | ok u =>
    refine ⟨?_, fun _ _ => rfl⟩
    simp only [hcheck] at h
    cases hstart : s.startWebsocket uuid [userId, peerId] with
    | error e =>
      simp only [hstart, Prod.mk.injEq] at h
      rw [← h.1]
    | ok started =>
      obtain ⟨s₁, sessionId⟩ := started
      simp only [hstart] at h
      have husers := startWebsocket_users hstart
      split at h <;> rw [← (Prod.mk.inj h).1, husers]

end

/-! ### Runs -/

/-- REST requests, and the events of the server's sockets. -/
inductive Action
  | addUser (apiEndpoint : List PyValue) (draws : IdDraws)
  | handlePeerConnection (userId peerId : String) (answer : ClientAnswer)
  | disconnectPeer (userId : String) (answer : ClientAnswer)
  | removeUser (userId : String)
  | adminRemove (userId : String) (answer : ClientAnswer)
  | socketConnect (sid : String) (auth : Option SocketAuth) (roomId : String)
  | socketDisconnect (sid : String)

/-- Relayed messages and frames change nothing, so they are not actions. -/
def step (uuid : UuidSource) (s : Server) : Action → Server
  | .addUser apiEndpoint draws => (s.addUser apiEndpoint draws).1
  | .handlePeerConnection userId peerId answer => (s.connect uuid userId peerId answer).1
  | .disconnectPeer userId answer => (s.disconnect userId answer).1
  | .removeUser userId => s.removeUser userId
  | .adminRemove userId answer => s.adminRemove userId answer
  | .socketConnect sid auth roomId =>
    { s with socketApi := s.socketApi.map fun api =>
        (SocketAPI.onConnect (J := Unit) api sid auth roomId).1 }
  | .socketDisconnect sid =>
    { s with socketApi := s.socketApi.map fun api => api.onDisconnect sid }

end Server
