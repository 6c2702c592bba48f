/-
The identity of a middleware (`middleware/server_comms.py`, `middleware/events.py`,
`middleware/state.py`).

A middleware has the address of one server and one user id: `configure_server` changes the
first, `create_user` the second, and `join_room` and `leave_room` act under both.  The ids
the servers hand out and the requests of the middleware are recorded, so that a request can
be held against what its receiver has issued.

* `createUser_registered` — the two halves of `create_user`, with nothing in between;
* `recorded_step` — an id handed out stays in the store of its server, and no server hands
  out the same id twice;
* `ownIdentity_throughout_iff` — when a middleware acts under its own identity only.
-/
import QuantumVideoChat.CallPairing
import QuantumVideoChat.ServerComms

/-! ### Users stay -/

namespace Server

variable {s : Server} {userId : String}

theorem mem_users_connect (uuid : UuidSource) (caller peerId : String) (answer : ClientAnswer)
    (h : userId ∈ s.users) : userId ∈ (s.connect uuid caller peerId answer).1.users := by
  rcases s.connect_cases uuid caller peerId answer with ⟨husers, -⟩ |
    ⟨-, user, peer, api, -, -, -, -, -, -, -, husers, -⟩
  · rwa [husers]
  · rw [husers, Finmap.mem_insert, Finmap.mem_insert]
    exact .inr (.inr h)

theorem mem_users_resetUser (users : UserStore) (other : String) (h : userId ∈ users) :
    userId ∈ UserManager.resetUser users other := by
  rw [← Finmap.lookup_isSome] at h ⊢
  rw [UserManager.lookup_resetUser]
  split_ifs
  · rwa [Option.isSome_map]
  · exact h

theorem mem_users_disconnect (caller : String) (answer : ClientAnswer) (h : userId ∈ s.users) :
    userId ∈ (s.disconnect caller answer).1.users := by
  rcases s.disconnect_cases caller answer with ⟨heq, -⟩ | ⟨user, peerId, -, -, husers⟩
  · rwa [heq]
  · rw [husers]
    exact mem_users_resetUser _ _ (mem_users_resetUser _ _ h)

end Server

namespace RestAPI

/-- POST `/create_user` hands out an id that was free, or nothing happens and the status says
so. -/
theorem createUser_cases (s : Server) (apiEndpoint : List PyValue) (draws : IdDraws) :
    (∃ userId user, userId ∉ s.users ∧
      (createUser s apiEndpoint draws).1.users = s.users.insert userId user ∧
      (createUser s apiEndpoint draws).2 = ⟨200, .user userId⟩) ∨
    ((createUser s apiEndpoint draws).1 = s ∧ ∃ e,
      (createUser s apiEndpoint draws).2 = handleExceptions e) := by
  rw [createUser]
  cases checkParameter "api_endpoint" apiEndpoint.isEmpty with
  | error e => exact .inr ⟨rfl, e, rfl⟩
  | ok u =>
    dsimp only
    rw [Server.addUser]
    cases hadd : UserManager.addUser s.users apiEndpoint draws with
    | error e => exact .inr ⟨rfl, e, rfl⟩
    | ok added =>
      obtain ⟨-, hnew, endpoint, -, husers⟩ := UserManager.addUser_eq_ok.mp hadd
      refine .inl ⟨added.1, { apiEndpoint := endpoint }, hnew, ?_, rfl⟩
      rw [← husers]
      exact Server.logEvent_users _ _

end RestAPI

namespace ServerIdentity

open ServerComms Transition

variable {Host : Type*} [DecidableEq Host]

/-! ### A middleware among servers -/

/-- A user id handed out by the server `host`, to this middleware or to somebody else. -/
structure Issue (Host : Type*) where
  host : Host
  userId : String
  ours : Bool
  deriving DecidableEq

/-- A POST to `/peer_connection` or `/disconnect_peer` under a user id. -/
structure ActingRequest (Host : Type*) where
  host : Host
  route : String
  userId : String
  deriving DecidableEq

/-- A `create_user` that waits: the server it has asked, and what will come back. -/
structure Registration (Host : Type*) where
  host : Host
  response : Except String Response

/-- The session sockets are left out: they change neither the address nor the id. -/
structure World (Host : Type*) where
  servers : Host → Server
  state : MiddlewareState
  issues : List (Issue Host) := []
  requests : List (ActingRequest Host) := []
  registrations : List (Registration Host) := []

/-- Nobody is registered anywhere, and the middleware has neither an address nor an id. -/
def World.init (apiEndpoint : Host → Endpoint) (localIp : String) (middlewarePort : ℤ) :
    World Host where
  servers host := { apiEndpoint := apiEndpoint host }
  state := { localIp := localIp, middlewarePort := middlewarePort }

/-- What the server would hand out for POST `/create_user`, if the request gets there. -/
def handedOut (s : Server) (apiEndpoint : List PyValue) (draws : IdDraws) :
    Delivery → Option String
  | .unreached _ | .rateLimited => none
  | .lost _ | .answered =>
    match (RestAPI.createUser s apiEndpoint draws).2.body with
    | .user userId => some userId
    | _ => none

/-- POST `/create_user` at `host`. -/
def register (w : World Host) (host : Host) (ours : Bool) (apiEndpoint : List PyValue)
    (draws : IdDraws) (delivery : Delivery) : World Host × Except String Response :=
  match exchange (fun s => RestAPI.createUser s apiEndpoint draws) (w.servers host) delivery with
  | (server, response) =>
    ({ w with
        servers := Function.update w.servers host server
        issues := w.issues ++
          (handedOut (w.servers host) apiEndpoint draws delivery).toList.map (⟨host, ·, ours⟩) },
      response)

/-- The id that `create_user` stores, unless the request has failed. -/
def storedId : Except String Response → Option String
  | .error _ => none
  | .ok ⟨status, body⟩ =>
    if 400 ≤ status then none
    else
      match body with
      | .user userId => some userId
      | _ => some ""

/-- The end of `create_user`. -/
def finishCreateUser (state : MiddlewareState) (response : Except String Response) :
    MiddlewareState :=
  match storedId response with
  | none => state
  | some userId => { state with userId := userId }

section

variable (hostAt : String × ℤ → Host)

/-- The server at the address of the middleware. -/
def World.current (w : World Host) : Host := hostAt (w.state.serverHost, w.state.serverPort)

/-- `create_user` up to its answer. -/
def createUser (w : World Host) (draws : IdDraws) (delivery : Delivery) : World Host :=
  if w.state.serverHost = "" then w
  else
    match register w (w.current hostAt) true
      [.str w.state.localIp, .int w.state.middlewarePort] draws delivery with
    | (w', response) =>
      { w' with registrations := w.registrations ++ [⟨w.current hostAt, response⟩] }

/-- A request to the current server under the id of the middleware. -/
def post (w : World Host) (route : String) (handler : Server → Server × Response)
    (delivery : Delivery) : World Host :=
  { w with
    servers := Function.update w.servers (w.current hostAt)
      (exchange handler (w.servers (w.current hostAt)) delivery).1
    requests := w.requests ++ [⟨w.current hostAt, route, w.state.userId⟩] }

def joinRoom (uuid : UuidSource) (w : World Host) (peerId : Option String) (delivery : Delivery)
    (answer : ClientAnswer) : World Host :=
  match joinRequest w.state.serverHost w.state.userId peerId with
  | .error _ => w
  | .ok peerId =>
    post hostAt w "/peer_connection"
      (fun s => RestAPI.handlePeerConnection uuid s w.state.userId peerId answer) delivery

def leaveRoom (w : World Host) (delivery : Delivery) (answer : ClientAnswer) : World Host :=
  if w.state.serverHost = "" ∨ w.state.userId = "" then w
  else
    post hostAt w "/disconnect_peer" (fun s => RestAPI.disconnectPeer s w.state.userId answer)
      delivery

/-! ### Steps -/

/-- The middleware hears from a server it is to use, asks for an id, gets it, or makes a
request; or a server does something on behalf of others. -/
inductive Action (Host : Type*)
  | configureServer (sid host : String) (port : ℤ) (reply : StatusReply)
  | createUser (draws : IdDraws) (delivery : Delivery)
  | registered (i : ℕ)
  | joinRoom (peerId : Option String) (delivery : Delivery) (answer : ClientAnswer)
  | leaveRoom (delivery : Delivery) (answer : ClientAnswer)
  | server (host : Host) (a : Server.Action)

/-- An operation of a server for others.  Nobody is removed: the id could be handed out
again. -/
def serverStep (uuid : UuidSource) (w : World Host) (host : Host) : Server.Action → World Host
  | .addUser apiEndpoint draws => (register w host false apiEndpoint draws .answered).1
  | .removeUser _ | .adminRemove _ _ => w
  | a => { w with servers := Function.update w.servers host ((w.servers host).step uuid a) }

def step (uuid : UuidSource) (w : World Host) : Action Host → World Host
  -- a JSON body that is no object leaves the state as one that is not JSON does
  | .configureServer sid host port reply =>
    { w with state := (ServerComms.configureServer ⟨w.servers (w.current hostAt), w.state⟩ sid host
        port reply).1.state }
  | .createUser draws delivery => createUser hostAt w draws delivery
  | .registered i =>
    match w.registrations[i]? with
    | none => w
    | some r =>
      { w with
        state := finishCreateUser w.state r.response
        registrations := w.registrations.eraseIdx i }
  | .joinRoom peerId delivery answer => joinRoom hostAt uuid w peerId delivery answer
  | .leaveRoom delivery answer => leaveRoom hostAt w delivery answer
  | .server host a => serverStep uuid w host a

/-- With nothing in between, the two halves of `create_user` are the whole. -/
theorem createUser_registered (uuid : UuidSource) (w : World Host) (hidle : w.registrations = [])
    (sid : String) (draws : IdDraws) (delivery : Delivery) :
    let w' := step hostAt uuid (step hostAt uuid w (.createUser draws delivery)) (.registered 0)
    let whole := (ServerComms.createUser ⟨w.servers (w.current hostAt), w.state⟩ sid draws
      delivery).1
    w'.servers (w.current hostAt) = whole.server ∧ w'.state = whole.state := by
  dsimp only
  rw [step, step, createUser, ServerComms.createUser]
  split_ifs with hhost
  · simp [hidle]
  · rw [register]
    dsimp only
    rcases exchange (fun s => RestAPI.createUser s
      [.str w.state.localIp, .int w.state.middlewarePort] draws)
      (w.servers (w.current hostAt)) delivery with ⟨server, _ | ⟨status, body⟩⟩
    · simp [hidle, finishCreateUser, storedId]
    · simp only [hidle, List.nil_append, List.getElem?_cons_zero, finishCreateUser, storedId,
        Function.update_self]
      split_ifs with hstatus
      · exact ⟨rfl, rfl⟩
      · cases body <;> exact ⟨rfl, rfl⟩

/-! ### What the servers have handed out -/

/-- An id handed out stays in the store of its server, the same id is not handed out twice,
and the answers on their way bring ids that were handed out to this middleware. -/
structure Recorded (w : World Host) : Prop where
  stored : ∀ i ∈ w.issues, i.userId ∈ (w.servers i.host).users
  unique : ∀ i ∈ w.issues, ∀ j ∈ w.issues, i.host = j.host → i.userId = j.userId → i = j
  answers : ∀ r ∈ w.registrations, ∀ userId, storedId r.response = some userId → userId ≠ "" →
    ⟨r.host, userId, true⟩ ∈ w.issues

variable {hostAt} {uuid : UuidSource} {w w' : World Host}

omit [DecidableEq Host] in
theorem recorded_init (apiEndpoint : Host → Endpoint) (localIp : String) (middlewarePort : ℤ) :
    Recorded (World.init apiEndpoint localIp middlewarePort) where
  stored := fun _ hi => absurd hi List.not_mem_nil
  unique := fun _ hi => absurd hi List.not_mem_nil
  answers := fun _ hr => absurd hr List.not_mem_nil

theorem storedId_handleExceptions (e : ServerException) :
    storedId (.ok (RestAPI.handleExceptions e)) = none := by
  cases e <;> rfl

/-- A server that forgets nobody keeps the record right. -/
theorem recorded_update (h : Recorded w) {host : Host} {server : Server}
    (hkeeps : ∀ userId, userId ∈ (w.servers host).users → userId ∈ server.users)
    (hservers : w'.servers = Function.update w.servers host server)
    (hissues : w'.issues = w.issues) (hregistrations : w'.registrations = w.registrations) :
    Recorded w' where
  stored := by
    intro i hi
    rw [hissues] at hi
    rw [hservers]
    by_cases hhost : i.host = host
    · rw [hhost, Function.update_self]
      exact hkeeps _ (hhost ▸ h.stored i hi)
    · rw [Function.update_of_ne hhost]
      exact h.stored i hi
  unique := hissues ▸ h.unique
  answers := hissues ▸ hregistrations ▸ h.answers

theorem handedOut_of_raises {s : Server} {apiEndpoint : List PyValue} {draws : IdDraws}
    {e : ServerException}
    (h : (RestAPI.createUser s apiEndpoint draws).2 = RestAPI.handleExceptions e)
    (delivery : Delivery) : handedOut s apiEndpoint draws delivery = none := by
  have hbody : ∀ userId, (RestAPI.handleExceptions e).body ≠ .user userId := by
    cases e <;> simp [RestAPI.handleExceptions]
  cases delivery with
  | unreached exc => rfl
  | rateLimited => rfl
  | lost exc => simp [handedOut, h]
  | answered => simp [handedOut, h]

/-- POST `/create_user` hands out nothing, or one id that was free at the server; and only
this id comes back. -/
theorem register_cases (w : World Host) (host : Host) (ours : Bool)
    (apiEndpoint : List PyValue) (draws : IdDraws) (delivery : Delivery) :
    ((register w host ours apiEndpoint draws delivery).1
          = { w with servers := Function.update w.servers host (w.servers host) } ∧
        storedId (register w host ours apiEndpoint draws delivery).2 = none) ∨
    ∃ userId user server, userId ∉ (w.servers host).users ∧
      server.users = (w.servers host).users.insert userId user ∧
      (register w host ours apiEndpoint draws delivery).1
          = { w with
              servers := Function.update w.servers host server
              issues := w.issues ++ [⟨host, userId, ours⟩] } ∧
      ∀ stored, storedId (register w host ours apiEndpoint draws delivery).2 = some stored →
        stored = userId := by
  rw [register]
  cases delivery with
  | unreached exc => exact .inl ⟨by simp [exchange, handedOut], rfl⟩
  | rateLimited => exact .inl ⟨by simp [exchange, handedOut], rfl⟩
  | lost exc =>
    rcases RestAPI.createUser_cases (w.servers host) apiEndpoint draws with
      ⟨userId, user, hnew, husers, hresponse⟩ | ⟨hsame, e, hresponse⟩
    · refine .inr ⟨userId, user, _, hnew, husers, ?_, ?_⟩
      · simp [exchange, handedOut, hresponse]
      · intro stored hstored
        exact absurd hstored (by simp [exchange, storedId])
    · rw [handedOut_of_raises hresponse]
      exact .inl ⟨by simp [exchange, hsame], rfl⟩
  | answered =>
    rcases RestAPI.createUser_cases (w.servers host) apiEndpoint draws with
      ⟨userId, user, hnew, husers, hresponse⟩ | ⟨hsame, e, hresponse⟩
    · refine .inr ⟨userId, user, _, hnew, husers, ?_, ?_⟩
      · simp [exchange, handedOut, hresponse]
      · intro stored hstored
        rw [exchange, hresponse] at hstored
        exact (Option.some_inj.mp hstored).symm
    · rw [handedOut_of_raises hresponse]
      refine .inl ⟨by simp [exchange, hsame], ?_⟩
      · rw [exchange, hresponse]
        exact storedId_handleExceptions e

/-- Adding a new id to the record. -/
theorem recorded_register (h : Recorded w) (host : Host) (ours : Bool)
    (apiEndpoint : List PyValue) (draws : IdDraws) (delivery : Delivery) :
    Recorded (register w host ours apiEndpoint draws delivery).1 ∧
      (∀ i ∈ w.issues, i ∈ (register w host ours apiEndpoint draws delivery).1.issues) ∧
      ∀ userId, storedId (register w host ours apiEndpoint draws delivery).2 = some userId →
        ⟨host, userId, ours⟩ ∈ (register w host ours apiEndpoint draws delivery).1.issues := by
  rcases register_cases w host ours apiEndpoint draws delivery with ⟨heq, hnone⟩ |
    ⟨userId, user, server, hnew, husers, heq, hstored⟩
  · rw [heq, hnone]
    refine ⟨recorded_update h (fun _ hmem => hmem) rfl rfl rfl, fun i hi => hi, ?_⟩
    intro userId hid
    exact absurd hid (by simp)
  · rw [heq]
    have hfresh : ∀ i ∈ w.issues, i.host = host → i.userId ≠ userId := by
      rintro i hi rfl rfl
      exact hnew (h.stored i hi)
    have hkeeps : ∀ id, id ∈ (w.servers host).users → id ∈ server.users := by
      intro id hid
      rw [husers, Finmap.mem_insert]
      exact .inr hid
    have hupdate : Recorded { w with servers := Function.update w.servers host server } :=
      recorded_update h hkeeps rfl rfl rfl
    refine ⟨⟨?_, ?_, ?_⟩, fun i hi => List.mem_append_left _ hi, ?_⟩
    · intro i hi
      rcases List.mem_append.mp hi with hi | hi
      · exact hupdate.stored i hi
      · obtain rfl := List.mem_singleton.mp hi
        dsimp only
        rw [Function.update_self, husers]
        exact Finmap.mem_insert.mpr (.inl rfl)
    · intro i hi j hj hhost hid
      rcases List.mem_append.mp hi with hi | hi <;> rcases List.mem_append.mp hj with hj | hj
      · exact h.unique i hi j hj hhost hid
      · obtain rfl := List.mem_singleton.mp hj
        exact absurd hid (hfresh i hi hhost)
      · obtain rfl := List.mem_singleton.mp hi
        exact absurd hid.symm (hfresh j hj hhost.symm)
      · rw [List.mem_singleton.mp hi, List.mem_singleton.mp hj]
    · intro r hr id hid hne
      exact List.mem_append_left _ (h.answers r hr id hid hne)
    · intro id hid
      rw [hstored id hid]
      exact List.mem_append_right _ (List.mem_singleton.mpr rfl)

/-- A request keeps the record right when its handler forgets nobody. -/
theorem recorded_post (h : Recorded w) (route : String) {handler : Server → Server × Response}
    (hkeeps : ∀ s userId, userId ∈ s.users → userId ∈ (handler s).1.users)
    (delivery : Delivery) : Recorded (post hostAt w route handler delivery) := by
  refine recorded_update h ?_ rfl rfl rfl
  cases delivery with
  | unreached exc => exact fun _ hid => hid
  | rateLimited => exact fun _ hid => hid
  | lost exc => exact hkeeps _
  | answered => exact hkeeps _

theorem recorded_serverStep (uuid : UuidSource) (h : Recorded w) (host : Host)
    (a : Server.Action) :
    Recorded (serverStep uuid w host a) ∧ (∀ i ∈ w.issues, i ∈ (serverStep uuid w host a).issues) := by
  cases a with
  | addUser apiEndpoint draws =>
    obtain ⟨hrecorded, hissues, -⟩ := recorded_register h host false apiEndpoint draws .answered
    exact ⟨hrecorded, hissues⟩
  | removeUser userId => exact ⟨h, fun _ hi => hi⟩
  | adminRemove userId answer => exact ⟨h, fun _ hi => hi⟩
  | handlePeerConnection userId peerId answer =>
    exact ⟨recorded_update h (fun _ => Server.mem_users_connect uuid userId peerId answer) rfl rfl
      rfl, fun _ hi => hi⟩
  | disconnectPeer userId answer =>
    exact ⟨recorded_update h (fun _ => Server.mem_users_disconnect userId answer) rfl rfl rfl,
      fun _ hi => hi⟩
  | socketConnect sid auth roomId =>
    have hkeeps : ∀ id, id ∈ (w.servers host).users →
        id ∈ ((w.servers host).step uuid (.socketConnect sid auth roomId)).users := fun _ hid => hid
    exact ⟨recorded_update h hkeeps rfl rfl rfl, fun _ hi => hi⟩
  | socketDisconnect sid =>
    have hkeeps : ∀ id, id ∈ (w.servers host).users →
        id ∈ ((w.servers host).step uuid (.socketDisconnect sid)).users := fun _ hid => hid
    exact ⟨recorded_update h hkeeps rfl rfl rfl, fun _ hi => hi⟩

/-- What a step does to the record and to the requests. -/
structure Steps (hostAt : String × ℤ → Host) (w w' : World Host) : Prop where
  recorded : Recorded w'
  issues : ∀ i ∈ w.issues, i ∈ w'.issues
  /-- a request goes to the current server, under the current id -/
  requests : ∀ r ∈ w'.requests, r ∈ w.requests ∨
    (r.host = w.current hostAt ∧ r.userId = w.state.userId ∧ w.state.userId ≠ "")

theorem steps_post (h : Recorded w) (hid : w.state.userId ≠ "") (route : String)
    {handler : Server → Server × Response}
    (hkeeps : ∀ s userId, userId ∈ s.users → userId ∈ (handler s).1.users)
    (delivery : Delivery) : Steps hostAt w (post hostAt w route handler delivery) where
  recorded := recorded_post h route hkeeps delivery
  issues := fun _ hi => hi
  requests := by
    intro r hr
    rcases List.mem_append.mp hr with hr | hr
    · exact .inl hr
    · obtain rfl := List.mem_singleton.mp hr
      exact .inr ⟨rfl, rfl, hid⟩

theorem mem_users_handlePeerConnection (uuid : UuidSource) (userId peerId : String)
    (answer : ClientAnswer) (s : Server) (id : String) (h : id ∈ s.users) :
    id ∈ (RestAPI.handlePeerConnection uuid s userId peerId answer).1.users := by
  rcases RestAPI.handlePeerConnection_cases uuid s userId peerId answer with ⟨-, heq, -⟩ |
    ⟨-, husers, -⟩
  · rw [heq]
    exact Server.mem_users_connect uuid userId peerId answer h
  · rwa [husers]

theorem mem_users_disconnectPeer (userId : String) (answer : ClientAnswer) (s : Server)
    (id : String) (h : id ∈ s.users) :
    id ∈ (RestAPI.disconnectPeer s userId answer).1.users := by
  have hkeeps := Server.mem_users_disconnect userId answer h
  rw [RestAPI.disconnectPeer]
  cases RestAPI.checkParameter "user_id" userId.isEmpty with
  | error e => exact h
  | ok u =>
    dsimp only
    rcases hdis : s.disconnect userId answer with ⟨s', e | u⟩ <;> rwa [hdis] at hkeeps

variable (hostAt) in
theorem recorded_step (uuid : UuidSource) (h : Recorded w) (a : Action Host) :
    Steps hostAt w (step hostAt uuid w a) := by
  have hsame : ∀ r ∈ w.requests, r ∈ w.requests ∨
      (r.host = w.current hostAt ∧ r.userId = w.state.userId ∧ w.state.userId ≠ "") :=
    fun _ hr => .inl hr
  cases a with
  | configureServer sid host port reply =>
    exact ⟨⟨h.stored, h.unique, h.answers⟩, fun _ hi => hi, hsame⟩
  | createUser draws delivery =>
    rw [step, createUser]
    split_ifs with hhost
    · exact ⟨h, fun _ hi => hi, hsame⟩
    · obtain ⟨hrecorded, hissues, hanswer⟩ := recorded_register h (w.current hostAt) true
        [.str w.state.localIp, .int w.state.middlewarePort] draws delivery
      refine ⟨⟨hrecorded.stored, hrecorded.unique, ?_⟩, hissues, hsame⟩
      intro r hr userId hid hne
      rcases List.mem_append.mp hr with hr | hr
      · exact hissues _ (h.answers r hr userId hid hne)
      · obtain rfl := List.mem_singleton.mp hr
        exact hanswer userId hid
  | registered i =>
    rw [step]
    cases hget : w.registrations[i]? with
    | none => exact ⟨h, fun _ hi => hi, hsame⟩
    | some r =>
      refine ⟨⟨h.stored, h.unique, fun r' hr' => ?_⟩, fun _ hi => hi, hsame⟩
      exact h.answers r' (List.mem_of_mem_eraseIdx hr')
  | joinRoom peerId delivery answer =>
    rw [step, joinRoom]
    cases hrequest : joinRequest w.state.serverHost w.state.userId peerId with
    | error event => exact ⟨h, fun _ hi => hi, hsame⟩
    | ok peer =>
      exact steps_post h (joinRequest_eq_ok.mp hrequest).2.1 "/peer_connection"
        (mem_users_handlePeerConnection uuid w.state.userId peer answer) delivery
  | leaveRoom delivery answer =>
    rw [step, leaveRoom]
    split_ifs with hcheck
    · exact ⟨h, fun _ hi => hi, hsame⟩
    · exact steps_post h (not_or.mp hcheck).2 "/disconnect_peer"
        (mem_users_disconnectPeer w.state.userId answer) delivery
  | server host a =>
    obtain ⟨hrecorded, hissues⟩ := recorded_serverStep uuid h host a
    refine ⟨hrecorded, hissues, ?_⟩
    rw [step]
    cases a <;> exact hsame

/-! ### The identity -/

/-- The id of the middleware, if there is one, was issued to it by its current server. -/
def IssuedByCurrent (hostAt : String × ℤ → Host) (w : World Host) : Prop :=
  w.state.userId ≠ "" → ⟨w.current hostAt, w.state.userId, true⟩ ∈ w.issues

/-- The id of the middleware comes from its current server, and every request went to a server
that has issued the id in it to this middleware, and to nobody else. -/
structure OwnIdentity (hostAt : String × ℤ → Host) (w : World Host) : Prop where
  identity : IssuedByCurrent hostAt w
  requests : ∀ r ∈ w.requests, ⟨r.host, r.userId, true⟩ ∈ w.issues ∧
    ∀ i ∈ w.issues, i.host = r.host → i.userId = r.userId → i.ours = true

/-- `configure_server` stores the address: there is a host, and it has answered. -/
def StoresAddress (host : String) (reply : StatusReply) : Prop :=
  host ≠ "" ∧ ∀ msg, reply ≠ .failed msg

/-- The step does not part the address from the id.  An address is stored while there is no
id, or it is one of the same server, or of one that has issued the same id to this
middleware; an id is stored while the server that was asked for it is the current one, or
this one has issued the same id to this middleware. -/
def KeepsIdentity (hostAt : String × ℤ → Host) (w : World Host) : Action Host → Prop
  | .configureServer _ host port reply =>
    StoresAddress host reply → w.state.userId = "" ∨ hostAt (host, port) = w.current hostAt ∨
      ⟨hostAt (host, port), w.state.userId, true⟩ ∈ w.issues
  | .registered i =>
    ∀ r, w.registrations[i]? = some r → ∀ userId, storedId r.response = some userId →
      userId = "" ∨ r.host = w.current hostAt ∨ ⟨w.current hostAt, userId, true⟩ ∈ w.issues
  | _ => True

theorem configureServer_cases (s : Server) (state : MiddlewareState) (sid host : String)
    (port : ℤ) (reply : StatusReply) :
    (ServerComms.configureServer ⟨s, state⟩ sid host port reply).1.state.userId = state.userId ∧
      ((StoresAddress host reply ∧
          (ServerComms.configureServer ⟨s, state⟩ sid host port reply).1.state.serverHost = host ∧
          (ServerComms.configureServer ⟨s, state⟩ sid host port reply).1.state.serverPort = port) ∨
        (¬ StoresAddress host reply ∧
          (ServerComms.configureServer ⟨s, state⟩ sid host port reply).1.state = state)) := by
  unfold ServerComms.configureServer
  split_ifs with hhost
  · exact ⟨rfl, .inr ⟨fun h => h.1 hhost, rfl⟩⟩
  · cases reply with
    | failed msg => exact ⟨rfl, .inr ⟨fun h => h.2 msg rfl, rfl⟩⟩
    | notJson => exact ⟨rfl, .inl ⟨⟨hhost, by simp⟩, rfl, rfl⟩⟩
    | json => exact ⟨rfl, .inl ⟨⟨hhost, by simp⟩, rfl, rfl⟩⟩

/-- Only the two events that set them change the address and the id. -/
theorem step_state (uuid : UuidSource) (w : World Host) (a : Action Host)
    (hconfigure : ∀ sid host port reply, a ≠ .configureServer sid host port reply)
    (hregistered : ∀ i, a ≠ .registered i) : (step hostAt uuid w a).state = w.state := by
  cases a with
  | configureServer sid host port reply => exact absurd rfl (hconfigure sid host port reply)
  | createUser draws delivery =>
    rw [step, createUser]
    split_ifs <;> rfl
  | registered i => exact absurd rfl (hregistered i)
  | joinRoom peerId delivery answer =>
    rw [step, joinRoom]
    cases joinRequest w.state.serverHost w.state.userId peerId <;> rfl
  | leaveRoom delivery answer =>
    rw [step, leaveRoom]
    split_ifs <;> rfl
  | server host a =>
    rw [step]
    cases a <;> rfl

/-- A step that keeps the address and the id keeps them together. -/
theorem issuedByCurrent_of_state {a : Action Host} (hown : IssuedByCurrent hostAt w)
    (hissues : ∀ i ∈ w.issues, i ∈ (step hostAt uuid w a).issues)
    (hstate : (step hostAt uuid w a).state = w.state) :
    IssuedByCurrent hostAt (step hostAt uuid w a) := by
  intro hne
  rw [hstate] at hne
  rw [World.current, hstate]
  exact hissues _ (hown hne)

/-- A new address goes with the old id. -/
theorem issuedByCurrent_configureServer_iff (hown : IssuedByCurrent hostAt w) (sid host : String)
    (port : ℤ) (reply : StatusReply) :
    IssuedByCurrent hostAt (step hostAt uuid w (.configureServer sid host port reply)) ↔
      KeepsIdentity hostAt w (.configureServer sid host port reply) := by
  obtain ⟨huser, ⟨hstores, hhost, hport⟩ | ⟨hkept, hstate⟩⟩ :=
    configureServer_cases (w.servers (w.current hostAt)) w.state sid host port reply
  · rw [step]
    generalize (ServerComms.configureServer ⟨w.servers (w.current hostAt), w.state⟩ sid host
      port reply).1.state = state at huser hhost hport ⊢
    change (state.userId ≠ "" →
      ⟨hostAt (state.serverHost, state.serverPort), state.userId, true⟩ ∈ w.issues) ↔ _
    rw [huser, hhost, hport, KeepsIdentity]
    constructor
    · intro hissued _
      by_cases hempty : w.state.userId = ""
      · exact .inl hempty
      · exact .inr (.inr (hissued hempty))
    · intro hkeeps hne
      rcases hkeeps hstores with hempty | hcurrent | hissued
      · exact absurd hempty hne
      · rw [hcurrent]
        exact hown hne
      · exact hissued
  · exact iff_of_true (issuedByCurrent_of_state hown (fun _ hi => hi) hstate)
      fun hstores => absurd hstores hkept

/-- A new id goes with the address there is by now. -/
theorem issuedByCurrent_registered_iff (h : Recorded w) (hown : IssuedByCurrent hostAt w)
    (i : ℕ) :
    IssuedByCurrent hostAt (step hostAt uuid w (.registered i)) ↔
      KeepsIdentity hostAt w (.registered i) := by
  rw [step, KeepsIdentity]
  cases hget : w.registrations[i]? with
  | none => exact iff_of_true hown fun r hr => absurd hr (by simp)
  | some r =>
    dsimp only
    rw [finishCreateUser]
    cases hstored : storedId r.response with
    | none =>
      refine iff_of_true hown fun r' hr' userId hid => ?_
      obtain rfl := Option.some_inj.mp hr'
      exact absurd (hstored.symm.trans hid) (by simp)
    | some userId =>
      change (userId ≠ "" → ⟨w.current hostAt, userId, true⟩ ∈ w.issues) ↔ _
      constructor
      · intro hissued r' hr' id hid
        obtain rfl := Option.some_inj.mp hr'
        obtain rfl := Option.some_inj.mp (hstored.symm.trans hid)
        by_cases hempty : userId = ""
        · exact .inl hempty
        · exact .inr (.inr (hissued hempty))
      · intro hkeeps hne
        rcases hkeeps r rfl userId hstored with hempty | hcurrent | hissued
        · exact absurd hempty hne
        · -- the server that was asked has handed the id out
          have hanswer := h.answers r (List.mem_of_getElem? hget) userId hstored hne
          rwa [hcurrent] at hanswer
        · exact hissued

/-- The step lemma for the id: it still comes from the current server exactly under the
condition. -/
theorem issuedByCurrent_step_iff (uuid : UuidSource) (h : Recorded w)
    (hown : IssuedByCurrent hostAt w) (a : Action Host) :
    IssuedByCurrent hostAt (step hostAt uuid w a) ↔ KeepsIdentity hostAt w a := by
  have hissues := (recorded_step hostAt uuid h a).issues
  have hsame := issuedByCurrent_of_state hown hissues
  cases a with
  | configureServer sid host port reply =>
    exact issuedByCurrent_configureServer_iff hown sid host port reply
  | registered i => exact issuedByCurrent_registered_iff h hown i
  | createUser draws delivery =>
    exact iff_of_true (hsame (step_state uuid w _ (by simp) (by simp))) trivial
  | joinRoom peerId delivery answer =>
    exact iff_of_true (hsame (step_state uuid w _ (by simp) (by simp))) trivial
  | leaveRoom delivery answer =>
    exact iff_of_true (hsame (step_state uuid w _ (by simp) (by simp))) trivial
  | server host a =>
    exact iff_of_true (hsame (step_state uuid w _ (by simp) (by simp))) trivial

theorem ownIdentity_step_iff (uuid : UuidSource) (h : Recorded w) (hown : OwnIdentity hostAt w)
    (a : Action Host) :
    OwnIdentity hostAt (step hostAt uuid w a) ↔ KeepsIdentity hostAt w a := by
  rw [← issuedByCurrent_step_iff uuid h hown.identity a]
  refine ⟨OwnIdentity.identity, fun hidentity => ⟨hidentity, fun r hr => ?_⟩⟩
  obtain ⟨hrecorded, hissues, hrequests⟩ := recorded_step hostAt uuid h a
  -- the id in a request was issued to us when the request was made
  have hissued : ⟨r.host, r.userId, true⟩ ∈ (step hostAt uuid w a).issues := by
    rcases hrequests r hr with hr | ⟨hhost, hid, hne⟩
    · exact hissues _ (hown.requests r hr).1
    · rw [hhost, hid]
      exact hissues _ (hown.identity hne)
  refine ⟨hissued, fun i hi hhost hid => ?_⟩
  rw [hrecorded.unique i hi _ hissued hhost hid]

/-- **When a middleware acts under its own identity only.**  Whatever the servers answer and
whatever others do there, the id of the middleware comes from its current server, and every
request carries an id that the receiver has issued to this middleware and to nobody else,
throughout a run if and only if no step of it parts the address from the id. -/
theorem ownIdentity_throughout_iff (hostAt : String × ℤ → Host) (uuid : UuidSource)
    (apiEndpoint : Host → Endpoint) (localIp : String) (middlewarePort : ℤ)
    (actions : List (Action Host)) :
    Throughout (step hostAt uuid) (OwnIdentity hostAt)
        (World.init apiEndpoint localIp middlewarePort) actions ↔
      Along (step hostAt uuid) (KeepsIdentity hostAt)
        (World.init apiEndpoint localIp middlewarePort) actions := by
  refine throughout_iff_along (I := Recorded)
    (fun w a h => (recorded_step hostAt uuid h a).recorded)
    (fun w a h hown => ownIdentity_step_iff uuid h hown a)
    (recorded_init apiEndpoint localIp middlewarePort) ⟨?_, ?_⟩ actions
  · exact fun hne => absurd rfl hne
  · exact fun r hr => absurd hr List.not_mem_nil

/-- A middleware registers at one server, changes to another, where somebody else has got the
same number, and joins a room there. -/
def strangerRun : List (Action (String × ℤ)) :=
  [.server ("b", 7777) (.addUser [.str "10.0.0.2", .int 5001] (CallPairing.plainDraws 0)),
    .configureServer "s" "a" 7777 .json, .createUser (CallPairing.plainDraws 0) .answered,
    .registered 0, .configureServer "s" "b" 7777 .json,
    .joinRoom (some "20000") .answered .unreachable]

/-- The request carries the number of the stranger. -/
theorem changed_server_acts_as_stranger :
    ¬ ∀ actions : List (Action (String × ℤ)),
      Throughout (step id CallPairing.plainUuid) (OwnIdentity id)
        (World.init (fun _ => ⟨some "10.0.0.9", .int 5050, none⟩) "10.0.0.1" 5001) actions := by
  intro hall
  have hlast := (hall strangerRun).last
  have hrequest := (hlast.requests ⟨("b", 7777), "/peer_connection", "10000"⟩ (by decide +kernel)).2
  have hours := hrequest ⟨("b", 7777), "10000", false⟩ (by decide +kernel) rfl rfl
  exact absurd hours (by decide)

end

end ServerIdentity
