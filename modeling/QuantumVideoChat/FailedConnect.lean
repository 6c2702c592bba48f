/-
What a failed `PeerConnectionManager.connect` leaves behind.

`connect` creates the session before it contacts the peer, and nothing takes a session back.

* `checkConnect_eq_ok_iff` — when the checks of `connect` let a call through;
* `connect_eq_self`, `connect_socketApi_eq` — a call that is turned down changes nothing, any
  other one creates a session, whatever the peer answers;
* `connect_isOk_iff` — a call succeeds when it is not turned down and the peer accepts;
* `failed_connect_leaves_no_trace_iff` — a call leaves no trace when it raises, unless it is
  the peer that fails it;
* `unreachable_peer_leaves_session` — a call that does leave one.
-/
import QuantumVideoChat.SessionLifetime

namespace Server

/-! ### Which calls get as far as `start_websocket` -/

/-- An idle user whose record can be handed out. -/
def IdleUser (s : Server) (userId : String) : Prop :=
  ∃ user, s.users.lookup userId = some user ∧ user.state = .idle ∧
    ∃ e, user.apiEndpoint.copy = .ok e

/-- Two different idle users, both of whose records can be handed out. -/
def Connectable (s : Server) (userId peerId : String) : Prop :=
  userId ≠ peerId ∧ s.IdleUser userId ∧ s.IdleUser peerId

variable {uuid : UuidSource} {s : Server} {userId peerId : String}

theorem findUser_of_idleUser (h : s.IdleUser userId) :
    ∃ user, s.findUser userId = .ok user ∧ user.state = .idle := by
  obtain ⟨stored, hlookup, hidle, hcopy⟩ := h
  obtain ⟨user, hfind, hstate, -⟩ := findUser_of_copy hlookup hcopy
  exact ⟨user, hfind, hstate.trans hidle⟩

theorem checkConnect_eq_ok_iff :
    s.checkConnect userId peerId = .ok () ↔ s.Connectable userId peerId := by
  constructor
  · exact checkConnect_eq_ok
  · rintro ⟨hne, huser, hpeer⟩
    obtain ⟨user, hfind, hidle⟩ := findUser_of_idleUser huser
    obtain ⟨peer, hfind', hidle'⟩ := findUser_of_idleUser hpeer
    rw [checkConnect, if_neg hne, hfind, hfind']
    simp only [hidle, hidle', ne_eq, not_true_eq_false, if_false]

/-- A call that is turned down before `start_websocket` changes nothing. -/
theorem connect_eq_self (uuid : UuidSource) (answer : ClientAnswer)
    (h : ¬ (s.Connectable userId peerId ∧ s.socketApi.isSome)) :
    (s.connect uuid userId peerId answer).1 = s ∧
      ∃ e, (s.connect uuid userId peerId answer).2 = .error e := by
  rw [connect]
  cases hcheck : s.checkConnect userId peerId with
  | error e => exact ⟨rfl, e, rfl⟩
  | ok u =>
    cases hapi : s.socketApi with
    | none =>
      simp only [startWebsocket, hapi]
      exact ⟨trivial, _, rfl⟩
    | some api => exact absurd ⟨checkConnect_eq_ok_iff.mp hcheck, by rw [hapi]; rfl⟩ h

/-- Any other call creates a session, whatever becomes of it. -/
theorem connect_socketApi_eq (answer : ClientAnswer) {api : SocketAPI}
    (h : s.Connectable userId peerId) (hapi : s.socketApi = some api) :
    (s.connect uuid userId peerId answer).1.socketApi
      = some (api.createSession uuid [userId, peerId]).1 := by
  rw [connect, checkConnect_eq_ok_iff.mpr h]
  simp only [startWebsocket, hapi]
  cases checkAnswer peerId _ with
  | error e => rfl
  | ok u => exact finishConnect_socketApi _ userId peerId _

/-- The peer can be contacted and answers 200. -/
def Accepts (s : Server) (peerId : String) (answer : ClientAnswer) : Prop :=
  s.contactClient peerId "/peer_connection" answer = .ok (.status httpOk)

theorem checkAnswer_isOk_iff {peerId : String} {contacted : Except ServerException ClientAnswer} :
    checkAnswer peerId contacted = .ok () ↔ contacted = .ok (.status httpOk) := by
  cases contacted with
  | error e => simp [checkAnswer]
  | ok answer => rw [checkAnswer_eq_ok, Except.ok.injEq]

/-- A call succeeds exactly when it is not turned down and the peer accepts. -/
theorem connect_isOk_iff (uuid : UuidSource) (answer : ClientAnswer) :
    (∃ r, (s.connect uuid userId peerId answer).2 = .ok r) ↔
      s.Connectable userId peerId ∧ s.socketApi.isSome ∧ s.Accepts peerId answer := by
  by_cases hdown : s.Connectable userId peerId ∧ s.socketApi.isSome
  · obtain ⟨hconnectable, hsome⟩ := hdown
    obtain ⟨api, hapi⟩ := Option.isSome_iff_exists.mp hsome
    have ⟨hne, ⟨user, huser, _⟩, peer, hpeer, _⟩ := hconnectable
    rw [connect, checkConnect_eq_ok_iff.mpr hconnectable]
    simp only [startWebsocket, hapi, hconnectable, Option.isSome_some, true_and]
    -- the new session has no bearing on the peer's record
    rw [show ({ s with socketApi := some (api.createSession uuid [userId, peerId]).1 } :
        Server).contactClient peerId "/peer_connection" answer
      = s.contactClient peerId "/peer_connection" answer from rfl, Accepts]
    cases hcheck : checkAnswer peerId (s.contactClient peerId "/peer_connection" answer) with
    | error e =>
      have hno : s.contactClient peerId "/peer_connection" answer ≠ .ok (.status httpOk) :=
        fun hok => absurd (hcheck.symm.trans (checkAnswer_isOk_iff.mpr hok)) (by simp)
      simp [hno]
    | ok u =>
      obtain ⟨-, -, hok⟩ := finishConnect_eq
        { s with socketApi := some (api.createSession uuid [userId, peerId]).1 } hne huser hpeer
        (api.createSession uuid [userId, peerId]).2
      exact ⟨fun _ => checkAnswer_isOk_iff.mp hcheck, fun _ => ⟨_, hok⟩⟩
  · obtain ⟨-, e, he⟩ := connect_eq_self uuid answer hdown
    constructor
    · rintro ⟨r, hok⟩
      exact absurd (he.symm.trans hok) (by simp)
    · rintro ⟨hconnectable, hsome, -⟩
      exact absurd ⟨hconnectable, hsome⟩ hdown

/-! ### Traces -/

/-- The user store and the tables `sessions` and `sids` of the `SocketAPI` are the same. -/
def SameTables (s s' : Server) : Prop :=
  s'.users = s.users ∧
    s'.socketApi.map SocketAPI.sessions = s.socketApi.map SocketAPI.sessions ∧
    s'.socketApi.map SocketAPI.sids = s.socketApi.map SocketAPI.sids

instance (s s' : Server) : Decidable (SameTables s s') :=
  inferInstanceAs (Decidable (_ ∧ _ ∧ _))

theorem sessions_createSession_ne {api : SocketAPI} (h : api.SessionsKnown uuid)
    (users : List String) : (api.createSession uuid users).1.sessions ≠ api.sessions := by
  intro heq
  have hmem : uuid.id api.created ∈ api.sessions := by
    rw [← heq]
    exact Finmap.mem_insert.mpr (.inl rfl)
  -- the id is one that was never issued before
  obtain ⟨n, hn, hid⟩ := h _ hmem
  exact hn.ne (uuid.injective hid)

/-- A call that raises changes neither a user nor a socket's entry. -/
theorem failed_connect_keeps {answer : ClientAnswer} {e : ServerException}
    (h : (s.connect uuid userId peerId answer).2 = .error e) :
    (s.connect uuid userId peerId answer).1.users = s.users ∧
      (s.connect uuid userId peerId answer).1.socketApi.map SocketAPI.sids
        = s.socketApi.map SocketAPI.sids := by
  constructor
  · rcases s.connect_cases uuid userId peerId answer with ⟨husers, -⟩ |
      ⟨-, _, _, _, -, -, -, -, -, -, -, -, -, hok⟩
    · exact husers
    · exact absurd (h.symm.trans hok) (by simp)
  · rcases s.connect_socketApi uuid userId peerId answer with hsame | ⟨api, hapi, hnew⟩
    · rw [hsame]
    · rw [hnew, hapi]
      rfl

theorem no_trace_iff (hknown : SessionLifetime.Known uuid s) (answer : ClientAnswer) :
    ((∃ e, (s.connect uuid userId peerId answer).2 = .error e) →
        SameTables s (s.connect uuid userId peerId answer).1) ↔
      ¬ (s.Connectable userId peerId ∧ s.socketApi.isSome ∧ ¬ s.Accepts peerId answer) := by
  constructor
  · rintro htrace ⟨hconnectable, hsome, hrefused⟩
    have herror : ∃ e, (s.connect uuid userId peerId answer).2 = .error e := by
      cases hresult : (s.connect uuid userId peerId answer).2 with
      | error e => exact ⟨e, rfl⟩
      | ok r => exact absurd ((connect_isOk_iff uuid answer).mp ⟨r, hresult⟩).2.2 hrefused
    obtain ⟨-, hsessions, -⟩ := htrace herror
    obtain ⟨api, hapi⟩ := Option.isSome_iff_exists.mp hsome
    rw [connect_socketApi_eq answer hconnectable hapi, hapi] at hsessions
    exact sessions_createSession_ne (hknown api hapi) _ (Option.some_inj.mp hsessions)
  · rintro hdown ⟨e, he⟩
    have hturned : ¬ (s.Connectable userId peerId ∧ s.socketApi.isSome) := by
      rintro ⟨hconnectable, hsome⟩
      refine hdown ⟨hconnectable, hsome, fun haccepts => ?_⟩
      obtain ⟨r, hok⟩ := (connect_isOk_iff uuid answer).mpr
        ⟨hconnectable, hsome, haccepts⟩
      exact absurd (he.symm.trans hok) (by simp)
    rw [(connect_eq_self uuid answer hturned).1]
    exact ⟨rfl, rfl, rfl⟩

/-- `Server(api_endpoint, socketio=...)`: without Socket.IO there is no `SocketAPI`. -/
def fresh (apiEndpoint : Endpoint) (withSocketio : Bool) : Server :=
  { apiEndpoint := apiEndpoint, socketApi := if withSocketio then some {} else none }

/-- A fresh server has no session. -/
theorem known_fresh (uuid : UuidSource) (apiEndpoint : Endpoint) (withSocketio : Bool) :
    SessionLifetime.Known uuid (fresh apiEndpoint withSocketio) := by
  refine SessionLifetime.known_of_empty fun api hapi => ?_
  cases withSocketio with
  | false => exact absurd hapi (by simp [fresh])
  | true =>
    obtain rfl := Option.some_inj.mp hapi
    rfl

/-- **When a failed connection leaves no trace.**  In every state of a server, with or without
a `SocketAPI`, that its operations and the events of its sockets lead to.  Users and sockets
are safe in any case: what is left behind is a session. -/
theorem failed_connect_leaves_no_trace_iff (uuid : UuidSource) (apiEndpoint : Endpoint)
    (withSocketio : Bool) (actions : List Server.Action) (userId peerId : String)
    (answer : ClientAnswer) :
    let s := actions.foldl (Server.step uuid) (fresh apiEndpoint withSocketio)
    (((∃ e, (s.connect uuid userId peerId answer).2 = .error e) →
        SameTables s (s.connect uuid userId peerId answer).1) ↔
      ¬ (s.Connectable userId peerId ∧ s.socketApi.isSome ∧ ¬ s.Accepts peerId answer)) ∧
    ∀ e, (s.connect uuid userId peerId answer).2 = .error e →
      (s.connect uuid userId peerId answer).1.users = s.users ∧
        (s.connect uuid userId peerId answer).1.socketApi.map SocketAPI.sids
          = s.socketApi.map SocketAPI.sids := by
  intro s
  have hknown : SessionLifetime.Known uuid s :=
    Transition.foldl_induction (f := Server.step uuid) (known_fresh uuid apiEndpoint withSocketio)
      (fun s a h => SessionLifetime.known_step s a h) actions
  exact ⟨no_trace_iff hknown answer, fun e he => failed_connect_keeps he⟩

/-- Users 10000 and 10001 are registered. -/
def twoUsersRun : List Server.Action :=
  [.addUser [.str "10.0.0.1", .int 5001] (CallPairing.plainDraws 0),
    .addUser [.str "10.0.0.2", .int 5001] (CallPairing.plainDraws 1)]

def twoUsers : Server :=
  twoUsersRun.foldl (Server.step CallPairing.plainUuid)
    (fresh SessionLifetime.serverEndpoint true)

/-- User 10000 calls user 10001, whose middleware does not answer: the call raises, and the
session created for it stays. -/
theorem unreachable_peer_leaves_session :
    ¬ ((∃ e, (twoUsers.connect CallPairing.plainUuid "10000" "10001" .unreachable).2
        = .error e) →
      SameTables twoUsers
        (twoUsers.connect CallPairing.plainUuid "10000" "10001" .unreachable).1) := by
  intro h
  have htrace := h ⟨.badGateway "Unable to reach peer User 10001.", by decide +kernel⟩
  exact absurd htrace (by decide +kernel)

/-- A call to an unknown user leaves none. -/
example : SameTables twoUsers
    (twoUsers.connect CallPairing.plainUuid "10000" "20000" .unreachable).1 := by
  decide +kernel

end Server
