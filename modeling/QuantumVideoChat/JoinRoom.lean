/-
What a failed `join_room` leaves behind at the server.

The server marks both users as connected before the caller has its answer, let alone its
socket, and nothing takes that back when the caller does not get them.

* `users_of_turnedDown` — a request that the server does not put through costs nothing;
* `attemptConnect_reaches_ok` — the server accepts the caller's socket whenever it sees one;
* `join_failure_leaves_idle_iff` — a reported failure leaves the user idle unless the call was
  put through and either its answer or all sockets of the caller were lost;
* `unconnected_caller_stays_connected` — a run in which they were.
-/
import QuantumVideoChat.ServerComms

namespace ServerComms

open Transition

/-! ### The condition -/

/-- The user is idle and has no peer. -/
def IdleAlone (s : Server) (userId : String) : Prop :=
  ∃ user, s.users.lookup userId = some user ∧ user.state = .idle ∧ user.peer = none

/-- `join_room` sends a request, and the server puts the call through if it gets it. -/
def CanCommit (w : System) (peerId : Option String) (answer : ClientAnswer) : Prop :=
  w.state.serverHost ≠ "" ∧
    ∃ peer, peerId = some peer ∧ RestAPI.Commits w.server w.state.userId peer answer

/-- The server gets the request, and then its response is lost, or the response is fine and
all attempts to open a socket fail. -/
def CallerMisses (s : Server) (delivery : Delivery)
    (attempts : Fin wsConnectMaxAttempts → Attempt) : Prop :=
  (∃ exc, delivery = .lost exc) ∨
    delivery = .answered ∧ (∃ host port, s.apiEndpoint.parts = [host, port]) ∧
      ∀ i, ∃ exc, attempts i = .fails exc

/-- The browser is told about an error. -/
def ToldError (emissions : List BrowserEmission) : Prop :=
  ∃ msg room, (⟨.serverError msg, room⟩ : BrowserEmission) ∈ emissions

theorem toldError_singleton (msg : String) (room : Option String) :
    ToldError [⟨.serverError msg, room⟩] :=
  ⟨msg, room, List.mem_singleton_self _⟩

/-! ### The request -/

variable {uuid : UuidSource} {w : System} {s : Server} {userId peerId : String}

theorem idleAlone_congr {s s' : Server} (h : s'.users = s.users) (hidle : IdleAlone s userId) :
    IdleAlone s' userId := by
  rwa [IdleAlone, h]

/-- A call that was put through leaves its caller connected. -/
theorem not_idleAlone_of_commits {answer : ClientAnswer}
    (h : RestAPI.Commits s userId peerId answer) :
    ¬ IdleAlone (s.connect uuid userId peerId answer).1 userId := by
  obtain ⟨r, hok⟩ := (Server.connect_isOk_iff uuid answer).mpr h.2.2
  rcases s.connect_cases uuid userId peerId answer with ⟨-, e, he⟩ |
    ⟨hne, user, _, _, -, -, -, -, -, -, -, husers, -, -⟩
  · exact absurd (hok.symm.trans he) (by simp)
  · rintro ⟨user', hlookup, hidle, -⟩
    rw [husers, Finmap.lookup_insert_of_ne _ hne, Finmap.lookup_insert] at hlookup
    rw [← Option.some_inj.mp hlookup] at hidle
    exact absurd hidle (by simp)

theorem joinResponse_of_status {response : Response} (h : response.status ≠ 200) :
    ∃ msg, joinResponse (.ok response) = .error msg := by
  obtain ⟨status, body⟩ := response
  cases body <;> simp [joinResponse, show status ≠ 200 from h]

theorem joinResponse_session {endpoint : Endpoint} {sessionId : String} :
    joinResponse (.ok ⟨200, .session endpoint.parts sessionId⟩)
      = .ok (some (endpoint.parts, sessionId)) := by
  have hparts : endpoint.parts ≠ [] := by simp [Endpoint.parts]
  simp [joinResponse, hparts]

/-- A request that the server does not get or does not put through changes no user, and the
browser is told. -/
theorem users_of_turnedDown {peer : String} {delivery : Delivery} {answer : ClientAnswer}
    {response : Except String Response}
    (hdown : RestAPI.Commits s userId peer answer →
      (∃ exc, delivery = .unreached exc) ∨ delivery = .rateLimited)
    {s' : Server} (hexchange : exchange (fun s => RestAPI.handlePeerConnection uuid s userId peer
      answer) s delivery = (s', response)) :
    s'.users = s.users ∧ ∃ msg, joinResponse response = .error msg := by
  have hcases := RestAPI.handlePeerConnection_cases uuid s userId peer answer
  cases delivery with
  | unreached exc =>
    obtain ⟨rfl, rfl⟩ := Prod.mk.inj hexchange
    exact ⟨rfl, _, rfl⟩
  | rateLimited =>
    obtain ⟨rfl, rfl⟩ := Prod.mk.inj hexchange
    exact ⟨rfl, joinResponse_of_status (by decide)⟩
  | lost exc =>
    obtain ⟨rfl, rfl⟩ := Prod.mk.inj hexchange
    rcases hcases with ⟨hcommits, -⟩ | ⟨-, husers, -⟩
    · exact absurd (hdown hcommits) (by simp)
    · exact ⟨husers, _, rfl⟩
  | answered =>
    obtain ⟨rfl, rfl⟩ := Prod.mk.inj hexchange
    rcases hcases with ⟨hcommits, -⟩ | ⟨-, husers, hstatus⟩
    · exact absurd (hdown hcommits) (by simp)
    · exact ⟨husers, joinResponse_of_status hstatus⟩

/-! ### The socket -/

/-- Whenever the server sees the caller's socket, it accepts it: the session is the one just
created for the two users. -/
theorem attemptConnect_reaches_ok {answer : ClientAnswer} {endpoint : Endpoint}
    {sessionId : String} (hknown : SessionLifetime.Known uuid s)
    (hconnect : (s.connect uuid userId peerId answer).2 = .ok (endpoint, sessionId))
    {w : System} (hserver : w.server = (s.connect uuid userId peerId answer).1)
    (huser : w.state.userId = userId) (sid roomId : String) :
    ∃ w', attemptConnect uuid (closeClient uuid w) sessionId (.reaches sid roomId) = .ok w' := by
  have hopen : SessionLifetime.Open uuid sessionId {userId, peerId} w.server := by
    rw [hserver]
    exact SessionLifetime.open_of_connect hknown hconnect
  -- closing an older socket keeps the session
  have hopen' : SessionLifetime.Open uuid sessionId {userId, peerId}
      (closeClient uuid w).server := by
    rw [closeClient]
    cases w.state.serverClient with
    | none => exact hopen
    | some client => exact SessionLifetime.open_step _ (.socketDisconnect client.1) hopen
  obtain ⟨api, hapi, hknown', hlookup⟩ := hopen'
  have hne : sessionId ≠ "" := by
    obtain ⟨n, -, rfl⟩ := hknown' sessionId (Finmap.mem_of_lookup_eq_some hlookup)
    exact uuid.nonempty n
  have hid : (closeClient uuid w).state.userId = userId :=
    (closeClient_sameUsers uuid w).userId.trans huser
  have haccept := (SessionLifetime.onConnect_of_open hne hlookup
    (Finset.mem_insert_self userId {peerId}) (J := Unit) sid roomId).2
  simp only [attemptConnect, hapi, sessionAuth, hid, if_neg hne]
  rcases hon : SocketAPI.onConnect (J := Unit) api sid (some ⟨some userId, some sessionId⟩) roomId
    with ⟨api', accepted, emissions⟩
  rw [hon] at haccept
  obtain rfl : accepted = true := haccept
  exact ⟨_, rfl⟩

/-- With an address to connect to, the browser is told exactly when all attempts fail. -/
theorem toldError_connectToSessionWs_iff {wsEndpoint : List PyValue} {sessionId : String}
    {attempts : Fin wsConnectMaxAttempts → Attempt}
    (hreaches : ∀ sid roomId, ∃ w', attemptConnect uuid (closeClient uuid w) sessionId
      (.reaches sid roomId) = .ok w') :
    ToldError (connectToSessionWs uuid w wsEndpoint sessionId attempts).2 ↔
      (∃ host port, wsEndpoint = [host, port]) ∧ ∀ i, ∃ exc, attempts i = .fails exc := by
  by_cases haddress : ∃ host port, wsEndpoint = [host, port]
  · obtain ⟨host, port, rfl⟩ := haddress
    have hne : List.ofFn attempts ≠ [] := by
      intro hnil
      have hlength := congrArg List.length hnil
      rw [List.length_ofFn] at hlength
      exact absurd hlength (by decide)
    have hnil := connectAttempts_eq_nil_iff uuid (closeClient uuid w) sessionId hne
    rw [connectToSessionWs]
    constructor
    · rintro ⟨msg, room, htold⟩
      refine ⟨⟨host, port, rfl⟩, fun i => ?_⟩
      cases hattempt : attempts i with
      | fails exc => exact ⟨exc, rfl⟩
      | reaches sid roomId =>
        have hquiet := hnil.mpr ⟨attempts i, List.mem_ofFn.mpr ⟨i, rfl⟩,
          hattempt ▸ hreaches sid roomId⟩
        rw [hquiet] at htold
        exact absurd htold List.not_mem_nil
    · rintro ⟨-, hfails⟩
      have hloud : (connectAttempts uuid (closeClient uuid w) sessionId
          (List.ofFn attempts)).2 ≠ [] := by
        intro hquiet
        obtain ⟨attempt, hmem, w', hok⟩ := hnil.mp hquiet
        obtain ⟨i, rfl⟩ := List.mem_ofFn.mp hmem
        obtain ⟨exc, hexc⟩ := hfails i
        rw [hexc] at hok
        exact absurd hok (by simp [attemptConnect])
      obtain ⟨e, he⟩ := List.exists_mem_of_ne_nil _ hloud
      obtain ⟨msg, rfl⟩ := mem_connectAttempts he
      exact ⟨msg, none, he⟩
  · -- the address cannot be taken apart, and the handler dies without a word
    have hquiet : (connectToSessionWs uuid w wsEndpoint sessionId attempts).2 = [] := by
      unfold connectToSessionWs
      split
      · exact absurd ⟨_, _, rfl⟩ haddress
      · rfl
    rw [hquiet]
    constructor
    · rintro ⟨msg, room, htold⟩
      exact absurd htold List.not_mem_nil
    · rintro ⟨hno, -⟩
      exact absurd hno haddress

/-! ### Every outcome -/

theorem joinRequest_of_commits {peerId : Option String} {peer : String} {answer : ClientAnswer}
    (hhost : w.state.serverHost ≠ "") (hpeer : peerId = some peer)
    (h : RestAPI.Commits w.server w.state.userId peer answer) :
    joinRequest w.state.serverHost w.state.userId peerId = .ok peer :=
  joinRequest_eq_ok.mpr ⟨hhost, h.1, hpeer, h.2.1, h.2.2.1.1.symm⟩

/-- A call that is put through and does not get to its caller: the browser is told, and the
user stays connected. -/
theorem stranded_of_commits {peerId : Option String} {delivery : Delivery} {answer : ClientAnswer}
    {attempts : Fin wsConnectMaxAttempts → Attempt} (hknown : SessionLifetime.Known uuid w.server)
    (hcommit : CanCommit w peerId answer) (hmiss : CallerMisses w.server delivery attempts)
    (sid : String) :
    ToldError (joinRoom uuid w sid peerId delivery answer attempts).2 ∧
      ¬ IdleAlone (joinRoom uuid w sid peerId delivery answer attempts).1.server
        w.state.userId := by
  obtain ⟨hhost, peer, hpeer, hcommits⟩ := hcommit
  have hrequest := joinRequest_of_commits hhost hpeer hcommits
  rcases RestAPI.handlePeerConnection_cases uuid w.server w.state.userId peer answer with
    ⟨-, hserver, sessionId, hok, hresponse⟩ | ⟨hno, -⟩
  swap
  · exact absurd hcommits hno
  rcases hmiss with ⟨exc, rfl⟩ | ⟨rfl, haddress, hfails⟩
  · -- the response is lost
    unfold joinRoom
    rw [hrequest]
    simp only [exchange, joinResponse, hserver]
    exact ⟨toldError_singleton _ _, not_idleAlone_of_commits hcommits⟩
  · -- the response is there, and no socket is
    unfold joinRoom
    rw [hrequest]
    simp only [exchange, hserver, hresponse, joinResponse_session]
    have haccepted := attemptConnect_reaches_ok hknown hok
      (w := { w with server := (w.server.connect uuid w.state.userId peer answer).1 }) rfl rfl
    refine ⟨(toldError_connectToSessionWs_iff haccepted).mpr ⟨haddress, hfails⟩, ?_⟩
    intro hidle
    have hsame := (connectToSessionWs_spec uuid
      { w with server := (w.server.connect uuid w.state.userId peer answer).1 }
      w.server.apiEndpoint.parts sessionId attempts).1
    exact not_idleAlone_of_commits hcommits (idleAlone_congr hsame.users.symm hidle)

/-- When the browser is told about the response, the server is as the request left it. -/
theorem joinRoom_server_of_error {sid : String} {peerId : Option String} {delivery : Delivery}
    {answer : ClientAnswer} {attempts : Fin wsConnectMaxAttempts → Attempt} {peer msg : String}
    {server : Server} {response : Except String Response}
    (hrequest : joinRequest w.state.serverHost w.state.userId peerId = .ok peer)
    (hexchange : exchange (fun s => RestAPI.handlePeerConnection uuid s w.state.userId peer answer)
      w.server delivery = (server, response))
    (hmsg : joinResponse response = .error msg) :
    (joinRoom uuid w sid peerId delivery answer attempts).1.server = server := by
  unfold joinRoom
  rw [hrequest]
  dsimp only
  rw [hexchange]
  dsimp only
  rw [hmsg]

/-- In every other case an idle user is still idle when the browser is told. -/
theorem idleAlone_of_toldError {peerId : Option String} {delivery : Delivery}
    {answer : ClientAnswer} {attempts : Fin wsConnectMaxAttempts → Attempt}
    (hknown : SessionLifetime.Known uuid w.server) (hidle : IdleAlone w.server w.state.userId)
    (hsafe : ¬ (CanCommit w peerId answer ∧ CallerMisses w.server delivery attempts))
    {sid : String} (htold : ToldError (joinRoom uuid w sid peerId delivery answer attempts).2) :
    IdleAlone (joinRoom uuid w sid peerId delivery answer attempts).1.server w.state.userId := by
  rcases joinRoom_cases uuid w sid peerId delivery answer attempts with ⟨event, -, hjoin⟩ |
    ⟨peer, server, response, hrequest, hexchange, -⟩
  · rwa [hjoin]
  obtain ⟨hhost, -, hpeer, -, -⟩ := joinRequest_eq_ok.mp hrequest
  by_cases hdown : RestAPI.Commits w.server w.state.userId peer answer →
      (∃ exc, delivery = .unreached exc) ∨ delivery = .rateLimited
  · -- the server does not put the call through
    obtain ⟨husers, msg, hmsg⟩ := users_of_turnedDown hdown hexchange
    rw [joinRoom_server_of_error hrequest hexchange hmsg]
    exact idleAlone_congr husers hidle
  · -- it does, so the caller gets the response, and a socket too: nothing is told
    exfalso
    obtain ⟨hcommits, hreached⟩ := Classical.not_imp.mp hdown
    have hgets : ¬ CallerMisses w.server delivery attempts :=
      fun hmiss => hsafe ⟨⟨hhost, peer, hpeer, hcommits⟩, hmiss⟩
    cases delivery with
    | unreached exc => exact hreached (.inl ⟨exc, rfl⟩)
    | rateLimited => exact hreached (.inr rfl)
    | lost exc => exact hgets (.inl ⟨exc, rfl⟩)
    | answered =>
      rcases RestAPI.handlePeerConnection_cases uuid w.server w.state.userId peer answer with
        ⟨-, hserver, sessionId, hok, hresponse⟩ | ⟨hno, -⟩
      swap
      · exact hno hcommits
      unfold joinRoom at htold
      rw [hrequest] at htold
      simp only [exchange, hserver, hresponse, joinResponse_session] at htold
      have haccepted := attemptConnect_reaches_ok hknown hok
        (w := { w with server := (w.server.connect uuid w.state.userId peer answer).1 }) rfl rfl
      exact hgets (.inr ⟨rfl, (toldError_connectToSessionWs_iff haccepted).mp htold⟩)

/-- What every reachable system has: the server's records are consistent and its sessions
known. -/
theorem reachable_server (uuid : UuidSource) (apiEndpoint : Endpoint) (withSocketio : Bool)
    (state : MiddlewareState) (actions : List Action) {w : System}
    (hw : w = actions.foldl (step uuid) ⟨Server.fresh apiEndpoint withSocketio, state⟩) :
    CallPairing.Consistent w.server.users ∧ SessionLifetime.Known uuid w.server := by
  rw [hw]
  refine foldl_induction (f := step uuid)
    (I := fun w => CallPairing.Consistent w.server.users ∧ SessionLifetime.Known uuid w.server)
    ⟨CallPairing.consistent_empty, Server.known_fresh uuid apiEndpoint withSocketio⟩
    (fun w a h => ?_) actions
  exact (step_reaches uuid w a).induction
    (I := fun s => CallPairing.Consistent s.users ∧ SessionLifetime.Known uuid s) h
    fun s a h => ⟨CallPairing.consistent_step uuid s a h.1, SessionLifetime.known_step s a h.2⟩

/-- **When a reported failure to join leaves the user idle.**  In every state that a server
and a middleware get into, for every peer to join and every outcome. -/
theorem join_failure_leaves_idle_iff (uuid : UuidSource) (apiEndpoint : Endpoint)
    (withSocketio : Bool) (state : MiddlewareState) (actions : List Action) (w : System)
    (hw : w = actions.foldl (step uuid) ⟨Server.fresh apiEndpoint withSocketio, state⟩)
    (hidle : ∃ user, w.server.users.lookup w.state.userId = some user ∧ user.state = .idle)
    (sid : String) (peerId : Option String) (delivery : Delivery) (answer : ClientAnswer)
    (attempts : Fin wsConnectMaxAttempts → Attempt) :
    (ToldError (joinRoom uuid w sid peerId delivery answer attempts).2 →
        IdleAlone (joinRoom uuid w sid peerId delivery answer attempts).1.server
          w.state.userId) ↔
      ¬ (CanCommit w peerId answer ∧ CallerMisses w.server delivery attempts) := by
  obtain ⟨hconsistent, hknown⟩ := reachable_server uuid apiEndpoint withSocketio state actions hw
  obtain ⟨user, hlookup, hstate⟩ := hidle
  have halone : IdleAlone w.server w.state.userId := by
    rcases hconsistent.state_peer _ user hlookup with ⟨-, hpeer⟩ | ⟨hconnected, -⟩
    · exact ⟨user, hlookup, hstate, hpeer⟩
    · exact absurd (hstate.symm.trans hconnected) (by simp)
  constructor
  · rintro hkeeps ⟨hcommit, hmiss⟩
    obtain ⟨htold, hnot⟩ := stranded_of_commits hknown hcommit hmiss sid
    exact hnot (hkeeps htold)
  · intro hsafe htold
    exact idleAlone_of_toldError hknown halone hsafe htold

/-- The middleware of user 10000 is configured and registered, and user 10001 is there. -/
def registeredRun : List Action :=
  [.configureServer "browser" "10.0.0.9" 5050 .json,
    .createUser "browser" (CallPairing.plainDraws 0) .answered,
    .server (.addUser [.str "10.0.0.2", .int 5001] (CallPairing.plainDraws 1))]

def registered : System :=
  registeredRun.foldl (step CallPairing.plainUuid)
    ⟨Server.fresh SessionLifetime.serverEndpoint true, {}⟩

/-- Nobody listens at the address of the session. -/
def noSocket : Fin wsConnectMaxAttempts → Attempt :=
  fun _ => .fails "Connection refused by the server"

/-- To join an unknown user fails, and the user is as idle as before. -/
theorem join_failure_leaves_idle_unknown_peer :
    IdleAlone (joinRoom CallPairing.plainUuid registered "browser" (some "20000") .answered
      (.status 200) noSocket).1.server registered.state.userId :=
  (join_failure_leaves_idle_iff CallPairing.plainUuid SessionLifetime.serverEndpoint true {}
    registeredRun registered rfl
    ⟨{ apiEndpoint := ⟨some "127.0.0.1", .int 5001, none⟩ }, by decide +kernel, rfl⟩ "browser"
    (some "20000") .answered (.status 200) noSocket).mpr
    (by
      rintro ⟨⟨-, peer, hpeer, hcommits⟩, -⟩
      obtain rfl := Option.some_inj.mp hpeer
      obtain ⟨user, hlookup, -⟩ := hcommits.2.2.1.2.2
      have hnone : registered.server.users.lookup "20000" = none := by decide +kernel
      exact absurd (hnone.symm.trans hlookup) (by simp))
    ⟨"User 20000 does not exist", some "browser", by decide +kernel⟩

/-- User 10000 joins user 10001, who accepts; no attempt to open a socket succeeds.  The
browser is told, and the server has the user connected to 10001. -/
theorem unconnected_caller_stays_connected :
    ¬ (ToldError (joinRoom CallPairing.plainUuid registered "browser" (some "10001") .answered
          (.status 200) noSocket).2 →
        IdleAlone (joinRoom CallPairing.plainUuid registered "browser" (some "10001") .answered
          (.status 200) noSocket).1.server registered.state.userId) := by
  intro h
  obtain ⟨user, hlookup, hidle, -⟩ := h
    ⟨"Could not connect to session -- Connection refused by the server", none, by decide +kernel⟩
  have hstate : ((joinRoom CallPairing.plainUuid registered "browser" (some "10001") .answered
      (.status 200) noSocket).1.server.users.lookup registered.state.userId).map User.state
        = some .connected := by
    decide +kernel
  rw [hlookup, Option.map_some, hidle] at hstate
  exact absurd hstate (by decide)

end ServerComms
