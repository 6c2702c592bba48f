/-
What becomes of a session when its call ends.

`PeerConnectionManager.disconnect` resets the two users; the table `sessions` of `SocketAPI`
only ever grows.

* `session_persists` — once created, a session keeps its two expected users for ever;
* `finished_session_stays_open` — after every run in which the call of a session was ended
  by `disconnect`, both users are still admitted to it and their sockets still relay;
* `finished_session_readmits` — the shortest such run.
-/
import QuantumVideoChat.CallPairing

namespace SessionLifetime

open Transition

/-- The session exists and expects `users`. -/
def Open (uuid : UuidSource) (sessionId : String) (users : Finset String) (s : Server) : Prop :=
  ∃ api, s.socketApi = some api ∧ api.SessionsKnown uuid ∧
    api.sessions.lookup sessionId = some users

/-- All sessions were created under issued ids. -/
def Known (uuid : UuidSource) (s : Server) : Prop :=
  ∀ api, s.socketApi = some api → api.SessionsKnown uuid

variable {uuid : UuidSource} {s : Server}

theorem known_of_empty (h : ∀ api, s.socketApi = some api → api.sessions = ∅) : Known uuid s := by
  intro api hapi sessionId hmem
  rw [h api hapi] at hmem
  exact absurd hmem Finmap.notMem_empty

/-- What a step does to the socket side. -/
theorem step_socketApi (uuid : UuidSource) (s : Server) (a : Server.Action) :
    (s.step uuid a).socketApi = s.socketApi ∨
    (∃ api users, s.socketApi = some api ∧
      (s.step uuid a).socketApi = some (api.createSession uuid users).1) ∨
    ∃ api api', s.socketApi = some api ∧ (s.step uuid a).socketApi = some api' ∧
      api'.sessions = api.sessions ∧ api'.created = api.created := by
  cases a with
  | addUser apiEndpoint draws =>
    rw [Server.step, Server.addUser]
    cases UserManager.addUser s.users apiEndpoint draws with
    | error e => exact .inl rfl
    | ok new => exact .inl (by rw [Server.logEvent_socketApi])
  | handlePeerConnection userId peerId answer =>
    rw [Server.step]
    rcases s.connect_socketApi uuid userId peerId answer with hsame | ⟨api, hapi, hnew⟩
    · exact .inl hsame
    · exact .inr (.inl ⟨api, _, hapi, hnew⟩)
  | disconnectPeer userId answer =>
    rw [Server.step]
    exact .inl (s.disconnect_socketApi userId answer)
  | removeUser userId =>
    rw [Server.step, Server.removeUser, Server.logEvent_socketApi]
    exact .inl rfl
  | adminRemove userId answer =>
    rw [Server.step, Server.adminRemove, Server.removeUser, Server.logEvent_socketApi]
    exact .inl (s.disconnect_socketApi userId answer)
  | socketConnect sid auth roomId =>
    cases hapi : s.socketApi with
    | none => exact .inl (by rw [Server.step, hapi]; rfl)
    | some api =>
      refine .inr (.inr ⟨api, (SocketAPI.onConnect (J := Unit) api sid auth roomId).1, rfl,
        by rw [Server.step, hapi]; rfl, ?_⟩)
      rw [SocketAPI.onConnect]
      cases api.admitted auth <;> exact ⟨rfl, rfl⟩
  | socketDisconnect sid =>
    cases hapi : s.socketApi with
    | none => exact .inl (by rw [Server.step, hapi]; rfl)
    | some api =>
      exact .inr (.inr ⟨api, api.onDisconnect sid, rfl, by rw [Server.step, hapi]; rfl, rfl, rfl⟩)

theorem known_step (s : Server) (a : Server.Action) (h : Known uuid s) :
    Known uuid (s.step uuid a) := by
  intro api' hapi'
  rcases step_socketApi uuid s a with hsame | ⟨api, users, hapi, hnew⟩ |
    ⟨api, api'', hapi, hnew, hsessions, hcreated⟩
  · exact h api' (hsame ▸ hapi')
  · obtain rfl := Option.some_inj.mp (hnew.symm.trans hapi')
    exact SocketAPI.sessionsKnown_createSession (h api hapi) users
  · obtain rfl := Option.some_inj.mp (hnew.symm.trans hapi')
    have hknown := h api hapi
    rw [SocketAPI.SessionsKnown, hsessions, hcreated]
    exact hknown

theorem open_step {sessionId : String} {users : Finset String} (s : Server)
    (a : Server.Action) (h : Open uuid sessionId users s) :
    Open uuid sessionId users (s.step uuid a) := by
  obtain ⟨api, hapi, hknown, hlookup⟩ := h
  -- the API stays, gets a session under a fresh id, or keeps its sessions
  rcases step_socketApi uuid s a with hsame | ⟨api', users', hapi', hnew⟩ |
    ⟨api', api'', hapi', hnew, hsessions, hcreated⟩
  · exact ⟨api, hsame.trans hapi, hknown, hlookup⟩
  · obtain rfl := Option.some_inj.mp (hapi.symm.trans hapi')
    refine ⟨_, hnew, SocketAPI.sessionsKnown_createSession hknown users', ?_⟩
    rw [SocketAPI.lookup_createSession hknown users'
      (Finmap.mem_of_lookup_eq_some hlookup), hlookup]
  · obtain rfl := Option.some_inj.mp (hapi.symm.trans hapi')
    refine ⟨api'', hnew, ?_, hsessions ▸ hlookup⟩
    rw [SocketAPI.SessionsKnown, hsessions, hcreated]
    exact hknown

/-- A successful `connect` opens a session for its two users. -/
theorem open_of_connect {userId peerId : String} {answer : ClientAnswer} {endpoint : Endpoint}
    {sessionId : String} (h : Known uuid s)
    (hconnect : (s.connect uuid userId peerId answer).2 = .ok (endpoint, sessionId)) :
    Open uuid sessionId {userId, peerId} (s.step uuid (.handlePeerConnection userId peerId answer)) := by
  rcases s.connect_cases uuid userId peerId answer with ⟨-, e, he⟩ |
    ⟨-, user, peer, api, -, -, -, -, -, -, hapi, -, hnew, hok⟩
  · exact absurd (hconnect.symm.trans he) (by simp)
  · rw [hok, Except.ok.injEq, Prod.mk.injEq] at hconnect
    refine ⟨_, hnew, SocketAPI.sessionsKnown_createSession (h api hapi) _, ?_⟩
    rw [← hconnect.2, SocketAPI.createSession, Finmap.lookup_insert]
    simp

/-! ### Runs in which a call has ended -/

/-- In this run `connect` made a session `sessionId` for two users, and later `disconnect`
returned for one of them while they were each other's peer. -/
def FinishedCall (uuid : UuidSource) (s : Server) (actions : List Server.Action)
    (userId peerId sessionId : String) : Prop :=
  ∃ before between after endpoint answer ender other answer',
    actions = before ++ [.handlePeerConnection userId peerId answer] ++ between
      ++ [.disconnectPeer ender answer'] ++ after ∧
    ((before.foldl (Server.step uuid) s).connect uuid userId peerId answer).2
      = .ok (endpoint, sessionId) ∧
    ({ender, other} : Finset String) = {userId, peerId} ∧
    (∀ t, t = (before ++ [.handlePeerConnection userId peerId answer] ++ between).foldl
        (Server.step uuid) s →
      CallPairing.partner t.users ender = some other ∧
        (t.disconnect ender answer').2 = .ok ())

/-- From `s` on, no socket is accepted into the session and nothing is relayed between
sockets bound to it. -/
def Closed (J : Type) (uuid : UuidSource) (s : Server) (sessionId : String) : Prop :=
  ∀ (later : List Server.Action) (api : SocketAPI),
    (later.foldl (Server.step uuid) s).socketApi = some api →
      (∀ sid userId roomId, (SocketAPI.onConnect (J := J) api sid
        (some ⟨some userId, some sessionId⟩) roomId).2.1 = false) ∧
      ∀ sid sid' userId userId', sid ≠ sid' → api.sids.lookup sid = some (sessionId, userId) →
        api.sids.lookup sid' = some (sessionId, userId') →
          (∀ label msg : J, ∀ e ∈ api.onMessage sid label msg, sid' ∉ api.receivers e) ∧
          (∀ frame width height : Option J, ∀ e ∈ api.onFrame sid frame width height,
            sid' ∉ api.receivers e) ∧
          ∀ audio rate : Option J, ∀ e ∈ api.onAudioFrame sid audio rate,
            sid' ∉ api.receivers e

theorem finished_open {actions : List Server.Action} {userId peerId sessionId : String}
    (hs : Known uuid s) (h : FinishedCall uuid s actions userId peerId sessionId) :
    Open uuid sessionId {userId, peerId} (actions.foldl (Server.step uuid) s) := by
  obtain ⟨before, between, after, endpoint, answer, ender, other, answer', rfl, hconnect, -, -⟩ := h
  -- open from the successful `connect` on, and no later step, the disconnect included, closes it
  have hknown := foldl_induction (f := Server.step uuid) hs (fun s a h => known_step s a h) before
  have hopen := open_of_connect hknown hconnect
  simp only [List.append_assoc, List.foldl_append, List.foldl_cons, List.foldl_nil]
  exact foldl_induction (open_step _ _
    (foldl_induction hopen (fun s a h => open_step s a h) between))
    (fun s a h => open_step s a h) after

theorem onConnect_of_open {api : SocketAPI} {sessionId userId : String}
    {users : Finset String} (hne : sessionId ≠ "")
    (hlookup : api.sessions.lookup sessionId = some users) (hmem : userId ∈ users)
    {J : Type} (sid roomId : String) :
    (SocketAPI.onConnect (J := J) api sid (some ⟨some userId, some sessionId⟩) roomId).1
        = api.bind sid (sessionId, userId) ∧
      (SocketAPI.onConnect (J := J) api sid (some ⟨some userId, some sessionId⟩) roomId).2.1
        = true := by
  have hadmit := SocketAPI.admitted_eq_some.mpr
    ⟨(rfl : some (SocketAuth.mk (some userId) (some sessionId)) = _), hne, users, hlookup, hmem⟩
  rw [SocketAPI.onConnect, hadmit]
  exact ⟨rfl, rfl⟩

/-- **A finished session stays open.**  Whatever the run, both users of the ended call are
still accepted, and once both have a socket in the session again, what one of them sends
reaches the other. -/
theorem finished_session_stays_open (uuid : UuidSource) (J : Type) (apiEndpoint : Endpoint)
    (actions : List Server.Action) (userId peerId sessionId : String)
    (hfinished : FinishedCall uuid { apiEndpoint := apiEndpoint } actions userId peerId
      sessionId) :
    ¬ Closed J uuid (actions.foldl (Server.step uuid) { apiEndpoint := apiEndpoint }) sessionId ∧
    ∃ api, (actions.foldl (Server.step uuid) { apiEndpoint := apiEndpoint }).socketApi
        = some api ∧
      (∀ user ∈ ({userId, peerId} : Finset String), ∀ sid roomId,
        (SocketAPI.onConnect (J := J) api sid (some ⟨some user, some sessionId⟩) roomId).2.1
          = true) ∧
      ∀ sid sid' roomId roomId', sid ≠ sid' →
        let api₁ := (SocketAPI.onConnect (J := J) api sid
          (some ⟨some userId, some sessionId⟩) roomId).1
        let api₂ := (SocketAPI.onConnect (J := J) api₁ sid'
          (some ⟨some peerId, some sessionId⟩) roomId').1
        (∀ label msg : J, ∃ e ∈ api₂.onMessage sid label msg, sid' ∈ api₂.receivers e) ∧
        (∀ frame width height : Option J,
          ∃ e ∈ api₂.onFrame sid frame width height, sid' ∈ api₂.receivers e) ∧
        ∀ audio rate : Option J,
          ∃ e ∈ api₂.onAudioFrame sid audio rate, sid' ∈ api₂.receivers e := by
  have hinit : Known uuid { apiEndpoint := apiEndpoint } :=
    known_of_empty fun api hapi => (Option.some_inj.mp hapi) ▸ rfl
  obtain ⟨api, hapi, hknown, hlookup⟩ := finished_open hinit hfinished
  have hne : sessionId ≠ "" := by
    obtain ⟨n, -, rfl⟩ := hknown sessionId (Finmap.mem_of_lookup_eq_some hlookup)
    exact uuid.nonempty n
  have haccept : ∀ user ∈ ({userId, peerId} : Finset String), ∀ sid roomId,
      (SocketAPI.onConnect (J := J) api sid (some ⟨some user, some sessionId⟩) roomId).2.1
        = true :=
    fun user hmem sid roomId => (onConnect_of_open hne hlookup hmem sid roomId).2
  refine ⟨fun hclosed => ?_, api, hapi, haccept, ?_⟩
  · have hrefuse := (hclosed [] api hapi).1 "sid" userId "room"
    rw [haccept userId (Finset.mem_insert_self _ _) "sid" "room"] at hrefuse
    exact absurd hrefuse (by simp)
  · intro sid sid' roomId roomId' hsid
    have hfirst := (onConnect_of_open hne hlookup (Finset.mem_insert_self userId {peerId})
      (J := J) sid roomId).1
    have hlookup' : (api.bind sid (sessionId, userId)).sessions.lookup sessionId
        = some {userId, peerId} := hlookup
    have hsecond := (onConnect_of_open hne hlookup'
      (Finset.mem_insert_of_mem (Finset.mem_singleton_self peerId)) (J := J) sid' roomId').1
    rw [hfirst]
    dsimp only
    rw [hsecond]
    -- the first socket is bound to the session, the second one is in its room
    have hbound : ((api.bind sid (sessionId, userId)).bind sid' (sessionId, peerId)).sids.lookup
        sid = some (sessionId, userId) := by
      rw [SocketAPI.bind, Finmap.lookup_insert_of_ne _ hsid, SocketAPI.bind,
        Finmap.lookup_insert]
    have hroom : (sessionId, sid') ∈
        ((api.bind sid (sessionId, userId)).bind sid' (sessionId, peerId)).rooms :=
      Finset.mem_insert_self _ _
    have hother : some sid' ≠ some sid := fun h => hsid (Option.some_inj.mp h).symm
    refine ⟨fun label msg => ?_, fun frame width height => ?_, fun audio rate => ?_⟩
    · rw [SocketAPI.onMessage, hbound]
      exact ⟨_, List.mem_singleton_self _, SocketAPI.mem_receivers.mpr ⟨hroom, by simp⟩⟩
    · rw [SocketAPI.onFrame, hbound]
      exact ⟨_, List.mem_singleton_self _, SocketAPI.mem_receivers.mpr ⟨hroom, hother⟩⟩
    · rw [SocketAPI.onAudioFrame, hbound]
      exact ⟨_, List.mem_singleton_self _, SocketAPI.mem_receivers.mpr ⟨hroom, hother⟩⟩

/-- Users 10000 and 10001 call each other, and the second one hangs up. -/
def finishedRun : List Server.Action :=
  [.addUser [.str "10.0.0.1", .int 5001] (CallPairing.plainDraws 0),
    .addUser [.str "10.0.0.2", .int 5001] (CallPairing.plainDraws 1),
    .handlePeerConnection "10000" "10001" (.status 200),
    .disconnectPeer "10001" .unreachable]

def serverEndpoint : Endpoint := ⟨some "10.0.0.9", .int 5050, none⟩

theorem finishedRun_finished :
    FinishedCall CallPairing.plainUuid { apiEndpoint := serverEndpoint } finishedRun
      "10000" "10001" "u" := by
  refine ⟨finishedRun.take 2, [], [], serverEndpoint, .status 200, "10001", "10000",
    .unreachable, rfl, by decide +kernel, by decide +kernel, ?_⟩
  rintro t rfl
  exact ⟨by decide +kernel, by decide +kernel⟩

theorem finishedRun_not_closed :
    ¬ Closed Unit CallPairing.plainUuid
      (finishedRun.foldl (Server.step CallPairing.plainUuid) { apiEndpoint := serverEndpoint })
      "u" :=
  (finished_session_stays_open _ Unit _ _ _ _ _ finishedRun_finished).1

/-- After the call both users are idle, and the session still lets the first one in. -/
theorem finished_session_readmits :
    let s := finishedRun.foldl (Server.step CallPairing.plainUuid)
      { apiEndpoint := serverEndpoint }
    UserManager.connectedUsers s.users = ∅ ∧
      s.socketApi.map (fun api => (SocketAPI.onConnect (J := Unit) api "sid"
        (some ⟨some "10000", some "u"⟩) "ROOM1").2.1) = some true := by
  decide +kernel

end SessionLifetime
