/-
The event log as an audit trail (`server/server.py`, `server/peer_manager.py`).

`Records` says which change of the user store an event stands for, and `replay` rebuilds who is
registered and who is connected to whom from the events alone.

* `replayEvent_of_records` — replaying an event makes the change it stands for;
* `step_effect` — what one operation logs, and when that is what it did;
* `eventLog_run` — the log holds the last events of a run;
* `event_log_faithful_iff` — the log of a run is a faithful record of it exactly when nobody
  unknown is removed and nobody hangs up on a removed peer.
-/
import QuantumVideoChat.BoundedHistory
import QuantumVideoChat.CallPairing

namespace AuditTrail

open CallPairing Transition UserManager

/-! ### What an event stands for -/

/-- The change of the user store that an event reports. -/
inductive Records : UserStore → ServerEvent → UserStore → Prop
  | userAdded {users : UserStore} {userId : String} (endpoint : Endpoint)
      (hnew : userId ∉ users) :
      Records users (.userAdded userId) (users.insert userId { apiEndpoint := endpoint })
  | userRemoved {users : UserStore} {userId : String} (hmem : userId ∈ users) :
      Records users (.userRemoved userId) (users.erase userId)
  | peerConnected {users : UserStore} {userId peerId : String} {user peer : User}
      (hne : userId ≠ peerId)
      (huser : users.lookup userId = some user) (hidle : user.state = .idle)
      (hsingle : user.peer = none)
      (hpeer : users.lookup peerId = some peer) (hpidle : peer.state = .idle)
      (hpsingle : peer.peer = none) :
      Records users (.peerConnected userId peerId)
        ((users.insert userId { user with state := .connected, peer := some peerId }).insert
          peerId { peer with state := .connected, peer := some userId })
  | peerDisconnected {users : UserStore} {userId peerId : String} {user peer : User}
      (hne : userId ≠ peerId)
      (huser : users.lookup userId = some user) (hstate : user.state = .connected)
      (hto : user.peer = some peerId)
      (hpeer : users.lookup peerId = some peer) (hpstate : peer.state = .connected)
      (hback : peer.peer = some userId) :
      Records users (.peerDisconnected userId peerId)
        ((users.insert userId { user with state := .idle, peer := none }).insert
          peerId { peer with state := .idle, peer := none })

/-! ### Replaying the log -/

/-- What the log can tell of a user. -/
structure Standing where
  state : UserState := .idle
  peer : Option String := none
  deriving DecidableEq

abbrev Roster := String → Option Standing

/-- The store as the log can tell it. -/
def roster (users : UserStore) : Roster := fun userId =>
  (users.lookup userId).map fun user => { state := user.state, peer := user.peer }

/-- An event that does not fit the roster cannot be replayed. -/
def replayEvent (r : Roster) : ServerEvent → Option Roster
  | .userAdded userId =>
    if r userId = none then some (Function.update r userId (some {})) else none
  | .userRemoved userId =>
    if r userId = none then none else some (Function.update r userId none)
  | .peerConnected userId peerId =>
    if userId ≠ peerId ∧ r userId = some {} ∧ r peerId = some {} then
      some (Function.update (Function.update r userId
        (some { state := .connected, peer := some peerId })) peerId
        (some { state := .connected, peer := some userId }))
    else none
  | .peerDisconnected userId peerId =>
    if userId ≠ peerId ∧ r userId = some { state := .connected, peer := some peerId } ∧
        r peerId = some { state := .connected, peer := some userId } then
      some (Function.update (Function.update r userId (some {})) peerId (some {}))
    else none

/-- The roster after a log, starting without users. -/
def replay (eventLog : List ServerEvent) : Option Roster :=
  eventLog.foldlM replayEvent fun _ => none

variable {users users' : UserStore} {userId peerId : String}

theorem roster_of_lookup {user : User} (h : users.lookup userId = some user) :
    roster users userId = some { state := user.state, peer := user.peer } := by
  rw [roster, h, Option.map_some]

theorem roster_eq_none : roster users userId = none ↔ userId ∉ users := by
  rw [roster, Option.map_eq_none_iff, Finmap.lookup_eq_none]

theorem roster_insert (users : UserStore) (userId : String) (user : User) :
    roster (users.insert userId user)
      = Function.update (roster users) userId
          (some { state := user.state, peer := user.peer }) := by
  funext id
  by_cases hid : id = userId
  · subst hid
    rw [Function.update_self, roster_of_lookup (Finmap.lookup_insert users)]
  · rw [Function.update_of_ne hid, roster, roster, Finmap.lookup_insert_of_ne _ hid]

theorem roster_erase (users : UserStore) (userId : String) :
    roster (users.erase userId) = Function.update (roster users) userId none := by
  funext id
  by_cases hid : id = userId
  · subst hid
    rw [Function.update_self, roster, Finmap.lookup_erase, Option.map_none]
  · rw [Function.update_of_ne hid, roster, roster, Finmap.lookup_erase_ne hid]

/-- Replaying an event makes the change that it reports. -/
theorem replayEvent_of_records (users : UserStore) (event : ServerEvent) (users' : UserStore)
    (h : Records users event users') :
    replayEvent (roster users) event = some (roster users') := by
  cases h with
  | userAdded endpoint hnew =>
    rw [replayEvent, if_pos (roster_eq_none.mpr hnew), roster_insert]
  | userRemoved hmem =>
    rw [replayEvent, if_neg (mt roster_eq_none.mp (not_not.mpr hmem)), roster_erase]
  | peerConnected hne huser hidle hsingle hpeer hpidle hpsingle =>
    have hfirst := roster_of_lookup huser
    have hsecond := roster_of_lookup hpeer
    rw [hidle, hsingle] at hfirst
    rw [hpidle, hpsingle] at hsecond
    rw [replayEvent, if_pos ⟨hne, hfirst, hsecond⟩, roster_insert, roster_insert]
  | peerDisconnected hne huser hstate hto hpeer hpstate hback =>
    have hfirst := roster_of_lookup huser
    have hsecond := roster_of_lookup hpeer
    rw [hstate, hto] at hfirst
    rw [hpstate, hback] at hsecond
    rw [replayEvent, if_pos ⟨hne, hfirst, hsecond⟩, roster_insert, roster_insert]

theorem replay_append_of_trace {eventLog events : List ServerEvent}
    (hlog : replay eventLog = some (roster users)) (h : Trace Records users events users') :
    replay (eventLog ++ events) = some (roster users') := by
  rw [replay, List.foldlM_append]
  show (replay eventLog).bind _ = _
  rw [hlog, Option.bind_some]
  exact h.foldlM replayEvent_of_records

/-! ### What an operation logs -/

/-- The events that a step logs, read off an empty log. -/
def loggedBy (uuid : UuidSource) (s : Server) (a : Server.Action) : List ServerEvent :=
  (({ s with eventLog := [] } : Server).step uuid a).eventLog

/-- All events that a run logs, also those that have left the log since. -/
def logged (uuid : UuidSource) : Server → List Server.Action → List ServerEvent
  | _, [] => []
  | s, a :: actions => loggedBy uuid s a ++ logged uuid (s.step uuid a) actions

/-- Whatever the log holds, `f` appends these events to it. -/
def Adds (f : Server → Server) (s : Server) (events : List ServerEvent) : Prop :=
  ∀ log, (f { s with eventLog := log }).eventLog = events.foldl Server.appendEvent log

theorem appendEvent_rtake (events eventLog : List ServerEvent) :
    events.foldl Server.appendEvent (eventLog.rtake Server.maxEvents)
      = (eventLog ++ events).rtake Server.maxEvents := by
  induction events generalizing eventLog with
  | nil => rw [List.append_nil, List.foldl_nil]
  | cons event events ih =>
    have hpush := BoundedHistory.push_rtake Server.maxEvents eventLog event
    rw [List.foldl_cons]
    show events.foldl _ (BoundedHistory.push _ _ _) = _
    rw [hpush, ih, List.append_assoc, List.singleton_append]

/-- As long as everything fits, nothing leaves the log. -/
theorem foldl_appendEvent {events eventLog : List ServerEvent}
    (h : eventLog.length + events.length ≤ Server.maxEvents) :
    events.foldl Server.appendEvent eventLog = eventLog ++ events := by
  have hall := appendEvent_rtake events eventLog
  rwa [BoundedHistory.rtake_of_length_le (by omega),
    BoundedHistory.rtake_of_length_le (by rwa [List.length_append])] at hall

@[simp] theorem logEvent_eventLog (s : Server) (event : ServerEvent) :
    (s.logEvent event).eventLog = [event].foldl Server.appendEvent s.eventLog := by
  rw [Server.logEvent, List.foldl_cons, List.foldl_nil]

variable (uuid : UuidSource) (s : Server)

theorem addUser_effect (apiEndpoint : List PyValue) (draws : IdDraws) :
    (Adds (fun s => (s.addUser apiEndpoint draws).1) s [] ∧
      (s.addUser apiEndpoint draws).1.users = s.users) ∨
    ∃ userId, Adds (fun s => (s.addUser apiEndpoint draws).1) s [.userAdded userId] ∧
      Records s.users (.userAdded userId) (s.addUser apiEndpoint draws).1.users := by
  simp only [Adds, Server.addUser]
  cases hadd : UserManager.addUser s.users apiEndpoint draws with
  | error e => exact .inl ⟨fun log => rfl, rfl⟩
  | ok new =>
    obtain ⟨userId, users'⟩ := new
    obtain ⟨-, hnew, endpoint, -, rfl⟩ := addUser_eq_ok.mp hadd
    exact .inr ⟨userId, fun log => logEvent_eventLog _ _, .userAdded endpoint hnew⟩

theorem removeUser_adds (userId : String) :
    Adds (fun s => s.removeUser userId) s [.userRemoved userId] := fun _ => logEvent_eventLog _ _

theorem setUserState_eventLog {s s' : Server} {state : UserState} {peer : Option String}
    (h : s.setUserState userId state peer = .ok s') : s'.eventLog = s.eventLog := by
  obtain ⟨users, -, rfl⟩ := Server.eq_of_setUserState h
  rfl

/-- The end of `connect` logs the new pair when it does not fail. -/
theorem finishConnect_eventLog {s : Server} {sessionId : String} {r : Endpoint × String}
    (h : (s.finishConnect userId peerId sessionId).2 = .ok r) :
    (s.finishConnect userId peerId sessionId).1.eventLog
      = [ServerEvent.peerConnected userId peerId].foldl Server.appendEvent s.eventLog := by
  rw [Server.finishConnect] at h ⊢
  cases hset : s.setUserState userId .connected (some peerId) with
  | error e => simp [hset] at h
  | ok s₁ =>
    simp only [hset] at h ⊢
    cases hset' : s₁.setUserState peerId .connected (some userId) with
    | error e => simp [hset'] at h
    | ok s₂ =>
      simp only
      rw [logEvent_eventLog, setUserState_eventLog hset', setUserState_eventLog hset]

/-- A call of `connect` logs nothing and raises, or it logs the pair it has connected. -/
theorem connect_adds (userId peerId : String) (answer : ClientAnswer) :
    (Adds (fun s => (s.connect uuid userId peerId answer).1) s [] ∧
      ∃ e, (s.connect uuid userId peerId answer).2 = .error e) ∨
    (Adds (fun s => (s.connect uuid userId peerId answer).1) s [.peerConnected userId peerId] ∧
      ∃ r, (s.connect uuid userId peerId answer).2 = .ok r) := by
  -- nothing that `connect` looks at depends on the log
  have hcheck : ∀ log, ({ s with eventLog := log } : Server).checkConnect userId peerId
      = s.checkConnect userId peerId := fun log => rfl
  simp only [Adds, Server.connect, hcheck]
  cases hok : s.checkConnect userId peerId with
  | error e => exact .inl ⟨fun log => rfl, e, rfl⟩
  | ok u =>
    cases hapi : s.socketApi with
    | none =>
      simp only [Server.startWebsocket, hapi]
      exact .inl ⟨fun log => rfl, _, rfl⟩
    | some api =>
      simp only [Server.startWebsocket, hapi]
      obtain ⟨api', sessionId⟩ := api.createSession uuid [userId, peerId]
      have hcontact : ∀ log, ({ s with eventLog := log, socketApi := some api' } :
          Server).contactClient peerId "/peer_connection" answer
            = { s with socketApi := some api' }.contactClient peerId "/peer_connection" answer :=
        fun log => rfl
      simp only [hcontact]
      cases Server.checkAnswer peerId _ with
      | error e => exact .inl ⟨fun log => rfl, e, rfl⟩
      | ok u =>
        obtain ⟨hne, ⟨user, huser, -⟩, peer, hpeer, -⟩ := Server.checkConnect_eq_ok hok
        have hfinish : ∀ log, (({ s with eventLog := log, socketApi := some api' } :
            Server).finishConnect userId peerId sessionId).2 = .ok (s.apiEndpoint, sessionId) :=
          fun log => (Server.finishConnect_eq { s with eventLog := log, socketApi := some api' }
            hne huser hpeer sessionId).2.2
        exact .inr ⟨fun log => finishConnect_eventLog (hfinish log), _, hfinish s.eventLog⟩

/-- The peer recorded for a user. -/
def recordedPeer (users : UserStore) (userId : String) : Option String :=
  (users.lookup userId).bind fun user => user.peer

/-- A user who is found is recorded with the peer that the record handed out has. -/
theorem recordedPeer_of_found {s : Server} {user : User} (h : s.findUser userId = .ok user) :
    recordedPeer s.users userId = user.peer := by
  obtain ⟨stored, hlookup, -, -, hpeer⟩ := Server.findUser_eq_ok.mp h
  rw [recordedPeer, hlookup, Option.bind_some, hpeer]

/-- A user who is not found has no peer: a connected user can be copied. -/
theorem recordedPeer_of_not_found {s : Server} (h : Consistent s.users) {e : ServerException}
    (hfind : s.findUser userId = .error e) : recordedPeer s.users userId = none := by
  rw [recordedPeer]
  cases hlookup : s.users.lookup userId with
  | none => rfl
  | some stored =>
    rw [Option.bind_some]
    rcases h.state_peer userId stored hlookup with ⟨-, hnone⟩ | ⟨hstate, -⟩
    · exact hnone
    · have hcopy := h.copy userId stored hlookup hstate
      obtain ⟨found, hok, -⟩ := Server.findUser_of_copy hlookup hcopy
      exact absurd (hfind.symm.trans hok) (by simp)

/-- A call of `disconnect` finds no peer and does nothing, or it logs the pair that it resets. -/
theorem disconnect_adds (h : Consistent s.users) (userId : String) (answer : ClientAnswer) :
    (recordedPeer s.users userId = none ∧ Adds (fun s => (s.disconnect userId answer).1) s [] ∧
      (s.disconnect userId answer).1.users = s.users) ∨
    ∃ peerId, recordedPeer s.users userId = some peerId ∧
      Adds (fun s => (s.disconnect userId answer).1) s [.peerDisconnected userId peerId] ∧
      (s.disconnect userId answer).1.users
        = UserManager.resetUser (UserManager.resetUser s.users userId) peerId := by
  have hfind : ∀ log, ({ s with eventLog := log } : Server).findUser userId = s.findUser userId :=
    fun log => rfl
  simp only [Adds, Server.disconnect, hfind]
  cases hfound : s.findUser userId with
  | error e => exact .inl ⟨recordedPeer_of_not_found h hfound, fun log => rfl, rfl⟩
  | ok user =>
    have hpeer := recordedPeer_of_found hfound
    cases hp : user.peer with
    | none =>
      simp only [hp]
      exact .inl ⟨hpeer.trans hp, fun log => rfl, trivial⟩
    | some peerId =>
      simp only [hp]
      refine .inr ⟨peerId, hpeer.trans hp, fun log => ?_, ?_⟩
      · split <;> exact logEvent_eventLog _ _
      · split <;> exact Server.logEvent_users _ _

theorem exists_of_recordedPeer (h : Consistent users)
    (hpeer : recordedPeer users userId = some peerId) :
    ∃ user, users.lookup userId = some user ∧ user.state = .connected ∧
      user.peer = some peerId ∧ userId ≠ peerId := by
  obtain ⟨user, hlookup, hto⟩ := Option.bind_eq_some_iff.mp hpeer
  rcases h.state_peer userId user hlookup with ⟨-, hnone⟩ | ⟨hstate, p, hp, hne⟩
  · exact absurd (hnone.symm.trans hto) (by simp)
  · obtain rfl := Option.some_inj.mp (hp.symm.trans hto)
    exact ⟨user, hlookup, hstate, hto, hne.symm⟩

theorem resetUser_of_lookup {user : User} (h : users.lookup userId = some user) :
    resetUser users userId = users.insert userId { user with state := .idle, peer := none } := by
  rw [resetUser, setUserState_eq_ok.mpr ⟨Iff.intro (fun _ => rfl) (fun _ => rfl), user, h, rfl⟩]

theorem recordedPeer_of_records (h : Records users (.peerDisconnected userId peerId) users') :
    recordedPeer users peerId = some userId := by
  cases h with
  | peerDisconnected hne huser hstate hto hpeer hpstate hback =>
    rw [recordedPeer, hpeer, Option.bind_some, hback]

/-- Hanging up is what the log says it is exactly when the peer is in the call too. -/
theorem records_disconnect_iff (h : Consistent users)
    (hto : recordedPeer users userId = some peerId) :
    Records users (.peerDisconnected userId peerId)
        (resetUser (resetUser users userId) peerId) ↔
      recordedPeer users peerId = some userId := by
  refine ⟨recordedPeer_of_records, fun hback => ?_⟩
  obtain ⟨user, huser, hstate, hpeer, hne⟩ := exists_of_recordedPeer h hto
  obtain ⟨peer, hplookup, hpstate, hppeer, -⟩ := exists_of_recordedPeer h hback
  have hother : (users.insert userId { user with state := .idle, peer := none }).lookup peerId
      = some peer := by
    rw [Finmap.lookup_insert_of_ne _ hne.symm, hplookup]
  rw [resetUser_of_lookup huser, resetUser_of_lookup hother]
  exact .peerDisconnected hne huser hstate hpeer hplookup hpstate hppeer

theorem connect_effect (h : Consistent s.users) (userId peerId : String)
    (answer : ClientAnswer) :
    (Adds (fun s => (s.connect uuid userId peerId answer).1) s [] ∧
      (s.connect uuid userId peerId answer).1.users = s.users) ∨
    (Adds (fun s => (s.connect uuid userId peerId answer).1) s [.peerConnected userId peerId] ∧
      Records s.users (.peerConnected userId peerId)
        (s.connect uuid userId peerId answer).1.users) := by
  have hsingle : ∀ id user, s.users.lookup id = some user → user.state = .idle →
      user.peer = none := by
    intro id user hlookup hidle
    rcases h.state_peer id user hlookup with ⟨-, hnone⟩ | ⟨hstate, -⟩
    · exact hnone
    · exact absurd (hidle.symm.trans hstate) (by simp)
  rcases connect_adds uuid s userId peerId answer with ⟨hadds, e, herror⟩ | ⟨hadds, r, hok⟩
  · rcases s.connect_cases uuid userId peerId answer with ⟨hsame, -⟩ |
      ⟨-, _, _, _, -, -, -, -, -, -, -, -, -, hok⟩
    · exact .inl ⟨hadds, hsame⟩
    · exact absurd (herror.symm.trans hok) (by simp)
  · rcases s.connect_cases uuid userId peerId answer with ⟨-, e, herror⟩ |
      ⟨hne, user, peer, api, huser, hidle, -, hpeer, hpidle, -, -, husers, -⟩
    · exact absurd (herror.symm.trans hok) (by simp)
    · refine .inr ⟨hadds, ?_⟩
      rw [husers]
      exact .peerConnected hne huser hidle (hsingle _ _ huser hidle) hpeer hpidle
        (hsingle _ _ hpeer hpidle)

/-! ### One step -/

/-- The peer recorded for the user is still registered and has the user as its peer. -/
def PeerAgrees (users : UserStore) (userId : String) : Prop :=
  ∀ peerId ∈ recordedPeer users userId, recordedPeer users peerId = some userId

theorem peerAgrees_of_none (h : recordedPeer users userId = none) : PeerAgrees users userId :=
  fun _ hpeer => absurd (h.symm.trans hpeer) (by simp)

theorem peerAgrees_iff (h : recordedPeer users userId = some peerId) :
    PeerAgrees users userId ↔ recordedPeer users peerId = some userId := by
  rw [PeerAgrees, h]
  simp only [Option.mem_def, Option.some_inj, forall_eq']

instance (users : UserStore) (userId : String) : Decidable (PeerAgrees users userId) :=
  inferInstanceAs (Decidable (∀ peerId ∈ recordedPeer users userId,
    recordedPeer users peerId = some userId))

/-- Nobody unknown is removed, and nobody hangs up on a peer who is in no call with them. -/
def Recordable (s : Server) : Server.Action → Prop
  | .removeUser userId => userId ∈ s.users
  | .disconnectPeer userId _ => PeerAgrees s.users userId
  | .adminRemove userId _ => userId ∈ s.users ∧ PeerAgrees s.users userId
  | _ => True

instance (s : Server) : ∀ a, Decidable (Recordable s a)
  | .removeUser userId => inferInstanceAs (Decidable (userId ∈ s.users))
  | .disconnectPeer userId _ => inferInstanceAs (Decidable (PeerAgrees s.users userId))
  | .adminRemove userId _ =>
    inferInstanceAs (Decidable (userId ∈ s.users ∧ PeerAgrees s.users userId))
  | .addUser _ _ | .handlePeerConnection _ _ _ | .socketConnect _ _ _ | .socketDisconnect _ =>
    inferInstanceAs (Decidable True)

theorem mem_of_recordedPeer (h : recordedPeer users userId = some peerId) : userId ∈ users := by
  obtain ⟨user, hlookup, -⟩ := Option.bind_eq_some_iff.mp h
  exact Finmap.mem_of_lookup_eq_some hlookup

theorem mem_resetUser (users : UserStore) (userId id : String) :
    id ∈ resetUser users userId ↔ id ∈ users := by
  rw [← Finmap.lookup_isSome, ← Finmap.lookup_isSome, lookup_resetUser]
  split_ifs
  · rw [Option.isSome_map]
  · rfl

theorem mem_of_records (h : Records users (.userRemoved userId) users') : userId ∈ users := by
  cases h with
  | userRemoved hmem => exact hmem

theorem adminRemove_adds {events : List ServerEvent} {answer : ClientAnswer}
    (h : Adds (fun s => (s.disconnect userId answer).1) s events) :
    Adds (fun s => s.adminRemove userId answer) s (events ++ [.userRemoved userId]) := by
  intro log
  rw [List.foldl_append, ← h log]
  exact logEvent_eventLog _ _

/-- The logged operations that an action consists of: `admin_remove` is two. -/
def operations : Server.Action → ℕ
  | .adminRemove _ _ => 2
  | .socketConnect _ _ _ | .socketDisconnect _ => 0
  | _ => 1

/-- The logged operations of a run. -/
def countOperations : List Server.Action → ℕ
  | [] => 0
  | a :: actions => operations a + countOperations actions

/-- What a step adds to any log, and when that is what it did to the users. -/
theorem step_effect (h : Consistent s.users) (a : Server.Action) :
    ∃ events, events.length ≤ operations a ∧ Adds (fun s => s.step uuid a) s events ∧
      (Trace Records s.users events (s.step uuid a).users ↔ Recordable s a) := by
  cases a with
  | addUser apiEndpoint draws =>
    rcases addUser_effect s apiEndpoint draws with ⟨hadds, hsame⟩ | ⟨userId, hadds, hrecords⟩
    · exact ⟨[], Nat.zero_le _, hadds, iff_of_true (trace_nil_iff.mpr hsame.symm) trivial⟩
    · exact ⟨_, le_rfl, hadds, iff_of_true (.singleton hrecords) trivial⟩
  | handlePeerConnection userId peerId answer =>
    rcases connect_effect uuid s h userId peerId answer with ⟨hadds, hsame⟩ | ⟨hadds, hrecords⟩
    · exact ⟨[], Nat.zero_le _, hadds, iff_of_true (trace_nil_iff.mpr hsame.symm) trivial⟩
    · exact ⟨_, le_rfl, hadds, iff_of_true (.singleton hrecords) trivial⟩
  | disconnectPeer userId answer =>
    rcases disconnect_adds s h userId answer with ⟨hnone, hadds, hsame⟩ |
      ⟨peerId, hto, hadds, husers⟩
    · exact ⟨[], Nat.zero_le _, hadds, iff_of_true (trace_nil_iff.mpr hsame.symm)
        (peerAgrees_of_none hnone)⟩
    · refine ⟨_, le_rfl, hadds, ?_⟩
      show Trace Records s.users _ (s.disconnect userId answer).1.users ↔ PeerAgrees s.users userId
      rw [trace_singleton_iff, husers, records_disconnect_iff h hto, peerAgrees_iff hto]
  | removeUser userId =>
    refine ⟨_, le_rfl, removeUser_adds s userId, ?_⟩
    show Trace Records s.users _ (s.removeUser userId).users ↔ userId ∈ s.users
    rw [trace_singleton_iff, Server.removeUser_users]
    exact ⟨mem_of_records, .userRemoved⟩
  | adminRemove userId answer =>
    rcases disconnect_adds s h userId answer with ⟨hnone, hadds, hsame⟩ |
      ⟨peerId, hto, hadds, husers⟩
    · have hremove := adminRemove_adds s hadds
      rw [List.nil_append] at hremove
      refine ⟨[.userRemoved userId], Nat.le_succ 1, hremove, ?_⟩
      show Trace Records s.users [.userRemoved userId] (s.adminRemove userId answer).users ↔
        userId ∈ s.users ∧ PeerAgrees s.users userId
      rw [trace_singleton_iff, Server.adminRemove, Server.removeUser_users, hsame]
      exact ⟨fun hr => ⟨mem_of_records hr, peerAgrees_of_none hnone⟩, fun hm => .userRemoved hm.1⟩
    · refine ⟨_, le_rfl, adminRemove_adds s hadds, ?_⟩
      show Trace Records s.users [.peerDisconnected userId peerId, .userRemoved userId]
          (s.adminRemove userId answer).users ↔ userId ∈ s.users ∧ PeerAgrees s.users userId
      rw [Server.adminRemove, Server.removeUser_users, husers, peerAgrees_iff hto]
      constructor
      · intro htrace
        cases htrace with
        | cons hfirst hrest =>
          exact ⟨mem_of_recordedPeer hto, recordedPeer_of_records hfirst⟩
      · rintro ⟨hmem, hback⟩
        refine .cons ((records_disconnect_iff h hto).mpr hback) (.singleton (.userRemoved ?_))
        rwa [mem_resetUser, mem_resetUser]
  | socketConnect sid auth roomId =>
    exact ⟨[], Nat.zero_le _, fun log => rfl, iff_of_true (.nil _) trivial⟩
  | socketDisconnect sid =>
    exact ⟨[], Nat.zero_le _, fun log => rfl, iff_of_true (.nil _) trivial⟩

/-- The events of a step are the same for every log. -/
theorem loggedBy_effect (h : Consistent s.users) (a : Server.Action) :
    (loggedBy uuid s a).length ≤ operations a ∧
      Adds (fun s => s.step uuid a) s (loggedBy uuid s a) ∧
      (Trace Records s.users (loggedBy uuid s a) (s.step uuid a).users ↔ Recordable s a) := by
  obtain ⟨events, hfew, hadds, hiff⟩ := step_effect uuid s h a
  have htwo : operations a ≤ 2 := by cases a <;> simp [operations]
  have hmax : events.length ≤ Server.maxEvents := (hfew.trans htwo).trans (by decide)
  have hlogged : loggedBy uuid s a = events := by
    rw [loggedBy, hadds [], foldl_appendEvent (by simpa using hmax), List.nil_append]
  rw [hlogged]
  exact ⟨hfew, hadds, hiff⟩

/-- As long as everything fits, a step leaves what the log held. -/
theorem step_eventLog (h : Consistent s.users) (a : Server.Action)
    (hfits : s.eventLog.length + (loggedBy uuid s a).length ≤ Server.maxEvents) :
    (s.step uuid a).eventLog = s.eventLog ++ loggedBy uuid s a :=
  ((loggedBy_effect uuid s h a).2.1 s.eventLog).trans (foldl_appendEvent hfits)

/-- The step appends events to the log, and these are the changes it makes, one after the other. -/
def Corresponds (uuid : UuidSource) (s : Server) (a : Server.Action) : Prop :=
  ∃ events, (s.step uuid a).eventLog = s.eventLog ++ events ∧
    Trace Records s.users events (s.step uuid a).users

theorem corresponds_iff (h : Consistent s.users) (a : Server.Action)
    (hfits : s.eventLog.length + (loggedBy uuid s a).length ≤ Server.maxEvents) :
    Corresponds uuid s a ↔ Recordable s a := by
  rw [← (loggedBy_effect uuid s h a).2.2, Corresponds, step_eventLog uuid s h a hfits]
  constructor
  · rintro ⟨events, hsame, htrace⟩
    rwa [List.append_cancel_left hsame]
  · intro htrace
    exact ⟨_, rfl, htrace⟩

/-! ### Runs -/

/-- A run logs at most one event for each logged operation. -/
theorem length_logged_le {actions : List Server.Action} : ∀ {s : Server}, Consistent s.users →
    (logged uuid s actions).length ≤ countOperations actions := by
  induction actions with
  | nil =>
    intro s _
    exact le_rfl
  | cons a actions ih =>
    intro s h
    rw [logged, List.length_append, countOperations]
    exact Nat.add_le_add (loggedBy_effect uuid s h a).1 (ih (consistent_step uuid s a h))

/-- However long the run, the log holds its last events. -/
theorem eventLog_run {actions : List Server.Action} {past : List ServerEvent} :
    ∀ {s : Server}, Consistent s.users → s.eventLog = past.rtake Server.maxEvents →
      (actions.foldl (Server.step uuid) s).eventLog
        = (past ++ logged uuid s actions).rtake Server.maxEvents := by
  induction actions generalizing past with
  | nil =>
    intro s _ hlog
    rw [List.foldl_nil, logged, List.append_nil, hlog]
  | cons a actions ih =>
    intro s h hlog
    have hstep : (s.step uuid a).eventLog = (past ++ loggedBy uuid s a).rtake Server.maxEvents := by
      rw [← appendEvent_rtake, ← hlog]
      exact (loggedBy_effect uuid s h a).2.1 s.eventLog
    rw [List.foldl_cons, ih (consistent_step uuid s a h) hstep, logged, List.append_assoc]

/-- In every state of the run replaying the log gives the users as they are, and every step
logs the changes it makes. -/
structure Faithful (uuid : UuidSource) (s : Server) (actions : List Server.Action) : Prop where
  replays : Throughout (Server.step uuid)
    (fun s => replay s.eventLog = some (roster s.users)) s actions
  corresponds : Along (Server.step uuid) (Corresponds uuid) s actions

theorem faithful_iff {actions : List Server.Action} : ∀ {s : Server}, Consistent s.users →
    replay s.eventLog = some (roster s.users) →
    s.eventLog.length + (logged uuid s actions).length ≤ Server.maxEvents →
    (Faithful uuid s actions ↔ Along (Server.step uuid) Recordable s actions) := by
  induction actions with
  | nil =>
    intro s _ hreplay _
    exact ⟨fun _ => trivial, fun _ => ⟨hreplay, trivial⟩⟩
  | cons a actions ih =>
    intro s h hreplay hfits
    rw [logged, List.length_append] at hfits
    have hiff := corresponds_iff uuid s h a (by omega)
    have hlog := step_eventLog uuid s h a (by omega)
    have hnext : Consistent (s.step uuid a).users := consistent_step uuid s a h
    have hfits' : (s.step uuid a).eventLog.length
        + (logged uuid (s.step uuid a) actions).length ≤ Server.maxEvents := by
      rw [hlog, List.length_append]
      omega
    constructor
    · rintro ⟨⟨-, hreplays⟩, hcorr, hrest⟩
      exact ⟨hiff.mp hcorr, (ih hnext hreplays.head hfits').mp ⟨hreplays, hrest⟩⟩
    · rintro ⟨hok, hrest⟩
      have hcorr := hiff.mpr hok
      obtain ⟨events, happend, htrace⟩ := hcorr
      have hreplay' : replay (s.step uuid a).eventLog = some (roster (s.step uuid a).users) := by
        rw [happend]
        exact replay_append_of_trace hreplay htrace
      obtain ⟨hreplays, hcorrs⟩ := (ih hnext hreplay' hfits').mpr hrest
      exact ⟨⟨hreplay, hreplays⟩, ⟨events, happend, htrace⟩, hcorrs⟩

/-- Only registered users are removed, and `remove_user` removes nobody who is in a call. -/
def Careful (s : Server) : Server.Action → Prop
  | .removeUser userId => userId ∈ s.users ∧ userId ∉ connectedUsers s.users
  | .adminRemove userId _ => userId ∈ s.users
  | _ => True

theorem keepsCalls_of_careful {s : Server} {a : Server.Action} (h : Careful s a) :
    KeepsCalls s a := by
  cases a with
  | removeUser userId => exact h.2
  | _ => trivial

theorem peerAgrees_of_paired (h : Consistent users) (hpaired : Paired users) (userId : String) :
    PeerAgrees users userId := by
  intro peerId hto
  obtain ⟨user, hlookup, hstate, hpeer, -⟩ := exists_of_recordedPeer h hto
  obtain ⟨peer, hplookup, -, hback⟩ := hpaired userId user peerId hlookup hstate hpeer
  rw [recordedPeer, hplookup, Option.bind_some, hback]

/-- As long as the calls stay paired, every step but the removal of a stranger can be
recorded. -/
theorem recordable_of_careful {s : Server} {actions : List Server.Action}
    (h : Consistent s.users) (hpaired : Paired s.users)
    (hcareful : Along (Server.step uuid) Careful s actions) :
    Along (Server.step uuid) Recordable s actions := by
  refine hcareful.mono (I := fun s => Consistent s.users ∧ Paired s.users) ?_ ?_ ⟨h, hpaired⟩
  · rintro s a ⟨h, hpaired⟩ ha
    exact ⟨consistent_step uuid s a h,
      (paired_step_iff uuid s a h hpaired).mpr (keepsCalls_of_careful ha)⟩
  · rintro s a ⟨h, hpaired⟩ ha
    have hagrees := peerAgrees_of_paired h hpaired
    cases a with
    | removeUser userId => exact ha.1
    | disconnectPeer userId answer => exact hagrees userId
    | adminRemove userId answer => exact ⟨ha, hagrees userId⟩
    | _ => trivial

/-- **When the event log is a faithful audit trail.**  As long as the log holds every event of the
run, replaying it gives the users as they are and its events are the changes that were made,
exactly when nobody unknown is removed and nobody hangs up on a peer who is not in the call; and
this is so when only registered users who are in no call are removed.  A run of at most 500
logged operations keeps within the log (`length_logged_le`). -/
theorem event_log_faithful_iff (uuid : UuidSource) (apiEndpoint : Endpoint)
    (socketApi : Option SocketAPI) (actions : List Server.Action)
    (h : (logged uuid { apiEndpoint := apiEndpoint, socketApi := socketApi } actions).length
      ≤ Server.maxEvents) :
    (Faithful uuid { apiEndpoint := apiEndpoint, socketApi := socketApi } actions ↔
      Along (Server.step uuid) Recordable
        { apiEndpoint := apiEndpoint, socketApi := socketApi } actions) ∧
    (Along (Server.step uuid) Careful
        { apiEndpoint := apiEndpoint, socketApi := socketApi } actions →
      Faithful uuid { apiEndpoint := apiEndpoint, socketApi := socketApi } actions) := by
  have hiff := faithful_iff uuid (s := { apiEndpoint := apiEndpoint, socketApi := socketApi })
    consistent_empty rfl (by simpa using h)
  have hpaired : Paired (∅ : UserStore) := fun _ _ _ hlookup => absurd hlookup (by simp)
  exact ⟨hiff, fun hcareful =>
    hiff.mpr (recordable_of_careful uuid consistent_empty hpaired hcareful)⟩

/-- Two users join, call each other and hang up; then one of them leaves. -/
def finishedCallRun : List Server.Action :=
  [.addUser [.str "10.0.0.1", .int 5001] (plainDraws 0),
    .addUser [.str "10.0.0.2", .int 5001] (plainDraws 1),
    .handlePeerConnection "10000" "10001" (.status 200),
    .disconnectPeer "10001" .unreachable,
    .removeUser "10000"]

theorem event_log_faithful_finishedCallRun :
    Faithful plainUuid { apiEndpoint := ⟨some "10.0.0.9", .int 5050, none⟩ } finishedCallRun :=
  (event_log_faithful_iff plainUuid ⟨some "10.0.0.9", .int 5050, none⟩ (some {}) finishedCallRun
    ((length_logged_le plainUuid consistent_empty).trans (by decide))).1.mpr (by decide +kernel)

/-- The removal of somebody who never registered is logged. -/
theorem unknown_removal_is_logged :
    (([.removeUser "10000"] : List Server.Action).foldl (Server.step plainUuid)
        { apiEndpoint := ⟨some "10.0.0.9", .int 5050, none⟩ }).eventLog
      = [.userRemoved "10000"] ∧
    ¬ Faithful plainUuid { apiEndpoint := ⟨some "10.0.0.9", .int 5050, none⟩ }
      [.removeUser "10000"] := by
  have hlog : (([.removeUser "10000"] : List Server.Action).foldl (Server.step plainUuid)
      { apiEndpoint := ⟨some "10.0.0.9", .int 5050, none⟩ }).eventLog
        = [.userRemoved "10000"] := by decide +kernel
  refine ⟨hlog, fun hfaithful => ?_⟩
  have hreplay := hfaithful.replays.last
  have hnone : replay [.userRemoved "10000"] = none := rfl
  rw [hlog, hnone] at hreplay
  exact absurd hreplay (by simp)

end AuditTrail
