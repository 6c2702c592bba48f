/-
Requests of the server cut at its locks (`server/peer_manager.py`,
`server/utils/user_manager.py`).

A lock guards one access to the store, so a request runs from one access to the next, and any
other request may come in between.  `connect` looks at both records, creates a session, asks the
peer, and changes one record after the other; `disconnect` looks at one record and resets both.
`set_user_state` is two accesses, and what it assigns in between is one step with the second.

Three things are remembered that no store holds: a clock that counts the steps, who changed
which record when, and when the calls that returned success began and ended.  A request is known
by the time of its first look.

* `connect_alone`, `disconnect_alone` — a request that nobody interrupts is the server's own.
-/
import QuantumVideoChat.Booking

namespace LockedSteps

open CallPairing UserManager Transition
open Booking (Booked)

/-- What a request does next. -/
inductive Point
  /-- `connect` has a copy of the user's record -/
  | findPeer (userId peerId : String) (user : User)
  | startWebsocket (userId peerId : String)
  | contact (userId peerId sessionId : String)
  | awaitPeer (userId peerId sessionId : String)
  /-- a `set_user_state`, which may have `found` the record -/
  | linkUser (found : Bool) (userId peerId sessionId : String)
  | linkPeer (found : Bool) (userId peerId sessionId : String)
  | resetUser (found : Bool) (userId peerId : String)
  | resetPeer (found : Bool) (userId peerId : String)
  | notify (userId peerId : String)
  | awaitNotified (userId peerId : String)
  deriving DecidableEq

/-- Request `request` has changed a record. -/
structure Change where
  record : String
  time : ℕ
  request : ℕ
  deriving DecidableEq

structure World where
  server : Server
  requests : ℕ → Option Point := fun _ => none
  clock : ℕ := 0
  changes : List Change := []
  booked : List Booked := []

namespace World

variable (uuid : UuidSource) (w : World)

/-- The end of `set_user_state`: the record is changed in place, and `update_user` stores it. -/
def setUserState (request : ℕ) (userId : String) (state : UserState) (peer : Option String) :
    Option World :=
  match w.server.setUserState userId state peer with
  | .error _ => none
  | .ok server => some { w with
      server := server
      changes :=
        if server.users.lookup userId = w.server.users.lookup userId then w.changes
        else w.changes ++ [⟨userId, w.clock, request⟩] }

def logEvent (event : ServerEvent) : World := { w with server := w.server.logEvent event }

/-- The event log is no part of a record. -/
theorem logEvent_same (event : ServerEvent) :
    (w.logEvent event).server.users = w.server.users ∧ (w.logEvent event).changes = w.changes ∧
      (w.logEvent event).requests = w.requests ∧ (w.logEvent event).booked = w.booked := by
  rw [logEvent]
  exact ⟨Server.logEvent_users w.server event, rfl, rfl, rfl⟩

def beginConnect (userId peerId : String) : Option Point :=
  if userId = peerId then none
  else
    match w.server.findUser userId with
    | .error _ => none
    | .ok user => some (.findPeer userId peerId user)

def beginDisconnect (userId : String) : Option Point :=
  match w.server.findUser userId with
  | .error _ => none
  | .ok user =>
    match user.peer with
    | none => none
    | some peerId => some (.resetUser false userId peerId)

/-- A request runs up to its next access, or it ends. -/
def advance (request : ℕ) : Point → World × Option Point
  | .findPeer userId peerId user =>
    match w.server.findUser peerId with
    | .error _ => (w, none)
    | .ok peer =>
      if peer.state ≠ .idle then (w, none)
      else if user.state ≠ .idle then (w, none)
      else (w, some (.startWebsocket userId peerId))
  | .startWebsocket userId peerId =>
    match w.server.startWebsocket uuid [userId, peerId] with
    | .error _ => (w, none)
    | .ok (server, sessionId) =>
      ({ w with server := server }, some (.contact userId peerId sessionId))
  | .contact userId peerId sessionId =>
    match w.server.contactClient peerId "/peer_connection" (.status Server.httpOk) with
    | .error _ => (w, none)
    | .ok _ => (w, some (.awaitPeer userId peerId sessionId))
  | .awaitPeer userId peerId sessionId => (w, some (.awaitPeer userId peerId sessionId))
  | .linkUser false userId peerId sessionId =>
    match DictUserStorage.getUser w.server.users userId with
    | .error _ => (w, none)
    | .ok _ => (w, some (.linkUser true userId peerId sessionId))
  | .linkUser true userId peerId sessionId =>
    match w.setUserState request userId .connected (some peerId) with
    | none => (w, none)
    | some w => (w, some (.linkPeer false userId peerId sessionId))
  | .linkPeer false userId peerId sessionId =>
    match DictUserStorage.getUser w.server.users peerId with
    | .error _ => (w, none)
    | .ok _ => (w, some (.linkPeer true userId peerId sessionId))
  | .linkPeer true userId peerId _ =>
    match w.setUserState request peerId .connected (some userId) with
    | none => (w, none)
    | some w' =>
      ({ w'.logEvent (.peerConnected userId peerId) with
        booked := w.booked ++ [⟨userId, peerId, request, w.clock⟩] }, none)
  | .resetUser false userId peerId =>
    match DictUserStorage.getUser w.server.users userId with
    -- a failure is logged only
    | .error _ => (w, some (.resetPeer false userId peerId))
    | .ok _ => (w, some (.resetUser true userId peerId))
  | .resetUser true userId peerId =>
    ((w.setUserState request userId .idle none).getD w, some (.resetPeer false userId peerId))
  | .resetPeer false userId peerId =>
    match DictUserStorage.getUser w.server.users peerId with
    | .error _ => (w.logEvent (.peerDisconnected userId peerId), some (.notify userId peerId))
    | .ok _ => (w, some (.resetPeer true userId peerId))
  | .resetPeer true userId peerId =>
    (((w.setUserState request peerId .idle none).getD w).logEvent
      (.peerDisconnected userId peerId), some (.notify userId peerId))
  | .notify userId peerId =>
    match w.server.contactClient peerId "/peer_disconnected" (.status Server.httpOk) with
    | .error _ => (w, none)
    | .ok _ => (w, some (.awaitNotified userId peerId))
  | .awaitNotified userId peerId => (w, some (.awaitNotified userId peerId))

/-- A request that waits for a client has its answer. -/
def hear (answer : ClientAnswer) : Point → Option Point
  | .awaitPeer userId peerId sessionId =>
    match Server.checkAnswer peerId (.ok answer) with
    | .error _ => none
    | .ok _ => some (.linkUser false userId peerId sessionId)
  -- what comes of a notification is logged, or raised
  | .awaitNotified _ _ => none
  | point => some point

def put (request : ℕ) (next : World × Option Point) : World :=
  { next.1 with requests := Function.update next.1.requests request next.2 }

theorem put_self (request : ℕ) (next : World × Option Point) :
    (put request next).requests request = next.2 := by
  unfold put
  exact Function.update_self request next.2 next.1.requests

theorem put_of_ne {request other : ℕ} (h : other ≠ request) (next : World × Option Point) :
    (put request next).requests other = next.1.requests other := by
  unfold put
  exact Function.update_of_ne h next.2 next.1.requests

end World

/-- A user registers, a request arrives, a request goes on, or a client answers it. -/
inductive Action
  | addUser (apiEndpoint : List PyValue) (draws : IdDraws)
  | handlePeerConnection (userId peerId : String)
  | disconnectPeer (userId : String)
  | run (request : ℕ)
  | answer (request : ℕ) (answer : ClientAnswer)

def act (uuid : UuidSource) (w : World) : Action → World
  | .addUser apiEndpoint draws => { w with server := (w.server.addUser apiEndpoint draws).1 }
  | .handlePeerConnection userId peerId => World.put w.clock (w, w.beginConnect userId peerId)
  | .disconnectPeer userId => World.put w.clock (w, w.beginDisconnect userId)
  | .run request =>
    match w.requests request with
    | none => w
    | some point => World.put request (w.advance uuid request point)
  | .answer request answer =>
    match w.requests request with
    | none => w
    | some point => World.put request (w, World.hear answer point)

def step (uuid : UuidSource) (w : World) (a : Action) : World :=
  { act uuid w a with clock := w.clock + 1 }

/-- A server that has just started. -/
def fresh (apiEndpoint : Endpoint) (socketApi : Option SocketAPI) : World where
  server := { apiEndpoint := apiEndpoint, socketApi := socketApi }

/-! ### A request on its own -/

/-- After `actions` nothing is left of the request. -/
def Ends (uuid : UuidSource) (w : World) (request : ℕ) (actions : List Action) (server : Server)
    (booked : List Booked) : Prop :=
  (actions.foldl (step uuid) w).server = server ∧
    (actions.foldl (step uuid) w).requests request = none ∧
    (actions.foldl (step uuid) w).booked = booked

section

variable {uuid : UuidSource} {w : World} {request : ℕ} {point : Point} {userId peerId : String}
  {actions : List Action} {server : Server} {booked : List Booked} {answer : ClientAnswer}

/-- A request that is over does nothing. -/
theorem ends_of_none (h : w.requests request = none)
    (hactions : ∀ a ∈ actions, a = .run request ∨ ∃ answer, a = .answer request answer) :
    Ends uuid w request actions w.server w.booked := by
  induction actions generalizing w with
  | nil => exact ⟨rfl, h, rfl⟩
  | cons a actions ih =>
    have hstep : step uuid w a = { w with clock := w.clock + 1 } := by
      rcases hactions a List.mem_cons_self with rfl | ⟨answer, rfl⟩ <;> rw [step, act, h]
    rw [Ends, List.foldl_cons, hstep]
    exact ih (w := { w with clock := w.clock + 1 }) h fun a ha =>
      hactions a (List.mem_cons_of_mem _ ha)

theorem ends_run (hpoint : w.requests request = some point)
    (h : Ends uuid { World.put request (w.advance uuid request point) with
      clock := w.clock + 1 } request actions server booked) :
    Ends uuid w request (.run request :: actions) server booked := by
  rw [Ends, List.foldl_cons, step, act, hpoint]
  exact h

theorem ends_answer (hpoint : w.requests request = some point)
    (h : Ends uuid { World.put request (w, World.hear answer point) with clock := w.clock + 1 }
      request actions server booked) :
    Ends uuid w request (.answer request answer :: actions) server booked := by
  rw [Ends, List.foldl_cons, step, act, hpoint]
  exact h

theorem getUser_of_setUserState {s s' : Server} {state : UserState} {peer : Option String}
    (h : s.setUserState userId state peer = .ok s') :
    ∃ user, DictUserStorage.getUser s.users userId = .ok user := by
  obtain ⟨users, hset, -⟩ := Server.eq_of_setUserState h
  obtain ⟨-, user, hlookup, -⟩ := setUserState_eq_ok.mp hset
  exact ⟨user, by rw [DictUserStorage.getUser, hlookup]⟩

/-- The second half of a call that nobody interrupts. -/
theorem ends_linkPeer {sessionId : String}
    (hpoint : w.requests request = some (.linkPeer false userId peerId sessionId)) :
    Ends uuid w request [.run request, .run request]
      (match w.server.setUserState peerId .connected (some userId) with
        | .error _ => w.server
        | .ok s => s.logEvent (.peerConnected userId peerId))
      (match w.server.setUserState peerId .connected (some userId) with
        | .error _ => w.booked
        | .ok _ => w.booked ++ [⟨userId, peerId, request, w.clock + 1⟩]) := by
  refine ends_run hpoint ?_
  rw [World.advance]
  cases hset : w.server.setUserState peerId .connected (some userId) with
  | error e =>
    cases DictUserStorage.getUser w.server.users peerId with
    | error e => exact ends_of_none (World.put_self ..) (by simp)
    | ok user =>
      refine ends_run (World.put_self ..) ?_
      simp only [World.advance, World.setUserState, World.put, hset]
      exact ends_of_none (Function.update_self ..) (by simp)
  | ok s =>
    obtain ⟨user, hget⟩ := getUser_of_setUserState hset
    rw [hget]
    refine ends_run (World.put_self ..) ?_
    simp only [World.advance, World.setUserState, World.put, hset, World.logEvent]
    exact ends_of_none (Function.update_self ..) (by simp)

/-- What is left of a call that has been accepted. -/
theorem ends_linkUser {sessionId : String}
    (hpoint : w.requests request = some (.linkUser false userId peerId sessionId)) :
    Ends uuid w request [.run request, .run request, .run request, .run request]
      (w.server.finishConnect userId peerId sessionId).1
      (match (w.server.finishConnect userId peerId sessionId).2 with
        | .error _ => w.booked
        | .ok _ => w.booked ++ [⟨userId, peerId, request, w.clock + 3⟩]) := by
  refine ends_run hpoint ?_
  rw [World.advance, Server.finishConnect]
  cases hset : w.server.setUserState userId .connected (some peerId) with
  | error e =>
    cases DictUserStorage.getUser w.server.users userId with
    | error e => exact ends_of_none (World.put_self ..) (by simp)
    | ok user =>
      refine ends_run (World.put_self ..) ?_
      simp only [World.advance, World.setUserState, World.put, hset]
      exact ends_of_none (Function.update_self ..) (by simp)
  | ok s =>
    obtain ⟨user, hget⟩ := getUser_of_setUserState hset
    rw [hget]
    refine ends_run (World.put_self ..) ?_
    simp only [World.advance, World.setUserState, World.put, hset]
    have hlast := @ends_linkPeer uuid (World.put request
      ({ World.put request (w, some (.linkUser true userId peerId sessionId)) with
        server := s
        clock := w.clock + 2
        changes := if s.users.lookup userId = w.server.users.lookup userId then w.changes
          else w.changes ++ [⟨userId, w.clock + 1, request⟩] },
        some (.linkPeer false userId peerId sessionId))) request userId peerId sessionId
      (World.put_self ..)
    cases hset' : s.setUserState peerId .connected (some userId) with
    | error e =>
      simp only [World.put, hset'] at hlast ⊢
      exact hlast
    | ok s' =>
      simp only [World.put, hset'] at hlast ⊢
      exact hlast

/-- What is left of a call that waits for its answer. -/
theorem ends_awaitPeer {sessionId : String}
    (hpoint : w.requests request = some (.awaitPeer userId peerId sessionId))
    (answer : ClientAnswer) :
    Ends uuid w request
      [.answer request answer, .run request, .run request, .run request, .run request]
      (match Server.checkAnswer peerId (.ok answer) with
        | .error _ => w.server
        | .ok _ => (w.server.finishConnect userId peerId sessionId).1)
      (match Server.checkAnswer peerId (.ok answer) with
        | .error _ => w.booked
        | .ok _ =>
          match (w.server.finishConnect userId peerId sessionId).2 with
          | .error _ => w.booked
          | .ok _ => w.booked ++ [⟨userId, peerId, request, w.clock + 4⟩]) := by
  refine ends_answer hpoint ?_
  rw [World.hear]
  cases Server.checkAnswer peerId (.ok answer) with
  | error e => exact ends_of_none (World.put_self ..) (by simp)
  | ok _ =>
    exact ends_linkUser (w := { World.put request
      (w, some (.linkUser false userId peerId sessionId)) with clock := w.clock + 1 })
      (World.put_self ..)

/-- **A call that nobody interrupts** is the server's own. -/
theorem connect_alone (uuid : UuidSource) (w : World) (userId peerId : String)
    (answer : ClientAnswer) :
    Ends uuid w w.clock
      [.handlePeerConnection userId peerId, .run w.clock, .run w.clock, .run w.clock,
        .answer w.clock answer, .run w.clock, .run w.clock, .run w.clock, .run w.clock]
      (w.server.connect uuid userId peerId answer).1
      (match (w.server.connect uuid userId peerId answer).2 with
        | .error _ => w.booked
        | .ok _ => w.booked ++ [⟨userId, peerId, w.clock, w.clock + 8⟩]) := by
  rw [Ends, List.foldl_cons, ← Ends]
  show Ends uuid { World.put w.clock (w, w.beginConnect userId peerId) with
    clock := w.clock + 1 } _ _ _ _
  rw [World.beginConnect, Server.connect, Server.checkConnect]
  split_ifs with hsame
  · exact ends_of_none (World.put_self ..) (by simp)
  cases hfind : w.server.findUser userId with
  | error e => exact ends_of_none (World.put_self ..) (by simp)
  | ok user =>
    refine ends_run (World.put_self ..) ?_
    simp only [World.advance, World.put]
    cases hpeer : w.server.findUser peerId with
    | error e => exact ends_of_none (Function.update_self ..) (by simp)
    | ok peer =>
      dsimp only
      split_ifs with hpstate hustate
      · exact ends_of_none (Function.update_self ..) (by simp)
      · exact ends_of_none (Function.update_self ..) (by simp)
      refine ends_run (Function.update_self ..) ?_
      simp only [World.advance, World.put]
      cases hstart : w.server.startWebsocket uuid [userId, peerId] with
      | error e => exact ends_of_none (Function.update_self ..) (by simp)
      | ok started =>
        obtain ⟨s, sessionId⟩ := started
        refine ends_run (Function.update_self ..) ?_
        simp only [World.advance, World.put]
        rw [s.contactClient_eq peerId "/peer_connection" (.status Server.httpOk) answer]
        cases s.contactClient peerId "/peer_connection" (.status Server.httpOk) with
        | error e => exact ends_of_none (Function.update_self ..) (by simp)
        | ok _ =>
          have hlast := @ends_awaitPeer uuid (World.put w.clock ({ w with
            server := s
            clock := w.clock + 4 }, some (.awaitPeer userId peerId sessionId))) w.clock userId
            peerId sessionId (World.put_self ..) answer
          simp only [World.put] at hlast
          simp only [Except.map, Function.update_idem]
          cases hanswer : Server.checkAnswer peerId (.ok answer) with
          | error e =>
            rw [hanswer] at hlast
            exact hlast
          | ok _ =>
            rw [hanswer] at hlast
            exact hlast

/-- The end of a disconnect, with more turns than it needs. -/
def turns (request : ℕ) (answer : ClientAnswer) (n : ℕ) : List Action :=
  List.replicate n (.run request) ++ [.answer request answer]

theorem turns_succ (request : ℕ) (answer : ClientAnswer) (n : ℕ) :
    turns request answer (n + 1) = .run request :: turns request answer n := rfl

theorem eq_of_mem_turns {n : ℕ} {a : Action} (h : a ∈ turns request answer n) :
    a = .run request ∨ ∃ answer, a = .answer request answer := by
  rcases List.mem_append.mp h with hrun | hanswer
  · exact .inl (List.eq_of_mem_replicate hrun)
  · exact .inr ⟨answer, List.mem_singleton.mp hanswer⟩

theorem ends_awaitNotified (hpoint : w.requests request = some (.awaitNotified userId peerId))
    (n : ℕ) : Ends uuid w request (turns request answer n) w.server w.booked := by
  induction n generalizing w with
  | zero => exact ends_answer hpoint (ends_of_none (World.put_self ..) (by simp))
  | succ n ih =>
    rw [turns_succ]
    exact ends_run hpoint (@ih { World.put request (w, some (.awaitNotified userId peerId)) with
      clock := w.clock + 1 } (World.put_self ..))

theorem ends_notify (hpoint : w.requests request = some (.notify userId peerId)) (n : ℕ) :
    Ends uuid w request (turns request answer (n + 1)) w.server w.booked := by
  rw [turns_succ]
  refine ends_run hpoint ?_
  rw [World.advance]
  cases w.server.contactClient peerId "/peer_disconnected" (.status Server.httpOk) with
  | error e => exact ends_of_none (World.put_self ..) fun _ => eq_of_mem_turns
  | ok _ => exact ends_awaitNotified (World.put_self ..) n

/-- A failure is logged only. -/
theorem reset_server (w : World) (request : ℕ) (userId : String) :
    ((w.setUserState request userId .idle none).getD w).server = w.server.resetUser userId ∧
      ((w.setUserState request userId .idle none).getD w).booked = w.booked := by
  rw [World.setUserState, Server.setUserState, Server.resetUser, UserManager.resetUser]
  cases UserManager.setUserState w.server.users userId .idle none <;> exact ⟨rfl, rfl⟩

theorem resetUser_of_error {s : Server} {e : ServerException}
    (h : DictUserStorage.getUser s.users userId = .error e) : s.resetUser userId = s := by
  rw [Server.resetUser, UserManager.resetUser, UserManager.setUserState, h]
  rfl

theorem ends_resetPeer_write
    (hpoint : w.requests request = some (.resetPeer true userId peerId)) (n : ℕ) :
    Ends uuid w request (turns request answer (n + 2))
      ((w.server.resetUser peerId).logEvent (.peerDisconnected userId peerId)) w.booked := by
  obtain ⟨hserver, hbooked⟩ := reset_server w request peerId
  rw [turns_succ]
  refine ends_run hpoint ?_
  rw [World.advance, ← hserver, ← hbooked]
  generalize (w.setUserState request peerId .idle none).getD w = w₁
  simp only [World.put, World.logEvent]
  generalize w₁.server.logEvent _ = s
  exact ends_notify (Function.update_self ..) n

theorem ends_resetPeer (hpoint : w.requests request = some (.resetPeer false userId peerId))
    (n : ℕ) :
    Ends uuid w request (turns request answer (n + 3))
      ((w.server.resetUser peerId).logEvent (.peerDisconnected userId peerId)) w.booked := by
  rw [turns_succ]
  refine ends_run hpoint ?_
  rw [World.advance]
  cases hget : DictUserStorage.getUser w.server.users peerId with
  | error e =>
    rw [resetUser_of_error hget]
    simp only [World.put, World.logEvent]
    generalize w.server.logEvent _ = s
    exact ends_notify (Function.update_self ..) (n + 1)
  | ok user =>
    exact ends_resetPeer_write (w := { World.put request (w, some (.resetPeer true userId peerId))
      with clock := w.clock + 1 }) (World.put_self ..) n

theorem ends_resetUser_write
    (hpoint : w.requests request = some (.resetUser true userId peerId)) :
    Ends uuid w request (turns request answer 4)
      (((w.server.resetUser userId).resetUser peerId).logEvent
        (.peerDisconnected userId peerId)) w.booked := by
  obtain ⟨hserver, hbooked⟩ := reset_server w request userId
  rw [turns_succ]
  refine ends_run hpoint ?_
  rw [World.advance, ← hserver, ← hbooked]
  generalize (w.setUserState request userId .idle none).getD w = w₁
  exact ends_resetPeer (w := { World.put request (w₁, some (.resetPeer false userId peerId))
    with clock := w.clock + 1 }) (World.put_self ..) 0

theorem ends_resetUser (hpoint : w.requests request = some (.resetUser false userId peerId)) :
    Ends uuid w request (turns request answer 5)
      (((w.server.resetUser userId).resetUser peerId).logEvent
        (.peerDisconnected userId peerId)) w.booked := by
  rw [turns_succ]
  refine ends_run hpoint ?_
  rw [World.advance]
  cases hget : DictUserStorage.getUser w.server.users userId with
  | error e =>
    rw [resetUser_of_error hget]
    exact ends_resetPeer (w := { World.put request (w, some (.resetPeer false userId peerId))
      with clock := w.clock + 1 }) (World.put_self ..) 1
  | ok user =>
    exact ends_resetUser_write (w := { World.put request
      (w, some (.resetUser true userId peerId)) with clock := w.clock + 1 }) (World.put_self ..)

/-- **A disconnect that nobody interrupts** is the server's own. -/
theorem disconnect_alone (uuid : UuidSource) (w : World) (userId : String)
    (answer : ClientAnswer) :
    Ends uuid w w.clock (.disconnectPeer userId :: turns w.clock answer 5)
      (w.server.disconnect userId answer).1 w.booked := by
  rw [Ends, List.foldl_cons, ← Ends]
  show Ends uuid { World.put w.clock (w, w.beginDisconnect userId) with
    clock := w.clock + 1 } _ _ _ _
  rw [World.beginDisconnect, Server.disconnect]
  cases hfind : w.server.findUser userId with
  | error e => exact ends_of_none (World.put_self ..) fun _ => eq_of_mem_turns
  | ok user =>
    cases hpeer : user.peer with
    | none =>
      simp only [hpeer]
      exact ends_of_none (World.put_self ..) fun _ => eq_of_mem_turns
    | some peerId =>
      simp only [hpeer]
      have hlast := @ends_resetUser uuid (World.put w.clock ({ w with clock := w.clock + 1 },
        some (.resetUser false userId peerId))) w.clock userId peerId answer (World.put_self ..)
      split <;> exact hlast

end

end LockedSteps
