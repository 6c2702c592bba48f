/-
Several calls of the server in progress at once, as the records show them
(`server/peer_manager.py`).

Records are serial when the server could have reached them by handling one request after the
other, `connect` included, which then asks the peer and waits for the answer in one go.  As in
`Booking`, handlers are assumed to give up control only while they wait for a client.

* `connects_of_idle` — `connect` in one go succeeds where its second half finds idle users;
* `serial_step_iff` — the step that leaves records no such server has;
* `interleaving_serial_iff` — the interleavings whose records are serial throughout.
-/
import QuantumVideoChat.Booking
import QuantumVideoChat.Disconnecting

namespace Booking

open CallPairing UserManager Transition

/-- A server that handles its requests one after the other, none of them a `remove_user`, has
these records at some time. -/
def Serial (uuid : UuidSource) (s : Server) (users : UserStore) : Prop :=
  ∃ actions : List Server.Action, (∀ a ∈ actions, ∀ userId, a ≠ .removeUser userId) ∧
    (actions.foldl (Server.step uuid) s).users = users

/-- An accepted call finds both users without a partner, or connected to each other already. -/
def FindsFree (w : World) : Action → Prop
  | .answer i (.status code) =>
    match w.pending[i]? with
    | some (.connecting userId peerId _ _) =>
      code = Server.httpOk →
        (partner w.server.users userId = none ∧ partner w.server.users peerId = none) ∨
          partner w.server.users userId = some peerId
    | _ => True
  | _ => True

variable {uuid : UuidSource} {w : World} {userId peerId sessionId : String} {begun : ℕ}

/-! ### Serial records -/

section

variable {s : Server} {users : UserStore}

/-- What holds of the records of a server that handles requests one after the other. -/
theorem consistent_paired_of_serial (hs : s.users = ∅) (h : Serial uuid s users) :
    Consistent users ∧ Paired users := by
  obtain ⟨actions, hkeep, rfl⟩ := h
  have hrun : ∀ {s : Server}, Consistent s.users ∧ Paired s.users →
      Consistent (actions.foldl (Server.step uuid) s).users ∧
        Paired (actions.foldl (Server.step uuid) s).users := by
    induction actions with
    | nil => exact fun h => h
    | cons a actions ih =>
      intro s h
      refine ih (fun b hb => hkeep b (List.mem_cons_of_mem _ hb)) ⟨consistent_step uuid s a h.1, ?_⟩
      refine (paired_step_iff uuid s a h.1 h.2).mpr ?_
      cases a with
      | removeUser id => exact absurd rfl (hkeep _ List.mem_cons_self id)
      | _ => trivial
  exact hrun (hs ▸ ⟨consistent_empty, fun _ _ _ h => absurd h (by simp)⟩)

/-- One more request. -/
theorem Serial.step (h : Serial uuid s users) {a : Server.Action}
    (ha : ∀ userId, a ≠ .removeUser userId) {users' : UserStore}
    (hstep : ∀ s' : Server, s'.users = users → s'.socketApi.isSome = s.socketApi.isSome →
      (s'.step uuid a).users = users') : Serial uuid s users' := by
  obtain ⟨actions, hkeep, husers⟩ := h
  refine ⟨actions ++ [a], fun b hb => ?_, ?_⟩
  · rcases List.mem_append.mp hb with hold | hnew
    · exact hkeep b hold
    · exact List.mem_singleton.mp hnew ▸ ha
  · rw [List.foldl_append]
    refine hstep _ husers ?_
    -- a server keeps its sockets, or goes on without
    refine foldl_induction (f := Server.step uuid) (I := fun s' => s'.socketApi.isSome
      = s.socketApi.isSome) rfl (fun s' b h => ?_) actions
    rcases SessionLifetime.step_socketApi uuid s' b with hsame | ⟨api, _, hapi, hnew⟩ |
      ⟨api, api', hapi, hnew, -⟩
    · rw [hsame, h]
    · rw [← h, hapi, hnew]
      rfl
    · rw [← h, hapi, hnew]
      rfl

end

/-- Where both users are idle and can be handed out, `connect` in one go has the effect of its
second half. -/
theorem connects_of_idle {s : Server} {user peer : User} (hne : userId ≠ peerId)
    (huser : s.users.lookup userId = some user) (huidle : user.state = .idle)
    (hucopy : ∃ e, user.apiEndpoint.copy = .ok e)
    (hpeer : s.users.lookup peerId = some peer) (hpidle : peer.state = .idle)
    (hpcopy : ∃ e, peer.apiEndpoint.copy = .ok e) (hsocket : s.socketApi.isSome = true) :
    (s.step uuid (.handlePeerConnection userId peerId (.status Server.httpOk))).users
      = (s.users.insert userId { user with state := .connected, peer := some peerId }).insert
          peerId { peer with state := .connected, peer := some userId } := by
  have hconnectable : s.Connectable userId peerId :=
    ⟨hne, ⟨user, huser, huidle, hucopy⟩, peer, hpeer, hpidle, hpcopy⟩
  have haccepts : s.Accepts peerId (.status Server.httpOk) := by
    obtain ⟨answer, hanswer⟩ := (Server.contactClient_isOk_iff s peerId "/peer_connection"
      (.status Server.httpOk)).mpr ⟨peer, hpeer, hpcopy⟩
    rw [Server.Accepts, s.contactClient_eq peerId _ (.status Server.httpOk), hanswer]
    rfl
  obtain ⟨r, hok⟩ := (Server.connect_isOk_iff uuid (.status Server.httpOk)).mpr
    ⟨hconnectable, hsocket, haccepts⟩
  rcases s.connect_cases uuid userId peerId (.status Server.httpOk) with ⟨-, e, herror⟩ |
    ⟨-, user', peer', -, huser', -, -, hpeer', -, -, -, husers, -⟩
  · exact absurd (hok.symm.trans herror) (by simp)
  · obtain rfl := Option.some_inj.mp (huser'.symm.trans huser)
    obtain rfl := Option.some_inj.mp (hpeer'.symm.trans hpeer)
    exact husers

/-- What becomes of the records in `disconnect` is a matter of the records alone. -/
theorem disconnect_congr {s s' : Server} (h : s'.users = s.users) (userId : String)
    (answer : ClientAnswer) :
    (s'.disconnect userId answer).1.users = (s.disconnect userId answer).1.users := by
  have hfind : s'.findUser userId = s.findUser userId := by
    simp only [Server.findUser, Server.getUser, h]
  rw [Server.disconnect, Server.disconnect, hfind]
  cases s.findUser userId with
  | error e => exact h
  | ok user =>
    dsimp only
    cases user.peer with
    | none => exact h
    | some peerId =>
      have hreset : ((s'.resetUser userId).resetUser peerId).users
          = ((s.resetUser userId).resetUser peerId).users := by
        simp only [Server.resetUser, h]
      dsimp only
      split <;> split <;> simp only [Server.logEvent_users, hreset]

theorem beginDisconnect_users (w : World) (userId : String) :
    (w.beginDisconnect userId).server.users
      = (w.server.disconnect userId (.status Server.httpOk)).1.users := by
  rw [World.beginDisconnect]
  cases hfind : w.server.findUser userId with
  | error e => rw [Server.disconnect, hfind]
  | ok user =>
    cases hpeer : user.peer with
    | none => simp only [Server.disconnect, hfind, hpeer]
    | some peerId =>
      simp only [hpeer]
      split <;> rfl

/-! ### The sockets of the server -/

theorem requestConnect_socketApi {s s' : Server} {r : Except ServerException String}
    (h : s.requestConnect uuid userId peerId = (s', r)) :
    s'.socketApi.isSome = s.socketApi.isSome ∧
      ∀ sessionId, r = .ok sessionId → s.socketApi.isSome = true := by
  rw [Server.requestConnect] at h
  cases hcheck : s.checkConnect userId peerId with
  | error e =>
    simp only [hcheck, Prod.mk.injEq] at h
    obtain ⟨rfl, rfl⟩ := h
    exact ⟨rfl, by simp⟩
  | ok u =>
    cases hapi : s.socketApi with
    | none =>
      simp only [hcheck, Server.startWebsocket, hapi, Prod.mk.injEq] at h
      obtain ⟨rfl, rfl⟩ := h
      exact ⟨by rw [hapi], by simp⟩
    | some api =>
      simp only [hcheck, Server.startWebsocket, hapi] at h
      refine ⟨?_, fun _ _ => rfl⟩
      split at h <;> rw [← (Prod.mk.inj h).1] <;> rfl

/-- The server has its sockets, if it had any to start with, and nobody waits for a session
otherwise. -/
structure Sockets (socketApi : Option SocketAPI) (w : World) : Prop where
  same : w.server.socketApi.isSome = socketApi.isSome
  needed : ∀ userId peerId sessionId begun,
    .connecting userId peerId sessionId begun ∈ w.pending → socketApi.isSome = true

variable {socketApi : Option SocketAPI}

/-- Nobody waits who did not wait before. -/
theorem Sockets.of_pending (h : Sockets socketApi w) {w' : World}
    (hsame : w'.server.socketApi = w.server.socketApi)
    (hpending : ∀ userId peerId sessionId begun,
      .connecting userId peerId sessionId begun ∈ w'.pending →
        .connecting userId peerId sessionId begun ∈ w.pending) : Sockets socketApi w' :=
  ⟨hsame ▸ h.same, fun userId peerId sessionId begun hmem =>
    h.needed userId peerId sessionId begun (hpending _ _ _ _ hmem)⟩

theorem endConnect_sockets (w : World) (userId peerId sessionId : String) (begun : ℕ)
    (answer : ClientAnswer) :
    (w.endConnect userId peerId sessionId begun answer).server.socketApi = w.server.socketApi ∧
      ∀ t ∈ (w.endConnect userId peerId sessionId begun answer).pending, t ∈ w.pending := by
  rw [World.endConnect, Server.answerConnect]
  cases Server.checkAnswer peerId (.ok answer) with
  | error e => exact ⟨rfl, fun t ht => ht⟩
  | ok u =>
    have hsame := w.server.finishConnect_socketApi userId peerId sessionId
    dsimp only
    generalize w.server.finishConnect userId peerId sessionId = finished at hsame ⊢
    obtain ⟨server, e | r⟩ := finished
    · exact ⟨hsame, fun t ht => ht⟩
    · exact ⟨hsame, fun t ht => ht⟩

theorem beginDisconnect_sockets (w : World) (userId : String) :
    (w.beginDisconnect userId).server.socketApi = w.server.socketApi ∧
      ∀ u p sessionId begun, .connecting u p sessionId begun ∈ (w.beginDisconnect userId).pending →
        .connecting u p sessionId begun ∈ w.pending := by
  have hsame := w.server.disconnect_socketApi userId (.status Server.httpOk)
  rw [World.beginDisconnect]
  split
  · exact ⟨rfl, fun _ _ _ _ hmem => hmem⟩
  · split
    · exact ⟨rfl, fun _ _ _ _ hmem => hmem⟩
    · dsimp only
      split
      · exact ⟨hsame, fun _ _ _ _ hmem => hmem⟩
      · exact ⟨hsame, fun _ _ _ _ hmem => (List.mem_append.mp hmem).resolve_right (by simp)⟩

theorem sockets_step (w : World) (a : Action) (h : Sockets socketApi w) :
    Sockets socketApi (step uuid w a) := by
  cases a with
  | addUser apiEndpoint draws =>
    refine h.of_pending ?_ fun _ _ _ _ hmem => hmem
    show (w.server.addUser apiEndpoint draws).1.socketApi = _
    rw [Server.addUser]
    split
    · rfl
    · exact Server.logEvent_socketApi _ _
  | handlePeerConnection u p =>
    rw [step, act, World.beginConnect]
    rcases hrequest : w.server.requestConnect uuid u p with ⟨server, e | sessionId⟩
    · exact ⟨(requestConnect_socketApi hrequest).1.trans h.same, h.needed⟩
    · obtain ⟨hsame, hsome⟩ := requestConnect_socketApi hrequest
      refine ⟨hsame.trans h.same, fun u' p' sid b hmem => ?_⟩
      rcases List.mem_append.mp hmem with hold | -
      · exact h.needed u' p' sid b hold
      · exact h.same ▸ hsome sessionId rfl
  | disconnectPeer u =>
    obtain ⟨hsame, hpending⟩ := beginDisconnect_sockets w u
    exact h.of_pending hsame hpending
  | answer i answer =>
    have hrest : ∀ t ∈ w.pending.eraseIdx i, t ∈ w.pending := fun t => List.mem_of_mem_eraseIdx
    rw [step, act]
    split
    · exact ⟨h.same, h.needed⟩
    · rename_i u p sid b hget
      obtain ⟨hsame, hpending⟩ := endConnect_sockets { w with pending := w.pending.eraseIdx i }
        u p sid b answer
      exact h.of_pending hsame fun _ _ _ _ hmem => hrest _ (hpending _ hmem)
    · exact h.of_pending rfl fun _ _ _ _ hmem => hrest _ hmem

/-! ### One step -/

/-- A call that was accepted links two users who have no other partners, or the records that it
leaves are no serial ones. -/
theorem serial_book_iff {s : Server} (hempty : s.users = ∅) (hserial : Serial uuid s w.server.users)
    (hw : Waiting w userId peerId begun) (hsocket : s.socketApi.isSome = true) {user peer : User}
    (huser : w.server.users.lookup userId = some user)
    (hpeer : w.server.users.lookup peerId = some peer) :
    Serial uuid s ((w.server.users.insert userId
        { user with state := .connected, peer := some peerId }).insert peerId
        { peer with state := .connected, peer := some userId }) ↔
      (partner w.server.users userId = none ∧ partner w.server.users peerId = none) ∨
        partner w.server.users userId = some peerId := by
  obtain ⟨hconsistent, hpaired⟩ := consistent_paired_of_serial hempty hserial
  have hpairing := (paired_iff hconsistent).mp hpaired
  constructor
  · intro hafter
    obtain ⟨hconsistent', hpaired'⟩ := consistent_paired_of_serial hempty hafter
    have hlink := (paired_iff hconsistent').mp hpaired'
    rw [partner_link] at hlink
    by_contra hfree
    exact Pairing.not_isPairing_link hpairing hw.ne hfree hlink
  · rintro (⟨hu, hp⟩ | hlinked)
    · -- both are idle, so `connect` in one go does the same
      have hidle : ∀ {id : String} {stored : User}, w.server.users.lookup id = some stored →
          partner w.server.users id = none → stored.state = .idle := by
        intro id stored hlookup hnone
        rcases hconsistent.state_peer id stored hlookup with ⟨hidle, -⟩ | ⟨hstate, x, hx, -⟩
        · exact hidle
        · exact absurd (hnone.symm.trans (partner_eq_some.mpr ⟨stored, hlookup, hstate, hx⟩))
            (by simp)
      have hcopy : ∀ {id : String} {stored : User}, id = userId ∨ id = peerId →
          w.server.users.lookup id = some stored → ∃ e, stored.apiEndpoint.copy = .ok e := by
        intro id stored hid hlookup
        obtain ⟨stored', hlookup', hcopy⟩ := hw.registered id hid
        exact Option.some_inj.mp (hlookup'.symm.trans hlookup) ▸ hcopy
      refine hserial.step (a := .handlePeerConnection userId peerId (.status Server.httpOk))
        (by simp) fun s' husers hsame => ?_
      rw [← husers] at huser hpeer ⊢
      exact connects_of_idle hw.ne huser (hidle (husers ▸ huser) hu)
        (hcopy (.inl rfl) (husers ▸ huser)) hpeer (hidle (husers ▸ hpeer) hp)
        (hcopy (.inr rfl) (husers ▸ hpeer)) (hsame.trans hsocket)
    · -- both records are as the call leaves them
      obtain ⟨user', huser', hstate, hpeer'⟩ := partner_eq_some.mp hlinked
      obtain rfl := Option.some_inj.mp (huser'.symm.trans huser)
      obtain ⟨peer', hlookup, hstate', hback⟩ := hpaired userId user' peerId huser hstate hpeer'
      obtain rfl := Option.some_inj.mp (hlookup.symm.trans hpeer)
      have hrecords : (w.server.users.insert userId
          { user' with state := .connected, peer := some peerId }).insert peerId
          { peer' with state := .connected, peer := some userId } = w.server.users := by
        refine Finmap.ext_lookup fun id => ?_
        by_cases hp : id = peerId
        · rw [hp, Finmap.lookup_insert, hpeer, ← hstate', ← hback]
        · rw [Finmap.lookup_insert_of_ne _ hp]
          by_cases hu : id = userId
          · rw [hu, Finmap.lookup_insert, huser, ← hstate, ← hpeer']
          · rw [Finmap.lookup_insert_of_ne _ hu]
      rw [hrecords]
      exact hserial

theorem serial_step_iff {s : Server} (hempty : s.users = ∅) (w : World) (a : Action) (h : Inv w)
    (hsockets : Sockets s.socketApi w) (hserial : Serial uuid s w.server.users) :
    Serial uuid s (step uuid w a).server.users ↔ FindsFree w a := by
  cases a with
  | addUser apiEndpoint draws =>
    refine iff_of_true ?_ trivial
    refine hserial.step (a := .addUser apiEndpoint draws) (by simp) fun s' husers _ => ?_
    show (s'.addUser apiEndpoint draws).1.users = (w.server.addUser apiEndpoint draws).1.users
    rw [Server.addUser, Server.addUser, husers]
    cases UserManager.addUser w.server.users apiEndpoint draws with
    | error e => exact husers
    | ok new => rw [Server.logEvent_users, Server.logEvent_users]
  | handlePeerConnection u p =>
    -- the first half writes no record
    refine iff_of_true ?_ trivial
    have husers : (step uuid w (.handlePeerConnection u p)).server.users = w.server.users := by
      rw [step, act, World.beginConnect]
      rcases hrequest : w.server.requestConnect uuid u p with ⟨server, e | sessionId⟩ <;>
        exact (Server.requestConnect_cases hrequest).1
    rw [husers]
    exact hserial
  | disconnectPeer u =>
    refine iff_of_true ?_ trivial
    refine hserial.step (a := .disconnectPeer u (.status Server.httpOk)) (by simp)
      fun s' husers _ => ?_
    show (s'.disconnect u _).1.users = (w.beginDisconnect u).server.users
    rw [disconnect_congr husers u, beginDisconnect_users]
  | answer i answer =>
    rw [step, act]
    cases hget : w.pending[i]? with
    | none =>
      refine iff_of_true hserial ?_
      cases answer <;> simp only [FindsFree, hget]
    | some t =>
      cases t with
      | notifying u p =>
        refine iff_of_true hserial ?_
        cases answer <;> simp only [FindsFree, hget]
      | connecting u p sid begun =>
        have hmem := List.mem_of_getElem? hget
        have hw := h.base.waiting u p sid begun hmem
        dsimp only
        rcases endConnect_cases w sid begun answer hw (w.pending.eraseIdx i) with ⟨hrefused, heq⟩ |
          ⟨rfl, server, user, peer, huser, -, hpeer, -, husers, heq⟩
        · rw [heq]
          refine iff_of_true hserial ?_
          cases answer with
          | unreachable => trivial
          | raises e => trivial
          | status code =>
            simp only [FindsFree, hget]
            exact fun hcode => absurd (by rw [hcode]) hrefused
        · rw [heq]
          simp only [FindsFree, hget, forall_const]
          rw [husers]
          exact serial_book_iff hempty hserial hw (hsockets.needed u p sid begun hmem) huser hpeer

/-- **When an interleaving looks serial.**  In any interleaving of calls, disconnects and answers
on a server that starts empty, the records are at every moment such as handling one request
after the other could have left, if and only if every accepted call finds its two users without
partners, or connected to each other already. -/
theorem interleaving_serial_iff (uuid : UuidSource) (apiEndpoint : Endpoint)
    (socketApi : Option SocketAPI) (actions : List Action) :
    Throughout (step uuid) (fun w => Serial uuid
        { apiEndpoint := apiEndpoint, socketApi := socketApi } w.server.users)
        (fresh apiEndpoint socketApi) actions ↔
      Along (step uuid) FindsFree (fresh apiEndpoint socketApi) actions :=
  throughout_iff_along (I := fun w => Inv w ∧ Sockets socketApi w)
    (fun w a h => ⟨inv_step uuid w a h.1, sockets_step w a h.2⟩)
    (fun w a h hserial => serial_step_iff rfl w a h.1 h.2 hserial)
    ⟨inv_fresh apiEndpoint socketApi, rfl, by simp [fresh]⟩ ⟨[], by simp, rfl⟩ actions

end Booking
