/-
What becomes of a hang-up that the server does not hear of (`middleware/server_comms.py`,
`server/rest_api.py`, `server/peer_manager.py`).

`leave_room` stops the media, closes the socket of the session and posts `/disconnect_peer`.
What comes of the request is only logged, and nobody posts it again.

* `partner_leaveRoom_iff` — the hang-ups that the server hears of;
* `refused_of_connected` — who is connected can neither join anybody nor be called;
* `unheard_hang_up` — how long a user stays connected after hanging up.
-/
import QuantumVideoChat.CallSurvival
import QuantumVideoChat.JoinRoom

namespace ServerComms

open CallPairing Transition

/-- The server handles the request, whatever becomes of its response. -/
def Delivery.Handled : Delivery → Prop
  | .unreached _ | .rateLimited => False
  | .lost _ | .answered => True

instance : DecidablePred Delivery.Handled
  | .unreached _ | .rateLimited => inferInstanceAs (Decidable False)
  | .lost _ | .answered => inferInstanceAs (Decidable True)

/-- `leave_room` posts its request, and the server handles it. -/
def HangsUp (w : System) (delivery : Delivery) : Prop :=
  w.state.serverHost ≠ "" ∧ w.state.userId ≠ "" ∧ delivery.Handled

/-- The action frees the user at the server. -/
def Releases (userId : String) (w : System) : Action → Prop
  | .leaveRoom delivery answer =>
    HangsUp w delivery ∧ Frees userId w.server (.disconnectPeer w.state.userId answer)
  | .server a => Frees userId w.server a
  | _ => False

/-- Whatever the user joins and whoever calls it, the answer is an error and no record changes. -/
structure Refused (uuid : UuidSource) (userId : String) (w : System) : Prop where
  joins : w.state.userId = userId → ∀ sid code delivery answer attempts, code ≠ "" →
    ToldError (joinRoom uuid w sid (some code) delivery answer attempts).2 ∧
      (joinRoom uuid w sid (some code) delivery answer attempts).1.server.users = w.server.users
  calls : ∀ caller answer,
    (RestAPI.handlePeerConnection uuid w.server caller userId answer).2.status ≠ 200 ∧
      (RestAPI.handlePeerConnection uuid w.server caller userId answer).1.users = w.server.users

variable {uuid : UuidSource} {w : System} {s : Server} {a b userId : String}

/-! ### Joining and calling -/

theorem not_commits_of_connected (ha : partner s.users a = some b) {userId peerId : String}
    (hinvolves : userId = a ∨ peerId = a) (answer : ClientAnswer) :
    ¬ RestAPI.Commits s userId peerId answer := by
  have hidle : ¬ s.IdleUser a := by
    rintro ⟨user, hlookup, hstate, -⟩
    exact absurd ((partner_of_idle hlookup hstate).symm.trans ha) (by simp)
  rintro ⟨-, -, ⟨-, huser, hpeer⟩, -⟩
  rcases hinvolves with rfl | rfl
  · exact hidle huser
  · exact hidle hpeer

/-- A code that is not empty is asked for, or the browser is told why not. -/
theorem joinRequest_eq_error {serverHost code : String} {event : BrowserEvent}
    (hcode : code ≠ "") (h : joinRequest serverHost userId (some code) = .error event) :
    ∃ msg, event = .serverError msg := by
  unfold joinRequest at h
  dsimp only at h
  rw [if_neg hcode] at h
  split_ifs at h
  · exact ⟨_, (Except.error.inj h).symm⟩
  · exact ⟨_, (Except.error.inj h).symm⟩
  · exact ⟨_, (Except.error.inj h).symm⟩

theorem refused_of_connected (uuid : UuidSource) (w : System)
    (ha : partner w.server.users a = some b) : Refused uuid a w where
  joins := by
    rintro rfl sid code delivery answer attempts hcode
    rcases joinRoom_cases uuid w sid (some code) delivery answer attempts with
      ⟨event, hrequest, hjoin⟩ | ⟨peer, server, response, -, hexchange, hends⟩
    · obtain ⟨msg, rfl⟩ := joinRequest_eq_error hcode hrequest
      rw [hjoin]
      exact ⟨toldError_singleton _ _, rfl⟩
    · -- the server turns the request down, so there is no session to connect to
      obtain ⟨husers, msg, hmsg⟩ := users_of_turnedDown
        (fun hcommits => absurd hcommits (not_commits_of_connected ha (.inl rfl) answer)) hexchange
      rcases hends with ⟨msg, -, hjoin⟩ | ⟨hnone, -⟩ | ⟨_, _, hsome, -⟩
      · rw [hjoin]
        exact ⟨toldError_singleton _ _, husers⟩
      · exact absurd (hmsg.symm.trans hnone) (by simp)
      · exact absurd (hmsg.symm.trans hsome) (by simp)
  calls := by
    intro caller answer
    rcases RestAPI.handlePeerConnection_cases uuid w.server caller a answer with
      ⟨hcommits, -⟩ | ⟨-, husers, hstatus⟩
    · exact absurd hcommits (not_commits_of_connected ha (.inr rfl) answer)
    · exact ⟨hstatus, husers⟩

/-! ### One step -/

theorem exchange_cases (route : Server → Server × Response) (s : Server) (delivery : Delivery) :
    delivery.Handled ∧ (exchange route s delivery).1 = (route s).1 ∨
      ¬ delivery.Handled ∧ (exchange route s delivery).1 = s := by
  cases delivery with
  | unreached exc => exact .inr ⟨fun h => h, rfl⟩
  | rateLimited => exact .inr ⟨fun h => h, rfl⟩
  | lost exc => exact .inl ⟨trivial, rfl⟩
  | answered => exact .inl ⟨trivial, rfl⟩

theorem disconnectPeer_server (hne : userId ≠ "") (s : Server) (answer : ClientAnswer) :
    (RestAPI.disconnectPeer s userId answer).1 = (s.disconnect userId answer).1 := by
  rw [RestAPI.disconnectPeer, RestAPI.checkParameter_of_ne hne]
  dsimp only
  rcases s.disconnect userId answer with ⟨s', e | u⟩ <;> rfl

theorem partner_exchange (route : Server → Server × Response) (ha : partner s.users a = some b)
    (hroute : partner (route s).1.users a = some b) (delivery : Delivery) :
    partner (exchange route s delivery).1.users a = some b := by
  rcases exchange_cases route s delivery with ⟨-, hserver⟩ | ⟨-, hserver⟩
  · rwa [hserver]
  · rwa [hserver]

/-- Registering frees nobody. -/
theorem partner_createUser (h : Consistent s.users) (ha : partner s.users a = some b)
    (apiEndpoint : List PyValue) (draws : IdDraws) :
    partner (RestAPI.createUser s apiEndpoint draws).1.users a = some b := by
  have hadd : partner (s.addUser apiEndpoint draws).1.users a = some b :=
    (partner_step_iff plainUuid s (.addUser apiEndpoint draws) h ha).mpr fun hfrees => hfrees
  rw [RestAPI.createUser]
  cases RestAPI.checkParameter "api_endpoint" apiEndpoint.isEmpty with
  | error e => exact ha
  | ok u => rcases hs : s.addUser apiEndpoint draws with ⟨s', e | id⟩ <;> rwa [hs] at hadd

/-- Neither does a call. -/
theorem partner_handlePeerConnection (uuid : UuidSource) (h : Consistent s.users)
    (ha : partner s.users a = some b) (userId peerId : String) (answer : ClientAnswer) :
    partner (RestAPI.handlePeerConnection uuid s userId peerId answer).1.users a = some b := by
  rcases RestAPI.handlePeerConnection_cases uuid s userId peerId answer with
    ⟨-, hserver, -⟩ | ⟨-, husers, -⟩
  · rw [hserver]
    exact (partner_step_iff uuid s (.handlePeerConnection userId peerId answer) h ha).mpr
      fun hfrees => hfrees
  · rwa [husers]

theorem partner_disconnect_self (h : Consistent s.users) (userId : String)
    (answer : ClientAnswer) : partner (s.disconnect userId answer).1.users userId = none := by
  rcases partner_disconnect s h userId answer with ⟨hnone, hsame⟩ | ⟨peerId, -, hunlink⟩
  · rw [hsame, hnone]
  · rw [hunlink, Pairing.unlink_left]

/-- `leave_room` is the server's `disconnect`, or nothing. -/
theorem leaveRoom_cases (uuid : UuidSource) (w : System) (delivery : Delivery)
    (answer : ClientAnswer) :
    ∃ s : Server, s.users = w.server.users ∧
      (HangsUp w delivery ∧ (leaveRoom uuid w delivery answer).server
          = (s.disconnect w.state.userId answer).1 ∨
        ¬ HangsUp w delivery ∧ (leaveRoom uuid w delivery answer).server = s) := by
  refine ⟨(closeClient uuid w).server, (closeClient_sameUsers uuid w).users, ?_⟩
  have hstate : (closeClient uuid w).state.serverHost = w.state.serverHost ∧
      (closeClient uuid w).state.userId = w.state.userId := by
    rw [closeClient]
    cases w.state.serverClient <;> exact ⟨rfl, rfl⟩
  rw [leaveRoom, hstate.1, hstate.2]
  split
  · rename_i hnone
    exact .inr ⟨fun h => hnone.elim h.1 h.2.1, rfl⟩
  · rename_i hsome
    obtain ⟨hhost, huser⟩ := not_or.mp hsome
    rcases exchange_cases (fun s => RestAPI.disconnectPeer s w.state.userId answer)
      (closeClient uuid w).server delivery with ⟨hhandled, hserver⟩ | ⟨hunheard, hserver⟩
    · refine .inl ⟨⟨hhost, huser, hhandled⟩, ?_⟩
      rw [hserver, disconnectPeer_server huser]
    · exact .inr ⟨fun h => hunheard h.2.2, hserver⟩

theorem partner_leaveRoom_iff (uuid : UuidSource) (h : Consistent w.server.users)
    (ha : partner w.server.users a = some b) (delivery : Delivery) (answer : ClientAnswer) :
    partner (leaveRoom uuid w delivery answer).server.users a = some b ↔
      ¬ Releases a w (.leaveRoom delivery answer) := by
  obtain ⟨s, hs, ⟨hup, hserver⟩ | ⟨hunheard, hserver⟩⟩ := leaveRoom_cases uuid w delivery answer
  · rw [hserver, partner_disconnect_iff (hs ▸ h) (hs ▸ ha), hs, Releases, Frees,
      and_iff_right hup]
  · rw [hserver, hs]
    exact iff_of_true ha fun hreleases => hunheard hreleases.1

/-- The user stays connected as long as nothing frees it. -/
theorem partner_systemStep_iff (uuid : UuidSource) (w : System) (action : Action)
    (h : Consistent w.server.users) (ha : partner w.server.users a = some b) :
    partner (step uuid w action).server.users a = some b ↔ ¬ Releases a w action := by
  cases action with
  | configureServer sid host port reply =>
    refine iff_of_true ?_ fun hreleases => hreleases
    have hserver : (configureServer w sid host port reply).1.server = w.server := by
      unfold configureServer
      split_ifs
      · rfl
      · cases reply <;> rfl
    rwa [step, hserver]
  | createUser sid draws delivery =>
    refine iff_of_true ?_ fun hreleases => hreleases
    have hkept := partner_exchange (fun s => RestAPI.createUser s
      [.str w.state.localIp, .int w.state.middlewarePort] draws) ha
      (partner_createUser h ha _ draws) delivery
    rw [step, createUser]
    split_ifs
    · exact ha
    · rcases hexchange : exchange (fun s => RestAPI.createUser s
        [.str w.state.localIp, .int w.state.middlewarePort] draws) w.server delivery
        with ⟨server, exc | ⟨status, body⟩⟩
      · rwa [hexchange] at hkept
      · rw [hexchange] at hkept
        dsimp only
        split_ifs
        · exact hkept
        · exact hkept
  | joinRoom sid peerId delivery answer attempts =>
    refine iff_of_true ?_ fun hreleases => hreleases
    rw [step]
    rcases joinRoom_cases uuid w sid peerId delivery answer attempts with ⟨event, -, hjoin⟩ |
      ⟨peer, server, response, -, hexchange, hends⟩
    · rwa [hjoin]
    · have hkept := partner_exchange
        (fun s => RestAPI.handlePeerConnection uuid s w.state.userId peer answer) ha
        (partner_handlePeerConnection uuid h ha w.state.userId peer answer) delivery
      rw [hexchange] at hkept
      rcases hends with ⟨msg, -, hjoin⟩ | ⟨-, hjoin⟩ | ⟨wsEndpoint, sessionId, -, hjoin⟩
      · rwa [hjoin]
      · rwa [hjoin]
      · rwa [hjoin, (connectToSessionWs_spec uuid { w with server := server } wsEndpoint sessionId
          attempts).1.users]
  | leaveRoom delivery answer => exact partner_leaveRoom_iff uuid h ha delivery answer
  | peerConnection wsEndpoint sessionId attempts =>
    refine iff_of_true ?_ fun hreleases => hreleases
    rw [step, restPeerConnection]
    split_ifs
    · exact ha
    · rwa [(connectToSessionWs_spec uuid w wsEndpoint sessionId attempts).1.users]
  | peerDisconnected peerId =>
    refine iff_of_true ?_ fun hreleases => hreleases
    rwa [step, restPeerDisconnected, (closeClient_sameUsers uuid w).users]
  | server action => exact partner_step_iff uuid w.server action h ha

/-! ### Runs -/

/-- **A hang-up that the server does not hear of.**  `leave_room` makes a single of its user
exactly when the server handles its request.  Otherwise the user stays connected, in every run up
to the first action that frees it; and as long as it does, every code it joins with and every
call to it is answered with an error. -/
theorem unheard_hang_up (uuid : UuidSource) (apiEndpoint : Endpoint) (withSocketio : Bool)
    (state : MiddlewareState) (before : List Action) (w : System) (userId peerId : String)
    (hw : w = before.foldl (step uuid) ⟨Server.fresh apiEndpoint withSocketio, state⟩)
    (huser : w.state.userId = userId) (hcall : partner w.server.users userId = some peerId)
    (delivery : Delivery) (answer : ClientAnswer) :
    let w' := leaveRoom uuid w delivery answer
    (partner w'.server.users userId = none ↔ HangsUp w delivery) ∧
    (¬ HangsUp w delivery → ∀ actions,
      (Throughout (step uuid) (fun w => partner w.server.users userId = some peerId) w' actions ↔
        Along (step uuid) (fun w action => ¬ Releases userId w action) w' actions) ∧
      (Along (step uuid) (fun w action => ¬ Releases userId w action) w' actions →
        Throughout (step uuid) (Refused uuid userId) w' actions)) := by
  intro w'
  subst huser
  have h : Consistent w.server.users :=
    (reachable_server uuid apiEndpoint withSocketio state before hw).1
  have hI : ∀ w action, Consistent w.server.users →
      Consistent (step uuid w action).server.users := fun w action h =>
    (step_reaches uuid w action).induction (I := fun s => Consistent s.users) h
      (consistent_step uuid)
  have hleft := partner_leaveRoom_iff uuid h hcall delivery answer
  refine ⟨?_, fun hunheard actions => ?_⟩
  · obtain ⟨s, hs, ⟨hup, hserver⟩ | ⟨hunheard, hserver⟩⟩ := leaveRoom_cases uuid w delivery answer
    · refine iff_of_true ?_ hup
      show partner (leaveRoom uuid w delivery answer).server.users w.state.userId = none
      rw [hserver]
      exact partner_disconnect_self (hs ▸ h) _ _
    · refine iff_of_false (fun hnone => ?_) hunheard
      have hkept := hleft.mpr fun hreleases => hunheard hreleases.1
      exact absurd (hnone.symm.trans hkept) (by simp)
  · have hkept := hleft.mpr fun hreleases => hunheard hreleases.1
    have hiff := throughout_iff_along (I := fun w : System => Consistent w.server.users) hI
      (fun w action h ha => partner_systemStep_iff uuid w action h ha)
      (hI w (.leaveRoom delivery answer) h) hkept actions
    exact ⟨hiff, fun halong => (hiff.mpr halong).mono fun w ha => refused_of_connected uuid w ha⟩

/-- User 10000 has called 10001. -/
def callingRun : List Action :=
  registeredRun ++
    [.joinRoom "browser" (some "10001") .answered (.status 200) fun _ => .reaches "socket" "room"]

def calling : System :=
  callingRun.foldl (step plainUuid) ⟨Server.fresh SessionLifetime.serverEndpoint true, {}⟩

/-- The limiter turns the hang-up of user 10000 down, and a second one finds no server: the
user is connected and gets no further. -/
theorem rateLimited_hang_up :
    let w := leaveRoom plainUuid calling .rateLimited .unreachable
    partner w.server.users "10000" ≠ none ∧
      Throughout (step plainUuid) (Refused plainUuid "10000") w
        [.leaveRoom (.unreached "timed out") .unreachable] := by
  have hcalling := unheard_hang_up plainUuid SessionLifetime.serverEndpoint true {} callingRun
    calling "10000" "10001" rfl (by decide +kernel) (by decide +kernel) .rateLimited .unreachable
  have hunheard : ¬ HangsUp calling .rateLimited := fun hup => hup.2.2
  exact ⟨fun hnone => hunheard (hcalling.1.mp hnone),
    (hcalling.2 hunheard _).2 ⟨fun hreleases => hreleases.1.2.2, trivial⟩⟩

end ServerComms
