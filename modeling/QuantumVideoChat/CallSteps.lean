/-
What one step does to the calls, and where the messages in flight come from.

* `callStep` — a step leaves the users and the calls alone, registers a user, establishes a
  call, or separates a user from its recorded peer;
* `posted_step` — a message in flight follows from one that was, or starts a call or a
  teardown;
* `tracked_step` — the call remembered for a user is the one the server's records are about.
-/
import QuantumVideoChat.CallNetwork

namespace CallNetwork

open UserManager CallPairing

/-- What a message is about: it asks for a call, it belongs to the teardown of a call of
`userId`, or neither. -/
inductive Subject
  | request (userId peerId : String)
  | teardown (userId : String) (ended : CallEnd)
  | other

def Message.subject : Message → Subject
  | .peerConnection userId peerId _ => .request userId peerId
  | .peerAnswer userId peerId _ _ => .request userId peerId
  -- a user who leaves of their own accord reacts to nothing
  | .leaveRoom userId (some ended) => .teardown userId ended
  | .disconnectPeer userId (some ended) => .teardown userId ended
  | .peerDisconnected userId _ ended => .teardown userId ended
  | .peerDisconnectedEvent userId _ ended => .teardown userId ended
  | _ => .other

/-! ### What a step can do -/

/-- The effect of a step on the store of users and on the calls. -/
inductive CallStep (w : World) (a : Action) (w' : World) : Prop
  | keep (h : SameCalls w w')
  | register (userId : String) (endpoint : Endpoint) (hnew : userId ∉ w.server.users)
      (husers : w'.server.users = w.server.users.insert userId { apiEndpoint := endpoint })
      (hcalls : w'.calls = w.calls) (hcallOf : w'.callOf = w.callOf)
  | establish (call : Call) (user peer : User)
      (haction : ∃ env, a = .deliver
        (.peerAnswer call.userId call.peerId call.sessionId (.status Server.httpOk)) env)
      (hne : call.userId ≠ call.peerId)
      (huser : w.server.users.lookup call.userId = some user)
      (hucopy : ∃ e, user.apiEndpoint.copy = .ok e)
      (hpeer : w.server.users.lookup call.peerId = some peer)
      (hpcopy : ∃ e, peer.apiEndpoint.copy = .ok e)
      (husers : w'.server.users
        = (w.server.users.insert call.userId
            { user with state := .connected, peer := some call.peerId }).insert call.peerId
            { peer with state := .connected, peer := some call.userId })
      (hcalls : w'.calls = w.calls ++ [call])
      (hcallOf : w'.callOf = Function.update (Function.update w.callOf call.userId (some call))
        call.peerId (some call))
  | separate (userId peerId : String) (user : User)
      (huser : w.server.users.lookup userId = some user) (hpeer : user.peer = some peerId)
      (husers : w'.server.users = resetUser (resetUser w.server.users userId) peerId)
      (hcalls : w'.calls = w.calls)
      (hcallOf : w'.callOf = Function.update (Function.update w.callOf userId none) peerId none)

/-- A user with a record whose endpoint can be copied. -/
def Registered (users : UserStore) (userId : String) : Prop :=
  ∃ user, users.lookup userId = some user ∧ ∃ e, user.apiEndpoint.copy = .ok e

/-- Requests in flight are about two registered users. -/
def Requested (w : World) : Prop :=
  ∀ message ∈ w.net, ∀ userId peerId, message.subject = .request userId peerId →
    userId ≠ peerId ∧ Registered w.server.users userId ∧ Registered w.server.users peerId

theorem callStep_deliver (uuid : UuidSource) (w : World) (net : List Message)
    (message : Message) (env : Circumstances)
    (h : ∀ userId peerId, message.subject = .request userId peerId →
      userId ≠ peerId ∧ Registered w.server.users userId ∧ Registered w.server.users peerId) :
    CallStep w (.deliver message env) (deliver uuid { w with net := net } env message) := by
  cases message with
  | connectRequest userId peerId =>
    rw [deliver]
    rcases requestConnect_cases uuid { w with net := net } userId peerId with
      ⟨server, sessionId, -, husers, hw, -⟩ | ⟨server, husers, hw, -⟩
    · rw [hw]
      exact .keep ⟨husers, rfl, rfl⟩
    · rw [hw]
      exact .keep ⟨husers, rfl, rfl⟩
  | peerConnection userId peerId sessionId =>
    rw [deliver]
    split_ifs <;> exact .keep ⟨rfl, rfl, rfl⟩
  | peerAnswer userId peerId sessionId answer =>
    obtain ⟨hne, ⟨user, huser, hucopy⟩, peer, hpeer, hpcopy⟩ := h userId peerId rfl
    rw [deliver]
    rcases answerConnect_cases { w with net := net } sessionId answer hne huser hpeer with
      hw | ⟨rfl, server, husers, hw⟩
    · rw [hw]
      exact .keep ⟨rfl, rfl, rfl⟩
    · rw [hw]
      exact .establish ⟨sessionId, userId, peerId⟩ user peer ⟨env, rfl⟩ hne huser hucopy hpeer
        hpcopy husers rfl rfl
  | connectResponse userId peerId sessionId => exact .keep ⟨rfl, rfl, rfl⟩
  | connectWs userId peerId sessionId =>
    have hw := (connectToSessionWs_spec { w with net := net } userId peerId sessionId env.sid
      env.roomId).1
    exact .keep ⟨hw.users, hw.calls, hw.callOf⟩
  | roomId userId sessionId =>
    have hw := (serverRoomId_spec { w with net := net } userId sessionId).1
    exact .keep ⟨hw.users, hw.calls, hw.callOf⟩
  | leaveRoom userId reaction =>
    have hw := sameCalls_leaveRoom { w with net := net } userId reaction
    exact .keep ⟨hw.users, hw.calls, hw.callOf⟩
  | disconnectPeer userId reaction =>
    rw [deliver]
    rcases disconnect_cases { w with net := net } userId with ⟨hw, -⟩ |
      ⟨user, peerId, server, told, -, huser, hpeer, husers, hw⟩
    · rw [hw]
      exact .keep ⟨rfl, rfl, rfl⟩
    · rw [hw]
      exact .separate userId peerId user huser hpeer husers rfl rfl
  | peerDisconnected userId peerId ended =>
    have hw := sameCalls_restPeerDisconnected { w with net := net } userId peerId ended
    exact .keep ⟨hw.users, hw.calls, hw.callOf⟩
  | peerDisconnectedEvent userId peerId ended => exact .keep ⟨rfl, rfl, rfl⟩

theorem callStep (uuid : UuidSource) (w : World) (a : Action) (h : Requested w) :
    CallStep w a (step uuid w a) := by
  have hsame : SameCalls w w := ⟨rfl, rfl, rfl⟩
  cases a with
  | createUser apiEndpoint draws =>
    rw [step, Server.addUser]
    cases hadd : UserManager.addUser w.server.users apiEndpoint draws with
    | error e => exact .keep hsame
    | ok new =>
      obtain ⟨id, users⟩ := new
      obtain ⟨-, hnew, endpoint, -, rfl⟩ := addUser_eq_ok.mp hadd
      exact .register id endpoint hnew rfl rfl rfl
  | joinRoom userId peerId =>
    rw [step]
    split_ifs
    · exact .keep hsame
    · exact .keep ⟨rfl, rfl, rfl⟩
  | leaveSession userId => exact .keep ⟨rfl, rfl, rfl⟩
  | lose message => exact .keep ⟨rfl, rfl, rfl⟩
  | deliver message env =>
    rw [step]
    split_ifs with hmem
    · exact callStep_deliver uuid w _ message env (h message hmem)
    · exact .keep hsame

/-- Where a message comes from that is in flight after a step: it was there, it follows from
one that was, it asks for a call that the server allows, or it tells that a call is over. -/
inductive Posted (w : World) (a : Action) (message : Message) : Prop
  | plain (h : message.subject = .other)
  | carried (source : Message) (hsource : source ∈ w.net)
      (h : message.subject = source.subject)
  | requested (userId peerId : String) (hcheck : w.server.checkConnect userId peerId = .ok ())
      (h : message.subject = .request userId peerId)
  | hungUp (userId peerId : String) (reaction : Option CallEnd) (env : Circumstances)
      (haction : a = .deliver (.disconnectPeer userId reaction) env)
      (h : message.subject = .teardown peerId ⟨w.calls.length, userId⟩)

theorem posted_deliver (uuid : UuidSource) (w : World) {net : List Message}
    (hnet : ∀ m ∈ net, m ∈ w.net) {source : Message} (hsource : source ∈ w.net)
    (env : Circumstances) {message : Message}
    (hmessage : message ∈ (deliver uuid { w with net := net } env source).net) :
    Posted w (.deliver source env) message := by
  have hold : ∀ m ∈ net, Posted w (.deliver source env) m :=
    fun m hm => .carried m (hnet m hm) rfl
  -- a handler keeps the messages in flight and posts some of its own
  have hnew : ∀ told : List Message, (∀ m ∈ told, Posted w (.deliver source env) m) →
      message ∈ net ++ told → Posted w (.deliver source env) message :=
    fun told htold hm => (List.mem_append.mp hm).elim (hold message) (htold message)
  have hone : ∀ m, Posted w (.deliver source env) m → message ∈ net ++ [m] →
      Posted w (.deliver source env) message :=
    fun m hm => hnew [m] fun m' hm' => List.mem_singleton.mp hm' ▸ hm
  cases source with
  | connectRequest userId peerId =>
    rw [deliver] at hmessage
    rcases requestConnect_cases uuid { w with net := net } userId peerId with
      ⟨server, sessionId, hcheck, -, hw, -⟩ | ⟨server, -, hw, -⟩
    · rw [hw] at hmessage
      exact hone _ (.requested userId peerId hcheck rfl) hmessage
    · rw [hw] at hmessage
      exact hold message hmessage
  | peerConnection userId peerId sessionId =>
    rw [deliver] at hmessage
    have hanswer : Posted w (.deliver (.peerConnection userId peerId sessionId) env)
        (.peerAnswer userId peerId sessionId env.answer) := .carried _ hsource rfl
    split_ifs at hmessage
    · rcases List.mem_append.mp hmessage with hm | hm
      · exact hone _ (.plain rfl) hm
      · exact List.mem_singleton.mp hm ▸ hanswer
    · exact hone _ hanswer hmessage
  | peerAnswer userId peerId sessionId answer =>
    obtain ⟨told, htold, hw⟩ := answerConnect_net { w with net := net } userId peerId sessionId
      answer
    rw [deliver, hw] at hmessage
    refine hnew told (fun m hm => .plain ?_) hmessage
    rw [List.mem_singleton.mp (htold hm)]
    rfl
  | connectResponse userId peerId sessionId => exact hone _ (.plain rfl) hmessage
  | connectWs userId peerId sessionId =>
    obtain ⟨told, htold, hw⟩ := (connectToSessionWs_spec { w with net := net } userId peerId
      sessionId env.sid env.roomId).2
    rw [deliver, hw] at hmessage
    refine hnew told (fun m hm => .plain ?_) hmessage
    rcases List.mem_cons.mp (htold hm) with rfl | hm
    · rfl
    · rw [List.mem_singleton.mp hm]
      rfl
  | roomId userId sessionId =>
    rw [deliver, (serverRoomId_spec { w with net := net } userId sessionId).2] at hmessage
    exact hold message hmessage
  | leaveRoom userId reaction =>
    have hw : (deliver uuid { w with net := net } env (.leaveRoom userId reaction)).net
        = net ++ [.disconnectPeer userId reaction] :=
      congrArg (· ++ _) (closeSocket_net _ userId)
    rw [hw] at hmessage
    refine hone _ (.carried _ hsource ?_) hmessage
    cases reaction <;> rfl
  | disconnectPeer userId reaction =>
    rw [deliver] at hmessage
    rcases disconnect_cases { w with net := net } userId with ⟨hw, -⟩ |
      ⟨user, peerId, server, told, htold, -, -, -, hw⟩
    · rw [hw] at hmessage
      exact hold message hmessage
    · rw [hw] at hmessage
      refine hnew told (fun m hm => ?_) hmessage
      rw [List.mem_singleton.mp (htold hm)]
      exact .hungUp userId peerId reaction env rfl rfl
  | peerDisconnected userId peerId ended =>
    have hw : (deliver uuid { w with net := net } env
        (.peerDisconnected userId peerId ended)).net
        = net ++ [.peerDisconnectedEvent userId peerId ended] := closeSocket_net _ userId
    rw [hw] at hmessage
    exact hone (.peerDisconnectedEvent userId peerId ended) (.carried _ hsource rfl) hmessage
  | peerDisconnectedEvent userId peerId ended =>
    exact hone (.leaveRoom userId (some ended)) (.carried _ hsource rfl) hmessage

theorem posted_step (uuid : UuidSource) (w : World) (a : Action) {message : Message}
    (hmessage : message ∈ (step uuid w a).net) : Posted w a message := by
  have hold : ∀ m ∈ w.net, Posted w a m := fun m hm => .carried m hm rfl
  cases a with
  | createUser apiEndpoint draws => exact hold message hmessage
  | joinRoom userId peerId =>
    rw [step] at hmessage
    split_ifs at hmessage
    · exact hold message hmessage
    · rcases List.mem_append.mp hmessage with hm | hm
      · exact hold message hm
      · rw [List.mem_singleton.mp hm]
        exact .plain rfl
  | leaveSession userId =>
    rcases List.mem_append.mp hmessage with hm | hm
    · exact hold message hm
    · rw [List.mem_singleton.mp hm]
      exact .plain rfl
  | lose source => exact hold message (List.mem_of_mem_erase hmessage)
  | deliver source env =>
    rw [step] at hmessage
    split_ifs at hmessage with hsource
    · exact posted_deliver uuid w (fun m hm => List.mem_of_mem_erase hm) hsource env hmessage
    · exact hold message hmessage

/-! ### The calls follow the pairing -/

theorem Call.other_userId (call : Call) : call.other call.userId = call.peerId := if_pos rfl

theorem Call.other_peerId {call : Call} (hne : call.userId ≠ call.peerId) :
    call.other call.peerId = call.userId := if_neg hne.symm

/-- Of two different users in a call, either is the other's partner. -/
theorem Call.other_eq {call : Call} {x y : String} (hx : call.involves x) (hy : call.involves y)
    (hxy : x ≠ y) (hne : call.userId ≠ call.peerId) : call.other x = y := by
  rcases hx with rfl | rfl <;> rcases hy with rfl | rfl
  · exact absurd rfl hxy
  · exact call.other_userId
  · exact Call.other_peerId hne
  · exact absurd rfl hxy

theorem Call.involves_other (call : Call) (x : String) : call.involves (call.other x) := by
  rw [Call.other]
  split_ifs
  · exact .inr rfl
  · exact .inl rfl

theorem update_both {β : Type} (f : String → β) (userId peerId : String) (v : β) (x : String) :
    Function.update (Function.update f userId v) peerId v x
      = if x = userId ∨ x = peerId then v else f x := by
  rw [Function.update_apply, Function.update_apply]
  split_ifs <;> tauto

/-- The remembered call of a user is the one that the server's records are about. -/
structure Tracked (w : World) : Prop where
  consistent : Consistent w.server.users
  partner_eq : ∀ x, partner w.server.users x = (w.callOf x).map fun call => call.other x
  member : ∀ x call, w.callOf x = some call → call.involves x ∧ call.userId ≠ call.peerId
  agree : ∀ x y call call', w.callOf x = some call → w.callOf y = some call' →
    call.other x = y → call'.other y = x → call = call'
  requested : Requested w

theorem registered_insert {users : UserStore} {userId id : String} {user : User}
    (hcopy : ∃ e, user.apiEndpoint.copy = .ok e) (h : Registered users id) :
    Registered (users.insert userId user) id := by
  by_cases hid : id = userId
  · rw [hid]
    exact ⟨user, Finmap.lookup_insert _, hcopy⟩
  · obtain ⟨stored, hlookup, hstored⟩ := h
    exact ⟨stored, by rw [Finmap.lookup_insert_of_ne _ hid, hlookup], hstored⟩

theorem registered_resetUser {users : UserStore} {id : String} (userId : String)
    (h : Registered users id) : Registered (resetUser users userId) id := by
  obtain ⟨stored, hlookup, hstored⟩ := h
  rw [Registered, lookup_resetUser, hlookup]
  by_cases hid : id = userId
  · exact ⟨_, if_pos hid, hstored⟩
  · exact ⟨stored, if_neg hid, hstored⟩

/-- Nobody is ever removed. -/
theorem registered_step {w w' : World} {a : Action} (hstep : CallStep w a w') {id : String}
    (h : Registered w.server.users id) : Registered w'.server.users id := by
  cases hstep with
  | keep hsame => rwa [hsame.users]
  | register userId endpoint hnew husers =>
    obtain ⟨stored, hlookup, hstored⟩ := h
    have hid : id ≠ userId := by
      rintro rfl
      exact hnew (Finmap.mem_of_lookup_eq_some hlookup)
    exact ⟨stored, by rw [husers, Finmap.lookup_insert_of_ne _ hid, hlookup], hstored⟩
  | establish call user peer haction hne huser hucopy hpeer hpcopy husers =>
    rw [husers]
    exact registered_insert hpcopy (registered_insert hucopy h)
  | separate userId peerId user huser hpeer husers =>
    rw [husers]
    exact registered_resetUser peerId (registered_resetUser userId h)

theorem requested_step (uuid : UuidSource) (w : World) (a : Action) (h : Requested w) :
    Requested (step uuid w a) := by
  intro message hmessage userId peerId hsubject
  have hstep := callStep uuid w a h
  cases posted_step uuid w a hmessage with
  | plain hplain => exact absurd (hsubject.symm.trans hplain) (by simp)
  | carried source hsource hcarried =>
    obtain ⟨hne, huser, hpeer⟩ := h source hsource userId peerId (hcarried.symm.trans hsubject)
    exact ⟨hne, registered_step hstep huser, registered_step hstep hpeer⟩
  | requested userId' peerId' hcheck hrequest =>
    obtain ⟨rfl, rfl⟩ := Subject.request.inj (hsubject.symm.trans hrequest)
    obtain ⟨hne, ⟨user, huser, -, hucopy⟩, peer, hpeer, -, hpcopy⟩ :=
      Server.checkConnect_eq_ok hcheck
    exact ⟨hne, registered_step hstep ⟨user, huser, hucopy⟩,
      registered_step hstep ⟨peer, hpeer, hpcopy⟩⟩
  | hungUp _ _ _ _ _ hteardown => exact absurd (hsubject.symm.trans hteardown) (by simp)

theorem tracked_step (uuid : UuidSource) (w : World) (a : Action) (h : Tracked w) :
    Tracked (step uuid w a) := by
  have hrequested := requested_step uuid w a h.requested
  cases callStep uuid w a h.requested with
  | keep hsame =>
    refine ⟨?_, ?_, ?_, ?_, hrequested⟩
    · rw [hsame.users]
      exact h.consistent
    · rw [hsame.users, hsame.callOf]
      exact h.partner_eq
    · rw [hsame.callOf]
      exact h.member
    · rw [hsame.callOf]
      exact h.agree
  | register userId endpoint hnew husers hcalls hcallOf =>
    refine ⟨?_, ?_, ?_, ?_, hrequested⟩
    · rw [husers]
      exact consistent_insert h.consistent (.inl ⟨rfl, rfl⟩) fun hstate => absurd hstate (by simp)
    · rw [husers, partner_insert_new hnew, hcallOf]
      exact h.partner_eq
    · rw [hcallOf]
      exact h.member
    · rw [hcallOf]
      exact h.agree
  | establish call user peer haction hne huser hucopy hpeer hpcopy husers hcalls hcallOf =>
    have hcall : ∀ x, (step uuid w a).callOf x
        = if call.involves x then some call else w.callOf x :=
      fun x => hcallOf ▸ update_both w.callOf _ _ _ x
    refine ⟨?_, fun x => ?_, fun x k hx => ?_, fun x y k k' hx hy hxy hyx => ?_, hrequested⟩
    · rw [husers]
      refine consistent_insert (consistent_insert h.consistent ?_ ?_) ?_ ?_
      · exact .inr ⟨rfl, call.peerId, rfl, hne.symm⟩
      · exact fun _ => hucopy
      · exact .inr ⟨rfl, call.userId, rfl, hne⟩
      · exact fun _ => hpcopy
    · rw [husers, partner_insert, partner_insert, if_pos rfl, if_pos rfl, hcall]
      by_cases hxp : x = call.peerId
      · rw [hxp, Function.update_self, if_pos (.inr rfl), Option.map_some,
          Call.other_peerId hne]
      · rw [Function.update_of_ne hxp]
        by_cases hxu : x = call.userId
        · rw [hxu, Function.update_self, if_pos (.inl rfl), Option.map_some, call.other_userId]
        · have hout : ¬ call.involves x := not_or.mpr ⟨hxu, hxp⟩
          rw [Function.update_of_ne hxu, if_neg hout, h.partner_eq]
    · rw [hcall] at hx
      split_ifs at hx with hinv
      · obtain rfl := Option.some_inj.mp hx
        exact ⟨hinv, hne⟩
      · exact h.member x k hx
    · -- two users of the new call have that call, and it has no third user
      rw [hcall] at hx hy
      split_ifs at hx hy with hxin hyin hyin
      · exact Option.some_inj.mp (hx.symm.trans hy)
      · obtain rfl := Option.some_inj.mp hx
        exact absurd (hxy ▸ Call.involves_other _ x) hyin
      · obtain rfl := Option.some_inj.mp hy
        exact absurd (hyx ▸ Call.involves_other _ y) hxin
      · exact h.agree x y k k' hx hy hxy hyx
  | separate userId peerId user huser hpeer husers hcalls hcallOf =>
    have hcall : ∀ x, (step uuid w a).callOf x
        = if x = userId ∨ x = peerId then none else w.callOf x :=
      fun x => hcallOf ▸ update_both w.callOf _ _ _ x
    have hold : ∀ x k, (step uuid w a).callOf x = some k → w.callOf x = some k := by
      intro x k hx
      rw [hcall] at hx
      split_ifs at hx
      exact hx
    refine ⟨?_, fun x => ?_, fun x k hx => h.member x k (hold x k hx),
      fun x y k k' hx hy => h.agree x y k k' (hold x k hx) (hold y k' hy), hrequested⟩
    · rw [husers]
      exact consistent_resetUser (consistent_resetUser h.consistent userId) peerId
    · rw [husers, partner_resetUser, partner_resetUser, update_both, hcall]
      split_ifs
      · rfl
      · exact h.partner_eq x

end CallNetwork
