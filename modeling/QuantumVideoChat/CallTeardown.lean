/-
Hanging up one call while another one begins.

The messages of a teardown carry a user id and no session id: `leave_room` stops whatever
the middleware is in, and POST `/disconnect_peer` ends whatever call the server has the user
in.  A reaction to the end of an older call, still on its way, therefore ends a newer one.

* `harmless_iff` — a late reaction is harmless exactly when its user is in no newer call;
* `harmless_along_iff` — the same over every run, and a condition on the order of
  deliveries that suffices;
* `late_reaction_ends_newer_call` — a run that violates it.
-/
import QuantumVideoChat.CallSteps

namespace CallNetwork

open UserManager CallPairing Transition

namespace Message

/-- The user and the end of the call that a `leave_room` or a `/disconnect_peer` reacts to. -/
def reaction : Message → Option (String × CallEnd)
  | .leaveRoom userId ended => ended.map (userId, ·)
  | .disconnectPeer userId ended => ended.map (userId, ·)
  | _ => none

theorem subject_of_reaction {message : Message} {userId : String} {ended : CallEnd}
    (h : message.reaction = some (userId, ended)) : message.subject = .teardown userId ended := by
  cases message with
  | leaveRoom id e => cases e <;> simp_all [reaction, subject]
  | disconnectPeer id e => cases e <;> simp_all [reaction, subject]
  | _ => simp [reaction] at h

end Message

/-! ### What must not happen -/

/-- The calls of `userId` with somebody else that were established after the end of a call. -/
def World.newerCalls (w : World) (userId : String) (ended : CallEnd) : List Call :=
  (w.calls.drop ended.stamp).filter fun call =>
    call.involves userId ∧ call.other userId ≠ ended.peerId

/-- The middleware of `userId` has the session's socket or a media thread of the call. -/
def World.HasMedia (w : World) (userId : String) (call : Call) : Prop :=
  (w.middleware userId).serverClient.map Prod.snd = some call.sessionId ∨
    (w.middleware userId).videoThread = some call.sessionId ∨
    (w.middleware userId).audioThread = some call.sessionId

instance (w : World) (userId : String) (call : Call) : Decidable (w.HasMedia userId call) :=
  inferInstanceAs (Decidable (_ ∨ _))

/-- `userId` keeps what it has of the call: its record at the server, the session socket and
the media threads. -/
structure Keeps (call : Call) (w w' : World) (userId : String) : Prop where
  pairing : w.callOf userId = some call →
    w'.server.users.lookup userId = w.server.users.lookup userId
  socket : (w.middleware userId).serverClient.map Prod.snd = some call.sessionId →
    (w'.middleware userId).serverClient = (w.middleware userId).serverClient
  video : (w.middleware userId).videoThread = some call.sessionId →
    (w'.middleware userId).videoThread = (w.middleware userId).videoThread
  audio : (w.middleware userId).audioThread = some call.sessionId →
    (w'.middleware userId).audioThread = (w.middleware userId).audioThread

instance (call : Call) (w w' : World) (userId : String) : Decidable (Keeps call w w' userId) :=
  decidable_of_iff (_ ∧ _ ∧ _ ∧ _)
    ⟨fun h => ⟨h.1, h.2.1, h.2.2.1, h.2.2.2⟩, fun h => ⟨h.pairing, h.socket, h.video, h.audio⟩⟩

/-- A reaction that arrives leaves both sides of every newer call alone. -/
def Harmless (uuid : UuidSource) (w : World) : Action → Prop
  | .deliver message env => message ∈ w.net → ∀ reaction ∈ message.reaction,
      ∀ call ∈ w.newerCalls reaction.1 reaction.2,
        Keeps call w (step uuid w (.deliver message env)) call.userId ∧
        Keeps call w (step uuid w (.deliver message env)) call.peerId
  | _ => True

instance (uuid : UuidSource) (w : World) : ∀ a, Decidable (Harmless uuid w a)
  | .deliver message _ => inferInstanceAs (Decidable (message ∈ w.net → _))
  | .createUser _ _ => .isTrue trivial
  | .joinRoom _ _ => .isTrue trivial
  | .leaveSession _ => .isTrue trivial
  | .lose _ => .isTrue trivial

/-- The user of a reaction is in no newer call: a `leave_room` finds neither socket nor media
threads of one, a `/disconnect_peer` does not find the user in one at the server. -/
def InNoNewerCall (w : World) : Message → Prop
  | .leaveRoom userId (some ended) =>
    ∀ call ∈ w.newerCalls userId ended, ¬ w.HasMedia userId call
  | .disconnectPeer userId (some ended) =>
    ∀ call ∈ w.newerCalls userId ended, w.callOf userId ≠ some call
  | _ => True

/-- When a reaction arrives, its user is in no newer call. -/
def NoNewerCall (w : World) : Action → Prop
  | .deliver message _ => message ∈ w.net → InNoNewerCall w message
  | _ => True

/-- A call is established only when no message of a teardown of either user is in flight. -/
def Patient (w : World) : Action → Prop
  | .deliver (.peerAnswer userId peerId _ (.status code)) _ => code = Server.httpOk →
      ∀ message ∈ w.net, ∀ id ended, message.subject = .teardown id ended →
        id ≠ userId ∧ id ≠ peerId
  | _ => True

/-! ### One reaction -/

theorem mem_newerCalls {w : World} {userId : String} {ended : CallEnd} {call : Call} :
    call ∈ w.newerCalls userId ended ↔
      call ∈ w.calls.drop ended.stamp ∧ call.involves userId ∧
        call.other userId ≠ ended.peerId := by
  rw [World.newerCalls, List.mem_filter, decide_eq_true_iff]

/-- A `leave_room` spares a call of the user exactly when the middleware has nothing of it. -/
theorem leaveRoom_keeps_iff (w : World) (net : List Message) {userId : String}
    (reaction : Option CallEnd) {call : Call} (hcall : call.involves userId) :
    (Keeps call w (World.leaveRoom { w with net := net } userId reaction) call.userId ∧
      Keeps call w (World.leaveRoom { w with net := net } userId reaction) call.peerId) ↔
      ¬ w.HasMedia userId call := by
  have hmw := leaveRoom_middleware { w with net := net } userId reaction
  have husers := (sameCalls_leaveRoom { w with net := net } userId reaction).users
  generalize World.leaveRoom { w with net := net } userId reaction = w' at hmw husers
  constructor
  · rintro ⟨huser, hpeer⟩ hmedia
    have hkeeps : Keeps call w w' userId := by
      rcases hcall with rfl | rfl
      · exact huser
      · exact hpeer
    -- the middleware has nothing left
    have hempty : w'.middleware userId = {} := by rw [hmw, Function.update_self]
    rcases hmedia with hsocket | hvideo | haudio
    · have hkept := hkeeps.socket hsocket
      rw [hempty] at hkept
      rw [← hkept] at hsocket
      exact absurd hsocket (by simp)
    · have hkept := hkeeps.video hvideo
      rw [hempty, hvideo] at hkept
      exact absurd hkept (by simp)
    · have hkept := hkeeps.audio haudio
      rw [hempty, haudio] at hkept
      exact absurd hkept (by simp)
  · intro hmedia
    have hkeeps : ∀ x, Keeps call w w' x := by
      intro x
      by_cases hx : x = userId
      · subst hx
        exact ⟨fun _ => by rw [husers], fun hsocket => absurd (.inl hsocket) hmedia,
          fun hvideo => absurd (.inr (.inl hvideo)) hmedia,
          fun haudio => absurd (.inr (.inr haudio)) hmedia⟩
      · have hsame : w'.middleware x = w.middleware x := by rw [hmw, Function.update_of_ne hx]
        exact ⟨fun _ => by rw [husers], fun _ => by rw [hsame], fun _ => by rw [hsame],
          fun _ => by rw [hsame]⟩
    exact ⟨hkeeps _, hkeeps _⟩

/-- A `/disconnect_peer` spares a call of the user exactly when the server does not have the
user in it. -/
theorem disconnect_keeps_iff {w : World} (h : Tracked w) (net : List Message) {userId : String}
    {call : Call} (hcall : call.involves userId) :
    (Keeps call w (World.disconnect { w with net := net } userId) call.userId ∧
      Keeps call w (World.disconnect { w with net := net } userId) call.peerId) ↔
      w.callOf userId ≠ some call := by
  rcases disconnect_cases { w with net := net } userId with ⟨hw, hnone⟩ |
    ⟨user, peerId, server, told, -, hlookup, hpeer, husers, hw⟩
  · rw [hw]
    have hkeeps : ∀ x, Keeps call w { w with net := net } x :=
      fun x => ⟨fun _ => rfl, fun _ => rfl, fun _ => rfl, fun _ => rfl⟩
    refine ⟨fun _ hcallOf => ?_, fun _ => ⟨hkeeps _, hkeeps _⟩⟩
    -- a user that the server has in a call can be disconnected
    have hsingle := partner_eq_none_of_copy h.consistent hnone
    rw [h.partner_eq, hcallOf] at hsingle
    exact absurd hsingle (by simp)
  · rw [hw]
    have hpartner : partner w.server.users userId = some peerId := by
      rcases h.consistent.state_peer userId user hlookup with ⟨-, hnone⟩ | ⟨hstate, -⟩
      · exact absurd (hnone.symm.trans hpeer) (by simp)
      · exact partner_eq_some.mpr ⟨user, hlookup, hstate, hpeer⟩
    constructor
    · rintro ⟨hkeepu, hkeepp⟩ hcallOf
      have hkept : server.users.lookup userId = w.server.users.lookup userId := by
        rcases hcall with rfl | rfl
        · exact hkeepu.pairing hcallOf
        · exact hkeepp.pairing hcallOf
      have hreset : partner server.users userId = none := by
        rw [husers, partner_resetUser, partner_resetUser, update_both, if_pos (.inl rfl)]
      rw [partner, hkept, ← partner, hpartner] at hreset
      exact absurd hreset (by simp)
    · intro hcallOf
      have hkeeps : ∀ x, call.involves x → w.callOf x = some call →
          server.users.lookup x = w.server.users.lookup x := by
        intro x hinv hx
        have hxu : x ≠ userId := by
          rintro rfl
          exact hcallOf hx
        -- the peer in the record of `userId` would be in a call with it that is not `call`
        have hxp : x ≠ peerId := by
          rintro rfl
          rw [h.partner_eq, Option.map_eq_some_iff] at hpartner
          obtain ⟨call', hcall', hother⟩ := hpartner
          have hother' := Call.other_eq hinv hcall hxu (h.member x call hx).2
          have heq := h.agree x userId call call' hx hcall' hother' hother
          exact hcallOf (heq ▸ hcall')
        rw [husers, lookup_resetUser, if_neg hxp, lookup_resetUser, if_neg hxu]
      exact ⟨⟨hkeeps _ (.inl rfl), fun _ => rfl, fun _ => rfl, fun _ => rfl⟩,
        ⟨hkeeps _ (.inr rfl), fun _ => rfl, fun _ => rfl, fun _ => rfl⟩⟩

/-- A late reaction is harmless exactly when its user is in no newer call. -/
theorem harmless_iff (uuid : UuidSource) {w : World} (h : Tracked w) (a : Action) :
    Harmless uuid w a ↔ NoNewerCall w a := by
  cases a with
  | deliver message env =>
    refine imp_congr_right fun hmem => ?_
    rw [step, if_pos hmem]
    cases message with
    | leaveRoom userId reaction =>
      cases reaction with
      | none => simp [Message.reaction, InNoNewerCall]
      | some ended =>
        simp only [Message.reaction, Option.map_some, Option.mem_some_iff, forall_eq']
        exact forall₂_congr fun call hcall =>
          leaveRoom_keeps_iff w _ (some ended) (mem_newerCalls.mp hcall).2.1
    | disconnectPeer userId reaction =>
      cases reaction with
      | none => simp [Message.reaction, InNoNewerCall]
      | some ended =>
        simp only [Message.reaction, Option.map_some, Option.mem_some_iff, forall_eq']
        exact forall₂_congr fun call hcall =>
          disconnect_keeps_iff h _ (mem_newerCalls.mp hcall).2.1
    | _ => simp [Message.reaction, InNoNewerCall]
  | _ => exact Iff.rfl

/-! ### Runs -/

/-- No call of a user was established while a teardown of that user is in flight. -/
def Settled (w : World) : Prop :=
  ∀ message ∈ w.net, ∀ userId ended, message.subject = .teardown userId ended →
    ∀ call ∈ w.calls.drop ended.stamp, ¬ call.involves userId

theorem settled_step (uuid : UuidSource) {w : World} {a : Action} (hw : Requested w)
    (h : Settled w) (ha : Patient w a) : Settled (step uuid w a) := by
  intro message hmessage userId ended hsubject call hcall
  have hstep := callStep uuid w a hw
  -- a call that was there before the step
  have hnew : call ∈ (step uuid w a).calls.drop ended.stamp →
      call ∈ w.calls.drop ended.stamp ∨ ∃ env, a = .deliver
        (.peerAnswer call.userId call.peerId call.sessionId (.status Server.httpOk)) env := by
    intro hmem
    cases hstep with
    | keep hsame => exact .inl (hsame.calls ▸ hmem)
    | register _ _ _ _ hcalls => exact .inl (hcalls ▸ hmem)
    | separate _ _ _ _ _ _ hcalls => exact .inl (hcalls ▸ hmem)
    | establish new _ _ haction _ _ _ _ _ _ hcalls =>
      rw [hcalls, List.drop_append, List.mem_append] at hmem
      refine hmem.imp_right fun hmem => ?_
      rwa [List.mem_singleton.mp (List.mem_of_mem_drop hmem)]
  cases posted_step uuid w a hmessage with
  | plain hplain => exact absurd (hsubject.symm.trans hplain) (by simp)
  | requested _ _ _ hrequest => exact absurd (hsubject.symm.trans hrequest) (by simp)
  | carried source hsource hcarried =>
    -- a patient step establishes no call of the user whose teardown is under way
    have hteardown := hcarried.symm.trans hsubject
    rcases hnew hcall with hold | ⟨env, rfl⟩
    · exact h source hsource userId ended hteardown call hold
    · obtain ⟨hu, hp⟩ := ha rfl source hsource userId ended hteardown
      exact not_or.mpr ⟨hu, hp⟩
  | hungUp id peerId reaction env haction hteardown =>
    -- the stamp of a new teardown is the number of calls so far
    obtain ⟨rfl, rfl⟩ := Subject.teardown.inj (hsubject.symm.trans hteardown)
    rcases hnew hcall with hold | ⟨env', hanswer⟩
    · rw [List.drop_length] at hold
      exact absurd hold List.not_mem_nil
    · exact absurd (haction.symm.trans hanswer) (by simp)

theorem harmless_of_settled (uuid : UuidSource) {w : World} (h : Settled w) (a : Action) :
    Harmless uuid w a := by
  cases a with
  | deliver message env =>
    rintro hmem ⟨userId, ended⟩ hreaction call hcall
    obtain ⟨hnewer, hinv, -⟩ := mem_newerCalls.mp hcall
    exact absurd hinv
      (h message hmem userId ended (Message.subject_of_reaction hreaction) call hnewer)
  | _ => trivial

/-- The world before anybody has registered. -/
def World.init (apiEndpoint : Endpoint) (socketApi : Option SocketAPI) : World :=
  { server := { apiEndpoint := apiEndpoint, socketApi := socketApi } }

theorem tracked_init (apiEndpoint : Endpoint) (socketApi : Option SocketAPI) :
    Tracked (World.init apiEndpoint socketApi) where
  consistent := consistent_empty
  partner_eq _ := rfl
  member _ _ h := absurd h (by simp [World.init])
  agree _ _ _ _ h := absurd h (by simp [World.init])
  requested _ h := absurd h List.not_mem_nil

/-- **When a reaction to an ended call spares the newer ones.**  Over every run and every
order of deliveries: exactly when each reaction finds its user in no newer call; in
particular when no call is established while a teardown of one of its users is in flight. -/
theorem harmless_along_iff (uuid : UuidSource) (apiEndpoint : Endpoint)
    (socketApi : Option SocketAPI) (actions : List Action) :
    (Along (step uuid) (Harmless uuid) (World.init apiEndpoint socketApi) actions ↔
      Along (step uuid) NoNewerCall (World.init apiEndpoint socketApi) actions) ∧
    (Along (step uuid) Patient (World.init apiEndpoint socketApi) actions →
      Along (step uuid) (Harmless uuid) (World.init apiEndpoint socketApi) actions) := by
  have hinit := tracked_init apiEndpoint socketApi
  have hsettled : Settled (World.init apiEndpoint socketApi) :=
    fun _ h => absurd h List.not_mem_nil
  refine ⟨⟨fun h => ?_, fun h => ?_⟩, fun h => ?_⟩
  · exact h.mono (I := Tracked) (fun w a hw _ => tracked_step uuid w a hw)
      (fun w a hw => (harmless_iff uuid hw a).mp) hinit
  · exact h.mono (I := Tracked) (fun w a hw _ => tracked_step uuid w a hw)
      (fun w a hw => (harmless_iff uuid hw a).mpr) hinit
  · exact h.mono (I := fun w => Requested w ∧ Settled w)
      (fun w a hw ha => ⟨requested_step uuid w a hw.1, settled_step uuid hw.1 hw.2 ha⟩)
      (fun w a hw _ => harmless_of_settled uuid hw.2 a) ⟨hinit.requested, hsettled⟩

/-- Users 10000 and 10001 are in a call, and 10000 hangs up.  While the reaction of the
browser of 10001 is on its way, 10002 calls 10001. -/
def lateReactionRun : List Action :=
  [.createUser [.str "10.0.0.1", .int 5001] (plainDraws 0),
    .createUser [.str "10.0.0.2", .int 5001] (plainDraws 1),
    .createUser [.str "10.0.0.3", .int 5001] (plainDraws 2),
    .joinRoom "10000" "10001",
    .deliver (.connectRequest "10000" "10001") {},
    .deliver (.peerConnection "10000" "10001" "u") {},
    .deliver (.peerAnswer "10000" "10001" "u" (.status 200)) {},
    .leaveSession "10000",
    .deliver (.leaveRoom "10000" none) {},
    .deliver (.disconnectPeer "10000" none) {},
    .deliver (.peerDisconnected "10001" "10000" ⟨1, "10000"⟩) {},
    .deliver (.peerDisconnectedEvent "10001" "10000" ⟨1, "10000"⟩) {},
    .joinRoom "10002" "10001",
    .deliver (.connectRequest "10002" "10001") {},
    .deliver (.peerConnection "10002" "10001" "uu") {},
    .deliver (.peerAnswer "10002" "10001" "uu" (.status 200)) {},
    .deliver (.connectWs "10001" "10002" "uu") { sid := some "socket B" },
    .deliver (.connectResponse "10002" "10001" "uu") {},
    .deliver (.connectWs "10002" "10001" "uu") { sid := some "socket C", roomId := "ROOM1" },
    .deliver (.roomId "10001" "uu") {},
    .deliver (.leaveRoom "10001" (some ⟨1, "10000"⟩)) {},
    .deliver (.disconnectPeer "10001" (some ⟨1, "10000"⟩)) {}]

/-- The reaction first takes the socket and the media threads of the new call away from
10001, and then ends the call at the server. -/
theorem late_reaction_ends_newer_call :
    let w := World.init ⟨some "10.0.0.9", .int 5050, none⟩ (some {})
    let before := (lateReactionRun.take 20).foldl (step plainUuid) w
    let after := lateReactionRun.foldl (step plainUuid) w
    ¬ Along (step plainUuid) (Harmless plainUuid) w lateReactionRun ∧
      before.middleware "10001" = ⟨some ("socket B", "uu"), some "uu", some "uu"⟩ ∧
      after.middleware "10001" = {} ∧
      partner before.server.users "10002" = some "10001" ∧
      partner after.server.users "10002" = none := by
  decide +kernel

end CallNetwork
