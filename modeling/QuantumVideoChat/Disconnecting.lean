/-
What `PeerConnectionManager.disconnect` does to the user, to its peer and to everybody else.

The record of the user is reset, then whatever record carries the peer's id, and then the
peer is notified; of what the notification raises only an `OSError` is caught.

* `contactClient_isOk_iff` — a client is contacted exactly when its record can be handed out;
* `disconnect_users` — the records after a disconnect that got past its first check;
* `disconnect_local_iff` — when a disconnect is total and local, in every reachable state.
-/
import QuantumVideoChat.FailedConnect
import QuantumVideoChat.CallPairing

/-- No other exception than those of `except (ConnectionError, OSError)`. -/
def ClientAnswer.Caught (answer : ClientAnswer) : Prop := ∀ e, answer ≠ .raises e

namespace Server

open Transition CallPairing

variable {s : Server} {userId : String} {user : User}

/-- The record is there and can be handed out: its endpoint has a port or a route. -/
def Dialable (s : Server) (userId : String) : Prop :=
  ∃ user, s.users.lookup userId = some user ∧ ∃ e, user.apiEndpoint.copy = .ok e

/-- A client is contacted exactly when its record can be handed out. -/
theorem contactClient_isOk_iff (s : Server) (userId route : String) (answer : ClientAnswer) :
    (∃ a, s.contactClient userId route answer = .ok a) ↔ s.Dialable userId := by
  rw [contactClient]
  cases hget : s.getUser userId with
  | error e =>
    refine iff_of_false (by simp) ?_
    rintro ⟨stored, hlookup, endpoint, hcopy⟩
    have hok : s.getUser userId = .ok ⟨endpoint, stored.state, stored.peer⟩ :=
      UserManager.getUser_eq_ok.mpr ⟨stored, hlookup, hcopy, rfl, rfl⟩
    exact absurd (hget.symm.trans hok) (by simp)
  | ok user =>
    obtain ⟨stored, hlookup, hcopy, -, -⟩ := UserManager.getUser_eq_ok.mp hget
    obtain ⟨endpoint, hcopy'⟩ := Endpoint.copy_of_copy hcopy
    obtain ⟨target, hcall⟩ := Endpoint.call_isOk hcopy' route
    refine iff_of_true ⟨answer, ?_⟩ ⟨stored, hlookup, _, hcopy⟩
    dsimp only
    rw [hcall]

theorem eq_of_contactClient_eq_ok {userId route : String} {answer a : ClientAnswer}
    (h : s.contactClient userId route answer = .ok a) : a = answer := by
  rw [contactClient] at h
  cases hget : s.getUser userId with
  | error e => simp [hget] at h
  | ok user =>
    simp only [hget] at h
    split at h
    · exact absurd h (by simp)
    · exact (Except.ok.inj h).symm

/-- The record without its call. -/
def idleRecord (user : User) : User := { user with state := .idle, peer := none }

/-- The records after a disconnect, seen from the state before. -/
theorem disconnect_users (hlookup : s.users.lookup userId = some user)
    (hcopy : ∃ e, user.apiEndpoint.copy = .ok e) (answer : ClientAnswer) (other : String) :
    (s.disconnect userId answer).1.users.lookup other
      = if user.peer ≠ none ∧ (other = userId ∨ user.peer = some other) then
          (s.users.lookup other).map idleRecord
        else s.users.lookup other := by
  rcases s.disconnect_cases userId answer with ⟨hsame, hnone⟩ |
    ⟨stored, peerId, hstored, hpeer, husers⟩
  · rw [hsame, if_neg (by simp [hnone user hlookup hcopy])]
  · obtain rfl : stored = user := Option.some_inj.mp (hstored.symm.trans hlookup)
    rw [husers, UserManager.lookup_resetUser, UserManager.lookup_resetUser, hpeer]
    by_cases hp : other = peerId
    · -- a second reset of the same record changes nothing
      subst hp
      rw [if_pos rfl]
      by_cases hu : other = userId
      · rw [if_pos hu, if_pos ⟨by simp, .inl hu⟩, Option.map_map]
        rfl
      · rw [if_neg hu, if_pos ⟨by simp, .inr rfl⟩]
        rfl
    · rw [if_neg hp]
      by_cases hu : other = userId
      · rw [if_pos hu, if_pos ⟨by simp, .inl hu⟩]
        rfl
      · rw [if_neg hu, if_neg]
        rintro ⟨-, h | h⟩
        · exact hu h
        · exact hp (Option.some_inj.mp h).symm

/-- When a disconnect returns normally. -/
theorem disconnect_isOk_iff (hlookup : s.users.lookup userId = some user)
    (answer : ClientAnswer) :
    (s.disconnect userId answer).2 = .ok () ↔
      (∃ e, user.apiEndpoint.copy = .ok e) ∧ ∀ peerId, user.peer = some peerId →
        s.Dialable peerId ∧ answer.Caught := by
  rw [disconnect]
  cases hfind : s.findUser userId with
  | error e =>
    refine iff_of_false (by simp) ?_
    rintro ⟨hcopy, -⟩
    obtain ⟨found, hok, -⟩ := findUser_of_copy hlookup hcopy
    exact absurd (hfind.symm.trans hok) (by simp)
  | ok found =>
    obtain ⟨stored, hstored, hcopy, -, hpeer⟩ := findUser_eq_ok.mp hfind
    obtain rfl : stored = user := Option.some_inj.mp (hstored.symm.trans hlookup)
    rw [and_iff_right ⟨_, hcopy⟩, ← hpeer]
    cases hp : found.peer with
    | none => simp [hp]
    | some peerId =>
      simp only [hp, Option.some_inj, forall_eq']
      -- resetting records does not touch their endpoints
      have hdial : (((s.resetUser userId).resetUser peerId).logEvent
          (.peerDisconnected userId peerId)).Dialable peerId ↔ s.Dialable peerId := by
        rw [Dialable, Dialable, logEvent_users, resetUser, resetUser,
          UserManager.lookup_resetUser, if_pos rfl, UserManager.lookup_resetUser]
        cases hrecord : s.users.lookup peerId with
        | none => simp
        | some record => split_ifs <;> simp
      rw [← hdial, ← contactClient_isOk_iff _ peerId "/peer_disconnected" answer]
      cases hcontact : contactClient _ peerId "/peer_disconnected" answer with
      | error e => simp
      | ok a =>
        obtain rfl := eq_of_contactClient_eq_ok hcontact
        cases a <;> simp [ClientAnswer.Caught]

/-- What a disconnect of `userId` is to do: return, leave the user idle, reset the recorded
peer only if it is there and its peer is the user, and touch nobody else. -/
structure DisconnectsLocally (s : Server) (userId : String) (user : User)
    (answer : ClientAnswer) : Prop where
  returns : (s.disconnect userId answer).2 = .ok ()
  idle : (s.disconnect userId answer).1.users.lookup userId = some (idleRecord user)
  peer : ∀ peerId, user.peer = some peerId →
    (s.disconnect userId answer).1.users.lookup peerId
      = (s.users.lookup peerId).map fun peer =>
          if peer.peer = some userId then idleRecord peer else peer
  others : ∀ other, other ≠ userId → user.peer ≠ some other →
    (s.disconnect userId answer).1.users.lookup other = s.users.lookup other

/-- The record of the user can be handed out, and so can that of its peer, who is in no
other call and whose notification raises nothing but an `OSError`. -/
def Separable (s : Server) (userId : String) (user : User) (answer : ClientAnswer) : Prop :=
  (∃ e, user.apiEndpoint.copy = .ok e) ∧ ∀ peerId, user.peer = some peerId →
    answer.Caught ∧ ∃ peer, s.users.lookup peerId = some peer ∧
      (∃ e, peer.apiEndpoint.copy = .ok e) ∧ (peer.peer = none ∨ peer.peer = some userId)

/-- Among consistent records an idle one is the reset of itself. -/
theorem idleRecord_eq_iff (h : Consistent s.users) (hlookup : s.users.lookup userId = some user) :
    idleRecord user = user ↔ user.peer = none := by
  obtain ⟨endpoint, state, peer⟩ := user
  rcases h.state_peer userId _ hlookup with ⟨hstate, hpeer⟩ | ⟨hstate, p, hpeer, -⟩
  · obtain rfl : state = .idle := hstate
    obtain rfl : peer = none := hpeer
    exact iff_of_true rfl rfl
  · obtain rfl : peer = some p := hpeer
    exact iff_of_false (by simp [idleRecord]) (by simp)

theorem disconnectsLocally_iff (h : Consistent s.users)
    (hlookup : s.users.lookup userId = some user) (answer : ClientAnswer) :
    DisconnectsLocally s userId user answer ↔ Separable s userId user answer := by
  constructor
  · intro hlocal
    obtain ⟨hcopy, hdial⟩ := (disconnect_isOk_iff hlookup answer).mp hlocal.returns
    refine ⟨hcopy, fun peerId hpeer => ?_⟩
    obtain ⟨⟨peer, hrecord, hcopy'⟩, hcaught⟩ := hdial peerId hpeer
    refine ⟨hcaught, peer, hrecord, hcopy', ?_⟩
    -- the peer's record is reset in any case
    have hreset := hlocal.peer peerId hpeer
    rw [disconnect_users hlookup hcopy, if_pos ⟨by simp [hpeer], .inr hpeer⟩, hrecord,
      Option.map_some, Option.map_some, Option.some_inj] at hreset
    by_cases hback : peer.peer = some userId
    · exact .inr hback
    · rw [if_neg hback] at hreset
      exact .inl ((idleRecord_eq_iff h hrecord).mp hreset)
  · rintro ⟨hcopy, hpeers⟩
    have husers := fun other => disconnect_users hlookup hcopy answer other
    refine ⟨(disconnect_isOk_iff hlookup answer).mpr ⟨hcopy, fun peerId hpeer => ?_⟩, ?_,
      fun peerId hpeer => ?_, fun other hother hpeer => ?_⟩
    · obtain ⟨hcaught, peer, hrecord, hcopy', -⟩ := hpeers peerId hpeer
      exact ⟨⟨peer, hrecord, hcopy'⟩, hcaught⟩
    · rw [husers, hlookup]
      by_cases hnone : user.peer = none
      · rw [if_neg (by simp [hnone]), (idleRecord_eq_iff h hlookup).mpr hnone]
      · rw [if_pos ⟨hnone, .inl rfl⟩, Option.map_some]
    · obtain ⟨-, peer, hrecord, -, hown⟩ := hpeers peerId hpeer
      rw [husers, if_pos ⟨by simp [hpeer], .inr hpeer⟩, hrecord, Option.map_some, Option.map_some,
        Option.some_inj]
      rcases hown with hnone | hback
      · rw [(idleRecord_eq_iff h hrecord).mpr hnone, ite_self]
      · rw [if_pos hback]
    · rw [husers, if_neg]
      rintro ⟨-, hsame | hsame⟩
      · exact hother hsame
      · exact hpeer hsame

/-- **When a disconnect is total and local.**  In every reachable state, for every user and
whatever comes of the notification, a disconnect returns and touches only its own call if and
only if both records can be handed out, the recorded peer is in no other call, and the
notification raises nothing but an `OSError`. -/
theorem disconnect_local_iff (uuid : UuidSource) (apiEndpoint : Endpoint) (withSocketio : Bool)
    {s : Server} (hreach : Reaches (step uuid) (fresh apiEndpoint withSocketio) s)
    {userId : String} {user : User} (hlookup : s.users.lookup userId = some user)
    (answer : ClientAnswer) :
    DisconnectsLocally s userId user answer ↔ Separable s userId user answer := by
  have hconsistent : Consistent s.users :=
    Reaches.induction (I := fun s => Consistent s.users) hreach consistent_empty
      fun s a h => consistent_step uuid s a h
  exact disconnectsLocally_iff hconsistent hlookup answer

/-- Two users in a call. -/
def calledRun : List Action :=
  [.addUser [.str "10.0.0.1", .int 5001] (plainDraws 0),
    .addUser [.str "10.0.0.2", .int 5001] (plainDraws 1),
    .handlePeerConnection "10000" "10001" (.status 200)]

def called : Server :=
  calledRun.foldl (step plainUuid) (fresh ⟨some "10.0.0.9", .int 5050, none⟩ true)

/-- The record of user 10000 in that call. -/
def caller : User := ⟨⟨some "10.0.0.1", .int 5001, none⟩, .connected, some "10001"⟩

theorem disconnect_local_iff_called : DisconnectsLocally called "10000" caller .unreachable :=
  (disconnect_local_iff plainUuid _ true ⟨calledRun, rfl⟩ (by decide +kernel) .unreachable).mpr
    ⟨⟨_, rfl⟩, fun peerId hpeer => by
      obtain rfl := Option.some_inj.mp hpeer
      exact ⟨fun e => by simp, ⟨⟨some "10.0.0.2", .int 5001, none⟩, .connected, some "10000"⟩,
        by decide +kernel, ⟨_, rfl⟩, .inr rfl⟩⟩

/-- The peer has been removed before the disconnect, and the notification raises. -/
theorem removed_peer_disconnect_raises :
    ¬ ∀ (uuid : UuidSource) (apiEndpoint : Endpoint) (withSocketio : Bool) (s : Server),
      Reaches (step uuid) (fresh apiEndpoint withSocketio) s →
      ∀ (userId : String) (user : User), s.users.lookup userId = some user →
        ∀ answer : ClientAnswer, DisconnectsLocally s userId user answer := by
  intro hall
  have h := hall plainUuid ⟨some "10.0.0.9", .int 5050, none⟩ true
    ((calledRun ++ [Action.removeUser "10001"]).foldl (step plainUuid)
      (fresh ⟨some "10.0.0.9", .int 5050, none⟩ true)) ⟨_, rfl⟩ "10000" caller
    (by decide +kernel) (.status 200)
  exact absurd h.returns (by decide +kernel)

end Server
