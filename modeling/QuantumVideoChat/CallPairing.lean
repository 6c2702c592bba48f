/-
Calls as pairs of users.

`partner` abstracts the user store to the map from a connected user to its peer.  Every
server operation acts on that map as one of the operations of `Pairing`, with one exception.

* `step_partner` — a step leaves the map alone, links two singles, unlinks a pair, or drops
  one member of a pair, and the last only through `remove_user`;
* `paired_throughout_iff` — the connected users are paired in every state of a run exactly
  when no step of the run removes a connected user through `remove_user`;
* `removed_peer_breaks_pairing` — a run that does.
-/
import QuantumVideoChat.Server
import QuantumVideoChat.Pairing

namespace CallPairing

open UserManager Pairing Transition

/-- The peer of a connected user. -/
def partner (users : UserStore) (userId : String) : Option String :=
  (users.lookup userId).bind fun user => if user.state = .connected then user.peer else none

/-- Every connected user's peer is there, connected, and has that user as its peer. -/
def Paired (users : UserStore) : Prop :=
  ∀ userId user peerId, users.lookup userId = some user → user.state = .connected →
    user.peer = some peerId →
      ∃ peer, users.lookup peerId = some peer ∧ peer.state = .connected ∧
        peer.peer = some userId

/-- A record is idle without a peer, or connected to somebody else; a connected user's
endpoint can be copied, because `connect` did so. -/
structure Consistent (users : UserStore) : Prop where
  state_peer : ∀ userId user, users.lookup userId = some user →
    (user.state = .idle ∧ user.peer = none) ∨
      (user.state = .connected ∧ ∃ peerId, user.peer = some peerId ∧ peerId ≠ userId)
  copy : ∀ userId user, users.lookup userId = some user → user.state = .connected →
    ∃ e, user.apiEndpoint.copy = .ok e

variable {users : UserStore} {userId peerId : String}

/-! ### The abstraction -/

theorem partner_eq_some :
    partner users userId = some peerId ↔
      ∃ user, users.lookup userId = some user ∧ user.state = .connected ∧
        user.peer = some peerId := by
  rw [partner, Option.bind_eq_some_iff]
  constructor
  · rintro ⟨user, hlookup, hpeer⟩
    split_ifs at hpeer with hstate
    exact ⟨user, hlookup, hstate, hpeer⟩
  · rintro ⟨user, hlookup, hstate, hpeer⟩
    exact ⟨user, hlookup, by rw [if_pos hstate, hpeer]⟩

theorem partner_of_idle {user : User} (h : users.lookup userId = some user)
    (hstate : user.state = .idle) : partner users userId = none := by
  rw [partner, h, Option.bind_some, if_neg (by rw [hstate]; decide)]

theorem partner_insert (users : UserStore) (userId : String) (user : User) :
    partner (users.insert userId user)
      = Function.update (partner users) userId
          (if user.state = .connected then user.peer else none) := by
  funext id
  by_cases hid : id = userId
  · subst hid
    rw [Function.update_self, partner, Finmap.lookup_insert, Option.bind_some]
  · rw [Function.update_of_ne hid, partner, partner, Finmap.lookup_insert_of_ne _ hid]

/-- A new user is single, as the missing one was. -/
theorem partner_insert_new (hnew : userId ∉ users) (endpoint : Endpoint) :
    partner (users.insert userId { apiEndpoint := endpoint }) = partner users := by
  have hnone : partner users userId = none := by
    rw [partner, Finmap.lookup_eq_none.mpr hnew, Option.bind_none]
  rw [partner_insert, if_neg (by simp), ← hnone, Function.update_eq_self]

/-- Connecting two users to each other makes them partners. -/
theorem partner_link (users : UserStore) (userId peerId : String) (user peer : User) :
    partner ((users.insert userId { user with state := .connected, peer := some peerId }).insert
        peerId { peer with state := .connected, peer := some userId })
      = link (partner users) userId peerId := by
  rw [partner_insert, partner_insert, if_pos rfl, if_pos rfl, link]

theorem partner_erase (users : UserStore) (userId : String) :
    partner (users.erase userId) = Function.update (partner users) userId none := by
  funext id
  by_cases hid : id = userId
  · subst hid
    rw [Function.update_self, partner, Finmap.lookup_erase, Option.bind_none]
  · rw [Function.update_of_ne hid, partner, partner, Finmap.lookup_erase_ne hid]

theorem partner_resetUser (users : UserStore) (userId : String) :
    partner (resetUser users userId) = Function.update (partner users) userId none := by
  funext id
  rw [partner, lookup_resetUser]
  by_cases hid : id = userId
  · subst hid
    rw [Function.update_self, if_pos rfl]
    cases users.lookup id <;> rfl
  · rw [Function.update_of_ne hid, if_neg hid, partner]

theorem paired_iff (h : Consistent users) : Paired users ↔ IsPairing (partner users) := by
  constructor
  · intro hpaired
    refine ⟨fun a b hab => ?_, fun a ha => ?_⟩
    · obtain ⟨user, hlookup, hstate, hpeer⟩ := partner_eq_some.mp hab
      exact partner_eq_some.mpr (hpaired a user b hlookup hstate hpeer)
    · obtain ⟨user, hlookup, hstate, hpeer⟩ := partner_eq_some.mp ha
      rcases h.state_peer a user hlookup with ⟨hidle, -⟩ | ⟨-, p, hp, hne⟩
      · exact absurd (hstate.symm.trans hidle) (by decide)
      · exact hne (Option.some_inj.mp (hp.symm.trans hpeer))
  · intro hpairing id user p hlookup hstate hpeer
    exact partner_eq_some.mp
      (hpairing.symm id p (partner_eq_some.mpr ⟨user, hlookup, hstate, hpeer⟩))

theorem mem_connectedUsers_iff (h : Consistent users) (userId : String) :
    userId ∈ connectedUsers users ↔ partner users userId ≠ none := by
  rw [mem_connectedUsers, Option.ne_none_iff_exists']
  constructor
  · rintro ⟨user, hlookup, hstate⟩
    rcases h.state_peer userId user hlookup with ⟨hidle, -⟩ | ⟨-, p, hp, -⟩
    · exact absurd (hstate.symm.trans hidle) (by decide)
    · exact ⟨p, partner_eq_some.mpr ⟨user, hlookup, hstate, hp⟩⟩
  · rintro ⟨p, hp⟩
    obtain ⟨user, hlookup, hstate, -⟩ := partner_eq_some.mp hp
    exact ⟨user, hlookup, hstate⟩

/-! ### Consistency -/

theorem consistent_insert (h : Consistent users) {user : User}
    (hstate : (user.state = .idle ∧ user.peer = none) ∨
      (user.state = .connected ∧ ∃ peerId, user.peer = some peerId ∧ peerId ≠ userId))
    (hcopy : user.state = .connected → ∃ e, user.apiEndpoint.copy = .ok e) :
    Consistent (users.insert userId user) := by
  refine ⟨fun id u hlookup => ?_, fun id u hlookup => ?_⟩
  -- the new record is as assumed, the others are the old ones
  all_goals
    by_cases hid : id = userId
    · subst hid
      rw [Finmap.lookup_insert, Option.some_inj] at hlookup
      subst hlookup
      first
        | exact hstate
        | exact hcopy
    · rw [Finmap.lookup_insert_of_ne _ hid] at hlookup
      first
        | exact h.state_peer id u hlookup
        | exact h.copy id u hlookup

/-- Two different users whose endpoints can be copied may be connected to each other. -/
theorem consistent_link (h : Consistent users) (hne : userId ≠ peerId) {user peer : User}
    (hucopy : ∃ e, user.apiEndpoint.copy = .ok e) (hpcopy : ∃ e, peer.apiEndpoint.copy = .ok e) :
    Consistent ((users.insert userId { user with state := .connected, peer := some peerId }).insert
      peerId { peer with state := .connected, peer := some userId }) := by
  refine consistent_insert (consistent_insert h ?_ ?_) ?_ ?_
  · exact .inr ⟨rfl, peerId, rfl, hne.symm⟩
  · exact fun _ => hucopy
  · exact .inr ⟨rfl, userId, rfl, hne⟩
  · exact fun _ => hpcopy

theorem consistent_erase (h : Consistent users) (userId : String) :
    Consistent (users.erase userId) := by
  have hsub : ∀ id u, (users.erase userId).lookup id = some u → users.lookup id = some u := by
    intro id u hlookup
    by_cases hid : id = userId
    · rw [hid, Finmap.lookup_erase] at hlookup
      exact absurd hlookup (by simp)
    · rwa [Finmap.lookup_erase_ne hid] at hlookup
  exact ⟨fun id u hlookup => h.state_peer id u (hsub id u hlookup),
    fun id u hlookup => h.copy id u (hsub id u hlookup)⟩

theorem consistent_resetUser (h : Consistent users) (userId : String) :
    Consistent (resetUser users userId) := by
  refine ⟨fun id u hlookup => ?_, fun id u hlookup hstate => ?_⟩
  all_goals rw [lookup_resetUser] at hlookup
  all_goals
    by_cases hid : id = userId
    · rw [if_pos hid, Option.map_eq_some_iff] at hlookup
      obtain ⟨stored, -, rfl⟩ := hlookup
      first
        | exact .inl ⟨rfl, rfl⟩
        | exact absurd hstate (by simp)
    · rw [if_neg hid] at hlookup
      first
        | exact h.state_peer id u hlookup
        | exact h.copy id u hlookup hstate

/-! ### One step -/

theorem consistent_step (uuid : UuidSource) (s : Server) (a : Server.Action)
    (h : Consistent s.users) : Consistent (s.step uuid a).users := by
  cases a with
  | addUser apiEndpoint draws =>
    rw [Server.step, Server.addUser]
    cases hadd : UserManager.addUser s.users apiEndpoint draws with
    | error e => exact h
    | ok new =>
      obtain ⟨id, users'⟩ := new
      obtain ⟨-, -, endpoint, -, rfl⟩ := addUser_eq_ok.mp hadd
      exact consistent_insert h (.inl ⟨rfl, rfl⟩) fun hstate => absurd hstate (by simp)
  | handlePeerConnection userId peerId answer =>
    rw [Server.step]
    rcases s.connect_cases uuid userId peerId answer with ⟨hsame, -⟩ |
      ⟨hne, user, peer, api, -, -, hucopy, -, -, hpcopy, -, husers, -⟩
    · rwa [hsame]
    · rw [husers]
      exact consistent_link h hne hucopy hpcopy
  | disconnectPeer userId answer =>
    rw [Server.step]
    rcases s.disconnect_cases userId answer with ⟨hsame, -⟩ | ⟨user, peerId, -, -, husers⟩
    · rwa [hsame]
    · rw [husers]
      exact consistent_resetUser (consistent_resetUser h userId) peerId
  | removeUser userId =>
    rw [Server.step, Server.removeUser_users]
    exact consistent_erase h userId
  | adminRemove userId answer =>
    rw [Server.step, Server.adminRemove, Server.removeUser_users]
    refine consistent_erase ?_ userId
    rcases s.disconnect_cases userId answer with ⟨hsame, -⟩ | ⟨user, peerId, -, -, husers⟩
    · rwa [hsame]
    · rw [husers]
      exact consistent_resetUser (consistent_resetUser h userId) peerId
  | socketConnect sid auth roomId => exact h
  | socketDisconnect sid => exact h

/-- A user without a peer record, or whose record cannot be copied, is single. -/
theorem partner_eq_none_of_copy (h : Consistent users)
    (hnone : ∀ user, users.lookup userId = some user →
      (∃ e, user.apiEndpoint.copy = .ok e) → user.peer = none) :
    partner users userId = none := by
  by_contra hsome
  obtain ⟨p, hp⟩ := Option.ne_none_iff_exists'.mp hsome
  obtain ⟨user, hlookup, hstate, hpeer⟩ := partner_eq_some.mp hp
  have hpeer' := hnone user hlookup (h.copy userId user hlookup hstate)
  exact absurd (hpeer'.symm.trans hpeer) (by simp)

/-- `disconnect` keeps the map, and the user is single, or it unlinks the user's pair. -/
theorem partner_disconnect (s : Server) (h : Consistent s.users) (userId : String)
    (answer : ClientAnswer) :
    (partner s.users userId = none ∧
      partner (s.disconnect userId answer).1.users = partner s.users) ∨
    ∃ peerId, partner s.users userId = some peerId ∧
      partner (s.disconnect userId answer).1.users
        = unlink (partner s.users) userId peerId := by
  rcases s.disconnect_cases userId answer with ⟨hsame, hnone⟩ |
    ⟨user, peerId, hlookup, hpeer, husers⟩
  · exact .inl ⟨partner_eq_none_of_copy h hnone, by rw [hsame]⟩
  · refine .inr ⟨peerId, ?_, ?_⟩
    · rcases h.state_peer userId user hlookup with ⟨-, hnone⟩ | ⟨hstate, -⟩
      · exact absurd (hnone.symm.trans hpeer) (by simp)
      · exact partner_eq_some.mpr ⟨user, hlookup, hstate, hpeer⟩
    · rw [husers, partner_resetUser, partner_resetUser, unlink]

/-- Every operation but `remove_user` deals with whole pairs. -/
theorem step_rearranged (uuid : UuidSource) (s : Server) (a : Server.Action)
    (h : Consistent s.users) (ha : ∀ userId, a ≠ .removeUser userId) :
    Rearranged (partner s.users) (partner (s.step uuid a).users) := by
  cases a with
  | addUser apiEndpoint draws =>
    rw [Server.step, Server.addUser]
    cases hadd : UserManager.addUser s.users apiEndpoint draws with
    | error e => exact .keep
    | ok new =>
      obtain ⟨id, users'⟩ := new
      obtain ⟨-, hnew, endpoint, -, rfl⟩ := addUser_eq_ok.mp hadd
      show Rearranged _ (partner (s.users.insert id { apiEndpoint := endpoint }))
      rw [partner_insert_new hnew endpoint]
      exact .keep
  | handlePeerConnection userId peerId answer =>
    rw [Server.step]
    -- `connect` asks for two idle users, so both are single
    rcases s.connect_cases uuid userId peerId answer with ⟨hsame, -⟩ |
      ⟨hne, user, peer, api, huser, huidle, -, hpeer, hpidle, -, -, husers, -⟩
    · rw [hsame]
      exact .keep
    · rw [husers, partner_link]
      exact .link userId peerId hne (partner_of_idle huser huidle)
        (partner_of_idle hpeer hpidle)
  | disconnectPeer userId answer =>
    rw [Server.step]
    rcases partner_disconnect s h userId answer with ⟨-, hsame⟩ | ⟨peerId, hpeer, hunlink⟩
    · rw [hsame]
      exact .keep
    · rw [hunlink]
      exact .unlink userId peerId hpeer
  | removeUser userId => exact absurd rfl (ha userId)
  | adminRemove userId answer =>
    rw [Server.step, Server.adminRemove, Server.removeUser_users, partner_erase]
    -- after the disconnect the user is single, so the removal drops nobody
    rcases partner_disconnect s h userId answer with ⟨hnone, hsame⟩ | ⟨peerId, hpeer, hunlink⟩
    · rw [hsame, ← hnone, Function.update_eq_self]
      exact .keep
    · rw [hunlink, ← unlink_left (partner s.users) userId peerId, Function.update_eq_self]
      exact .unlink userId peerId hpeer
  | socketConnect sid auth roomId => exact .keep
  | socketDisconnect sid => exact .keep

/-- The step is no `remove_user` of a connected user. -/
def KeepsCalls (s : Server) : Server.Action → Prop
  | .removeUser userId => userId ∉ connectedUsers s.users
  | _ => True

theorem paired_step_iff (uuid : UuidSource) (s : Server) (a : Server.Action)
    (h : Consistent s.users) (hpaired : Paired s.users) :
    Paired (s.step uuid a).users ↔ KeepsCalls s a := by
  rw [paired_iff (consistent_step uuid s a h)]
  rw [paired_iff h] at hpaired
  by_cases hremove : ∃ userId, a = .removeUser userId
  · obtain ⟨userId, rfl⟩ := hremove
    rw [Server.step, Server.removeUser_users, partner_erase, KeepsCalls,
      mem_connectedUsers_iff h, not_not]
    constructor
    · -- removing one member of a pair leaves the other one behind
      intro hdrop
      by_contra hsome
      obtain ⟨peerId, hp⟩ := Option.ne_none_iff_exists'.mp hsome
      exact not_isPairing_update_none hpaired hp hdrop
    · intro hnone
      rwa [← hnone, Function.update_eq_self]
  · have hne : ∀ userId, a ≠ .removeUser userId := fun userId ha => hremove ⟨userId, ha⟩
    have hkeeps : KeepsCalls s a := by
      cases a with
      | removeUser userId => exact absurd rfl (hne userId)
      | _ => trivial
    exact ⟨fun _ => hkeeps,
      fun _ => isPairing_of_rearranged hpaired (step_rearranged uuid s a h hne)⟩

/-! ### Runs -/

/-- The connected users fall into disjoint calls, each of two users who are each other's
peer, and the dashboard counts them. -/
def SplitIntoCalls (users : UserStore) : Prop :=
  ∃ calls : Finset (Sym2 String),
    (∀ userId ∈ connectedUsers users, ∃! call, call ∈ calls ∧ userId ∈ call) ∧
    (∀ call ∈ calls, ∃ a b, call = s(a, b) ∧ a ≠ b ∧ partner users a = some b ∧
      partner users b = some a) ∧
    calls.card = callCount users

theorem splitIntoCalls_of_paired (h : Consistent users) (hpaired : Paired users) :
    SplitIntoCalls users := by
  rw [paired_iff h] at hpaired
  have hs := mem_connectedUsers_iff h
  refine ⟨pairs (partner users) (connectedUsers users),
    fun userId hmem => existsUnique_pair hpaired hs hmem,
    fun call hcall => exists_of_mem_pairs hpaired hs hcall, ?_⟩
  rw [callCount, ← two_mul_card_pairs hpaired hs, Nat.mul_div_cancel_left _ (by decide)]

theorem consistent_empty : Consistent ∅ :=
  ⟨fun _ _ h => absurd h (by simp), fun _ _ h => absurd h (by simp)⟩

/-- **When calls stay paired.**  Over every run from an empty server. -/
theorem paired_throughout_iff (uuid : UuidSource) (apiEndpoint : Endpoint)
    (socketApi : Option SocketAPI) (actions : List Server.Action) :
    (Throughout (Server.step uuid) (fun s => Paired s.users)
        { apiEndpoint := apiEndpoint, socketApi := socketApi } actions ↔
      Along (Server.step uuid) KeepsCalls
        { apiEndpoint := apiEndpoint, socketApi := socketApi } actions) ∧
    (Along (Server.step uuid) KeepsCalls
        { apiEndpoint := apiEndpoint, socketApi := socketApi } actions →
      Throughout (Server.step uuid) (fun s => SplitIntoCalls s.users)
        { apiEndpoint := apiEndpoint, socketApi := socketApi } actions) := by
  have hpaired : Paired (∅ : UserStore) := fun _ _ _ h => absurd h (by simp)
  have hiff := throughout_iff_along (f := Server.step uuid) (I := fun s => Consistent s.users)
    (P := fun s => Paired s.users) (g := KeepsCalls)
    (fun s a h => consistent_step uuid s a h)
    (fun s a h hp => paired_step_iff uuid s a h hp)
    (s := { apiEndpoint := apiEndpoint, socketApi := socketApi }) consistent_empty hpaired actions
  refine ⟨hiff, fun halong => ?_⟩
  have hboth := throughout_of_along (f := Server.step uuid)
    (P := fun s => Consistent s.users ∧ Paired s.users) (g := KeepsCalls)
    (fun s a h hg => ⟨consistent_step uuid s a h.1, (paired_step_iff uuid s a h.1 h.2).mpr hg⟩)
    (s := { apiEndpoint := apiEndpoint, socketApi := socketApi }) ⟨consistent_empty, hpaired⟩
    halong
  exact hboth.mono fun s h => splitIntoCalls_of_paired h.1 h.2

/-- Ids and sessions of the runs below. -/
def plainUuid : UuidSource where
  id n := String.ofList (List.replicate (n + 1) 'u')
  injective m n h := by
    have hlen := congrArg (fun s => s.toList.length) h
    simpa using hlen
  nonempty n h := by
    have hlen := congrArg (fun s => s.toList.length) h
    simp at hlen

/-- Every draw of an id is the same. -/
def plainDraws (n : ℕ) : IdDraws := ⟨fun _ => Fin.ofNat _ n, Fin.ofNat _ n⟩

/-- Users 10000 and 10001 join and call each other; then the first one is removed. -/
def removedPeerRun : List Server.Action :=
  [.addUser [.str "10.0.0.1", .int 5001] (plainDraws 0),
    .addUser [.str "10.0.0.2", .int 5001] (plainDraws 1),
    .handlePeerConnection "10000" "10001" (.status 200),
    .removeUser "10000"]

theorem removed_peer_breaks_pairing :
    ¬ Paired (removedPeerRun.foldl (Server.step plainUuid)
      { apiEndpoint := ⟨some "10.0.0.9", .int 5050, none⟩ }).users := by
  intro h
  -- user 10001 is still connected to the removed user 10000
  obtain ⟨peer, hpeer, -⟩ := h "10001"
    { apiEndpoint := ⟨some "10.0.0.2", .int 5001, none⟩, state := .connected,
      peer := some "10000" } "10000" (by decide +kernel) rfl rfl
  have hgone : (removedPeerRun.foldl (Server.step plainUuid)
      { apiEndpoint := ⟨some "10.0.0.9", .int 5050, none⟩ }).users.lookup "10000" = none := by
    decide +kernel
  exact absurd (hgone.symm.trans hpeer) (by simp)

end CallPairing
