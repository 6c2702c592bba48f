/-
User records over time (`server/utils/user_manager.py`, `server/peer_manager.py`).

The storage hands out the stored record itself, so `set_user_state` changes the store
assignment by assignment; `setUserStateInPlace` follows it and returns the store also when
the call raises.

* `setUserStateInPlace_eq` — all or nothing: the call makes its change or leaves the store;
* `idleIffSingle_step` — no operation separates the idle state from having no peer;
* `ownPeer_of_step` — connecting and disconnecting makes nobody its own peer;
* `records_consistent` — the three together, over every run of the operations.
-/
import QuantumVideoChat.Server

namespace UserManager

variable {users : UserStore} {userId id : String}

/-- An assignment to a field of the record that `get_user` of the storage handed out. -/
def assign (users : UserStore) (userId : String) (f : User → User) : UserStore :=
  match users.lookup userId with
  | none => users
  | some user => users.insert userId (f user)

/-- `set_user_state` with the store it leaves behind. -/
def setUserStateInPlace (users : UserStore) (userId : String) (state : UserState)
    (peer : Option String) : UserStore × Except ServerException Unit :=
  if xor (decide (state = .idle)) (decide (peer = none)) then
    (users, .error (.invalidState ("Cannot set state " ++ state.str ++ " (" ++ peer.getD "None"
      ++ ") for User " ++ userId ++ ": Invalid state.")))
  else
    match DictUserStorage.getUser users userId with
    | .error e => (users, .error e)
    | .ok userInfo =>
      let users := assign users userId fun user => { user with state := state }
      let users := assign users userId fun user => { user with peer := peer }
      -- by now the record holds both values, and is stored once more
      match DictUserStorage.updateUser users userId
        { userInfo with state := state, peer := peer } with
      | .error e => (users, .error e)
      | .ok users => (users, .ok ())

theorem insert_insert_same (users : UserStore) (userId : String) (user user' : User) :
    (users.insert userId user).insert userId user' = users.insert userId user' := by
  refine Finmap.ext_lookup fun id => ?_
  by_cases hid : id = userId
  · rw [hid, Finmap.lookup_insert, Finmap.lookup_insert]
  · rw [Finmap.lookup_insert_of_ne _ hid, Finmap.lookup_insert_of_ne _ hid,
      Finmap.lookup_insert_of_ne _ hid]

theorem assign_of_lookup {user : User} (h : users.lookup userId = some user) (f : User → User) :
    assign users userId f = users.insert userId (f user) := by
  rw [assign, h]

/-- A call makes the whole change, or raises and leaves the store as it was. -/
theorem setUserStateInPlace_eq (users : UserStore) (userId : String) (state : UserState)
    (peer : Option String) :
    setUserStateInPlace users userId state peer
      = match setUserState users userId state peer with
        | .error e => (users, .error e)
        | .ok users' => (users', .ok ()) := by
  rw [setUserStateInPlace, setUserState]
  by_cases hvalid : xor (decide (state = .idle)) (decide (peer = none)) = true
  · rw [if_pos hvalid, if_pos hvalid]
  · rw [if_neg hvalid, if_neg hvalid, DictUserStorage.getUser]
    cases hlookup : users.lookup userId with
    | none => rfl
    | some user =>
      have hmem : userId ∈ users := Finmap.mem_of_lookup_eq_some hlookup
      -- the last insertion overrides the two assignments
      simp only [assign_of_lookup hlookup, assign_of_lookup (Finmap.lookup_insert users),
        DictUserStorage.updateUser, Finmap.mem_insert, true_or, if_true, if_pos hmem,
        insert_insert_same]

/-- A call raises exactly for an invalid combination and for an unknown user. -/
theorem setUserStateInPlace_raises_iff {state : UserState} {peer : Option String} :
    (∃ e, (setUserStateInPlace users userId state peer).2 = .error e) ↔
      ¬ (state = .idle ↔ peer = none) ∨ userId ∉ users := by
  rw [setUserStateInPlace_eq]
  cases hset : setUserState users userId state peer with
  | ok users' =>
    obtain ⟨hvalid, user, hlookup, -⟩ := setUserState_eq_ok.mp hset
    have hmem : userId ∈ users := Finmap.mem_of_lookup_eq_some hlookup
    simp [hvalid, hmem]
  | error e =>
    refine ⟨fun _ => ?_, fun _ => ⟨e, rfl⟩⟩
    by_contra hnot
    rw [not_or, not_not, not_not, ← Finmap.lookup_isSome, Option.isSome_iff_exists] at hnot
    obtain ⟨hvalid, user, hlookup⟩ := hnot
    have hok := setUserState_eq_ok.mpr ⟨hvalid, user, hlookup, rfl⟩
    exact absurd (hset.symm.trans hok) (by simp)

theorem setUserStateInPlace_error {state : UserState} {peer : Option String}
    {e : ServerException} (h : (setUserStateInPlace users userId state peer).2 = .error e) :
    (setUserStateInPlace users userId state peer).1 = users := by
  rw [setUserStateInPlace_eq] at h ⊢
  cases hset : setUserState users userId state peer with
  | error e' => rfl
  | ok users' =>
    rw [hset] at h
    exact absurd h (by simp)

end UserManager

namespace UserRecords

open UserManager

/-! ### The two properties of a store -/

/-- Exactly the idle users are without a peer. -/
def IdleIffSingle (users : UserStore) : Prop :=
  ∀ userId user, users.lookup userId = some user → (user.state = .idle ↔ user.peer = none)

/-- The user is recorded as its own peer. -/
def OwnPeer (users : UserStore) (userId : String) : Prop :=
  ∃ user, users.lookup userId = some user ∧ user.peer = some userId

variable {users : UserStore} {userId id : String}

theorem idleIffSingle_insert (h : IdleIffSingle users) {user : User}
    (hvalid : user.state = .idle ↔ user.peer = none) :
    IdleIffSingle (users.insert userId user) := by
  intro id u hlookup
  by_cases hid : id = userId
  · rw [hid, Finmap.lookup_insert, Option.some_inj] at hlookup
    rwa [← hlookup]
  · rw [Finmap.lookup_insert_of_ne _ hid] at hlookup
    exact h id u hlookup

theorem idleIffSingle_erase (h : IdleIffSingle users) (userId : String) :
    IdleIffSingle (users.erase userId) := by
  intro id u hlookup
  by_cases hid : id = userId
  · rw [hid, Finmap.lookup_erase] at hlookup
    exact absurd hlookup (by simp)
  · rw [Finmap.lookup_erase_ne hid] at hlookup
    exact h id u hlookup

/-- A successful state change has passed the check, so it keeps the records valid. -/
theorem idleIffSingle_setUserState (h : IdleIffSingle users) {state : UserState}
    {peer : Option String} {users' : UserStore}
    (hset : setUserState users userId state peer = .ok users') : IdleIffSingle users' := by
  obtain ⟨hvalid, user, -, rfl⟩ := setUserState_eq_ok.mp hset
  exact idleIffSingle_insert h hvalid

theorem idleIffSingle_resetUser (h : IdleIffSingle users) (userId : String) :
    IdleIffSingle (resetUser users userId) := by
  rw [resetUser]
  cases hset : setUserState users userId .idle none with
  | error e => exact h
  | ok users' => exact idleIffSingle_setUserState h hset

theorem ownPeer_insert {user : User} (hpeer : user.peer ≠ some userId)
    (h : OwnPeer (users.insert userId user) id) : id ≠ userId ∧ OwnPeer users id := by
  obtain ⟨u, hlookup, hown⟩ := h
  by_cases hid : id = userId
  · subst hid
    rw [Finmap.lookup_insert, Option.some_inj] at hlookup
    exact absurd (hlookup ▸ hown) hpeer
  · rw [Finmap.lookup_insert_of_ne _ hid] at hlookup
    exact ⟨hid, u, hlookup, hown⟩

theorem ownPeer_erase (h : OwnPeer (users.erase userId) id) : OwnPeer users id := by
  obtain ⟨u, hlookup, hown⟩ := h
  by_cases hid : id = userId
  · rw [hid, Finmap.lookup_erase] at hlookup
    exact absurd hlookup (by simp)
  · rw [Finmap.lookup_erase_ne hid] at hlookup
    exact ⟨u, hlookup, hown⟩

theorem ownPeer_resetUser (h : OwnPeer (resetUser users userId) id) : OwnPeer users id := by
  obtain ⟨u, hlookup, hown⟩ := h
  rw [lookup_resetUser] at hlookup
  split_ifs at hlookup with hid
  · obtain ⟨stored, -, rfl⟩ := Option.map_eq_some_iff.mp hlookup
    exact absurd hown (by simp)
  · exact ⟨u, hlookup, hown⟩

/-! ### Operations -/

inductive Operation
  | addUser (apiEndpoint : List PyValue) (draws : IdDraws)
  | connect (userId peerId : String) (answer : ClientAnswer)
  | disconnect (userId : String) (answer : ClientAnswer)
  | setUserState (userId : String) (state : UserState) (peer : Option String)
  | removeUser (userId : String)

def step (uuid : UuidSource) (s : Server) : Operation → Server
  | .addUser apiEndpoint draws => (s.addUser apiEndpoint draws).1
  | .connect userId peerId answer => (s.connect uuid userId peerId answer).1
  | .disconnect userId answer => (s.disconnect userId answer).1
  | .setUserState userId state peer =>
    { s with users := (setUserStateInPlace s.users userId state peer).1 }
  | .removeUser userId => s.removeUser userId

/-- The operation is a bare `set_user_state`. -/
def Operation.setsState : Operation → Bool
  | .setUserState _ _ _ => true
  | _ => false

variable (uuid : UuidSource) (s : Server)

theorem idleIffSingle_step (op : Operation) (h : IdleIffSingle s.users) :
    IdleIffSingle (step uuid s op).users := by
  cases op with
  | addUser apiEndpoint draws =>
    rw [step, Server.addUser]
    cases hadd : UserManager.addUser s.users apiEndpoint draws with
    | error e => exact h
    | ok new =>
      obtain ⟨id, users'⟩ := new
      obtain ⟨-, -, endpoint, -, rfl⟩ := addUser_eq_ok.mp hadd
      exact idleIffSingle_insert h ⟨fun _ => rfl, fun _ => rfl⟩
  | connect userId peerId answer =>
    rw [step]
    rcases s.connect_cases uuid userId peerId answer with ⟨hsame, -⟩ |
      ⟨-, user, peer, api, -, -, -, -, -, -, -, husers, -⟩
    · rwa [hsame]
    · rw [husers]
      exact idleIffSingle_insert (idleIffSingle_insert h (by simp)) (by simp)
  | disconnect userId answer =>
    rw [step]
    rcases s.disconnect_cases userId answer with ⟨hsame, -⟩ | ⟨user, peerId, -, -, husers⟩
    · rwa [hsame]
    · rw [husers]
      exact idleIffSingle_resetUser (idleIffSingle_resetUser h userId) peerId
  | setUserState userId state peer =>
    show IdleIffSingle (setUserStateInPlace s.users userId state peer).1
    rw [setUserStateInPlace_eq]
    cases hset : UserManager.setUserState s.users userId state peer with
    | error e => exact h
    | ok users' => exact idleIffSingle_setUserState h hset
  | removeUser userId =>
    rw [step, Server.removeUser_users]
    exact idleIffSingle_erase h userId

/-- Whoever is its own peer after anything but a bare state change was so before. -/
theorem ownPeer_of_step (op : Operation) (hop : op.setsState = false)
    (h : OwnPeer (step uuid s op).users id) : OwnPeer s.users id := by
  cases op with
  | addUser apiEndpoint draws =>
    rw [step, Server.addUser] at h
    cases hadd : UserManager.addUser s.users apiEndpoint draws with
    | error e => rwa [hadd] at h
    | ok new =>
      rw [hadd] at h
      obtain ⟨newId, users'⟩ := new
      obtain ⟨-, -, endpoint, -, rfl⟩ := addUser_eq_ok.mp hadd
      exact (ownPeer_insert (by simp) h).2
  | connect userId peerId answer =>
    rw [step] at h
    rcases s.connect_cases uuid userId peerId answer with ⟨hsame, -⟩ |
      ⟨hne, user, peer, api, -, -, -, -, -, -, -, husers, -⟩
    · rwa [hsame] at h
    · -- the two records name each other, and the two ids differ
      rw [husers] at h
      have hpeer := (ownPeer_insert (by simpa using hne) h).2
      exact (ownPeer_insert (by simpa using hne.symm) hpeer).2
  | disconnect userId answer =>
    rw [step] at h
    rcases s.disconnect_cases userId answer with ⟨hsame, -⟩ | ⟨user, peerId, -, -, husers⟩
    · rwa [hsame] at h
    · rw [husers] at h
      exact ownPeer_resetUser (ownPeer_resetUser h)
  | setUserState userId state peer => exact absurd hop (by simp [Operation.setsState])
  | removeUser userId =>
    rw [step, Server.removeUser_users] at h
    exact ownPeer_erase h

/-! ### Runs -/

theorem idleIffSingle_run (apiEndpoint : Endpoint) (socketApi : Option SocketAPI)
    (ops : List Operation) :
    IdleIffSingle (ops.foldl (step uuid)
      { apiEndpoint := apiEndpoint, socketApi := socketApi }).users :=
  Transition.foldl_induction (I := fun s : Server => IdleIffSingle s.users)
    (fun _ _ h => absurd h (by simp)) (fun s op h => idleIffSingle_step uuid s op h) ops

/-- A run without bare state changes makes nobody its own peer. -/
theorem ownPeer_of_run {ops : List Operation} (hops : ∀ op ∈ ops, op.setsState = false)
    {s : Server} (h : OwnPeer (ops.foldl (step uuid) s).users id) : OwnPeer s.users id := by
  induction ops generalizing s with
  | nil => exact h
  | cons op ops ih =>
    have hrest := ih (fun o ho => hops o (List.mem_cons_of_mem op ho)) h
    exact ownPeer_of_step uuid s op (hops op List.mem_cons_self) hrest

/-- **User records stay consistent.**  In every reachable state exactly the idle users are
without a peer, a `set_user_state` that raises leaves the store alone, and neither `connect`
nor `disconnect` makes anybody its own peer. -/
theorem records_consistent (uuid : UuidSource) (apiEndpoint : Endpoint)
    (socketApi : Option SocketAPI) (ops : List Operation) :
    let s := ops.foldl (step uuid) { apiEndpoint := apiEndpoint, socketApi := socketApi }
    IdleIffSingle s.users ∧
      (∀ userId state peer,
        ((∃ e, (setUserStateInPlace s.users userId state peer).2 = .error e) ↔
          ¬ (state = .idle ↔ peer = none) ∨ userId ∉ s.users) ∧
        ∀ e, (setUserStateInPlace s.users userId state peer).2 = .error e →
          (setUserStateInPlace s.users userId state peer).1 = s.users) ∧
      (∀ userId peerId answer id,
        (OwnPeer (s.connect uuid userId peerId answer).1.users id → OwnPeer s.users id) ∧
        (OwnPeer (s.disconnect userId answer).1.users id → OwnPeer s.users id)) ∧
      ((∀ op ∈ ops, op.setsState = false) → ∀ id, ¬ OwnPeer s.users id) := by
  dsimp only
  refine ⟨idleIffSingle_run uuid apiEndpoint socketApi ops, fun userId state peer =>
    ⟨setUserStateInPlace_raises_iff, fun e => setUserStateInPlace_error⟩,
    fun userId peerId answer id => ⟨fun h => ?_, fun h => ?_⟩, fun hops id h => ?_⟩
  · exact ownPeer_of_step uuid _ (.connect userId peerId answer) rfl h
  · exact ownPeer_of_step uuid _ (.disconnect userId answer) rfl h
  · obtain ⟨user, hlookup, -⟩ := ownPeer_of_run uuid hops h
    exact absurd hlookup (by simp)

end UserRecords
