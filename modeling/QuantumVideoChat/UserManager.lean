/-
The user store (`server/utils/user_manager.py`, `server/utils/user.py`).

`DictUserStorage` is a finite map from ids to `User`s.  An operation that raises leaves the
store as it was, so it returns `Except`.

* `setUserState_eq_ok` — the one entry a successful state change touches;
* `getUser_eq_ok` — the record handed out carries the stored state and peer;
* `addUser_eq_ok` — a new id was free and now belongs to an idle user.
-/
import QuantumVideoChat.Endpoint

inductive UserState
  | idle
  | awaitingConnection
  | connected
  deriving DecidableEq

/-- `str(state)`. -/
def UserState.str : UserState → String
  | .idle => "UserState.IDLE"
  | .awaitingConnection => "UserState.AWAITING_CONNECTION"
  | .connected => "UserState.CONNECTED"

structure User where
  apiEndpoint : Endpoint
  state : UserState := .idle
  peer : Option String := none
  deriving DecidableEq

/-- The exceptions of the server, with their messages. -/
inductive ServerException
  | duplicateUser (message : String)
  | userNotFound (message : String)
  | invalidState (message : String)
  | badRequest (message : String)
  | badGateway (message : String)
  | serverError (message : String)
  | python (error : PyError)
  deriving DecidableEq

/-- `User(api_endpoint, state, peer)`. -/
def User.init (apiEndpoint : List PyValue) (state : UserState) (peer : Option String) :
    Except ServerException User :=
  match Endpoint.ofParts apiEndpoint with
  | .ok endpoint => .ok { apiEndpoint := endpoint, state := state, peer := peer }
  | .error e => .error (.python e)

/-- `DictUserStorage.users`. -/
abbrev UserStore := Finmap fun _ : String => User

namespace DictUserStorage

def addUser (users : UserStore) (userId : String) (userInfo : User) :
    Except ServerException UserStore :=
  if userId ∈ users then
    .error (.duplicateUser ("Cannot add user " ++ userId ++ ": User already exists."))
  else .ok (users.insert userId userInfo)

def updateUser (users : UserStore) (userId : String) (userInfo : User) :
    Except ServerException UserStore :=
  if userId ∈ users then .ok (users.insert userId userInfo)
  else .error (.userNotFound ("Cannot update user " ++ userId ++ ": User does not exist."))

def getUser (users : UserStore) (userId : String) : Except ServerException User :=
  match users.lookup userId with
  | some user => .ok user
  | none =>
    .error (.userNotFound ("Cannot get user " ++ userId ++ ": User does not exist."))

def removeUser (users : UserStore) (userId : String) : Except ServerException UserStore :=
  if userId ∈ users then .ok (users.erase userId)
  else .error (.userNotFound ("Cannot remove user " ++ userId ++ ": User does not exist."))

end DictUserStorage

/-- The draws of `secrets.randbelow` in `generate_user_id`: up to 100 of five digits, then
one of six. -/
structure IdDraws where
  fiveDigits : ℕ → Fin 90000
  sixDigits : Fin 900000

namespace UserManager

/-- The `i`-th five-digit candidate. -/
def candidate (draws : IdDraws) (i : ℕ) : String := toString ((draws.fiveDigits i).val + 10000)

def generateUserId (users : UserStore) (draws : IdDraws) : String :=
  -- the six-digit id is not checked against the store
  match (List.range 100).find? fun i => decide (candidate draws i ∉ users) with
  | some i => candidate draws i
  | none => toString (draws.sixDigits.val + 100000)

/-- `add_user`: the id and the new store. -/
def addUser (users : UserStore) (apiEndpoint : List PyValue) (draws : IdDraws) :
    Except ServerException (String × UserStore) :=
  let userId := generateUserId users draws
  match User.init apiEndpoint .idle none with
  | .error e => .error e
  | .ok user =>
    match DictUserStorage.addUser users userId user with
    | .error e => .error e
    | .ok users => .ok (userId, users)

/-- `set_user_state`; exactly the idle state goes without a peer. -/
def setUserState (users : UserStore) (userId : String) (state : UserState)
    (peer : Option String) : Except ServerException UserStore :=
  if xor (decide (state = .idle)) (decide (peer = none)) then
    .error (.invalidState ("Cannot set state " ++ state.str ++ " (" ++ peer.getD "None"
      ++ ") for User " ++ userId ++ ": Invalid state."))
  else
    match DictUserStorage.getUser users userId with
    | .error e => .error e
    | .ok userInfo =>
      DictUserStorage.updateUser users userId { userInfo with state := state, peer := peer }

/-- `get_user` hands out a copy of the record. -/
def getUser (users : UserStore) (userId : String) : Except ServerException User :=
  match DictUserStorage.getUser users userId with
  | .error e => .error e
  | .ok userInfo => User.init userInfo.apiEndpoint.parts userInfo.state userInfo.peer

/-- The state change to `IDLE` that `disconnect` attempts: exceptions are logged only. -/
def resetUser (users : UserStore) (userId : String) : UserStore :=
  match setUserState users userId .idle none with
  | .error _ => users
  | .ok users => users

/-- `remove_user` swallows the exception for an unknown id. -/
def removeUser (users : UserStore) (userId : String) : UserStore :=
  match DictUserStorage.removeUser users userId with
  | .ok users => users
  | .error _ => users

/-- The records whose state is `CONNECTED`. -/
def connectedUsers (users : UserStore) : Finset String :=
  users.keys.filter fun userId => (users.lookup userId).any fun user => user.state = .connected

/-- `call_count` of the dashboard: `connected_count // 2`. -/
def callCount (users : UserStore) : ℕ := (connectedUsers users).card / 2

variable {users users' : UserStore} {userId : String}

theorem mem_connectedUsers :
    userId ∈ connectedUsers users ↔
      ∃ user, users.lookup userId = some user ∧ user.state = .connected := by
  rw [connectedUsers, Finset.mem_filter, Finmap.mem_keys, Option.any_eq_true]
  constructor
  · rintro ⟨-, user, hlookup, hstate⟩
    exact ⟨user, hlookup, by simpa using hstate⟩
  · rintro ⟨user, hlookup, hstate⟩
    exact ⟨Finmap.mem_of_lookup_eq_some hlookup, user, hlookup, by simpa using hstate⟩

theorem setUserState_eq_ok {state : UserState} {peer : Option String} :
    setUserState users userId state peer = .ok users' ↔
      (state = .idle ↔ peer = none) ∧ ∃ user, users.lookup userId = some user ∧
        users' = users.insert userId { user with state := state, peer := peer } := by
  rw [setUserState]
  by_cases hvalid : (state = .idle ↔ peer = none)
  · rw [if_neg (by simp [hvalid]), DictUserStorage.getUser]
    cases hlookup : users.lookup userId with
    | none => simp
    | some user =>
      have hmem : userId ∈ users := Finmap.mem_of_lookup_eq_some hlookup
      simp [DictUserStorage.updateUser, hmem, hvalid, eq_comm]
  · have hxor : xor (decide (state = .idle)) (decide (peer = none)) = true := by
      by_cases hs : state = .idle <;> by_cases hp : peer = none <;> simp_all
    rw [if_pos hxor]
    simp [hvalid]

theorem getUser_eq_ok {user : User} :
    getUser users userId = .ok user ↔
      ∃ stored, users.lookup userId = some stored ∧
        stored.apiEndpoint.copy = .ok user.apiEndpoint ∧
        user.state = stored.state ∧ user.peer = stored.peer := by
  rw [getUser, DictUserStorage.getUser]
  cases users.lookup userId with
  | none => simp
  | some stored =>
    simp only [User.init, Option.some_inj, exists_eq_left', Endpoint.copy]
    obtain ⟨endpoint, state, peer⟩ := user
    cases Endpoint.ofParts stored.apiEndpoint.parts with
    | error e => simp
    | ok endpoint' => simp [eq_comm]

theorem addUser_eq_ok {apiEndpoint : List PyValue} {draws : IdDraws} :
    addUser users apiEndpoint draws = .ok (userId, users') ↔
      userId = generateUserId users draws ∧ userId ∉ users ∧
        ∃ endpoint, Endpoint.ofParts apiEndpoint = .ok endpoint ∧
          users' = users.insert userId { apiEndpoint := endpoint } := by
  rw [addUser, User.init]
  cases Endpoint.ofParts apiEndpoint with
  | error e => simp
  | ok endpoint =>
    simp only [DictUserStorage.addUser]
    by_cases hmem : generateUserId users draws ∈ users
    · simp only [if_pos hmem]
      constructor
      · intro h
        exact absurd h (by simp)
      · rintro ⟨rfl, hnew, -⟩
        exact absurd hmem hnew
    · simp only [if_neg hmem, Except.ok.injEq, Prod.mk.injEq]
      constructor
      · rintro ⟨rfl, rfl⟩
        exact ⟨rfl, hmem, endpoint, rfl, rfl⟩
      · rintro ⟨rfl, -, _, rfl, rfl⟩
        exact ⟨rfl, rfl⟩

theorem removeUser_eq : removeUser users userId = users.erase userId := by
  rw [removeUser, DictUserStorage.removeUser]
  by_cases hmem : userId ∈ users
  · rw [if_pos hmem]
  · rw [if_neg hmem]
    refine Finmap.ext_lookup fun id => ?_
    by_cases hid : id = userId
    · rw [hid, Finmap.lookup_erase, Finmap.lookup_eq_none.mpr hmem]
    · rw [Finmap.lookup_erase_ne hid]

/-- A reset touches the one record only, if it is there. -/
theorem lookup_resetUser (users : UserStore) (userId id : String) :
    (resetUser users userId).lookup id
      = if id = userId then
          (users.lookup id).map fun user => { user with state := .idle, peer := none }
        else users.lookup id := by
  rw [resetUser]
  cases hset : setUserState users userId .idle none with
  | error e =>
    -- the idle state needs no peer, so only an unknown id is refused
    by_cases hid : id = userId
    · subst hid
      cases hlookup : users.lookup id with
      | none => simp
      | some user =>
        have hok := setUserState_eq_ok.mpr ⟨Iff.intro (fun _ => rfl) (fun _ => rfl), user, hlookup,
          rfl⟩
        exact absurd (hset.symm.trans hok) (by simp)
    · rw [if_neg hid]
  | ok users' =>
    obtain ⟨-, user, hlookup, rfl⟩ := setUserState_eq_ok.mp hset
    by_cases hid : id = userId
    · subst hid
      rw [if_pos rfl, Finmap.lookup_insert, hlookup, Option.map_some]
    · rw [if_neg hid, Finmap.lookup_insert_of_ne _ hid]

end UserManager
