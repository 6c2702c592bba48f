/-
The REST routes of the server on arbitrary request bodies (`server/rest_api.py`,
`shared/parameters.py`).

A body is any JSON value, or none at all.  Python's `str` and `==` on values that are not both
strings are parameters: they decide which error is reported.

* `getParameters_spec` — asked for named parameters, `get_parameters` accepts exactly the objects
  that have every one of them, and reports the first that is missing or empty;
* `peerConnection_cases` — only two strings get as far as the server.
-/
import QuantumVideoChat.Exceptions
import QuantumVideoChat.JoinForm

namespace Json

/-- `mapping.get(key)`; of equal keys the last one counts. -/
def lookup (fields : List (String × Json)) (key : String) : Option Json :=
  (fields.reverse.find? (·.1 == key)).map (·.2)

end Json

namespace JsonRoutes

/-! ### get_parameters -/

/-- What a route can raise. -/
inductive Raised
  /-- an `HTTPException` of Flask -/
  | http (status : ℕ)
  | notImplemented (message : String)
  | server (e : ServerException)

def Raised.response : Raised → Response
  | .http status => ⟨status, .page⟩
  | .notImplemented _ => ⟨500, .page⟩
  | .server e => RestAPI.handleExceptions e

def missing (param : String) : Raised :=
  .server (.badRequest ("Expected parameter '" ++ param ++ "' not received."))

def invalid (param : String) : Raised :=
  .server (.badRequest ("Parameter '" ++ param ++ "' failed validation."))

/-- `str(type(data))`, of the types that are no collections. -/
def pyType : Json → String
  | .null => "<class 'NoneType'>"
  | .bool _ => "<class 'bool'>"
  | .num _ => "<class 'int'>"
  | .float _ => "<class 'float'>"
  | .str _ => "<class 'str'>"
  | .arr _ => "<class 'list'>"
  | .obj _ => "<class 'dict'>"

def getParameter (mapping : List (String × Json)) (param : String) : Except Raised Json :=
  match Json.lookup mapping param with
  | none => .error (missing param)
  | some value => if value.truthy then .ok value else .error (invalid param)

/-- The check of `get_from_iterable`, where a name stands for a validator: the empty one is
replaced by the default validator, and any other string is called. -/
def checkItem (item : Json) (param : String) : Except Raised Json :=
  if param = "" then
    if item.truthy then .ok item
    else .error (.server (.badRequest "Parameter failed validation."))
  else .error (.server (.python .typeError))

/-- `get_parameters(data, *params)` with the names of the parameters. -/
def getParameters (data : Json) (params : List String) : Except Raised (List Json) :=
  match data with
  | .obj mapping => params.mapM (getParameter mapping)
  | .arr items =>
    if params = [] then .ok items
    else if items.length ≠ params.length then
      .error (.server (.badRequest ("Expected " ++ toString params.length
        ++ " parameters but received " ++ toString items.length ++ ".")))
    else (items.zip params).mapM fun (item, param) => checkItem item param
  | data => .error (.notImplemented ("Unsupported data type: " ++ pyType data))

variable {mapping : List (String × Json)} {param : String} {params : List String} {value : Json}

theorem getParameter_eq_ok :
    getParameter mapping param = .ok value ↔
      Json.lookup mapping param = some value ∧ value.truthy = true := by
  rw [getParameter]
  cases hlookup : Json.lookup mapping param with
  | none => simp
  | some found =>
    dsimp only
    split_ifs with htruthy
    · constructor
      · intro h
        rw [← Except.ok.inj h]
        exact ⟨rfl, htruthy⟩
      · rintro ⟨h, -⟩
        rw [Option.some_inj.mp h]
    · refine iff_of_false (by simp) ?_
      rintro ⟨h, hvalue⟩
      exact htruthy (Option.some_inj.mp h ▸ hvalue)

/-- A parameter fails because it is missing, or because it is empty. -/
theorem getParameter_eq_error {e : Raised} :
    getParameter mapping param = .error e ↔
      (Json.lookup mapping param = none ∧ e = missing param) ∨
        ∃ value, Json.lookup mapping param = some value ∧ value.truthy = false ∧
          e = invalid param := by
  rw [getParameter]
  cases Json.lookup mapping param with
  | none =>
    refine ⟨fun h => .inl ⟨rfl, (Except.error.inj h).symm⟩, ?_⟩
    rintro (⟨-, rfl⟩ | ⟨found, hfound, -⟩)
    · rfl
    · exact absurd hfound (by simp)
  | some found =>
    dsimp only
    split_ifs with htruthy
    · refine iff_of_false (by simp) ?_
      rintro (⟨hnone, -⟩ | ⟨value, hvalue, hempty, -⟩)
      · exact absurd hnone (by simp)
      · rw [← Option.some_inj.mp hvalue, htruthy] at hempty
        exact absurd hempty (by simp)
    · have hempty := eq_false_of_ne_true htruthy
      refine ⟨fun h => .inr ⟨found, rfl, hempty, (Except.error.inj h).symm⟩, ?_⟩
      rintro (⟨hnone, -⟩ | ⟨value, -, -, rfl⟩)
      · exact absurd hnone (by simp)
      · rfl

/-- An array is never accepted for named parameters. -/
theorem getParameters_arr_ne_ok (items : List Json) (hparams : params ≠ [])
    (hnames : ∀ param ∈ params, param ≠ "") (values : List Json) :
    getParameters (.arr items) params ≠ .ok values := by
  rw [getParameters, if_neg hparams]
  split_ifs with hlen
  · simp
  · rw [ne_eq, Exceptions.mapM_eq_ok_iff]
    intro hall
    -- the first item meets a name
    obtain ⟨param, params', rfl⟩ := List.exists_cons_of_ne_nil hparams
    obtain ⟨item, items', rfl⟩ : ∃ item items', items = item :: items' :=
      List.exists_cons_of_length_pos (by rw [not_not.mp hlen]; exact Nat.succ_pos _)
    rw [List.zip_cons_cons, List.forall₂_cons_left_iff] at hall
    obtain ⟨value, rest, hitem, -⟩ := hall
    have hraised : checkItem item param = .error (.server (.python .typeError)) :=
      if_neg (hnames param List.mem_cons_self)
    exact absurd (hraised.symm.trans hitem) (by simp)

/-- What `get_parameters` accepts: an object with all of the parameters, none of them
empty. -/
theorem getParameters_eq_ok_iff (data : Json) (hparams : params ≠ [])
    (hnames : ∀ param ∈ params, param ≠ "") (values : List Json) :
    getParameters data params = .ok values ↔
      ∃ mapping, data = .obj mapping ∧ List.Forall₂ (fun param value =>
        Json.lookup mapping param = some value ∧ value.truthy = true) params values := by
  cases data with
  | obj mapping =>
    rw [getParameters, Exceptions.mapM_eq_ok_iff]
    simp only [getParameter_eq_ok, Json.obj.injEq, exists_eq_left']
  | arr items => exact iff_of_false (getParameters_arr_ne_ok items hparams hnames values) (by simp)
  | _ => exact iff_of_false (by simp [getParameters]) (by simp)

/-- Which parameter is reported: the first one that is missing or empty, by its name. -/
theorem getParameters_error_iff (mapping : List (String × Json)) (params : List String)
    (e : Raised) :
    getParameters (.obj mapping) params = .error e ↔
      ∃ before param after, params = before ++ param :: after ∧
        (∀ p ∈ before, ∃ value, Json.lookup mapping p = some value ∧ value.truthy = true) ∧
        ((Json.lookup mapping param = none ∧ e = missing param) ∨
          ∃ value, Json.lookup mapping param = some value ∧ value.truthy = false ∧
            e = invalid param) := by
  rw [getParameters, Exceptions.mapM_eq_error_iff]
  simp only [getParameter_eq_ok, getParameter_eq_error]

/-- **`get_parameters` says what is wrong.**  Asked for one or more parameters by names that are
not empty, it returns the values of an object that has every one of them, none of them empty, and
of nothing else; what it raises for an object names the first parameter that is missing or
empty. -/
theorem getParameters_spec (data : Json) (hparams : params ≠ [])
    (hnames : ∀ param ∈ params, param ≠ "") :
    (∀ values, getParameters data params = .ok values ↔
      ∃ mapping, data = .obj mapping ∧ List.Forall₂ (fun param value =>
        Json.lookup mapping param = some value ∧ value.truthy = true) params values) ∧
    ∀ mapping, data = .obj mapping → ∀ e, getParameters data params = .error e ↔
      ∃ before failing after, params = before ++ failing :: after ∧
        (∀ p ∈ before, ∃ value, Json.lookup mapping p = some value ∧ value.truthy = true) ∧
        ((Json.lookup mapping failing = none ∧ e = missing failing) ∨
          ∃ value, Json.lookup mapping failing = some value ∧ value.truthy = false ∧
            e = invalid failing) := by
  refine ⟨fun values => getParameters_eq_ok_iff data hparams hnames values, ?_⟩
  rintro mapping rfl e
  exact getParameters_error_iff mapping params e

/-- A peer id that is a float zero is as empty as an empty text, and no list is an object. -/
theorem getParameters_spec_connect :
    getParameters (.obj [("user_id", .str "10000"), ("peer_id", .float (some 0))])
        ["user_id", "peer_id"] = .error (invalid "peer_id") ∧
      ∀ values, getParameters (.arr [.str "10000", .str "10001"]) ["user_id", "peer_id"]
        ≠ .ok values :=
  ⟨((getParameters_spec _ (by simp) (by decide)).2 _ rfl _).mpr
      ⟨["user_id"], "peer_id", [], rfl, fun p hp => by
        obtain rfl := List.mem_singleton.mp hp
        exact ⟨.str "10000", rfl, rfl⟩, .inr ⟨.float (some 0), rfl, rfl, rfl⟩⟩,
    fun values h => by
      obtain ⟨mapping, hobj, -⟩ := ((getParameters_spec _ (by simp) (by decide)).1 values).mp h
      exact absurd hobj (by simp)⟩

/-! ### Routes -/

/-- What `request.json` makes of a request. -/
inductive Body
  /-- another content type -/
  | unsupported
  | malformed
  | json (data : Json)

def Body.data : Body → Except Raised Json
  | .unsupported => .error (.http 415)
  | .malformed => .error (.http 400)
  | .json data => .ok data

section

variable (str : Json → String) (same : Json → Json → Bool)

/-- What a lookup raises for an id that is no string. -/
def unknownId : Json → Raised
  | .arr _ | .obj _ => .server (.python .typeError)
  | id => .server (.badRequest ("User " ++ str id ++ " does not exist."))

/-- What `connect` raises when the two ids are not both strings. -/
def refusal (s : Server) (userId peerId : Json) : Raised :=
  if same userId peerId then
    .server (.badRequest ("Cannot intermediate connection between User " ++ str userId
      ++ " and self."))
  else
    match userId with
    | .str id =>
      match s.findUser id with
      | .error e => .server e
      | .ok _ => unknownId str peerId
    | userId => unknownId str userId

/-- `handle_peer_connection`, from the parameters on. -/
def connectIds (uuid : UuidSource) (s : Server) (userId peerId : Json) (answer : ClientAnswer) :
    Server × Response :=
  match userId, peerId with
  | .str userId, .str peerId => RestAPI.handlePeerConnection uuid s userId peerId answer
  | userId, peerId => (s, (refusal str same s userId peerId).response)

/-- POST `/peer_connection`. -/
def peerConnection (uuid : UuidSource) (s : Server) (body : Body) (answer : ClientAnswer) :
    Server × Response :=
  match body.data.bind (getParameters · ["user_id", "peer_id"]) with
  | .error e => (s, e.response)
  | .ok [userId, peerId] => connectIds str same uuid s userId peerId answer
  | .ok _ => (s, ⟨500, .page⟩)

/-- POST `/disconnect_peer`. -/
def disconnectPeer (s : Server) (body : Body) (answer : ClientAnswer) : Server × Response :=
  match body.data.bind (getParameters · ["user_id"]) with
  | .error e => (s, e.response)
  | .ok [.str userId] => RestAPI.disconnectPeer s userId answer
  | .ok [userId] => (s, (unknownId str userId).response)
  | .ok _ => (s, ⟨500, .page⟩)

/-! ### Facts -/

theorem status_raised_ne {e : Raised} (h : ∀ status, e = .http status → 400 ≤ status) :
    400 ≤ e.response.status := by
  cases e with
  | http status => exact h status rfl
  | notImplemented => exact (by decide : 400 ≤ 500)
  | server e => cases e <;> simp [Raised.response, RestAPI.handleExceptions]

theorem status_unknownId (id : Json) : 400 ≤ (unknownId str id).response.status := by
  refine status_raised_ne fun status h => absurd h ?_
  cases id <;> simp [unknownId]

theorem status_refusal (s : Server) (userId peerId : Json) :
    400 ≤ (refusal str same s userId peerId).response.status := by
  unfold refusal
  split_ifs
  · exact status_raised_ne (by simp)
  · cases userId with
    | str id =>
      show 400 ≤ Response.status (Raised.response (match s.findUser id with
        | .error e => .server e
        | .ok _ => unknownId str peerId))
      cases s.findUser id with
      | error e => exact status_raised_ne (by simp)
      | ok user => exact status_unknownId str peerId
    | _ => exact status_unknownId str _

theorem status_data {body : Body} {e : Raised} (h : body.data = .error e) :
    400 ≤ e.response.status := by
  cases body with
  | unsupported =>
    rw [← Except.error.inj h]
    exact (by decide : 400 ≤ 415)
  | malformed =>
    rw [← Except.error.inj h]
    exact (by decide : 400 ≤ 400)
  | json data => exact absurd h (by simp [Body.data])

theorem status_getParameters {data : Json} {params : List String} {e : Raised}
    (h : getParameters data params = .error e) : 400 ≤ e.response.status := by
  refine status_raised_ne ?_
  rintro status rfl
  cases data with
  | obj mapping =>
    obtain ⟨_, _, _, -, -, ⟨-, he⟩ | ⟨_, -, -, he⟩⟩ := (getParameters_error_iff _ _ _).mp h
    · exact absurd he (by simp [missing])
    · exact absurd he (by simp [invalid])
  | arr items =>
    rw [getParameters] at h
    split_ifs at h with hparams hlen
    · simp at h
    · obtain ⟨_, ⟨item, param⟩, _, -, -, he⟩ := Exceptions.mapM_eq_error_iff.mp h
      dsimp only at he
      rw [checkItem] at he
      split_ifs at he <;> simp at he
  | _ => simp [getParameters] at h

theorem status_parameters {body : Body} {params : List String} {e : Raised}
    (h : body.data.bind (getParameters · params) = .error e) : 400 ≤ e.response.status := by
  cases hdata : body.data with
  | error e' =>
    rw [hdata] at h
    obtain rfl := Except.error.inj h
    exact status_data hdata
  | ok data =>
    rw [hdata] at h
    exact status_getParameters h

theorem parameters_eq_ok {body : Body} (hparams : params ≠ [])
    (hnames : ∀ param ∈ params, param ≠ "") {values : List Json}
    (h : body.data.bind (getParameters · params) = .ok values) :
    ∃ mapping, body = .json (.obj mapping) ∧ List.Forall₂ (fun param value =>
      Json.lookup mapping param = some value ∧ value.truthy = true) params values := by
  cases body with
  | unsupported | malformed => exact absurd h (by simp [Body.data, Except.bind])
  | json data =>
    obtain ⟨mapping, rfl, hvalues⟩ := (getParameters_eq_ok_iff data hparams hnames values).mp h
    exact ⟨mapping, rfl, hvalues⟩

/-- The route gets two values out of the body, or refuses it. -/
theorem peerConnection_eq (uuid : UuidSource) (s : Server) (body : Body) (answer : ClientAnswer) :
    (∃ mapping userId peerId, body = .json (.obj mapping) ∧
      Json.lookup mapping "user_id" = some userId ∧ Json.lookup mapping "peer_id" = some peerId ∧
      peerConnection str same uuid s body answer
        = connectIds str same uuid s userId peerId answer) ∨
    ((peerConnection str same uuid s body answer).1 = s ∧
      400 ≤ (peerConnection str same uuid s body answer).2.status) := by
  rw [peerConnection]
  cases hparams : body.data.bind (getParameters · ["user_id", "peer_id"]) with
  | error e => exact .inr ⟨rfl, status_parameters hparams⟩
  | ok values =>
    obtain ⟨mapping, rfl, hvalues⟩ := parameters_eq_ok (by simp) (by decide) hparams
    cases hvalues with
    | cons huser hvalues =>
      cases hvalues with
      | cons hpeer hvalues =>
        cases hvalues with
        | nil => exact .inl ⟨mapping, _, _, rfl, huser.1, hpeer.1, rfl⟩

theorem connectIds_refused (uuid : UuidSource) (s : Server) {userId peerId : Json}
    (h : ¬ ((∃ u, userId = .str u) ∧ ∃ p, peerId = .str p)) (answer : ClientAnswer) :
    (connectIds str same uuid s userId peerId answer).1 = s ∧
      400 ≤ (connectIds str same uuid s userId peerId answer).2.status := by
  have hrefused : connectIds str same uuid s userId peerId answer
      = (s, (refusal str same s userId peerId).response) := by
    cases userId <;> cases peerId <;> first | rfl | simp at h
  rw [hrefused]
  exact ⟨rfl, status_refusal str same s userId peerId⟩

/-- **Only two strings get as far as the server.**  Any other body leaves the server as it is and
is answered with an error. -/
theorem peerConnection_cases (uuid : UuidSource) (s : Server) (body : Body)
    (answer : ClientAnswer) :
    (∃ mapping userId peerId, body = .json (.obj mapping) ∧
      Json.lookup mapping "user_id" = some (.str userId) ∧
      Json.lookup mapping "peer_id" = some (.str peerId) ∧
      peerConnection str same uuid s body answer
        = RestAPI.handlePeerConnection uuid s userId peerId answer) ∨
    ((peerConnection str same uuid s body answer).1 = s ∧
      400 ≤ (peerConnection str same uuid s body answer).2.status) := by
  rcases peerConnection_eq str same uuid s body answer with
    ⟨mapping, userId, peerId, hbody, huser, hpeer, hroute⟩ | hrefused
  · rw [hroute]
    by_cases hstrings : (∃ u, userId = .str u) ∧ ∃ p, peerId = .str p
    · obtain ⟨⟨u, rfl⟩, p, rfl⟩ := hstrings
      exact .inl ⟨mapping, u, p, hbody, huser, hpeer, rfl⟩
    · exact .inr (connectIds_refused str same uuid s hstrings answer)
  · exact .inr hrefused

end

end JsonRoutes
