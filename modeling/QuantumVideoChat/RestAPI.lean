/-
The REST routes of the server (`server/rest_api.py`, `shared/decorators.py`,
`shared/parameters.py`).

A route returns the server after it together with its response.

* `status_handleExceptions` — a route that raises does not answer 200;
* `handlePeerConnection_cases` — POST `/peer_connection` answers 200 exactly when it has
  marked both users as connected.
-/
import Mathlib.Data.List.DropRight
import QuantumVideoChat.FailedConnect

/-- The JSON objects that the routes answer with; `page` is Flask's HTML page for an exception
that no handler knows. -/
inductive ResponseBody
  | user (userId : String)
  | session (socketEndpoint : List PyValue) (sessionId : String)
  | disconnected (userId : String)
  | error (errorCode errorMessage details : String)
  | rateLimit
  | page
  deriving DecidableEq

structure Response where
  status : ℕ
  body : ResponseBody
  deriving DecidableEq

namespace RestAPI

/-- `msg.rstrip(".")`. -/
def formatDetail (msg : String) : String := String.ofList (msg.toList.rdropWhile (· = '.'))

/-- `handle_exceptions_with_cls`: the exceptions it does not know reach Flask. -/
def handleExceptions : ServerException → Response
  | .badRequest msg => ⟨400, .error "400" "Bad Request" (formatDetail msg)⟩
  | .serverError msg => ⟨500, .error "500" "Internal Server Error" (formatDetail msg)⟩
  | .invalidState msg => ⟨400, .error "400" "Bad Request" (formatDetail msg)⟩
  | .badGateway msg => ⟨502, .error "502" "Bad Gateway" (formatDetail msg)⟩
  | .duplicateUser _ => ⟨500, .page⟩
  | .userNotFound _ => ⟨500, .page⟩
  | .python _ => ⟨500, .page⟩

/-- The answer of `rate_limit` to a client over its limit. -/
def rateLimited : Response := ⟨429, .rateLimit⟩

/-- The check of `get_parameters` on a parameter that is there: it must not be empty. -/
def checkParameter (param : String) (isEmpty : Bool) : Except ServerException Unit :=
  if isEmpty then .error (.badRequest ("Parameter '" ++ param ++ "' failed validation."))
  else .ok ()

/-! ### Routes -/

def createUser (s : Server) (apiEndpoint : List PyValue) (draws : IdDraws) : Server × Response :=
  match checkParameter "api_endpoint" apiEndpoint.isEmpty with
  | .error e => (s, handleExceptions e)
  | .ok () =>
    match s.addUser apiEndpoint draws with
    | (s, .error e) => (s, handleExceptions e)
    | (s, .ok userId) => (s, ⟨200, .user userId⟩)

def handlePeerConnection (uuid : UuidSource) (s : Server) (userId peerId : String)
    (answer : ClientAnswer) : Server × Response :=
  match checkParameter "user_id" userId.isEmpty, checkParameter "peer_id" peerId.isEmpty with
  | .error e, _ => (s, handleExceptions e)
  | .ok (), .error e => (s, handleExceptions e)
  | .ok (), .ok () =>
    match s.connect uuid userId peerId answer with
    | (s, .error e) => (s, handleExceptions e)
    | (s, .ok (endpoint, sessionId)) => (s, ⟨200, .session endpoint.parts sessionId⟩)

def disconnectPeer (s : Server) (userId : String) (answer : ClientAnswer) : Server × Response :=
  match checkParameter "user_id" userId.isEmpty with
  | .error e => (s, handleExceptions e)
  | .ok () =>
    match s.disconnect userId answer with
    | (s, .error e) => (s, handleExceptions e)
    | (s, .ok ()) => (s, ⟨200, .disconnected userId⟩)

/-! ### Facts -/

open Transition

theorem status_handleExceptions (e : ServerException) : (handleExceptions e).status ≠ 200 := by
  cases e <;> simp [handleExceptions]

variable {uuid : UuidSource} {s : Server} {userId peerId : String}

theorem checkParameter_of_ne {param value : String} (h : value ≠ "") :
    checkParameter param value.isEmpty = .ok () := by
  rw [checkParameter, if_neg (by simpa using h)]

/-- What a route does to the server is what the server's operation does. -/
theorem createUser_reaches (uuid : UuidSource) (s : Server) (apiEndpoint : List PyValue)
    (draws : IdDraws) :
    Reaches (Server.step uuid) s (createUser s apiEndpoint draws).1 := by
  rw [createUser]
  cases checkParameter "api_endpoint" apiEndpoint.isEmpty with
  | error e => exact Reaches.refl s
  | ok u =>
    have hstep : Reaches (Server.step uuid) s (s.addUser apiEndpoint draws).1 :=
      Reaches.step s (Server.Action.addUser apiEndpoint draws)
    rcases hadd : s.addUser apiEndpoint draws with ⟨s', e | userId⟩ <;> rwa [hadd] at hstep

theorem disconnectPeer_reaches (uuid : UuidSource) (s : Server) (userId : String)
    (answer : ClientAnswer) :
    Reaches (Server.step uuid) s (disconnectPeer s userId answer).1 := by
  rw [disconnectPeer]
  cases checkParameter "user_id" userId.isEmpty with
  | error e => exact Reaches.refl s
  | ok u =>
    have hstep : Reaches (Server.step uuid) s (s.disconnect userId answer).1 :=
      Reaches.step s (Server.Action.disconnectPeer userId answer)
    rcases hdis : s.disconnect userId answer with ⟨s', e | u⟩ <;> rwa [hdis] at hstep

/-- The server puts the call through: both parameters are there, neither user is turned down,
and the peer accepts. -/
def Commits (s : Server) (userId peerId : String) (answer : ClientAnswer) : Prop :=
  userId ≠ "" ∧ peerId ≠ "" ∧ s.Connectable userId peerId ∧ s.socketApi.isSome ∧
    s.Accepts peerId answer

/-- Either the call is put through, and the answer is 200 with the new session, or no user
changes and the answer is another one. -/
theorem handlePeerConnection_cases (uuid : UuidSource) (s : Server) (userId peerId : String)
    (answer : ClientAnswer) :
    (Commits s userId peerId answer ∧
      (handlePeerConnection uuid s userId peerId answer).1 = (s.connect uuid userId peerId answer).1 ∧
      ∃ sessionId, (s.connect uuid userId peerId answer).2 = .ok (s.apiEndpoint, sessionId) ∧
        (handlePeerConnection uuid s userId peerId answer).2
          = ⟨200, .session s.apiEndpoint.parts sessionId⟩) ∨
    (¬ Commits s userId peerId answer ∧
      (handlePeerConnection uuid s userId peerId answer).1.users = s.users ∧
      (handlePeerConnection uuid s userId peerId answer).2.status ≠ 200) := by
  rw [handlePeerConnection]
  by_cases huser : userId = ""
  · subst huser
    exact .inr ⟨fun h => h.1 rfl, rfl, status_handleExceptions _⟩
  by_cases hpeer : peerId = ""
  · subst hpeer
    rw [checkParameter_of_ne huser]
    exact .inr ⟨fun h => h.2.1 rfl, rfl, status_handleExceptions _⟩
  rw [checkParameter_of_ne huser, checkParameter_of_ne hpeer]
  dsimp only
  rcases hconnect : s.connect uuid userId peerId answer with ⟨s', e | ⟨endpoint, sessionId⟩⟩
  · refine .inr ⟨fun hcommits => ?_, ?_, status_handleExceptions e⟩
    · obtain ⟨r, hok⟩ := (Server.connect_isOk_iff uuid answer).mpr hcommits.2.2
      rw [hconnect] at hok
      exact absurd hok (by simp)
    · have hkeeps := (Server.failed_connect_keeps
        (show (s.connect uuid userId peerId answer).2 = .error e by rw [hconnect])).1
      rwa [hconnect] at hkeeps
  · have hok : (s.connect uuid userId peerId answer).2 = .ok (endpoint, sessionId) := by
      rw [hconnect]
    obtain ⟨hconnectable, hsome, haccepts⟩ := (Server.connect_isOk_iff uuid answer).mp ⟨_, hok⟩
    -- a successful call hands out the server's own endpoint
    obtain rfl : endpoint = s.apiEndpoint := by
      rcases s.connect_cases uuid userId peerId answer with ⟨-, e, he⟩ |
        ⟨-, _, _, _, -, -, -, -, -, -, -, -, -, hok'⟩
      · exact absurd (hok.symm.trans he) (by simp)
      · rw [hok', Except.ok.injEq, Prod.mk.injEq] at hok
        exact hok.1.symm
    exact .inl ⟨⟨huser, hpeer, hconnectable, hsome, haccepts⟩, rfl, sessionId, rfl, rfl⟩

theorem handlePeerConnection_reaches (uuid : UuidSource) (s : Server) (userId peerId : String)
    (answer : ClientAnswer) :
    Reaches (Server.step uuid) s (handlePeerConnection uuid s userId peerId answer).1 := by
  have hstep : Reaches (Server.step uuid) s (s.connect uuid userId peerId answer).1 :=
    Reaches.step s (Server.Action.handlePeerConnection userId peerId answer)
  rw [handlePeerConnection]
  cases checkParameter "user_id" userId.isEmpty with
  | error e => exact Reaches.refl s
  | ok u =>
    cases checkParameter "peer_id" peerId.isEmpty with
    | error e => exact Reaches.refl s
    | ok u =>
      rcases hconnect : s.connect uuid userId peerId answer with ⟨s', e | ⟨endpoint, sessionId⟩⟩ <;>
        rwa [hconnect] at hstep

end RestAPI
