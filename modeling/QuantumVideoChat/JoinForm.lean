/-
From the join form of the browser to `join_room` of the middleware
(`website/client/static/app.js`, `middleware/events.py`).

The form sends the code wrapped in an object, and the handler of the event takes its one
argument for the code itself.

* `handleJoin_eq_some` — what the form lets through, and what it emits then;
* `reaction_ofOption` — for a bare string or null the handler is `join_room` as the rest of
  the middleware knows it;
* `browser_join_never_agrees` — for what the browser really sends it is not, ever.
-/
import Mathlib.Data.Rat.Defs
import QuantumVideoChat.ServerComms

/-- What an event of Socket.IO can carry.  A number with a fraction or an exponent is a `float`,
`none` standing for the ones that are not finite. -/
inductive Json
  | null
  | bool (b : Bool)
  | num (n : ℤ)
  | float (x : Option ℚ)
  | str (s : String)
  | arr (items : List Json)
  | obj (fields : List (String × Json))

namespace Json

/-- `bool(value)` of Python. -/
def truthy : Json → Bool
  | .null => false
  | .bool b => b
  | .num n => n != 0
  | .float x => x != some 0
  | .str s => s != ""
  | .arr items => !items.isEmpty
  | .obj fields => !fields.isEmpty

/-- `value == text` of Python. -/
def eqStr : Json → String → Bool
  | .str s, text => s == text
  | _, _ => false

def ofOption : Option String → Json
  | none => .null
  | some s => .str s

end Json

namespace JoinForm

/-! ### The browser -/

/-- The white space and line terminators of JavaScript. -/
def isJsSpace (c : Char) : Bool :=
  [0x09, 0x0A, 0x0B, 0x0C, 0x0D, 0x20, 0xA0, 0x1680, 0x2028, 0x2029, 0x202F, 0x205F, 0x3000,
    0xFEFF].contains c.toNat || (0x2000 ≤ c.toNat && c.toNat ≤ 0x200A)

/-- `text.trim()`. -/
def trim (text : String) : String :=
  .ofList (((text.toList.dropWhile isJsSpace).reverse.dropWhile isJsSpace).reverse)

/-- `/^[a-zA-Z0-9]{5}$/`. -/
def isRoomCode (s : String) : Bool := s.toList.length == 5 && s.toList.all Char.isAlphanum

/-- `socket.emit(event, ...args)`. -/
structure Emit where
  event : String
  args : List Json

/-- `joinRoom`: a blank id is sent as null. -/
def joinRoom (peerId : Option String) : Emit :=
  let value : Json :=
    match peerId with
    | none => .null
    | some s => if s = "" then .null else .str s
  ⟨"join_room", [.obj [("peer_id", value)]]⟩

/-- `handleJoin`: nothing is sent for what is neither blank nor a room code. -/
def handleJoin (text : String) : Option Emit :=
  let id := trim text
  if id ≠ "" ∧ isRoomCode id = false then none
  else some (joinRoom (if id = "" then none else some id))

/-! ### The middleware -/

/-- What `join_room` does with a peer id: an event for the browser, or a request to the
server with this body. -/
inductive Reaction
  | emit (event : BrowserEvent)
  | post (userId : String) (peerId : Json)

def selfConnection (userId : String) : BrowserEvent :=
  .serverError ("Cannot connect to yourself (user_id=" ++ userId
    ++ "). For same-device testing, run a second middleware on a different port: "
    ++ "python3 client.py --port 5002")

/-- `server_comms.join_room` up to the request, for whatever value it is called with. -/
def reaction (state : MiddlewareState) (peerId : Json) : Reaction :=
  if state.serverHost = "" then .emit (.serverError "Not connected to a server.")
  else if state.userId = "" then .emit (.serverError "Not registered with server yet.")
  else if peerId.truthy = false then .emit (.waitingForPeer state.userId)
  else if peerId.eqStr state.userId then .emit (selfConnection state.userId)
  else .post state.userId peerId

/-- The handlers of `register_browser_events` that this event can reach; `join_room` has one
optional parameter beside the sid, and more arguments are a `TypeError`. -/
def deliver (state : MiddlewareState) (e : Emit) : Option Reaction :=
  if e.event = "join_room" then
    match e.args with
    | [] => some (reaction state .null)
    | [peerId] => some (reaction state peerId)
    | _ => none
  else none

/-- Called with a string or null, the handler is the `join_room` of `ServerComms`. -/
theorem reaction_ofOption (state : MiddlewareState) (peerId : Option String) :
    reaction state (Json.ofOption peerId)
      = match ServerComms.joinRequest state.serverHost state.userId peerId with
        | .error event => .emit event
        | .ok peer => .post state.userId (.str peer) := by
  unfold reaction ServerComms.joinRequest
  by_cases hhost : state.serverHost = ""
  · rw [if_pos hhost, if_pos hhost]
  by_cases huser : state.userId = ""
  · rw [if_neg hhost, if_neg hhost, if_pos huser, if_pos huser]
  rw [if_neg hhost, if_neg hhost, if_neg huser, if_neg huser]
  cases peerId with
  | none => rfl
  | some peer =>
    by_cases hempty : peer = ""
    · simp [Json.ofOption, Json.truthy, hempty]
    · by_cases hself : peer = state.userId
      · simp [Json.ofOption, Json.truthy, Json.eqStr, huser, hself, selfConnection]
      · simp [Json.ofOption, Json.truthy, Json.eqStr, hempty, hself]

/-! ### Room codes -/

variable {s text : String}

theorem isRoomCode_iff :
    isRoomCode s = true ↔ s.toList.length = 5 ∧ ∀ c ∈ s.toList, c.isAlphanum = true := by
  rw [isRoomCode, Bool.and_eq_true, beq_iff_eq, List.all_eq_true]

/-- ASCII letters and digits are not white space. -/
theorem isJsSpace_of_isAlphanum {c : Char} (h : c.isAlphanum = true) : isJsSpace c = false := by
  delta Char.isAlphanum Char.isAlpha Char.isUpper Char.isLower Char.isDigit at h
  simp only [Bool.or_eq_true, Bool.and_eq_true, decide_eq_true_eq, ge_iff_le,
    UInt32.le_iff_toNat_le] at h
  change ((65 ≤ c.toNat ∧ c.toNat ≤ 90) ∨ (97 ≤ c.toNat ∧ c.toNat ≤ 122)) ∨
    (48 ≤ c.toNat ∧ c.toNat ≤ 57) at h
  simp only [isJsSpace, List.contains_eq_mem, List.mem_cons, List.not_mem_nil, or_false,
    Bool.or_eq_false_iff, decide_eq_false_iff_not, Bool.and_eq_false_iff]
  omega

/-- A room code is typed as it is read. -/
theorem trim_of_isRoomCode (h : isRoomCode s = true) : trim s = s := by
  have hall := (isRoomCode_iff.mp h).2
  have hkeep : ∀ {l : List Char}, (∀ c ∈ l, c.isAlphanum = true) → l.dropWhile isJsSpace = l := by
    intro l hl
    cases l with
    | nil => rfl
    | cons c l =>
      rw [List.dropWhile_cons_of_neg]
      simp [isJsSpace_of_isAlphanum (hl c List.mem_cons_self)]
  rw [trim, hkeep hall, hkeep fun c hc => hall c (List.mem_reverse.mp hc), List.reverse_reverse,
    String.ofList_toList]

/-- The form lets a blank through and every room code, and sends it along. -/
theorem handleJoin_eq_some {e : Emit} :
    handleJoin text = some e ↔
      (trim text = "" ∨ isRoomCode (trim text) = true) ∧
        e = ⟨"join_room", [.obj [("peer_id",
          if trim text = "" then .null else .str (trim text))]]⟩ := by
  unfold handleJoin
  by_cases hblank : trim text = ""
  · rw [if_neg (by simp [hblank]), if_pos hblank, if_pos hblank, Option.some_inj, eq_comm]
    exact (and_iff_right (.inl hblank)).symm
  · by_cases hcode : isRoomCode (trim text) = true
    · rw [if_neg (by simp [hcode]), if_neg hblank, if_neg hblank, Option.some_inj, joinRoom,
        if_neg hblank, eq_comm]
      exact (and_iff_right (.inr hcode)).symm
    · rw [if_pos ⟨hblank, by simpa using hcode⟩]
      simp [hblank, hcode]

/-- A string goes through the form as it is exactly when it is a room code. -/
theorem handleJoin_eq_joinRoom_iff (hne : s ≠ "") :
    handleJoin s = some (joinRoom (some s)) ↔ isRoomCode s = true := by
  rw [handleJoin_eq_some]
  constructor
  · rintro ⟨hthrough, heq⟩
    simp only [joinRoom, if_neg hne, Emit.mk.injEq, List.cons.injEq, Json.obj.injEq,
      Prod.mk.injEq, true_and, and_true] at heq
    by_cases hblank : trim s = ""
    · rw [if_pos hblank] at heq
      exact absurd heq (by simp)
    · rw [if_neg hblank, Json.str.injEq] at heq
      rw [heq]
      exact hthrough.resolve_left hblank
  · intro h
    rw [trim_of_isRoomCode h]
    exact ⟨.inr h, by simp [joinRoom, hne]⟩

/-! ### The join event -/

/-- What `join_room` is meant to do for the text of the form. -/
def intended (state : MiddlewareState) (text : String) : Reaction :=
  if trim text = "" then .emit (.waitingForPeer state.userId)
  else if trim text = state.userId then .emit (selfConnection state.userId)
  else .post state.userId (.str (trim text))

/-- A configured and registered middleware asks for a peer by the object, whatever is in it. -/
theorem deliver_handleJoin {state : MiddlewareState} (hhost : state.serverHost ≠ "")
    (huser : state.userId ≠ "") {e : Emit} (h : handleJoin text = some e) :
    deliver state e = some (.post state.userId (.obj [("peer_id",
      if trim text = "" then .null else .str (trim text))])) := by
  obtain ⟨-, rfl⟩ := handleJoin_eq_some.mp h
  rw [deliver, if_pos rfl]
  dsimp only
  -- the object is truthy and equal to no string
  rw [reaction, if_neg hhost, if_neg huser, if_neg (by simp [Json.truthy]),
    if_neg (by simp [Json.eqStr])]

/-- **The browser and the middleware never agree on the join event**: for every text the
form lets through and every configured and registered middleware, what is delivered is not
what is meant, and the server is asked for an object. -/
theorem browser_join_never_agrees {state : MiddlewareState} (hhost : state.serverHost ≠ "")
    (huser : state.userId ≠ "") {e : Emit} (h : handleJoin text = some e) :
    deliver state e ≠ some (intended state text) ∧
      ∃ fields, deliver state e = some (.post state.userId (.obj fields)) := by
  have hdeliver := deliver_handleJoin hhost huser h
  refine ⟨?_, _, hdeliver⟩
  rw [hdeliver, intended]
  split_ifs <;> simp

/-- A middleware that is registered as user 10000. -/
def registered : MiddlewareState := { serverHost := "localhost", serverPort := 5050, userId := "10000" }

theorem browser_join_never_agrees_for_a_code :
    deliver registered (joinRoom (some "20000")) ≠ some (intended registered "20000") ∧
      ∃ fields, deliver registered (joinRoom (some "20000"))
        = some (.post registered.userId (.obj fields)) :=
  browser_join_never_agrees (by decide) (by decide)
    ((handleJoin_eq_joinRoom_iff (by decide)).mpr (by decide +kernel))

/-- A blank form should start a session and asks for a peer instead. -/
theorem blank_form_asks_for_a_peer :
    ¬ ∀ (state : MiddlewareState) (_ : state.serverHost ≠ "") (_ : state.userId ≠ "")
        (text : String) (e : Emit), handleJoin text = some e →
      deliver state e = some (intended state text) := by
  intro hall
  have h := hall registered (by decide) (by decide) "" (joinRoom none) rfl
  simp [deliver, joinRoom, reaction, registered, Json.truthy, Json.eqStr, intended,
    show trim "" = "" from rfl] at h

end JoinForm
