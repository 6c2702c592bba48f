/-
Pages, their middleware and the server (`website/client/static/app.js`, `middleware/events.py`,
`middleware/server_comms.py`).

Any number of pages are open on one middleware.  Between a page and the middleware messages
travel in order, and are lost when the connection breaks; what a page sends while it is not
connected waits for the next connection.  A handler of the middleware that asks the server
becomes a task, which ends at some later time.

* `step_cases` — a step happens in one page, or the middleware does something and tells pages;
* `distinct_run` — sockets are told apart by their ids;
* `emit_of_mem` — what is sent to the id of a socket reaches one page.
-/
import QuantumVideoChat.HealthChecks
import QuantumVideoChat.JsonRoutes
import QuantumVideoChat.Page

/-- `sio.emit(event, room=sid)`, of the events that a page reads. -/
structure PageEmission where
  message : PageMessage
  room : Option String := none

/-- The events that the handlers of the server's replies emit. -/
def BrowserEmission.toPage (e : BrowserEmission) : PageEmission where
  message :=
    match e.event with
    | .serverConnected => .serverConnected
    | .serverError msg => .serverError msg
    | .userRegistered userId => .userRegistered userId
    | .waitingForPeer _ => .waitingForPeer
    | .peerDisconnected _ => .peerDisconnected
  room := e.room

/-- A page and its connection; `inbox` and `outbox` are in flight, and `outbox` waits while there
is no connection. -/
structure Tab where
  page : Page := {}
  sid : Option String := none
  inbox : List PageMessage := []
  outbox : List PageRequest := []

def Tab.arrive (t : Tab) (messages : List PageMessage) : Tab :=
  { t with inbox := t.inbox ++ messages }

/-- The page is told something, and sends what it sends then. -/
def Tab.on (t : Tab) (e : PageEvent) : Tab :=
  { t with page := t.page.step e, outbox := t.outbox ++ (t.page.on e).2 }

namespace PageLink

open Transition ServerComms

/-! ### The middleware -/

/-- A handler that waits for the server. -/
inductive Task
  | configureServer (sid host : String) (port : ℤ)
  | createUser (sid : String)
  | joinRoom (sid userId : String) (peerId : Json)
  | leaveRoom

/-- What a task waits for. -/
inductive Outcome
  | status (outcome : HealthChecks.StatusOutcome)
  | registration (draws : IdDraws) (delivery : Delivery)
  | peerConnection (delivery : Delivery) (answer : ClientAnswer)
      (attempts : Fin wsConnectMaxAttempts → Attempt)
  | disconnection (delivery : Delivery) (answer : ClientAnswer)

/-- The middleware, its server, and the pages; `sids` are the ids that sockets have had. -/
structure World where
  comms : System
  consecutiveFailures : ℕ := 0
  cameraEnabled : Bool := true
  muted : Bool := false
  tasks : List Task := []
  sids : List String := []
  tabs : ℕ → Tab := fun _ => {}

/-- `DEFAULT_SERVER_HOST`, `DEFAULT_SERVER_PORT` and `IS_LOCAL`. -/
structure Defaults where
  host : String
  port : ℤ
  isLocal : Bool

/-- Python's `str` and `==` on JSON values, and the ids of sessions. -/
structure Python where
  str : Json → String
  same : Json → Json → Bool
  uuid : UuidSource

namespace World

def alive (w : World) : Bool := w.comms.state.serverAlive

/-! ### Messages to the pages -/

/-- The page is in the room. -/
def Addresses (room : Option String) (t : Tab) : Prop :=
  t.sid.isSome = true ∧ (room = none ∨ room = t.sid)

instance (room : Option String) (t : Tab) : Decidable (Addresses room t) :=
  inferInstanceAs (Decidable (_ ∧ _))

def arriving (emissions : List PageEmission) (t : Tab) : List PageMessage :=
  (emissions.filter fun e => decide (Addresses e.room t)).map (·.message)

def emit (w : World) (emissions : List PageEmission) : World :=
  { w with tabs := fun i => (w.tabs i).arrive (arriving emissions (w.tabs i)) }

/-! ### Handlers -/

/-- A handler of `register_browser_events`; `devices` are those that are found.  The handlers of
`select_camera` and `select_audio` restart capture threads and tell the pages nothing. -/
def receive (w : World) (sid : String) (devices : List DeviceInfo) :
    PageRequest → World × List PageEmission
  | .configureServer host port =>
    if host = "" then (w, [⟨.serverError "No host provided.", some sid⟩])
    else ({ w with tasks := w.tasks ++ [.configureServer sid host port] }, [])
  | .createUser =>
    if w.comms.state.serverHost = "" then
      (w, [⟨.serverError "Not connected to a server.", some sid⟩])
    else ({ w with tasks := w.tasks ++ [.createUser sid] }, [])
  | .joinRoom peerId =>
    match JoinForm.deliver w.comms.state (JoinForm.joinRoom peerId) with
    | none => (w, [])
    | some (.emit event) => (w, [BrowserEmission.toPage ⟨event, some sid⟩])
    | some (.post userId peerId) =>
      ({ w with tasks := w.tasks ++ [.joinRoom sid userId peerId] }, [])
  | .leaveRoom => ({ w with tasks := w.tasks ++ [.leaveRoom] }, [])
  | .toggleCamera enabled => ({ w with cameraEnabled := enabled }, [])
  | .toggleMute muted => ({ w with muted := muted }, [])
  | .selectCamera _ | .selectAudio _ => (w, [])
  | .listCameras => (w, [⟨.cameraList devices, some sid⟩])
  | .listAudioDevices => (w, [⟨.audioDeviceList devices, some sid⟩])

/-- The body of the request to `/peer_connection`. -/
def joinBody (userId : String) (peerId : Json) : JsonRoutes.Body :=
  .json (.obj [("user_id", .str userId), ("peer_id", peerId)])

/-- The end of a task; `none` if that is not what it waits for. -/
def finishTask (py : Python) (comms : System) :
    Task → Outcome → Option (System × List BrowserEmission)
  | .configureServer sid host port, .status outcome =>
    let (state, emissions) := HealthChecks.configureServer comms.state sid host port outcome
    some ({ comms with state := state }, emissions)
  | .createUser sid, .registration draws delivery => some (createUser comms sid draws delivery)
  | .joinRoom sid userId peerId, .peerConnection delivery answer attempts =>
    match exchange (fun s => JsonRoutes.peerConnection py.str py.same py.uuid s
      (joinBody userId peerId) answer) comms.server delivery with
    | (server, response) =>
      match joinResponse response with
      | .error msg => some ({ comms with server := server }, [⟨.serverError msg, some sid⟩])
      | .ok none => some ({ comms with server := server }, [])
      | .ok (some (wsEndpoint, sessionId)) =>
        some (connectToSessionWs py.uuid { comms with server := server } wsEndpoint sessionId
          attempts)
  | .leaveRoom, .disconnection delivery answer =>
    some (leaveRoom py.uuid comms delivery answer, [])
  | _, _ => none

/-- What the middleware does. -/
inductive Duty
  /-- a request of a page is handled -/
  | receive (sid : String) (devices : List DeviceInfo) (r : PageRequest)
  | finish (k : ℕ) (outcome : Outcome)
  /-- a turn of the health-check loop -/
  | ping (ok : Bool)
  /-- the event `room-id` of the server -/
  | roomId (roomId : String)
  | peerConnection (wsEndpoint : List PyValue) (sessionId : String)
      (attempts : Fin wsConnectMaxAttempts → Attempt)
  | peerDisconnected (peerId : String)
  /-- the server does something on behalf of somebody else -/
  | server (a : Server.Action)

def perform (py : Python) (w : World) : Duty → World × List PageEmission
  | .receive sid devices r => w.receive sid devices r
  | .finish k outcome =>
    match w.tasks[k]? with
    | none => (w, [])
    | some task =>
      match finishTask py w.comms task outcome with
      | none => (w, [])
      | some (comms, emissions) =>
        ({ w with comms := comms, tasks := w.tasks.eraseIdx k },
          emissions.map BrowserEmission.toPage)
  | .ping ok =>
    if w.comms.state.healthGreenlet then
      let (state, consecutiveFailures, emissions) :=
        HealthChecks.healthCheck w.comms.state w.consecutiveFailures ok
      ({ w with comms.state := state, consecutiveFailures := consecutiveFailures },
        emissions.map BrowserEmission.toPage)
    else (w, [])
  | .roomId roomId => (w, [{ message := .roomId roomId }])
  | .peerConnection wsEndpoint sessionId attempts =>
    let (comms, emissions) := restPeerConnection py.uuid w.comms wsEndpoint sessionId attempts
    ({ w with comms := comms }, emissions.map BrowserEmission.toPage)
  | .peerDisconnected peerId =>
    let (comms, emissions) := restPeerDisconnected py.uuid w.comms peerId
    ({ w with comms := comms }, emissions.map BrowserEmission.toPage)
  | .server a => ({ w with comms.server := w.comms.server.step py.uuid a }, [])

def duty (py : Python) (w : World) (d : Duty) : World :=
  (w.perform py d).1.emit (w.perform py d).2

/-! ### Pages -/

def updateTab (w : World) (i : ℕ) (t : Tab) : World :=
  { w with tabs := Function.update w.tabs i t }

/-- The handler of `connect`. -/
def welcome (d : Defaults) (alive : Bool) : List PageMessage :=
  [.welcome d.host d.port d.isLocal] ++ if alive then [.serverConnected] else []

/-- A connection is made, lost, or replaced by one for which nothing waits; a page is loaded
anew; a page reads its next message, or something happens in it; the middleware handles the next
request of a page, or does something else. -/
inductive Action
  | connect (i : ℕ) (sid : String)
  | disconnect (i : ℕ)
  | replaceSocket (i : ℕ)
  | reload (i : ℕ)
  | read (i : ℕ)
  | act (i : ℕ) (a : Page.Action)
  | receive (i : ℕ) (devices : List DeviceInfo)
  | duty (d : Duty)

/-- The duties that are not the handling of a page's request. -/
def Duty.isOwn : Duty → Bool
  | .receive _ _ _ => false
  | _ => true

def step (d : Defaults) (py : Python) (w : World) : Action → World
  | .connect i sid =>
    -- ids of sockets are never reused
    if (w.tabs i).sid.isSome ∨ sid ∈ w.sids then w
    else
      { w with sids := sid :: w.sids }.updateTab i
        ({ w.tabs i with sid := some sid, inbox := welcome d w.alive }.on .connect)
  | .disconnect i =>
    if (w.tabs i).sid.isSome then
      w.updateTab i ({ page := (w.tabs i).page : Tab }.on .disconnect)
    else w
  | .replaceSocket i =>
    if (w.tabs i).sid.isSome then w else w.updateTab i { w.tabs i with outbox := [] }
  | .reload i => w.updateTab i {}
  | .read i =>
    match (w.tabs i).inbox with
    | [] => w
    | m :: inbox => w.updateTab i ({ w.tabs i with inbox := inbox }.on (.message m))
  | .act i a => w.updateTab i ((w.tabs i).on (.action a))
  | .receive i devices =>
    match (w.tabs i).sid, (w.tabs i).outbox with
    | some sid, r :: outbox =>
      (w.updateTab i { w.tabs i with outbox := outbox }).duty py (.receive sid devices r)
    | _, _ => w
  | .duty d => if d.isOwn then w.duty py d else w

/-! ### Steps -/

variable (py : Python) (w : World)

/-- What the page sends to join is turned down at once, or taken for a peer. -/
theorem deliver_joinRoom (state : MiddlewareState) (peerId : Option String) :
    (∃ msg, JoinForm.deliver state (JoinForm.joinRoom peerId) = some (.emit (.serverError msg))) ∨
      ∃ fields, state.userId ≠ "" ∧ JoinForm.deliver state (JoinForm.joinRoom peerId)
        = some (.post state.userId (.obj fields)) := by
  unfold JoinForm.joinRoom JoinForm.deliver
  rw [if_pos rfl]
  dsimp only
  rw [JoinForm.reaction]
  split_ifs with hhost huser hempty hself
  · exact .inl ⟨_, rfl⟩
  · exact .inl ⟨_, rfl⟩
  · exact absurd hempty (by simp [Json.truthy])
  · exact absurd hself (by simp [Json.eqStr])
  · exact .inr ⟨_, huser, rfl⟩

theorem receive_tabs (sid : String) (devices : List DeviceInfo) (r : PageRequest) :
    (w.receive sid devices r).1.tabs = w.tabs ∧ (w.receive sid devices r).1.sids = w.sids := by
  cases r with
  | configureServer | createUser =>
    rw [receive]
    split_ifs <;> exact ⟨rfl, rfl⟩
  | joinRoom peerId =>
    rw [receive]
    split <;> exact ⟨rfl, rfl⟩
  | _ => exact ⟨rfl, rfl⟩

/-- A duty does not touch the pages but by what it tells them. -/
theorem perform_tabs (d : Duty) :
    (w.perform py d).1.tabs = w.tabs ∧ (w.perform py d).1.sids = w.sids := by
  cases d with
  | receive sid devices r => exact w.receive_tabs sid devices r
  | finish k outcome =>
    rw [perform]
    split
    · exact ⟨rfl, rfl⟩
    · split <;> exact ⟨rfl, rfl⟩
  | ping ok =>
    rw [perform]
    split_ifs <;> exact ⟨rfl, rfl⟩
  | _ => exact ⟨rfl, rfl⟩

theorem duty_tabs (d : Duty) (i : ℕ) :
    (w.duty py d).tabs i = (w.tabs i).arrive (arriving (w.perform py d).2 (w.tabs i)) := by
  rw [duty, emit, (w.perform_tabs py d).1]

theorem duty_alive (d : Duty) : (w.duty py d).alive = (w.perform py d).1.alive := rfl

@[simp] theorem updateTab_same (i : ℕ) (t : Tab) : (w.updateTab i t).tabs i = t := by
  unfold updateTab
  exact Function.update_self i t w.tabs

theorem updateTab_of_ne {i j : ℕ} (h : j ≠ i) (t : Tab) :
    (w.updateTab i t).tabs j = w.tabs j := by
  unfold updateTab
  exact Function.update_of_ne h t w.tabs

@[simp] theorem updateTab_alive (i : ℕ) (t : Tab) : (w.updateTab i t).alive = w.alive := rfl

section

variable {t : Tab} {emissions : List PageEmission}

theorem arriving_of_closed (h : t.sid = none) : arriving emissions t = [] := by
  rw [arriving, List.filter_eq_nil_iff.mpr, List.map_nil]
  intro e he
  simp [Addresses, h]

theorem arriving_singleton (m : PageMessage) (room : Option String) :
    arriving [⟨m, room⟩] t = if Addresses room t then [m] else [] := by
  rw [arriving]
  split_ifs with h <;> simp [h]

end

/-- What can happen to a page while the middleware does nothing. -/
inductive Local (d : Defaults) (alive : Bool) (t : Tab) : Tab → Prop
  | connect (sid : String) (h : t.sid = none) :
      Local d alive t (Tab.on { t with sid := some sid, inbox := welcome d alive } .connect)
  | disconnect (h : t.sid.isSome = true) :
      Local d alive t (Tab.on { page := t.page } .disconnect)
  | replaceSocket (h : t.sid = none) : Local d alive t { t with outbox := [] }
  | reload : Local d alive t {}
  | read (m : PageMessage) (inbox : List PageMessage) (h : t.inbox = m :: inbox) :
      Local d alive t (Tab.on { t with inbox := inbox } (.message m))
  | act (a : Page.Action) : Local d alive t (t.on (.action a))

/-- A step does nothing, or something happens to one page, or the middleware does something, of
its own accord or because a page has asked it to. -/
theorem step_cases (d : Defaults) (a : Action) :
    w.step d py a = w ∨
    (∃ i t, Local d w.alive (w.tabs i) t ∧
      ∃ sids, w.step d py a = { w with sids := sids }.updateTab i t) ∨
    (∃ duty, a = .duty duty ∧ duty.isOwn = true ∧ w.step d py a = w.duty py duty) ∨
    ∃ i devices sid r outbox, a = .receive i devices ∧ (w.tabs i).sid = some sid ∧
      (w.tabs i).outbox = r :: outbox ∧
      w.step d py a = (w.updateTab i { w.tabs i with outbox := outbox }).duty py
        (.receive sid devices r) := by
  cases a with
  | connect i sid =>
    rw [step]
    split_ifs with h
    · exact .inl rfl
    · have hsid : (w.tabs i).sid = none := by
        by_contra hsome
        exact h (.inl (Option.isSome_iff_ne_none.mpr hsome))
      exact .inr (.inl ⟨i, _, .connect sid hsid, _, rfl⟩)
  | disconnect i =>
    rw [step]
    split_ifs with h
    · exact .inr (.inl ⟨i, _, .disconnect h, w.sids, rfl⟩)
    · exact .inl rfl
  | replaceSocket i =>
    rw [step]
    split_ifs with h
    · exact .inl rfl
    · exact .inr (.inl ⟨i, _, .replaceSocket (by simpa using h), w.sids, rfl⟩)
  | reload i => exact .inr (.inl ⟨i, _, .reload, w.sids, rfl⟩)
  | read i =>
    rw [step]
    split
    · exact .inl rfl
    · rename_i m inbox h
      exact .inr (.inl ⟨i, _, .read m inbox h, w.sids, rfl⟩)
  | act i a => exact .inr (.inl ⟨i, _, .act a, w.sids, rfl⟩)
  | receive i devices =>
    rw [step]
    split
    · rename_i sid r outbox hsid houtbox
      exact .inr (.inr (.inr ⟨i, devices, sid, r, outbox, rfl, hsid, houtbox, rfl⟩))
    · exact .inl rfl
  | duty duty =>
    rw [step]
    split_ifs with hown
    · exact .inr (.inr (.inl ⟨duty, rfl, hown, rfl⟩))
    · exact .inl rfl

end World

/-- The defaults where the environment sets nothing. -/
def Defaults.unset : Defaults := ⟨"127.0.0.1", 5050, false⟩

/-- Python as far as the runs below need it, which do not join. -/
def Python.plain : Python where
  str
    | .str s => s
    | _ => ""
  same
    | .str s, .str s' => s == s'
    | _, _ => false
  uuid := CallPairing.plainUuid

/-- A server, its middleware, and pages that have not connected yet. -/
def start (server : Server) : World := { comms := { server := server } }

namespace World

variable (d : Defaults) (py : Python) (server : Server) (w : World)

/-! ### Socket ids -/

/-- No two pages have one socket id. -/
structure Distinct (w : World) : Prop where
  given : ∀ i sid, (w.tabs i).sid = some sid → sid ∈ w.sids
  injective : ∀ i j sid, (w.tabs i).sid = some sid → (w.tabs j).sid = some sid → i = j

theorem distinct_of_sids {w w' : World} (h : w.Distinct) (hsids : w'.sids = w.sids)
    (htabs : ∀ i sid, (w'.tabs i).sid = some sid → (w.tabs i).sid = some sid) : w'.Distinct where
  given i sid hsid := hsids ▸ h.given i sid (htabs i sid hsid)
  injective i j sid hi hj := h.injective i j sid (htabs i sid hi) (htabs j sid hj)

/-- A page that keeps its socket id, or loses it. -/
theorem distinct_updateTab {w : World} (h : w.Distinct) {i : ℕ} {t : Tab}
    (ht : t.sid = none ∨ t.sid = (w.tabs i).sid) : (w.updateTab i t).Distinct := by
  refine distinct_of_sids h rfl fun j sid hsid => ?_
  by_cases hj : j = i
  · subst hj
    rw [updateTab_same] at hsid
    rcases ht with hnone | hsame
    · exact absurd (hnone.symm.trans hsid) (by simp)
    · exact hsame.symm.trans hsid
  · rwa [updateTab_of_ne w hj] at hsid

theorem distinct_duty {w : World} (h : w.Distinct) (duty : Duty) : (w.duty py duty).Distinct := by
  refine distinct_of_sids h (w.perform_tabs py duty).2 fun i sid hsid => ?_
  rw [duty_tabs] at hsid
  exact hsid

theorem distinct_step (w : World) (a : Action) (h : w.Distinct) : (w.step d py a).Distinct := by
  cases a with
  | connect i sid =>
    rw [step]
    split_ifs with hused
    · exact h
    · -- a new id is nobody else's
      have hnew : ∀ j, (w.tabs j).sid ≠ some sid := fun j hj =>
        hused (.inr (h.given j sid hj))
      have hcases : ∀ j sid', (({ w with sids := sid :: w.sids } : World).updateTab i
          (Tab.on { w.tabs i with sid := some sid, inbox := welcome d w.alive } .connect)
          |>.tabs j).sid = some sid' → (j = i ∧ sid' = sid) ∨ (w.tabs j).sid = some sid' := by
        intro j sid' hsid
        by_cases hj : j = i
        · subst hj
          rw [updateTab_same] at hsid
          exact .inl ⟨rfl, (Option.some_inj.mp hsid).symm⟩
        · rw [updateTab_of_ne _ hj] at hsid
          exact .inr hsid
      refine ⟨fun j sid' hsid => ?_, fun j k sid' hj hk => ?_⟩
      · rcases hcases j sid' hsid with ⟨-, rfl⟩ | hold
        · exact List.mem_cons_self
        · exact List.mem_cons_of_mem _ (h.given j sid' hold)
      · rcases hcases j sid' hj with ⟨rfl, rfl⟩ | hj' <;>
          rcases hcases k _ hk with ⟨rfl, hsid⟩ | hk'
        · rfl
        · exact absurd hk' (hnew k)
        · exact absurd (hsid ▸ hj') (hnew j)
        · exact h.injective j k sid' hj' hk'
  | disconnect i =>
    rw [step]
    split_ifs
    · exact distinct_updateTab h (.inl rfl)
    · exact h
  | replaceSocket i =>
    rw [step]
    split_ifs
    · exact h
    · exact distinct_updateTab h (.inr rfl)
  | reload i => exact distinct_updateTab h (.inl rfl)
  | read i =>
    rw [step]
    split
    · exact h
    · exact distinct_updateTab h (.inr rfl)
  | act i a => exact distinct_updateTab h (.inr rfl)
  | receive i devices =>
    rw [step]
    split
    · rename_i sid r outbox _ _
      exact distinct_duty py (distinct_updateTab h (t := { w.tabs i with outbox := outbox })
        (.inr rfl)) _
    · exact h
  | duty duty =>
    rw [step]
    split_ifs
    · exact distinct_duty py h duty
    · exact h

theorem distinct_run (actions : List Action) :
    (actions.foldl (step d py) (start server)).Distinct :=
  foldl_induction ⟨fun i sid h => absurd h (by simp [start]), fun i j sid h => absurd h
    (by simp [start])⟩ (distinct_step d py) actions

/-! ### Telling one page -/

theorem emit_nil (w : World) : w.emit [] = w := by
  simp only [emit, arriving, Tab.arrive, List.filter_nil, List.map_nil, List.append_nil]

/-- What is told to a room is told to the page whose id it is. -/
theorem emit_of_mem {w : World} (h : w.Distinct) {i : ℕ} {sid : String} (m : PageMessage)
    (hsid : (w.tabs i).sid = some sid) :
    w.emit [⟨m, some sid⟩] = w.updateTab i ((w.tabs i).arrive [m]) := by
  unfold emit updateTab
  congr 1
  funext j
  rw [arriving_singleton]
  by_cases hj : j = i
  · subst hj
    rw [Function.update_self, if_pos ⟨by rw [hsid]; rfl, .inr hsid.symm⟩]
  · rw [Function.update_of_ne hj, if_neg]
    · simp only [Tab.arrive, List.append_nil]
    · rintro ⟨-, hnone | hroom⟩
      · exact absurd hnone (by simp)
      · exact hj (h.injective j i sid hroom.symm hsid)

/-- What is told to a room is lost when nobody has its id. -/
theorem emit_of_gone {w : World} {sid : String} (m : PageMessage)
    (hgone : ∀ i, (w.tabs i).sid ≠ some sid) : w.emit [⟨m, some sid⟩] = w := by
  have htabs : (fun i => (w.tabs i).arrive (arriving [⟨m, some sid⟩] (w.tabs i))) = w.tabs := by
    funext i
    rw [arriving_singleton, if_neg]
    · simp only [Tab.arrive, List.append_nil]
    · rintro ⟨-, hnone | hroom⟩
      · exact absurd hnone (by simp)
      · exact hgone i hroom.symm
  rw [emit, htabs]

end World

end PageLink
