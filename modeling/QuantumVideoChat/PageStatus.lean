/-
What the pages show of the server (`website/client/static/app.js`, `middleware/events.py`,
`middleware/server_comms.py`).

The status of a page is followed ahead: as the page will show it once it has read the messages
that are in flight.

* `perform_status` — what the middleware may tell about the server;
* `status_sound` — a page that has read its messages shows the server as connected only while
  the middleware takes it to be alive;
* `status_agrees_iff` — the runs in which all pages show what the middleware knows.
-/
import QuantumVideoChat.PageLink

/-- Whether the page will show the server as connected once it has read its messages. -/
def Tab.status (t : Tab) : Bool :=
  t.inbox.foldl (fun b m => Page.statusAfter b (.message m)) t.page.serverConnected

namespace ServerComms

variable (uuid : UuidSource) (w : System)

/-- The health check does not notice the difference. -/
def SameHealth (w w' : System) : Prop := HealthChecks.SameConfiguration w.state w'.state

theorem closeClient_sameHealth : SameHealth w (closeClient uuid w) := by
  rw [closeClient]
  cases w.state.serverClient <;> exact ⟨rfl, rfl, rfl, rfl⟩

theorem connectAttempts_cases (sessionId : String) (attempts : List Attempt) :
    SameHealth w (connectAttempts uuid w sessionId attempts).1 ∧
      ((connectAttempts uuid w sessionId attempts).2 = [] ∨
        ∃ msg, (connectAttempts uuid w sessionId attempts).2
          = [{ event := .serverError msg }]) := by
  induction attempts with
  | nil => exact ⟨⟨rfl, rfl, rfl, rfl⟩, .inl rfl⟩
  | cons attempt attempts ih =>
    rw [connectAttempts]
    cases hattempt : attemptConnect uuid w sessionId attempt with
    | error exc =>
      dsimp only
      split_ifs
      · exact ⟨⟨rfl, rfl, rfl, rfl⟩, .inr ⟨_, rfl⟩⟩
      · exact ih
    | ok w' =>
      refine ⟨?_, .inl rfl⟩
      cases attempt with
      | fails exc => exact absurd hattempt (by simp [attemptConnect])
      | reaches sid roomId =>
        rw [attemptConnect] at hattempt
        split at hattempt
        · exact absurd hattempt (by simp)
        · split at hattempt
          · obtain rfl := Except.ok.inj hattempt
            exact ⟨rfl, rfl, rfl, rfl⟩
          · exact absurd hattempt (by simp)

theorem connectToSessionWs_cases (wsEndpoint : List PyValue) (sessionId : String)
    (attempts : Fin wsConnectMaxAttempts → Attempt) :
    SameHealth w (connectToSessionWs uuid w wsEndpoint sessionId attempts).1 ∧
      ((connectToSessionWs uuid w wsEndpoint sessionId attempts).2 = [] ∨
        ∃ msg, (connectToSessionWs uuid w wsEndpoint sessionId attempts).2
          = [{ event := .serverError msg }]) := by
  unfold connectToSessionWs
  split
  · obtain ⟨hhost, hport, halive, hgreenlet⟩ := closeClient_sameHealth uuid w
    obtain ⟨⟨hhost', hport', halive', hgreenlet'⟩, hemissions⟩ :=
      connectAttempts_cases uuid (closeClient uuid w) sessionId (List.ofFn attempts)
    exact ⟨⟨hhost'.trans hhost, hport'.trans hport, halive'.trans halive,
      hgreenlet'.trans hgreenlet⟩, hemissions⟩
  · exact ⟨⟨rfl, rfl, rfl, rfl⟩, .inl rfl⟩

theorem createUser_cases (sid : String) (draws : IdDraws) (delivery : Delivery) :
    SameHealth w (createUser w sid draws delivery).1 ∧
      ((∃ msg, (createUser w sid draws delivery).2 = [⟨.serverError msg, some sid⟩]) ∨
        ∃ userId, (createUser w sid draws delivery).2 = [⟨.userRegistered userId, some sid⟩]) := by
  unfold createUser
  split_ifs
  · exact ⟨⟨rfl, rfl, rfl, rfl⟩, .inl ⟨_, rfl⟩⟩
  · split
    · exact ⟨⟨rfl, rfl, rfl, rfl⟩, .inl ⟨_, rfl⟩⟩
    · split_ifs
      · exact ⟨⟨rfl, rfl, rfl, rfl⟩, .inl ⟨_, rfl⟩⟩
      · exact ⟨⟨rfl, rfl, rfl, rfl⟩, .inr ⟨_, rfl⟩⟩

theorem leaveRoom_sameHealth (delivery : Delivery) (answer : ClientAnswer) :
    SameHealth w (leaveRoom uuid w delivery answer) := by
  rw [leaveRoom]
  split_ifs
  · exact closeClient_sameHealth uuid w
  · exact closeClient_sameHealth uuid w

end ServerComms

namespace PageLink

open Transition ServerComms

namespace World

/-! ### What the middleware tells about the server -/

/-- The message says nothing about the server. -/
def IsQuiet (m : PageMessage) : Prop := ∀ b, Page.statusAfter b (.message m) = b

/-- How a duty may change `server_alive`, and what the pages are told then. -/
inductive StatusMove (alive : Bool) : Bool → List PageEmission → Prop
  | quiet {emissions : List PageEmission} (h : ∀ e ∈ emissions, IsQuiet e.message) :
      StatusMove alive alive emissions
  | error (msg : String) (room : Option String) :
      StatusMove alive alive [⟨.serverError msg, room⟩]
  | up (room : Option String) : StatusMove alive true [⟨.serverConnected, room⟩]
  | down (msg : String) (h : alive = true) : StatusMove alive false [⟨.serverError msg, none⟩]

section

variable {alive alive' : Bool} {emissions : List PageEmission}

theorem statusMove_nil (h : alive' = alive) : StatusMove alive alive' [] := by
  subst h
  exact .quiet fun e he => absurd he List.not_mem_nil

/-- At most one error is reported, and `server_alive` stays. -/
theorem statusMove_report {es : List BrowserEmission} (halive : alive' = alive)
    (h : es = [] ∨ ∃ msg room, es = [⟨.serverError msg, room⟩]) :
    StatusMove alive alive' (es.map BrowserEmission.toPage) := by
  rcases h with rfl | ⟨msg, room, rfl⟩
  · exact statusMove_nil halive
  · subst halive
    exact .error msg room

theorem healthCheck_status (state : MiddlewareState) (consecutiveFailures : ℕ) (ok : Bool) :
    StatusMove state.serverAlive
      (HealthChecks.healthCheck state consecutiveFailures ok).1.serverAlive
      ((HealthChecks.healthCheck state consecutiveFailures ok).2.2.map BrowserEmission.toPage) := by
  by_cases hhost : state.serverHost = ""
  · rw [HealthChecks.healthCheck, if_pos hhost]
    split_ifs with halive
    · exact .down _ halive
    · exact statusMove_nil rfl
  · rcases HealthChecks.healthCheck_cases hhost consecutiveFailures ok with
      ⟨-, hstate, -, ⟨halive, hnil⟩ | hup⟩ | ⟨-, -, hcall⟩ | ⟨-, -, halive, hcall⟩
    · rw [hstate, hnil]
      exact statusMove_nil halive.symm
    · rw [hstate, hup]
      exact .up none
    · rw [hcall]
      exact statusMove_nil rfl
    · rw [hcall]
      exact .down _ halive

end

section

variable (py : Python) (w : World)

theorem finishTask_status {comms comms' : System} {task : Task} {outcome : Outcome}
    {es : List BrowserEmission} (h : finishTask py comms task outcome = some (comms', es)) :
    StatusMove comms.state.serverAlive comms'.state.serverAlive
      (es.map BrowserEmission.toPage) := by
  unfold finishTask at h
  split at h
  case h_1 sid host port outcome =>
    simp only [Option.some.injEq, Prod.mk.injEq] at h
    obtain ⟨rfl, rfl⟩ := h
    rcases HealthChecks.configureServer_cases comms.state sid host port outcome with
      ⟨-, -, hcall⟩ | ⟨-, halive, -, -, hreport⟩
    · rw [hcall]
      exact .up (some sid)
    · exact statusMove_report halive (hreport.imp_right fun ⟨msg, hmsg⟩ => ⟨msg, some sid, hmsg⟩)
  case h_2 sid draws delivery =>
    simp only [Option.some.injEq] at h
    obtain ⟨hsame, ⟨msg, hmsg⟩ | ⟨userId, huser⟩⟩ := createUser_cases comms sid draws delivery
    · rw [h] at hsame hmsg
      exact statusMove_report hsame.2.2.1 (.inr ⟨msg, some sid, hmsg⟩)
    · rw [h] at hsame huser
      obtain rfl : es = _ := huser
      rw [show comms'.state.serverAlive = comms.state.serverAlive from hsame.2.2.1]
      exact .quiet fun e he => by
        rw [List.mem_singleton.mp he]
        exact fun b => rfl
  case h_3 sid userId peerId delivery answer attempts =>
    split at h
    rename_i server response hexchange
    split at h
    · simp only [Option.some.injEq, Prod.mk.injEq] at h
      obtain ⟨rfl, rfl⟩ := h
      exact statusMove_report rfl (.inr ⟨_, _, rfl⟩)
    · simp only [Option.some.injEq, Prod.mk.injEq] at h
      obtain ⟨rfl, rfl⟩ := h
      exact statusMove_nil rfl
    · rename_i wsEndpoint sessionId hsession
      simp only [Option.some.injEq] at h
      obtain ⟨hsame, hreport⟩ := connectToSessionWs_cases py.uuid
        { comms with server := server } wsEndpoint sessionId attempts
      rw [h] at hsame hreport
      exact statusMove_report hsame.2.2.1
        (hreport.imp_right fun h => h.imp fun msg hmsg => ⟨none, hmsg⟩)
  case h_4 delivery answer =>
    simp only [Option.some.injEq, Prod.mk.injEq] at h
    obtain ⟨rfl, rfl⟩ := h
    exact statusMove_nil (leaveRoom_sameHealth py.uuid comms delivery answer).2.2.1
  case h_5 => exact absurd h (by simp)

/-- The handler of a request tells at most about an error. -/
theorem receive_status (sid : String) (devices : List DeviceInfo) (r : PageRequest) :
    StatusMove w.alive (w.receive sid devices r).1.alive (w.receive sid devices r).2 := by
  have hquiet : ∀ (m : PageMessage), IsQuiet m →
      StatusMove w.alive w.alive [⟨m, some sid⟩] := fun m hm => .quiet fun e he => by
    rw [List.mem_singleton.mp he]
    exact hm
  cases r with
  | configureServer host port =>
    rw [receive]
    split_ifs
    · exact .error _ _
    · exact statusMove_nil rfl
  | createUser =>
    rw [receive]
    split_ifs
    · exact .error _ _
    · exact statusMove_nil rfl
  | joinRoom peerId =>
    rw [receive]
    rcases deliver_joinRoom w.comms.state peerId with ⟨msg, h⟩ | ⟨fields, -, h⟩ <;> rw [h]
    · exact .error msg (some sid)
    · exact statusMove_nil rfl
  | listCameras => exact hquiet _ fun b => rfl
  | listAudioDevices => exact hquiet _ fun b => rfl
  | _ => exact statusMove_nil rfl

theorem perform_status (d : Duty) :
    StatusMove w.alive (w.perform py d).1.alive (w.perform py d).2 := by
  cases d with
  | receive sid devices r => exact w.receive_status sid devices r
  | finish k outcome =>
    rw [perform]
    split
    · exact statusMove_nil rfl
    · split
      · exact statusMove_nil rfl
      · rename_i hfinish
        exact finishTask_status py hfinish
  | ping ok =>
    rw [perform]
    split_ifs
    · exact healthCheck_status w.comms.state w.consecutiveFailures ok
    · exact statusMove_nil rfl
  | roomId roomId =>
    exact .quiet fun e he => by
      rw [List.mem_singleton.mp he]
      exact fun b => rfl
  | peerConnection wsEndpoint sessionId attempts =>
    rw [perform, restPeerConnection]
    split_ifs
    · exact statusMove_nil rfl
    · obtain ⟨hsame, hreport⟩ := connectToSessionWs_cases py.uuid w.comms wsEndpoint sessionId
        attempts
      exact statusMove_report hsame.2.2.1
        (hreport.imp_right fun h => h.imp fun msg hmsg => ⟨none, hmsg⟩)
  | peerDisconnected peerId =>
    have halive : (closeClient py.uuid w.comms).state.serverAlive = w.alive :=
      (closeClient_sameHealth py.uuid w.comms).2.2.1
    show StatusMove w.alive (closeClient py.uuid w.comms).state.serverAlive _
    rw [halive]
    exact .quiet fun e he => by
      rw [List.mem_singleton.mp he]
      exact fun b => rfl
  | server a => exact statusMove_nil rfl

/-! ### What a page shows -/

section

variable {t : Tab} {alive alive' : Bool} {emissions : List PageEmission}

theorem status_arrive (messages : List PageMessage) :
    (t.arrive messages).status
      = messages.foldl (fun b m => Page.statusAfter b (.message m)) t.status :=
  List.foldl_append

theorem status_arrive_quiet (h : ∀ e ∈ emissions, IsQuiet e.message) :
    (t.arrive (arriving emissions t)).status = t.status := by
  rw [status_arrive]
  have hquiet : ∀ m ∈ arriving emissions t, IsQuiet m := by
    intro m hm
    obtain ⟨e, he, rfl⟩ := List.mem_map.mp hm
    exact h e (List.mem_filter.mp he).1
  generalize arriving emissions t = messages at hquiet
  generalize t.status = b
  induction messages with
  | nil => rfl
  | cons m messages ih =>
    rw [List.foldl_cons, hquiet m (by simp) b]
    exact ih fun m' hm' => hquiet m' (by simp [hm'])

theorem status_arrive_singleton (m : PageMessage) (room : Option String) :
    (t.arrive (arriving [⟨m, room⟩] t)).status
      = if Addresses room t then Page.statusAfter t.status (.message m) else t.status := by
  rw [status_arrive, arriving_singleton]
  split_ifs <;> rfl

theorem status_read {m : PageMessage} {inbox : List PageMessage} (h : t.inbox = m :: inbox) :
    (Tab.on { t with inbox := inbox } (.message m)).status = t.status := by
  show inbox.foldl _ (t.page.step (.message m)).serverConnected
    = t.inbox.foldl _ t.page.serverConnected
  rw [h, List.foldl_cons, (t.page.effect_on (.message m)).serverConnected]

theorem status_act (a : Page.Action) : (t.on (.action a)).status = t.status := by
  show t.inbox.foldl _ (t.page.step (.action a)).serverConnected = _
  rw [(t.page.effect_on (.action a)).serverConnected]
  rfl

end

/-- What a page shows is true, and it knows whether it has a connection. -/
structure SoundTab (alive : Bool) (t : Tab) : Prop where
  status : t.status = true → alive = true
  closed : t.sid = none → t.inbox = [] ∧ t.page.serverConnected = false
  socket : t.page.socketConnected = t.sid.isSome

/-! ### The status of the server -/

section

variable {d : Defaults} {t t' : Tab} {alive alive' : Bool} {emissions : List PageEmission}

theorem soundTab_arrive (h : SoundTab alive t) (hmove : StatusMove alive alive' emissions) :
    SoundTab alive' (t.arrive (arriving emissions t)) where
  closed hsid := by
    obtain ⟨hinbox, hserver⟩ := h.closed hsid
    refine ⟨?_, hserver⟩
    show t.inbox ++ arriving emissions t = []
    rw [hinbox, arriving_of_closed (show t.sid = none from hsid)]
    rfl
  socket := h.socket
  status hstatus := by
    cases hmove with
    | quiet hquiet =>
      rw [status_arrive_quiet hquiet] at hstatus
      exact h.status hstatus
    | error msg room =>
      rw [status_arrive_singleton] at hstatus
      split_ifs at hstatus
      · exact absurd hstatus (by simp [Page.statusAfter])
      · exact h.status hstatus
    | up room => rfl
    | down msg halive =>
      -- the broadcast reaches every page that has a connection
      rw [status_arrive_singleton] at hstatus
      split_ifs at hstatus with haddressed
      · exact absurd hstatus (by simp [Page.statusAfter])
      · have hsid : t.sid = none := by
          by_contra hsome
          exact haddressed ⟨Option.isSome_iff_ne_none.mpr hsome, .inl rfl⟩
        obtain ⟨hinbox, hserver⟩ := h.closed hsid
        rw [Tab.status, hinbox, List.foldl_nil, hserver] at hstatus
        exact absurd hstatus (by simp)

theorem soundTab_local (h : SoundTab alive t) (hlocal : Local d alive t t') :
    SoundTab alive t' := by
  cases hlocal with
  | connect sid hsid =>
    refine ⟨fun hstatus => ?_, fun hnone => absurd hnone (by simp [Tab.on]), ?_⟩
    · cases alive with
      | true => rfl
      | false =>
        -- only a server that is alive is announced
        have hserver : (t.page.step .connect).serverConnected = false :=
          (t.page.effect_on .connect).serverConnected.trans (h.closed hsid).2
        have hwelcome : (Tab.on { t with sid := some sid, inbox := welcome d false }
            .connect).status = (t.page.step .connect).serverConnected := rfl
        rw [hwelcome, hserver] at hstatus
        exact absurd hstatus (by simp)
    · exact (t.page.effect_on .connect).socketConnected
  | disconnect hsid =>
    exact ⟨fun hstatus => absurd hstatus (by simp [Tab.status, Tab.on, Page.step, Page.on,
      Page.onDisconnect, Page.render, Page.rendered]), fun _ => ⟨rfl, rfl⟩, rfl⟩
  | replaceSocket hsid => exact ⟨h.status, h.closed, h.socket⟩
  | reload => exact ⟨fun hstatus => absurd hstatus (by simp [Tab.status]), fun _ => ⟨rfl, rfl⟩, rfl⟩
  | read m inbox hinbox =>
    refine ⟨fun hstatus => h.status (status_read hinbox ▸ hstatus), fun hsid => ?_, ?_⟩
    · exact absurd ((h.closed hsid).1.symm.trans hinbox) (by simp)
    · exact (t.page.effect_on (.message m)).socketConnected.trans h.socket
  | act a =>
    refine ⟨fun hstatus => h.status (status_act a ▸ hstatus), fun hsid => ⟨(h.closed hsid).1, ?_⟩,
      (t.page.effect_on (.action a)).socketConnected.trans h.socket⟩
    exact (t.page.effect_on (.action a)).serverConnected.trans (h.closed hsid).2

end

def Sound (w : World) : Prop := ∀ i, SoundTab w.alive (w.tabs i)

theorem sound_duty (h : w.Sound) (duty : Duty) : (w.duty py duty).Sound := by
  intro i
  rw [duty_tabs, duty_alive]
  exact soundTab_arrive (h i) (w.perform_status py duty)

/-- A page with a sound tab may be updated. -/
theorem sound_updateTab (h : w.Sound) {i : ℕ} {t : Tab} (ht : SoundTab w.alive t) :
    (w.updateTab i t).Sound := by
  intro j
  by_cases hj : j = i
  · subst hj
    rw [updateTab_same]
    exact ht
  · rw [updateTab_of_ne w hj]
    exact h j

theorem sound_step (d : Defaults) (w : World) (a : Action) (h : w.Sound) :
    (w.step d py a).Sound := by
  rcases w.step_cases py d a with hstep | ⟨i, t, hlocal, sids, hstep⟩ | ⟨duty, -, -, hstep⟩ |
    ⟨i, devices, sid, r, outbox, -, -, -, hstep⟩ <;> rw [hstep]
  · exact h
  · exact sound_updateTab { w with sids := sids } h (soundTab_local (h i) hlocal)
  · exact sound_duty py w h duty
  · refine sound_duty py _ (sound_updateTab w h ?_) _
    exact ⟨(h i).status, (h i).closed, (h i).socket⟩

end

variable (d : Defaults) (py : Python) (server : Server) (w : World)

theorem sound_run (actions : List Action) :
    (actions.foldl (step d py) (start server)).Sound :=
  foldl_induction (fun _ => ⟨by simp [Tab.status, start], fun _ => ⟨rfl, rfl⟩, rfl⟩)
    (fun w a => sound_step py d w a) actions

/-- **The pages never claim too much.**  Whatever the order of events and messages, a page that
has read its messages shows the server as connected only while it has a connection itself and
the middleware takes the server to be alive. -/
theorem status_sound (actions : List Action) (i : ℕ) :
    let w := actions.foldl (step d py) (start server)
    (w.tabs i).status = true → (w.tabs i).sid.isSome = true ∧ w.alive = true := by
  intro w hstatus
  have hsound := sound_run d py server actions i
  refine ⟨?_, hsound.status hstatus⟩
  by_contra hclosed
  obtain ⟨hinbox, hserver⟩ := hsound.closed (by simpa using hclosed)
  rw [Tab.status, hinbox, List.foldl_nil, hserver] at hstatus
  exact absurd hstatus (by simp)

/-! ### When the pages agree with the middleware -/

/-- The pages with a connection show what the middleware knows, once they have read it. -/
def Agrees (w : World) : Prop :=
  ∀ i, (w.tabs i).sid.isSome = true → (w.tabs i).status = w.alive

/-- While the server is alive no page is told about an error, and when it comes up every page
is told. -/
def Announces (py : Python) (w : World) (duty : Duty) : Prop :=
  ∀ i, (w.tabs i).sid.isSome = true →
    ((w.perform py duty).1.alive = true → ∀ msg room,
      ⟨.serverError msg, room⟩ ∈ (w.perform py duty).2 → ¬ Addresses room (w.tabs i)) ∧
    (w.alive = false → (w.perform py duty).1.alive = true → ∃ room,
      ⟨.serverConnected, room⟩ ∈ (w.perform py duty).2 ∧ Addresses room (w.tabs i))

/-- The step informs the pages. -/
def Informs (py : Python) (w : World) : Action → Prop
  | .receive i devices =>
    match (w.tabs i).sid, (w.tabs i).outbox with
    | some sid, r :: outbox =>
      Announces py (w.updateTab i { w.tabs i with outbox := outbox }) (.receive sid devices r)
    | _, _ => True
  | .duty duty => duty.isOwn = true → Announces py w duty
  | _ => True

theorem agrees_duty_iff (h : w.Agrees) (duty : Duty) :
    (w.duty py duty).Agrees ↔ Announces py w duty := by
  rw [Agrees, Announces]
  refine forall_congr' fun i => ?_
  rw [duty_tabs, duty_alive]
  refine forall_congr' fun hsid => ?_
  have hagrees := h i hsid
  have hmove := w.perform_status py duty
  generalize (w.perform py duty).1.alive = alive' at hmove ⊢
  generalize (w.perform py duty).2 = emissions at hmove ⊢
  cases hmove with
  | quiet hquiet =>
    rw [status_arrive_quiet hquiet]
    refine iff_of_true hagrees ⟨fun _ msg room hmem => ?_, fun hdown hup => ?_⟩
    · exact absurd (hquiet _ hmem true) (by simp [Page.statusAfter])
    · exact absurd (hdown.symm.trans hup) (by simp)
  | error msg room =>
    rw [status_arrive_singleton, hagrees]
    simp only [List.mem_singleton, PageEmission.mk.injEq, PageMessage.serverError.injEq,
      Page.statusAfter]
    cases w.alive <;> simp
  | up room =>
    rw [status_arrive_singleton, hagrees]
    simp only [List.mem_singleton, PageEmission.mk.injEq, Page.statusAfter]
    cases w.alive <;> simp
  | down msg halive =>
    rw [status_arrive_singleton, if_pos ⟨hsid, .inl rfl⟩]
    simp [Page.statusAfter]

theorem agrees_local {w : World} (hsound : w.Sound) (h : w.Agrees) {i : ℕ} {t : Tab}
    (hlocal : Local d w.alive (w.tabs i) t) (sids : List String) :
    ({ w with sids := sids }.updateTab i t).Agrees := by
  intro j hsid
  by_cases hj : j = i
  · subst hj
    rw [updateTab_same] at hsid ⊢
    cases hlocal with
    | connect sid hnone =>
      have hserver : ((w.tabs j).page.step .connect).serverConnected = false :=
        ((w.tabs j).page.effect_on .connect).serverConnected.trans ((hsound j).closed hnone).2
      show (welcome d w.alive).foldl _ ((w.tabs j).page.step .connect).serverConnected = w.alive
      rw [hserver]
      cases w.alive <;> rfl
    | disconnect => exact absurd hsid (by simp [Tab.on])
    | replaceSocket hnone =>
      have hsome : (w.tabs j).sid.isSome = true := hsid
      exact absurd (hnone ▸ hsome) (by simp)
    | reload => exact absurd hsid (by simp)
    | read m inbox hinbox => exact (status_read hinbox).trans (h j hsid)
    | act a => exact (status_act a).trans (h j hsid)
  · rw [updateTab_of_ne _ hj] at hsid ⊢
    exact h j hsid

/-- What happens in the pages alone is in order. -/
theorem agrees_step {w : World} (hsound : w.Sound) (h : w.Agrees) {a : Action}
    (hduty : ∀ duty, a ≠ .duty duty) (hreceive : ∀ i devices, a ≠ .receive i devices) :
    (w.step d py a).Agrees := by
  rcases w.step_cases py d a with hstep | ⟨i, t, hlocal, sids, hstep⟩ | ⟨duty, ha, -⟩ |
    ⟨i, devices, _, _, _, ha, -⟩
  · rwa [hstep]
  · rw [hstep]
    exact agrees_local d hsound h hlocal sids
  · exact absurd ha (hduty duty)
  · exact absurd ha (hreceive i devices)

theorem agrees_step_iff (w : World) (a : Action) (hsound : w.Sound) (h : w.Agrees) :
    (w.step d py a).Agrees ↔ Informs py w a := by
  cases a with
  | receive i devices =>
    rw [step, Informs]
    cases (w.tabs i).sid with
    | none => exact iff_of_true h trivial
    | some sid =>
      cases (w.tabs i).outbox with
      | nil => exact iff_of_true h trivial
      | cons r outbox =>
        -- taking the request from the queue shows on no page
        refine agrees_duty_iff py _ (fun j hj => ?_) _
        by_cases hji : j = i
        · subst hji
          rw [updateTab_same] at hj ⊢
          exact h j hj
        · rw [updateTab_of_ne _ hji] at hj ⊢
          exact h j hj
  | duty duty =>
    rw [step, Informs]
    split_ifs with hown
    · rw [agrees_duty_iff py w h, forall_prop_of_true hown]
    · exact iff_of_true h fun htrue => absurd htrue hown
  | _ => exact iff_of_true (agrees_step d py hsound h (by simp) (by simp)) trivial

/-- **When all pages show what the middleware knows.**  In every state of a run the pages with a
connection agree with the middleware, exactly when no page is told about an error while the
server is alive, and every page is told when the server comes up. -/
theorem status_agrees_iff (actions : List Action) :
    Throughout (step d py) Agrees (start server) actions ↔
      Along (step d py) (Informs py) (start server) actions :=
  throughout_iff_along (fun w a => sound_step py d w a)
    (fun w a hsound h => agrees_step_iff d py w a hsound h)
    (sound_run d py server []) (fun _ hsid => absurd hsid (by simp [start])) actions

end World

end PageLink
