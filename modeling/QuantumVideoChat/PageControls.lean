/-
What the controls of a page achieve (`website/client/static/app.js`, `middleware/events.py`,
`middleware/video.py`, `middleware/audio.py`).

* `switch_agrees_iff` — the runs in which the camera and the microphone are as a page shows them;
* `join_never_succeeds` — every attempt of a page to join ends with an error that it is told;
* `offline_without_auto_connect` — pages connect to a server only where they do so by themselves.
-/
import QuantumVideoChat.PageStatus

namespace PageLink

open Transition ServerComms

namespace World

variable (d : Defaults) (py : Python) (server : Server)

/-! ### Camera and microphone -/

/-- `camera_enabled` and `muted`. -/
def setting (w : World) : Page.Switch → Bool
  | .camera => w.cameraEnabled
  | .mute => w.muted

/-- The sources of `VideoThread._run` and `AudioThread._run`. -/
inductive Source
  | camera
  | staticNoise
  | microphone
  | silence
  deriving DecidableEq

def videoSource (w : World) : Source := if w.cameraEnabled then .camera else .staticNoise

def audioSource (w : World) : Source := if w.muted then .silence else .microphone

/-- The switch will be as page `i` shows it, once what it has sent has been handled. -/
def SwitchAgrees (s : Page.Switch) (i : ℕ) (w : World) : Prop :=
  Page.switchAfter s (w.setting s) (w.tabs i).outbox = (w.tabs i).page.shows s

/-- The page shows the switch as it is now. -/
def InForce (s : Page.Switch) (i : ℕ) (w : World) : Prop :=
  w.setting s = (w.tabs i).page.shows s

/-- Nothing that page `i` has asked for is lost while it makes a difference, the page is not
loaded anew with the switch in another position, and no other page turns it, unless to where
page `i` shows it or to a position that a request of page `i` under way replaces. -/
def KeepsSwitch (s : Page.Switch) (i : ℕ) (w : World) : Action → Prop
  | .disconnect j => j = i → (w.tabs i).sid.isSome = true → InForce s i w
  | .replaceSocket j => j = i → (w.tabs i).sid = none → InForce s i w
  | .reload j => j = i → w.setting s = ({} : Page).shows s
  | .receive j _ =>
    match (w.tabs j).sid, (w.tabs j).outbox with
    | some _, r :: _ => j ≠ i → ∀ b, Page.position r s = some b →
        Page.switchAfter s b (w.tabs i).outbox = (w.tabs i).page.shows s
    | _, _ => True
  | _ => True

variable {s : Page.Switch} {i : ℕ} {w : World}

theorem setting_receive (sid : String) (devices : List DeviceInfo) (r : PageRequest) :
    (w.receive sid devices r).1.setting s = (Page.position r s).getD (w.setting s) := by
  cases r with
  | configureServer | createUser =>
    rw [receive]
    split_ifs <;> cases s <;> rfl
  | joinRoom peerId =>
    rw [receive]
    split <;> cases s <;> rfl
  | _ => cases s <;> rfl

theorem setting_perform {duty : Duty} (hown : duty.isOwn = true) :
    (w.perform py duty).1.setting s = w.setting s := by
  cases duty with
  | receive => exact absurd hown (by simp [Duty.isOwn])
  | finish k outcome =>
    rw [perform]
    split
    · rfl
    · split <;> cases s <;> rfl
  | ping ok =>
    rw [perform]
    split_ifs <;> cases s <;> rfl
  | _ => cases s <;> rfl

theorem setting_updateTab (j : ℕ) (t : Tab) : (w.updateTab j t).setting s = w.setting s := by
  cases s <;> rfl

/-- A change of another page does not matter. -/
theorem switchAgrees_updateTab_of_ne {j : ℕ} (h : i ≠ j) (t : Tab) :
    SwitchAgrees s i (w.updateTab j t) ↔ SwitchAgrees s i w := by
  rw [SwitchAgrees, SwitchAgrees, setting_updateTab, updateTab_of_ne w h]

theorem switchAgrees_updateTab (t : Tab) :
    SwitchAgrees s i (w.updateTab i t) ↔
      Page.switchAfter s (w.setting s) t.outbox = t.page.shows s := by
  rw [SwitchAgrees, setting_updateTab, updateTab_same]

/-- What the page does itself it asks for. -/
theorem switchAgrees_on {t : Tab} (e : PageEvent)
    (h : Page.switchAfter s (w.setting s) t.outbox = t.page.shows s) :
    Page.switchAfter s (w.setting s) (t.on e).outbox = (t.on e).page.shows s := by
  show Page.switchAfter s (w.setting s) (t.outbox ++ (t.page.on e).2) = (t.page.step e).shows s
  rw [Page.switchAfter_append, h, (t.page.effect_on e).switches s]

theorem switchAgrees_duty {duty : Duty} :
    SwitchAgrees s i (w.duty py duty) ↔
      Page.switchAfter s ((w.perform py duty).1.setting s) (w.tabs i).outbox
        = (w.tabs i).page.shows s := by
  have hsetting : (w.duty py duty).setting s = (w.perform py duty).1.setting s := by
    cases s <;> rfl
  rw [SwitchAgrees, hsetting, duty_tabs]
  rfl

theorem switchAgrees_receive_iff {j : ℕ} {r : PageRequest} {outbox : List PageRequest}
    (houtbox : (w.tabs j).outbox = r :: outbox) (sid : String) (devices : List DeviceInfo)
    (h : SwitchAgrees s i w) :
    SwitchAgrees s i ((w.updateTab j { w.tabs j with outbox := outbox }).duty py
        (.receive sid devices r)) ↔
      (j ≠ i → ∀ b, Page.position r s = some b →
        Page.switchAfter s b (w.tabs i).outbox = (w.tabs i).page.shows s) := by
  rw [switchAgrees_duty, perform, setting_receive, setting_updateTab]
  by_cases hij : j = i
  · subst hij
    rw [updateTab_same]
    -- the request is the next one that counts
    refine iff_of_true ?_ fun hne => absurd rfl hne
    rw [SwitchAgrees, houtbox] at h
    exact h
  · rw [updateTab_of_ne w (Ne.symm hij)]
    cases hposition : Page.position r s with
    | none => exact iff_of_true h fun _ b hb => absurd hb (by simp)
    | some b =>
      rw [Option.getD_some]
      refine ⟨fun hb _ b' hb' => ?_, fun hb => hb hij b rfl⟩
      rwa [← Option.some_inj.mp hb']

theorem switchAgrees_step_iff (w : World) (a : Action) (h : SwitchAgrees s i w) :
    SwitchAgrees s i (w.step d py a) ↔ KeepsSwitch s i w a := by
  have hother : ∀ {j : ℕ}, j ≠ i → ∀ t, SwitchAgrees s i (w.updateTab j t) :=
    fun hij t => (switchAgrees_updateTab_of_ne (Ne.symm hij) t).mpr h
  cases a with
  | connect j sid =>
    rw [step]
    split_ifs
    · exact iff_of_true h trivial
    · refine iff_of_true ?_ trivial
      by_cases hij : i = j
      · subst hij
        exact (switchAgrees_updateTab (w := { w with sids := sid :: w.sids }) _).mpr
          (switchAgrees_on (w := { w with sids := sid :: w.sids }) .connect
            (by cases s <;> exact h))
      · exact (switchAgrees_updateTab_of_ne (w := { w with sids := sid :: w.sids }) hij _).mpr
          (by cases s <;> exact h)
  | disconnect j =>
    rw [step, KeepsSwitch]
    split_ifs with hopen
    · by_cases hij : j = i
      · subst hij
        rw [switchAgrees_updateTab, forall_prop_of_true rfl, forall_prop_of_true hopen, InForce]
        cases s <;> exact Iff.rfl
      · exact iff_of_true (hother hij _) fun heq => absurd heq hij
    · refine iff_of_true h ?_
      rintro rfl hsome
      exact absurd hsome hopen
  | replaceSocket j =>
    rw [step, KeepsSwitch]
    split_ifs with hopen
    · refine iff_of_true h ?_
      rintro rfl hnone
      exact absurd hopen (by simp [hnone])
    · by_cases hij : j = i
      · subst hij
        have hnone : (w.tabs j).sid = none := by simpa using hopen
        rw [switchAgrees_updateTab, forall_prop_of_true rfl, forall_prop_of_true hnone]
        exact Iff.rfl
      · exact iff_of_true (hother hij _) fun heq => absurd heq hij
  | reload j =>
    rw [step, KeepsSwitch]
    by_cases hij : j = i
    · subst hij
      rw [switchAgrees_updateTab, forall_prop_of_true rfl]
      exact Iff.rfl
    · exact iff_of_true (hother hij _) fun heq => absurd heq hij
  | read j =>
    rw [step]
    refine iff_of_true ?_ trivial
    split
    · exact h
    · rename_i m inbox hinbox
      by_cases hij : j = i
      · subst hij
        exact (switchAgrees_updateTab _).mpr (switchAgrees_on (.message m) h)
      · exact hother hij _
  | act j a =>
    rw [step]
    refine iff_of_true ?_ trivial
    by_cases hij : j = i
    · subst hij
      exact (switchAgrees_updateTab _).mpr (switchAgrees_on (.action a) h)
    · exact hother hij _
  | receive j devices =>
    rw [step, KeepsSwitch]
    cases hsid : (w.tabs j).sid with
    | none => exact iff_of_true h trivial
    | some sid =>
      cases houtbox : (w.tabs j).outbox with
      | nil => exact iff_of_true h trivial
      | cons r outbox => simpa [hsid] using switchAgrees_receive_iff py houtbox sid devices h
  | duty duty =>
    rw [step]
    refine iff_of_true ?_ trivial
    split_ifs with hown
    · rw [switchAgrees_duty, setting_perform py hown]
      exact h
    · exact h

/-- **When a page shows the truth about camera and microphone.**  Once what the page has sent has
been handled the switch is as the page shows it, in every state of a run, exactly when no request
of the page is lost while it makes a difference, the page is not loaded anew with the switch in
another position, and no other page turns it away from what the page shows or has yet to ask for.
In such a run a page that shows the microphone as muted, with nothing under way, has the
middleware send silence, and one that shows the camera as off has it send noise. -/
theorem switch_agrees_iff (s : Page.Switch) (i : ℕ) (actions : List Action) :
    (Throughout (step d py) (SwitchAgrees s i) (start server) actions ↔
      Along (step d py) (KeepsSwitch s i) (start server) actions) ∧
    (Along (step d py) (KeepsSwitch .mute i) (start server) actions →
      Throughout (step d py) (fun w => (w.tabs i).outbox = [] → (w.tabs i).page.muted = true →
        w.audioSource = .silence) (start server) actions) ∧
    (Along (step d py) (KeepsSwitch .camera i) (start server) actions →
      Throughout (step d py) (fun w => (w.tabs i).outbox = [] →
        (w.tabs i).page.cameraOn = false → w.videoSource = .staticNoise) (start server)
        actions) := by
  have hiff : ∀ s, Throughout (step d py) (SwitchAgrees s i) (start server) actions ↔
      Along (step d py) (KeepsSwitch s i) (start server) actions := fun s =>
    throughout_iff_along (I := fun _ => True) (fun _ _ _ => trivial)
      (fun w a _ h => switchAgrees_step_iff d py w a h) trivial (by cases s <;> rfl) actions
  refine ⟨hiff s, fun halong => ((hiff .mute).mpr halong).mono fun w hagrees houtbox hmuted => ?_,
    fun halong => ((hiff .camera).mpr halong).mono fun w hagrees houtbox hoff => ?_⟩
  · rw [SwitchAgrees, houtbox] at hagrees
    exact if_pos (hagrees.trans hmuted)
  · rw [SwitchAgrees, houtbox] at hagrees
    have hdisabled : w.cameraEnabled = false := hagrees.trans hoff
    exact if_neg (by rw [hdisabled]; decide)

/-! ### Joining -/

/-- The server turns an object down as the peer, and stays as it is. -/
theorem peerConnection_object (s : Server) (userId : String) (fields : List (String × Json))
    (answer : ClientAnswer) :
    (JsonRoutes.peerConnection py.str py.same py.uuid s (joinBody userId (.obj fields)) answer).1
        = s ∧
      400 ≤ (JsonRoutes.peerConnection py.str py.same py.uuid s (joinBody userId (.obj fields))
        answer).2.status := by
  rcases JsonRoutes.peerConnection_eq py.str py.same py.uuid s (joinBody userId (.obj fields))
    answer with ⟨mapping, user, peerId, hbody, -, hpeer, hroute⟩ | hrefused
  · simp only [joinBody, JsonRoutes.Body.json.injEq, Json.obj.injEq] at hbody
    have hobject : peerId = .obj fields := by
      rw [← hbody] at hpeer
      exact (Option.some_inj.mp hpeer).symm
    rw [hroute]
    refine JsonRoutes.connectIds_refused py.str py.same py.uuid s ?_ answer
    rintro ⟨-, p, hstring⟩
    exact absurd (hobject.symm.trans hstring) (by simp)
  · exact hrefused

/-- An error status is an error for the browser. -/
theorem joinResponse_error {response : Response} (h : 400 ≤ response.status) :
    ∃ msg, joinResponse (.ok response) = .error msg := by
  obtain ⟨status, body⟩ := response
  have hstatus : status ≠ 200 := by
    rintro rfl
    exact absurd (show 400 ≤ 200 from h) (by decide)
  cases body with
  | page => exact ⟨_, rfl⟩
  | error _ _ details => exact ⟨details, if_pos hstatus⟩
  | _ => exact ⟨"Unknown error", if_pos hstatus⟩

/-- What comes of asking for an object. -/
theorem finishTask_joinRoom (comms : System) (sid userId : String)
    (fields : List (String × Json)) (delivery : Delivery) (answer : ClientAnswer)
    (attempts : Fin wsConnectMaxAttempts → Attempt) :
    ∃ msg, finishTask py comms (.joinRoom sid userId (.obj fields))
        (.peerConnection delivery answer attempts)
      = some (comms, [⟨.serverError msg, some sid⟩]) := by
  obtain ⟨hserver, hstatus⟩ := peerConnection_object py comms.server userId fields answer
  have hexchange : ∃ msg response, exchange (fun s => JsonRoutes.peerConnection py.str py.same
      py.uuid s (joinBody userId (.obj fields)) answer) comms.server delivery
        = (comms.server, response) ∧ joinResponse response = .error msg := by
    cases delivery with
    | unreached exc => exact ⟨_, _, rfl, rfl⟩
    | rateLimited =>
      obtain ⟨msg, hmsg⟩ := joinResponse_error
        (show 400 ≤ RestAPI.rateLimited.status by decide)
      exact ⟨msg, _, rfl, hmsg⟩
    | lost exc =>
      refine ⟨_, .error exc, ?_, rfl⟩
      rw [exchange, hserver]
    | answered =>
      obtain ⟨msg, hmsg⟩ := joinResponse_error hstatus
      refine ⟨msg, _, ?_, hmsg⟩
      rw [exchange, hserver]
  obtain ⟨msg, response, heq, hmsg⟩ := hexchange
  refine ⟨msg, ?_⟩
  rw [finishTask, heq]
  simp only [hmsg]

/-- What no page is ever told. -/
def Unsaid : PageMessage → Prop
  | .waitingForPeer | .qberUpdate _ _ => True
  | _ => False

/-- A page that waits for nobody and knows of no quantum channel. -/
structure Uninformed (t : Tab) : Prop where
  waiting : t.page.waitingForPeer = false
  bb84Active : t.page.bb84Active = false
  inbox : ∀ m ∈ t.inbox, ¬ Unsaid m

/-- The middleware asks for objects only, and tells no page what it never tells. -/
structure Joinless (w : World) : Prop where
  objects : ∀ sid userId peerId, .joinRoom sid userId peerId ∈ w.tasks →
    ∃ fields, peerId = .obj fields
  uninformed : ∀ i, Uninformed (w.tabs i)

theorem receive_joinless {w : World} (h : w.Joinless) (sid : String) (devices : List DeviceInfo)
    (r : PageRequest) :
    (∀ sid' userId peerId, .joinRoom sid' userId peerId ∈ (w.receive sid devices r).1.tasks →
      ∃ fields, peerId = .obj fields) ∧
    ∀ e ∈ (w.receive sid devices r).2, ¬ Unsaid e.message := by
  cases r with
  | configureServer host port =>
    rw [receive]
    split_ifs
    · exact ⟨h.objects, by simp [Unsaid]⟩
    · exact ⟨by simpa using h.objects, by simp⟩
  | createUser =>
    rw [receive]
    split_ifs
    · exact ⟨h.objects, by simp [Unsaid]⟩
    · exact ⟨by simpa using h.objects, by simp⟩
  | joinRoom peerId =>
    rw [receive]
    rcases deliver_joinRoom w.comms.state peerId with ⟨msg, hdeliver⟩ | ⟨fields, -, hdeliver⟩ <;>
      rw [hdeliver]
    · refine ⟨h.objects, fun e he => ?_⟩
      rw [List.mem_singleton.mp he]
      simp [BrowserEmission.toPage, Unsaid]
    · refine ⟨fun sid' userId peerId hmem => ?_, by simp⟩
      rcases List.mem_append.mp hmem with hold | hnew
      · exact h.objects sid' userId peerId hold
      · obtain ⟨-, -, rfl⟩ := Task.joinRoom.inj (List.mem_singleton.mp hnew)
        exact ⟨fields, rfl⟩
  | leaveRoom => exact ⟨by simpa [receive] using h.objects, by simp [receive]⟩
  | _ => exact ⟨h.objects, by simp [receive, Unsaid]⟩

/-- The end of a task tells no page what it is never told. -/
theorem finishTask_unsaid {comms comms' : System} {task : Task} {outcome : Outcome}
    (hobjects : ∀ sid userId peerId, task = .joinRoom sid userId peerId →
      ∃ fields, peerId = .obj fields) {es : List BrowserEmission}
    (h : finishTask py comms task outcome = some (comms', es)) :
    ∀ e ∈ es.map BrowserEmission.toPage, ¬ Unsaid e.message := by
  have hone : ∀ b : BrowserEmission, (∀ userId, b.event ≠ .waitingForPeer userId) →
      ∀ e ∈ [b].map BrowserEmission.toPage, ¬ Unsaid e.message := by
    rintro ⟨event, room⟩ hevent e he
    rw [List.mem_singleton.mp he]
    cases event with
    | waitingForPeer userId => exact absurd rfl (hevent userId)
    | _ => simp [BrowserEmission.toPage, Unsaid]
  cases task with
  | configureServer sid host port =>
    cases outcome with
    | status outcome =>
      simp only [finishTask, Option.some.injEq, Prod.mk.injEq] at h
      obtain ⟨-, rfl⟩ := h
      rcases HealthChecks.configureServer_cases comms.state sid host port outcome with
        ⟨-, -, hcall⟩ | ⟨-, -, -, -, hnil | ⟨msg, hmsg⟩⟩
      · rw [hcall]
        exact hone _ (by simp)
      · rw [hnil]
        simp
      · rw [hmsg]
        exact hone _ (by simp)
    | _ => exact absurd h (by simp [finishTask])
  | createUser sid =>
    cases outcome with
    | registration draws delivery =>
      simp only [finishTask, Option.some.injEq] at h
      obtain ⟨-, ⟨msg, hmsg⟩ | ⟨userId, huser⟩⟩ := createUser_cases comms sid draws delivery
      · rw [h] at hmsg
        rw [show es = _ from hmsg]
        exact hone _ (by simp)
      · rw [h] at huser
        rw [show es = _ from huser]
        exact hone _ (by simp)
    | _ => exact absurd h (by simp [finishTask])
  | joinRoom sid userId peerId =>
    obtain ⟨fields, rfl⟩ := hobjects sid userId peerId rfl
    cases outcome with
    | peerConnection delivery answer attempts =>
      obtain ⟨msg, hfinish⟩ :=
        finishTask_joinRoom py comms sid userId fields delivery answer attempts
      rw [hfinish] at h
      rw [← (Prod.mk.inj (Option.some_inj.mp h)).2]
      exact hone _ (by simp)
    | _ => exact absurd h (by simp [finishTask])
  | leaveRoom =>
    cases outcome with
    | disconnection delivery answer =>
      simp only [finishTask, Option.some.injEq, Prod.mk.injEq] at h
      rw [← h.2]
      simp
    | _ => exact absurd h (by simp [finishTask])

/-- The health check speaks of the server only. -/
theorem healthCheck_events {state : MiddlewareState} {consecutiveFailures : ℕ} {ok : Bool}
    {b : BrowserEmission}
    (h : b ∈ (HealthChecks.healthCheck state consecutiveFailures ok).2.2) :
    (∃ msg, b.event = .serverError msg) ∨ b.event = .serverConnected := by
  by_cases hhost : state.serverHost = ""
  · rw [HealthChecks.healthCheck, if_pos hhost] at h
    split_ifs at h
    · rw [List.mem_singleton.mp h]
      exact .inl ⟨_, rfl⟩
    · exact absurd h List.not_mem_nil
  · rcases HealthChecks.healthCheck_cases hhost consecutiveFailures ok with
      ⟨-, -, -, ⟨-, hnil⟩ | hup⟩ | ⟨-, -, hcall⟩ | ⟨-, -, -, hcall⟩
    · rw [hnil] at h
      exact absurd h List.not_mem_nil
    · rw [hup] at h
      rw [List.mem_singleton.mp h]
      exact .inr rfl
    · rw [hcall] at h
      exact absurd h List.not_mem_nil
    · rw [hcall] at h
      rw [List.mem_singleton.mp h]
      exact .inl ⟨_, rfl⟩

theorem perform_joinless {w : World} (h : w.Joinless) (duty : Duty) :
    (∀ sid userId peerId, .joinRoom sid userId peerId ∈ (w.perform py duty).1.tasks →
      ∃ fields, peerId = .obj fields) ∧
    ∀ e ∈ (w.perform py duty).2, ¬ Unsaid e.message := by
  cases duty with
  | receive sid devices r => exact receive_joinless h sid devices r
  | finish k outcome =>
    rw [perform]
    split
    · exact ⟨h.objects, by simp⟩
    · rename_i task htask
      have hmem : task ∈ w.tasks := List.mem_of_getElem? htask
      split
      · exact ⟨h.objects, by simp⟩
      · rename_i comms es hfinish
        refine ⟨fun sid userId peerId hleft => ?_, ?_⟩
        · exact h.objects sid userId peerId (List.mem_of_mem_eraseIdx hleft)
        · refine finishTask_unsaid py (fun sid userId peerId heq => ?_) hfinish
          exact h.objects sid userId peerId (heq ▸ hmem)
  | ping ok =>
    rw [perform]
    split_ifs
    · refine ⟨h.objects, fun e he => ?_⟩
      obtain ⟨b, hb, rfl⟩ := List.mem_map.mp he
      rcases healthCheck_events hb with ⟨msg, hmsg⟩ | hconnected
      · simp [BrowserEmission.toPage, hmsg, Unsaid]
      · simp [BrowserEmission.toPage, hconnected, Unsaid]
    · exact ⟨h.objects, by simp⟩
  | roomId roomId => exact ⟨h.objects, by simp [perform, Unsaid]⟩
  | peerConnection wsEndpoint sessionId attempts =>
    refine ⟨h.objects, fun e he => ?_⟩
    replace he : e ∈ (restPeerConnection py.uuid w.comms wsEndpoint sessionId attempts).2.map
      BrowserEmission.toPage := he
    rw [restPeerConnection] at he
    split_ifs at he
    · exact absurd he (by simp)
    · rcases (connectToSessionWs_cases py.uuid w.comms wsEndpoint sessionId attempts).2 with
        hnil | ⟨msg, hmsg⟩
      · rw [hnil] at he
        exact absurd he (by simp)
      · rw [hmsg] at he
        rw [List.mem_singleton.mp he]
        simp [BrowserEmission.toPage, Unsaid]
  | peerDisconnected peerId =>
    exact ⟨h.objects, by simp [perform, restPeerDisconnected, BrowserEmission.toPage, Unsaid]⟩
  | server a => exact ⟨h.objects, by simp [perform, Unsaid]⟩

theorem joinless_duty {w : World} (h : w.Joinless) (duty : Duty) : (w.duty py duty).Joinless := by
  obtain ⟨hobjects, hquiet⟩ := perform_joinless py h duty
  refine ⟨hobjects, fun i => ?_⟩
  rw [duty_tabs]
  refine ⟨(h.uninformed i).waiting, (h.uninformed i).bb84Active, fun m hm => ?_⟩
  rcases List.mem_append.mp hm with hold | hnew
  · exact (h.uninformed i).inbox m hold
  · obtain ⟨e, he, rfl⟩ := List.mem_map.mp hnew
    exact hquiet e (List.mem_filter.mp he).1

theorem joinless_updateTab {w : World} (h : w.Joinless) {i : ℕ} {t : Tab} (ht : Uninformed t) :
    (w.updateTab i t).Joinless := by
  refine ⟨h.objects, fun j => ?_⟩
  by_cases hj : j = i
  · subst hj
    rwa [updateTab_same]
  · rw [updateTab_of_ne w hj]
    exact h.uninformed j

/-- Only a message of the two kinds informs a page. -/
theorem uninformed_step {t : Tab} (h : Uninformed t) {e : PageEvent}
    (he : ∀ m, e = .message m → ¬ Unsaid m) :
    (t.page.step e).waitingForPeer = false ∧ (t.page.step e).bb84Active = false := by
  constructor
  · rw [← Bool.not_eq_true]
    intro hwaits
    rcases t.page.waitingForPeer_step hwaits with hbefore | hmessage
    · exact absurd (h.waiting.symm.trans hbefore) (by simp)
    · exact he _ hmessage trivial
  · rw [← Bool.not_eq_true]
    intro hactive
    rcases (t.page.effect_on e).bb84Active hactive with hbefore | ⟨qber, event, hmessage⟩
    · exact absurd (h.bb84Active.symm.trans hbefore) (by simp)
    · exact he _ hmessage trivial

theorem uninformed_local {t t' : Tab} {alive : Bool} (h : Uninformed t)
    (hlocal : Local d alive t t') : Uninformed t' := by
  cases hlocal with
  | connect sid hnone =>
    obtain ⟨hwaiting, hactive⟩ := uninformed_step h (e := .connect) (by simp)
    exact ⟨hwaiting, hactive, by cases alive <;> simp [Tab.on, welcome, Unsaid]⟩
  | disconnect =>
    obtain ⟨hwaiting, hactive⟩ := uninformed_step h (e := .disconnect) (by simp)
    exact ⟨hwaiting, hactive, by simp [Tab.on]⟩
  | replaceSocket => exact ⟨h.waiting, h.bb84Active, h.inbox⟩
  | reload => exact ⟨rfl, rfl, by simp⟩
  | read m inbox hinbox =>
    have hsaid : ∀ m' ∈ m :: inbox, ¬ Unsaid m' := hinbox ▸ h.inbox
    obtain ⟨hwaiting, hactive⟩ := uninformed_step h (e := .message m) fun m' heq =>
      PageEvent.message.inj heq ▸ hsaid m List.mem_cons_self
    exact ⟨hwaiting, hactive, fun m' hm' => hsaid m' (List.mem_cons_of_mem _ hm')⟩
  | act a =>
    obtain ⟨hwaiting, hactive⟩ := uninformed_step h (e := .action a) (by simp)
    exact ⟨hwaiting, hactive, h.inbox⟩

theorem joinless_step (w : World) (a : Action) (h : w.Joinless) : (w.step d py a).Joinless := by
  rcases w.step_cases py d a with hstep | ⟨i, t, hlocal, sids, hstep⟩ | ⟨duty, -, -, hstep⟩ |
    ⟨i, devices, sid, r, outbox, -, -, -, hstep⟩ <;> rw [hstep]
  · exact h
  · exact joinless_updateTab (w := { w with sids := sids }) ⟨h.objects, h.uninformed⟩
      (uninformed_local d (h.uninformed i) hlocal)
  · exact joinless_duty py h duty
  · obtain ⟨hwaiting, hactive, hinbox⟩ := h.uninformed i
    exact joinless_duty py (joinless_updateTab h (t := { w.tabs i with outbox := outbox })
      ⟨hwaiting, hactive, hinbox⟩) _

/-- A join is turned down at once, or passed on with an object for the peer. -/
theorem step_receive_joinRoom {w : World} (h : w.Distinct) {i : ℕ} {sid : String}
    {peerId : Option String} {outbox : List PageRequest} (hsid : (w.tabs i).sid = some sid)
    (houtbox : (w.tabs i).outbox = PageRequest.joinRoom peerId :: outbox)
    (devices : List DeviceInfo) :
    (∃ msg, w.step d py (.receive i devices) = w.updateTab i
        (Tab.arrive { w.tabs i with outbox := outbox } [.serverError msg])) ∨
      ∃ fields, w.step d py (.receive i devices) =
        { w with
          tasks := w.tasks ++ [Task.joinRoom sid w.comms.state.userId (.obj fields)] }.updateTab i
            { w.tabs i with outbox := outbox } := by
  rw [step, hsid, houtbox]
  dsimp only
  rw [duty, perform, receive]
  have hread : (w.updateTab i { w.tabs i with outbox := outbox }).Distinct :=
    distinct_updateTab h (.inr rfl)
  rcases deliver_joinRoom w.comms.state peerId with ⟨msg, hrefused⟩ | ⟨fields, -, hposted⟩
  · refine .inl ⟨msg, ?_⟩
    rw [show (w.updateTab i _).comms = w.comms from rfl, hrefused]
    dsimp only [BrowserEmission.toPage]
    rw [emit_of_mem hread (i := i) _ (by rw [updateTab_same]; exact hsid), updateTab_same]
    simp only [updateTab, Function.update_idem, hsid]
  · refine .inr ⟨fields, ?_⟩
    rw [show (w.updateTab i _).comms = w.comms from rfl, hposted]
    dsimp only
    rw [emit_nil]
    simp only [updateTab, hsid]

/-- A join that has been passed on ends with an error. -/
theorem duty_finish_joinRoom {w : World} (h : w.Joinless) {k : ℕ} {sid userId : String}
    {peerId : Json} (hk : w.tasks[k]? = some (.joinRoom sid userId peerId)) (delivery : Delivery)
    (answer : ClientAnswer) (attempts : Fin wsConnectMaxAttempts → Attempt) :
    ∃ msg, w.step d py (.duty (.finish k (.peerConnection delivery answer attempts))) =
      { w with tasks := w.tasks.eraseIdx k }.emit [⟨.serverError msg, some sid⟩] := by
  obtain ⟨fields, rfl⟩ := h.objects sid userId peerId (List.mem_of_getElem? hk)
  obtain ⟨msg, hfinish⟩ := finishTask_joinRoom py w.comms sid userId fields delivery answer attempts
  refine ⟨msg, ?_⟩
  rw [step, if_pos (show Duty.isOwn (.finish k _) = true from rfl), duty, perform, hk]
  dsimp only
  rw [hfinish]
  rfl

/-- **No page can ever join.**  In every run, whatever the pages send and whatever the server and
the network do: when the middleware takes up a join, it tells the page that asked about an error,
and nothing else happens, or it asks the server for an object; every join that the middleware has
passed on ends by telling that page alone about an error, while the middleware and the server
stay as they were (a page that has gone is told nothing); no page ever waits for a peer; and no
page ever shows the quantum channel, or lets the user switch Eve on. -/
theorem join_never_succeeds (actions : List Action) :
    let w := actions.foldl (step d py) (start server)
    (∀ i sid peerId outbox devices, (w.tabs i).sid = some sid →
      (w.tabs i).outbox = PageRequest.joinRoom peerId :: outbox →
        (∃ msg, w.step d py (.receive i devices) = w.updateTab i
          (Tab.arrive { w.tabs i with outbox := outbox } [.serverError msg])) ∨
        ∃ fields, w.step d py (.receive i devices) =
          { w with
            tasks := w.tasks ++ [Task.joinRoom sid w.comms.state.userId (.obj fields)] }.updateTab i
              { w.tabs i with outbox := outbox }) ∧
    (∀ (k : ℕ) sid userId peerId delivery answer attempts,
      w.tasks[k]? = some (.joinRoom sid userId peerId) →
        let w' := w.step d py (.duty (.finish k (.peerConnection delivery answer attempts)))
        (∀ i, (w.tabs i).sid = some sid → ∃ msg, w' =
          { w with tasks := w.tasks.eraseIdx k }.updateTab i
            ((w.tabs i).arrive [.serverError msg])) ∧
        ((∀ i, (w.tabs i).sid ≠ some sid) → w' = { w with tasks := w.tasks.eraseIdx k })) ∧
    ∀ i, (w.tabs i).page.waitingForPeer = false ∧
      ¬ (w.tabs i).page.Offers .toggleEavesdropper := by
  intro w
  have hdistinct : w.Distinct := distinct_run d py server actions
  have hinv : w.Joinless := foldl_induction
    ⟨fun sid userId peerId h => absurd h (by simp [start]), fun i => ⟨rfl, rfl, by simp [start]⟩⟩
    (joinless_step d py) actions
  refine ⟨fun i sid peerId outbox devices hsid houtbox =>
      step_receive_joinRoom d py hdistinct hsid houtbox devices,
    fun k sid userId peerId delivery answer attempts hk => ?_, fun i =>
    ⟨(hinv.uninformed i).waiting, fun hoffers => ?_⟩⟩
  · obtain ⟨msg, hstep⟩ := duty_finish_joinRoom d py hinv hk delivery answer attempts
    refine ⟨fun i hsid => ⟨msg, hstep.trans ?_⟩, fun hgone => hstep.trans ?_⟩
    · exact emit_of_mem (w := { w with tasks := w.tasks.eraseIdx k })
        (distinct_of_sids hdistinct rfl fun _ _ => id) _ hsid
    · exact emit_of_gone _ hgone
  · exact absurd ((hinv.uninformed i).bb84Active.symm.trans hoffers.2) (by simp)

/-- A page is connected by itself to the server, gets the user id `10001`, and is asked by its user
to join `10002`. -/
def joiningRun : List Action :=
  List.flatten [[.connect 0 "s1", .read 0], List.replicate 5 (.receive 0 []),
    [.duty (.finish 0 (.status .json))], List.replicate 6 (.read 0),
    List.replicate 9 (.receive 0 []),
    [.duty (.finish 0 (.registration (CallPairing.plainDraws 1) .answered)),
      .act 0 (.submit "10002")], List.replicate 9 (.receive 0 [])]

theorem joining_run_fails :
    let w := joiningRun.foldl (step ⟨"127.0.0.1", 5050, true⟩ Python.plain)
      (start { apiEndpoint := ⟨some "10.0.0.9", .int 5050, none⟩ })
    w.tasks = [.joinRoom "s1" "10001" (.obj [("peer_id", .str "10002")])] ∧
      ∃ msg, w.step ⟨"127.0.0.1", 5050, true⟩ Python.plain (.duty (.finish 0
          (.peerConnection .answered (.status 200) fun _ => .reaches "s2" "r1"))) =
        { w with tasks := w.tasks.eraseIdx 0 }.updateTab 0
          ((w.tabs 0).arrive [.serverError msg]) := by
  have hends := (join_never_succeeds ⟨"127.0.0.1", 5050, true⟩ Python.plain
    { apiEndpoint := ⟨some "10.0.0.9", .int 5050, none⟩ } joiningRun).2.1 0 "s1" "10001"
    (.obj [("peer_id", .str "10002")]) .answered (.status 200) (fun _ => .reaches "s2" "r1")
  exact ⟨rfl, (hends rfl).1 0 rfl⟩

/-! ### Connecting to a server -/

/-- What a page is told while nothing has been configured. -/
def Offline (m : PageMessage) : Prop :=
  m ≠ .serverConnected ∧ ∀ host port, m ≠ .welcome host port true

/-- A page that has not been connected to a server and does not ask for one. -/
structure OfflineTab (t : Tab) : Prop where
  page : t.page.serverConnected = false
  inbox : ∀ m ∈ t.inbox, Offline m
  outbox : ∀ host port, .configureServer host port ∉ t.outbox

/-- The middleware knows no server. -/
structure Unset (state : MiddlewareState) : Prop where
  alive : state.serverAlive = false
  host : state.serverHost = ""
  userId : state.userId = ""
  greenlet : state.healthGreenlet = false

/-- Nobody has asked for a server. -/
structure Unconfigured (w : World) : Prop where
  state : Unset w.comms.state
  tasks : ∀ task ∈ w.tasks, task = .leaveRoom
  tabs : ∀ i, OfflineTab (w.tabs i)

theorem offlineTab_local {t t' : Tab} (hlocal' : d.isLocal = false) (h : OfflineTab t)
    (hlocal : Local d false t t') : OfflineTab t' := by
  have hstep : ∀ (sid : Option String) {e : PageEvent} {inbox : List PageMessage},
      (∀ m, e = .message m → Offline m) → (∀ m ∈ inbox, Offline m) →
      OfflineTab (Tab.on { t with sid := sid, inbox := inbox } e) := by
    intro sid e inbox he hinbox
    have heffect := t.page.effect_on e
    refine ⟨heffect.serverConnected.trans ?_, hinbox, fun host port hmem => ?_⟩
    · cases e with
      | disconnect => rfl
      | message m =>
        cases m with
        | serverConnected => exact absurd rfl (he _ rfl).1
        | serverError => rfl
        | _ => exact h.page
      | _ => exact h.page
    · rcases List.mem_append.mp hmem with hold | hnew
      · exact h.outbox host port hold
      · exact (he _ (heffect.configures host port hnew)).2 host port rfl
  cases hlocal with
  | connect sid hnone =>
    refine hstep (some sid) (by simp) fun m hm => ?_
    obtain rfl := List.mem_singleton.mp hm
    exact ⟨by simp, fun host port heq => absurd (hlocal'.symm.trans
      (PageMessage.welcome.inj heq).2.2) (by simp)⟩
  | disconnect hopen =>
    have hpage := (t.page.effect_on .disconnect).serverConnected
    exact ⟨hpage, by simp [Tab.on], fun host port hmem => absurd
      ((t.page.effect_on .disconnect).configures host port (by simpa [Tab.on] using hmem))
      (by simp)⟩
  | replaceSocket => exact ⟨h.page, h.inbox, by simp⟩
  | reload => exact ⟨rfl, by simp, by simp⟩
  | read m inbox hinbox =>
    have htold : ∀ m' ∈ m :: inbox, Offline m' := hinbox ▸ h.inbox
    exact hstep t.sid (fun m' heq => PageEvent.message.inj heq ▸ htold m (by simp))
      fun m' hm' => htold m' (by simp [hm'])
  | act a => exact hstep t.sid (by simp) h.inbox

theorem unset_of_same {comms comms' : System} (hhealth : SameHealth comms comms')
    (husers : SameUsers comms comms') (h : Unset comms.state) : Unset comms'.state where
  alive := hhealth.2.2.1.trans h.alive
  host := hhealth.1.trans h.host
  userId := husers.userId.trans h.userId
  greenlet := hhealth.2.2.2.trans h.greenlet

theorem leaveRoom_unset {comms : System} (h : Unset comms.state) (delivery : Delivery)
    (answer : ClientAnswer) :
    Unset (ServerComms.leaveRoom py.uuid comms delivery answer).state := by
  have hclosed : Unset (closeClient py.uuid comms).state :=
    unset_of_same (closeClient_sameHealth py.uuid comms) (closeClient_sameUsers py.uuid comms) h
  rw [ServerComms.leaveRoom]
  split_ifs
  · exact hclosed
  · exact hclosed

theorem offline_of_error {b : BrowserEmission} {msg : String} (h : b.event = .serverError msg) :
    Offline b.toPage.message := by
  rw [BrowserEmission.toPage, h]
  exact ⟨by simp, by simp⟩

/-- Without a server every request of a page but that for one is turned down. -/
theorem receive_unconfigured {w : World} (h : w.Unconfigured) (sid : String)
    (devices : List DeviceInfo) {r : PageRequest}
    (hr : ∀ host port, r ≠ .configureServer host port) :
    (w.receive sid devices r).1.comms = w.comms ∧
      (∀ task ∈ (w.receive sid devices r).1.tasks, task = .leaveRoom) ∧
      ∀ e ∈ (w.receive sid devices r).2, Offline e.message := by
  cases r with
  | configureServer host port => exact absurd rfl (hr host port)
  | createUser =>
    rw [receive, if_pos h.state.host]
    exact ⟨rfl, h.tasks, by simp [Offline]⟩
  | joinRoom peerId =>
    rw [receive]
    rcases deliver_joinRoom w.comms.state peerId with
      ⟨msg, hdeliver⟩ | ⟨fields, huser, hdeliver⟩ <;> rw [hdeliver]
    · refine ⟨rfl, h.tasks, fun e he => ?_⟩
      rw [List.mem_singleton.mp he]
      exact offline_of_error (b := ⟨.serverError msg, some sid⟩) rfl
    · exact absurd h.state.userId huser
  | leaveRoom =>
    refine ⟨rfl, fun task hmem => ?_, by simp [receive]⟩
    rcases List.mem_append.mp hmem with hold | hnew
    · exact h.tasks task hold
    · exact List.mem_singleton.mp hnew
  | _ => exact ⟨rfl, h.tasks, by simp [receive, Offline]⟩

/-- Without a server the middleware stays without one, and tells no page about one. -/
theorem perform_unconfigured {w : World} (h : w.Unconfigured) {duty : Duty}
    (hrequest : ∀ sid devices host port, duty ≠ .receive sid devices (.configureServer host port)) :
    Unset (w.perform py duty).1.comms.state ∧
      (∀ task ∈ (w.perform py duty).1.tasks, task = .leaveRoom) ∧
      ∀ e ∈ (w.perform py duty).2, Offline e.message := by
  cases duty with
  | receive sid devices r =>
    obtain ⟨hcomms, htasks, htold⟩ := receive_unconfigured h sid devices (r := r)
      fun host port heq => hrequest sid devices host port (by rw [heq])
    rw [perform]
    exact ⟨hcomms ▸ h.state, htasks, htold⟩
  | finish k outcome =>
    rw [perform]
    split
    · exact ⟨h.state, h.tasks, by simp⟩
    · rename_i task htask
      obtain rfl := h.tasks task (List.mem_of_getElem? htask)
      cases outcome with
      | disconnection delivery answer =>
        exact ⟨leaveRoom_unset py h.state delivery answer,
          fun task hmem => h.tasks task (List.mem_of_mem_eraseIdx hmem),
          fun e he => absurd he List.not_mem_nil⟩
      | _ => exact ⟨h.state, h.tasks, fun e he => absurd he List.not_mem_nil⟩
  | ping ok =>
    rw [perform, if_neg (by simp [h.state.greenlet])]
    exact ⟨h.state, h.tasks, by simp⟩
  | roomId roomId => exact ⟨h.state, h.tasks, by simp [perform, Offline]⟩
  | peerConnection wsEndpoint sessionId attempts =>
    rw [perform, restPeerConnection]
    split_ifs
    · exact ⟨h.state, h.tasks, by simp⟩
    · obtain ⟨hhealth, hreport⟩ := connectToSessionWs_cases py.uuid w.comms wsEndpoint sessionId
        attempts
      have husers := (connectToSessionWs_spec py.uuid w.comms wsEndpoint sessionId attempts).1
      refine ⟨unset_of_same hhealth husers h.state, h.tasks, fun e he => ?_⟩
      replace he : e ∈ (connectToSessionWs py.uuid w.comms wsEndpoint sessionId attempts).2.map
        BrowserEmission.toPage := he
      rcases hreport with hnil | ⟨msg, hmsg⟩
      · rw [hnil] at he
        exact absurd he (by simp)
      · rw [hmsg] at he
        rw [List.mem_singleton.mp he]
        exact offline_of_error rfl
  | peerDisconnected peerId =>
    refine ⟨unset_of_same (closeClient_sameHealth py.uuid w.comms)
      (closeClient_sameUsers py.uuid w.comms) h.state, h.tasks, ?_⟩
    simp [perform, restPeerDisconnected, BrowserEmission.toPage, Offline]
  | server a => exact ⟨h.state, h.tasks, by simp [perform]⟩

theorem unconfigured_duty {w : World} (h : w.Unconfigured) {duty : Duty}
    (hrequest : ∀ sid devices host port, duty ≠ .receive sid devices (.configureServer host port)) :
    (w.duty py duty).Unconfigured := by
  obtain ⟨hstate, htasks, htold⟩ := perform_unconfigured py h hrequest
  refine ⟨hstate, htasks, fun i => ?_⟩
  rw [duty_tabs]
  refine ⟨(h.tabs i).page, fun m hm => ?_, (h.tabs i).outbox⟩
  rcases List.mem_append.mp hm with hold | hnew
  · exact (h.tabs i).inbox m hold
  · obtain ⟨e, he, rfl⟩ := List.mem_map.mp hnew
    exact htold e (List.mem_filter.mp he).1

theorem unconfigured_updateTab {w : World} (h : w.Unconfigured) {i : ℕ} {t : Tab}
    (ht : OfflineTab t) : (w.updateTab i t).Unconfigured := by
  refine ⟨h.state, h.tasks, fun j => ?_⟩
  by_cases hj : j = i
  · subst hj
    rwa [updateTab_same]
  · rw [updateTab_of_ne w hj]
    exact h.tabs j

theorem unconfigured_step (hlocal : d.isLocal = false) (w : World) (a : Action)
    (h : w.Unconfigured) : (w.step d py a).Unconfigured := by
  rcases w.step_cases py d a with hstep | ⟨i, t, ht, sids, hstep⟩ | ⟨duty, -, hown, hstep⟩ |
    ⟨i, devices, sid, r, outbox, -, -, houtbox, hstep⟩ <;> rw [hstep]
  · exact h
  · rw [show w.alive = false from h.state.alive] at ht
    exact unconfigured_updateTab (w := { w with sids := sids }) ⟨h.state, h.tasks, h.tabs⟩
      (offlineTab_local d hlocal (h.tabs i) ht)
  · refine unconfigured_duty py h ?_
    rintro sid devices host port rfl
    exact absurd hown (by simp [Duty.isOwn])
  · obtain ⟨hpage, hinbox, hasks⟩ := h.tabs i
    rw [houtbox] at hasks
    refine unconfigured_duty py (unconfigured_updateTab h (t := { w.tabs i with outbox := outbox })
      ⟨hpage, hinbox, fun host port hmem => hasks host port (by simp [hmem])⟩) ?_
    intro sid' devices' host port heq
    exact hasks host port (by simp [(Duty.receive.inj heq).2.2])

/-- **Only a page that connects by itself connects.**  There is no control of a page that asks for
a server: it asks when the middleware's welcome tells it that it runs locally.  Otherwise, in every
run, the middleware never learns of a server or registers a user, and no page ever shows the server
as connected, or lets the user start a call or join one. -/
theorem offline_without_auto_connect (hlocal : d.isLocal = false) (actions : List Action) :
    let w := actions.foldl (step d py) (start server)
    w.comms.state.serverHost = "" ∧ w.alive = false ∧ w.comms.state.userId = "" ∧
      ∀ i, (w.tabs i).page.serverConnected = false ∧ ¬ (w.tabs i).page.Offers .start ∧
        ∀ text, ¬ (w.tabs i).page.Offers (.submit text) := by
  intro w
  have hinv : w.Unconfigured := foldl_induction
    ⟨⟨rfl, rfl, rfl, rfl⟩, by simp [start], fun i => ⟨rfl, by simp [start], by simp [start]⟩⟩
    (unconfigured_step d py hlocal) actions
  refine ⟨hinv.state.host, hinv.state.alive, hinv.state.userId, fun i => ?_⟩
  have hpage : (w.tabs i).page.serverConnected = false := (hinv.tabs i).page
  refine ⟨hpage, fun hoffers => ?_, fun text hoffers => ?_⟩
  · exact absurd (hpage.symm.trans hoffers.2.1) (by simp)
  · exact absurd (hpage.symm.trans hoffers.2) (by simp)

/-- A page that connects and is used. -/
theorem unset_stays_offline :
    let w := [Action.connect 0 "s1", .read 0, .act 0 .start, .receive 0 [], .act 0 .toggleMute,
      .receive 0 [], .read 0].foldl (step Defaults.unset Python.plain)
        (start { apiEndpoint := ⟨some "10.0.0.9", .int 5050, none⟩ })
    w.comms.state.serverHost = "" ∧ w.alive = false ∧ w.comms.state.userId = "" ∧
      ∀ i, (w.tabs i).page.serverConnected = false ∧ ¬ (w.tabs i).page.Offers .start ∧
        ∀ text, ¬ (w.tabs i).page.Offers (.submit text) :=
  offline_without_auto_connect Defaults.unset Python.plain _ rfl _

end World

end PageLink
