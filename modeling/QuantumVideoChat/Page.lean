/-
The page in the browser (`website/client/static/app.js`).

A handler returns the page after it and the events it has sent to the middleware.  `toast` is
the text the user can read: `render` puts a new, empty toast into the page, and the timer of an
old one hides an element that is no longer there.

* `effect_on` — what one event can do to a page, and what the page can send then;
* `visible_toast_cases` — the texts that a toast can show;
* `timed_run` — the timer of a call runs as long as the call.
-/
import Mathlib.Data.Rat.Init
import QuantumVideoChat.BoundedHistory
import QuantumVideoChat.JoinForm
import QuantumVideoChat.Transition

/-- An entry of a device picker. -/
structure DeviceInfo where
  index : ℤ
  label : String
  deriving DecidableEq

/-- What the page subscribes to.  The events `frame` and `audio-frame` touch its canvases only. -/
inductive PageMessage
  | welcome (host : String) (port : ℤ) (isLocal : Bool)
  | serverConnected
  | serverError (msg : String)
  | userRegistered (userId : String)
  | waitingForPeer
  | roomId (roomId : String)
  | peerDisconnected
  | qberUpdate (qber : ℚ) (event : String)
  | cameraList (cameras : List DeviceInfo)
  | audioDeviceList (devices : List DeviceInfo)
  deriving DecidableEq

/-- What the page sends. -/
inductive PageRequest
  | configureServer (host : String) (port : ℤ)
  | createUser
  | joinRoom (peerId : Option String)
  | leaveRoom
  | toggleCamera (enabled : Bool)
  | toggleMute (muted : Bool)
  | selectCamera (device : ℤ)
  | selectAudio (device : ℤ)
  | listCameras
  | listAudioDevices
  deriving DecidableEq

/-- `state` and the variables beside it.  `errorMessage` is left out, which nothing reads, and
so is what only the rendered text depends on. -/
structure Page where
  /-- `socket.connected` -/
  socketConnected : Bool := false
  middlewareConnected : Bool := false
  serverConnected : Bool := false
  userId : String := ""
  roomId : String := ""
  waitingForPeer : Bool := false
  cameraOn : Bool := true
  muted : Bool := false
  cameras : List DeviceInfo := []
  selectedCamera : ℤ := 0
  audioDevices : List DeviceInfo := []
  selectedAudio : ℤ := 0
  elapsed : ℕ := 0
  registrationEmitted : Bool := false
  qber : Option ℚ := none
  qberEvent : Option String := none
  qberHistory : List (ℚ × String) := []
  bb84Active : Bool := false
  eavesdropperEnabled : Bool := false
  serverHost : String := ""
  serverPort : ℤ := 5050
  elapsedInterval : Option ℕ := none
  /-- the intervals that are running, and the id of the next one -/
  intervals : List ℕ := []
  nextInterval : ℕ := 0
  /-- the text of the toast in the document, while it is visible -/
  toast : Option String := none
  /-- how often the document has been written; it numbers the toasts -/
  renders : ℕ := 1
  /-- the toast that `toastTimer` will hide -/
  toastTimer : Option ℕ := none
  /-- the requests of `toggleEavesdropper` that have not been answered -/
  fetches : ℕ := 0

namespace Page

/-! ### Rendering and toasts -/

/-- The document is written anew, with an empty toast. -/
def rendered (p : Page) : Page := { p with toast := none, renders := p.renders + 1 }

def deviceRequests (p : Page) : List PageRequest :=
  if p.socketConnected then [.listCameras, .listAudioDevices] else []

/-- `render`, after these requests have been sent. -/
def render (p : Page) (sent : List PageRequest) : Page × List PageRequest :=
  (p.rendered, sent ++ p.deviceRequests)

def showToast (p : Page) (msg : String) : Page :=
  { p with toast := some msg, toastTimer := some p.renders }

def dismissToast (p : Page) : Page := { p with toast := none, toastTimer := none }

/-- The timer hides the toast it was started for. -/
def toastTimeout (p : Page) : Page :=
  { p with toast := if p.toastTimer = some p.renders then none else p.toast, toastTimer := none }

/-! ### The timer of a call -/

/-- `clearInterval(elapsedInterval)`, if there is one. -/
def clearElapsed (p : Page) : Page :=
  { p with
    intervals := p.intervals.filter (p.elapsedInterval ≠ some ·)
    elapsedInterval := none }

def startElapsedTimer (p : Page) : Page :=
  let p := p.clearElapsed
  { p with
    intervals := p.nextInterval :: p.intervals
    elapsedInterval := some p.nextInterval
    nextInterval := p.nextInterval + 1 }

/-- An interval fires, if it has not been cleared. -/
def tick (p : Page) (timer : ℕ) : Page :=
  { p with elapsed := if timer ∈ p.intervals then p.elapsed + 1 else p.elapsed }

/-! ### Events of the socket -/

def leaveSession (p : Page) : Page × List PageRequest :=
  ({ p with roomId := "", waitingForPeer := false, elapsed := 0 }.clearElapsed).render [.leaveRoom]

def onConnect (p : Page) : Page × List PageRequest :=
  { p with socketConnected := true, middlewareConnected := true }.render []

def onDisconnect (p : Page) : Page × List PageRequest :=
  { p with socketConnected := false, middlewareConnected := false, serverConnected := false }.render
    []

/-- The length of `qberHistory`. -/
def maxQberHistory : ℕ := 50

def handle (p : Page) : PageMessage → Page × List PageRequest
  | .welcome host port isLocal =>
    { p with
      middlewareConnected := true
      registrationEmitted := false
      serverHost := if host = "" then p.serverHost else host
      serverPort := if host = "" then p.serverPort else if port = 0 then 5050 else port }.render
      (if isLocal then [.configureServer host port] else [])
  | .serverConnected =>
    { p with serverConnected := true, registrationEmitted := true }.render
      (if p.registrationEmitted then [] else [.createUser])
  | .serverError msg =>
    ({ p with serverConnected := false }.showToast
      (if msg = "" then "Connection failed." else msg)).render []
  -- `data.user_id || data` shows the object for an empty id
  | .userRegistered userId =>
    { p with userId := if userId = "" then "[object Object]" else userId }.render []
  | .waitingForPeer => { p with waitingForPeer := true }.render []
  | .roomId roomId =>
    { p with roomId := roomId, waitingForPeer := false, elapsed := 0 }.startElapsedTimer.render []
  -- the toast is shown after the last `render`
  | .peerDisconnected =>
    let (p, requests) := p.leaveSession
    (p.showToast "Peer disconnected.", requests)
  | .qberUpdate qber event =>
    ({ p with
        bb84Active := true, qber := some qber, qberEvent := some event
        qberHistory := BoundedHistory.push maxQberHistory p.qberHistory (qber, event) }, [])
  | .cameraList cameras => { p with cameras := cameras }.render []
  | .audioDeviceList devices => { p with audioDevices := devices }.render []

/-! ### Actions of the user -/

/-- What else can happen in the page: the user acts, a timer fires, or the request of
`toggleEavesdropper` ends, with the JSON of any answer or without one. -/
inductive Action
  | toggleCamera
  | toggleMute
  | selectCamera (index : ℤ)
  | selectAudio (index : ℤ)
  /-- the button "Start Session" -/
  | start
  /-- the join form with this text -/
  | submit (text : String)
  | leave
  /-- `toggleTheme` and `toggleLogo` -/
  | redraw
  | toggleEavesdropper
  | eavesdropperAnswered (eavesdropper : Option String)
  | eavesdropperFailed
  | dismissToast
  | toastTimeout
  | tick (timer : ℕ)

def roomIdFormat : String := "Room ID must be exactly 5 alphanumeric characters."

def handleJoin (p : Page) (text : String) : Page × List PageRequest :=
  let id := JoinForm.trim text
  if id ≠ "" ∧ JoinForm.isRoomCode id = false then (p.showToast roomIdFormat, [])
  else (p, [.joinRoom (if id = "" then none else some id)])

/-- The controls are there, and enabled, as the last `render` has drawn them. -/
def Offers (p : Page) : Action → Prop
  | .start => p.roomId = "" ∧ p.serverConnected = true ∧ p.waitingForPeer = false
  | .submit _ => p.roomId = "" ∧ p.serverConnected = true
  | .leave => p.roomId ≠ ""
  | .selectCamera index => p.roomId = "" ∧ ∃ camera ∈ p.cameras, camera.index = index
  | .selectAudio index => p.roomId = "" ∧ ∃ device ∈ p.audioDevices, device.index = index
  | .toggleEavesdropper => p.roomId ≠ "" ∧ p.bb84Active = true
  | .eavesdropperAnswered _ | .eavesdropperFailed => 0 < p.fetches
  | _ => True

instance (p : Page) : DecidablePred p.Offers
  | .start | .toggleEavesdropper | .submit _ => inferInstanceAs (Decidable (_ ∧ _))
  | .leave => inferInstanceAs (Decidable (p.roomId ≠ ""))
  | .selectCamera index =>
    inferInstanceAs (Decidable (p.roomId = "" ∧ ∃ camera ∈ p.cameras, camera.index = index))
  | .selectAudio index =>
    inferInstanceAs (Decidable (p.roomId = "" ∧ ∃ device ∈ p.audioDevices, device.index = index))
  | .eavesdropperAnswered _ | .eavesdropperFailed => inferInstanceAs (Decidable (0 < p.fetches))
  | .toggleCamera | .toggleMute | .redraw | .dismissToast | .toastTimeout | .tick _ =>
    .isTrue trivial

def react (p : Page) : Action → Page × List PageRequest
  | .toggleCamera =>
    { p with cameraOn := !p.cameraOn }.render [.toggleCamera (!p.cameraOn)]
  | .toggleMute => { p with muted := !p.muted }.render [.toggleMute (!p.muted)]
  | .selectCamera index => ({ p with selectedCamera := index }, [.selectCamera index])
  | .selectAudio index => ({ p with selectedAudio := index }, [.selectAudio index])
  | .start => (p, [.joinRoom none])
  | .submit text => p.handleJoin text
  | .leave => p.leaveSession
  | .redraw => p.render []
  | .toggleEavesdropper =>
    ({ p with eavesdropperEnabled := !p.eavesdropperEnabled, fetches := p.fetches + 1 }, [])
  -- an answer without the field is not told apart from the others
  | .eavesdropperAnswered eavesdropper =>
    ({ p with fetches := p.fetches - 1 }.showToast
      ("Eavesdropper " ++ eavesdropper.getD "undefined"), [])
  | .eavesdropperFailed =>
    ({ (p.showToast "Could not toggle eavesdropper") with
        eavesdropperEnabled := !p.eavesdropperEnabled, fetches := p.fetches - 1 }, [])
  | .dismissToast => (p.dismissToast, [])
  | .toastTimeout => (p.toastTimeout, [])
  | .tick timer => (p.tick timer, [])

def act (p : Page) (a : Action) : Page × List PageRequest :=
  if p.Offers a then p.react a else (p, [])

end Page

/-- What the page is told: its socket connects or disconnects, a message comes in, or something
happens in the page. -/
inductive PageEvent
  | connect
  | disconnect
  | message (m : PageMessage)
  | action (a : Page.Action)

namespace Page

open Transition

def on (p : Page) : PageEvent → Page × List PageRequest
  | .connect => p.onConnect
  | .disconnect => p.onDisconnect
  | .message m => p.handle m
  | .action a => p.act a

def step (p : Page) (e : PageEvent) : Page := (p.on e).1

/-! ### One event -/

section

variable (p : Page) (e : PageEvent)

theorem act_cases (a : Action) : p.act a = (p, []) ∨ p.Offers a ∧ p.act a = p.react a := by
  rw [act]
  split_ifs with hoffers
  · exact .inr ⟨hoffers, rfl⟩
  · exact .inl rfl

theorem handleJoin_cases (text : String) :
    p.handleJoin text = (p.showToast roomIdFormat, []) ∨
      ∃ peerId, p.handleJoin text = (p, [.joinRoom peerId]) := by
  by_cases hformat : JoinForm.trim text ≠ "" ∧ JoinForm.isRoomCode (JoinForm.trim text) = false
  · exact .inl (if_pos hformat)
  · exact .inr ⟨_, if_neg hformat⟩

/-- The form sends what it is known to send. -/
theorem handleJoin_sends (text : String) :
    (p.handleJoin text).2.map (fun r =>
        match r with
        | .joinRoom peerId => some (JoinForm.joinRoom peerId)
        | _ => none)
      = (JoinForm.handleJoin text).toList.map some := by
  rw [handleJoin, JoinForm.handleJoin]
  by_cases hformat : JoinForm.trim text ≠ "" ∧ JoinForm.isRoomCode (JoinForm.trim text) = false
  · simp only [if_pos hformat]
    rfl
  · simp only [if_neg hformat]
    rfl

end

/-- Whether the server is shown as connected after an event. -/
def statusAfter (connected : Bool) : PageEvent → Bool
  | .disconnect => false
  | .message .serverConnected => true
  | .message (.serverError _) => false
  | _ => connected

def socketAfter (connected : Bool) : PageEvent → Bool
  | .connect => true
  | .disconnect => false
  | _ => connected

/-- What the user can switch on and off: the camera, and the silence of the microphone. -/
inductive Switch
  | camera
  | mute
  deriving DecidableEq

def shows (p : Page) : Switch → Bool
  | .camera => p.cameraOn
  | .mute => p.muted

/-- The position that a request asks for. -/
def position : PageRequest → Switch → Option Bool
  | .toggleCamera enabled, .camera => some enabled
  | .toggleMute muted, .mute => some muted
  | _, _ => none

/-- The position of a switch after these requests have been handled. -/
def switchAfter (s : Switch) (b : Bool) (requests : List PageRequest) : Bool :=
  requests.foldl (fun b r => (position r s).getD b) b

def isDeviceRequest : PageRequest → Bool
  | .listCameras | .listAudioDevices => true
  | _ => false

/-- What an event can do to a page, and what the page can send then. -/
structure Effect (p : Page) (e : PageEvent) (p' : Page) (sent : List PageRequest) : Prop where
  serverConnected : p'.serverConnected = statusAfter p.serverConnected e
  socketConnected : p'.socketConnected = socketAfter p.socketConnected e
  switches : ∀ s, p'.shows s = switchAfter s (p.shows s) sent
  renders : p.renders ≤ p'.renders
  /-- every `render` of a connected page asks for both lists -/
  devices : sent.countP isDeviceRequest
    = if p'.socketConnected then 2 * (p'.renders - p.renders) else 0
  /-- only a welcome makes the page configure a server, and only the one it names -/
  configures : ∀ host port, .configureServer host port ∈ sent →
    e = .message (.welcome host port true)
  joins : ∀ peerId, .joinRoom peerId ∈ sent → p.serverConnected = true ∧ p.roomId = ""
  bb84Active : p'.bb84Active = true → p.bb84Active = true ∨ ∃ qber event,
    e = .message (.qberUpdate qber event)

variable (p : Page)

theorem countP_deviceRequests :
    p.deviceRequests.countP isDeviceRequest = if p.socketConnected then 2 else 0 := by
  rw [deviceRequests]
  split_ifs <;> rfl

theorem switchAfter_append (s : Switch) (b : Bool) (requests later : List PageRequest) :
    switchAfter s b (requests ++ later) = switchAfter s (switchAfter s b requests) later :=
  List.foldl_append

theorem switchAfter_deviceRequests (s : Switch) (b : Bool) :
    switchAfter s b p.deviceRequests = b := by
  rw [deviceRequests]
  cases s <;> split_ifs <;> rfl

theorem mem_deviceRequests {r : PageRequest} (h : r ∈ p.deviceRequests) :
    isDeviceRequest r = true := by
  rw [deviceRequests] at h
  split_ifs at h
  · rcases List.mem_pair.mp h with rfl | rfl <;> rfl
  · exact absurd h List.not_mem_nil

/-- An event that ends in a `render`. -/
theorem effect_render {e : PageEvent} {p' : Page} {sent : List PageRequest}
    (hserver : p'.serverConnected = statusAfter p.serverConnected e)
    (hsocket : p'.socketConnected = socketAfter p.socketConnected e)
    (hcamera : p'.cameraOn = switchAfter .camera p.cameraOn sent)
    (hmuted : p'.muted = switchAfter .mute p.muted sent) (hrenders : p'.renders = p.renders)
    (hsent : ∀ r ∈ sent, isDeviceRequest r = false)
    (hconfigures : ∀ host port, .configureServer host port ∈ sent →
      e = .message (.welcome host port true))
    (hjoins : ∀ peerId, .joinRoom peerId ∉ sent) (hbb84 : p'.bb84Active = p.bb84Active) :
    Effect p e (p'.render sent).1 (p'.render sent).2 where
  serverConnected := hserver
  socketConnected := hsocket
  switches s := by
    show p'.rendered.shows s = switchAfter s (p.shows s) (sent ++ p'.deviceRequests)
    rw [switchAfter_append, switchAfter_deviceRequests]
    cases s with
    | camera => exact hcamera
    | mute => exact hmuted
  renders := by
    show p.renders ≤ p'.renders + 1
    omega
  devices := by
    show (sent ++ p'.deviceRequests).countP isDeviceRequest
      = if p'.socketConnected then 2 * (p'.renders + 1 - p.renders) else 0
    rw [List.countP_append, List.countP_eq_zero.mpr (by simpa using hsent),
      countP_deviceRequests, hrenders, Nat.add_sub_cancel_left, Nat.zero_add]
  configures host port hmem := by
    rcases List.mem_append.mp hmem with h | h
    · exact hconfigures host port h
    · exact absurd (p'.mem_deviceRequests h) (by simp [isDeviceRequest])
  joins peerId hmem := by
    rcases List.mem_append.mp hmem with h | h
    · exact absurd h (hjoins peerId)
    · exact absurd (p'.mem_deviceRequests h) (by simp [isDeviceRequest])
  bb84Active h := .inl (hbb84 ▸ h)

/-- Nothing is said. -/
theorem effect_silent {e : PageEvent} {p' : Page}
    (hserver : p'.serverConnected = statusAfter p.serverConnected e)
    (hsocket : p'.socketConnected = socketAfter p.socketConnected e)
    (hcamera : p'.cameraOn = p.cameraOn) (hmuted : p'.muted = p.muted)
    (hrenders : p'.renders = p.renders)
    (hbb84 : p'.bb84Active = true → p.bb84Active = true ∨ ∃ qber event,
      e = .message (.qberUpdate qber event)) :
    Effect p e p' [] where
  serverConnected := hserver
  socketConnected := hsocket
  switches s := by
    cases s with
    | camera => exact hcamera
    | mute => exact hmuted
  renders := hrenders.ge
  devices := by simp [hrenders]
  configures _ _ h := absurd h List.not_mem_nil
  joins _ h := absurd h List.not_mem_nil
  bb84Active := hbb84

/-- One request is sent, to join or to select a device. -/
theorem effect_send {a : Action} {p' : Page} {r : PageRequest}
    (hsame : Effect p (.action a) p' [])
    (hkind : (∃ index, r = .selectCamera index ∨ r = .selectAudio index) ∨
      (∃ peerId, r = .joinRoom peerId) ∧ p.serverConnected = true ∧ p.roomId = "") :
    Effect p (.action a) p' [r] where
  serverConnected := hsame.serverConnected
  socketConnected := hsame.socketConnected
  switches s := by
    have hposition : position r s = none := by
      rcases hkind with ⟨index, rfl | rfl⟩ | ⟨⟨peerId, rfl⟩, -⟩ <;> cases s <;> rfl
    show p'.shows s = (position r s).getD (p.shows s)
    rw [hposition]
    exact hsame.switches s
  renders := hsame.renders
  devices := by
    rcases hkind with ⟨index, rfl | rfl⟩ | ⟨⟨peerId, rfl⟩, -⟩ <;> exact hsame.devices
  configures host port h := by
    obtain rfl := List.mem_singleton.mp h
    rcases hkind with ⟨index, h | h⟩ | ⟨⟨peerId, h⟩, -⟩ <;> exact absurd h (by simp)
  joins peerId h := by
    obtain rfl := List.mem_singleton.mp h
    rcases hkind with ⟨index, h | h⟩ | ⟨-, hjoin⟩
    · exact absurd h (by simp)
    · exact absurd h (by simp)
    · exact hjoin
  bb84Active := hsame.bb84Active

theorem effect_leaveSession {e : PageEvent}
    (hserver : p.serverConnected = statusAfter p.serverConnected e)
    (hsocket : p.socketConnected = socketAfter p.socketConnected e) :
    Effect p e p.leaveSession.1 p.leaveSession.2 :=
  p.effect_render hserver hsocket rfl rfl rfl (by simp [isDeviceRequest]) (by simp) (by simp) rfl

theorem effect_handle (m : PageMessage) : Effect p (.message m) (p.handle m).1 (p.handle m).2 := by
  cases m with
  | welcome host port isLocal =>
    refine p.effect_render rfl rfl ?_ ?_ rfl ?_ ?_ ?_ rfl <;> cases isLocal <;>
      simp [switchAfter, position, isDeviceRequest]
  | serverConnected =>
    refine p.effect_render rfl rfl ?_ ?_ rfl ?_ ?_ ?_ rfl <;> cases p.registrationEmitted <;>
      simp [switchAfter, position, isDeviceRequest]
  | peerDisconnected =>
    -- the toast comes after the last `render`
    obtain ⟨hserver, hsocket, hswitches, hrenders, hdevices, hconfigures, hjoins, hbb84⟩ :=
      p.effect_leaveSession (e := .message .peerDisconnected) rfl rfl
    exact ⟨hserver, hsocket, hswitches, hrenders, hdevices, hconfigures, hjoins, hbb84⟩
  | qberUpdate qber event =>
    exact p.effect_silent rfl rfl rfl rfl rfl fun _ => .inr ⟨qber, event, rfl⟩
  | serverError | userRegistered | waitingForPeer | roomId | cameraList | audioDeviceList =>
    exact p.effect_render rfl rfl rfl rfl rfl (by simp) (by simp) (by simp) rfl

theorem effect_react {a : Action} (hoffers : p.Offers a) :
    Effect p (.action a) (p.react a).1 (p.react a).2 := by
  have hsilent : ∀ {p' : Page}, p'.serverConnected = p.serverConnected →
      p'.socketConnected = p.socketConnected → p'.cameraOn = p.cameraOn → p'.muted = p.muted →
      p'.renders = p.renders → p'.bb84Active = p.bb84Active → Effect p (.action a) p' [] :=
    fun hserver hsocket hcamera hmuted hrenders hbb84 =>
      p.effect_silent hserver hsocket hcamera hmuted hrenders fun h => .inl (hbb84 ▸ h)
  cases a with
  | toggleCamera | toggleMute =>
    exact p.effect_render rfl rfl rfl rfl rfl (by simp [isDeviceRequest]) (by simp) (by simp) rfl
  | redraw => exact p.effect_render rfl rfl rfl rfl rfl (by simp) (by simp) (by simp) rfl
  | leave => exact p.effect_leaveSession rfl rfl
  | selectCamera index =>
    exact p.effect_send (hsilent rfl rfl rfl rfl rfl rfl) (.inl ⟨index, .inl rfl⟩)
  | selectAudio index =>
    exact p.effect_send (hsilent rfl rfl rfl rfl rfl rfl) (.inl ⟨index, .inr rfl⟩)
  | start =>
    exact p.effect_send (hsilent rfl rfl rfl rfl rfl rfl)
      (.inr ⟨⟨none, rfl⟩, hoffers.2.1, hoffers.1⟩)
  | submit text =>
    rw [react]
    rcases p.handleJoin_cases text with h | ⟨peerId, h⟩ <;> rw [h]
    · exact hsilent rfl rfl rfl rfl rfl rfl
    · exact p.effect_send (hsilent rfl rfl rfl rfl rfl rfl)
        (.inr ⟨⟨peerId, rfl⟩, hoffers.2, hoffers.1⟩)
  | toggleEavesdropper | eavesdropperAnswered | eavesdropperFailed | dismissToast | toastTimeout
  | tick => exact hsilent rfl rfl rfl rfl rfl rfl

/-- **What one event can do.** -/
theorem effect_on (e : PageEvent) : Effect p e (p.step e) (p.on e).2 := by
  rw [step]
  cases e with
  | connect | disconnect =>
    exact p.effect_render rfl rfl rfl rfl rfl (by simp) (by simp) (by simp) rfl
  | message m => exact p.effect_handle m
  | action a =>
    rw [on]
    rcases p.act_cases a with h | ⟨hoffers, h⟩ <;> rw [h]
    · exact p.effect_silent rfl rfl rfl rfl rfl .inl
    · exact p.effect_react hoffers

/-- Only the middleware makes a page wait. -/
theorem waitingForPeer_step {e : PageEvent} (h : (p.step e).waitingForPeer = true) :
    p.waitingForPeer = true ∨ e = .message .waitingForPeer := by
  cases e with
  | connect | disconnect => exact .inl h
  | message m =>
    cases m with
    | waitingForPeer => exact .inr rfl
    | roomId | peerDisconnected => exact absurd h Bool.false_ne_true
    | _ => exact .inl h
  | action a =>
    rw [step, on] at h
    rcases p.act_cases a with hact | ⟨-, hact⟩ <;> rw [hact] at h
    · exact .inl h
    · cases a with
      | leave => exact absurd h Bool.false_ne_true
      | submit text =>
        rw [react] at h
        rcases p.handleJoin_cases text with hjoin | ⟨peerId, hjoin⟩ <;> rw [hjoin] at h <;>
          exact .inl h
      | _ => exact .inl h

/-! ### Toasts -/

/-- The texts that the page has for a visible toast. -/
inductive ToastText : String → Prop
  | peerDisconnected : ToastText "Peer disconnected."
  | roomIdFormat : ToastText roomIdFormat
  | eavesdropper (mode : String) : ToastText ("Eavesdropper " ++ mode)
  | notToggled : ToastText "Could not toggle eavesdropper"

/-- A visible toast shows one of these texts, and its timer is running. -/
def ToastInv (p : Page) : Prop :=
  ∀ msg, p.toast = some msg → ToastText msg ∧ p.toastTimer = some p.renders

theorem toastInv_none {p : Page} (h : p.toast = none) : ToastInv p := fun msg hmsg =>
  absurd (h.symm.trans hmsg) (by simp)

theorem toastInv_showToast {msg : String} (h : ToastText msg) : ToastInv (p.showToast msg) := by
  rintro shown hshown
  obtain rfl : msg = shown := Option.some_inj.mp hshown
  exact ⟨h, rfl⟩

theorem toastInv_react (h : ToastInv p) (a : Action) : ToastInv (p.react a).1 := by
  cases a with
  | toggleCamera | toggleMute | redraw | leave | dismissToast => exact toastInv_none rfl
  | selectCamera | selectAudio | start | toggleEavesdropper | tick => exact h
  | eavesdropperAnswered mode => exact toastInv_showToast _ (.eavesdropper _)
  | eavesdropperFailed => exact toastInv_showToast p .notToggled
  | submit text =>
    rw [react]
    rcases p.handleJoin_cases text with hjoin | ⟨peerId, hjoin⟩ <;> rw [hjoin]
    · exact toastInv_showToast p .roomIdFormat
    · exact h
  | toastTimeout =>
    -- the timer of a visible toast is its own
    refine toastInv_none (?_ : (if p.toastTimer = some p.renders then none else p.toast) = none)
    cases htoast : p.toast with
    | none => exact ite_self none
    | some msg => exact if_pos (h msg htoast).2

theorem toastInv_step (p : Page) (e : PageEvent) (h : ToastInv p) : ToastInv (p.step e) := by
  cases e with
  | connect | disconnect => exact toastInv_none rfl
  | message m =>
    cases m with
    | peerDisconnected => exact toastInv_showToast _ .peerDisconnected
    | qberUpdate => exact h
    | _ => exact toastInv_none rfl
  | action a =>
    rw [step, on]
    rcases p.act_cases a with hact | ⟨-, hact⟩ <;> rw [hact]
    · exact h
    · exact p.toastInv_react h a

/-- **Which messages are ever seen.**  Whatever happens to a page, a visible toast shows one of
its own four texts, and is about to be hidden by its timer; an error of the middleware is gone
before anybody can read it. -/
theorem visible_toast_cases (events : List PageEvent) :
    (∀ msg, (events.foldl step {}).toast = some msg →
      ToastText msg ∧ (events.foldl step {}).toastTimeout.toast = none) ∧
    ∀ error,
      ((events ++ [PageEvent.message (.serverError error)]).foldl step {}).toast = none := by
  have hinv : ToastInv (events.foldl step {}) := foldl_induction (toastInv_none rfl) toastInv_step
    events
  refine ⟨fun msg hmsg => ⟨(hinv msg hmsg).1, if_pos (hinv msg hmsg).2⟩, fun error => ?_⟩
  rw [List.foldl_append]
  rfl

/-! ### Timers -/

/-- At most one interval runs, the one that will be cleared, and without one the page is in no
call. -/
structure Timed (p : Page) : Prop where
  intervals : p.intervals = p.elapsedInterval.toList
  fresh : ∀ timer ∈ p.intervals, timer < p.nextInterval
  idle : p.elapsedInterval = none → p.roomId = "" ∧ p.elapsed = 0

theorem Timed.clearElapsed {p : Page} (h : Timed p) : p.clearElapsed.intervals = [] := by
  show p.intervals.filter (p.elapsedInterval ≠ some ·) = []
  rw [h.intervals]
  cases p.elapsedInterval <;> simp

theorem timed_leaveSession (h : Timed p) : Timed p.leaveSession.1 :=
  ⟨h.clearElapsed, fun _ htimer => absurd (h.clearElapsed ▸ htimer) List.not_mem_nil,
    fun _ => ⟨rfl, rfl⟩⟩

theorem timed_tick (h : Timed p) (timer : ℕ) : Timed (p.tick timer) := by
  refine ⟨h.intervals, h.fresh, fun hnone => ⟨(h.idle hnone).1, ?_⟩⟩
  have hnil : p.intervals = [] := by
    rw [h.intervals, show p.elapsedInterval = none from hnone]
    rfl
  show (if timer ∈ p.intervals then p.elapsed + 1 else p.elapsed) = 0
  rw [hnil, if_neg List.not_mem_nil, (h.idle hnone).2]

theorem timed_step (p : Page) (e : PageEvent) (h : Timed p) : Timed (p.step e) := by
  have hkeep : ∀ {p' : Page}, p'.intervals = p.intervals →
      p'.elapsedInterval = p.elapsedInterval → p'.nextInterval = p.nextInterval →
      p'.roomId = p.roomId → p'.elapsed = p.elapsed → Timed p' := by
    intro p' hintervals hinterval hnext hroom helapsed
    refine ⟨?_, ?_, ?_⟩
    · rw [hintervals, hinterval, h.intervals]
    · rw [hintervals, hnext]
      exact h.fresh
    · rw [hinterval, hroom, helapsed]
      exact h.idle
  cases e with
  | connect | disconnect => exact hkeep rfl rfl rfl rfl rfl
  | message m =>
    cases m with
    | roomId roomId =>
      -- the interval of an earlier call is cleared first
      refine ⟨?_, ?_, fun hnone => absurd hnone (by simp [step, on, handle, render, rendered,
        startElapsedTimer])⟩
      · show p.nextInterval :: p.clearElapsed.intervals = [p.nextInterval]
        rw [h.clearElapsed]
      · show ∀ timer ∈ p.nextInterval :: p.clearElapsed.intervals, timer < p.nextInterval + 1
        rw [h.clearElapsed]
        simp
    | peerDisconnected =>
      obtain ⟨hintervals, hfresh, hidle⟩ := p.timed_leaveSession h
      exact ⟨hintervals, hfresh, hidle⟩
    | _ => exact hkeep rfl rfl rfl rfl rfl
  | action a =>
    rw [step, on]
    rcases p.act_cases a with hact | ⟨-, hact⟩ <;> rw [hact]
    · exact h
    · cases a with
      | leave => exact p.timed_leaveSession h
      | tick timer => exact p.timed_tick h timer
      | submit text =>
        rw [react]
        rcases p.handleJoin_cases text with hjoin | ⟨peerId, hjoin⟩ <;> rw [hjoin] <;>
          exact hkeep rfl rfl rfl rfl rfl
      | _ => exact hkeep rfl rfl rfl rfl rfl

/-- An interval runs while the page is in a call, and only then. -/
def RunsInCall (p : Page) : Prop := p.elapsedInterval ≠ none ↔ p.roomId ≠ ""

/-- A room without an id would start the interval and leave the page out of any call. -/
theorem runsInCall_step (p : Page) (e : PageEvent)
    (he : ∀ roomId, e = .message (.roomId roomId) → roomId ≠ "") (h : RunsInCall p) :
    RunsInCall (p.step e) := by
  have hleft : RunsInCall p.leaveSession.1 := iff_of_false (fun h => h rfl) fun h => h rfl
  cases e with
  | connect | disconnect => exact h
  | message m =>
    cases m with
    | roomId roomId => exact iff_of_true (Option.some_ne_none _) (he roomId rfl)
    | peerDisconnected => exact hleft
    | _ => exact h
  | action a =>
    rw [step, on]
    rcases p.act_cases a with hact | ⟨-, hact⟩ <;> rw [hact]
    · exact h
    · cases a with
      | leave => exact hleft
      | submit text =>
        rw [react]
        rcases p.handleJoin_cases text with hjoin | ⟨peerId, hjoin⟩ <;> rw [hjoin] <;> exact h
      | _ => exact h

theorem runsInCall_foldl {events : List PageEvent} : ∀ {p : Page}, RunsInCall p →
    (∀ roomId, .message (.roomId roomId) ∈ events → roomId ≠ "") →
      RunsInCall (events.foldl step p) := by
  induction events with
  | nil => exact fun h _ => h
  | cons e events ih =>
    intro p h hrooms
    refine ih (runsInCall_step p e (fun roomId he => ?_) h) fun roomId hmem =>
      hrooms roomId (List.mem_cons_of_mem e hmem)
    exact hrooms roomId (he ▸ List.mem_cons_self)

/-- **A call has one timer.**  However calls begin and end, at most one interval runs, the one
that will be cleared, and without it the page is in no call and shows no time; as long as every
room has an id, it runs exactly while the page is in a call. -/
theorem timed_run (events : List PageEvent) :
    Timed (events.foldl step {}) ∧
      ((∀ roomId, .message (.roomId roomId) ∈ events → roomId ≠ "") →
        ((events.foldl step {}).intervals ≠ [] ↔ (events.foldl step {}).roomId ≠ "")) := by
  have htimed : Timed (events.foldl step {}) :=
    foldl_induction ⟨rfl, by simp, fun _ => ⟨rfl, rfl⟩⟩ timed_step events
  refine ⟨htimed, fun hrooms => ?_⟩
  have hruns : RunsInCall (events.foldl step {}) :=
    runsInCall_foldl (iff_of_false (fun h => h rfl) fun h => h rfl) hrooms
  refine Iff.trans ?_ hruns
  rw [htimed.intervals]
  simp

/-- The second call of a page has an interval of its own, and its end stops it. -/
theorem timed_run_secondCall :
    let events : List PageEvent := [.message (.roomId "a"), .message .peerDisconnected,
      .message (.roomId "b"), .action (.tick 1)]
    ((events.foldl step {}).intervals = [1] ∧ (events.foldl step {}).elapsed = 1) ∧
      ((events ++ [PageEvent.action .leave]).foldl step {}).intervals = [] := by
  refine ⟨⟨rfl, rfl⟩, ?_⟩
  have hiff := (timed_run [.message (.roomId "a"), .message .peerDisconnected,
    .message (.roomId "b"), .action (.tick 1), .action .leave]).2 (by simp)
  exact not_not.mp fun hruns => hiff.mp hruns rfl

end Page
