/-
The lists of cameras and microphones (`website/client/static/app.js`, `middleware/events.py`).

`render` asks for both lists, and a list that comes in is rendered.

* `listsMove_step` — what a step does to the requests and lists in flight;
* `device_lists_never_settle` — they never become fewer.
-/
import QuantumVideoChat.PageStatus

def PageMessage.isDeviceList : PageMessage → Bool
  | .cameraList _ | .audioDeviceList _ => true
  | _ => false

/-- The requests for a list, and the lists, that are in flight. -/
def Tab.lists (t : Tab) : ℕ :=
  t.outbox.countP Page.isDeviceRequest + t.inbox.countP (·.isDeviceList)

namespace PageLink

open Transition ServerComms

namespace World

variable (d : Defaults) (py : Python) (server : Server) (w : World)

/-- The step is the page reading a list. -/
def readsList (i : ℕ) (w : World) (a : Action) : ℕ :=
  match a with
  | .read j => if j = i ∧ (w.tabs i).inbox.head?.any (·.isDeviceList) = true then 1 else 0
  | _ => 0

/-- The lists that the page reads in a run. -/
def listsRead (d : Defaults) (py : Python) (i : ℕ) : World → List Action → ℕ
  | _, [] => 0
  | w, a :: actions => readsList i w a + listsRead d py i (w.step d py a) actions

/-- The page keeps its connection. -/
def Stays (i : ℕ) (a : Action) : Prop := a ≠ .disconnect i ∧ a ≠ .reload i

/-- A handler sends a list for a request for one, and for nothing else. -/
theorem receive_lists (sid : String) (devices : List DeviceInfo) (r : PageRequest) :
    (Page.isDeviceRequest r = true ∧ ∃ m, m.isDeviceList = true ∧
      (w.receive sid devices r).2 = [⟨m, some sid⟩]) ∨
    (Page.isDeviceRequest r = false ∧
      ∀ e ∈ (w.receive sid devices r).2, e.message.isDeviceList = false) := by
  have hone : ∀ (msg : String),
      ∀ e ∈ [(⟨.serverError msg, some sid⟩ : PageEmission)], e.message.isDeviceList = false := by
    rintro msg e he
    rw [List.mem_singleton.mp he]
    rfl
  cases r with
  | listCameras => exact .inl ⟨rfl, .cameraList devices, rfl, rfl⟩
  | listAudioDevices => exact .inl ⟨rfl, .audioDeviceList devices, rfl, rfl⟩
  | configureServer | createUser =>
    refine .inr ⟨rfl, ?_⟩
    rw [receive]
    split_ifs
    · exact hone _
    · simp
  | joinRoom peerId =>
    refine .inr ⟨rfl, ?_⟩
    rw [receive]
    rcases deliver_joinRoom w.comms.state peerId with ⟨msg, h⟩ | ⟨fields, -, h⟩ <;> rw [h]
    · exact hone msg
    · simp
  | _ => exact .inr ⟨rfl, by simp [receive]⟩

/-- Nothing else sends a list. -/
theorem perform_lists {duty : Duty} (hown : duty.isOwn = true) :
    ∀ e ∈ (w.perform py duty).2, e.message.isDeviceList = false := by
  have hbrowser : ∀ (es : List BrowserEmission), ∀ e ∈ es.map BrowserEmission.toPage,
      e.message.isDeviceList = false := by
    intro es e he
    obtain ⟨b, -, rfl⟩ := List.mem_map.mp he
    rw [BrowserEmission.toPage]
    cases b.event <;> rfl
  cases duty with
  | receive => exact absurd hown (by simp [Duty.isOwn])
  | finish k outcome =>
    rw [perform]
    split
    · simp
    · split
      · simp
      · exact hbrowser _
  | ping ok =>
    rw [perform]
    split_ifs
    · exact hbrowser _
    · simp
  | roomId roomId =>
    intro e he
    rw [List.mem_singleton.mp he]
    rfl
  | peerConnection => exact hbrowser _
  | peerDisconnected => exact hbrowser _
  | server => simp [perform]

theorem countP_arriving {t : Tab} {emissions : List PageEmission}
    (h : ∀ e ∈ emissions, e.message.isDeviceList = false) :
    (arriving emissions t).countP (·.isDeviceList) = 0 := by
  rw [List.countP_eq_zero]
  intro m hm
  obtain ⟨e, he, rfl⟩ := List.mem_map.mp hm
  rw [h e (List.mem_filter.mp he).1]
  exact Bool.false_ne_true

/-- An event of the page: what it sends for the lists is what it has rendered. -/
theorem lists_on {t : Tab} (e : PageEvent) (h : (t.page.step e).socketConnected = true) :
    (t.on e).outbox.countP Page.isDeviceRequest
      = t.outbox.countP Page.isDeviceRequest + 2 * ((t.on e).page.renders - t.page.renders) := by
  show (t.outbox ++ (t.page.on e).2).countP _ = _
  rw [List.countP_append, (t.page.effect_on e).devices, if_pos h]
  rfl

/-- The lists in flight, for a page that keeps its connection. -/
structure ListsMove (t t' : Tab) (read : ℕ) : Prop where
  sid : t'.sid = t.sid
  renders : t.page.renders + read ≤ t'.page.renders
  lists : t'.lists + read = t.lists + 2 * (t'.page.renders - t.page.renders)

section

variable {t : Tab}

theorem listsMove_refl (t : Tab) : ListsMove t t 0 := ⟨rfl, le_rfl, by omega⟩

theorem listsMove_read (hsocket : t.page.socketConnected = true) {m : PageMessage}
    {inbox : List PageMessage} (hinbox : t.inbox = m :: inbox) :
    ListsMove t (Tab.on { t with inbox := inbox } (.message m))
      (if m.isDeviceList then 1 else 0) := by
  have heffect := t.page.effect_on (.message m)
  have houtbox := lists_on (t := { t with inbox := inbox }) (.message m)
    (heffect.socketConnected.trans hsocket)
  refine ⟨rfl, ?_, ?_⟩
  · show t.page.renders + _ ≤ (t.page.step (.message m)).renders
    cases m with
    | cameraList | audioDeviceList => exact le_rfl
    | _ => exact heffect.renders
  · rw [Tab.lists, Tab.lists, houtbox, hinbox, List.countP_cons]
    show _ + inbox.countP _ + _ = _
    dsimp only
    omega

theorem listsMove_act (hsocket : t.page.socketConnected = true) (a : Page.Action) :
    ListsMove t (t.on (.action a)) 0 := by
  have heffect := t.page.effect_on (.action a)
  refine ⟨rfl, heffect.renders, ?_⟩
  rw [Tab.lists, Tab.lists, lists_on (.action a) (heffect.socketConnected.trans hsocket)]
  show _ + t.inbox.countP _ + 0 = _
  omega

theorem listsMove_arrive {emissions : List PageEmission}
    (h : (arriving emissions t).countP (·.isDeviceList) = 0) :
    ListsMove t (t.arrive (arriving emissions t)) 0 := by
  refine ⟨rfl, le_rfl, ?_⟩
  show t.outbox.countP _ + (t.inbox ++ arriving emissions t).countP _ + 0
    = t.lists + 2 * (t.page.renders - t.page.renders)
  rw [List.countP_append, h, Tab.lists]
  omega

/-- A request for a list turns into a list. -/
theorem listsMove_receive {sid : String} (hsid : t.sid = some sid) {r : PageRequest}
    {outbox : List PageRequest} (houtbox : t.outbox = r :: outbox) (devices : List DeviceInfo) :
    ListsMove t (Tab.arrive { t with outbox := outbox }
      (arriving (w.receive sid devices r).2 { t with outbox := outbox })) 0 := by
  refine ⟨rfl, le_rfl, ?_⟩
  show outbox.countP _ + (t.inbox ++ arriving _ { t with outbox := outbox }).countP _ + 0
    = t.lists + 2 * (t.page.renders - t.page.renders)
  rw [Tab.lists, houtbox, List.countP_append, List.countP_cons]
  rcases receive_lists w sid devices r with ⟨hrequest, m, hm, hsent⟩ | ⟨hrequest, hsent⟩
  · have haddressed : Addresses (some sid) { t with outbox := outbox } :=
      ⟨by rw [hsid]; rfl, .inr hsid.symm⟩
    rw [hsent, arriving_singleton, if_pos haddressed, List.countP_singleton]
    simp only [hm, hrequest, if_true]
    omega
  · rw [countP_arriving hsent]
    simp only [hrequest, Bool.false_eq_true, if_false]
    omega

end

/-- The handling of some page's request. -/
theorem listsMove_duty_receive {w : World} (hdistinct : w.Distinct) {j : ℕ} {sid : String}
    {r : PageRequest} {outbox : List PageRequest} (hsid : (w.tabs j).sid = some sid)
    (houtbox : (w.tabs j).outbox = r :: outbox) (devices : List DeviceInfo) (i : ℕ) :
    ListsMove (w.tabs i) (((w.updateTab j { w.tabs j with outbox := outbox }).duty py
      (.receive sid devices r)).tabs i) 0 := by
  rw [duty_tabs]
  by_cases hij : i = j
  · subst hij
    rw [updateTab_same]
    exact listsMove_receive _ hsid houtbox devices
  · rw [updateTab_of_ne w hij]
    refine listsMove_arrive ?_
    -- a list goes to the page that has asked for it
    rcases receive_lists (w.updateTab j { w.tabs j with outbox := outbox }) sid devices r with
      ⟨-, m, -, hsent⟩ | ⟨-, hsent⟩
    · have haddressed : ¬ Addresses (some sid) (w.tabs i) := by
        rintro ⟨-, hnone | hsame⟩
        · exact absurd hnone (by simp)
        · exact hij (hdistinct.injective i j sid hsame.symm hsid)
      show (arriving (receive _ sid devices r).2 (w.tabs i)).countP _ = 0
      rw [hsent, arriving_singleton, if_neg haddressed, List.countP_nil]
    · exact countP_arriving hsent

theorem listsMove_step {w : World} (hsound : w.Sound) (hdistinct : w.Distinct) {i : ℕ}
    (hopen : (w.tabs i).sid.isSome = true) {a : Action} (hstays : Stays i a) :
    ListsMove (w.tabs i) ((w.step d py a).tabs i) (readsList i w a) := by
  have hsocket : (w.tabs i).page.socketConnected = true := (hsound i).socket.trans hopen
  have hother : ∀ {w' : World} {j : ℕ} {t : Tab}, i ≠ j → w'.tabs = w.tabs →
      ListsMove (w.tabs i) ((w'.updateTab j t).tabs i) 0 := by
    intro w' j t hij htabs
    rw [updateTab_of_ne w' hij, htabs]
    exact listsMove_refl _
  cases a with
  | connect j sid =>
    rw [step]
    split_ifs with hused
    · exact listsMove_refl _
    · refine hother ?_ rfl
      rintro rfl
      exact hused (.inl hopen)
  | disconnect j =>
    rw [step]
    split_ifs
    · exact hother (fun hij => hstays.1 (congrArg _ hij.symm)) rfl
    · exact listsMove_refl _
  | replaceSocket j =>
    rw [step]
    split_ifs with hj
    · exact listsMove_refl _
    · refine hother ?_ rfl
      rintro rfl
      exact hj hopen
  | reload j => exact hother (fun hij => hstays.2 (congrArg _ hij.symm)) rfl
  | read j =>
    rw [step, readsList]
    by_cases hij : j = i
    · subst hij
      cases hinbox : (w.tabs j).inbox with
      | nil => simpa using listsMove_refl (w.tabs j)
      | cons m inbox => simpa using listsMove_read hsocket hinbox
    · rw [if_neg fun h => hij h.1]
      split
      · exact listsMove_refl _
      · exact hother (Ne.symm hij) rfl
  | act j a =>
    rw [step]
    by_cases hij : j = i
    · subst hij
      rw [updateTab_same]
      exact listsMove_act hsocket a
    · exact hother (Ne.symm hij) rfl
  | receive j devices =>
    rw [step]
    split
    · rename_i sid r outbox hsid houtbox
      exact listsMove_duty_receive py hdistinct hsid houtbox devices i
    · exact listsMove_refl _
  | duty duty =>
    rw [step]
    split_ifs with hown
    · rw [duty_tabs]
      exact listsMove_arrive (countP_arriving (perform_lists py w hown))
    · exact listsMove_refl _

/-- A page with a connection always has lists to wait for. -/
def Waiting (w : World) : Prop := ∀ i, (w.tabs i).sid.isSome = true → 2 ≤ (w.tabs i).lists

theorem ListsMove.waiting {t t' : Tab} {read : ℕ} (h : ListsMove t t' read) (ht : 2 ≤ t.lists) :
    2 ≤ t'.lists := by
  have hlists := h.lists
  have hrenders := h.renders
  omega

theorem waiting_local {t t' : Tab} {alive : Bool} (hsound : SoundTab alive t)
    (h : t.sid.isSome = true → 2 ≤ t.lists) (hlocal : Local d alive t t')
    (hopen : t'.sid.isSome = true) : 2 ≤ t'.lists := by
  cases hlocal with
  | connect sid hnone =>
    rw [Tab.lists, lists_on .connect rfl]
    show 2 ≤ _ + 2 * (t.page.renders + 1 - t.page.renders) + _
    omega
  | disconnect => exact absurd hopen (by simp [Tab.on])
  | replaceSocket hnone =>
    have hsome : t.sid.isSome = true := hopen
    exact absurd (hnone ▸ hsome) (by simp)
  | reload => exact absurd hopen (by simp)
  | read m inbox hinbox =>
    exact (listsMove_read (hsound.socket.trans hopen) hinbox).waiting (h hopen)
  | act a => exact (listsMove_act (hsound.socket.trans hopen) a).waiting (h hopen)

theorem waiting_step {w : World} (hsound : w.Sound) (hdistinct : w.Distinct) (h : w.Waiting)
    (a : Action) : (w.step d py a).Waiting := by
  intro i hopen
  rcases w.step_cases py d a with hstep | ⟨j, t, hlocal, sids, hstep⟩ | ⟨duty, -, hown, hstep⟩ |
    ⟨j, devices, sid, r, outbox, -, hsid, houtbox, hstep⟩ <;> rw [hstep] at hopen ⊢
  · exact h i hopen
  · by_cases hij : i = j
    · subst hij
      rw [updateTab_same] at hopen ⊢
      exact waiting_local d (hsound i) (h i) hlocal hopen
    · rw [updateTab_of_ne _ hij] at hopen ⊢
      exact h i hopen
  · rw [duty_tabs] at hopen ⊢
    exact (listsMove_arrive (countP_arriving (perform_lists py w hown))).waiting (h i hopen)
  · have hmove := listsMove_duty_receive py hdistinct hsid houtbox devices i
    rw [hmove.sid] at hopen
    exact hmove.waiting (h i hopen)

theorem ListsMove.trans {t t' t'' : Tab} {read read' : ℕ} (h : ListsMove t t' read)
    (h' : ListsMove t' t'' read') : ListsMove t t'' (read + read') := by
  have hrenders := h.renders
  have hrenders' := h'.renders
  have hlists := h.lists
  have hlists' := h'.lists
  exact ⟨h'.sid.trans h.sid, by omega, by omega⟩

theorem listsMove_run {i : ℕ} {actions : List Action} (hstays : ∀ a ∈ actions, Stays i a) :
    ∀ {w : World}, w.Sound → w.Distinct → (w.tabs i).sid.isSome = true →
      ListsMove (w.tabs i) ((actions.foldl (step d py) w).tabs i) (listsRead d py i w actions) := by
  induction actions with
  | nil => exact fun {w} _ _ _ => listsMove_refl (w.tabs i)
  | cons a actions ih =>
    intro w hsound hdistinct hopen
    have hmove := listsMove_step d py hsound hdistinct hopen (hstays a (by simp))
    exact hmove.trans (ih (fun b hb => hstays b (by simp [hb])) (sound_step py d w a hsound)
      (distinct_step d py w a hdistinct) (hmove.sid ▸ hopen))

theorem waiting_run (actions : List Action) :
    (actions.foldl (step d py) (start server)).Waiting := by
  have hinv := foldl_induction (f := step d py)
    (I := fun w => w.Sound ∧ w.Distinct ∧ w.Waiting)
    ⟨sound_run d py server [], distinct_run d py server [],
      fun i hopen => absurd hopen (by simp [start])⟩
      (fun w a h => ⟨sound_step py d w a h.1, distinct_step d py w a h.2.1,
        waiting_step d py h.1 h.2.1 h.2.2 a⟩) actions
  exact hinv.2.2

/-- **Asking for the device lists never ends.**  A page with a connection always has at least two
requests or lists in flight; as long as it keeps the connection every `render` adds two and
every list that is read, which renders, takes away one: what is in flight never becomes less and
has doubled once as many lists have been read. -/
theorem device_lists_never_settle (before actions : List Action) (i : ℕ)
    (hopen : ((before.foldl (step d py) (start server)).tabs i).sid.isSome = true)
    (hstays : ∀ a ∈ actions, Stays i a) :
    let w := before.foldl (step d py) (start server)
    let w' := actions.foldl (step d py) w
    2 ≤ (w.tabs i).lists ∧
      (w'.tabs i).lists + listsRead d py i w actions
        = (w.tabs i).lists + 2 * ((w'.tabs i).page.renders - (w.tabs i).page.renders) ∧
      (w.tabs i).lists + listsRead d py i w actions ≤ (w'.tabs i).lists := by
  intro w w'
  have hmove := listsMove_run d py hstays (sound_run d py server before)
    (distinct_run d py server before) hopen
  have hrenders : (w.tabs i).page.renders + listsRead d py i w actions
      ≤ (w'.tabs i).page.renders := hmove.renders
  have hlists : (w'.tabs i).lists + listsRead d py i w actions
      = (w.tabs i).lists + 2 * ((w'.tabs i).page.renders - (w.tabs i).page.renders) := hmove.lists
  exact ⟨waiting_run d py server before i hopen, hlists, by omega⟩

/-- A page connects and reads two lists. -/
theorem two_lists_read :
    let w := [Action.connect 0 "s1"].foldl (step Defaults.unset Python.plain)
      (start { apiEndpoint := ⟨some "10.0.0.9", .int 5050, none⟩ })
    let actions := [Action.receive 0 [], .receive 0 [], .read 0, .read 0, .read 0]
    let w' := actions.foldl (step Defaults.unset Python.plain) w
    2 ≤ (w.tabs 0).lists ∧
      (w'.tabs 0).lists + listsRead Defaults.unset Python.plain 0 w actions
        = (w.tabs 0).lists + 2 * ((w'.tabs 0).page.renders - (w.tabs 0).page.renders) ∧
      (w.tabs 0).lists + listsRead Defaults.unset Python.plain 0 w actions ≤ (w'.tabs 0).lists :=
  device_lists_never_settle Defaults.unset Python.plain _ [.connect 0 "s1"] _ 0 rfl
    (by simp [Stays])

end World

end PageLink
