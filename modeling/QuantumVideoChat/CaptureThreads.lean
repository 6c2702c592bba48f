/-
The capture threads of a middleware (`middleware/server_comms.py`, `middleware/events.py`,
`middleware/video.py`, `middleware/audio.py`).

The handlers are greenlets: `start_video` and `start_audio` wait for the end of the old thread
before a new one takes its place, `leave_room` waits for the server, and meanwhile any other
handler may run.  Every thread ever started is kept, so that one can be found that nothing
refers to any more.

* `moves_step` — what a step can do to the threads of one medium;
* `starts_iff_grows` — which threads a step starts, told from the state before it;
* `noOrphan_step_iff` — a step leaves no orphan exactly when a thread that it replaces has
  been told to stop;
* `told_of_leaving` — while `leave_room` waits, every thread from before it is told to stop;
* `no_orphans_of_keepsTrack` — when no capture thread is lost.
-/
import QuantumVideoChat.Cooperative
import QuantumVideoChat.Transition

namespace CaptureThreads

open Cooperative Transition

/-! ### Threads -/

/-- A `VideoThread` or `AudioThread` after its `start`. -/
structure CaptureThread where
  stopEvent : Bool := false
  alive : Bool := true
  deriving DecidableEq

namespace CaptureThread

/-- `stop`; the loop ends some time later. -/
def stop (t : CaptureThread) : CaptureThread := { t with stopEvent := true }

/-- The loop ends: the event is set, or an exception gets through. -/
def finish (t : CaptureThread) : CaptureThread := { t with alive := false }

/-- The thread is in its loop and will stay there. -/
def Capturing (t : CaptureThread) : Prop := t.alive = true ∧ t.stopEvent = false

instance (t : CaptureThread) : Decidable t.Capturing := inferInstanceAs (Decidable (_ ∧ _))

end CaptureThread

/-- The threads started so far, and the one that `state.video_thread` or
`state.audio_thread` refers to. -/
structure Capture where
  threads : List CaptureThread := []
  current : Option ℕ := none
  current_lt : ∀ t ∈ current, t < threads.length := by simp

namespace Capture

/-- The reference is not `None`, and the thread is alive. -/
def isAlive (c : Capture) : Bool := c.current.any fun t => c.threads[t]?.any (·.alive)

/-- The threads once the current one is told to stop. -/
def stopCurrent (c : Capture) : List CaptureThread :=
  match c.current with
  | none => c.threads
  | some t => c.threads.modify t CaptureThread.stop

theorem length_stopCurrent (c : Capture) : c.stopCurrent.length = c.threads.length := by
  rw [stopCurrent]
  cases c.current with
  | none => rfl
  | some t => exact List.length_modify ..

def stop (c : Capture) : Capture where
  threads := c.stopCurrent
  current := c.current
  current_lt := by
    rw [length_stopCurrent]
    exact c.current_lt

/-- `stop()` and then `None`. -/
def release (c : Capture) : Capture where
  threads := c.stopCurrent

/-- A new thread takes the place of the current one and starts. -/
def launch (c : Capture) : Capture where
  threads := c.threads ++ [{}]
  current := some c.threads.length

def finish (c : Capture) (t : ℕ) : Capture where
  threads := c.threads.modify t CaptureThread.finish
  current := c.current
  current_lt := by
    rw [List.length_modify]
    exact c.current_lt

end Capture

/-! ### Handlers -/

inductive Medium
  | video
  | audio
  deriving DecidableEq

instance {P : Medium → Prop} [DecidablePred P] : Decidable (∀ m, P m) :=
  decidable_of_iff (P .video ∧ P .audio)
    ⟨fun h m => by cases m; exacts [h.1, h.2], fun h => ⟨h _, h _⟩⟩

abbrev Media := Medium → Capture

/-- What a handler waits for.  `since` counts the threads that were there when leaving
began. -/
inductive Task
  /-- `start_video`: the end of `join` -/
  | startVideo
  /-- `start_video`, with `start_audio` to follow: the same -/
  | roomId
  /-- `start_audio`: the end of `join` -/
  | startAudio
  /-- `select_audio`: the end of its own `join` -/
  | selectAudio
  /-- `leave_room`: the server, which it waits for that many times more -/
  | leaving (since : Medium → ℕ) (waits : ℕ)

/-- A call of `start_video` or `start_audio` is in progress. -/
def Task.starting : Task → Bool
  | .startVideo | .roomId | .startAudio => true
  | .selectAudio | .leaving _ _ => false

/-- `start_video` or `start_audio` from the constructor on, which may raise; `next` is the
rest of the handler. -/
def launch (m : Medium) (constructed : Bool) (next : Media → Media × Option Task) (s : Media) :
    Media × Option Task :=
  if constructed then next (Function.update s m (s m).launch) else (s, none)

/-- `start_video` or `start_audio`: a live thread is told to stop, and its end awaited. -/
def start (m : Medium) (constructed : Bool) (task : Task) (next : Media → Media × Option Task)
    (s : Media) : Media × Option Task :=
  if (s m).isAlive then (Function.update s m (s m).stop, some task)
  else launch m constructed next s

/-- The handler returns. -/
def done (s : Media) : Media × Option Task := (s, none)

def startVideo (constructed : Bool) : Media → Media × Option Task :=
  start .video constructed .startVideo done

def startAudio (constructed : Bool) : Media → Media × Option Task :=
  start .audio constructed .startAudio done

/-- `_server_room_id`: `start_video`, then `start_audio`. -/
def roomId (constructed : Medium → Bool) : Media → Media × Option Task :=
  start .video (constructed .video) .roomId (startAudio (constructed .audio))

/-- `select_camera`. -/
def selectCamera (constructed : Bool) : Media → Media × Option Task := startVideo constructed

/-- `select_audio`: `start_audio` is called only after a thread that was alive. -/
def selectAudio (s : Media) : Media × Option Task :=
  if (s .audio).isAlive then (Function.update s .audio (s .audio).stop, some .selectAudio)
  else done s

/-- Both threads are told to stop, and the references are `None`. -/
def release (s : Media) : Media := fun m => (s m).release

/-- `leave_room`; how often it waits depends on the connection and the address. -/
def leaveRoom (waits : ℕ) (s : Media) : Media × Option Task :=
  match waits with
  | 0 => done (release s)
  | waits + 1 => (release s, some (.leaving (fun m => (s m).threads.length) waits))

/-- What a task does when its wait is over. -/
def run (s : Media) : Task → (Medium → Bool) → Media × Option Task
  | .startVideo, constructed => launch .video (constructed .video) done s
  | .roomId, constructed =>
    launch .video (constructed .video) (startAudio (constructed .audio)) s
  | .startAudio, constructed => launch .audio (constructed .audio) done s
  | .selectAudio, constructed => startAudio (constructed .audio) s
  | .leaving _ 0, _ => done s
  | .leaving since (waits + 1), _ => (s, some (.leaving since waits))

/-! ### Steps -/

/-- An event arrives, a wait is over, or a thread ends.  Which constructors succeed is part of
the action. -/
inductive Action
  | roomId (constructed : Medium → Bool)
  | selectCamera (constructed : Bool)
  | selectAudio
  | leaveRoom (waits : ℕ)
  | peerDisconnected
  | resume (i : ℕ) (constructed : Medium → Bool)
  | finish (m : Medium) (t : ℕ)

abbrev Middleware := Pool Media Task

/-- Nothing has been started. -/
def init : Middleware where
  shared := fun _ => {}

def step (p : Middleware) : Action → Middleware
  | .roomId constructed => p.spawn (roomId constructed p.shared)
  | .selectCamera constructed => p.spawn (selectCamera constructed p.shared)
  | .selectAudio => p.spawn (selectAudio p.shared)
  | .leaveRoom waits => p.spawn (leaveRoom waits p.shared)
  -- what `/peer_disconnected` does after the release concerns the socket only
  | .peerDisconnected => { p with shared := release p.shared }
  | .resume i constructed => p.resume run i constructed
  | .finish m t => { p with shared := Function.update p.shared m ((p.shared m).finish t) }

/-! ### Orphans -/

namespace Capture

/-- A started thread that was not told to stop is the current one. -/
def NoOrphan (c : Capture) : Prop :=
  ∀ t thread, c.threads[t]? = some thread → thread.stopEvent = false → c.current = some t

/-- The current thread, if there is one, has been told to stop. -/
def Replaceable (c : Capture) : Prop :=
  ∀ t ∈ c.current, ∀ thread ∈ c.threads[t]?, thread.stopEvent = true

instance (c : Capture) : Decidable c.Replaceable :=
  inferInstanceAs (Decidable (∀ t ∈ c.current, ∀ thread ∈ c.threads[t]?, thread.stopEvent = true))

/-- The thread has been told to stop. -/
def Told (c : Capture) (t : ℕ) : Prop :=
  ∃ thread, c.threads[t]? = some thread ∧ thread.stopEvent = true

/-- What can happen to the threads of a medium. -/
inductive Moves (c : Capture) : Capture → Prop
  | stay : Moves c c
  | stop : Moves c c.stop
  | release : Moves c c.release
  | launch : Moves c c.launch
  | finish (t : ℕ) : Moves c (c.finish t)

variable {c c' : Capture}

theorem getElem?_stopCurrent (c : Capture) (t : ℕ) :
    c.stopCurrent[t]?
      = if c.current = some t then c.threads[t]?.map CaptureThread.stop else c.threads[t]? := by
  rw [stopCurrent]
  cases hcurrent : c.current with
  | none => simp
  | some i =>
    rw [List.getElem?_modify]
    by_cases hit : i = t
    · simp [hit]
    · simp [hit]

/-- Once the current thread is told to stop, those not told are the orphans. -/
theorem noOrphan_iff_stopCurrent :
    c.NoOrphan ↔ ∀ (t : ℕ) (thread : CaptureThread),
      c.stopCurrent[t]? = some thread → thread.stopEvent = true := by
  constructor
  · intro h t thread hget
    rw [getElem?_stopCurrent] at hget
    split_ifs at hget with hcurrent
    · obtain ⟨old, -, rfl⟩ := Option.map_eq_some_iff.mp hget
      rfl
    · by_contra huntold
      exact hcurrent (h t thread hget (by simpa using huntold))
  · intro h t thread hget huntold
    by_contra hcurrent
    have htold := h t thread (by rw [getElem?_stopCurrent, if_neg hcurrent, hget])
    exact absurd (huntold.symm.trans htold) (by simp)

theorem noOrphan_release_iff : c.release.NoOrphan ↔ c.NoOrphan := by
  rw [noOrphan_iff_stopCurrent (c := c)]
  constructor
  · intro h t thread hget
    by_contra huntold
    exact absurd (h t thread hget (by simpa using huntold)) (by simp [release])
  · intro h t thread hget huntold
    exact absurd (huntold.symm.trans (h t thread hget)) (by simp)

theorem noOrphan_stop_iff : c.stop.NoOrphan ↔ c.NoOrphan := by
  rw [noOrphan_iff_stopCurrent (c := c)]
  constructor
  · intro h t thread hget
    by_contra huntold
    have hcurrent : c.current = some t := h t thread hget (by simpa using huntold)
    rw [getElem?_stopCurrent, if_pos hcurrent] at hget
    obtain ⟨old, -, rfl⟩ := Option.map_eq_some_iff.mp hget
    exact huntold rfl
  · intro h t thread hget huntold
    exact absurd (huntold.symm.trans (h t thread hget)) (by simp)

/-- A launch makes an orphan of the thread it replaces, unless that one was told to stop. -/
theorem noOrphan_launch_iff : c.launch.NoOrphan ↔ c.NoOrphan ∧ c.Replaceable := by
  have hold : ∀ t < c.threads.length, c.launch.threads[t]? = c.threads[t]? := fun t ht => by
    rw [launch, List.getElem?_append_left ht]
  constructor
  · intro h
    have htold : ∀ (t : ℕ) (thread : CaptureThread), c.threads[t]? = some thread →
        thread.stopEvent = true := by
      intro t thread hget
      by_contra huntold
      have hlt := (List.getElem?_eq_some_iff.mp hget).1
      have hcurrent : some c.threads.length = some t :=
        h t thread (by rw [hold t hlt, hget]) (by simpa using huntold)
      exact (Nat.ne_of_lt hlt).symm (Option.some_inj.mp hcurrent)
    refine ⟨fun t thread hget huntold => ?_, fun t _ => htold t⟩
    exact absurd (huntold.symm.trans (htold t thread hget)) (by simp)
  · rintro ⟨h, hreplaceable⟩ t thread hget huntold
    by_cases ht : t < c.threads.length
    · rw [hold t ht] at hget
      have htold := hreplaceable t (h t thread hget huntold) thread hget
      exact absurd (huntold.symm.trans htold) (by simp)
    · -- the thread just started
      have hlt : t < (c.threads ++ [({} : CaptureThread)]).length :=
        (List.getElem?_eq_some_iff.mp hget).1
      rw [List.length_append, List.length_singleton] at hlt
      exact congrArg some (by omega)

theorem getElem?_finish (c : Capture) (t i : ℕ) :
    (c.finish t).threads[i]?
      = if t = i then c.threads[i]?.map CaptureThread.finish else c.threads[i]? := by
  rw [finish, List.getElem?_modify]
  split_ifs with h
  · rfl
  · simp

theorem noOrphan_finish_iff (t : ℕ) : (c.finish t).NoOrphan ↔ c.NoOrphan := by
  constructor
  · intro h i thread hi huntold
    by_cases hit : t = i
    · exact h i thread.finish (by rw [getElem?_finish, if_pos hit, hi]; rfl) huntold
    · exact h i thread (by rw [getElem?_finish, if_neg hit, hi]) huntold
  · intro h i thread hi huntold
    rw [getElem?_finish] at hi
    split_ifs at hi
    · obtain ⟨old, hold, rfl⟩ := Option.map_eq_some_iff.mp hi
      exact h i old hold huntold
    · exact h i thread hi huntold

/-- No move mends an orphan, and only a launch can make one. -/
theorem Moves.noOrphan_iff (h : Moves c c') :
    c'.NoOrphan ↔
      c.NoOrphan ∧ (c.threads.length < c'.threads.length → c.Replaceable) := by
  have hkept : ∀ {d : Capture}, d.threads.length = c.threads.length →
      (c.threads.length < d.threads.length → c.Replaceable) := fun heq hlt => by omega
  cases h with
  | stay => exact (and_iff_left (hkept rfl)).symm
  | stop =>
    rw [noOrphan_stop_iff]
    exact (and_iff_left (hkept c.length_stopCurrent)).symm
  | release =>
    rw [noOrphan_release_iff]
    exact (and_iff_left (hkept c.length_stopCurrent)).symm
  | launch =>
    rw [noOrphan_launch_iff]
    have hlt : c.threads.length < c.launch.threads.length := by
      rw [Capture.launch, List.length_append, List.length_singleton]
      exact Nat.lt_succ_self _
    exact and_congr_right fun _ => ⟨fun hr _ => hr, fun hr => hr hlt⟩
  | finish t =>
    rw [noOrphan_finish_iff]
    exact (and_iff_left (hkept (List.length_modify ..))).symm

theorem told_stopCurrent {t : ℕ} (ht : c.Told t) :
    ∃ thread, c.stopCurrent[t]? = some thread ∧ thread.stopEvent = true := by
  obtain ⟨thread, hget, htold⟩ := ht
  rw [getElem?_stopCurrent, hget]
  split_ifs
  · exact ⟨thread.stop, rfl, rfl⟩
  · exact ⟨thread, rfl, htold⟩

/-- What a thread was told it is not told otherwise. -/
theorem Moves.told (h : Moves c c') {t : ℕ} (ht : c.Told t) : c'.Told t := by
  cases h with
  | stay => exact ht
  | stop => exact told_stopCurrent ht
  | release => exact told_stopCurrent ht
  | launch =>
    obtain ⟨thread, hget, htold⟩ := ht
    refine ⟨thread, ?_, htold⟩
    rw [Capture.launch, List.getElem?_append_left (List.getElem?_eq_some_iff.mp hget).1, hget]
  | finish i =>
    obtain ⟨thread, hget, htold⟩ := ht
    rw [Told, getElem?_finish, hget]
    split_ifs
    · exact ⟨thread.finish, rfl, htold⟩
    · exact ⟨thread, rfl, htold⟩

/-- After a release every thread has been told to stop. -/
theorem told_release (h : c.NoOrphan) {t : ℕ} (ht : t < c.threads.length) : c.release.Told t := by
  have hlt : t < c.stopCurrent.length := by rwa [length_stopCurrent]
  exact ⟨c.stopCurrent[t], List.getElem?_eq_getElem hlt,
    noOrphan_iff_stopCurrent.mp h t _ (List.getElem?_eq_getElem hlt)⟩

end Capture

variable {s : Media} {p : Middleware}

/-! ### What a step does -/

theorem moves_update (s : Media) {m : Medium} {c : Capture} (h : (s m).Moves c) (m' : Medium) :
    (s m').Moves (Function.update s m c m') := by
  by_cases hm : m' = m
  · subst hm
    rwa [Function.update_self]
  · rw [Function.update_of_ne hm]
    exact .stay

/-- `start_audio` touches the audio threads only. -/
theorem startAudio_cases (constructed : Bool) (s : Media) :
    (startAudio constructed s).1 .video = s .video ∧
      (s .audio).Moves ((startAudio constructed s).1 .audio) := by
  rw [startAudio, start, launch]
  split_ifs
  · exact ⟨rfl, .stop⟩
  · exact ⟨rfl, .launch⟩
  · exact ⟨rfl, .stay⟩

theorem moves_startAudio (constructed : Bool) (s : Media) (m : Medium) :
    (s m).Moves ((startAudio constructed s).1 m) := by
  obtain ⟨hvideo, haudio⟩ := startAudio_cases constructed s
  cases m with
  | video =>
    rw [hvideo]
    exact .stay
  | audio => exact haudio

/-- A launch of the video thread, with or without `start_audio` after it. -/
theorem moves_launchVideo (constructed : Bool) {next : Media → Media × Option Task}
    (hvideo : ∀ s : Media, (next s).1 .video = s .video)
    (haudio : ∀ s : Media, (s .audio).Moves ((next s).1 .audio)) (s : Media) (m : Medium) :
    (s m).Moves ((launch .video constructed next s).1 m) := by
  rw [launch]
  split_ifs
  · cases m with
    | video =>
      rw [hvideo, Function.update_self]
      exact .launch
    | audio => exact haudio (Function.update s .video (s .video).launch)
  · exact .stay

theorem moves_startVideo (constructed : Bool) (task : Task) {next : Media → Media × Option Task}
    (hvideo : ∀ s : Media, (next s).1 .video = s .video)
    (haudio : ∀ s : Media, (s .audio).Moves ((next s).1 .audio)) (s : Media) (m : Medium) :
    (s m).Moves ((start .video constructed task next s).1 m) := by
  rw [start]
  split_ifs
  · exact moves_update s .stop m
  · exact moves_launchVideo constructed hvideo haudio s m

theorem moves_run (s : Media) (task : Task) (constructed : Medium → Bool) (m : Medium) :
    (s m).Moves ((run s task constructed).1 m) := by
  cases task with
  | startVideo => exact moves_launchVideo _ (fun _ => rfl) (fun _ => .stay) s m
  | roomId =>
    exact moves_launchVideo _ (fun s => (startAudio_cases _ s).1)
      (fun s => (startAudio_cases _ s).2) s m
  | startAudio =>
    rw [run, launch]
    split_ifs
    · exact moves_update s .launch m
    · exact .stay
  | selectAudio => exact moves_startAudio _ s m
  | leaving since waits => cases waits <;> exact .stay

/-- What a step does to the threads of one medium. -/
theorem moves_step (p : Middleware) (a : Action) (m : Medium) :
    (p.shared m).Moves ((step p a).shared m) := by
  cases a with
  | roomId constructed =>
    rw [step, Pool.shared_spawn]
    exact moves_startVideo _ _ (fun s => (startAudio_cases _ s).1)
      (fun s => (startAudio_cases _ s).2) p.shared m
  | selectCamera constructed =>
    rw [step, Pool.shared_spawn]
    exact moves_startVideo _ _ (fun _ => rfl) (fun _ => .stay) p.shared m
  | selectAudio =>
    rw [step, Pool.shared_spawn, selectAudio]
    split_ifs
    · exact moves_update p.shared .stop m
    · exact .stay
  | leaveRoom waits =>
    rw [step, Pool.shared_spawn]
    cases waits <;> exact .release
  | peerDisconnected => exact .release
  | resume i constructed =>
    rw [step, Pool.resume]
    cases p.tasks[i]? with
    | none => exact .stay
    | some task =>
      have hmoves := moves_run p.shared task constructed m
      dsimp only
      rcases hrun : run p.shared task constructed with ⟨s, _ | task'⟩ <;> rwa [hrun] at hmoves
  | finish m' t => exact moves_update p.shared (.finish t) m

/-- No started thread is lost, of either medium. -/
def NoOrphans (p : Middleware) : Prop := ∀ m, (p.shared m).NoOrphan

/-! ### Which threads a step starts -/

/-- `start_video` or `start_audio` need not wait, and the constructor succeeds. -/
def Begins (s : Media) (m : Medium) (constructed : Bool) : Prop :=
  (s m).isAlive = false ∧ constructed = true

instance (s : Media) (m : Medium) (constructed : Bool) : Decidable (Begins s m constructed) :=
  inferInstanceAs (Decidable (_ ∧ _))

/-- The task starts a thread of `m` when its wait is over. -/
def Task.Starts (s : Media) (constructed : Medium → Bool) : Task → Medium → Prop
  | .startVideo, .video => constructed .video = true
  | .roomId, .video => constructed .video = true
  | .roomId, .audio => constructed .video = true ∧ Begins s .audio (constructed .audio)
  | .startAudio, .audio => constructed .audio = true
  | .selectAudio, .audio => Begins s .audio (constructed .audio)
  | _, _ => False

instance (s : Media) (constructed : Medium → Bool) :
    (task : Task) → (m : Medium) → Decidable (task.Starts s constructed m)
  | .startVideo, .video => inferInstanceAs (Decidable (_ = true))
  | .roomId, .video => inferInstanceAs (Decidable (_ = true))
  | .roomId, .audio => inferInstanceAs (Decidable (_ ∧ _))
  | .startAudio, .audio => inferInstanceAs (Decidable (_ = true))
  | .selectAudio, .audio => inferInstanceAs (Decidable (Begins ..))
  | .startVideo, .audio | .startAudio, .video | .selectAudio, .video | .leaving _ _, .video
  | .leaving _ _, .audio => inferInstanceAs (Decidable False)

/-- A thread of `m` is started when this happens next. -/
def Starts (p : Middleware) : Action → Medium → Prop
  | .roomId constructed, .video => Begins p.shared .video (constructed .video)
  | .roomId constructed, .audio =>
    Begins p.shared .video (constructed .video) ∧ Begins p.shared .audio (constructed .audio)
  | .selectCamera constructed, .video => Begins p.shared .video constructed
  | .resume i constructed, m => ∃ task ∈ p.tasks[i]?, task.Starts p.shared constructed m
  | _, _ => False

instance (p : Middleware) : (a : Action) → (m : Medium) → Decidable (Starts p a m)
  | .roomId _, .video => inferInstanceAs (Decidable (Begins ..))
  | .roomId _, .audio => inferInstanceAs (Decidable (_ ∧ _))
  | .selectCamera _, .video => inferInstanceAs (Decidable (Begins ..))
  | .resume i constructed, m =>
    inferInstanceAs (Decidable (∃ task ∈ p.tasks[i]?, task.Starts p.shared constructed m))
  | .selectCamera _, .audio | .selectAudio, .video | .selectAudio, .audio
  | .leaveRoom _, .video | .leaveRoom _, .audio | .peerDisconnected, .video
  | .peerDisconnected, .audio | .finish _ _, .video | .finish _ _, .audio =>
    inferInstanceAs (Decidable False)

/-- One more thread of `m` is there than before. -/
def Grows (s s' : Media) (m : Medium) : Prop := (s m).threads.length < (s' m).threads.length

theorem not_grows (s : Media) (m : Medium) : ¬ Grows s s m := Nat.lt_irrefl _

theorem grows_update_iff (s : Media) (m m' : Medium) (c : Capture) :
    Grows s (Function.update s m c) m' ↔
      m' = m ∧ (s m).threads.length < c.threads.length := by
  by_cases h : m' = m
  · subst h
    rw [Grows, Function.update_self, and_iff_right rfl]
  · rw [Grows, Function.update_of_ne h]
    exact iff_of_false (Nat.lt_irrefl _) fun h' => h h'.1

theorem grows_stop_iff (s : Media) (m m' : Medium) :
    ¬ Grows s (Function.update s m (s m).stop) m' := by
  rw [grows_update_iff]
  exact fun h => absurd h.2 (Nat.not_lt.mpr (Nat.le_of_eq (s m).length_stopCurrent))

theorem grows_launch_iff (s : Media) (m m' : Medium) (constructed : Bool) :
    Grows s (launch m constructed done s).1 m' ↔ m' = m ∧ constructed = true := by
  rw [launch]
  split_ifs with h
  · have hlt : (s m).threads.length < (s m).launch.threads.length := by
      rw [Capture.launch, List.length_append, List.length_singleton]
      exact Nat.lt_succ_self _
    exact (grows_update_iff s m m' _).trans (and_congr_right fun _ => iff_of_true hlt h)
  · exact iff_of_false (not_grows s m') fun h' => h h'.2

theorem grows_start_iff (s : Media) (m m' : Medium) (constructed : Bool) (task : Task) :
    Grows s (start m constructed task done s).1 m' ↔ m' = m ∧ Begins s m constructed := by
  rw [start]
  split_ifs with h
  · exact iff_of_false (grows_stop_iff s m m') fun h' => by simp [h'.2.1] at h
  · have hdead : (s m).isAlive = false := by simpa using h
    rw [grows_launch_iff, Begins, and_iff_right hdead]

/-- `start_audio` finds the audio threads as they were before the video thread. -/
theorem grows_launch_roomId_iff (s : Media) (constructed : Medium → Bool) (m : Medium) :
    Grows s (launch .video (constructed .video) (startAudio (constructed .audio)) s).1 m ↔
      Task.roomId.Starts s constructed m := by
  rw [launch]
  split_ifs with h
  · cases m with
    | video =>
      rw [Grows, (startAudio_cases _ _).1]
      exact iff_of_true (((grows_launch_iff s .video .video true).mpr ⟨rfl, rfl⟩)) h
    | audio =>
      have haudio := grows_start_iff (Function.update s .video (s .video).launch) .audio .audio
        (constructed .audio) .startAudio
      rw [and_iff_right rfl] at haudio
      exact haudio.trans (and_iff_right h).symm
  · refine iff_of_false (not_grows s m) ?_
    cases m with
    | video => exact h
    | audio => exact fun h' => h h'.1

theorem grows_run_iff (s : Media) (task : Task) (constructed : Medium → Bool) (m : Medium) :
    Grows s (run s task constructed).1 m ↔ task.Starts s constructed m := by
  cases task with
  | startVideo =>
    rw [run, grows_launch_iff]
    cases m with
    | video => exact and_iff_right rfl
    | audio => exact iff_of_false (fun h => absurd h.1 (by simp)) id
  | roomId => exact grows_launch_roomId_iff s constructed m
  | startAudio =>
    rw [run, grows_launch_iff]
    cases m with
    | video => exact iff_of_false (fun h => absurd h.1 (by simp)) id
    | audio => exact and_iff_right rfl
  | selectAudio =>
    rw [run, startAudio, grows_start_iff]
    cases m with
    | video => exact iff_of_false (fun h => absurd h.1 (by simp)) id
    | audio => exact and_iff_right rfl
  | leaving since waits => cases waits <;> cases m <;> exact iff_of_false (not_grows s _) id

/-- The state before says whether the step starts a thread. -/
theorem starts_iff_grows (p : Middleware) (a : Action) (m : Medium) :
    Starts p a m ↔ Grows p.shared (step p a).shared m := by
  cases a with
  | roomId constructed =>
    rw [step, Pool.shared_spawn, roomId, start]
    split_ifs with h
    · refine iff_of_false ?_ (grows_stop_iff p.shared .video m)
      cases m with
      | video => exact fun h' => by simp [h'.1] at h
      | audio => exact fun h' => by simp [h'.1.1] at h
    · rw [grows_launch_roomId_iff]
      have hdead : (p.shared .video).isAlive = false := by simpa using h
      cases m with
      | video => exact and_iff_right hdead
      | audio => exact and_congr_left fun _ => and_iff_right hdead
  | selectCamera constructed =>
    rw [step, Pool.shared_spawn, selectCamera, startVideo, grows_start_iff]
    cases m with
    | video => exact (and_iff_right rfl).symm
    | audio => exact iff_of_false id fun h => absurd h.1 (by simp)
  | selectAudio =>
    have hno : ¬ Grows p.shared (step p .selectAudio).shared m := by
      rw [step, Pool.shared_spawn, selectAudio]
      split_ifs
      · exact grows_stop_iff p.shared .audio m
      · exact not_grows p.shared m
    cases m <;> exact iff_of_false id hno
  | leaveRoom waits =>
    have hno : ¬ Grows p.shared (step p (.leaveRoom waits)).shared m := by
      rw [step, Pool.shared_spawn]
      cases waits <;> exact Nat.not_lt.mpr (Nat.le_of_eq (p.shared m).length_stopCurrent)
    cases m <;> exact iff_of_false id hno
  | peerDisconnected =>
    have hno : ¬ Grows p.shared (step p .peerDisconnected).shared m :=
      Nat.not_lt.mpr (Nat.le_of_eq (p.shared m).length_stopCurrent)
    cases m <;> exact iff_of_false id hno
  | resume i constructed =>
    rw [step, Pool.resume, Starts]
    cases p.tasks[i]? with
    | none => exact iff_of_false (by simp) (not_grows p.shared m)
    | some task =>
      have hgrows := grows_run_iff p.shared task constructed m
      have htask : (∃ t ∈ some task, t.Starts p.shared constructed m) ↔
          task.Starts p.shared constructed m := by simp
      dsimp only
      rw [htask, ← hgrows]
      rcases run p.shared task constructed with ⟨s, _ | task'⟩ <;> rfl
  | finish m' t =>
    have hno : ¬ Grows p.shared (step p (.finish m' t)).shared m := by
      rw [step, grows_update_iff]
      exact fun h => absurd h.2 (Nat.not_lt.mpr (Nat.le_of_eq (List.length_modify ..)))
    cases m <;> exact iff_of_false id hno

/-- A thread that the step starts takes the place of none, or of one that was told to stop. -/
def ReplacesTold (p : Middleware) (a : Action) : Prop :=
  ∀ m, Starts p a m → (p.shared m).Replaceable

instance (p : Middleware) (a : Action) : Decidable (ReplacesTold p a) :=
  inferInstanceAs (Decidable (∀ m, Starts p a m → (p.shared m).Replaceable))

theorem noOrphan_step_iff (p : Middleware) (a : Action) :
    NoOrphans (step p a) ↔ NoOrphans p ∧ ReplacesTold p a := by
  rw [NoOrphans, NoOrphans, ReplacesTold, ← forall_and]
  refine forall_congr' fun m => ?_
  rw [starts_iff_grows]
  exact (moves_step p a m).noOrphan_iff

/-! ### Leaving -/

/-- No call of `start_video` or `start_audio` is in progress. -/
def Quiet (p : Middleware) : Prop := ∀ task ∈ p.tasks, task.starting = false

instance : DecidablePred Quiet := fun p =>
  inferInstanceAs (Decidable (∀ task ∈ p.tasks, task.starting = false))

/-- No thread, of either medium, is capturing. -/
def Silent (p : Middleware) : Prop := ∀ m, ∀ thread ∈ (p.shared m).threads, ¬ thread.Capturing

/-- The count of a `leave_room` that returns when its wait is over. -/
def Task.returning : Task → Option (Medium → ℕ)
  | .leaving since 0 => some since
  | _ => none

/-- The step completes a `leave_room`. -/
def LeavesRoom (p : Middleware) : Action → Prop
  | .leaveRoom 0 => True
  | .resume i _ => ∃ since, since ∈ p.tasks[i]?.bind Task.returning
  | _ => False

/-- When `leave_room` completes, and no start is in progress, nothing is captured any more. -/
def LeavesSilent (p : Middleware) (a : Action) : Prop :=
  LeavesRoom p a → Quiet (step p a) → Silent (step p a)

/-- Where `leave_room` returns, and no start is in progress, the threads that were started
while it waited have been told to stop, or have ended. -/
def StoppedMeanwhile (p : Middleware) : Action → Prop
  | .resume i _ => ∀ since ∈ p.tasks[i]?.bind Task.returning, Quiet p →
    ∀ m, ∀ thread ∈ (p.shared m).threads.drop (since m), ¬ thread.Capturing
  | _ => True

instance (p : Middleware) : DecidablePred (StoppedMeanwhile p)
  | .resume i _ =>
    inferInstanceAs (Decidable (∀ since ∈ p.tasks[i]?.bind Task.returning, Quiet p →
      ∀ m, ∀ thread ∈ (p.shared m).threads.drop (since m), ¬ thread.Capturing))
  | .roomId _ | .selectCamera _ | .selectAudio | .leaveRoom _ | .peerDisconnected
  | .finish _ _ => inferInstanceAs (Decidable True)

theorem mem_returning_iff {i : ℕ} {since : Medium → ℕ} :
    since ∈ p.tasks[i]?.bind Task.returning ↔ p.tasks[i]? = some (.leaving since 0) := by
  rw [Option.mem_def, Option.bind_eq_some_iff]
  constructor
  · rintro ⟨task, hget, hreturning⟩
    rw [hget]
    unfold Task.returning at hreturning
    split at hreturning
    · rw [Option.some_inj.mp hreturning]
    · exact absurd hreturning (by simp)
  · exact fun hget => ⟨_, hget, rfl⟩

/-- The threads that were there when a waiting `leave_room` began have been told to stop. -/
def LeftTold (p : Middleware) : Prop :=
  ∀ since waits, Task.leaving since waits ∈ p.tasks →
    ∀ m, ∀ t < since m, (p.shared m).Told t

section

variable {P : Task → Prop} {m : Medium} {constructed : Bool} {next : Media → Media × Option Task}

/-- What a handler goes on to wait for: `P` holds of the join and of all that comes after. -/
theorem tasks_launch (hnext : ∀ s, ∀ t ∈ (next s).2, P t) (s : Media) :
    ∀ t ∈ (launch m constructed next s).2, P t := by
  rw [launch]
  split_ifs
  · exact hnext _
  · exact fun t ht => absurd ht (by simp)

theorem tasks_start {task : Task} (htask : P task) (hnext : ∀ s, ∀ t ∈ (next s).2, P t)
    (s : Media) : ∀ t ∈ (start m constructed task next s).2, P t := by
  rw [start]
  split_ifs
  · intro t ht
    obtain rfl := Option.some_inj.mp ht
    exact htask
  · exact tasks_launch hnext s

theorem tasks_done (s : Media) : ∀ t ∈ (done s).2, P t := fun t ht => absurd ht (by simp [done])

theorem tasks_startAudio (htask : P .startAudio) (s : Media) :
    ∀ t ∈ (startAudio constructed s).2, P t := tasks_start htask tasks_done s

end

/-- A waiting `leave_room` was there before, or it begins. -/
theorem leaving_mem_step {a : Action} {since : Medium → ℕ} {waits : ℕ}
    (h : Task.leaving since waits ∈ (step p a).tasks) :
    (∃ waits', Task.leaving since waits' ∈ p.tasks) ∨
      ∃ waits', a = .leaveRoom waits' ∧ since = fun m => (p.shared m).threads.length := by
  -- none of the other handlers waits as `leave_room` does
  have hjoin : Task.startAudio ≠ .leaving since waits := by simp
  cases a with
  | roomId constructed =>
    rcases Pool.mem_tasks_spawn h with hold | hnew
    · exact .inl ⟨waits, hold⟩
    · exact absurd rfl (tasks_start (P := (· ≠ .leaving since waits)) (by simp)
        (tasks_startAudio hjoin) _ _ hnew)
  | selectCamera constructed =>
    rcases Pool.mem_tasks_spawn h with hold | hnew
    · exact .inl ⟨waits, hold⟩
    · exact absurd rfl (tasks_start (P := (· ≠ .leaving since waits)) (by simp) tasks_done _ _
        hnew)
  | selectAudio =>
    rcases Pool.mem_tasks_spawn h with hold | hnew
    · exact .inl ⟨waits, hold⟩
    · rw [selectAudio] at hnew
      split_ifs at hnew
      · exact absurd hnew (by simp)
      · exact absurd hnew (by simp [done])
  | leaveRoom waits' =>
    rcases Pool.mem_tasks_spawn h with hold | hnew
    · exact .inl ⟨waits, hold⟩
    · refine .inr ⟨waits', rfl, ?_⟩
      cases waits' with
      | zero => exact absurd hnew (by simp [leaveRoom, done])
      | succ n => exact ((Task.leaving.inj (Option.some_inj.mp hnew)).1).symm
  | peerDisconnected => exact .inl ⟨waits, h⟩
  | resume i constructed =>
    rcases Pool.mem_tasks_resume h with hold | ⟨task, hold, hnew⟩
    · exact .inl ⟨waits, hold⟩
    · cases task with
      | startVideo =>
        exact absurd rfl (tasks_launch (P := (· ≠ .leaving since waits)) tasks_done _ _ hnew)
      | roomId =>
        exact absurd rfl (tasks_launch (P := (· ≠ .leaving since waits)) (tasks_startAudio hjoin)
          _ _ hnew)
      | startAudio =>
        exact absurd rfl (tasks_launch (P := (· ≠ .leaving since waits)) tasks_done _ _ hnew)
      | selectAudio =>
        exact absurd rfl (tasks_startAudio (P := (· ≠ .leaving since waits)) hjoin _ _ hnew)
      | leaving since' waits' =>
        cases waits' with
        | zero => exact absurd hnew (by simp [run, done])
        | succ n =>
          obtain ⟨rfl, -⟩ := Task.leaving.inj (Option.some_inj.mp hnew)
          exact .inl ⟨n + 1, hold⟩
  | finish m t => exact .inl ⟨waits, h⟩

/-- While `leave_room` waits, the threads from before it stay told. -/
theorem told_of_leaving (h : NoOrphans p) (hleft : LeftTold p) (a : Action) :
    LeftTold (step p a) := by
  intro since waits hmem m t ht
  rcases leaving_mem_step hmem with ⟨waits', hold⟩ | ⟨waits', rfl, rfl⟩
  · exact (moves_step p a m).told (hleft since waits' hold m t ht)
  · rw [step, Pool.shared_spawn]
    cases waits' <;> exact Capture.told_release (h m) ht

theorem not_capturing_of_told {c : Capture} {t : ℕ} {thread : CaptureThread} (h : c.Told t)
    (hget : c.threads[t]? = some thread) : ¬ thread.Capturing := by
  obtain ⟨thread', hget', htold⟩ := h
  obtain rfl := Option.some_inj.mp (hget.symm.trans hget')
  exact fun hcapturing => absurd (htold.symm.trans hcapturing.2) (by simp)

/-- A `leave_room` that need not wait leaves nothing capturing. -/
theorem silent_leaveRoom (h : NoOrphans p) : Silent (step p (.leaveRoom 0)) := by
  intro m thread hmem
  obtain ⟨t, ht, hget⟩ := List.mem_iff_getElem.mp hmem
  have hlt : t < (p.shared m).threads.length :=
    lt_of_lt_of_eq ht (p.shared m).length_stopCurrent
  exact not_capturing_of_told (Capture.told_release (h m) hlt)
    (List.getElem?_eq_some_iff.mpr ⟨ht, hget⟩)

section

variable {i : ℕ} {constructed : Medium → Bool} {since : Medium → ℕ}

/-- A `leave_room` that returns only takes its task out of the pool. -/
theorem step_returning (hget : p.tasks[i]? = some (.leaving since 0)) :
    step p (.resume i constructed) = { shared := p.shared, tasks := p.tasks.eraseIdx i } :=
  Pool.resume_of_finished hget rfl

theorem quiet_returning_iff (hget : p.tasks[i]? = some (.leaving since 0)) :
    Quiet (step p (.resume i constructed)) ↔ Quiet p := by
  rw [step_returning hget]
  constructor
  · intro hq task htask
    obtain ⟨j, hj⟩ := List.mem_iff_getElem?.mp htask
    by_cases hji : j = i
    · -- the task that returns is no start
      subst hji
      rw [Option.some_inj.mp (hj.symm.trans hget)]
      rfl
    · exact hq task (List.mem_eraseIdx_iff_getElem?.mpr ⟨j, hji, hj⟩)
  · exact fun hq task htask => hq task (List.mem_of_mem_eraseIdx htask)

/-- What was there before is told to stop, so the threads from after the count decide. -/
theorem silent_returning_iff (hleft : LeftTold p) (hget : p.tasks[i]? = some (.leaving since 0)) :
    Silent (step p (.resume i constructed)) ↔
      ∀ m, ∀ thread ∈ (p.shared m).threads.drop (since m), ¬ thread.Capturing := by
  rw [step_returning hget]
  constructor
  · exact fun hall m thread hthread => hall m thread (List.mem_of_mem_drop hthread)
  · intro hnewer m thread hthread
    obtain ⟨t, ht⟩ := List.mem_iff_getElem?.mp hthread
    by_cases hold : t < since m
    · exact not_capturing_of_told (hleft since 0 (List.mem_of_getElem? hget) m t hold) ht
    · refine hnewer m thread (List.mem_iff_getElem?.mpr ⟨t - since m, ?_⟩)
      rw [List.getElem?_drop, Nat.add_sub_cancel' (Nat.le_of_not_lt hold), ht]

end

/-- For a `leave_room` that completes, only the threads started meanwhile are in question. -/
theorem leavesSilent_iff (h : NoOrphans p) (hleft : LeftTold p) (a : Action) :
    LeavesSilent p a ↔ StoppedMeanwhile p a := by
  cases a with
  | leaveRoom waits =>
    refine iff_of_true (fun hleaves _ => ?_) trivial
    cases waits with
    | zero => exact silent_leaveRoom h
    | succ n => exact hleaves.elim
  | resume i constructed =>
    constructor
    · intro hsilent since hmem hq
      have hget := mem_returning_iff.mp hmem
      exact (silent_returning_iff hleft hget).mp
        (hsilent ⟨since, hmem⟩ ((quiet_returning_iff hget).mpr hq))
    · rintro hstopped ⟨since, hmem⟩ hq
      have hget := mem_returning_iff.mp hmem
      exact (silent_returning_iff hleft hget).mpr
        (hstopped since hmem ((quiet_returning_iff hget).mp hq))
  | roomId constructed => exact iff_of_true (fun hleaves => hleaves.elim) trivial
  | selectCamera constructed => exact iff_of_true (fun hleaves => hleaves.elim) trivial
  | selectAudio => exact iff_of_true (fun hleaves => hleaves.elim) trivial
  | peerDisconnected => exact iff_of_true (fun hleaves => hleaves.elim) trivial
  | finish m t => exact iff_of_true (fun hleaves => hleaves.elim) trivial

/-! ### Runs -/

/-- The condition: whatever thread is replaced was told to stop, and so was, or has ended,
whatever was started behind the back of a `leave_room`. -/
def KeepsTrack (p : Middleware) (a : Action) : Prop := ReplacesTold p a ∧ StoppedMeanwhile p a

instance (p : Middleware) (a : Action) : Decidable (KeepsTrack p a) :=
  inferInstanceAs (Decidable (_ ∧ _))

/-- In every state of the run with no start in progress no thread is lost, and where a
`leave_room` completes with no start in progress nothing is captured any more. -/
def KeepsThreads (actions : List Action) : Prop :=
  Throughout step (fun p => Quiet p → NoOrphans p) init actions ∧
    Along step LeavesSilent init actions

theorem noOrphans_init : NoOrphans init := by
  intro m t thread hget
  exact absurd hget (by simp [init])

theorem leftTold_init : LeftTold init := by
  intro since waits hmem
  exact absurd hmem List.not_mem_nil

/-- **When no capture thread is lost.**  In every interleaving of the handlers whose steps all
meet the condition, a started thread that was not told to stop is the one the state refers to
whenever no start is in progress, and `leave_room` leaves nothing capturing; and a run that
ends with no start in progress and keeps its threads meets the condition in every step. -/
theorem no_orphans_of_keepsTrack (actions : List Action) :
    (Along step KeepsTrack init actions → KeepsThreads actions) ∧
      (Quiet (actions.foldl step init) → KeepsThreads actions →
        Along step KeepsTrack init actions) := by
  have hstep : ∀ p a, NoOrphans p ∧ LeftTold p → ReplacesTold p a →
      NoOrphans (step p a) ∧ LeftTold (step p a) := fun p a h ha =>
    ⟨(noOrphan_step_iff p a).mpr ⟨h.1, ha⟩, told_of_leaving h.1 h.2 a⟩
  have hinit : NoOrphans init ∧ LeftTold init := ⟨noOrphans_init, leftTold_init⟩
  constructor
  · intro halong
    constructor
    · have hgood : Throughout step (fun p => NoOrphans p ∧ LeftTold p) init actions :=
        throughout_of_along (g := KeepsTrack) (fun p a h ha => hstep p a h ha.1) hinit halong
      exact hgood.mono fun p h _ => h.1
    · exact halong.mono (fun p a h ha => hstep p a h ha.1)
        (fun p a h ha => (leavesSilent_iff h.1 h.2 a).mpr ha.2) hinit
  · rintro hquiet ⟨hthroughout, hleaves⟩
    -- an orphan stays one, so at the end there would still be one
    have hlast : NoOrphans (actions.foldl step init) := hthroughout.last hquiet
    have hreplaces : Along step ReplacesTold init actions :=
      ((foldl_iff_along (I := fun _ => True) (fun _ _ _ => trivial)
        (fun p a _ => noOrphan_step_iff p a) trivial actions).mp hlast).2
    exact (hreplaces.and hleaves).mono (fun p a h ha => hstep p a h ha.1)
      (fun p a h ha => ⟨ha.1, (leavesSilent_iff h.1 h.2 a).mp ha.2⟩) hinit

/-- Every constructor succeeds. -/
def allConstructed : Medium → Bool := fun _ => true

/-- A preview, a call, another microphone, and the end of the call. -/
def ordinaryRun : List Action :=
  [.selectCamera true, .roomId allConstructed, .finish .video 0, .resume 0 allConstructed,
    .selectAudio, .finish .audio 0, .resume 0 allConstructed, .leaveRoom 2,
    .resume 0 allConstructed, .resume 0 allConstructed]

theorem no_orphans_ordinaryRun : Along step KeepsTrack init ordinaryRun ∧ KeepsThreads ordinaryRun :=
  have halong : Along step KeepsTrack init ordinaryRun := by decide +kernel
  ⟨halong, (no_orphans_of_keepsTrack ordinaryRun).1 halong⟩

/-- A room is assigned while there is a preview, and another camera is selected while
`start_video` waits for the end of the preview. -/
def overlappingRun : List Action :=
  [.selectCamera true, .roomId allConstructed, .selectCamera true, .finish .video 0,
    .resume 0 allConstructed, .resume 0 allConstructed, .leaveRoom 0]

/-- The thread that `room-id` starts is replaced by the one of `select_camera`, and nobody can
stop it any more, not even `leave_room`. -/
theorem overlapping_starts_leave_orphan : ¬ ∀ actions, KeepsThreads actions := by
  intro hall
  have horphan := (hall overlappingRun).1.last (by decide +kernel)
  have hcurrent := horphan .video 1 {} (by decide +kernel) rfl
  exact absurd hcurrent (by decide +kernel)

end CaptureThreads
