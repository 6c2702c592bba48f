/-
Leaving a call (`leave_room` of `middleware/server_comms.py`, `/peer_disconnected` of
`middleware/events.py`).

A handler that leaves looks at `server_client` once; it cancels neither a greenlet that is about
to connect nor a reconnection.  What it leaves are the calls that began before it did, and
`mark` is their number.

* `settled_step` — once nothing of the first calls is left, nothing of them comes back;
* `not_staysAway_of_not_settled` — as long as something is left, it can;
* `leaving_final_iff` — leaving is final exactly when nothing of the calls that were left is
  under way as it completes;
* `late_attempt_returns` — a run in which an attempt is.
-/
import QuantumVideoChat.Greenlets

namespace Greenlets

open Cooperative Transition
open ServerComms (sessionAuth)

/-! ### Completion -/

/-- The mark of a greenlet that leaves. -/
def Greenlet.mark? : Greenlet → Option ℕ
  | .leaving mark => some mark
  | .posting mark => some mark
  | .peerLeaving mark => some mark
  | _ => none

/-- The step completes a `leave_room` or a `/peer_disconnected` that began after the first
`mark` calls. -/
def completes (w : World) : Action → Option ℕ
  | .leaveRoom => if (leaveRoom w.pool.shared w.begun).2 = none then some w.begun else none
  | .peerDisconnected peerId =>
    if (restPeerDisconnected w.pool.shared w.begun peerId).2 = none then some w.begun else none
  | .resume i event =>
    match w.pool.tasks[i]? with
    | none => none
    | some g => if (run w.pool.shared g event).2 = none then g.mark? else none
  | _ => none

/-- `server_client` becomes connected to one of the first `mark` calls. -/
def Returns (mark : ℕ) (w w' : World) : Prop :=
  ∃ link ∈ w'.pool.shared.client.open?,
    link.call < mark ∧ w.pool.shared.client.open? ≠ some link

instance (mark : ℕ) (w w' : World) : Decidable (Returns mark w w') :=
  inferInstanceAs (Decidable (∃ link ∈ w'.pool.shared.client.open?, _))

/-- The client is not connected to one of the first `mark` calls until another call begins. -/
def StaysAway (mark : ℕ) (w : World) : Prop :=
  ∀ later : List Action, (∀ a ∈ later, a.begins = false) →
    Along step (fun w a => ¬ Returns mark w (step w a)) w later

/-- Nothing of the first `mark` calls is connected, reconnecting or under way. -/
def Settled (mark : ℕ) : Pool Middleware Greenlet → Prop :=
  Pool.All (fun m => ∀ link ∈ m.client.link?, mark ≤ link.call)
    fun g => ∀ call ∈ g.call?, mark ≤ call

variable {m : Middleware} {w : World} {mark : ℕ}

/-! ### Settled calls stay away -/

theorem settled_spawn (h : Settled mark w.pool) {call? : Option ℕ}
    {r : Middleware × Option Greenlet} (hr : Concerns call? w.pool.shared r)
    (hcall : ∀ call ∈ call?, mark ≤ call) : Settled mark (w.pool.spawn r) := by
  refine Pool.All.spawn h (fun link hlink => ?_) fun g hg call hc => ?_
  · rcases hr.client link hlink with hold | hnew
    · exact h.shared link hold
    · exact hcall _ hnew.symm
  · exact hcall call (hr.greenlet g hg call hc).symm

theorem settled_resume (h : Settled mark w.pool) (i : ℕ) (e : Event) :
    Settled mark (w.pool.resume run i e) := by
  refine Pool.All.resume h (fun g e hg => ?_) i e
  have hrun := run_concerns w.pool.shared g e
  refine ⟨fun link hlink => ?_, fun g' hg' call hc => ?_⟩
  · rcases hrun.client link hlink with hold | hnew
    · exact h.shared link hold
    · exact hg _ hnew.symm
  · exact hg call (hrun.greenlet g' hg' call hc).symm

/-- No step that begins no call brings back what is settled. -/
theorem settled_step (h : Settled mark w.pool) {a : Action} (ha : a.begins = false) :
    Settled mark (step w a).pool := by
  cases a with
  | joinRoom sid peerId => exact absurd ha (by simp [Action.begins])
  | peerConnection wsEndpoint sessionId => exact absurd ha (by simp [Action.begins])
  | leaveRoom => exact settled_spawn h (leaveRoom_concerns _ _) (by simp)
  | peerDisconnected peerId => exact settled_spawn h (restPeerDisconnected_concerns _ _ _) (by simp)
  | resume i event => exact settled_resume h i event
  | connectionLost =>
    refine ⟨fun link hlink => h.shared link ?_, h.tasks⟩
    rwa [← link?_lose]
  | reconnected =>
    refine ⟨fun link hlink => h.shared link ?_, h.tasks⟩
    rwa [← link?_reconnect]
  | configured serverHost => exact ⟨h.shared, h.tasks⟩
  | registered userId => exact ⟨h.shared, h.tasks⟩

theorem staysAway_of_settled (h : Settled mark w.pool) : StaysAway mark w := by
  intro later
  induction later generalizing w with
  | nil => exact fun _ => trivial
  | cons a later ih =>
    intro hlater
    have hnext := settled_step h (hlater a List.mem_cons_self)
    refine ⟨?_, ih hnext fun b hb => hlater b (List.mem_cons_of_mem a hb)⟩
    rintro ⟨link, hopen, hlt, -⟩
    exact absurd (hnext.shared link (link?_of_open? hopen)) (Nat.not_le.mpr hlt)

/-! ### Anything else can come back -/

theorem not_staysAway_of_step {a : Action} (ha : a.begins = false)
    (h : ¬ StaysAway mark (step w a)) : ¬ StaysAway mark w := by
  intro haway
  refine h fun later hlater => (haway (a :: later) fun b hb => ?_).2
  rcases List.mem_cons.mp hb with rfl | hb
  · exact ha
  · exact hlater b hb

theorem not_staysAway_of_returns {a : Action} (ha : a.begins = false)
    (h : Returns mark w (step w a)) : ¬ StaysAway mark w := by
  intro haway
  refine (haway [a] fun b hb => ?_).1 h
  rwa [List.mem_singleton.mp hb]

/-- A broken connection is opened again. -/
theorem reconnecting_returns {link : Link} (hlt : link.call < mark)
    (hclient : w.pool.shared.client = .reconnecting link) : ¬ StaysAway mark w := by
  refine not_staysAway_of_returns (a := .reconnected) rfl ⟨link, ?_, hlt, ?_⟩
  · show link ∈ w.pool.shared.client.reconnect.open?
    rw [hclient]
    rfl
  · rw [hclient]
    simp [Client.open?]

theorem connectToSessionWs_eq (h : m.client.open? = none) (call : ℕ) {wsEndpoint : List PyValue}
    (hws : wsEndpoint.length = 2) (sessionId : String) :
    connectToSessionWs m call wsEndpoint sessionId
      = (m, some (.attempting call sessionId 1 (sessionAuth m.userId sessionId))) := by
  obtain ⟨host, port, rfl⟩ := List.length_eq_two.mp hws
  rw [connectToSessionWs]
  split
  · rename_i link hlink
    exact absurd hlink (ne_connected h link)
  · exact startAttempt_eq h call sessionId 1

/-- An attempt under way succeeds. -/
theorem attempting_returns {i call : ℕ} {sessionId : String} {attempt : ℕ} {auth : SocketAuth}
    (hlt : call < mark) (hclient : w.pool.shared.client.open? = none)
    (hget : w.pool.tasks[i]? = some (.attempting call sessionId attempt auth)) :
    ¬ StaysAway mark w := by
  have hrun := run_opened hclient call sessionId attempt auth
  refine not_staysAway_of_returns (a := .resume i .opened) rfl ⟨⟨call, auth⟩, ?_, hlt, ?_⟩
  · show _ ∈ (w.pool.resume run i .opened).shared.client.open?
    rw [Pool.resume_of_finished hget hrun]
    rfl
  · rw [hclient]
    simp

/-- A greenlet starts an attempt, which succeeds. -/
theorem turn_returns {i call : ℕ} {g : Greenlet} {e : Event} {sessionId : String} {attempt : ℕ}
    {auth : SocketAuth} (hlt : call < mark) (hclient : w.pool.shared.client.open? = none)
    (hget : w.pool.tasks[i]? = some g)
    (hrun : run w.pool.shared g e
      = (w.pool.shared, some (.attempting call sessionId attempt auth))) :
    ¬ StaysAway mark w := by
  obtain ⟨hshared, hnext⟩ := Pool.resume_of_getElem? hget hrun
  refine not_staysAway_of_step (a := .resume i e) rfl (attempting_returns hlt ?_ hnext)
  show (w.pool.resume run i e).shared.client.open? = none
  rw [hshared, hclient]

/-- A greenlet that may connect a call does so, unless the client is connected. -/
theorem greenlet_returns {i call : ℕ} {g : Greenlet} (hcall : call ∈ g.call?) (hlt : call < mark)
    (hclient : w.pool.shared.client.open? = none) (hget : w.pool.tasks[i]? = some g) :
    ¬ StaysAway mark w := by
  cases g with
  | joining call' sid =>
    obtain rfl := Option.some_inj.mp hcall
    -- the server's answer names a session
    have hrun : run w.pool.shared (.joining call' sid)
        (.response (.ok ⟨200, .session [.none, .none] ""⟩)) = (w.pool.shared,
          some (.attempting call' "" 1 (sessionAuth w.pool.shared.userId ""))) := by
      show Greenlets.connectToSessionWs w.pool.shared call' [.none, .none] "" = _
      exact connectToSessionWs_eq hclient call' rfl ""
    exact turn_returns hlt hclient hget hrun
  | spawned call' wsEndpoint sessionId =>
    rw [Greenlet.call?, Option.mem_def] at hcall
    split_ifs at hcall with hws
    obtain rfl := Option.some_inj.mp hcall
    have hrun : run w.pool.shared (.spawned call' wsEndpoint sessionId) .done = _ :=
      connectToSessionWs_eq hclient call' hws sessionId
    exact turn_returns hlt hclient hget hrun
  | closing call' sessionId =>
    obtain rfl := Option.some_inj.mp hcall
    have hrun : run w.pool.shared (.closing call' sessionId) .done = _ :=
      startAttempt_eq hclient call' sessionId 1
    exact turn_returns hlt hclient hget hrun
  | attempting call' sessionId attempt auth =>
    obtain rfl := Option.some_inj.mp hcall
    exact attempting_returns hlt hclient hget
  | sleeping call' sessionId attempt =>
    obtain rfl := Option.some_inj.mp hcall
    have hrun : run w.pool.shared (.sleeping call' sessionId attempt) .done = _ :=
      startAttempt_eq hclient call' sessionId (attempt + 1)
    exact turn_returns hlt hclient hget hrun
  | leaving mark' => exact absurd hcall (by simp [Greenlet.call?])
  | posting mark' => exact absurd hcall (by simp [Greenlet.call?])
  | peerLeaving mark' => exact absurd hcall (by simp [Greenlet.call?])

theorem not_staysAway_of_not_settled (h : ¬ Settled mark w.pool) : ¬ StaysAway mark w := by
  intro haway
  refine h ⟨fun link hlink => ?_, fun g hmem call hcall => ?_⟩
  · by_contra hlt
    rw [Nat.not_le] at hlt
    cases hclient : w.pool.shared.client with
    | off => exact absurd hlink (by simp [hclient, Client.link?])
    | connected link' =>
      rw [hclient] at hlink
      obtain rfl := Option.some_inj.mp hlink
      -- the connection breaks first
      refine not_staysAway_of_step (a := .connectionLost) rfl
        (reconnecting_returns hlt ?_) haway
      show w.pool.shared.client.lose = _
      rw [hclient]
      rfl
    | reconnecting link' =>
      rw [hclient] at hlink
      obtain rfl := Option.some_inj.mp hlink
      exact reconnecting_returns hlt hclient haway
  · by_contra hlt
    rw [Nat.not_le] at hlt
    obtain ⟨i, hget⟩ := List.mem_iff_getElem?.mp hmem
    -- a connection of another call would be in the way
    have hfree : (step w .connectionLost).pool.shared.client.open? = none := by
      show w.pool.shared.client.lose.open? = none
      cases w.pool.shared.client <;> rfl
    exact not_staysAway_of_step (a := .connectionLost) rfl
      (greenlet_returns hcall hlt hfree hget) haway

/-! ### The end of leaving -/

theorem leaveRoom_finished (h : (leaveRoom m mark).2 = none) : leaveRoom m mark = (m, none) := by
  unfold leaveRoom at h ⊢
  split at h
  · exact absurd h (by simp)
  · rw [postLeave] at h ⊢
    split_ifs at h ⊢
    rfl

theorem restPeerDisconnected_finished {peerId : String}
    (h : (restPeerDisconnected m mark peerId).2 = none) :
    restPeerDisconnected m mark peerId
      = (m.emit { event := .peerDisconnected peerId }, none) := by
  unfold restPeerDisconnected at h ⊢
  dsimp only at h ⊢
  split at h
  · exact absurd h (by simp)
  · rfl

/-- The last turn of a greenlet that leaves changes nothing. -/
theorem run_finished {g : Greenlet} {e : Event} (hmark : g.mark? = some mark)
    (h : (run m g e).2 = none) : run m g e = (m, none) ∧ g.call? = none := by
  cases g with
  | leaving mark' =>
    cases e with
    | done =>
      refine ⟨?_, rfl⟩
      rw [run, postLeave] at h ⊢
      split_ifs at h ⊢
      rfl
    | _ => exact absurd h (by simp [run])
  | posting mark' =>
    cases e with
    | response response => exact ⟨rfl, rfl⟩
    | _ => exact absurd h (by simp [run])
  | peerLeaving mark' =>
    cases e with
    | done => exact ⟨rfl, rfl⟩
    | _ => exact absurd h (by simp [run])
  | _ => exact absurd hmark (by simp [Greenlet.mark?])

theorem begins_of_completes {a : Action} (h : completes w a = some mark) : a.begins = false := by
  cases a with
  | joinRoom sid peerId => exact absurd h (by simp [completes])
  | peerConnection wsEndpoint sessionId => exact absurd h (by simp [completes])
  | _ => rfl

/-- The step that completes leaving settles nothing. -/
theorem settled_of_completes {a : Action} (h : completes w a = some mark)
    (hsettled : Settled mark (step w a).pool) : Settled mark w.pool := by
  cases a with
  | leaveRoom =>
    rw [completes] at h
    split_ifs at h with hnone
    have heq : (step w .leaveRoom).pool = w.pool := by
      show w.pool.spawn (leaveRoom w.pool.shared w.begun) = w.pool
      rw [leaveRoom_finished hnone]
      rfl
    rwa [heq] at hsettled
  | peerDisconnected peerId =>
    rw [completes] at h
    split_ifs at h with hnone
    have heq : (step w (.peerDisconnected peerId)).pool
        = { w.pool with shared := w.pool.shared.emit { event := .peerDisconnected peerId } } := by
      show w.pool.spawn (restPeerDisconnected w.pool.shared w.begun peerId) = _
      rw [restPeerDisconnected_finished hnone]
      rfl
    rw [heq] at hsettled
    exact ⟨hsettled.shared, hsettled.tasks⟩
  | resume i event =>
    rw [completes] at h
    cases hget : w.pool.tasks[i]? with
    | none => simp [hget] at h
    | some g =>
      simp only [hget] at h
      split_ifs at h with hnone
      obtain ⟨hrun, hcall⟩ := run_finished h hnone
      have hshared : (w.pool.resume run i event).shared = w.pool.shared := by
        rw [Pool.resume_of_finished hget hrun]
      exact Pool.All.of_resume_finished hsettled hget hrun (hshared ▸ hsettled.shared)
        (by simp [hcall])
  | _ => exact absurd h (by simp [completes])

/-- **When leaving is final.**  After every run, for every step that completes a `leave_room`
or a `/peer_disconnected`. -/
theorem leaving_final_iff (before : List Action) (a : Action) (mark : ℕ)
    (h : completes (before.foldl step {}) a = some mark) :
    StaysAway mark (step (before.foldl step {}) a) ↔ Settled mark (before.foldl step {}).pool := by
  constructor
  · intro haway
    by_contra hleft
    refine not_staysAway_of_not_settled (fun hsettled => hleft ?_) haway
    exact settled_of_completes h hsettled
  · intro hsettled
    exact staysAway_of_settled (settled_step hsettled (begins_of_completes h))

/-- User 10000 is called, the socket of the call opens at the first attempt, and the user
hangs up. -/
def answeredRun : List Action :=
  [.configured "10.0.0.9", .registered "10000",
    .peerConnection [.str "10.0.0.9", .int 5050] "session", .resume 0 .done, .resume 0 .opened,
    .leaveRoom, .resume 0 .done]

/-- The response to POST `/disconnect_peer`. -/
def disconnectResponse : Event := .response (.ok ⟨200, .disconnected "10000"⟩)

/-- The call is over for good. -/
theorem leaving_final_answered_call :
    StaysAway 1 (step (answeredRun.foldl step {}) (.resume 0 disconnectResponse)) :=
  (leaving_final_iff answeredRun (.resume 0 disconnectResponse) 1 (by decide +kernel)).mpr
    ⟨by decide +kernel, by decide +kernel⟩

/-- User 10000 is called, the first attempt to open the socket fails, and before the second
one the user hangs up. -/
def pausedRun : List Action :=
  [.configured "10.0.0.9", .registered "10000",
    .peerConnection [.str "10.0.0.9", .int 5050] "session", .resume 0 .done,
    .resume 0 (.failed "Connection refused by the server"), .leaveRoom]

/-- Leaving is complete when the pause ends, and the second attempt succeeds. -/
theorem late_attempt_returns :
    completes (pausedRun.foldl step {}) (.resume 1 disconnectResponse) = some 1 ∧
      ¬ StaysAway 1 (step (pausedRun.foldl step {}) (.resume 1 disconnectResponse)) := by
  refine ⟨by decide +kernel, fun haway => ?_⟩
  exact absurd (haway [.resume 0 .done, .resume 0 .opened] (by decide)) (by decide +kernel)

end Greenlets
