/-
How a call ends (`server/peer_manager.py`, `server/server.py`, `server/admin_routes.py`).

* `partner_step_iff` — the requests that leave a user connected as it is;
* `inCall_step_iff` — the requests that leave a call as it is;
* `call_survives_iff` — the runs that a call survives;
* `stranger_ends_call` — a call that is ended by somebody who takes no part in it.
-/
import QuantumVideoChat.CallPairing

namespace CallPairing

open UserManager Pairing Transition

/-- The two users are connected to each other. -/
def InCall (a b : String) (s : Server) : Prop :=
  partner s.users a = some b ∧ partner s.users b = some a

instance (a b : String) : DecidablePred (InCall a b) := fun _ =>
  inferInstanceAs (Decidable (_ ∧ _))

/-- The request disconnects or removes the user, or hangs up for somebody whose record names it. -/
def Frees (a : String) (s : Server) : Server.Action → Prop
  | .disconnectPeer userId _ | .adminRemove userId _ =>
    userId = a ∨ partner s.users userId = some a
  | .removeUser userId => userId = a
  | _ => False

/-- The request does not disconnect or remove one of the two, or somebody whose record names one
of them as its peer. -/
def Spares (a b : String) (s : Server) : Server.Action → Prop
  | .disconnectPeer userId _ | .adminRemove userId _ =>
    (userId ≠ a ∧ userId ≠ b) ∧ partner s.users userId ≠ some a ∧ partner s.users userId ≠ some b
  | .removeUser userId => userId ≠ a ∧ userId ≠ b
  | _ => True

instance (a b : String) (s : Server) : DecidablePred (Spares a b s)
  | .disconnectPeer _ _ | .adminRemove _ _ => inferInstanceAs (Decidable ((_ ∧ _) ∧ _ ∧ _))
  | .removeUser _ => inferInstanceAs (Decidable (_ ∧ _))
  | .addUser _ _ | .handlePeerConnection _ _ _ | .socketConnect _ _ _ | .socketDisconnect _ =>
    .isTrue trivial

/-- The request disconnects or removes one of the two. -/
def EndsFor (a b : String) : Server.Action → Prop
  | .disconnectPeer userId _ | .adminRemove userId _ => userId = a ∨ userId = b
  | _ => False

variable {a b : String} {s : Server}

/-! ### One step -/

theorem update_none_eq_some {m : String → Option String} {userId : String} :
    Function.update m userId none a = some b ↔ userId ≠ a ∧ m a = some b := by
  by_cases ha : a = userId
  · subst ha
    rw [Function.update_self]
    simp
  · rw [Function.update_of_ne ha]
    exact ⟨fun h => ⟨Ne.symm ha, h⟩, fun h => h.2⟩

theorem ne_of_single (ha : partner s.users a = some b) {userId : String}
    (h : partner s.users userId = none) : userId ≠ a := by
  rintro rfl
  exact absurd (h.symm.trans ha) (by simp)

/-- `disconnect` frees its user, and the peer on record. -/
theorem partner_disconnect_iff (h : Consistent s.users) (ha : partner s.users a = some b)
    (userId : String) (answer : ClientAnswer) :
    partner (s.disconnect userId answer).1.users a = some b ↔
      ¬ (userId = a ∨ partner s.users userId = some a) := by
  rw [not_or]
  rcases partner_disconnect s h userId answer with ⟨hnone, hsame⟩ | ⟨peerId, hpeer, hunlink⟩
  · rw [hsame, hnone]
    exact iff_of_true ha ⟨ne_of_single ha hnone, by simp⟩
  · rw [hunlink, unlink, hpeer, update_none_eq_some, update_none_eq_some, Option.some_inj]
    exact ⟨fun h => ⟨h.2.1, h.1⟩, fun h => ⟨h.2, h.1, ha⟩⟩

/-- A user stays connected to its peer unless it is freed. -/
theorem partner_step_iff (uuid : UuidSource) (s : Server) (action : Server.Action)
    (h : Consistent s.users) (ha : partner s.users a = some b) :
    partner (s.step uuid action).users a = some b ↔ ¬ Frees a s action := by
  cases action with
  | addUser apiEndpoint draws =>
    refine iff_of_true ?_ fun hfrees => hfrees
    rw [Server.step, Server.addUser]
    cases hadd : UserManager.addUser s.users apiEndpoint draws with
    | error e => exact ha
    | ok new =>
      obtain ⟨id, users'⟩ := new
      obtain ⟨-, hnew, endpoint, -, rfl⟩ := addUser_eq_ok.mp hadd
      rwa [Server.logEvent_users, partner_insert_new hnew endpoint]
  | handlePeerConnection userId peerId answer =>
    refine iff_of_true ?_ fun hfrees => hfrees
    rw [Server.step]
    -- `connect` asks for two idle users, and this one is not
    rcases s.connect_cases uuid userId peerId answer with ⟨hsame, -⟩ |
      ⟨hne, user, peer, api, huser, huidle, -, hpeer, hpidle, -, -, husers, -⟩
    · rwa [hsame]
    · rwa [husers, partner_link,
        link_apply_of_ne (ne_of_single ha (partner_of_idle huser huidle)).symm
          (ne_of_single ha (partner_of_idle hpeer hpidle)).symm]
  | disconnectPeer userId answer => exact partner_disconnect_iff h ha userId answer
  | removeUser userId =>
    rw [Server.step, Server.removeUser_users, partner_erase, update_none_eq_some, Frees]
    exact and_iff_left ha
  | adminRemove userId answer =>
    rw [Server.step, Server.adminRemove, Server.removeUser_users, partner_erase,
      update_none_eq_some, partner_disconnect_iff h ha userId answer, Frees, not_or]
    exact ⟨fun hkept => hkept.2, fun hkept => ⟨hkept.1, hkept⟩⟩
  | socketConnect sid auth roomId => exact iff_of_true ha fun hfrees => hfrees
  | socketDisconnect sid => exact iff_of_true ha fun hfrees => hfrees

theorem spares_iff (action : Server.Action) :
    Spares a b s action ↔ ¬ Frees a s action ∧ ¬ Frees b s action := by
  have hboth : ∀ userId, ((userId ≠ a ∧ userId ≠ b) ∧ partner s.users userId ≠ some a ∧
      partner s.users userId ≠ some b) ↔ ¬ (userId = a ∨ partner s.users userId = some a) ∧
        ¬ (userId = b ∨ partner s.users userId = some b) := by
    intro userId
    rw [not_or, not_or, and_and_and_comm]
  cases action with
  | disconnectPeer userId answer => exact hboth userId
  | adminRemove userId answer => exact hboth userId
  | removeUser userId => exact Iff.rfl
  | _ => exact iff_of_true trivial ⟨fun hfrees => hfrees, fun hfrees => hfrees⟩

theorem inCall_step_iff (uuid : UuidSource) (s : Server) (action : Server.Action)
    (h : Consistent s.users) (hcall : InCall a b s) :
    InCall a b (s.step uuid action) ↔ Spares a b s action := by
  rw [InCall, spares_iff, partner_step_iff uuid s action h hcall.1,
    partner_step_iff uuid s action h hcall.2]

/-- Among paired users nobody else names one of the two. -/
theorem spares_iff_of_paired {action : Server.Action} (h : Consistent s.users)
    (hpaired : Paired s.users) (hcall : InCall a b s) (hkeeps : KeepsCalls s action) :
    Spares a b s action ↔ ¬ EndsFor a b action := by
  have hpairing := (paired_iff h).mp hpaired
  have hothers : ∀ userId, ((userId ≠ a ∧ userId ≠ b) ∧ partner s.users userId ≠ some a ∧
      partner s.users userId ≠ some b) ↔ ¬ (userId = a ∨ userId = b) := by
    intro userId
    rw [not_or]
    refine ⟨fun h => h.1, fun hne => ⟨hne, fun ha => ?_, fun hb => ?_⟩⟩
    · exact hne.2 (Option.some_inj.mp ((hpairing.symm userId a ha).symm.trans hcall.1))
    · exact hne.1 (Option.some_inj.mp ((hpairing.symm userId b hb).symm.trans hcall.2))
  cases action with
  | disconnectPeer userId answer => exact hothers userId
  | adminRemove userId answer => exact hothers userId
  | removeUser userId =>
    have hsingle : partner s.users userId = none :=
      not_not.mp fun hsome => hkeeps ((mem_connectedUsers_iff h userId).mpr hsome)
    exact iff_of_true ⟨ne_of_single hcall.1 hsingle, ne_of_single hcall.2 hsingle⟩ fun h => h
  | _ => exact iff_of_true trivial fun h => h

/-! ### Runs -/

theorem along_spares_iff (uuid : UuidSource) {actions : List Server.Action} :
    ∀ {s : Server}, Consistent s.users → Paired s.users → InCall a b s →
      Along (Server.step uuid) KeepsCalls s actions →
      (Along (Server.step uuid) (Spares a b) s actions ↔
        ∀ action ∈ actions, ¬ EndsFor a b action) := by
  induction actions with
  | nil => exact fun _ _ _ _ => iff_of_true trivial (by simp)
  | cons action actions ih =>
    rintro s h hpaired hcall ⟨hkeeps, hlater⟩
    rw [Along, List.forall_mem_cons, spares_iff_of_paired h hpaired hcall hkeeps]
    refine and_congr_right fun hspares => ?_
    rw [← spares_iff_of_paired h hpaired hcall hkeeps] at hspares
    exact ih (consistent_step uuid s action h)
      ((paired_step_iff uuid s action h hpaired).mpr hkeeps)
      ((inCall_step_iff uuid s action h hcall).mpr hspares) hlater

/-- **How a call ends.**  A call lasts exactly as long as neither of its users, and nobody whose
record names one of them, is disconnected or removed.  If no connected user is ever removed
through `remove_user`, only a request to disconnect or remove one of the two ends it. -/
theorem call_survives_iff (uuid : UuidSource) (apiEndpoint : Endpoint)
    (socketApi : Option SocketAPI) (before actions : List Server.Action) (a b : String)
    (hcall : InCall a b (before.foldl (Server.step uuid)
      { apiEndpoint := apiEndpoint, socketApi := socketApi })) :
    let s := before.foldl (Server.step uuid) { apiEndpoint := apiEndpoint, socketApi := socketApi }
    (Throughout (Server.step uuid) (InCall a b) s actions ↔
      Along (Server.step uuid) (Spares a b) s actions) ∧
    (Along (Server.step uuid) KeepsCalls { apiEndpoint := apiEndpoint, socketApi := socketApi }
        (before ++ actions) →
      (Throughout (Server.step uuid) (InCall a b) s actions ↔
        ∀ action ∈ actions, ¬ EndsFor a b action)) := by
  intro s
  have h : Consistent s.users := foldl_induction (I := fun s : Server => Consistent s.users)
    consistent_empty (consistent_step uuid) before
  have hiff := throughout_iff_along (I := fun s => Consistent s.users) (consistent_step uuid)
    (fun s action h hcall => inCall_step_iff uuid s action h hcall) h hcall actions
  refine ⟨hiff, fun halong => ?_⟩
  obtain ⟨hbefore, hlater⟩ := along_append.mp halong
  have hpaired := throughout_of_along (P := fun s : Server => Consistent s.users ∧ Paired s.users)
    (fun s a h hkeeps => ⟨consistent_step uuid s a h.1,
      (paired_step_iff uuid s a h.1 h.2).mpr hkeeps⟩)
    ⟨consistent_empty, fun _ _ _ h => absurd h (by simp)⟩ hbefore
  rw [hiff, along_spares_iff uuid h hpaired.last.2 hcall hlater]

/-- User 10000 is removed during a call with 10001, whose record goes on naming it; somebody else
is given the free id, and calls 10002. -/
def reusedIdRun : List Server.Action :=
  removedPeerRun ++
    [.addUser [.str "10.0.0.3", .int 5001] (plainDraws 2),
      .addUser [.str "10.0.0.4", .int 5001] (plainDraws 0),
      .handlePeerConnection "10000" "10002" (.status 200)]

theorem stranger_ends_call :
    ¬ Throughout (Server.step plainUuid) (InCall "10000" "10002")
      (reusedIdRun.foldl (Server.step plainUuid)
        { apiEndpoint := ⟨some "10.0.0.9", .int 5050, none⟩ })
      [.disconnectPeer "10001" (.status 200)] := by
  rw [(call_survives_iff plainUuid ⟨some "10.0.0.9", .int 5050, none⟩ (some {}) reusedIdRun
    [.disconnectPeer "10001" (.status 200)] "10000" "10002" (by decide +kernel)).1]
  decide +kernel

end CallPairing
