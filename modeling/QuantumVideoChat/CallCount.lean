/-
The dashboard's count of calls (`server/admin_routes.py`).

`admin_status` halves the number of connected users, as each call has two of them.  A user whose
peer has been removed stays connected: it is stranded.

* `callCount_eq` — the count is the number of calls, and half of the stranded users;
* `card_strandedUsers_step` — only `remove_user` of a connected user strands anybody;
* `call_count_of_run` — both, over every run, and when the count is right.
-/
import QuantumVideoChat.CallSurvival
import QuantumVideoChat.Stranded

namespace CallPairing

open UserManager Pairing Transition

/-- The connected users whose peer is not connected to them. -/
def strandedUsers (users : UserStore) : Finset String :=
  stranded (partner users) (connectedUsers users)

/-- The dashboard shows the number of pairs of users who are connected to each other. -/
def CountsCalls (s : Server) : Prop :=
  ∃ calls : Finset (Sym2 String), (∀ a b, s(a, b) ∈ calls ↔ InCall a b s) ∧
    callCount s.users = calls.card

instance (s : Server) : DecidablePred (KeepsCalls s)
  | .removeUser userId => inferInstanceAs (Decidable (userId ∉ connectedUsers s.users))
  | .addUser _ _ | .handlePeerConnection _ _ _ | .disconnectPeer _ _ | .adminRemove _ _
  | .socketConnect _ _ _ | .socketDisconnect _ => .isTrue trivial

/-- The requests of a run that remove a connected user through `remove_user`. -/
def removalsInCall (uuid : UuidSource) : Server → List Server.Action → ℕ
  | _, [] => 0
  | s, a :: actions =>
    (if KeepsCalls s a then 0 else 1) + removalsInCall uuid (s.step uuid a) actions

variable {users : UserStore} {s : Server}

theorem partner_ne_self (h : Consistent users) (userId : String) :
    partner users userId ≠ some userId := by
  intro hself
  obtain ⟨user, hlookup, hstate, hpeer⟩ := partner_eq_some.mp hself
  rcases h.state_peer userId user hlookup with ⟨hidle, -⟩ | ⟨-, p, hp, hne⟩
  · exact absurd (hstate.symm.trans hidle) (by decide)
  · exact hne (Option.some_inj.mp (hp.symm.trans hpeer))

theorem callCount_eq (h : Consistent s.users) :
    ∃ calls : Finset (Sym2 String), (∀ a b, s(a, b) ∈ calls ↔ InCall a b s) ∧
      callCount s.users = calls.card + (strandedUsers s.users).card / 2 := by
  obtain ⟨calls, hcalls, hcard⟩ := card_eq (mem_connectedUsers_iff h) (partner_ne_self h)
  refine ⟨calls, hcalls, ?_⟩
  rw [callCount, hcard, Nat.mul_add_div (by decide)]
  rfl

theorem countsCalls_iff (h : Consistent s.users) :
    CountsCalls s ↔ (strandedUsers s.users).card ≤ 1 := by
  obtain ⟨calls, hcalls, hcount⟩ := callCount_eq h
  constructor
  · rintro ⟨calls', hcalls', hcount'⟩
    have hsame : calls' = calls := by
      ext call
      induction call using Sym2.ind with
      | _ a b => rw [hcalls, hcalls']
    rw [hsame] at hcount'
    omega
  · intro hfew
    exact ⟨calls, hcalls, by omega⟩

/-- A step strands at most one user, and only when it removes a connected user. -/
theorem card_strandedUsers_step (uuid : UuidSource) (h : Consistent s.users) (a : Server.Action) :
    (strandedUsers (s.step uuid a).users).card
      ≤ (strandedUsers s.users).card + if KeepsCalls s a then 0 else 1 := by
  have hs := mem_connectedUsers_iff h
  have hs' := mem_connectedUsers_iff (consistent_step uuid s a h)
  by_cases hremove : ∃ userId, a = .removeUser userId
  · obtain ⟨userId, rfl⟩ := hremove
    have hdrop : partner (s.step uuid (.removeUser userId)).users
        = Function.update (partner s.users) userId none := by
      rw [Server.step, Server.removeUser_users, partner_erase]
    have hkeeps : KeepsCalls s (.removeUser userId) ↔ partner s.users userId = none := by
      rw [KeepsCalls, hs, not_not]
    rw [strandedUsers, strandedUsers, hdrop]
    rw [hdrop] at hs'
    simp only [hkeeps]
    exact card_stranded_update_none hs hs'
  · have hrearranged := step_rearranged uuid s a h fun userId ha => hremove ⟨userId, ha⟩
    exact (card_stranded_of_rearranged hs hs' hrearranged).trans (Nat.le_add_right _ _)

theorem card_strandedUsers_run (uuid : UuidSource) {actions : List Server.Action} :
    ∀ {s : Server}, Consistent s.users →
      (strandedUsers (actions.foldl (Server.step uuid) s).users).card
        ≤ (strandedUsers s.users).card + removalsInCall uuid s actions := by
  induction actions with
  | nil => exact fun _ => le_rfl
  | cons a actions ih =>
    intro s h
    rw [List.foldl_cons, removalsInCall]
    have hstep := card_strandedUsers_step uuid h a
    have hrun := ih (consistent_step uuid s a h)
    omega

/-- **What the dashboard counts.**  After every run the call count is the number of pairs of
users who are connected to each other, and one more for every two stranded users; so it is right
exactly when at most one user is stranded.  No more users are stranded than connected users have
been removed through `remove_user`. -/
theorem call_count_of_run (uuid : UuidSource) (apiEndpoint : Endpoint)
    (socketApi : Option SocketAPI) (actions : List Server.Action) :
    let start : Server := { apiEndpoint := apiEndpoint, socketApi := socketApi }
    let s := actions.foldl (Server.step uuid) start
    (∃ calls : Finset (Sym2 String), (∀ a b, s(a, b) ∈ calls ↔ InCall a b s) ∧
      callCount s.users = calls.card + (strandedUsers s.users).card / 2) ∧
    (CountsCalls s ↔ (strandedUsers s.users).card ≤ 1) ∧
    (strandedUsers s.users).card ≤ removalsInCall uuid start actions := by
  intro start s
  have h : Consistent s.users := foldl_induction (I := fun s : Server => Consistent s.users)
    consistent_empty (consistent_step uuid) actions
  have hrun : (strandedUsers s.users).card
      ≤ (strandedUsers start.users).card + removalsInCall uuid start actions :=
    card_strandedUsers_run uuid consistent_empty
  have hnobody : (strandedUsers start.users).card = 0 := by
    rw [Finset.card_eq_zero]
    rfl
  refine ⟨callCount_eq h, countsCalls_iff h, ?_⟩
  rwa [hnobody, Nat.zero_add] at hrun

/-- Two calls, and one user of each is removed: the dashboard shows the two others as a call. -/
example :
    let s := ([.addUser [.str "10.0.0.1", .int 5001] (plainDraws 0),
      .addUser [.str "10.0.0.2", .int 5001] (plainDraws 1),
      .addUser [.str "10.0.0.3", .int 5001] (plainDraws 2),
      .addUser [.str "10.0.0.4", .int 5001] (plainDraws 3),
      .handlePeerConnection "10000" "10001" (.status 200),
      .handlePeerConnection "10002" "10003" (.status 200),
      .removeUser "10000", .removeUser "10002"] : List Server.Action).foldl
        (Server.step plainUuid) { apiEndpoint := ⟨some "10.0.0.9", .int 5050, none⟩ }
    callCount s.users = 1 ∧ strandedUsers s.users = {"10001", "10003"} := by
  decide +kernel

end CallPairing
