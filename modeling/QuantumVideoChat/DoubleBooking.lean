/-
When several requests of the server, cut at its locks, book nobody twice
(`server/peer_manager.py`).

* `inv_step` — what every step keeps that breaks in on nobody: a call that goes on finds its two
  records as it saw them, and whoever is left alone in a call is seen to by a request under way;
* `safe_of_undisturbed` — in a run of such steps nobody is booked twice;
* `overlapping_calls_succeed` — a run in which somebody is.
-/
import QuantumVideoChat.LockedSteps

namespace LockedSteps

open CallPairing UserManager Transition
open Booking (Booked)

/-- No two successful calls conflict. -/
def NoDoubleBooking (w : World) : Prop := w.booked.Pairwise fun b b' => ¬ b.Conflicts b'

instance (w : World) : Decidable (NoDoubleBooking w) :=
  inferInstanceAs (Decidable (List.Pairwise _ _))

/-- Nobody is booked twice, and between requests the connected users are paired. -/
def Safe (w : World) : Prop :=
  NoDoubleBooking w ∧ ((∀ request, w.requests request = none) → Paired w.server.users)

/-- Nobody else has changed either record since the request began. -/
def Fresh (w : World) (request : ℕ) (userId peerId : String) : Prop :=
  ∀ x ∈ w.changes, x.record = userId ∨ x.record = peerId → request < x.time →
    x.request = request

instance (w : World) (request : ℕ) (userId peerId : String) :
    Decidable (Fresh w request userId peerId) :=
  inferInstanceAs (Decidable (∀ x ∈ w.changes, _))

/-- A call that writes finds both records as it left them; a disconnect resets a record that is
in no call, or in the call that it ends. -/
def MayWrite (w : World) (request : ℕ) : Point → Prop
  | .linkUser true userId peerId _ | .linkPeer true userId peerId _ =>
    Fresh w request userId peerId
  | .resetUser true userId peerId =>
    partner w.server.users userId = none ∨ partner w.server.users userId = some peerId
  | .resetPeer true userId peerId =>
    partner w.server.users peerId = none ∨
      (partner w.server.users peerId = some userId ∧
        partner w.server.users userId ≠ some peerId)
  | _ => True

instance (w : World) (request : ℕ) : (point : Point) → Decidable (MayWrite w request point)
  | .linkUser true userId peerId _ | .linkPeer true userId peerId _ =>
    inferInstanceAs (Decidable (Fresh w request userId peerId))
  | .resetUser true _ _ => inferInstanceAs (Decidable (_ ∨ _))
  | .resetPeer true _ _ => inferInstanceAs (Decidable (_ ∨ _ ∧ ¬ _))
  | .linkUser false _ _ _ | .linkPeer false _ _ _ | .resetUser false _ _ | .resetPeer false _ _
  | .findPeer _ _ _ | .startWebsocket _ _ | .contact _ _ _ | .awaitPeer _ _ _ | .notify _ _
  | .awaitNotified _ _ => isTrue trivial

/-- The step is no write that breaks in on another request, or that another one has disturbed. -/
def Undisturbed (w : World) : Action → Prop
  | .run request => ∀ point ∈ w.requests request, MayWrite w request point
  | _ => True

instance (w : World) : (a : Action) → Decidable (Undisturbed w a)
  | .run request => inferInstanceAs (Decidable (∀ point ∈ w.requests request, _))
  | .addUser _ _ | .handlePeerConnection _ _ | .disconnectPeer _ | .answer _ _ => isTrue trivial

/-! ### Invariants -/

/-- The record is there, and it can be handed out. -/
def Registered (users : UserStore) (id : String) : Prop :=
  ∃ user, users.lookup id = some user ∧ ∃ e, user.apiEndpoint.copy = .ok e

/-- What a request knows wherever the others are. -/
def Placed (w : World) (request : ℕ) : Point → Prop
  | .findPeer userId peerId _ => userId ≠ peerId ∧ Registered w.server.users userId
  | .startWebsocket userId peerId | .contact userId peerId _ | .awaitPeer userId peerId _
  | .linkUser _ userId peerId _ =>
    userId ≠ peerId ∧ Registered w.server.users userId ∧ Registered w.server.users peerId
  | .linkPeer _ userId peerId _ =>
    userId ≠ peerId ∧ Registered w.server.users userId ∧ Registered w.server.users peerId ∧
      ∃ time, request < time ∧ ⟨userId, time, request⟩ ∈ w.changes
  | .resetUser _ _ _ | .resetPeer _ _ _ | .notify _ _ | .awaitNotified _ _ => True

/-- No call of the user has returned since the request began. -/
def Uncalled (w : World) (request : ℕ) (id : String) : Prop :=
  ∀ b ∈ w.booked, request < b.ended → ¬ b.involves id

/-- What a call knows as long as nobody else has changed its records. -/
def Sees (w : World) (request : ℕ) : Point → Prop
  | .findPeer userId peerId user =>
    (user.state = .idle →
      partner w.server.users userId = none ∧ Uncalled w request userId) ∧
    (partner w.server.users peerId = none → Uncalled w request peerId)
  | .startWebsocket userId peerId | .contact userId peerId _ | .awaitPeer userId peerId _
  | .linkUser _ userId peerId _ =>
    partner w.server.users userId = none ∧ partner w.server.users peerId = none ∧
      Uncalled w request userId ∧ Uncalled w request peerId
  | .linkPeer _ userId peerId _ =>
    partner w.server.users userId = some peerId ∧ partner w.server.users peerId = none ∧
      Uncalled w request userId ∧ Uncalled w request peerId
  | .resetUser _ _ _ | .resetPeer _ _ _ | .notify _ _ | .awaitNotified _ _ => True

namespace Point

/-- The two users of a request. -/
def users : Point → String × String
  | .findPeer userId peerId _ | .startWebsocket userId peerId | .contact userId peerId _
  | .awaitPeer userId peerId _ | .linkUser _ userId peerId _ | .linkPeer _ userId peerId _
  | .resetUser _ userId peerId | .resetPeer _ userId peerId | .notify userId peerId
  | .awaitNotified userId peerId => (userId, peerId)

/-- The request will see to it that `x` is not left alone in a call with `y`. -/
def Ties (x y : String) : Point → Prop
  | .linkPeer _ userId peerId _ => x = userId ∧ y = peerId
  | .resetPeer _ userId peerId => x = peerId ∧ y = userId
  | _ => False

end Point

def Tied (w : World) (x y : String) : Prop :=
  ∃ request point, w.requests request = some point ∧ point.Ties x y

/-- The partner names the user too, or some request is under way to change that. -/
def Explained (w : World) : Prop :=
  ∀ x y, partner w.server.users x = some y → partner w.server.users y = some x ∨ Tied w x y

structure Inv (w : World) : Prop where
  consistent : Consistent w.server.users
  begun : ∀ request point, w.requests request = some point → request < w.clock
  changed : ∀ x ∈ w.changes, x.time < w.clock
  ended : ∀ b ∈ w.booked, b.ended < w.clock
  placed : ∀ request point, w.requests request = some point → Placed w request point
  sees : ∀ request point, w.requests request = some point →
    Fresh w request point.users.1 point.users.2 → Sees w request point
  explained : Explained w
  apart : NoDoubleBooking w

variable {uuid : UuidSource} {w w' : World} {request : ℕ} {point : Point}
  {userId peerId id : String} {m : Option String}

theorem sees_congr (h : Sees w request point)
    (hpartner : ∀ id, id = point.users.1 ∨ id = point.users.2 →
      partner w'.server.users id = partner w.server.users id)
    (hbooked : w'.booked = w.booked) : Sees w' request point := by
  have hcalled : ∀ id, Uncalled w request id → Uncalled w' request id := by
    intro id hid
    rw [Uncalled, hbooked]
    exact hid
  have huser := hpartner _ (.inl rfl)
  have hpeer := hpartner _ (.inr rfl)
  cases point with
  | findPeer userId peerId user =>
    simp only [Point.users] at huser hpeer
    simp only [Sees, huser, hpeer] at h ⊢
    exact ⟨fun hidle => ⟨(h.1 hidle).1, hcalled _ (h.1 hidle).2⟩, fun hp => hcalled _ (h.2 hp)⟩
  | startWebsocket | contact | awaitPeer | linkUser | linkPeer =>
    simp only [Point.users] at huser hpeer
    simp only [Sees, huser, hpeer] at h ⊢
    exact ⟨h.1, h.2.1, hcalled _ h.2.2.1, hcalled _ h.2.2.2⟩
  | resetUser | resetPeer | notify | awaitNotified => trivial

theorem placed_mono (hregistered : ∀ id, Registered w.server.users id →
      Registered w'.server.users id) (hchanges : ∀ x ∈ w.changes, x ∈ w'.changes)
    (h : Placed w request point) : Placed w' request point := by
  cases point with
  | findPeer => exact ⟨h.1, hregistered _ h.2⟩
  | startWebsocket | contact | awaitPeer | linkUser =>
    exact ⟨h.1, hregistered _ h.2.1, hregistered _ h.2.2⟩
  | linkPeer =>
    obtain ⟨hne, huser, hpeer, time, hlt, hmem⟩ := h
    exact ⟨hne, hregistered _ huser, hregistered _ hpeer, time, hlt, hchanges _ hmem⟩
  | resetUser | resetPeer | notify | awaitNotified => trivial

theorem Fresh.of_mono (hchanges : ∀ x ∈ w.changes, x ∈ w'.changes)
    (h : Fresh w' request userId peerId) : Fresh w request userId peerId :=
  fun x hx => h x (hchanges x hx)

/-! ### Writing a record -/

/-- Request `request` has written the record of `id`, whose partner is `m` now. -/
structure Wrote (w w' : World) (request : ℕ) (id : String) (m : Option String) : Prop where
  consistent : Consistent w'.server.users
  partner : partner w'.server.users = Function.update (partner w.server.users) id m
  registered : ∀ id, Registered w.server.users id → Registered w'.server.users id
  changes : w'.changes = w.changes ∧ CallPairing.partner w.server.users id = m ∨
    w'.changes = w.changes ++ [⟨id, w.clock, request⟩]
  requests : w'.requests = w.requests
  booked : w'.booked = w.booked

namespace Wrote

/-- A step that writes nothing. -/
theorem of_users (request : ℕ) (id : String) (hconsistent : Consistent w.server.users)
    (husers : w'.server.users = w.server.users) (hchanges : w'.changes = w.changes)
    (hrequests : w'.requests = w.requests) (hbooked : w'.booked = w.booked) :
    Wrote w w' request id (CallPairing.partner w.server.users id) where
  consistent := husers ▸ hconsistent
  partner := by rw [husers, Function.update_eq_self]
  registered := fun _ h => husers ▸ h
  changes := .inl ⟨hchanges, rfl⟩
  requests := hrequests
  booked := hbooked

theorem logEvent (h : Wrote w w' request id m) (event : ServerEvent) :
    Wrote w (w'.logEvent event) request id m := by
  obtain ⟨husers, hchanges, hrequests, hbooked⟩ := w'.logEvent_same event
  generalize w'.logEvent event = w₁ at husers hchanges hrequests hbooked ⊢
  refine ⟨?_, ?_, ?_, ?_, hrequests.trans h.requests, hbooked.trans h.booked⟩
  · rw [husers]
    exact h.consistent
  · rw [husers]
    exact h.partner
  · rw [husers]
    exact h.registered
  · rw [hchanges]
    exact h.changes

theorem mem_changes (h : Wrote w w' request id m) {x : Change} (hx : x ∈ w.changes) :
    x ∈ w'.changes := by
  rcases h.changes with ⟨heq, -⟩ | heq <;> rw [heq]
  · exact hx
  · exact List.mem_append_left _ hx

theorem of_mem_changes (h : Wrote w w' request id m) {x : Change} (hx : x ∈ w'.changes) :
    x ∈ w.changes ∨ x = ⟨id, w.clock, request⟩ := by
  rcases h.changes with ⟨heq, -⟩ | heq <;> rw [heq] at hx
  · exact .inl hx
  · exact (List.mem_append.mp hx).imp_right List.mem_singleton.mp

theorem partner_self (h : Wrote w w' request id m) :
    CallPairing.partner w'.server.users id = m := by
  rw [h.partner, Function.update_self]

theorem partner_of_ne (h : Wrote w w' request id m) {x : String} (hx : x ≠ id) :
    CallPairing.partner w'.server.users x = CallPairing.partner w.server.users x := by
  rw [h.partner, Function.update_of_ne hx]

theorem placed (h : Wrote w w' request id m) {other : ℕ} (hplaced : Placed w other point) :
    Placed w' other point :=
  placed_mono h.registered (fun _ => h.mem_changes) hplaced

theorem fresh (h : Wrote w w' request id m) {other : ℕ}
    (hfresh : Fresh w' other userId peerId) : Fresh w other userId peerId :=
  hfresh.of_mono fun _ => h.mem_changes

/-- Another request whose records nobody has changed finds the partners as they were. -/
theorem partner_of_fresh (h : Wrote w w' request id m) {other : ℕ} (hne : other ≠ request)
    (hlt : other < w.clock) (hfresh : Fresh w' other userId peerId) {x : String}
    (hx : x = userId ∨ x = peerId) :
    CallPairing.partner w'.server.users x = CallPairing.partner w.server.users x := by
  by_cases hid : x = id
  · rcases h.changes with ⟨-, hsame⟩ | heq
    · rw [hid, h.partner_self, hsame]
    · have hmem : (⟨id, w.clock, request⟩ : Change) ∈ w'.changes := by simp [heq]
      exact absurd (hfresh _ hmem (hid ▸ hx) hlt).symm hne
  · exact h.partner_of_ne hid

end Wrote

theorem registered_insert {users : UserStore} {user : User} {id userId : String}
    (hlookup : users.lookup userId = some user) {user' : User}
    (hendpoint : user'.apiEndpoint = user.apiEndpoint) (h : Registered users id) :
    Registered (users.insert userId user') id := by
  obtain ⟨stored, hstored, hcopy⟩ := h
  by_cases hid : id = userId
  · subst hid
    obtain rfl : stored = user := Option.some_inj.mp (hstored.symm.trans hlookup)
    exact ⟨user', Finmap.lookup_insert _, hendpoint ▸ hcopy⟩
  · exact ⟨stored, (Finmap.lookup_insert_of_ne _ hid).trans hstored, hcopy⟩

/-- The list of changes after a record has been written. -/
theorem changes_cases {users users' : UserStore} {changes : List Change} {c : Change}
    (hpartner : partner users' id = m) :
    (if users'.lookup id = users.lookup id then changes else changes ++ [c]) = changes ∧
        partner users id = m ∨
      (if users'.lookup id = users.lookup id then changes else changes ++ [c])
        = changes ++ [c] := by
  by_cases hsame : users'.lookup id = users.lookup id
  · refine .inl ⟨if_pos hsame, ?_⟩
    rw [← hpartner, partner, partner, hsame]
  · exact .inr (if_neg hsame)

/-- A call can write a record that is there. -/
theorem setUserState_connected (hconsistent : Consistent w.server.users)
    (hregistered : Registered w.server.users userId) (hne : peerId ≠ userId) (request : ℕ) :
    ∃ w', w.setUserState request userId .connected (some peerId) = some w' ∧
      Wrote w w' request userId (some peerId) := by
  obtain ⟨user, hlookup, hcopy⟩ := hregistered
  have hset : UserManager.setUserState w.server.users userId .connected (some peerId)
      = .ok (w.server.users.insert userId { user with state := .connected, peer := some peerId }) :=
    setUserState_eq_ok.mpr ⟨by simp, user, hlookup, rfl⟩
  have hpartner := partner_insert w.server.users userId
    { user with state := .connected, peer := some peerId }
  rw [if_pos rfl] at hpartner
  rw [World.setUserState, Server.setUserState, hset]
  refine ⟨_, rfl, ?_, hpartner, fun id => registered_insert hlookup rfl, changes_cases ?_, rfl, rfl⟩
  · exact consistent_insert hconsistent (.inr ⟨rfl, peerId, rfl, hne⟩) fun _ => hcopy
  · show partner (w.server.users.insert userId _) userId = some peerId
    rw [hpartner, Function.update_self]

/-- A reset writes the record if it is there. -/
theorem setUserState_idle (hconsistent : Consistent w.server.users) (userId : String)
    (request : ℕ) :
    Wrote w ((w.setUserState request userId .idle none).getD w) request userId none := by
  cases hlookup : w.server.users.lookup userId with
  | none =>
    have hnone : w.setUserState request userId .idle none = none := by
      rw [World.setUserState, Server.setUserState, UserManager.setUserState,
        DictUserStorage.getUser, hlookup]
      rfl
    have hpartner : partner w.server.users userId = none := by
      rw [partner, hlookup, Option.bind_none]
    rw [hnone, Option.getD_none, ← hpartner]
    exact .of_users request userId hconsistent rfl rfl rfl rfl
  | some user =>
    have hset : UserManager.setUserState w.server.users userId .idle none
        = .ok (w.server.users.insert userId { user with state := .idle, peer := none }) :=
      setUserState_eq_ok.mpr ⟨by simp, user, hlookup, rfl⟩
    have hpartner := partner_insert w.server.users userId
      { user with state := .idle, peer := none }
    rw [if_neg (by simp)] at hpartner
    rw [World.setUserState, Server.setUserState, hset]
    refine ⟨?_, hpartner, fun id => registered_insert hlookup rfl, changes_cases ?_, rfl, rfl⟩
    · exact consistent_insert hconsistent (.inl ⟨rfl, rfl⟩) fun hstate => absurd hstate (by simp)
    · show partner (w.server.users.insert userId _) userId = none
      rw [hpartner, Function.update_self]

/-! ### Steps -/

theorem tied_put (hrequests : w'.requests = w.requests) (hpoint : w.requests request = some point)
    {next : Option Point} {x y : String}
    (hstays : point.Ties x y → ∃ point' ∈ next, point'.Ties x y) (h : Tied w x y) :
    Tied (World.put request (w', next)) x y := by
  obtain ⟨other, point', hother, hties⟩ := h
  by_cases hsame : other = request
  · subst hsame
    obtain rfl : point = point' := Option.some_inj.mp (hpoint.symm.trans hother)
    obtain ⟨point'', hnext, hties'⟩ := hstays hties
    exact ⟨other, point'', (World.put_self other _).trans hnext, hties'⟩
  · refine ⟨other, point', ?_, hties⟩
    rw [World.put_of_ne hsame, hrequests, hother]

/-- Who is left alone by a write: the user whose record is written, if the new partner does not
name it, and the one whom that user named before. -/
theorem explained_put (h : Explained w) (hw : Wrote w w' request id m)
    (hpoint : w.requests request = some point) {next : Option Point}
    (hself : ∀ y, m = some y → partner w'.server.users y = some id ∨
      Tied (World.put request (w', next)) id y)
    (hleft : ∀ x, partner w.server.users x = some id → partner w.server.users id = some x →
      Tied (World.put request (w', next)) x id)
    (hstays : ∀ x y, x ≠ id → point.Ties x y → partner w'.server.users y = some x) (x y : String)
    (hxy : partner w'.server.users x = some y) :
    partner w'.server.users y = some x ∨ Tied (World.put request (w', next)) x y := by
  by_cases hx : x = id
  · subst hx
    exact hself y (hw.partner_self.symm.trans hxy)
  · rw [hw.partner_of_ne hx] at hxy
    rcases h x y hxy with hback | htied
    · by_cases hy : y = id
      · subst hy
        exact .inr (hleft x hxy hback)
      · exact .inl ((hw.partner_of_ne hy).trans hback)
    · by_cases hties : point.Ties x y
      · exact .inl (hstays x y hx hties)
      · exact .inr (tied_put hw.requests hpoint (fun h => absurd h hties) htied)

/-- A request has gone on from `w` to `w'`, and has `next` to do. -/
theorem inv_put (h : Inv w) (hle : request ≤ w.clock) (hw : Wrote w w' request id m)
    {next : Option Point}
    (hown : ∀ point ∈ next, Placed w' request point ∧
      (Fresh w' request point.users.1 point.users.2 → Sees w' request point))
    (hexplained : ∀ x y, partner w'.server.users x = some y →
      partner w'.server.users y = some x ∨ Tied (World.put request (w', next)) x y) :
    Inv { World.put request (w', next) with clock := w.clock + 1 } := by
  -- the others are where they were
  have hcases : ∀ other point, (World.put request (w', next)).requests other = some point →
      (other = request ∧ point ∈ next) ∨ (other ≠ request ∧ w.requests other = some point) := by
    intro other point hpoint
    by_cases hsame : other = request
    · subst hsame
      rw [World.put_self] at hpoint
      exact .inl ⟨rfl, hpoint⟩
    · rw [World.put_of_ne hsame, hw.requests] at hpoint
      exact .inr ⟨hsame, hpoint⟩
  refine ⟨hw.consistent, fun other point hpoint => ?_, fun x hx => ?_, fun b hb => ?_,
    fun other point hpoint => ?_, fun other point hpoint hfresh => ?_, hexplained, ?_⟩
  · rcases hcases other point hpoint with ⟨rfl, -⟩ | ⟨-, hold⟩
    · exact Nat.lt_succ_of_le hle
    · exact Nat.lt_succ_of_lt (h.begun other point hold)
  · rcases hw.of_mem_changes hx with hold | rfl
    · exact Nat.lt_succ_of_lt (h.changed x hold)
    · exact Nat.lt_succ_self _
  · exact Nat.lt_succ_of_lt (h.ended b (hw.booked ▸ hb))
  · rcases hcases other point hpoint with ⟨rfl, hnext⟩ | ⟨-, hold⟩
    · exact (hown point hnext).1
    · exact hw.placed (h.placed other point hold)
  · rcases hcases other point hpoint with ⟨rfl, hnext⟩ | ⟨hne, hold⟩
    · exact (hown point hnext).2 hfresh
    · have hafter : Sees w' other point := sees_congr (h.sees other point hold (hw.fresh hfresh))
        (fun x hx => hw.partner_of_fresh hne (h.begun other point hold) hfresh hx) hw.booked
      exact hafter
  · show List.Pairwise _ w'.booked
    rw [hw.booked]
    exact h.apart

/-- A step that writes nothing. -/
theorem inv_quiet (h : Inv w) (hpoint : w.requests request = some point)
    (husers : w'.server.users = w.server.users) (hchanges : w'.changes = w.changes)
    (hrequests : w'.requests = w.requests) (hbooked : w'.booked = w.booked)
    {next : Option Point}
    (hown : ∀ point' ∈ next, point'.users = point.users ∧
      (Placed w request point → Placed w request point') ∧
      (Placed w request point → Sees w request point → Sees w request point'))
    (hties : ∀ x y, partner w.server.users x = some y → point.Ties x y →
      ∃ point' ∈ next, point'.Ties x y) :
    Inv { World.put request (w', next) with clock := w.clock + 1 } := by
  refine inv_put h (h.begun request point hpoint).le
    (.of_users request point.users.1 h.consistent husers hchanges hrequests hbooked)
    (fun point' hnext => ?_) fun x y hxy => ?_
  · obtain ⟨hsame, hplaced, hsees⟩ := hown point' hnext
    have hhere := h.placed request point hpoint
    refine ⟨placed_mono (fun id hid => husers ▸ hid) (fun x hx => hchanges ▸ hx) (hplaced hhere),
      fun hfresh => ?_⟩
    rw [hsame] at hfresh
    exact sees_congr (hsees hhere (h.sees request point hpoint
      (hfresh.of_mono fun x hx => hchanges ▸ hx))) (fun id _ => by rw [husers]) hbooked
  · rw [husers] at hxy ⊢
    exact (h.explained x y hxy).imp_right (tied_put hrequests hpoint (hties x y hxy))

/-- A request that ends, or stays where it is, with no record left to see to. -/
theorem inv_end (h : Inv w) (hpoint : w.requests request = some point)
    (hties : ∀ x y, ¬ point.Ties x y) :
    Inv { World.put request (w, none) with clock := w.clock + 1 } :=
  inv_quiet h hpoint rfl rfl rfl rfl (fun _ hnext => absurd hnext (by simp))
    fun x y _ htie => absurd htie (hties x y)

theorem registered_of_findUser {s : Server} {user : User} (h : s.findUser userId = .ok user) :
    Registered s.users userId ∧ (user.state = .idle → partner s.users userId = none) := by
  obtain ⟨stored, hlookup, hcopy, hstate, -⟩ := Server.findUser_eq_ok.mp h
  exact ⟨⟨stored, hlookup, _, hcopy⟩, fun hidle => partner_of_idle hlookup (hstate ▸ hidle)⟩

/-- The second look of a call, and the checks. -/
theorem inv_findPeer {user : User} (h : Inv w)
    (hpoint : w.requests request = some (.findPeer userId peerId user)) :
    Inv { World.put request (w.advance uuid request (.findPeer userId peerId user)) with
      clock := w.clock + 1 } := by
  have hend := inv_end h hpoint fun _ _ htie => htie
  rw [World.advance]
  cases hfind : w.server.findUser peerId with
  | error e => exact hend
  | ok peer =>
    obtain ⟨hregistered, hpartner⟩ := registered_of_findUser hfind
    dsimp only
    split_ifs with hpeer huser
    · exact hend
    · exact hend
    · refine inv_quiet h hpoint rfl rfl rfl rfl (fun point' hnext => ?_) fun _ _ _ htie =>
        absurd htie id
      obtain rfl := Option.some_inj.mp hnext
      refine ⟨rfl, fun hplaced => ⟨hplaced.1, hplaced.2, hregistered⟩, fun _ hsees => ?_⟩
      have hpeerNone := hpartner (not_not.mp hpeer)
      obtain ⟨huserNone, hcalled⟩ := hsees.1 (not_not.mp huser)
      exact ⟨huserNone, hpeerNone, hcalled, hsees.2 hpeerNone⟩

/-- A step to a point where a call knows what it knew, or the end of the call. -/
theorem inv_quiet_call (h : Inv w) (hpoint : w.requests request = some point)
    (hties : ∀ x y, ¬ point.Ties x y) (husers : w'.server.users = w.server.users)
    (hchanges : w'.changes = w.changes) (hrequests : w'.requests = w.requests)
    (hbooked : w'.booked = w.booked) {point' : Point} (hsame : point'.users = point.users)
    (hplaced : Placed w request point' = Placed w request point)
    (hsees : Sees w request point' = Sees w request point) :
    Inv { World.put request (w', some point') with clock := w.clock + 1 } := by
  refine inv_quiet h hpoint husers hchanges hrequests hbooked (fun point'' hnext => ?_)
    fun x y _ htie => absurd htie (hties x y)
  obtain rfl := Option.some_inj.mp hnext
  exact ⟨hsame, hplaced.mpr, fun _ => hsees.mpr⟩

/-- The first write of a call. -/
theorem inv_linkUser {sessionId : String} (h : Inv w)
    (hpoint : w.requests request = some (.linkUser true userId peerId sessionId))
    (hfresh : Fresh w request userId peerId) :
    Inv { World.put request
        (w.advance uuid request (.linkUser true userId peerId sessionId)) with
      clock := w.clock + 1 } := by
  obtain ⟨hne, huser, hpeer⟩ := h.placed request _ hpoint
  obtain ⟨huserNone, hpeerNone, hucalled, hpcalled⟩ := h.sees request _ hpoint hfresh
  obtain ⟨w', hset, hw⟩ := setUserState_connected h.consistent huser hne.symm request
  rw [World.advance, hset]
  have hchanged : w'.changes = w.changes ++ [⟨userId, w.clock, request⟩] :=
    hw.changes.resolve_left fun hsame => absurd (huserNone.symm.trans hsame.2) (by simp)
  refine inv_put h (h.begun request _ hpoint).le hw (fun point hnext => ?_) fun x y hxy => ?_
  · obtain rfl := Option.some_inj.mp hnext
    refine ⟨⟨hne, hw.registered _ huser, hw.registered _ hpeer, w.clock,
      h.begun request _ hpoint, by simp [hchanged]⟩, fun _ => ?_⟩
    refine ⟨hw.partner_self, (hw.partner_of_ne hne.symm).trans hpeerNone, ?_, ?_⟩ <;>
      rw [Uncalled, hw.booked]
    · exact hucalled
    · exact hpcalled
  · -- the second write is still to come
    refine explained_put h.explained hw hpoint (fun y hy => ?_) (fun x _ hback => ?_)
      (fun x y _ hties => absurd hties id) x y hxy
    · obtain rfl := Option.some_inj.mp hy
      exact .inr ⟨request, _, World.put_self request _, rfl, rfl⟩
    · exact absurd (huserNone.symm.trans hback) (by simp)

theorem sees_book {b : Booked} (h : Sees w request point)
    (hconnected : ∀ id, b.involves id → partner w.server.users id ≠ none)
    (hlink : ∀ found userId peerId sessionId,
      point = .linkPeer found userId peerId sessionId → ¬ b.involves userId) :
    Sees { w with booked := w.booked ++ [b] } request point := by
  have hcalled : ∀ id, ¬ b.involves id → Uncalled w request id →
      Uncalled { w with booked := w.booked ++ [b] } request id := by
    intro id hnot hid b' hb' hlt
    rcases List.mem_append.mp hb' with hold | hnew
    · exact hid b' hold hlt
    · exact List.mem_singleton.mp hnew ▸ hnot
  have hsingle : ∀ id, partner w.server.users id = none → ¬ b.involves id :=
    fun id hnone hinvolves => hconnected id hinvolves hnone
  cases point with
  | findPeer userId peerId user =>
    refine ⟨fun hidle => ?_, fun hpeer => hcalled _ (hsingle _ hpeer) (h.2 hpeer)⟩
    obtain ⟨huser, huncalled⟩ := h.1 hidle
    exact ⟨huser, hcalled _ (hsingle _ huser) huncalled⟩
  | startWebsocket | contact | awaitPeer | linkUser =>
    obtain ⟨huser, hpeer, hucalled, hpcalled⟩ := h
    exact ⟨huser, hpeer, hcalled _ (hsingle _ huser) hucalled,
      hcalled _ (hsingle _ hpeer) hpcalled⟩
  | linkPeer found userId peerId sessionId =>
    obtain ⟨huser, hpeer, hucalled, hpcalled⟩ := h
    exact ⟨huser, hpeer, hcalled _ (hlink found userId peerId sessionId rfl) hucalled,
      hcalled _ (hsingle _ hpeer) hpcalled⟩
  | resetUser | resetPeer | notify | awaitNotified => trivial

/-- A call of two users who are connected now has returned. -/
theorem inv_book {b : Booked} (h : Inv w) (hended : b.ended < w.clock)
    (hapart : ∀ b' ∈ w.booked, ¬ b'.Conflicts b)
    (hconnected : ∀ id, b.involves id → partner w.server.users id ≠ none)
    (hlink : ∀ request found userId peerId sessionId,
      w.requests request = some (.linkPeer found userId peerId sessionId) →
        Fresh w request userId peerId → ¬ b.involves userId) :
    Inv { w with booked := w.booked ++ [b] } where
  consistent := h.consistent
  begun := h.begun
  changed := h.changed
  ended b' hb' := by
    rcases List.mem_append.mp hb' with hold | hnew
    · exact h.ended b' hold
    · exact List.mem_singleton.mp hnew ▸ hended
  placed := h.placed
  sees request point hpoint hfresh := by
    refine sees_book (h.sees request point hpoint hfresh) hconnected ?_
    rintro found userId peerId sessionId rfl
    exact hlink request found userId peerId sessionId hpoint hfresh
  explained := h.explained
  apart := by
    refine List.pairwise_append.mpr ⟨h.apart, List.pairwise_singleton _ _, ?_⟩
    intro b' hb' b'' hb''
    exact List.mem_singleton.mp hb'' ▸ hapart b' hb'

/-- Two calls that have both written the same record have disturbed each other. -/
theorem not_both_fresh {other time time' : ℕ} {record peerId' : String} (hne : other ≠ request)
    (hchange : ⟨record, time, request⟩ ∈ w.changes) (hlt : request < time)
    (hchange' : ⟨record, time', other⟩ ∈ w.changes) (hlt' : other < time')
    (hfresh : Fresh w request record peerId) : ¬ Fresh w other record peerId' := by
  intro hfresh'
  have hbefore : time ≤ other := not_lt.mp fun h => hne (hfresh' _ hchange (.inl rfl) h).symm
  have hbefore' : time' ≤ request := not_lt.mp fun h => hne (hfresh _ hchange' (.inl rfl) h)
  omega

/-- The second write of a call, which books both users. -/
theorem inv_linkPeer {sessionId : String} (h : Inv w)
    (hpoint : w.requests request = some (.linkPeer true userId peerId sessionId))
    (hfresh : Fresh w request userId peerId) :
    Inv { World.put request
        (w.advance uuid request (.linkPeer true userId peerId sessionId)) with
      clock := w.clock + 1 } := by
  obtain ⟨hne, huser, hpeer, time, hlt, hchange⟩ := h.placed request _ hpoint
  obtain ⟨hupartner, hpeerNone, hucalled, hpcalled⟩ := h.sees request _ hpoint hfresh
  obtain ⟨w', hset, hw⟩ := setUserState_connected h.consistent hpeer hne request
  rw [World.advance, hset]
  dsimp only
  have hw₁ := hw.logEvent (.peerConnected userId peerId)
  generalize w'.logEvent (.peerConnected userId peerId) = w₁ at hw₁ ⊢
  have hchanged : w₁.changes = w.changes ++ [⟨peerId, w.clock, request⟩] :=
    hw₁.changes.resolve_left fun hsame => absurd (hpeerNone.symm.trans hsame.2) (by simp)
  have hlinked : partner w₁.server.users userId = some peerId :=
    (hw₁.partner_of_ne hne).trans hupartner
  have hput : Inv { World.put request (w₁, none) with clock := w.clock + 1 } := by
    refine inv_put h (h.begun request _ hpoint).le hw₁ (fun _ hnext => absurd hnext (by simp))
      (explained_put h.explained hw₁ hpoint (fun y hy => ?_) (fun x _ hback => ?_) ?_)
    · obtain rfl := Option.some_inj.mp hy
      exact .inl hlinked
    · exact absurd (hpeerNone.symm.trans hback) (by simp)
    · rintro x y - ⟨rfl, rfl⟩
      exact hw₁.partner_self
  have hbook := inv_book (b := ⟨userId, peerId, request, w.clock⟩) hput (Nat.lt_succ_self _)
    (fun b hb => ?_) ?_ ?_
  · rwa [show (World.put request (w₁, none)).booked = w.booked from hw₁.booked] at hbook
  · rintro ⟨hshared, -, hoverlap⟩
    have hold : b ∈ w.booked := hw₁.booked ▸ hb
    rcases hshared with hinvolves | hinvolves
    · exact hucalled b hold hoverlap hinvolves
    · exact hpcalled b hold hoverlap hinvolves
  · rintro id (rfl | rfl)
    · exact fun hnone => absurd (hlinked.symm.trans hnone) (by simp)
    · exact fun hnone => absurd (hw₁.partner_self.symm.trans hnone) (by simp)
  · intro other found userId' peerId' sessionId' hother hfresh' hinvolves
    have hself : other ≠ request := by
      rintro rfl
      have hnone : none = some (Point.linkPeer found userId' peerId' sessionId') :=
        (World.put_self other (w₁, none)).symm.trans hother
      exact absurd hnone (by simp)
    have hother' : w.requests other = some (.linkPeer found userId' peerId' sessionId') := by
      rw [← hw₁.requests]
      exact (World.put_of_ne hself (w₁, none)).symm.trans hother
    rcases hinvolves with rfl | rfl
    · obtain ⟨-, -, -, time', hlt', hchange'⟩ := h.placed other _ hother'
      exact not_both_fresh hself hchange hlt hchange' hlt' hfresh (hw₁.fresh hfresh')
    · refine hself (hfresh' ⟨userId', w.clock, request⟩ ?_ (.inl rfl) ?_).symm
      · show _ ∈ w₁.changes
        simp [hchanged]
      · exact h.begun other _ hother'

/-- The first write of a disconnect. -/
theorem inv_resetUser (h : Inv w)
    (hpoint : w.requests request = some (.resetUser true userId peerId))
    (hcall : partner w.server.users userId = none ∨
      partner w.server.users userId = some peerId) :
    Inv { World.put request (w.advance uuid request (.resetUser true userId peerId)) with
      clock := w.clock + 1 } := by
  have hw := setUserState_idle h.consistent userId request
  rw [World.advance]
  refine inv_put h (h.begun request _ hpoint).le hw (fun point hnext => ?_) fun x y hxy => ?_
  · obtain rfl := Option.some_inj.mp hnext
    exact ⟨trivial, fun _ => trivial⟩
  · refine explained_put h.explained hw hpoint (fun y hy => absurd hy (by simp)) (fun x _ hback => ?_)
      (fun x y _ hties => absurd hties id) x y hxy
    -- the one whom the user named is the peer, whose record is reset next
    obtain rfl : peerId = x := by
      rcases hcall with hnone | hsome
      · exact absurd (hnone.symm.trans hback) (by simp)
      · exact Option.some_inj.mp (hsome.symm.trans hback)
    exact ⟨request, _, World.put_self request _, rfl, rfl⟩

/-- The second write of a disconnect. -/
theorem inv_resetPeer (h : Inv w)
    (hpoint : w.requests request = some (.resetPeer true userId peerId))
    (hcall : partner w.server.users peerId = none ∨ (partner w.server.users peerId = some userId ∧
      partner w.server.users userId ≠ some peerId)) :
    Inv { World.put request (w.advance uuid request (.resetPeer true userId peerId)) with
      clock := w.clock + 1 } := by
  have hw := (setUserState_idle h.consistent peerId request).logEvent
    (.peerDisconnected userId peerId)
  rw [World.advance]
  generalize World.logEvent _ _ = w₁ at hw ⊢
  refine inv_put h (h.begun request _ hpoint).le hw (fun point hnext => ?_) fun x y hxy => ?_
  · obtain rfl := Option.some_inj.mp hnext
    exact ⟨trivial, fun _ => trivial⟩
  · refine explained_put h.explained hw hpoint (fun y hy => absurd hy (by simp))
      (fun x hnames hback => ?_) (fun x y hx hties => absurd hties.1 hx) x y hxy
    -- whoever the peer names has left the call
    rcases hcall with hnone | ⟨hsome, hleft⟩
    · exact absurd (hnone.symm.trans hback) (by simp)
    · obtain rfl : userId = x := Option.some_inj.mp (hsome.symm.trans hback)
      exact absurd hnames hleft

/-- The look before it. -/
theorem inv_resetPeer_look (h : Inv w)
    (hpoint : w.requests request = some (.resetPeer false userId peerId)) :
    Inv { World.put request (w.advance uuid request (.resetPeer false userId peerId)) with
      clock := w.clock + 1 } := by
  rw [World.advance, DictUserStorage.getUser]
  cases hlookup : w.server.users.lookup peerId with
  | some user =>
    refine inv_quiet h hpoint rfl rfl rfl rfl (fun point' hnext => ?_) fun x y _ htie =>
      ⟨_, rfl, htie⟩
    obtain rfl := Option.some_inj.mp hnext
    exact ⟨rfl, id, fun _ => id⟩
  | none =>
    -- then the peer is in no call
    obtain ⟨husers, hchanges, hrequests, hbooked⟩ :=
      w.logEvent_same (.peerDisconnected userId peerId)
    refine inv_quiet h hpoint husers hchanges hrequests hbooked (fun point' hnext => ?_)
      fun x y hxy htie => ?_
    · obtain rfl := Option.some_inj.mp hnext
      exact ⟨rfl, fun _ => trivial, fun _ _ => trivial⟩
    · rw [htie.1, partner, hlookup, Option.bind_none] at hxy
      exact absurd hxy (by simp)

/-- **What a step keeps that disturbs nobody.** -/
theorem inv_run (h : Inv w) (hpoint : w.requests request = some point)
    (hmay : MayWrite w request point) :
    Inv { World.put request (w.advance uuid request point) with clock := w.clock + 1 } := by
  cases point with
  | findPeer userId peerId user => exact inv_findPeer h hpoint
  | startWebsocket userId peerId =>
    rw [World.advance]
    cases hstart : w.server.startWebsocket uuid [userId, peerId] with
    | error e => exact inv_end h hpoint fun _ _ htie => htie
    | ok started =>
      obtain ⟨server, sessionId⟩ := started
      have husers : ({ w with server := server } : World).server.users = w.server.users :=
        Server.startWebsocket_users hstart
      exact inv_quiet_call h hpoint (fun _ _ htie => htie) husers rfl rfl rfl rfl rfl rfl
  | contact userId peerId sessionId =>
    rw [World.advance]
    cases w.server.contactClient peerId "/peer_connection" (.status Server.httpOk) with
    | error e => exact inv_end h hpoint fun _ _ htie => htie
    | ok _ =>
      exact inv_quiet_call h hpoint (fun _ _ htie => htie) rfl rfl rfl rfl rfl rfl rfl
  | awaitPeer userId peerId sessionId =>
    exact inv_quiet_call h hpoint (fun _ _ htie => htie) rfl rfl rfl rfl rfl rfl rfl
  | linkUser found userId peerId sessionId =>
    cases found with
    | true => exact inv_linkUser h hpoint hmay
    | false =>
      rw [World.advance]
      cases DictUserStorage.getUser w.server.users userId with
      | error e => exact inv_end h hpoint fun _ _ htie => htie
      | ok _ =>
        exact inv_quiet_call h hpoint (fun _ _ htie => htie) rfl rfl rfl rfl rfl rfl rfl
  | linkPeer found userId peerId sessionId =>
    cases found with
    | true => exact inv_linkPeer h hpoint hmay
    | false =>
      -- the peer is still registered
      obtain ⟨-, -, ⟨peer, hlookup, -⟩, -⟩ := h.placed request _ hpoint
      rw [World.advance, DictUserStorage.getUser, hlookup]
      refine inv_quiet h hpoint rfl rfl rfl rfl (fun point' hnext => ?_) fun x y _ htie =>
        ⟨_, rfl, htie⟩
      obtain rfl := Option.some_inj.mp hnext
      exact ⟨rfl, id, fun _ => id⟩
  | resetUser found userId peerId =>
    cases found with
    | true => exact inv_resetUser h hpoint hmay
    | false =>
      rw [World.advance]
      cases DictUserStorage.getUser w.server.users userId <;>
        exact inv_quiet_call h hpoint (fun _ _ htie => htie) rfl rfl rfl rfl rfl rfl rfl
  | resetPeer found userId peerId =>
    cases found with
    | true => exact inv_resetPeer h hpoint hmay
    | false => exact inv_resetPeer_look h hpoint
  | notify userId peerId =>
    rw [World.advance]
    cases w.server.contactClient peerId "/peer_disconnected" (.status Server.httpOk) with
    | error e => exact inv_end h hpoint fun _ _ htie => htie
    | ok _ =>
      exact inv_quiet_call h hpoint (fun _ _ htie => htie) rfl rfl rfl rfl rfl rfl rfl
  | awaitNotified userId peerId =>
    exact inv_quiet_call h hpoint (fun _ _ htie => htie) rfl rfl rfl rfl rfl rfl rfl

/-- A client answers, and the request knows what it knew. -/
theorem inv_answer (h : Inv w) (hpoint : w.requests request = some point)
    (answer : ClientAnswer) :
    Inv { World.put request (w, World.hear answer point) with clock := w.clock + 1 } := by
  cases point with
  | awaitPeer userId peerId sessionId =>
    rw [World.hear]
    cases Server.checkAnswer peerId (.ok answer) with
    | error e => exact inv_end h hpoint fun _ _ htie => htie
    | ok _ => exact inv_quiet_call h hpoint (fun _ _ htie => htie) rfl rfl rfl rfl rfl rfl rfl
  | awaitNotified userId peerId => exact inv_end h hpoint fun _ _ htie => htie
  | _ =>
    refine inv_quiet h hpoint rfl rfl rfl rfl (fun point' hnext => ?_) fun x y _ htie =>
      ⟨_, rfl, htie⟩
    obtain rfl := Option.some_inj.mp hnext
    exact ⟨rfl, id, fun _ => id⟩

/-- A request that arrives has looked at one record, or it is over. -/
theorem inv_arrive (h : Inv w) {next : Option Point}
    (hown : ∀ point ∈ next, Placed w w.clock point ∧ Sees w w.clock point) :
    Inv { World.put w.clock (w, next) with clock := w.clock + 1 } := by
  refine inv_put h le_rfl (.of_users w.clock "" h.consistent rfl rfl rfl rfl)
    (fun point hnext => ⟨(hown point hnext).1, fun _ => (hown point hnext).2⟩) fun x y hxy => ?_
  refine (h.explained x y hxy).imp_right ?_
  rintro ⟨request, point, hpoint, hties⟩
  refine ⟨request, point, ?_, hties⟩
  rw [World.put_of_ne (h.begun request point hpoint).ne]
  exact hpoint

theorem inv_beginConnect (h : Inv w) (userId peerId : String) :
    Inv { World.put w.clock (w, w.beginConnect userId peerId) with clock := w.clock + 1 } := by
  refine inv_arrive h fun point hnext => ?_
  rw [World.beginConnect] at hnext
  split_ifs at hnext with hsame
  · exact absurd hnext (by simp)
  cases hfind : w.server.findUser userId with
  | error e => simp [hfind] at hnext
  | ok user =>
    rw [hfind] at hnext
    obtain rfl := Option.some_inj.mp hnext
    obtain ⟨hregistered, hpartner⟩ := registered_of_findUser hfind
    -- no call has returned later than now
    have hcalled : ∀ id, Uncalled w w.clock id := fun id b hb hlt =>
      absurd (h.ended b hb) (by omega)
    exact ⟨⟨hsame, hregistered⟩, fun hidle => ⟨hpartner hidle, hcalled _⟩, fun _ => hcalled _⟩

theorem inv_beginDisconnect (h : Inv w) (userId : String) :
    Inv { World.put w.clock (w, w.beginDisconnect userId) with clock := w.clock + 1 } := by
  refine inv_arrive h fun point hnext => ?_
  rw [World.beginDisconnect] at hnext
  cases hfind : w.server.findUser userId with
  | error e => simp [hfind] at hnext
  | ok user =>
    cases hpeer : user.peer with
    | none => simp [hfind, hpeer] at hnext
    | some peerId =>
      simp only [hfind, hpeer] at hnext
      obtain rfl := Option.some_inj.mp hnext
      exact ⟨trivial, trivial⟩

/-- Time passes, or the store changes where no request looks. -/
theorem inv_server (h : Inv w) {server : Server} (hconsistent : Consistent server.users)
    (hpartner : partner server.users = partner w.server.users)
    (hregistered : ∀ id, Registered w.server.users id → Registered server.users id) :
    Inv { w with server := server, clock := w.clock + 1 } where
  consistent := hconsistent
  begun request point hpoint := Nat.lt_succ_of_lt (h.begun request point hpoint)
  changed x hx := Nat.lt_succ_of_lt (h.changed x hx)
  ended b hb := Nat.lt_succ_of_lt (h.ended b hb)
  placed request point hpoint :=
    placed_mono (w := w) hregistered (fun _ => id) (h.placed request point hpoint)
  sees request point hpoint hfresh :=
    sees_congr (w := w) (h.sees request point hpoint hfresh) (fun id _ => congrFun hpartner id) rfl
  explained x y hxy := by
    rw [hpartner] at hxy ⊢
    exact h.explained x y hxy
  apart := h.apart

theorem inv_tick (h : Inv w) : Inv { w with clock := w.clock + 1 } :=
  inv_server h h.consistent rfl fun _ => id

theorem users_addUser (s : Server) (apiEndpoint : List PyValue) (draws : IdDraws) :
    (s.addUser apiEndpoint draws).1.users = s.users ∨
      ∃ newId endpoint, newId ∉ s.users ∧ (s.addUser apiEndpoint draws).1.users
        = s.users.insert newId { apiEndpoint := endpoint } := by
  rw [Server.addUser]
  cases hadd : UserManager.addUser s.users apiEndpoint draws with
  | error e => exact .inl rfl
  | ok new =>
    obtain ⟨newId, users⟩ := new
    obtain ⟨-, hnew, endpoint, -, rfl⟩ := addUser_eq_ok.mp hadd
    exact .inr ⟨newId, endpoint, hnew, Server.logEvent_users _ _⟩

/-- A new user is nobody's partner. -/
theorem inv_addUser (h : Inv w) (apiEndpoint : List PyValue) (draws : IdDraws) :
    Inv (step uuid w (.addUser apiEndpoint draws)) := by
  rw [step, act]
  rcases users_addUser w.server apiEndpoint draws with hsame | ⟨newId, endpoint, hnew, husers⟩
  · exact inv_server h (hsame ▸ h.consistent) (by rw [hsame]) fun id hid => hsame ▸ hid
  · refine inv_server h ?_ ?_ fun id hid => ?_ <;> rw [husers]
    · exact consistent_insert h.consistent (.inl ⟨rfl, rfl⟩) fun hstate => absurd hstate (by simp)
    · exact partner_insert_new hnew endpoint
    · obtain ⟨user, hlookup, hcopy⟩ := hid
      refine ⟨user, (Finmap.lookup_insert_of_ne _ ?_).trans hlookup, hcopy⟩
      rintro rfl
      exact hnew (Finmap.mem_of_lookup_eq_some hlookup)

theorem inv_step (uuid : UuidSource) (w : World) (a : Action) (h : Inv w)
    (hundisturbed : Undisturbed w a) : Inv (step uuid w a) := by
  cases a with
  | addUser apiEndpoint draws => exact inv_addUser h apiEndpoint draws
  | handlePeerConnection userId peerId => exact inv_beginConnect h userId peerId
  | disconnectPeer userId => exact inv_beginDisconnect h userId
  | run request =>
    rw [step, act]
    cases hpoint : w.requests request with
    | none => exact inv_tick h
    | some point => exact inv_run h hpoint (hundisturbed point hpoint)
  | answer request answer =>
    rw [step, act]
    cases hpoint : w.requests request with
    | none => exact inv_tick h
    | some point => exact inv_answer h hpoint answer

theorem inv_fresh (apiEndpoint : Endpoint) (socketApi : Option SocketAPI) :
    Inv (fresh apiEndpoint socketApi) where
  consistent := consistent_empty
  begun _ _ h := absurd h (by simp [fresh])
  changed _ h := absurd h List.not_mem_nil
  ended _ h := absurd h List.not_mem_nil
  placed _ _ h := absurd h (by simp [fresh])
  sees _ _ h := absurd h (by simp [fresh])
  explained _ _ h := absurd h (by simp [fresh, partner])
  apart := List.Pairwise.nil

/-- When no request is in progress, nobody is left alone in a call. -/
theorem Inv.safe (h : Inv w) : Safe w := by
  refine ⟨h.apart, fun hnone => (paired_iff h.consistent).mpr ⟨fun x y hxy => ?_, fun x hx => ?_⟩⟩
  · refine (h.explained x y hxy).resolve_right ?_
    rintro ⟨request, point, hpoint, -⟩
    exact absurd ((hnone request).symm.trans hpoint) (by simp)
  · obtain ⟨user, hlookup, hstate, hpeer⟩ := partner_eq_some.mp hx
    rcases h.consistent.state_peer x user hlookup with ⟨hidle, -⟩ | ⟨-, p, hp, hne⟩
    · exact absurd (hstate.symm.trans hidle) (by decide)
    · exact hne (Option.some_inj.mp (hp.symm.trans hpeer))

/-- **When nobody is booked twice.**  In every interleaving, one access to the store at a time, of
calls, disconnects and the answers of clients on a server that starts empty: if no call writes a
record after another request has changed one of its two records since it began, and no
disconnect resets a record that is in another call, then no two calls that share a user and
overlap both return success, and whenever no request is in progress the connected users are
paired. -/
theorem safe_of_undisturbed (uuid : UuidSource) (apiEndpoint : Endpoint)
    (socketApi : Option SocketAPI) (actions : List Action)
    (hundisturbed : Along (step uuid) Undisturbed (fresh apiEndpoint socketApi) actions) :
    Throughout (step uuid) Safe (fresh apiEndpoint socketApi) actions :=
  (throughout_of_along (P := Inv) (inv_step uuid) (inv_fresh apiEndpoint socketApi)
    hundisturbed).mono fun _ => Inv.safe

/-- Users 10000 and 10002 call at the same time, a call to 10000 is turned down meanwhile, and
10001 hangs up while the other call is still waiting. -/
def overlappingRun : List Action :=
  [.addUser [.str "10.0.0.1", .int 5001] (plainDraws 0),
    .addUser [.str "10.0.0.2", .int 5001] (plainDraws 1),
    .addUser [.str "10.0.0.3", .int 5001] (plainDraws 2),
    .addUser [.str "10.0.0.4", .int 5001] (plainDraws 3),
    .handlePeerConnection "10000" "10001", .handlePeerConnection "10002" "10003",
    .run 4, .run 5, .run 4, .run 5, .run 4, .answer 4 (.status 200), .run 4, .run 5, .run 4,
    .handlePeerConnection "10003" "10000", .run 15, .run 4, .run 4,
    .disconnectPeer "10001", .run 19, .run 19, .answer 5 (.status 200), .run 5, .run 19, .run 5,
    .run 5, .run 19, .run 19, .run 5, .answer 19 .unreachable]

theorem overlapping_run_is_safe :
    (overlappingRun.foldl (step plainUuid) (fresh ⟨some "10.0.0.9", .int 5050, none⟩
      (some {}))).booked = [⟨"10000", "10001", 4, 18⟩, ⟨"10002", "10003", 5, 29⟩] ∧
    Throughout (step plainUuid) Safe (fresh ⟨some "10.0.0.9", .int 5050, none⟩ (some {}))
      overlappingRun :=
  ⟨by decide +kernel, safe_of_undisturbed plainUuid ⟨some "10.0.0.9", .int 5050, none⟩ (some {})
    overlappingRun (by decide +kernel)⟩

/-- User 10000 calls 10001 and 10002 at once, and both accept. -/
def doubleRun : List Action :=
  [.addUser [.str "10.0.0.1", .int 5001] (plainDraws 0),
    .addUser [.str "10.0.0.2", .int 5001] (plainDraws 1),
    .addUser [.str "10.0.0.3", .int 5001] (plainDraws 2),
    .handlePeerConnection "10000" "10001", .handlePeerConnection "10000" "10002",
    .run 3, .run 3, .run 3, .run 4, .run 4, .run 4,
    .answer 3 (.status 200), .run 3, .run 3, .run 3, .run 3,
    .answer 4 (.status 200), .run 4, .run 4, .run 4, .run 4]

theorem overlapping_calls_succeed :
    ¬ ∀ (uuid : UuidSource) (apiEndpoint : Endpoint) (socketApi : Option SocketAPI)
        (actions : List Action),
      Throughout (step uuid) Safe (fresh apiEndpoint socketApi) actions := by
  intro hall
  have hsafe := (hall plainUuid ⟨some "10.0.0.9", .int 5050, none⟩ (some {}) doubleRun).last
  exact absurd hsafe.1 (by decide +kernel)

end LockedSteps
