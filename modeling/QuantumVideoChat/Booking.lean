/-
Several calls of the server in progress at once (`server/peer_manager.py`).

Assumed here: a handler gives up control only while it waits for a client, as a greenlet
(`async_mode="gevent"`) does where the blocking calls of the standard library are patched; the
server does not patch them itself.  Then `connect` is a first half up to the request to the peer
and a second half for its answer, and `disconnect` waits once, after everything is done.

Three things are remembered that no store holds: a clock that counts the steps, when each
record was last written, and when the calls that returned success began and ended.

* `inv_step` — what every step keeps, and what every step keeps as long as nobody has been
  booked twice;
* `no_double_booking_iff` — nobody is booked twice, in any interleaving, exactly when every
  accepted call finds both records as it checked them.
-/
import QuantumVideoChat.CallPairing

namespace Booking

open CallPairing UserManager Transition

/-- A request in progress waits for an answer of the contacted client. -/
inductive Pending
  | connecting (userId peerId sessionId : String) (begun : ℕ)
  | notifying (userId peerId : String)
  deriving DecidableEq

/-- A call of `connect` that returned success. -/
structure Booked where
  userId : String
  peerId : String
  begun : ℕ
  ended : ℕ
  deriving DecidableEq

namespace Booked

def involves (b : Booked) (id : String) : Prop := id = b.userId ∨ id = b.peerId

instance (b : Booked) (id : String) : Decidable (b.involves id) :=
  inferInstanceAs (Decidable (_ ∨ _))

/-- The two calls were in progress at the same time, and somebody takes part in both. -/
def Conflicts (b b' : Booked) : Prop :=
  (b.involves b'.userId ∨ b.involves b'.peerId) ∧ b.begun < b'.ended ∧ b'.begun < b.ended

instance (b b' : Booked) : Decidable (b.Conflicts b') :=
  inferInstanceAs (Decidable (_ ∧ _ ∧ _))

end Booked

structure World where
  server : Server
  pending : List Pending := []
  clock : ℕ := 1
  written : String → ℕ := fun _ => 0
  booked : List Booked := []

namespace World

variable (uuid : UuidSource) (w : World)

/-- The records of two users are written now. -/
def touch (userId peerId : String) : String → ℕ :=
  Function.update (Function.update w.written userId w.clock) peerId w.clock

def beginConnect (userId peerId : String) : World :=
  match w.server.requestConnect uuid userId peerId with
  | (server, .error _) => { w with server := server }
  | (server, .ok sessionId) =>
    { w with
      server := server
      pending := w.pending ++ [.connecting userId peerId sessionId w.clock] }

def endConnect (userId peerId sessionId : String) (begun : ℕ) (answer : ClientAnswer) : World :=
  match w.server.answerConnect userId peerId sessionId answer with
  | (server, .error _) => { w with server := server }
  | (server, .ok _) =>
    { w with
      server := server
      written := w.touch userId peerId
      booked := w.booked ++ [⟨userId, peerId, begun, w.clock⟩] }

/-- `disconnect`: the notification is the last thing it does. -/
def beginDisconnect (userId : String) : World :=
  match w.server.findUser userId with
  | .error _ => w
  | .ok user =>
    match user.peer with
    | none => w
    | some peerId =>
      let server := (w.server.disconnect userId (.status Server.httpOk)).1
      match server.contactClient peerId "/peer_disconnected" (.status Server.httpOk) with
      | .error _ => { w with server := server, written := w.touch userId peerId }
      | .ok _ =>
        { w with
          server := server
          written := w.touch userId peerId
          pending := w.pending ++ [.notifying userId peerId] }

end World

/-- A user registers, a request arrives, or a client answers the `i`-th one in progress. -/
inductive Action
  | addUser (apiEndpoint : List PyValue) (draws : IdDraws)
  | handlePeerConnection (userId peerId : String)
  | disconnectPeer (userId : String)
  | answer (i : ℕ) (answer : ClientAnswer)

def act (uuid : UuidSource) (w : World) : Action → World
  | .addUser apiEndpoint draws => { w with server := (w.server.addUser apiEndpoint draws).1 }
  | .handlePeerConnection userId peerId => w.beginConnect uuid userId peerId
  | .disconnectPeer userId => w.beginDisconnect userId
  | .answer i answer =>
    let rest : World := { w with pending := w.pending.eraseIdx i }
    match w.pending[i]? with
    | none => w
    | some (.connecting userId peerId sessionId begun) =>
      rest.endConnect userId peerId sessionId begun answer
    -- what comes of a notification is logged only
    | some (.notifying _ _) => rest

def step (uuid : UuidSource) (w : World) (a : Action) : World :=
  { act uuid w a with clock := w.clock + 1 }

/-- No two successful calls conflict. -/
def NoDoubleBooking (w : World) : Prop := w.booked.Pairwise fun b b' => ¬ b.Conflicts b'

instance (w : World) : Decidable (NoDoubleBooking w) :=
  inferInstanceAs (Decidable (List.Pairwise _ _))

/-- Nobody is booked twice, and between requests the connected users are paired. -/
def Safe (w : World) : Prop :=
  NoDoubleBooking w ∧ (w.pending = [] → Paired w.server.users)

/-- An accepted call finds neither record written since it began. -/
def Undisturbed (w : World) : Action → Prop
  | .answer i (.status code) =>
    match w.pending[i]? with
    | some (.connecting userId peerId _ begun) =>
      code = Server.httpOk → w.written userId < begun ∧ w.written peerId < begun
    | _ => True
  | _ => True

/-! ### Invariants -/

/-- The record is there, and it can be handed out. -/
def Registered (w : World) (id : String) : Prop :=
  ∃ user, w.server.users.lookup id = some user ∧ ∃ e, user.apiEndpoint.copy = .ok e

def Idle (w : World) (id : String) : Prop :=
  ∀ user, w.server.users.lookup id = some user → user.state = .idle

/-- What holds of a `connect` that waits for its answer, seen from the state now. -/
structure Waiting (w : World) (userId peerId : String) (begun : ℕ) : Prop where
  ne : userId ≠ peerId
  registered : ∀ id, id = userId ∨ id = peerId → Registered w id
  begun_lt : begun < w.clock
  /-- a record that has not been written since is as the first half found it -/
  idle : ∀ id, id = userId ∨ id = peerId → w.written id < begun → Idle w id

/-- What every step keeps. -/
structure Base (w : World) : Prop where
  consistent : Consistent w.server.users
  waiting : ∀ userId peerId sessionId begun,
    .connecting userId peerId sessionId begun ∈ w.pending → Waiting w userId peerId begun
  written_lt : ∀ id, w.written id < w.clock
  booked : ∀ b ∈ w.booked, b.begun < b.ended ∧ ∀ id, b.involves id → b.ended ≤ w.written id

/-- What every step keeps while nobody has been booked twice: a record written under a
waiting call was written by a call that succeeded meanwhile. -/
structure Orderly (w : World) : Prop where
  paired : Paired w.server.users
  stale : ∀ userId peerId sessionId begun,
    .connecting userId peerId sessionId begun ∈ w.pending →
      ∀ id, id = userId ∨ id = peerId → begun ≤ w.written id →
        ∃ b ∈ w.booked, b.involves id ∧ begun < b.ended

structure Inv (w : World) : Prop where
  base : Base w
  orderly : NoDoubleBooking w → Orderly w

variable {uuid : UuidSource} {w : World} {userId peerId sessionId : String} {begun : ℕ}

theorem touch_apply (w : World) (userId peerId id : String) :
    w.touch userId peerId id
      = if id = userId ∨ id = peerId then w.clock else w.written id := by
  rw [World.touch]
  by_cases hp : id = peerId
  · rw [hp, Function.update_self, if_pos (.inr rfl)]
  · rw [Function.update_of_ne hp]
    by_cases hu : id = userId
    · rw [hu, Function.update_self, if_pos (.inl rfl)]
    · rw [Function.update_of_ne hu, if_neg (by simp [hu, hp])]

/-- A step that only ends requests. -/
theorem Inv.of_sublist {w' : World} (h : Inv w) (husers : w'.server.users = w.server.users)
    (hwritten : w'.written = w.written) (hbooked : w'.booked = w.booked)
    (hclock : w'.clock = w.clock + 1) (hpending : ∀ t ∈ w'.pending, t ∈ w.pending) : Inv w' := by
  have hbase := h.base
  refine ⟨⟨husers ▸ hbase.consistent, fun u p sid b hmem => ?_, fun id => ?_, fun b hb => ?_⟩,
    fun hno => ?_⟩
  · obtain ⟨hne, hreg, hlt, hidle⟩ := hbase.waiting u p sid b (hpending _ hmem)
    refine ⟨hne, fun id hid => ?_, by omega, fun id hid hw => ?_⟩
    · rw [Registered, husers]
      exact hreg id hid
    · rw [Idle, husers]
      exact hidle id hid (hwritten ▸ hw)
  · rw [hwritten, hclock]
    exact Nat.lt_succ_of_lt (hbase.written_lt id)
  · rw [hbooked] at hb
    rw [hwritten]
    exact hbase.booked b hb
  · rw [NoDoubleBooking, hbooked] at hno
    have horderly := h.orderly hno
    refine ⟨husers ▸ horderly.paired, fun u p sid b hmem => ?_⟩
    rw [hbooked, hwritten]
    exact horderly.stale u p sid b (hpending _ hmem)

theorem registered_of_lookup {w' : World} {id : String}
    (h : ∀ user, w.server.users.lookup id = some user →
      ∃ user', w'.server.users.lookup id = some user' ∧ user'.apiEndpoint = user.apiEndpoint)
    (hreg : Registered w id) : Registered w' id := by
  obtain ⟨user, hlookup, hcopy⟩ := hreg
  obtain ⟨user', hlookup', hsame⟩ := h user hlookup
  exact ⟨user', hlookup', hsame ▸ hcopy⟩

/-! ### Steps -/

/-- A new user is nobody a call waits for. -/
theorem inv_addUser (h : Inv w) (apiEndpoint : List PyValue) (draws : IdDraws) :
    Inv (step uuid w (.addUser apiEndpoint draws)) := by
  have hbase := h.base
  have hconsistent := consistent_step uuid w.server (.addUser apiEndpoint draws) hbase.consistent
  have hpaired := fun hp => (paired_step_iff uuid w.server (.addUser apiEndpoint draws)
    hbase.consistent hp).mpr trivial
  -- the other records are as they were
  have hlookup : ∀ id, Registered w id → (w.server.addUser apiEndpoint draws).1.users.lookup id
      = w.server.users.lookup id := by
    rintro id ⟨user, hlookup, -⟩
    rw [Server.addUser]
    cases hadd : UserManager.addUser w.server.users apiEndpoint draws with
    | error e => rfl
    | ok new =>
      obtain ⟨newId, users'⟩ := new
      obtain ⟨-, hnew, endpoint, -, rfl⟩ := addUser_eq_ok.mp hadd
      have hne : id ≠ newId := fun heq => hnew (heq ▸ Finmap.mem_of_lookup_eq_some hlookup)
      exact Finmap.lookup_insert_of_ne _ hne
  refine ⟨⟨hconsistent, fun u p sid b hmem => ?_, fun id => Nat.lt_succ_of_lt (hbase.written_lt id),
    hbase.booked⟩, fun hno => ⟨hpaired (h.orderly hno).paired, (h.orderly hno).stale⟩⟩
  obtain ⟨hne, hreg, hlt, hidle⟩ := hbase.waiting u p sid b hmem
  refine ⟨hne, fun id hid => ?_, Nat.lt_succ_of_lt hlt, fun id hid hw user hu => ?_⟩
  · exact registered_of_lookup (w := w)
      (fun user hu => ⟨user, (hlookup id (hreg id hid)).trans hu, rfl⟩) (hreg id hid)
  · exact hidle id hid hw user ((hlookup id (hreg id hid)).symm.trans hu)

/-- A call that begins to wait found two idle users. -/
theorem inv_beginConnect (h : Inv w) (userId peerId : String) :
    Inv (step uuid w (.handlePeerConnection userId peerId)) := by
  show Inv { w.beginConnect uuid userId peerId with clock := w.clock + 1 }
  rw [World.beginConnect]
  rcases hrequest : w.server.requestConnect uuid userId peerId with ⟨server, e | sessionId⟩
  · have husers := (Server.requestConnect_cases hrequest).1
    exact h.of_sublist husers rfl rfl rfl fun t ht => ht
  · obtain ⟨husers, hcheck⟩ := Server.requestConnect_cases hrequest
    obtain ⟨hne, ⟨user, hu, huidle, hucopy⟩, peer, hp, hpidle, hpcopy⟩ :=
      Server.checkConnect_eq_ok (hcheck sessionId rfl)
    have hbase := h.base
    -- the records are those of the state before
    have hkeep : ∀ u p b, Waiting w u p b →
        Waiting { w with server := server, clock := w.clock + 1 } u p b := by
      rintro u p b ⟨hne, hreg, hlt, hidle⟩
      refine ⟨hne, fun id hid => ?_, Nat.lt_succ_of_lt hlt, fun id hid hw => ?_⟩
      · rw [Registered, husers]
        exact hreg id hid
      · rw [Idle, husers]
        exact hidle id hid hw
    have hnew : Waiting { w with server := server, clock := w.clock + 1 } userId peerId
        w.clock := by
      refine ⟨hne, ?_, Nat.lt_succ_self _, ?_⟩
      · rintro id (rfl | rfl)
        · rw [Registered, husers]
          exact ⟨user, hu, hucopy⟩
        · rw [Registered, husers]
          exact ⟨peer, hp, hpcopy⟩
      · rintro id (rfl | rfl) - user' hlookup
        · rw [husers, hu, Option.some_inj] at hlookup
          exact hlookup ▸ huidle
        · rw [husers, hp, Option.some_inj] at hlookup
          exact hlookup ▸ hpidle
    refine ⟨⟨husers ▸ hbase.consistent, fun u p sid b hmem => ?_,
      fun id => Nat.lt_succ_of_lt (hbase.written_lt id), hbase.booked⟩, fun hno =>
      ⟨husers ▸ (h.orderly hno).paired, fun u p sid b hmem => ?_⟩⟩
    · rcases List.mem_append.mp hmem with hold | hlast
      · have hw := hkeep u p b (hbase.waiting u p sid b hold)
        exact ⟨hw.ne, hw.registered, hw.begun_lt, hw.idle⟩
      · obtain ⟨rfl, rfl, -, rfl⟩ := Pending.connecting.inj (List.mem_singleton.mp hlast)
        exact ⟨hnew.ne, hnew.registered, hnew.begun_lt, hnew.idle⟩
    · rcases List.mem_append.mp hmem with hold | hlast
      · exact (h.orderly hno).stale u p sid b hold
      · -- nothing has been written since just now
        obtain ⟨rfl, rfl, -, rfl⟩ := Pending.connecting.inj (List.mem_singleton.mp hlast)
        intro id _ hle
        exact absurd (hbase.written_lt id) (not_lt.mpr hle)

/-- While nobody has been booked twice, an entry without a conflict has fresh records. -/
theorem written_lt_of_noConflict (hbase : Base w) (horderly : Orderly w)
    (hmem : .connecting userId peerId sessionId begun ∈ w.pending)
    (hno : ∀ b ∈ w.booked, ¬ b.Conflicts ⟨userId, peerId, begun, w.clock⟩) (id : String)
    (hid : id = userId ∨ id = peerId) : w.written id < begun := by
  by_contra hstale
  obtain ⟨b, hb, hinvolves, hended⟩ :=
    horderly.stale userId peerId sessionId begun hmem id hid (not_lt.mp hstale)
  obtain ⟨hbegun, hwritten⟩ := hbase.booked b hb
  have hlt := (hwritten id hinvolves).trans_lt (hbase.written_lt id)
  refine hno b hb ⟨?_, hbegun.trans hlt, hended⟩
  rcases hid with rfl | rfl
  · exact .inl hinvolves
  · exact .inr hinvolves

/-- A call whose records are fresh conflicts with no earlier one. -/
theorem noConflict_of_written_lt (hbase : Base w)
    (hfresh : w.written userId < begun ∧ w.written peerId < begun) {b : Booked}
    (hb : b ∈ w.booked) : ¬ b.Conflicts ⟨userId, peerId, begun, w.clock⟩ := by
  rintro ⟨hshared, -, hended⟩
  have hwritten := (hbase.booked b hb).2
  dsimp only at hshared hended
  rcases hshared with hinvolves | hinvolves
  · exact absurd (hwritten userId hinvolves) (by omega)
  · exact absurd (hwritten peerId hinvolves) (by omega)

/-- The second half of a call ends it, or it books both users. -/
theorem endConnect_cases (w : World) (sessionId : String) (begun : ℕ) (answer : ClientAnswer)
    (hw : Waiting w userId peerId begun) (rest : List Pending) :
    (answer ≠ .status Server.httpOk ∧
      { w with pending := rest }.endConnect userId peerId sessionId begun answer
        = { w with pending := rest }) ∨
    (answer = .status Server.httpOk ∧ ∃ server user peer,
      w.server.users.lookup userId = some user ∧ (∃ e, user.apiEndpoint.copy = .ok e) ∧
      w.server.users.lookup peerId = some peer ∧ (∃ e, peer.apiEndpoint.copy = .ok e) ∧
      server.users
        = (w.server.users.insert userId
            { user with state := .connected, peer := some peerId }).insert peerId
            { peer with state := .connected, peer := some userId } ∧
      { w with pending := rest }.endConnect userId peerId sessionId begun answer
        = { w with
            server := server
            pending := rest
            written := w.touch userId peerId
            booked := w.booked ++ [⟨userId, peerId, begun, w.clock⟩] }) := by
  rw [World.endConnect, Server.answerConnect]
  cases hcheck : Server.checkAnswer peerId (.ok answer) with
  | error e =>
    refine .inl ⟨fun hok => ?_, rfl⟩
    exact absurd (hcheck.symm.trans (Server.checkAnswer_eq_ok.mpr hok)) (by simp)
  | ok u =>
    obtain ⟨user, huser, hucopy⟩ := hw.registered userId (.inl rfl)
    obtain ⟨peer, hpeer, hpcopy⟩ := hw.registered peerId (.inr rfl)
    obtain ⟨husers, -, hok⟩ := w.server.finishConnect_eq hw.ne huser hpeer sessionId
    refine .inr ⟨Server.checkAnswer_eq_ok.mp hcheck, _, user, peer, huser, hucopy, hpeer, hpcopy,
      husers, ?_⟩
    dsimp only
    rcases hfinish : w.server.finishConnect userId peerId sessionId with ⟨server, e | r⟩
    · rw [hfinish] at hok
      exact absurd hok (by simp)
    · rfl

/-- Writing two records does not make another waiting call look fresh. -/
theorem waiting_touch {w' : World} {u p : String} {b : ℕ} (hw : Waiting w u p b)
    (hclock : w'.clock = w.clock + 1) (hwritten : w'.written = w.touch userId peerId)
    (hlookup : ∀ id user, w.server.users.lookup id = some user →
      ∃ user', w'.server.users.lookup id = some user' ∧ user'.apiEndpoint = user.apiEndpoint)
    (hother : ∀ id, id ≠ userId → id ≠ peerId →
      w'.server.users.lookup id = w.server.users.lookup id) : Waiting w' u p b := by
  obtain ⟨hne, hreg, hlt, hidle⟩ := hw
  refine ⟨hne, fun id hid => registered_of_lookup (hlookup id) (hreg id hid), by omega,
    fun id hid hfresh => ?_⟩
  rw [hwritten, touch_apply] at hfresh
  split_ifs at hfresh with hin
  · omega
  · rw [not_or] at hin
    rw [Idle, hother id hin.1 hin.2]
    exact hidle id hid hfresh

theorem booked_touch (hbase : Base w) {b : Booked} (hb : b ∈ w.booked) (userId peerId : String) :
    b.begun < b.ended ∧ ∀ id, b.involves id → b.ended ≤ w.touch userId peerId id := by
  obtain ⟨hbegun, hwritten⟩ := hbase.booked b hb
  refine ⟨hbegun, fun id hid => ?_⟩
  rw [touch_apply]
  split_ifs
  · exact ((hwritten id hid).trans_lt (hbase.written_lt id)).le
  · exact hwritten id hid

theorem touch_lt (hbase : Base w) (userId peerId id : String) :
    w.touch userId peerId id < w.clock + 1 := by
  rw [touch_apply]
  split_ifs
  · exact Nat.lt_succ_self _
  · exact Nat.lt_succ_of_lt (hbase.written_lt id)

/-- The records of two connected users have their old endpoints. -/
theorem endpoint_link {users : UserStore} {user peer : User}
    (huser : users.lookup userId = some user) (hpeer : users.lookup peerId = some peer)
    (id : String) (stored : User) (hstored : users.lookup id = some stored) :
    ∃ user', ((users.insert userId { user with state := .connected, peer := some peerId }).insert
        peerId { peer with state := .connected, peer := some userId }).lookup id = some user' ∧
      user'.apiEndpoint = stored.apiEndpoint := by
  by_cases hp : id = peerId
  · subst hp
    obtain rfl : peer = stored := Option.some_inj.mp (hpeer.symm.trans hstored)
    exact ⟨_, Finmap.lookup_insert _, rfl⟩
  · rw [Finmap.lookup_insert_of_ne _ hp]
    by_cases hu : id = userId
    · subst hu
      obtain rfl : user = stored := Option.some_inj.mp (huser.symm.trans hstored)
      exact ⟨_, Finmap.lookup_insert _, rfl⟩
    · exact ⟨stored, (Finmap.lookup_insert_of_ne _ hu).trans hstored, rfl⟩

/-- A call that succeeds books two users. -/
theorem inv_book (h : Inv w) (hw : Waiting w userId peerId begun)
    (hmem : .connecting userId peerId sessionId begun ∈ w.pending) {rest : List Pending}
    (hrest : ∀ t ∈ rest, t ∈ w.pending) {server : Server} {user peer : User}
    (huser : w.server.users.lookup userId = some user)
    (hucopy : ∃ e, user.apiEndpoint.copy = .ok e)
    (hpeer : w.server.users.lookup peerId = some peer)
    (hpcopy : ∃ e, peer.apiEndpoint.copy = .ok e)
    (husers : server.users
      = (w.server.users.insert userId
          { user with state := .connected, peer := some peerId }).insert peerId
          { peer with state := .connected, peer := some userId }) :
    Inv { w with
      server := server
      pending := rest
      clock := w.clock + 1
      written := w.touch userId peerId
      booked := w.booked ++ [⟨userId, peerId, begun, w.clock⟩] } := by
  have hbase := h.base
  have hother : ∀ id, id ≠ userId → id ≠ peerId →
      server.users.lookup id = w.server.users.lookup id := fun id hu hp => by
    rw [husers, Finmap.lookup_insert_of_ne _ hp, Finmap.lookup_insert_of_ne _ hu]
  have hconsistent : Consistent server.users := by
    rw [husers]
    exact consistent_link hbase.consistent hw.ne hucopy hpcopy
  refine ⟨⟨hconsistent, fun u p sid b hb => ?_, touch_lt hbase userId peerId, fun b hb => ?_⟩,
    fun hno => ?_⟩
  · refine waiting_touch (hbase.waiting u p sid b (hrest _ hb)) rfl rfl ?_ hother
    rw [husers]
    exact endpoint_link huser hpeer
  · rcases List.mem_append.mp hb with hold | hnew
    · exact booked_touch hbase hold userId peerId
    · obtain rfl := List.mem_singleton.mp hnew
      refine ⟨hw.begun_lt, fun id hid => ?_⟩
      have hin : id = userId ∨ id = peerId := hid
      show w.clock ≤ w.touch userId peerId id
      rw [touch_apply, if_pos hin]
  · obtain ⟨hold, -, hnew⟩ := List.pairwise_append.mp hno
    have horderly := h.orderly hold
    have hfresh := written_lt_of_noConflict hbase horderly hmem
      fun b hb => hnew b hb _ (List.mem_singleton_self _)
    refine ⟨?_, fun u p sid b hb id hid hle => ?_⟩
    · -- both records are fresh, so both users are still single
      have hlink : Pairing.Rearranged (partner w.server.users) (partner server.users) := by
        rw [husers, partner_link]
        exact .link userId peerId hw.ne
          (partner_of_idle huser (hw.idle userId (.inl rfl) (hfresh userId (.inl rfl)) user huser))
          (partner_of_idle hpeer (hw.idle peerId (.inr rfl) (hfresh peerId (.inr rfl)) peer hpeer))
      exact (paired_iff hconsistent).mpr
        (Pairing.isPairing_of_rearranged ((paired_iff hbase.consistent).mp horderly.paired) hlink)
    · dsimp only at hle ⊢
      rw [touch_apply] at hle
      split_ifs at hle with hin
      · exact ⟨_, List.mem_append_right _ (List.mem_singleton_self _), hin,
          (hbase.waiting u p sid b (hrest _ hb)).begun_lt⟩
      · obtain ⟨b', hb', hinv⟩ := horderly.stale u p sid b (hrest _ hb) id hid hle
        exact ⟨b', List.mem_append_left _ hb', hinv⟩

/-- A disconnect does nothing, or it resets the user and its recorded peer. -/
theorem beginDisconnect_cases (w : World) (userId : String) :
    w.beginDisconnect userId = w ∨
    ∃ user peerId server pending, w.server.users.lookup userId = some user ∧
      user.peer = some peerId ∧
      server.users = resetUser (resetUser w.server.users userId) peerId ∧
      (∀ t ∈ pending, t ∈ w.pending ∨ t = .notifying userId peerId) ∧
      w.beginDisconnect userId
        = { w with server := server, pending := pending, written := w.touch userId peerId } := by
  rw [World.beginDisconnect]
  cases hfind : w.server.findUser userId with
  | error e => exact .inl rfl
  | ok user =>
    cases hp : user.peer with
    | none => exact .inl (by simp only [hp])
    | some peerId =>
      right
      obtain ⟨stored, hlookup, hpeer, husers⟩ :=
        Server.disconnect_resets hfind hp (.status Server.httpOk)
      simp only [hp]
      split
      · exact ⟨stored, peerId, _, w.pending, hlookup, hpeer, husers, fun t ht => .inl ht, rfl⟩
      · exact ⟨stored, peerId, _, _, hlookup, hpeer, husers,
          fun t ht => (List.mem_append.mp ht).imp id List.mem_singleton.mp, rfl⟩

/-- A reset ends the call of two users who are connected to each other. -/
theorem inv_beginDisconnect (h : Inv w) (userId : String) :
    Inv (step uuid w (.disconnectPeer userId)) := by
  show Inv { w.beginDisconnect userId with clock := w.clock + 1 }
  rcases beginDisconnect_cases w userId with hsame |
    ⟨user, peerId, server, pending, hlookup, hpeer, husers, hpending, heq⟩
  · rw [hsame]
    exact h.of_sublist rfl rfl rfl rfl fun t ht => ht
  rw [heq]
  have hbase := h.base
  -- whoever waits in a call was there before
  have hold : ∀ u p sid b, Pending.connecting u p sid b ∈ pending →
      Pending.connecting u p sid b ∈ w.pending := fun u p sid b hb =>
    (hpending _ hb).resolve_right (by simp)
  have hother : ∀ id, id ≠ userId → id ≠ peerId →
      server.users.lookup id = w.server.users.lookup id := fun id hu hp => by
    rw [husers, lookup_resetUser, if_neg hp, lookup_resetUser, if_neg hu]
  have hendpoint : ∀ id stored, w.server.users.lookup id = some stored →
      ∃ user', server.users.lookup id = some user' ∧
        user'.apiEndpoint = stored.apiEndpoint := by
    intro id stored hstored
    rw [husers, lookup_resetUser, lookup_resetUser, hstored]
    split_ifs <;> exact ⟨_, rfl, rfl⟩
  have hconsistent : Consistent server.users := by
    rw [husers]
    exact consistent_resetUser (consistent_resetUser hbase.consistent userId) peerId
  refine ⟨⟨hconsistent, fun u p sid b hb => ?_, touch_lt hbase userId peerId,
    fun b hb => booked_touch hbase hb userId peerId⟩, fun hno => ?_⟩
  · exact waiting_touch (hbase.waiting u p sid b (hold u p sid b hb)) rfl rfl hendpoint hother
  · have horderly := h.orderly hno
    have hconnected : user.state = .connected := by
      rcases hbase.consistent.state_peer userId user hlookup with ⟨-, hnone⟩ | ⟨hstate, -⟩
      · exact absurd (hnone.symm.trans hpeer) (by simp)
      · exact hstate
    have hpartner : partner w.server.users userId = some peerId :=
      partner_eq_some.mpr ⟨user, hlookup, hconnected, hpeer⟩
    refine ⟨?_, fun u p sid b hb id hid hle => ?_⟩
    · have hunlink : Pairing.Rearranged (partner w.server.users) (partner server.users) := by
        rw [husers, partner_resetUser, partner_resetUser]
        exact .unlink userId peerId hpartner
      exact (paired_iff hconsistent).mpr
        (Pairing.isPairing_of_rearranged ((paired_iff hbase.consistent).mp horderly.paired)
          hunlink)
    · dsimp only at hle ⊢
      rw [touch_apply] at hle
      split_ifs at hle with hin
      · -- the record of a connected user is not as the waiting call found it
        refine horderly.stale u p sid b (hold u p sid b hb) id hid ?_
        by_contra hfresh
        have hidle := (hbase.waiting u p sid b (hold u p sid b hb)).idle id hid (not_le.mp hfresh)
        rcases hin with rfl | rfl
        · exact absurd (hconnected.symm.trans (hidle user hlookup)) (by decide)
        · obtain ⟨peer, hrecord, hstate, -⟩ :=
            horderly.paired userId user id hlookup hconnected hpeer
          exact absurd (hstate.symm.trans (hidle peer hrecord)) (by decide)
      · exact horderly.stale u p sid b (hold u p sid b hb) id hid hle

theorem inv_answer (h : Inv w) (i : ℕ) (answer : ClientAnswer) :
    Inv (step uuid w (.answer i answer)) := by
  have hrest : ∀ t ∈ w.pending.eraseIdx i, t ∈ w.pending := fun t => List.mem_of_mem_eraseIdx
  rw [step, act]
  cases hget : w.pending[i]? with
  | none => exact h.of_sublist rfl rfl rfl rfl fun t ht => ht
  | some t =>
    cases t with
    | notifying u p => exact h.of_sublist rfl rfl rfl rfl hrest
    | connecting u p sid begun =>
      have hmem := List.mem_of_getElem? hget
      have hw := h.base.waiting u p sid begun hmem
      dsimp only
      rcases endConnect_cases w sid begun answer hw (w.pending.eraseIdx i) with ⟨-, heq⟩ |
        ⟨-, server, user, peer, huser, hucopy, hpeer, hpcopy, husers, heq⟩
      · rw [heq]
        exact h.of_sublist rfl rfl rfl rfl hrest
      · rw [heq]
        exact inv_book h hw hmem hrest huser hucopy hpeer hpcopy husers

theorem inv_step (uuid : UuidSource) (w : World) (a : Action) (h : Inv w) :
    Inv (step uuid w a) := by
  cases a with
  | addUser apiEndpoint draws => exact inv_addUser h apiEndpoint draws
  | handlePeerConnection userId peerId => exact inv_beginConnect h userId peerId
  | disconnectPeer userId => exact inv_beginDisconnect h userId
  | answer i answer => exact inv_answer h i answer

/-! ### Runs -/

/-- Only an accepted call adds to the record of successful calls. -/
theorem booked_step (uuid : UuidSource) {a : Action} (ha : ∀ i answer, a ≠ .answer i answer) :
    (step uuid w a).booked = w.booked := by
  cases a with
  | addUser apiEndpoint draws => rfl
  | handlePeerConnection u p =>
    rw [step, act, World.beginConnect]
    rcases w.server.requestConnect uuid u p with ⟨server, e | sid⟩ <;> rfl
  | disconnectPeer u =>
    rw [step, act]
    rcases beginDisconnect_cases w u with heq | ⟨_, _, _, _, -, -, -, -, heq⟩ <;> rw [heq]
  | answer i answer => exact absurd rfl (ha i answer)

/-- The step that books somebody twice is the one that is disturbed. -/
theorem noDoubleBooking_step_iff (uuid : UuidSource) (w : World) (a : Action) (h : Inv w)
    (hno : NoDoubleBooking w) : NoDoubleBooking (step uuid w a) ↔ Undisturbed w a := by
  by_cases hanswer : ∃ i answer, a = .answer i answer
  swap
  · -- no other step books anybody
    have ha : ∀ i answer, a ≠ .answer i answer := fun i answer heq => hanswer ⟨i, answer, heq⟩
    rw [NoDoubleBooking, booked_step uuid ha]
    refine iff_of_true hno ?_
    cases a with
    | answer i answer => exact absurd rfl (ha i answer)
    | _ => trivial
  obtain ⟨i, answer, rfl⟩ := hanswer
  rw [step, act]
  cases hget : w.pending[i]? with
  | none =>
    refine iff_of_true hno ?_
    cases answer <;> simp only [Undisturbed, hget]
  | some t =>
    cases t with
    | notifying u p =>
      refine iff_of_true hno ?_
      cases answer <;> simp only [Undisturbed, hget]
    | connecting u p sid begun =>
      have hmem := List.mem_of_getElem? hget
      have hw := h.base.waiting u p sid begun hmem
      dsimp only
      rcases endConnect_cases w sid begun answer hw (w.pending.eraseIdx i) with ⟨hrefused, heq⟩ |
        ⟨rfl, server, user, peer, -, -, -, -, -, heq⟩
      · rw [heq]
        refine iff_of_true hno ?_
        cases answer with
        | unreachable => trivial
        | raises e => trivial
        | status code =>
          simp only [Undisturbed, hget]
          exact fun hcode => absurd (by rw [hcode]) hrefused
      · rw [heq]
        simp only [Undisturbed, hget, forall_const]
        constructor
        · intro hboth
          have hnew := (List.pairwise_append.mp hboth).2.2
          have hfresh := written_lt_of_noConflict h.base (h.orderly hno) hmem
            fun b hb => hnew b hb _ (List.mem_singleton_self _)
          exact ⟨hfresh u (.inl rfl), hfresh p (.inr rfl)⟩
        · intro hfresh
          refine List.pairwise_append.mpr ⟨hno, List.pairwise_singleton _ _, fun b hb b' hb' => ?_⟩
          obtain rfl := List.mem_singleton.mp hb'
          exact noConflict_of_written_lt h.base hfresh hb

/-- A server that has just started. -/
def fresh (apiEndpoint : Endpoint) (socketApi : Option SocketAPI) : World where
  server := { apiEndpoint := apiEndpoint, socketApi := socketApi }

theorem inv_fresh (apiEndpoint : Endpoint) (socketApi : Option SocketAPI) :
    Inv (fresh apiEndpoint socketApi) :=
  ⟨⟨consistent_empty, fun _ _ _ _ h => absurd h List.not_mem_nil, fun _ => Nat.zero_lt_one,
      fun _ h => absurd h List.not_mem_nil⟩,
    fun _ => ⟨fun _ _ _ h => absurd h (by simp [fresh]),
      fun _ _ _ _ h => absurd h List.not_mem_nil⟩⟩

/-- Under the invariant safety is a matter of the successful calls alone. -/
theorem safe_iff (h : Inv w) : Safe w ↔ NoDoubleBooking w :=
  ⟨fun hsafe => hsafe.1, fun hno => ⟨hno, fun _ => (h.orderly hno).paired⟩⟩

/-- **When nobody is booked twice.**  In any interleaving of calls, disconnects and answers on
a server that starts empty, no two successful calls that share a user overlap and the
connected users are paired between requests, if and only if every accepted call finds both
records unwritten since it began. -/
theorem no_double_booking_iff (uuid : UuidSource) (apiEndpoint : Endpoint)
    (socketApi : Option SocketAPI) (actions : List Action) :
    Throughout (step uuid) Safe (fresh apiEndpoint socketApi) actions ↔
      Along (step uuid) Undisturbed (fresh apiEndpoint socketApi) actions := by
  have hinit := inv_fresh apiEndpoint socketApi
  refine throughout_iff_along (I := Inv) (inv_step uuid) (fun w a h hsafe => ?_) hinit
    ((safe_iff hinit).mpr List.Pairwise.nil) actions
  rw [safe_iff (inv_step uuid w a h)]
  exact noDoubleBooking_step_iff uuid w a h hsafe.1

end Booking
