/-
Whole runs of the relay (`server/socket_api.py`): sessions are created, sockets connect,
send events and disconnect, in any order.

`Relay` keeps a ledger beside the two tables of `SocketAPI`: which sids Socket.IO has given
out, which of them `_on_connect` accepted and under what, and which are closed again.  No
sid is given out twice, so the ledger never forgets.

* `consistent_step` — the table `sids`, the rooms of Socket.IO and the ledger agree;
* `relay_isolated` — whom an event reaches;
* `room_id_when_complete` — when a room id is sent, and that nobody misses it;
* `authentic_iff_honest` — under which name a payload is relayed.
-/
import QuantumVideoChat.CallPairing

/-- What the handlers do with the values of an event. -/
structure JsonValues (J : Type*) where
  str : String → J
  /-- `data.get`, for the values that have it -/
  fields : J → Option (String → Option J)

/-- An event of a socket, with its positional arguments. -/
inductive SocketEvent (J : Type*)
  | message (args : List J)
  | frame (args : List J)
  | audioFrame (args : List J)

namespace SocketAPI

variable {J : Type*} (json : JsonValues J)

/-- The handler of an event.  A wrong number of arguments, or data without `get`, raises
before anything is sent. -/
def handle (api : SocketAPI) (sid : String) : SocketEvent J → List (Emission J)
  | .message [userId, msg] => api.onMessage sid userId msg
  | .frame [data] =>
    match json.fields data with
    | some get => api.onFrame sid (get "frame") (get "width") (get "height")
    | none => []
  | .audioFrame [data] =>
    match json.fields data with
    | some get => api.onAudioFrame sid (get "audio") (get "sample_rate")
    | none => []
  | _ => []

/-- The sockets reached by some emissions. -/
def reachedBy (api : SocketAPI) (emissions : List (Emission J)) : Finset String :=
  emissions.foldr (fun e reached => api.receivers e ∪ reached) ∅

theorem mem_reachedBy {api : SocketAPI} {emissions : List (Emission J)} {sid : String} :
    sid ∈ api.reachedBy emissions ↔ ∃ e ∈ emissions, sid ∈ api.receivers e := by
  induction emissions with
  | nil => simp [reachedBy]
  | cons e emissions ih =>
    rw [reachedBy, List.foldr_cons, Finset.mem_union, ← reachedBy, ih]
    simp

/-- `_on_connect` rejects the socket, or binds it to the session and user it presented. -/
theorem onConnect_cases (api : SocketAPI) (sid : String) (auth : Option SocketAuth)
    (roomId : String) :
    api.onConnect (J := J) sid auth roomId = (api, false, []) ∨
    ∃ sessionId userId expectedUsers, auth = some ⟨some userId, some sessionId⟩ ∧
      api.sessions.lookup sessionId = some expectedUsers ∧ userId ∈ expectedUsers ∧
      api.onConnect (J := J) sid auth roomId
        = (api.bind sid (sessionId, userId), true,
          if (api.bind sid (sessionId, userId)).acquiredAll sessionId expectedUsers then
            [{ payload := .roomId roomId, room := sessionId }]
          else []) := by
  cases hadmit : api.admitted auth with
  | none => exact .inl (by rw [onConnect, hadmit])
  | some info =>
    obtain ⟨sessionId, userId⟩ := info
    obtain ⟨hauth, -, expectedUsers, hlookup, hmem⟩ := admitted_eq_some.mp hadmit
    refine .inr ⟨sessionId, userId, expectedUsers, hauth, hlookup, hmem, ?_⟩
    rw [onConnect, hadmit]
    simp only [hlookup, Option.getD_some]

/-- Without a binding every handler is silent. -/
theorem handle_of_unbound {api : SocketAPI} {sid : String} (h : api.sids.lookup sid = none)
    (event : SocketEvent J) : api.handle json sid event = [] := by
  unfold handle
  split
  · rw [onMessage, h]
  · split
    · rw [onFrame, h]
    · rfl
  · split
    · rw [onAudioFrame, h]
    · rfl
  · rfl

end SocketAPI

/-- `relayed` lists what was relayed and for which socket, `reached` the sockets that were
in the room when some room id was sent there. -/
structure Relay (J : Type*) where
  api : SocketAPI := {}
  opened : Finset String := ∅
  accepted : Finmap fun _ : String => String × String := ∅
  closed : Finset String := ∅
  reached : Finset String := ∅
  relayed : List (String × Emission J) := []

namespace Relay

open SocketAPI

variable {J : Type*} (json : JsonValues J) (uuid : UuidSource)

inductive Action (J : Type*)
  | createSession (users : List String)
  | connect (sid : String) (auth : Option SocketAuth) (roomId : String)
  | event (sid : String) (event : SocketEvent J)
  | disconnect (sid : String)

/-- The session and user that a socket presents. -/
def presented : Option SocketAuth → Option (String × String)
  | some ⟨some userId, some sessionId⟩ => some (sessionId, userId)
  | _ => none

/-- What a step sends out. -/
def emits (r : Relay J) : Action J → List (Emission J)
  | .connect sid auth roomId =>
    if sid ∈ r.opened then [] else (r.api.onConnect sid auth roomId).2.2
  | .event sid event => r.api.handle json sid event
  | _ => []

def step (r : Relay J) : Action J → Relay J
  | .createSession users => { r with api := (r.api.createSession uuid users).1 }
  | .connect sid auth roomId =>
    -- a sid that was given out before does not connect
    if sid ∈ r.opened then r
    else
      let (api, answer, emissions) := r.api.onConnect sid auth roomId
      { r with
        api := api
        opened := insert sid r.opened
        accepted := match answer, presented auth with
          | true, some info => r.accepted.insert sid info
          | _, _ => r.accepted
        reached := r.reached ∪ api.reachedBy (J := J) emissions }
  | .event sid event =>
    { r with relayed := r.relayed ++ (r.api.handle json sid event).map fun e => (sid, e) }
  | .disconnect sid =>
    if sid ∈ r.opened then
      { r with api := r.api.onDisconnect sid, closed := insert sid r.closed }
    else r

/-- The relay once a fresh socket is bound to a session and user. -/
def bindSocket (r : Relay J) (sid : String) (info : String × String) (reached : Finset String) :
    Relay J :=
  { r with
    api := r.api.bind sid info
    opened := insert sid r.opened
    accepted := r.accepted.insert sid info
    reached := reached }

/-- The relay once a socket has disconnected. -/
def closeSocket (r : Relay J) (sid : String) : Relay J :=
  { r with api := r.api.onDisconnect sid, closed := insert sid r.closed }

/-- Socket `sid` was accepted into the session for the user and has not disconnected. -/
def LiveIn (r : Relay J) (sid sessionId userId : String) : Prop :=
  r.accepted.lookup sid = some (sessionId, userId) ∧ sid ∉ r.closed

/-- Every expected user of the session has a live accepted socket. -/
def Complete (r : Relay J) (sessionId : String) : Prop :=
  ∃ expectedUsers, r.api.sessions.lookup sessionId = some expectedUsers ∧
    ∀ userId ∈ expectedUsers, ∃ sid, r.LiveIn sid sessionId userId

/-- The tables of `SocketAPI` say what the ledger says. -/
structure Consistent (r : Relay J) : Prop where
  bound : ∀ sid info, r.api.sids.lookup sid = some info ↔
    r.accepted.lookup sid = some info ∧ sid ∉ r.closed
  joined : ∀ room sid, (room, sid) ∈ r.api.rooms ↔
    ∃ userId, r.api.sids.lookup sid = some (room, userId)
  opened_accepted : ∀ sid info, r.accepted.lookup sid = some info → sid ∈ r.opened
  opened_closed : r.closed ⊆ r.opened
  inside : ∀ sid info, r.accepted.lookup sid = some info → info.1 ∈ r.api.sessions
  known : r.api.SessionsKnown uuid
  senders : ∀ sid e, (sid, e) ∈ r.relayed → ∃ info, r.accepted.lookup sid = some info

variable {json uuid} {r : Relay J}

namespace Consistent

theorem bound_iff (h : r.Consistent uuid) {sid sessionId userId : String} :
    r.api.sids.lookup sid = some (sessionId, userId) ↔ r.LiveIn sid sessionId userId :=
  h.bound sid (sessionId, userId)

theorem mem_rooms (h : r.Consistent uuid) {sid sessionId : String} :
    (sessionId, sid) ∈ r.api.rooms ↔ ∃ userId, r.LiveIn sid sessionId userId := by
  rw [h.joined]
  exact exists_congr fun _ => h.bound_iff

theorem acquiredAll_iff (h : r.Consistent uuid) (sessionId : String)
    (expectedUsers : Finset String) :
    r.api.acquiredAll sessionId expectedUsers ↔
      ∀ userId ∈ expectedUsers, ∃ sid, r.LiveIn sid sessionId userId := by
  refine forall₂_congr fun userId _ => ?_
  constructor
  · rintro ⟨sid, -, hlookup⟩
    exact ⟨sid, h.bound_iff.mp hlookup⟩
  · rintro ⟨sid, hlive⟩
    have hlookup := h.bound_iff.mpr hlive
    exact ⟨sid, Finmap.mem_keys.mpr (Finmap.mem_of_lookup_eq_some hlookup), hlookup⟩

/-- A fresh sid is in no table and in no room. -/
theorem fresh (h : r.Consistent uuid) {sid : String} (hsid : sid ∉ r.opened) :
    r.accepted.lookup sid = none ∧ sid ∉ r.closed ∧ r.api.sids.lookup sid = none ∧
      ∀ room, (room, sid) ∉ r.api.rooms := by
  have haccepted : r.accepted.lookup sid = none := by
    by_contra hsome
    obtain ⟨info, hinfo⟩ := Option.ne_none_iff_exists'.mp hsome
    exact hsid (h.opened_accepted sid info hinfo)
  have hsids : r.api.sids.lookup sid = none := by
    by_contra hsome
    obtain ⟨info, hinfo⟩ := Option.ne_none_iff_exists'.mp hsome
    have hlookup := ((h.bound sid info).mp hinfo).1
    rw [haccepted] at hlookup
    exact absurd hlookup (by simp)
  refine ⟨haccepted, fun hmem => hsid (h.opened_closed hmem), hsids, fun room hmem => ?_⟩
  obtain ⟨userId, hlookup⟩ := (h.joined room sid).mp hmem
  rw [hsids] at hlookup
  exact absurd hlookup (by simp)

theorem createSession (h : r.Consistent uuid) (users : List String) :
    ({ r with api := (r.api.createSession uuid users).1 } : Relay J).Consistent uuid where
  bound := h.bound
  joined := h.joined
  opened_accepted := h.opened_accepted
  opened_closed := h.opened_closed
  inside := fun sid info hinfo => Finmap.mem_insert.mpr (.inr (h.inside sid info hinfo))
  known := sessionsKnown_createSession h.known users
  senders := h.senders

/-- A sid that was given out but rejected is in no table. -/
theorem reject (h : r.Consistent uuid) (sid : String) :
    ({ r with opened := insert sid r.opened } : Relay J).Consistent uuid where
  bound := h.bound
  joined := h.joined
  opened_accepted := fun sid' info hinfo =>
    Finset.mem_insert_of_mem (h.opened_accepted sid' info hinfo)
  opened_closed := fun _ hmem => Finset.mem_insert_of_mem (h.opened_closed hmem)
  inside := h.inside
  known := h.known
  senders := h.senders

theorem accept (h : r.Consistent uuid) {sid sessionId userId : String} (hsid : sid ∉ r.opened)
    (hsession : sessionId ∈ r.api.sessions) (reached : Finset String) :
    (r.bindSocket sid (sessionId, userId) reached).Consistent uuid := by
  obtain ⟨haccepted, hclosed, -, hrooms⟩ := h.fresh hsid
  -- the new socket has its new entries, the others keep theirs
  have hlookup : ∀ {table : Finmap fun _ : String => String × String} {sid' info},
      (table.insert sid (sessionId, userId)).lookup sid' = some info ↔
        (sid' = sid ∧ info = (sessionId, userId)) ∨
        (sid' ≠ sid ∧ table.lookup sid' = some info) := by
    intro table sid' info
    by_cases heq : sid' = sid
    · rw [heq, Finmap.lookup_insert]
      simp [eq_comm]
    · rw [Finmap.lookup_insert_of_ne _ heq]
      simp [heq]
  refine ⟨fun sid' info => ?_, fun room sid' => ?_, fun sid' info hinfo => ?_,
    fun _ hmem => Finset.mem_insert_of_mem (h.opened_closed hmem), fun sid' info hinfo => ?_,
    h.known, fun sid' e hmem => ?_⟩
  · simp only [bindSocket, SocketAPI.bind, hlookup, h.bound]
    constructor
    · rintro (⟨rfl, hinfo⟩ | ⟨hne, hold, hlive⟩)
      · exact ⟨.inl ⟨rfl, hinfo⟩, hclosed⟩
      · exact ⟨.inr ⟨hne, hold⟩, hlive⟩
    · rintro ⟨hnew | ⟨hne, hold⟩, hlive⟩
      · exact .inl hnew
      · exact .inr ⟨hne, hold, hlive⟩
  · simp only [bindSocket, SocketAPI.bind, hlookup, Finset.mem_insert, Prod.mk.injEq, h.joined]
    constructor
    · rintro (⟨rfl, rfl⟩ | ⟨userId', hold⟩)
      · exact ⟨userId, .inl ⟨rfl, rfl, rfl⟩⟩
      · refine ⟨userId', .inr ⟨fun heq => ?_, hold⟩⟩
        exact hrooms room ((h.joined room sid).mpr ⟨userId', heq ▸ hold⟩)
    · rintro ⟨userId', ⟨rfl, rfl, -⟩ | ⟨-, hold⟩⟩
      · exact .inl ⟨rfl, rfl⟩
      · exact .inr ⟨userId', hold⟩
  · rcases hlookup.mp hinfo with ⟨rfl, -⟩ | ⟨-, hold⟩
    · exact Finset.mem_insert_self ..
    · exact Finset.mem_insert_of_mem (h.opened_accepted sid' info hold)
  · rcases hlookup.mp hinfo with ⟨-, rfl⟩ | ⟨-, hold⟩
    · exact hsession
    · exact h.inside sid' info hold
  · obtain ⟨info, hinfo⟩ := h.senders sid' e hmem
    by_cases heq : sid' = sid
    · rw [heq, haccepted] at hinfo
      exact absurd hinfo (by simp)
    · exact ⟨info, hlookup.mpr (.inr ⟨heq, hinfo⟩)⟩

theorem disconnect (h : r.Consistent uuid) {sid : String} (hsid : sid ∈ r.opened) :
    (r.closeSocket sid).Consistent uuid := by
  have hlookup : ∀ {sid' info}, (r.api.sids.erase sid).lookup sid' = some info ↔
      sid' ≠ sid ∧ r.api.sids.lookup sid' = some info := by
    intro sid' info
    by_cases heq : sid' = sid
    · rw [heq, Finmap.lookup_erase]
      simp
    · rw [Finmap.lookup_erase_ne heq]
      simp [heq]
  refine ⟨fun sid' info => ?_, fun room sid' => ?_, h.opened_accepted, ?_, h.inside, h.known,
    h.senders⟩
  · simp only [closeSocket, onDisconnect, hlookup, h.bound, Finset.mem_insert, not_or]
    constructor
    · rintro ⟨hne, hold, hlive⟩
      exact ⟨hold, hne, hlive⟩
    · rintro ⟨hold, hne, hlive⟩
      exact ⟨hne, hold, hlive⟩
  · simp only [closeSocket, onDisconnect, hlookup, Finset.mem_filter, h.joined]
    constructor
    · rintro ⟨⟨userId, hold⟩, hne⟩
      exact ⟨userId, hne, hold⟩
    · rintro ⟨userId, hne, hold⟩
      exact ⟨⟨userId, hold⟩, hne⟩
  · intro sid' hmem
    rcases Finset.mem_insert.mp hmem with rfl | hmem
    · exact hsid
    · exact h.opened_closed hmem

end Consistent

/-- What a step sends and what it does to the ledger. -/
theorem step_cases (json : JsonValues J) (uuid : UuidSource) (r : Relay J) (a : Action J) :
    (r.emits json a = [] ∧
      ((∃ users, r.step json uuid a = { r with api := (r.api.createSession uuid users).1 }) ∨
        r.step json uuid a = r ∨
        (∃ sid, sid ∉ r.opened ∧
          r.step json uuid a = { r with opened := insert sid r.opened }) ∨
        ∃ sid ∈ r.opened, r.step json uuid a = r.closeSocket sid)) ∨
    (∃ sid sessionId userId expectedUsers roomId, sid ∉ r.opened ∧
      r.api.sessions.lookup sessionId = some expectedUsers ∧ userId ∈ expectedUsers ∧
      r.emits json a =
        (if (r.api.bind sid (sessionId, userId)).acquiredAll sessionId expectedUsers then
          [{ payload := .roomId roomId, room := sessionId }] else []) ∧
      r.step json uuid a = r.bindSocket sid (sessionId, userId)
        (r.reached ∪ (r.api.bind sid (sessionId, userId)).reachedBy (r.emits json a))) ∨
    ∃ sid event, a = .event sid event ∧ r.emits json a = r.api.handle json sid event ∧
      r.step json uuid a = { r with
        relayed := r.relayed ++ (r.api.handle json sid event).map fun e => (sid, e) } := by
  cases a with
  | createSession users => exact .inl ⟨rfl, .inl ⟨users, rfl⟩⟩
  | connect sid auth roomId =>
    by_cases hsid : sid ∈ r.opened
    · exact .inl ⟨if_pos hsid, .inr (.inl (if_pos hsid))⟩
    · simp only [step, emits, if_neg hsid]
      rcases r.api.onConnect_cases (J := J) sid auth roomId with hno |
        ⟨sessionId, userId, expectedUsers, rfl, hlookup, hmem, hyes⟩
      · refine .inl ⟨by rw [hno], .inr (.inr (.inl ⟨sid, hsid, ?_⟩))⟩
        rw [hno]
        simp [reachedBy]
      · refine .inr (.inl ⟨sid, sessionId, userId, expectedUsers, roomId, hsid, hlookup, hmem,
          ?_, ?_⟩)
        · rw [hyes]
        · rw [hyes]
          rfl
  | event sid event => exact .inr (.inr ⟨sid, event, rfl, rfl, rfl⟩)
  | disconnect sid =>
    by_cases hsid : sid ∈ r.opened
    · exact .inl ⟨rfl, .inr (.inr (.inr ⟨sid, hsid, if_pos hsid⟩))⟩
    · exact .inl ⟨rfl, .inr (.inl (if_neg hsid))⟩

/-- The tables and the ledger agree after every step. -/
theorem consistent_step (json : JsonValues J) (r : Relay J) (a : Action J)
    (h : r.Consistent uuid) :
    (r.step json uuid a).Consistent uuid := by
  rcases r.step_cases json uuid a with
    ⟨-, ⟨users, hstep⟩ | hstep | ⟨sid, -, hstep⟩ | ⟨sid, hsid, hstep⟩⟩ |
    ⟨sid, sessionId, userId, expectedUsers, roomId, hsid, hlookup, -, -, hstep⟩ |
    ⟨sid, event, -, -, hstep⟩ <;> rw [hstep]
  · exact h.createSession users
  · exact h
  · exact h.reject sid
  · exact h.disconnect hsid
  · exact h.accept hsid (Finmap.mem_of_lookup_eq_some hlookup) _
  · refine ⟨h.bound, h.joined, h.opened_accepted, h.opened_closed, h.inside, h.known,
      fun sid' e hmem => ?_⟩
    rcases List.mem_append.mp hmem with hold | hnew
    · exact h.senders sid' e hold
    · -- only a bound socket is relayed
      obtain ⟨e', he', heq⟩ := List.mem_map.mp hnew
      obtain ⟨rfl, rfl⟩ := Prod.mk.inj heq
      cases hbound : r.api.sids.lookup sid with
      | none =>
        rw [handle_of_unbound json hbound] at he'
        exact absurd he' List.not_mem_nil
      | some info => exact ⟨info, ((h.bound sid info).mp hbound).1⟩

theorem consistent_empty : ({} : Relay J).Consistent uuid where
  bound := fun sid info => by simp
  joined := fun room sid => by simp
  opened_accepted := fun sid info h => by simp at h
  opened_closed := fun _ h => absurd h (Finset.notMem_empty _)
  inside := fun sid info h => by simp at h
  known := fun sessionId h => absurd h Finmap.notMem_empty
  senders := fun sid e h => absurd h List.not_mem_nil

theorem consistent_run (actions : List (Action J)) :
    (actions.foldl (step json uuid) {}).Consistent uuid :=
  Transition.foldl_induction consistent_empty (consistent_step json) actions

/-! ### Isolation -/

variable (json) in
/-- The event is sent out once, to exactly the sockets in `P`. -/
def DeliversTo (r : Relay J) (sid : String) (event : SocketEvent J) (P : String → Prop) : Prop :=
  ∃ e, r.api.handle json sid event = [e] ∧ ∀ sid', sid' ∈ r.api.receivers e ↔ P sid'

/-- An emission to a session reaches its live sockets but the skipped one. -/
theorem Consistent.mem_receivers (h : r.Consistent uuid) (payload : SocketPayload J)
    (sessionId : String) (skipSid : Option String) (sid : String) :
    sid ∈ r.api.receivers ⟨payload, sessionId, skipSid⟩ ↔
      (∃ userId, r.LiveIn sid sessionId userId) ∧ some sid ≠ skipSid := by
  rw [SocketAPI.mem_receivers]
  exact and_congr_left' h.mem_rooms

/-- **Session isolation of the relay.**  After any run: a frame or audio frame of a live
socket reaches exactly the other live sockets of its session, a message all of them, and an
event of any other socket reaches nobody. -/
theorem relay_isolated (json : JsonValues J) (uuid : UuidSource) (actions : List (Action J))
    (sid : String) :
    let r := actions.foldl (step json uuid) {}
    (∀ sessionId userId, r.LiveIn sid sessionId userId →
      (∀ data get, json.fields data = some get →
        r.DeliversTo json sid (.frame [data])
            (fun sid' => sid' ≠ sid ∧ ∃ userId', r.LiveIn sid' sessionId userId') ∧
          r.DeliversTo json sid (.audioFrame [data])
            (fun sid' => sid' ≠ sid ∧ ∃ userId', r.LiveIn sid' sessionId userId')) ∧
      ∀ claimed msg, r.DeliversTo json sid (.message [claimed, msg])
        (fun sid' => ∃ userId', r.LiveIn sid' sessionId userId')) ∧
    ((∀ sessionId userId, ¬ r.LiveIn sid sessionId userId) →
      ∀ event, r.api.handle json sid event = []) := by
  intro r
  have h : r.Consistent uuid := consistent_run actions
  refine ⟨fun sessionId userId hlive => ⟨fun data get hget => ⟨?_, ?_⟩, fun claimed msg => ?_⟩,
    fun hdead event => ?_⟩
  · refine ⟨_, by rw [handle, hget]; dsimp only; rw [onFrame, h.bound_iff.mpr hlive],
      fun sid' => ?_⟩
    rw [h.mem_receivers, and_comm]
    simp
  · refine ⟨_, by rw [handle, hget]; dsimp only; rw [onAudioFrame, h.bound_iff.mpr hlive],
      fun sid' => ?_⟩
    rw [h.mem_receivers, and_comm]
    simp
  · refine ⟨_, by rw [handle, onMessage, h.bound_iff.mpr hlive], fun sid' => ?_⟩
    rw [h.mem_receivers]
    simp
  · refine handle_of_unbound json ?_ event
    by_contra hsome
    obtain ⟨⟨sessionId, userId⟩, hinfo⟩ := Option.ne_none_iff_exists'.mp hsome
    exact hdead sessionId userId (h.bound_iff.mp hinfo)

/-! ### Room ids -/

/-- In a complete session nobody has missed the room id. -/
def Announced (r : Relay J) : Prop :=
  ∀ sessionId, r.Complete sessionId → ∀ sid userId, r.LiveIn sid sessionId userId →
    sid ∈ r.reached

/-- Relayed payloads are no room ids. -/
theorem payload_of_handle {api : SocketAPI} {sid : String} {event : SocketEvent J}
    {e : Emission J} (he : e ∈ api.handle json sid event) (id : String) :
    e.payload ≠ .roomId id := by
  unfold handle at he
  split at he
  · rw [onMessage] at he
    split at he <;> simp at he
    rw [he]
    simp
  · split at he
    · rw [onFrame] at he
      split at he <;> simp at he
      rw [he]
      simp
    · exact absurd he List.not_mem_nil
  · split at he
    · rw [onAudioFrame] at he
      split at he <;> simp at he
      rw [he]
      simp
    · exact absurd he List.not_mem_nil
  · exact absurd he List.not_mem_nil

/-- A room id is sent to a session only at a moment when it is complete. -/
theorem complete_of_emits (h : r.Consistent uuid) (a : Action J) {e : Emission J}
    (he : e ∈ r.emits json a) {id : String} (hid : e.payload = .roomId id) :
    (r.step json uuid a).Complete e.room := by
  have hnext := consistent_step json r a h
  rcases r.step_cases json uuid a with ⟨hnone, -⟩ |
    ⟨sid, sessionId, userId, expectedUsers, roomId, hsid, hlookup, -, hemits, hstep⟩ |
    ⟨sid, event, -, hemits, -⟩
  · rw [hnone] at he
    exact absurd he List.not_mem_nil
  · rw [hemits] at he
    split_ifs at he with hall
    · obtain rfl := List.mem_singleton.mp he
      rw [hstep] at hnext ⊢
      exact ⟨expectedUsers, hlookup, (hnext.acquiredAll_iff sessionId expectedUsers).mp hall⟩
    · exact absurd he List.not_mem_nil
  · rw [hemits] at he
    exact absurd hid (payload_of_handle he id)

theorem Complete.of_live_subset {r' : Relay J} {sessionId : String}
    (hlive : ∀ sid userId, r'.LiveIn sid sessionId userId → r.LiveIn sid sessionId userId)
    (hlookup : r'.api.sessions.lookup sessionId = r.api.sessions.lookup sessionId)
    (h : r'.Complete sessionId) : r.Complete sessionId := by
  obtain ⟨expectedUsers, hsession, hall⟩ := h
  refine ⟨expectedUsers, hlookup ▸ hsession, fun userId hmem => ?_⟩
  obtain ⟨sid, hsid⟩ := hall userId hmem
  exact ⟨sid, hlive sid userId hsid⟩

/-- The socket that has just been accepted is the only new live one. -/
theorem live_of_bindSocket {sid sessionId userId : String} {reached : Finset String}
    {sid' sessionId' userId' : String}
    (hlive : (r.bindSocket sid (sessionId, userId) reached).LiveIn sid' sessionId' userId') :
    sessionId' = sessionId ∨ r.LiveIn sid' sessionId' userId' := by
  obtain ⟨haccepted, hopen⟩ := hlive
  by_cases heq : sid' = sid
  · rw [bindSocket, heq, Finmap.lookup_insert, Option.some_inj, Prod.mk.injEq] at haccepted
    exact .inl haccepted.1.symm
  · rw [bindSocket, Finmap.lookup_insert_of_ne _ heq] at haccepted
    exact .inr ⟨haccepted, hopen⟩

theorem announced_step (r : Relay J) (a : Action J) (h : r.Consistent uuid)
    (hall : r.Announced) : (r.step json uuid a).Announced := by
  have hnext := consistent_step json r a h
  intro s hcomplete x u hlive
  rcases r.step_cases json uuid a with
    ⟨-, ⟨users, hstep⟩ | hstep | ⟨sid, -, hstep⟩ | ⟨sid, -, hstep⟩⟩ |
    ⟨sid, sessionId, userId, expectedUsers, roomId, hsid, hlookup, -, hemits, hstep⟩ |
    ⟨sid, event, -, -, hstep⟩ <;> rw [hstep] at hnext hcomplete hlive ⊢
  · -- a session with a live socket is an older one
    have hsame := lookup_createSession h.known users (h.inside x (s, u) hlive.1)
    refine hall s (Complete.of_live_subset ?_ hsame hcomplete) x u hlive
    exact fun _ _ hx => hx
  · exact hall s hcomplete x u hlive
  · exact hall s hcomplete x u hlive
  · -- whoever is still there was there before
    have hbefore : ∀ x u, (r.closeSocket sid).LiveIn x s u → r.LiveIn x s u := fun x u hx =>
      ⟨hx.1, fun hmem => hx.2 (Finset.mem_insert_of_mem hmem)⟩
    exact hall s (hcomplete.of_live_subset hbefore rfl) x u (hbefore x u hlive)
  · by_cases heq : s = sessionId
    · subst heq
      -- the session is complete with the new socket, so the room id goes to the whole room
      obtain ⟨expected, hexpected, husers⟩ := hcomplete
      obtain rfl := Option.some_inj.mp (hlookup.symm.trans hexpected)
      have hacquired : (r.api.bind sid (s, userId)).acquiredAll s expectedUsers :=
        (hnext.acquiredAll_iff s expectedUsers).mpr husers
      rw [bindSocket, hemits, if_pos hacquired]
      refine Finset.mem_union_right _ (mem_reachedBy.mpr ⟨_, List.mem_singleton_self _, ?_⟩)
      exact (hnext.mem_receivers _ s none x).mpr ⟨⟨u, hlive⟩, by simp⟩
    · have hold : ∀ reached x u, (r.bindSocket sid (sessionId, userId) reached).LiveIn x s u →
          r.LiveIn x s u := fun _ _ _ hx => (live_of_bindSocket hx).resolve_left heq
      have hbefore := hcomplete.of_live_subset (hold _) rfl
      exact Finset.mem_union_left _ (hall s hbefore x u (hold _ x u hlive))
  · exact hall s hcomplete x u hlive

/-- **The room id reaches everybody exactly when the session is complete.**  A sid connects
once, so a socket that is in `reached` was reached after it had connected. -/
theorem room_id_when_complete (json : JsonValues J) (uuid : UuidSource)
    (actions : List (Action J)) :
    let r := actions.foldl (step json uuid) {}
    (∀ a, ∀ e ∈ r.emits json a, ∀ id, e.payload = .roomId id →
      (r.step json uuid a).Complete e.room) ∧
    ∀ sessionId, r.Complete sessionId → ∀ sid userId, r.LiveIn sid sessionId userId →
      sid ∈ r.reached := by
  intro r
  have hrun : r.Consistent uuid ∧ r.Announced :=
    Transition.foldl_induction (I := fun r : Relay J => r.Consistent uuid ∧ r.Announced)
      ⟨consistent_empty, fun _ _ sid userId hlive => absurd hlive.1 (by simp)⟩
      (fun r a h => ⟨consistent_step json r a h.1, announced_step r a h.1 h.2⟩) actions
  exact ⟨fun a e he id hid => complete_of_emits hrun.1 a he hid, hrun.2⟩

/-! ### Sender identity -/

/-- The user id that labels a payload at its receivers. -/
def label (json : JsonValues J) : SocketPayload J → Option J
  | .roomId _ => none
  | .message userId _ => some userId
  | .frame _ _ _ sender => some (json.str sender)
  | .audioFrame _ _ sender => some (json.str sender)

variable (json) in
/-- Every relayed payload is labelled with the user its socket was accepted for. -/
def AllAuthentic (r : Relay J) : Prop :=
  ∀ sid e, (sid, e) ∈ r.relayed → ∃ sessionId userId,
    r.accepted.lookup sid = some (sessionId, userId) ∧
      label json e.payload = some (json.str userId)

variable (json) in
/-- A message of a live socket carries the user id the socket was accepted for. -/
def Honest (r : Relay J) : Action J → Prop
  | .event sid (.message [claimed, _]) =>
    ∀ sessionId userId, r.LiveIn sid sessionId userId → claimed = json.str userId
  | _ => True

/-- The binding labels every frame; a message is labelled with what it carries. -/
theorem handle_authentic_iff (h : r.Consistent uuid) (sid : String) (event : SocketEvent J) :
    (∀ e ∈ r.api.handle json sid event, ∃ sessionId userId,
      r.accepted.lookup sid = some (sessionId, userId) ∧
        label json e.payload = some (json.str userId)) ↔ r.Honest json (.event sid event) := by
  cases hbound : r.api.sids.lookup sid with
  | none =>
    -- nothing is relayed, and the socket is not live
    rw [handle_of_unbound json hbound]
    refine ⟨fun _ => ?_, fun _ e he => absurd he List.not_mem_nil⟩
    unfold Honest
    split
    next sid' claimed msg heq =>
      intro sessionId userId hlive
      rw [← (Action.event.inj heq).1] at hlive
      exact absurd (hbound.symm.trans (h.bound_iff.mpr hlive)) (by simp)
    next => trivial
  | some info =>
    obtain ⟨sessionId, userId⟩ := info
    have hlive := h.bound_iff.mp hbound
    have haccepted := hlive.1
    cases event with
    | message args =>
      rcases args with _ | ⟨claimed, _ | ⟨msg, _ | ⟨extra, rest⟩⟩⟩
      · simp [handle, Honest]
      · simp [handle, Honest]
      · have hhandle : r.api.handle json sid (.message [claimed, msg])
            = [{ payload := .message claimed msg, room := sessionId }] := by
          rw [handle, onMessage, hbound]
        rw [hhandle]
        simp only [List.mem_singleton, forall_eq, label, haccepted, Honest]
        constructor
        · rintro ⟨s, u, hsu, hlabel⟩ s' u' hlive'
          rw [Option.some_inj] at hsu hlabel
          have hsu' := Option.some_inj.mp (haccepted.symm.trans hlive'.1)
          rw [hlabel, (Prod.mk.inj (hsu.symm.trans hsu')).2]
        · intro hhonest
          exact ⟨sessionId, userId, rfl, congrArg some (hhonest sessionId userId hlive)⟩
      · simp [handle, Honest]
    | frame args =>
      refine ⟨fun _ => trivial, fun _ e he => ⟨sessionId, userId, haccepted, ?_⟩⟩
      rcases args with _ | ⟨data, _ | ⟨extra, rest⟩⟩
      · exact absurd he List.not_mem_nil
      · rw [handle] at he
        cases hget : json.fields data with
        | none => simp [hget] at he
        | some get =>
          simp only [hget, onFrame, hbound, List.mem_singleton] at he
          rw [he, label]
      · exact absurd he List.not_mem_nil
    | audioFrame args =>
      refine ⟨fun _ => trivial, fun _ e he => ⟨sessionId, userId, haccepted, ?_⟩⟩
      rcases args with _ | ⟨data, _ | ⟨extra, rest⟩⟩
      · exact absurd he List.not_mem_nil
      · rw [handle] at he
        cases hget : json.fields data with
        | none => simp [hget] at he
        | some get =>
          simp only [hget, onAudioFrame, hbound, List.mem_singleton] at he
          rw [he, label]
      · exact absurd he List.not_mem_nil

/-- A step that relays nothing and forgets no socket. -/
theorem allAuthentic_congr {r' : Relay J} (h : r.Consistent uuid)
    (hrelayed : r'.relayed = r.relayed)
    (haccepted : ∀ sid info, r.accepted.lookup sid = some info →
      r'.accepted.lookup sid = some info) :
    r'.AllAuthentic json ↔ r.AllAuthentic json := by
  rw [AllAuthentic, AllAuthentic, hrelayed]
  refine forall₃_congr fun sid e hmem => ?_
  obtain ⟨info, hinfo⟩ := h.senders sid e hmem
  rw [haccepted sid info hinfo, hinfo]

/-- Only events are relayed, and only messages can be labelled wrongly. -/
theorem allAuthentic_step (json : JsonValues J) (r : Relay J) (a : Action J) (h : r.Consistent uuid) :
    (r.step json uuid a).AllAuthentic json ↔ r.AllAuthentic json ∧ r.Honest json a := by
  cases a with
  | event sid event =>
    rw [← handle_authentic_iff h]
    simp only [step, AllAuthentic, List.mem_append, List.mem_map, Prod.mk.injEq]
    constructor
    · intro hall
      exact ⟨fun sid' e hmem => hall sid' e (.inl hmem),
        fun e he => hall sid e (.inr ⟨e, he, rfl, rfl⟩)⟩
    · rintro ⟨hold, hnew⟩ sid' e (hmem | ⟨e', he', rfl, rfl⟩)
      · exact hold sid' e hmem
      · exact hnew e' he'
  | createSession users =>
    exact (allAuthentic_congr h rfl fun _ _ hinfo => hinfo).trans (and_iff_left trivial).symm
  | connect sid auth roomId =>
    refine (allAuthentic_congr h ?_ ?_).trans (and_iff_left trivial).symm
    · rw [step]
      split <;> rfl
    · intro sid' info hinfo
      by_cases hsid : sid ∈ r.opened
      · rw [step, if_pos hsid]
        exact hinfo
      · -- a new entry of the ledger is for a new sid
        have hne : sid' ≠ sid := fun heq => hsid (heq ▸ h.opened_accepted sid' info hinfo)
        rw [step, if_neg hsid]
        dsimp only
        split
        · rw [Finmap.lookup_insert_of_ne _ hne, hinfo]
        · exact hinfo
  | disconnect sid =>
    refine (allAuthentic_congr h ?_ ?_).trans (and_iff_left trivial).symm
    · rw [step]
      split <;> rfl
    · intro sid' info hinfo
      rw [step]
      split <;> exact hinfo

/-- **Sender identity.**  In any run every relayed payload is labelled with the user its
socket was accepted for, exactly when every message that a live socket sends carries that
user's id; frames and audio frames are labelled so in any case. -/
theorem authentic_iff_honest (json : JsonValues J) (uuid : UuidSource)
    (actions : List (Action J)) :
    (actions.foldl (step json uuid) {}).AllAuthentic json ↔
      Transition.Along (step json uuid) (Honest json) {} actions := by
  rw [Transition.foldl_iff_along (I := Consistent uuid) (consistent_step json)
    (allAuthentic_step json) consistent_empty]
  exact and_iff_right fun sid e hmem => absurd hmem List.not_mem_nil

/-! ### One session with two sockets -/

/-- Strings for values; every one of them has fields, all of them missing. -/
def plainJson : JsonValues String where
  str := id
  fields := fun _ => some fun _ => none

def callerAuth (userId : String) : Option SocketAuth := some ⟨some userId, some "u"⟩

/-- Session `u` of 10000 and 10001, whose socket is the only one so far. -/
def waitingRun : List (Action String) :=
  [.createSession ["10000", "10001"], .connect "a" (callerAuth "10000") "ROOM1"]

/-- 10001 has connected, too. -/
def callRun : List (Action String) :=
  waitingRun ++ [.connect "b" (callerAuth "10001") "ROOM2"]

theorem relay_isolated_call :
    let r := callRun.foldl (step plainJson CallPairing.plainUuid) {}
    r.DeliversTo plainJson "a" (.frame ["{}"])
      (fun sid => sid ≠ "a" ∧ ∃ userId, r.LiveIn sid "u" userId) :=
  (((relay_isolated plainJson CallPairing.plainUuid callRun "a").1 "u" "10000"
    ⟨by decide +kernel, by decide +kernel⟩).1 "{}" _ rfl).1

theorem room_id_when_complete_call :
    (callRun.foldl (step plainJson CallPairing.plainUuid) {}).Complete "u" ∧
      "a" ∈ (callRun.foldl (step plainJson CallPairing.plainUuid) {}).reached := by
  have hcomplete : (callRun.foldl (step plainJson CallPairing.plainUuid) {}).Complete "u" :=
    (room_id_when_complete plainJson CallPairing.plainUuid waitingRun).1
      (.connect "b" (callerAuth "10001") "ROOM2") ⟨.roomId "ROOM2", "u", none⟩
      (by decide +kernel) "ROOM2" rfl
  exact ⟨hcomplete, (room_id_when_complete plainJson CallPairing.plainUuid callRun).2 "u"
    hcomplete "a" "10000" ⟨by decide +kernel, by decide +kernel⟩⟩

/-- The socket of 10000 sends a message in the name of 10001. -/
def forgingRun : List (Action String) :=
  callRun ++ [.event "a" (.message ["10001", "hello"])]

theorem forged_message_is_relayed :
    ¬ (forgingRun.foldl (step plainJson CallPairing.plainUuid) {}).AllAuthentic plainJson := by
  intro hall
  obtain ⟨sessionId, userId, haccepted, hlabel⟩ := hall "a"
    ⟨.message "10001" "hello", "u", none⟩ (by decide +kernel)
  have hbound : (forgingRun.foldl (step plainJson CallPairing.plainUuid) {}).accepted.lookup "a"
      = some ("u", "10000") := by
    decide +kernel
  rw [hbound, Option.some_inj, Prod.mk.injEq] at haccepted
  rw [label, ← haccepted.2] at hlabel
  exact absurd hlabel (by decide)

end Relay
