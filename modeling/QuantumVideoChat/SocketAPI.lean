/-
Sessions and relaying (`server/socket_api.py`).

`rooms` is Socket.IO's own table: a pair `(room, sid)` is there while socket `sid` is in
`room`, and an emission to a room reaches these sockets.  JSON payloads are any type `J`.

* `admitted_eq_some` — a socket is accepted exactly for an expected user of a known session;
* `mem_receivers` — the sockets an emission reaches;
* `lookup_createSession` — a new session leaves the older ones alone.
-/
import Mathlib.Data.Finmap

/-- `str(uuid.uuid4())`: the id of the `n`-th session, never empty, never issued twice. -/
structure UuidSource where
  id : ℕ → String
  injective : Function.Injective id
  nonempty : ∀ n, id n ≠ ""

/-- The `auth` dictionary of a connecting socket. -/
structure SocketAuth where
  userId : Option String
  sessionId : Option String
  deriving DecidableEq

inductive SocketPayload (J : Type*)
  | roomId (id : String)
  | message (userId msg : J)
  | frame (frame width height : Option J) (sender : String)
  | audioFrame (audio sampleRate : Option J) (sender : String)
  deriving DecidableEq

/-- `emit(event, payload, to=room, skip_sid=skipSid)`. -/
structure Emission (J : Type*) where
  payload : SocketPayload J
  room : String
  skipSid : Option String := none
  deriving DecidableEq

/-- `created` counts the calls of `create_session`. -/
structure SocketAPI where
  sessions : Finmap fun _ : String => Finset String := ∅
  sids : Finmap fun _ : String => String × String := ∅
  rooms : Finset (String × String) := ∅
  created : ℕ := 0

namespace SocketAPI

variable {J : Type*}

def createSession (uuid : UuidSource) (users : List String) (api : SocketAPI) :
    SocketAPI × String :=
  let sessionId := uuid.id api.created
  ({ api with
      sessions := api.sessions.insert sessionId users.toFinset
      created := api.created + 1 }, sessionId)

/-- Every expected user has a socket in the session: `connected_users >= expected_users`. -/
def acquiredAll (api : SocketAPI) (sessionId : String) (expectedUsers : Finset String) : Prop :=
  ∀ userId ∈ expectedUsers, ∃ sid ∈ api.sids.keys, api.sids.lookup sid = some (sessionId, userId)

instance (api : SocketAPI) (sessionId : String) (expectedUsers : Finset String) :
    Decidable (api.acquiredAll sessionId expectedUsers) :=
  inferInstanceAs (Decidable (∀ userId ∈ expectedUsers, ∃ sid ∈ api.sids.keys, _))

/-- The session and user under which `_on_connect` accepts a socket, if it does. -/
def admitted (api : SocketAPI) (auth : Option SocketAuth) : Option (String × String) :=
  match auth with
  | none => none
  | some auth =>
    match auth.sessionId, auth.userId with
    | some sessionId, some userId =>
      -- an empty id counts as none
      if sessionId = "" then none
      else
        match api.sessions.lookup sessionId with
        | none => none
        | some expectedUsers =>
          if userId ∈ expectedUsers then some (sessionId, userId) else none
    | _, _ => none

/-- `join_room(session_id)` and `self.sids[sid] = (session_id, user_id)`. -/
def bind (api : SocketAPI) (sid : String) (info : String × String) : SocketAPI :=
  { api with rooms := insert (info.1, sid) api.rooms, sids := api.sids.insert sid info }

/-- `_on_connect`; `roomId` is the drawn room id.  The answer `false` rejects the socket. -/
def onConnect (api : SocketAPI) (sid : String) (auth : Option SocketAuth) (roomId : String) :
    SocketAPI × Bool × List (Emission J) :=
  match api.admitted auth with
  | none => (api, false, [])
  | some info =>
    let api' := api.bind sid info
    (api', true,
      if api'.acquiredAll info.1 ((api.sessions.lookup info.1).getD ∅) then
        [{ payload := .roomId roomId, room := info.1 }]
      else [])

/-- `_on_message`. -/
def onMessage (api : SocketAPI) (sid : String) (userId msg : J) : List (Emission J) :=
  match api.sids.lookup sid with
  | some (sessionId, _) => [{ payload := .message userId msg, room := sessionId }]
  | none => []

/-- `_on_frame`. -/
def onFrame (api : SocketAPI) (senderSid : String) (frame width height : Option J) :
    List (Emission J) :=
  match api.sids.lookup senderSid with
  | some (sessionId, senderId) =>
    [{ payload := .frame frame width height senderId, room := sessionId, skipSid := some senderSid }]
  | none => []

/-- `_on_audio_frame`. -/
def onAudioFrame (api : SocketAPI) (senderSid : String) (audio sampleRate : Option J) :
    List (Emission J) :=
  match api.sids.lookup senderSid with
  | some (sessionId, senderId) =>
    [{ payload := .audioFrame audio sampleRate senderId, room := sessionId,
       skipSid := some senderSid }]
  | none => []

/-- `_on_disconnect`; Socket.IO takes a closed socket out of every room. -/
def onDisconnect (api : SocketAPI) (sid : String) : SocketAPI :=
  { api with
    sids := api.sids.erase sid
    rooms := api.rooms.filter fun entry => entry.2 ≠ sid }

/-- The sockets an emission reaches. -/
def receivers (api : SocketAPI) (e : Emission J) : Finset String :=
  (api.rooms.filter fun entry => entry.1 = e.room ∧ some entry.2 ≠ e.skipSid).image Prod.snd

theorem mem_receivers {api : SocketAPI} {e : Emission J} {sid : String} :
    sid ∈ api.receivers e ↔ (e.room, sid) ∈ api.rooms ∧ some sid ≠ e.skipSid := by
  rw [receivers, Finset.mem_image]
  constructor
  · rintro ⟨⟨room, sid'⟩, hentry, rfl⟩
    obtain ⟨hroom, heq, hskip⟩ := Finset.mem_filter.mp hentry
    dsimp only at heq hskip ⊢
    exact ⟨heq ▸ hroom, hskip⟩
  · rintro ⟨hroom, hskip⟩
    exact ⟨(e.room, sid), Finset.mem_filter.mpr ⟨hroom, rfl, hskip⟩, rfl⟩

theorem admitted_eq_some {api : SocketAPI} {auth : Option SocketAuth}
    {sessionId userId : String} :
    api.admitted auth = some (sessionId, userId) ↔
      auth = some ⟨some userId, some sessionId⟩ ∧ sessionId ≠ "" ∧
        ∃ expectedUsers, api.sessions.lookup sessionId = some expectedUsers ∧
          userId ∈ expectedUsers := by
  obtain _ | ⟨user, session⟩ := auth
  · simp [admitted]
  cases session with
  | none => simp [admitted]
  | some session =>
    cases user with
    | none => simp [admitted]
    | some user =>
      simp only [admitted]
      by_cases hempty : session = ""
      · rw [if_pos hempty]
        simp only [reduceCtorEq, false_iff]
        rintro ⟨hauth, hne, -⟩
        simp only [Option.some.injEq, SocketAuth.mk.injEq] at hauth
        exact hne (hauth.2.symm.trans hempty)
      · rw [if_neg hempty]
        cases hlookup : api.sessions.lookup session with
        | none =>
          simp only [reduceCtorEq, Option.some.injEq, SocketAuth.mk.injEq, false_iff]
          rintro ⟨⟨rfl, rfl⟩, -, users, hsome, -⟩
          exact absurd (hlookup.symm.trans hsome) (by simp)
        | some users =>
          by_cases hmem : user ∈ users
          · simp only [if_pos hmem, Option.some.injEq, Prod.mk.injEq, SocketAuth.mk.injEq]
            constructor
            · rintro ⟨rfl, rfl⟩
              exact ⟨⟨rfl, rfl⟩, hempty, users, hlookup, hmem⟩
            · rintro ⟨⟨rfl, rfl⟩, -⟩
              exact ⟨rfl, rfl⟩
          · simp only [if_neg hmem, reduceCtorEq, Option.some.injEq, SocketAuth.mk.injEq,
              false_iff]
            rintro ⟨⟨rfl, rfl⟩, -, users', hsome, hmem'⟩
            exact hmem (Option.some_inj.mp (hlookup.symm.trans hsome) ▸ hmem')

/-- Every session was created under one of the ids issued so far. -/
def SessionsKnown (uuid : UuidSource) (api : SocketAPI) : Prop :=
  ∀ sessionId ∈ api.sessions, ∃ n < api.created, uuid.id n = sessionId

theorem sessionsKnown_createSession {uuid : UuidSource} {api : SocketAPI}
    (h : api.SessionsKnown uuid) (users : List String) :
    (api.createSession uuid users).1.SessionsKnown uuid := by
  intro sessionId hmem
  rw [createSession, Finmap.mem_insert] at hmem
  rcases hmem with rfl | hmem
  · exact ⟨api.created, Nat.lt_succ_self _, rfl⟩
  · obtain ⟨n, hn, hid⟩ := h sessionId hmem
    exact ⟨n, Nat.lt_succ_of_lt hn, hid⟩

theorem lookup_createSession {uuid : UuidSource} {api : SocketAPI}
    (h : api.SessionsKnown uuid) (users : List String) {sessionId : String}
    (hmem : sessionId ∈ api.sessions) :
    (api.createSession uuid users).1.sessions.lookup sessionId
      = api.sessions.lookup sessionId := by
  obtain ⟨n, hn, rfl⟩ := h sessionId hmem
  -- the new id is one that was never issued before
  have hne : uuid.id n ≠ uuid.id api.created := fun heq => hn.ne (uuid.injective heq)
  rw [createSession, Finmap.lookup_insert_of_ne _ hne]

end SocketAPI
