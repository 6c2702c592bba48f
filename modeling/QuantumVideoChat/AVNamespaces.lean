/-
The audio and video namespaces (`server/utils/av.py`, `shared/av/namespaces.py`) that
`SocketAPI` registers beside its own events.

A socket here is a client's connection: it may take part in the relay of `SessionRelay`, in
a namespace, or in both.  `on_connect` and `on_disconnect` of the namespaces do nothing, so
whoever asks is attached.

* `deliver_eq` — a message reaches everybody else who is attached;
* `namespaces_isolated_iff` — the runs in which this keeps to the sessions;
* `stranger_joins_video` — a connection without a session in the video of a call.
-/
import QuantumVideoChat.SessionRelay

/-- The server side of a namespace. -/
inductive FlaskNamespace
  | broadcastFlaskNamespace
  | testFlaskNamespace
  deriving DecidableEq

namespace FlaskNamespace

/-- The names and classes of `AV.namespaces` and of `test_namespaces`. -/
def namespaces (testing : Bool) : List (String × FlaskNamespace) :=
  if testing then [("/test", testFlaskNamespace)]
  else [("/video", broadcastFlaskNamespace), ("/audio", broadcastFlaskNamespace)]

/-- `generate_flask_namespace`, with the module's `testing = False`. -/
def generateFlaskNamespace : List (String × FlaskNamespace) := namespaces false

/-- `on_message`: whom `send(.., broadcast=True)` reaches among the attached sockets; only
the test namespace includes the sender. -/
def onMessage (attached : Finset String) (sid : String) : FlaskNamespace → Finset String
  | broadcastFlaskNamespace => attached.erase sid
  | testFlaskNamespace => attached

end FlaskNamespace

/-- One broadcast, with the state of the relay it was made in. -/
structure Broadcast (J : Type*) where
  relay : Relay J
  sender : String
  receivers : Finset String

/-- `attached` holds a pair `(name, sid)` for each socket in a namespace. -/
structure AVRelay (J : Type*) where
  relay : Relay J := {}
  attached : Finset (String × String) := ∅
  broadcasts : List (Broadcast J) := []

namespace AVRelay

variable {J : Type*} (json : JsonValues J) (uuid : UuidSource)

inductive Action (J : Type*)
  | relay (a : Relay.Action J)
  | attach (name sid : String)
  | message (name sid : String) (args : List J)
  | detach (name sid : String)

/-- The sockets in a namespace. -/
def members (w : AVRelay J) (name : String) : Finset String :=
  (w.attached.filter fun entry => entry.1 = name).image Prod.snd

/-- The broadcasts of a message: `on_message` takes two arguments and runs for attached
sockets only. -/
def deliver (w : AVRelay J) (name sid : String) : List J → List (Broadcast J)
  | [_, _] =>
    match FlaskNamespace.generateFlaskNamespace.lookup name with
    | none => []
    | some cls =>
      if sid ∈ w.members name then
        [⟨w.relay, sid, cls.onMessage (w.members name) sid⟩]
      else []
  | _ => []

def step (w : AVRelay J) : Action J → AVRelay J
  | .relay a => { w with relay := w.relay.step json uuid a }
  | .attach name sid =>
    match FlaskNamespace.generateFlaskNamespace.lookup name with
    | none => w
    | some _ => { w with attached := insert (name, sid) w.attached }
  | .message name sid args => { w with broadcasts := w.broadcasts ++ w.deliver name sid args }
  | .detach name sid => { w with attached := w.attached.erase (name, sid) }

/-- The user of the second socket belongs to a session that the first was accepted into. -/
def Companion (r : Relay J) (sid sid' : String) : Prop :=
  ∃ sessionId userId expectedUsers sessionId' userId',
    r.accepted.lookup sid = some (sessionId, userId) ∧
    r.api.sessions.lookup sessionId = some expectedUsers ∧
    r.accepted.lookup sid' = some (sessionId', userId') ∧ userId' ∈ expectedUsers

/-- Every broadcast kept to its sender's session. -/
def AllIsolated (w : AVRelay J) : Prop :=
  ∀ b ∈ w.broadcasts, ∀ sid ∈ b.receivers, Companion b.relay b.sender sid

/-- When a message arrives, everybody else in its namespace is a companion of the sender. -/
def AmongCompanions (w : AVRelay J) : Action J → Prop
  | .message name sid [_, _] =>
    sid ∈ w.members name → ∀ sid' ∈ w.members name, sid' ≠ sid → Companion w.relay sid sid'
  | _ => True

variable {json uuid} {w : AVRelay J}

/-- Only the registered namespaces have members. -/
def Registered (w : AVRelay J) : Prop :=
  ∀ entry ∈ w.attached,
    FlaskNamespace.generateFlaskNamespace.lookup entry.1 = some .broadcastFlaskNamespace

theorem lookup_generateFlaskNamespace {name : String} {cls : FlaskNamespace}
    (h : FlaskNamespace.generateFlaskNamespace.lookup name = some cls) :
    cls = .broadcastFlaskNamespace := by
  have hall : ∀ entry ∈ FlaskNamespace.generateFlaskNamespace,
      entry.2 = .broadcastFlaskNamespace := by decide
  obtain ⟨before, after, hlist, -⟩ := List.lookup_eq_some_iff.mp h
  exact hall (name, cls) (hlist ▸ List.mem_append_right before List.mem_cons_self)

theorem registered_step (json : JsonValues J) (w : AVRelay J) (a : Action J)
    (h : w.Registered) : (w.step json uuid a).Registered := by
  cases a with
  | relay a => exact h
  | attach name sid =>
    rw [step]
    split
    · exact h
    next cls hcls =>
      intro entry hentry
      rcases Finset.mem_insert.mp hentry with rfl | hold
      · exact hcls.trans (congrArg some (lookup_generateFlaskNamespace hcls))
      · exact h entry hold
  | message name sid args => exact h
  | detach name sid => exact fun entry hentry => h entry (Finset.mem_of_mem_erase hentry)

theorem registered_empty : ({} : AVRelay J).Registered :=
  fun entry hentry => absurd hentry (Finset.notMem_empty entry)

theorem mem_members {name sid : String} : sid ∈ w.members name ↔ (name, sid) ∈ w.attached := by
  rw [members, Finset.mem_image]
  constructor
  · rintro ⟨⟨name', sid'⟩, hentry, rfl⟩
    obtain ⟨hmem, rfl⟩ := Finset.mem_filter.mp hentry
    exact hmem
  · exact fun hmem => ⟨(name, sid), Finset.mem_filter.mpr ⟨hmem, rfl⟩, rfl⟩

/-- A message of an attached socket reaches everybody else in the namespace. -/
theorem deliver_eq (h : w.Registered) {name sid : String} (hsid : sid ∈ w.members name)
    (claimed msg : J) :
    w.deliver name sid [claimed, msg] = [⟨w.relay, sid, (w.members name).erase sid⟩] := by
  have hcls := h (name, sid) (mem_members.mp hsid)
  dsimp only at hcls
  rw [deliver, hcls]
  exact if_pos hsid

theorem deliver_of_not_mem {name sid : String} (hsid : sid ∉ w.members name) (args : List J) :
    w.deliver name sid args = [] := by
  unfold deliver
  split
  · split
    · rfl
    · exact if_neg hsid
  · rfl

/-- A message keeps to the session exactly when it arrives among companions. -/
theorem allIsolated_step (json : JsonValues J) (w : AVRelay J) (a : Action J)
    (h : w.Registered) :
    (w.step json uuid a).AllIsolated ↔ w.AllIsolated ∧ w.AmongCompanions a := by
  cases a with
  | relay a => exact (and_iff_left trivial).symm
  | attach name sid =>
    rw [step]
    split <;> exact (and_iff_left trivial).symm
  | detach name sid => exact (and_iff_left trivial).symm
  | message name sid args =>
    have hsplit : (w.step json uuid (.message name sid args)).AllIsolated ↔ w.AllIsolated ∧
        ∀ b ∈ w.deliver name sid args, ∀ sid' ∈ b.receivers,
          Companion b.relay b.sender sid' := by
      simp only [step, AllIsolated, List.mem_append, or_imp, forall_and]
    rw [hsplit]
    refine and_congr_right fun _ => ?_
    rcases args with _ | ⟨claimed, _ | ⟨msg, _ | ⟨extra, rest⟩⟩⟩
    · simp [deliver, AmongCompanions]
    · simp [deliver, AmongCompanions]
    · by_cases hsid : sid ∈ w.members name
      · rw [deliver_eq h hsid]
        simp only [List.mem_singleton, forall_eq, Finset.mem_erase, AmongCompanions, hsid,
          forall_const]
        exact forall_congr' fun sid' =>
          ⟨fun hall hmem hne => hall ⟨hne, hmem⟩, fun hall hmem => hall hmem.2 hmem.1⟩
      · rw [deliver_of_not_mem hsid]
        simp [AmongCompanions, hsid]
    · simp [deliver, AmongCompanions]

/-- **Isolation of the AV namespaces.**  In any run every message of a namespace is kept to
its sender's session exactly when, at the moment it arrives, everybody else in the namespace
was accepted as a user of that session: nothing in the namespaces sees to it. -/
theorem namespaces_isolated_iff (json : JsonValues J) (uuid : UuidSource)
    (actions : List (Action J)) :
    (actions.foldl (step json uuid) {}).AllIsolated ↔
      Transition.Along (step json uuid) AmongCompanions {} actions := by
  rw [Transition.foldl_iff_along (I := Registered) (registered_step json)
    (allIsolated_step json) registered_empty]
  exact and_iff_right fun b hb => absurd hb List.not_mem_nil

/-- Both users of a call are in `/video`, and so is a connection without any session. -/
def strangerRun : List (Action String) :=
  Relay.callRun.map .relay ++ [.attach "/video" "a", .attach "/video" "b",
    .attach "/video" "m", .message "/video" "a" ["10000", "frame"]]

/-- Now the stranger sends as well. -/
def forgedVideoRun : List (Action String) :=
  strangerRun ++ [.message "/video" "m" ["10000", "forged"]]

/-- The stranger gets the caller's video; then both users get the stranger's. -/
theorem stranger_joins_video :
    ¬ (forgedVideoRun.foldl (step Relay.plainJson CallPairing.plainUuid) {}).AllIsolated ∧
      (forgedVideoRun.foldl (step Relay.plainJson CallPairing.plainUuid) {}).broadcasts.map
        (fun b => (b.sender, b.receivers)) = [("a", {"b", "m"}), ("m", {"a", "b"})] := by
  refine ⟨fun hall => ?_, by decide +kernel⟩
  have hw : (strangerRun.foldl (step Relay.plainJson CallPairing.plainUuid) {}).Registered :=
    Transition.foldl_induction registered_empty (registered_step Relay.plainJson) strangerRun
  rw [forgedVideoRun, List.foldl_append, List.foldl_cons, List.foldl_nil] at hall
  obtain ⟨-, hamong⟩ := (allIsolated_step Relay.plainJson _ _ hw).mp hall
  obtain ⟨sessionId, userId, -, -, -, haccepted, -⟩ :=
    hamong (by decide +kernel) "a" (by decide +kernel) (by decide)
  -- the stranger was accepted nowhere
  have hnone : (strangerRun.foldl (step Relay.plainJson CallPairing.plainUuid)
      {}).relay.accepted.lookup "m" = none := by
    decide +kernel
  exact absurd (hnone.symm.trans haccepted) (by simp)

end AVRelay
