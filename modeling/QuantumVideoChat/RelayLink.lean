/-
From one socket of a session to another (`server/socket_api.py`).

Events of a socket wait for their handlers, each of which Socket.IO starts in a greenlet of its
own, so that one may overtake another.  Packets to a socket arrive in order.  What is in flight
is lost with the connection.

* `passage_step` — what one step does to what passes from one socket to another;
* `relayed_exactly_once` — nothing is lost or doubled between two sockets that stay, and nothing
  changes its place unless a handler overtakes another.
-/
import QuantumVideoChat.SessionRelay

namespace RelayLink

open Transition SocketAPI

variable {J : Type*}

/-- What arrives at a socket, and which socket has sent it, if one has. -/
structure Packet (J : Type*) where
  payload : SocketPayload J
  origin : Option String

/-- `waiting` are the events of a socket without a handler, `arriving` the packets that are on
their way to it, `received` those that have arrived. -/
structure Link (J : Type*) where
  relay : Relay J := {}
  waiting : String → List (SocketEvent J) := fun _ => []
  arriving : String → List (Packet J) := fun _ => []
  received : String → List (Packet J) := fun _ => []

/-- The `k`-th event that waits is handled, or the next packet arrives, or something happens that
the relay knows. -/
inductive Action (J : Type*)
  | createSession (users : List String)
  | connect (sid : String) (auth : Option SocketAuth) (roomId : String)
  | send (sid : String) (event : SocketEvent J)
  | handle (sid : String) (k : ℕ)
  | read (sid : String)
  | disconnect (sid : String)

/-- The packets that some emissions send to a socket. -/
def packets (api : SocketAPI) (emissions : List (Emission J)) (origin : Option String)
    (sid : String) : List (Packet J) :=
  (emissions.filter fun e => sid ∈ api.receivers e).map fun e => ⟨e.payload, origin⟩

namespace Link

variable (json : JsonValues J) (uuid : UuidSource)

/-- A step of the relay, with what it sends. -/
def relayStep (w : Link J) (a : Relay.Action J) (origin : Option String) : Link J :=
  let relay := w.relay.step json uuid a
  { w with
    relay := relay
    arriving := fun sid => w.arriving sid ++ packets relay.api (w.relay.emits json a) origin sid }

def step (w : Link J) : Action J → Link J
  | .createSession users => w.relayStep json uuid (.createSession users) none
  | .connect sid auth roomId => w.relayStep json uuid (.connect sid auth roomId) none
  | .send sid event =>
    -- a rejected socket has no connection
    if (w.relay.api.sids.lookup sid).isSome then
      { w with waiting := Function.update w.waiting sid (w.waiting sid ++ [event]) }
    else w
  | .handle sid k =>
    match (w.waiting sid)[k]? with
    | none => w
    | some event =>
      { w with waiting := Function.update w.waiting sid ((w.waiting sid).eraseIdx k) }.relayStep
        json uuid (.event sid event) (some sid)
  | .read sid =>
    match w.arriving sid with
    | [] => w
    | p :: arriving =>
      { w with
        arriving := Function.update w.arriving sid arriving
        received := Function.update w.received sid (w.received sid ++ [p]) }
  | .disconnect sid =>
    let w := w.relayStep json uuid (.disconnect sid) none
    { w with
      waiting := Function.update w.waiting sid []
      arriving := Function.update w.arriving sid [] }

end Link

/-! ### What passes from one socket to another -/

/-- The packets that come from a socket. -/
def ofSocket (sid : String) (ps : List (Packet J)) : List (SocketPayload J) :=
  ps.filterMap fun p => if p.origin = some sid then some p.payload else none

/-- What the relay makes of an event of the user. -/
def relayed (json : JsonValues J) (userId : String) : SocketEvent J → Option (SocketPayload J)
  | .message [claimed, msg] => some (.message claimed msg)
  | .frame [data] =>
    (json.fields data).map fun get => .frame (get "frame") (get "width") (get "height") userId
  | .audioFrame [data] =>
    (json.fields data).map fun get => .audioFrame (get "audio") (get "sample_rate") userId
  | _ => none

/-- What has arrived from `a` at `b`, what is on its way, and what waits for its handler. -/
def passage (json : JsonValues J) (userId a b : String) (w : Link J) : List (SocketPayload J) :=
  ofSocket a (w.received b ++ w.arriving b) ++ (w.waiting a).filterMap (relayed json userId)

/-- What the socket sends in the run. -/
def sentBy (a : String) (actions : List (Action J)) : List (SocketEvent J) :=
  actions.filterMap fun action =>
    match action with
    | .send sid event => if sid = a then some event else none
    | _ => none

/-- Two sockets are in one session, the first one for the user. -/
structure Together (sessionId userId a b : String) (r : Relay J) : Prop where
  ne : a ≠ b
  sender : r.LiveIn a sessionId userId
  receiver : ∃ peerId, r.LiveIn b sessionId peerId

variable {json : JsonValues J} {uuid : UuidSource} {sessionId userId a b : String}

theorem ofSocket_append (ps qs : List (Packet J)) :
    ofSocket a (ps ++ qs) = ofSocket a ps ++ ofSocket a qs := List.filterMap_append

theorem ofSocket_packets {api : SocketAPI} {emissions : List (Emission J)} {origin : Option String}
    (h : origin ≠ some a) (sid : String) : ofSocket a (packets api emissions origin sid) = [] := by
  rw [ofSocket, List.filterMap_eq_nil_iff]
  intro p hp
  obtain ⟨e, -, rfl⟩ := List.mem_map.mp hp
  exact if_neg h

/-- An event of a live socket is relayed to each other socket of the session. -/
theorem ofSocket_packets_handle {r : Relay J} (h : r.Consistent uuid)
    (htogether : Together sessionId userId a b r) (event : SocketEvent J) :
    ofSocket a (packets r.api (r.api.handle json a event) (some a) b)
      = (relayed json userId event).toList := by
  obtain ⟨hne, hsender, peerId, hreceiver⟩ := htogether
  have hreached : ∀ (payload : SocketPayload J) (skipSid : Option String), some b ≠ skipSid →
      ofSocket a (packets r.api [⟨payload, sessionId, skipSid⟩] (some a) b) = [payload] := by
    intro payload skipSid hskip
    have hmem : b ∈ r.api.receivers ⟨payload, sessionId, skipSid⟩ :=
      (h.mem_receivers payload sessionId skipSid b).mpr ⟨⟨peerId, hreceiver⟩, hskip⟩
    simp [packets, ofSocket, hmem]
  have hbound := h.bound_iff.mpr hsender
  have hskip : some b ≠ some a := fun heq => hne (Option.some_inj.mp heq).symm
  cases event with
  | message args =>
    rcases args with _ | ⟨claimed, _ | ⟨msg, _ | ⟨_, _⟩⟩⟩
    case cons.cons.nil =>
      rw [handle, onMessage, hbound]
      exact hreached _ _ (by simp)
    all_goals rfl
  | frame args =>
    rcases args with _ | ⟨data, _ | ⟨_, _⟩⟩
    case cons.nil =>
      rw [handle, relayed]
      cases json.fields data with
      | none => rfl
      | some get =>
        dsimp only
        rw [onFrame, hbound]
        exact hreached _ _ hskip
    all_goals rfl
  | audioFrame args =>
    rcases args with _ | ⟨data, _ | ⟨_, _⟩⟩
    case cons.nil =>
      rw [handle, relayed]
      cases json.fields data with
      | none => rfl
      | some get =>
        dsimp only
        rw [onAudioFrame, hbound]
        exact hreached _ _ hskip
    all_goals rfl

/-! ### One step -/

/-- A live socket stays live until it disconnects. -/
theorem liveIn_step {r : Relay J} (h : r.Consistent uuid) {sid : String}
    (hlive : r.LiveIn sid sessionId userId) {action : Relay.Action J}
    (haction : action ≠ .disconnect sid) :
    (r.step json uuid action).LiveIn sid sessionId userId := by
  obtain ⟨haccepted, hopen⟩ := hlive
  cases action with
  | createSession users => exact ⟨haccepted, hopen⟩
  | connect sid' auth roomId =>
    rw [Relay.step]
    split_ifs with hused
    · exact ⟨haccepted, hopen⟩
    · refine ⟨?_, hopen⟩
      have hne : sid ≠ sid' := fun heq => hused (heq ▸ h.opened_accepted sid _ haccepted)
      dsimp only
      split
      · rw [Finmap.lookup_insert_of_ne _ hne]
        exact haccepted
      · exact haccepted
  | event sid' event => exact ⟨haccepted, hopen⟩
  | disconnect sid' =>
    rw [Relay.step]
    split_ifs
    · refine ⟨haccepted, fun hmem => ?_⟩
      rcases Finset.mem_insert.mp hmem with rfl | hold
      · exact haction rfl
      · exact hopen hold
    · exact ⟨haccepted, hopen⟩

theorem together_step {r : Relay J} (h : r.Consistent uuid)
    (htogether : Together sessionId userId a b r) {action : Relay.Action J}
    (ha : action ≠ .disconnect a) (hb : action ≠ .disconnect b) :
    Together sessionId userId a b (r.step json uuid action) :=
  ⟨htogether.ne, liveIn_step h htogether.sender ha,
    htogether.receiver.imp fun _ hlive => liveIn_step h hlive hb⟩

/-- What the relay does in a step. -/
def relayAction (w : Link J) : Action J → Option (Relay.Action J)
  | .createSession users => some (.createSession users)
  | .connect sid auth roomId => some (.connect sid auth roomId)
  | .handle sid k => (w.waiting sid)[k]?.map fun event => .event sid event
  | .disconnect sid => some (.disconnect sid)
  | .send _ _ | .read _ => none

theorem step_relay (w : Link J) (action : Action J) :
    (w.step json uuid action).relay = match relayAction w action with
      | none => w.relay
      | some ra => w.relay.step json uuid ra := by
  cases action with
  | send sid event =>
    rw [Link.step]
    split_ifs <;> rfl
  | handle sid k =>
    rw [Link.step, relayAction]
    cases (w.waiting sid)[k]? <;> rfl
  | read sid =>
    rw [Link.step]
    split <;> rfl
  | _ => rfl

theorem passage_congr {w w' : Link J}
    (harrived : ofSocket a (w'.received b ++ w'.arriving b)
      = ofSocket a (w.received b ++ w.arriving b))
    (hwaiting : w'.waiting a = w.waiting a) :
    passage json userId a b w' = passage json userId a b w := by
  rw [passage, passage, harrived, hwaiting]

/-- What the relay sends on behalf of others is none of it. -/
theorem passage_relayStep (uuid : UuidSource) (w : Link J) (ra : Relay.Action J)
    {origin : Option String} (horigin : origin ≠ some a) :
    passage json userId a b (w.relayStep json uuid ra origin) = passage json userId a b w := by
  refine passage_congr ?_ rfl
  show ofSocket a (w.received b ++ (w.arriving b ++ packets _ _ origin b)) = _
  rw [← List.append_assoc, ofSocket_append, ofSocket_packets horigin, List.append_nil]

/-- The socket has an event handled. -/
theorem passage_handle (json : JsonValues J) {w : Link J} (h : w.relay.Consistent uuid)
    (htogether : Together sessionId userId a b w.relay) (k : ℕ) :
    (passage json userId a b (w.step json uuid (.handle a k))).Perm (passage json userId a b w) ∧
      (k = 0 → passage json userId a b (w.step json uuid (.handle a k))
        = passage json userId a b w) := by
  rw [Link.step]
  cases hevent : (w.waiting a)[k]? with
  | none => exact ⟨.refl _, fun _ => rfl⟩
  | some event =>
    obtain ⟨hk, rfl⟩ := List.getElem?_eq_some_iff.mp hevent
    -- the payload moves from the end of the passage to the middle
    have hpassage : passage json userId a b
        ({ w with waiting := Function.update w.waiting a ((w.waiting a).eraseIdx k) }.relayStep
          json uuid (.event a (w.waiting a)[k]) (some a))
        = ofSocket a (w.received b ++ w.arriving b)
          ++ ((w.waiting a)[k] :: (w.waiting a).eraseIdx k).filterMap (relayed json userId) := by
      show ofSocket a (w.received b ++ (w.arriving b ++ packets w.relay.api
          (w.relay.api.handle json a (w.waiting a)[k]) (some a) b))
        ++ (Function.update w.waiting a ((w.waiting a).eraseIdx k) a).filterMap _ = _
      rw [← List.append_assoc, ofSocket_append, ofSocket_packets_handle h htogether,
        Function.update_self, List.filterMap_cons, List.append_assoc]
      cases relayed json userId (w.waiting a)[k] <;> rfl
    dsimp only
    rw [hpassage, passage]
    refine ⟨((List.getElem_cons_eraseIdx_perm hk).filterMap _).append_left _, ?_⟩
    rintro rfl
    obtain ⟨first, later, hwaiting⟩ := List.exists_cons_of_length_pos hk
    simp only [hwaiting, List.getElem_cons_zero, List.eraseIdx_cons_zero]

theorem passage_step (json : JsonValues J) {w : Link J} (h : w.relay.Consistent uuid)
    (htogether : Together sessionId userId a b w.relay) {action : Action J}
    (hb : action ≠ .disconnect b) (ha : action ≠ .disconnect a) :
    (passage json userId a b (w.step json uuid action)).Perm
        (passage json userId a b w ++ (sentBy a [action]).filterMap (relayed json userId)) ∧
      ((∀ k, action = .handle a k → k = 0) → passage json userId a b (w.step json uuid action)
        = passage json userId a b w ++ (sentBy a [action]).filterMap (relayed json userId)) := by
  have hquiet : ∀ {w' : Link J}, passage json userId a b w' = passage json userId a b w →
      (passage json userId a b w').Perm (passage json userId a b w ++ []) ∧
        ((∀ k, action = .handle a k → k = 0) → passage json userId a b w'
          = passage json userId a b w ++ []) := fun hsame => by
    rw [hsame, List.append_nil]
    exact ⟨.refl _, fun _ => rfl⟩
  cases action with
  | createSession users => exact hquiet (passage_relayStep uuid w _ (by simp))
  | connect sid auth roomId => exact hquiet (passage_relayStep uuid w _ (by simp))
  | send sid event =>
    rw [Link.step]
    by_cases hsid : sid = a
    · subst hsid
      have hbound := h.bound_iff.mpr htogether.sender
      have hsent : passage json userId sid b { w with
          waiting := Function.update w.waiting sid (w.waiting sid ++ [event]) }
          = passage json userId sid b w ++ [event].filterMap (relayed json userId) := by
        rw [passage]
        dsimp only
        rw [Function.update_self, List.filterMap_append, ← List.append_assoc, ← passage]
      rw [if_pos (by rw [hbound]; rfl), hsent]
      simp [sentBy]
    · have hsent : sentBy a [Action.send sid event] = [] := by simp [sentBy, hsid]
      rw [hsent, List.filterMap_nil]
      split
      · exact hquiet (passage_congr rfl (Function.update_of_ne (Ne.symm hsid) _ _))
      · exact hquiet rfl
  | handle sid k =>
    by_cases hsid : sid = a
    · subst hsid
      obtain ⟨hperm, hsame⟩ := passage_handle json h htogether k
      simp only [sentBy, List.filterMap_cons, List.filterMap_nil, List.append_nil]
      exact ⟨hperm, fun horder => hsame (horder k rfl)⟩
    · rw [Link.step]
      cases (w.waiting sid)[k]? with
      | none => exact hquiet rfl
      | some event =>
        have horigin : some sid ≠ some a := fun heq => hsid (Option.some_inj.mp heq)
        refine hquiet ((passage_relayStep uuid _ _ horigin).trans ?_)
        exact passage_congr rfl (Function.update_of_ne (Ne.symm hsid) _ _)
  | read sid =>
    rw [Link.step]
    cases harriving : w.arriving sid with
    | nil => exact hquiet rfl
    | cons p arriving =>
      refine hquiet (passage_congr ?_ rfl)
      by_cases hsid : b = sid
      · subst hsid
        dsimp only
        rw [Function.update_self, Function.update_self, harriving, List.append_assoc,
          List.singleton_append]
      · dsimp only
        rw [Function.update_of_ne hsid, Function.update_of_ne hsid]
  | disconnect sid =>
    have hsida : a ≠ sid := fun heq => ha (heq ▸ rfl)
    have hsidb : b ≠ sid := fun heq => hb (heq ▸ rfl)
    have hnone : (none : Option String) ≠ some a := by simp
    refine hquiet ((passage_congr ?_ ?_).trans (passage_relayStep uuid w (.disconnect sid) hnone))
    · show ofSocket a (w.received b ++ Function.update
        (w.relayStep json uuid (.disconnect sid) none).arriving sid [] b) = _
      rw [Function.update_of_ne hsidb]
      rfl
    · exact Function.update_of_ne hsida _ _

/-! ### Runs -/

theorem consistent_relay (w : Link J) (action : Action J) (h : w.relay.Consistent uuid) :
    (w.step json uuid action).relay.Consistent uuid := by
  rw [step_relay]
  cases relayAction w action with
  | none => exact h
  | some ra => exact Relay.consistent_step json w.relay ra h

/-- A step of the relay that another socket causes leaves the two together. -/
theorem together_relay {w : Link J} (h : w.relay.Consistent uuid)
    (htogether : Together sessionId userId a b w.relay) {action : Action J}
    (ha : action ≠ .disconnect a) (hb : action ≠ .disconnect b) :
    Together sessionId userId a b (w.step json uuid action).relay := by
  rw [step_relay]
  cases action with
  | send | read => exact htogether
  | createSession | connect => exact together_step h htogether (by simp) (by simp)
  | handle sid k =>
    rw [relayAction]
    cases (w.waiting sid)[k]? with
    | none => exact htogether
    | some event => exact together_step h htogether (by simp) (by simp)
  | disconnect sid =>
    exact together_step h htogether (by simpa using ha) (by simpa using hb)

theorem passage_run {actions : List (Action J)}
    (hstay : ∀ action ∈ actions, action ≠ .disconnect a ∧ action ≠ .disconnect b) :
    ∀ {w : Link J}, w.relay.Consistent uuid → Together sessionId userId a b w.relay →
      (passage json userId a b (actions.foldl (Link.step json uuid) w)).Perm
          (passage json userId a b w ++ (sentBy a actions).filterMap (relayed json userId)) ∧
        ((∀ k, .handle a k ∈ actions → k = 0) →
          passage json userId a b (actions.foldl (Link.step json uuid) w)
            = passage json userId a b w ++ (sentBy a actions).filterMap (relayed json userId)) := by
  induction actions with
  | nil =>
    intro w _ _
    rw [show sentBy a ([] : List (Action J)) = [] from rfl, List.filterMap_nil, List.append_nil]
    exact ⟨.refl _, fun _ => rfl⟩
  | cons action actions ih =>
    intro w h htogether
    obtain ⟨ha, hb⟩ := hstay action List.mem_cons_self
    obtain ⟨hperm, hsame⟩ := passage_step json h htogether hb ha
    obtain ⟨hperms, hsames⟩ := ih (fun later hlater => hstay later (List.mem_cons_of_mem _ hlater))
      (consistent_relay w action h) (together_relay h htogether ha hb)
    have hsent : (sentBy a (action :: actions)).filterMap (relayed json userId)
        = (sentBy a [action]).filterMap (relayed json userId)
          ++ (sentBy a actions).filterMap (relayed json userId) := by
      rw [sentBy, sentBy, sentBy, ← List.filterMap_append, ← List.filterMap_append,
        List.singleton_append]
    rw [List.foldl_cons, hsent, ← List.append_assoc]
    refine ⟨hperms.trans (hperm.append_right _), fun horder => ?_⟩
    rw [hsames fun k hk => horder k (List.mem_cons_of_mem _ hk),
      hsame fun k hk => horder k (hk ▸ List.mem_cons_self)]

/-- **Nothing is lost or doubled on the way.**  While two sockets of a session stay connected,
whatever other sockets and the server do: what has arrived at one from the other, is on its way or
waits for its handler grows by exactly what the other sends that can be relayed.  If the server
handles the events of the sender in their order, it stays in the order in which it was sent. -/
theorem relayed_exactly_once (json : JsonValues J) (uuid : UuidSource)
    (before actions : List (Action J)) (sessionId userId a b : String)
    (htogether : Together sessionId userId a b
      (before.foldl (Link.step json uuid) {}).relay)
    (hstay : ∀ action ∈ actions, action ≠ .disconnect a ∧ action ≠ .disconnect b) :
    let w := before.foldl (Link.step json uuid) {}
    let w' := actions.foldl (Link.step json uuid) w
    (passage json userId a b w').Perm
        (passage json userId a b w ++ (sentBy a actions).filterMap (relayed json userId)) ∧
      ((∀ k, .handle a k ∈ actions → k = 0) → passage json userId a b w'
        = passage json userId a b w ++ (sentBy a actions).filterMap (relayed json userId)) :=
  passage_run hstay (foldl_induction (I := fun w : Link J => w.relay.Consistent uuid)
    Relay.consistent_empty consistent_relay before) htogether

/-- Session `u` of 10000 and 10001, both with a socket. -/
def callRun : List (Action String) :=
  [.createSession ["10000", "10001"], .connect "a" (Relay.callerAuth "10000") "ROOM1",
    .connect "b" (Relay.callerAuth "10001") "ROOM2"]

/-- The second message overtakes the first one. -/
def overtakingRun : List (Action String) :=
  [.send "a" (.message ["10000", "one"]), .send "a" (.message ["10000", "two"]), .handle "a" 1,
    .read "b", .read "b", .handle "a" 0]

theorem relayed_exactly_once_overtaking :
    let w := callRun.foldl (Link.step Relay.plainJson CallPairing.plainUuid) {}
    (passage Relay.plainJson "10000" "a" "b"
        (overtakingRun.foldl (Link.step Relay.plainJson CallPairing.plainUuid) w)).Perm
      (passage Relay.plainJson "10000" "a" "b" w
        ++ (sentBy "a" overtakingRun).filterMap (relayed Relay.plainJson "10000")) :=
  (relayed_exactly_once Relay.plainJson CallPairing.plainUuid callRun overtakingRun "u" "10000"
    "a" "b" ⟨by decide, ⟨by decide +kernel, by decide +kernel⟩, "10001", by decide +kernel,
      by decide +kernel⟩ (by simp [overtakingRun])).1

end RelayLink
