/-
Rotation over BB84 rounds (`_rotate_keys` of `server/utils/av.py`).

A turn of the thread's loop is taken apart into the round that `generate_key` ran and what
the loop does with its result, so that the loop can be fed any sequence of outcomes.

* `rotateKeys_eq_feedRound` — a turn of the loop is a round fed to it;
* `feedRound_cases` — an aborted round reports and publishes nothing, an accepted one
  publishes its key under the counter and reports;
* `published_key_of_rounds` — the published pair and the events after any outcomes.
-/
import QuantumVideoChat.KeyRotation

open Protocol Encryption

/-! ### Outcomes -/

/-- What a round hands back: unless it was aborted there is a key. -/
structure RoundOutcome where
  result : BB84RoundResult
  key_of_accepted : result.aborted = false → ∃ key, result.key = some key

/-- Every round of the protocol is an outcome. -/
def Protocol.Round.outcome (R : Round) : RoundOutcome where
  result := R.runRound
  key_of_accepted := fun h => by
    obtain ⟨-, -, -, key, -, hr⟩ := R.runRound_of_not_aborted h
    exact ⟨key, by rw [hr]; rfl⟩

/-- The first argument of `_qber_event_callback`. -/
def QberEvent.eventType : QberEvent → String
  | .intrusionDetected .. => "intrusion_detected"
  | .keyRedistributed .. => "key_redistributed"

/-- The event a result gives rise to. -/
def Protocol.BB84RoundResult.event (result : BB84RoundResult) : QberEvent :=
  if result.aborted = true then
    .intrusionDetected result.qber result.abortReason result.siftedBits
  else
    .keyRedistributed result.qber result.siftedBits result.finalKeyBits result.durationSeconds

theorem Protocol.BB84RoundResult.eventType_event (result : BB84RoundResult) :
    result.event.eventType
      = if result.aborted = true then "intrusion_detected" else "key_redistributed" := by
  rw [event]
  split_ifs <;> rfl

/-- `generate_key` of a BB84 generator whose round returned `result`. -/
def Encryption.KeyGenerator.afterRound (keyLength : ℕ) (result : BB84RoundResult) :
    KeyGenerator → KeyGenerator
  | .bb84 G => .bb84 ({ G with config := G.roundConfig keyLength }.record result)
  | G => G

/-! ### The loop, fed with outcomes -/

namespace AV

/-- One turn of the loop in `_rotate_keys` whose round returned `result`. -/
def feedRound (keyLength : ℕ) (result : BB84RoundResult) (av : AV) : AV :=
  if av.rotating = false then av
  else
    let keyGen := av.keyGen.afterRound keyLength result
    let av := { av with keyGen := keyGen }
    match keyGen.abortedRound with
    | some result =>
      av.emit (.intrusionDetected result.qber result.abortReason result.siftedBits)
    | none =>
      let av := { av.publish (av.keyIdx, keyGen.getKey) with keyIdx := av.keyIdx + 1 }
      match keyGen.lastRoundResult with
      | some result =>
        av.emit (.keyRedistributed result.qber result.siftedBits result.finalKeyBits
          result.durationSeconds)
      | none => av

/-- With a BB84 generator a turn of the loop is its round, fed to the loop. -/
theorem rotateKeys_eq_feedRound (math : MathFns) (keyLength : ℕ) (draws : KeyDraws) {av : AV}
    {G : BB84KeyGenerator} (hgen : av.keyGen = .bb84 G) :
    av.rotateKeys math keyLength draws
      = av.feedRound keyLength (G.round math keyLength draws.round).outcome.result := by
  rw [rotateKeys, feedRound, hgen]
  rfl

/-- What a result does to the four places the loop works on. -/
theorem feedRound_cases (keyLength : ℕ) {av : AV} {G : BB84KeyGenerator}
    (hgen : av.keyGen = .bb84 G) (hrot : av.rotating = true) (result : BB84RoundResult) :
    (av.feedRound keyLength result).keyGen
        = .bb84 ({ G with config := G.roundConfig keyLength }.record result) ∧
    (av.feedRound keyLength result).rotating = true ∧
    (av.feedRound keyLength result).events
        = av.events.map (fun events => events ++ [result.event]) ∧
    ((result.aborted = true ∧ (av.feedRound keyLength result).key = av.key ∧
        (av.feedRound keyLength result).keyIdx = av.keyIdx) ∨
      (result.aborted = false ∧ (av.feedRound keyLength result).keyIdx = av.keyIdx + 1 ∧
        ∀ key, result.key = some key →
          (av.feedRound keyLength result).key = (av.keyIdx, key))) := by
  set G' := { G with config := G.roundConfig keyLength }.record result with hG'
  have hlast : (KeyGenerator.bb84 G').lastRoundResult = some result :=
    BB84KeyGenerator.record_lastRoundResult _ result
  have habort : (KeyGenerator.bb84 G').abortedRound
      = if result.aborted = true then some result else none :=
    KeyGenerator.abortedRound_record _ result
  have hafter : av.keyGen.afterRound keyLength result = .bb84 G' := by
    rw [hgen]
    rfl
  rw [feedRound, if_neg (by simp [hrot]), hafter]
  cases hres : result.aborted with
  | true =>
    rw [if_pos hres] at habort
    simp only [habort]
    exact ⟨rfl, hrot, by rw [BB84RoundResult.event, if_pos hres]; rfl, .inl ⟨trivial, rfl, rfl⟩⟩
  | false =>
    rw [if_neg (by simp [hres])] at habort
    simp only [habort, hlast]
    refine ⟨rfl, hrot, ?_, .inr ⟨trivial, rfl, fun key hkey => ?_⟩⟩
    · rw [BB84RoundResult.event, if_neg (by simp [hres])]
      rfl
    · -- the generator holds the key of the round it has just recorded
      show (av.keyIdx, G'.getKey) = _
      rw [BB84KeyGenerator.getKey, hG', BB84KeyGenerator.record_accepted _ hres hkey]

/-- What happens to `AV` while the thread runs. -/
inductive RotationAction
  | setQberEventCallback
  | round (outcome : RoundOutcome)

def feed (keyLength : ℕ) : AV → RotationAction → AV
  | av, .setQberEventCallback => av.setQberEventCallback
  | av, .round outcome => av.feedRound keyLength outcome.result

/-- The results among the actions, in order. -/
def roundResults (actions : List RotationAction) : List BB84RoundResult :=
  actions.filterMap fun
    | .setQberEventCallback => none
    | .round outcome => some outcome.result

theorem roundResults_concat_setQberEventCallback (actions : List RotationAction) :
    roundResults (actions ++ [.setQberEventCallback]) = roundResults actions := by
  simp [roundResults]

theorem roundResults_concat_round (actions : List RotationAction) (outcome : RoundOutcome) :
    roundResults (actions ++ [.round outcome]) = roundResults actions ++ [outcome.result] := by
  simp [roundResults]

/-- The four places after the results `results`, when the constructor had published
`firstKey`. -/
structure InStep (firstKey : ℕ × Bytes) (results : List BB84RoundResult) (av : AV) : Prop where
  bb84 : ∃ G, av.keyGen = .bb84 G
  rotating : av.rotating = true
  keyIdx_eq : av.keyIdx = (BB84KeyGenerator.accepted results).length
  key_none : BB84KeyGenerator.accepted results = [] → av.key = firstKey
  key_some : ∀ (k : ℕ) (r : BB84RoundResult),
    (BB84KeyGenerator.accepted results).length = k + 1 →
    (BB84KeyGenerator.accepted results)[k]? = some r →
      ∃ key, r.key = some key ∧ av.key = (k, key)

theorem inStep_feedRound (keyLength : ℕ) {firstKey : ℕ × Bytes}
    {results : List BB84RoundResult} {av : AV} (h : InStep firstKey results av)
    (outcome : RoundOutcome) :
    InStep firstKey (results ++ [outcome.result]) (av.feedRound keyLength outcome.result) := by
  obtain ⟨⟨G, hgen⟩, hrot, hidx, hnone, hsome⟩ := h
  obtain ⟨hgen', hrot', -, ⟨habort, hkey', hidx'⟩ | ⟨hok, hidx', hkey'⟩⟩ :=
    feedRound_cases keyLength hgen hrot outcome.result
  · -- nothing is accepted, published or counted
    rw [← hkey'] at hnone hsome
    rw [← BB84KeyGenerator.accepted_append_aborted results habort] at hidx hnone hsome
    exact ⟨⟨_, hgen'⟩, hrot', hidx'.trans hidx, hnone, hsome⟩
  · obtain ⟨key, hkey⟩ := outcome.key_of_accepted hok
    have hacc := BB84KeyGenerator.accepted_append_accepted results hok
    refine ⟨⟨_, hgen'⟩, hrot', ?_, fun hnil => ?_, fun k r hlen hr => ?_⟩
    · rw [hidx', hidx, hacc, List.length_append, List.length_singleton]
    · exact absurd (hacc.symm.trans hnil) (by simp)
    · -- the round just accepted is the last one, and the counter was one behind
      rw [hacc, List.length_append, List.length_singleton, Nat.add_right_cancel_iff] at hlen
      rw [hacc, ← hlen, List.getElem?_concat_length, Option.some_inj] at hr
      subst hr
      exact ⟨key, hkey, by rw [hkey' key hkey, hidx, hlen]⟩

theorem inStep_setQberEventCallback {firstKey : ℕ × Bytes} {results : List BB84RoundResult}
    {av : AV} (h : InStep firstKey results av) :
    InStep firstKey results av.setQberEventCallback :=
  ⟨h.bb84, h.rotating, h.keyIdx_eq, h.key_none, h.key_some⟩

theorem inStep_foldl (keyLength : ℕ) {firstKey : ℕ × Bytes} {av : AV}
    (h : InStep firstKey [] av) (actions : List RotationAction) :
    InStep firstKey (roundResults actions) (actions.foldl (feed keyLength) av) := by
  induction actions using List.reverseRecOn with
  | nil => exact h
  | append_singleton actions a ih =>
    rw [List.foldl_append]
    cases a with
    | setQberEventCallback =>
      rw [roundResults_concat_setQberEventCallback]
      exact inStep_setQberEventCallback ih
    | round outcome =>
      rw [roundResults_concat_round]
      exact inStep_feedRound keyLength ih outcome

/-- Rounds only, from any moment on: the callback hears of each of them, in order. -/
theorem events_foldl (keyLength : ℕ) {firstKey : ℕ × Bytes} {results : List BB84RoundResult}
    {av : AV} (h : InStep firstKey results av) (outcomes : List RoundOutcome) :
    ((outcomes.map RotationAction.round).foldl (feed keyLength) av).events
      = av.events.map fun events => events ++ outcomes.map fun o => o.result.event := by
  induction outcomes generalizing results av with
  | nil => simp
  | cons outcome outcomes ih =>
    obtain ⟨G, hgen⟩ := h.bb84
    have hstep := (feedRound_cases keyLength hgen h.rotating outcome.result).2.2.1
    rw [List.map_cons, List.foldl_cons, feed, ih (inStep_feedRound keyLength h outcome), hstep,
      Option.map_map]
    simp [Function.comp_def]

/-- The constructor with a BB84 generator leaves the thread at its start. -/
theorem inStep_init {math : MathFns} {keyLength : ℕ} {content : Bytes} {draws : KeyDraws}
    {av : AV} (hinit : init math content "BB84" keyLength draws = .ok av) :
    InStep av.key [] av := by
  obtain ⟨G, hcreate, -, hgen, -, hidx, hrot, -⟩ := init_eq_ok math hinit
  obtain rfl : KeyGenerator.bb84 {} = G := by
    simpa [KeyGenerator.createKeyGenerator] using hcreate
  exact ⟨⟨_, hgen⟩, hrot, hidx, fun _ => rfl, fun k r hlen =>
    absurd hlen (by simp [BB84KeyGenerator.accepted])⟩

/-- **Aborted rounds leave the published pair alone.** -/
theorem published_key_of_rounds (math : MathFns) (keyLength : ℕ) (content : Bytes)
    (draws : KeyDraws) (av : AV)
    (hinit : init math content "BB84" keyLength draws = .ok av)
    (actions : List RotationAction) :
    -- a turn of the loop feeds it the outcome of the generator's round
    (∃ G, (actions.foldl (feed keyLength) av).keyGen = .bb84 G ∧ ∀ draws,
      (actions.foldl (feed keyLength) av).rotateKeys math keyLength draws
        = feed keyLength (actions.foldl (feed keyLength) av)
            (.round (G.round math keyLength draws.round).outcome)) ∧
    -- the pair is the index and the key of the last accepted round
    (∀ (k : ℕ) (r : BB84RoundResult),
      (BB84KeyGenerator.accepted (roundResults actions)).length = k + 1 →
      (BB84KeyGenerator.accepted (roundResults actions))[k]? = some r →
        ∃ key, r.key = some key ∧ (actions.foldl (feed keyLength) av).key = (k, key)) ∧
    (BB84KeyGenerator.accepted (roundResults actions) = [] →
      (actions.foldl (feed keyLength) av).key = av.key) ∧
    -- one aborted round changes neither the index nor the key
    (∀ outcome : RoundOutcome, outcome.result.aborted = true →
      (feed keyLength (actions.foldl (feed keyLength) av) (.round outcome)).key
          = (actions.foldl (feed keyLength) av).key ∧
        (feed keyLength (actions.foldl (feed keyLength) av) (.round outcome)).keyIdx
          = (actions.foldl (feed keyLength) av).keyIdx) ∧
    -- from its registration on the callback gets one event for each round, in order
    ∀ outcomes : List RoundOutcome,
      ((actions ++ RotationAction.setQberEventCallback :: outcomes.map .round).foldl
            (feed keyLength) av).events
          = some (outcomes.map fun o => o.result.event) ∧
        (outcomes.map fun o => o.result.event.eventType)
          = outcomes.map fun o =>
              if o.result.aborted = true then "intrusion_detected" else "key_redistributed" := by
  have h := inStep_foldl keyLength (inStep_init hinit) actions
  obtain ⟨G, hgen⟩ := h.bb84
  refine ⟨⟨G, hgen, fun draws => rotateKeys_eq_feedRound math keyLength draws hgen⟩, h.key_some,
    h.key_none, fun outcome habort => ?_, fun outcomes => ⟨?_, ?_⟩⟩
  · rcases (feedRound_cases keyLength hgen h.rotating outcome.result).2.2.2 with
      ⟨-, hkey, hidx⟩ | ⟨hok, -⟩
    · exact ⟨hkey, hidx⟩
    · exact absurd (hok.symm.trans habort) (by simp)
  · rw [List.foldl_append, List.foldl_cons, feed,
      events_foldl keyLength (inStep_setQberEventCallback h)]
    rfl
  · exact List.map_congr_left fun o _ => o.result.eventType_event

/-- A round that found no photons. -/
def darkOutcome : RoundOutcome where
  result := quietRound.noPhotonsResult
  key_of_accepted := fun h => absurd h (by simp [Round.noPhotonsResult])

/-- A round that gave a key of one byte. -/
def oneByteOutcome : RoundOutcome where
  result := quietRound.keyResult [7]
  key_of_accepted := fun _ => ⟨[7], rfl⟩

/-- An accepted round between two aborted ones. -/
theorem published_key_of_three_rounds :
    ∃ av, init quietMath [] "BB84" 128 quietDraws = .ok av ∧
      ([RotationAction.round darkOutcome, .round oneByteOutcome, .round darkOutcome].foldl
        (feed 128) av).key = (0, [7]) := by
  refine ⟨_, rfl, ?_⟩
  obtain ⟨key, hkey, hpair⟩ := (published_key_of_rounds quietMath 128 [] quietDraws _ rfl
    [.round darkOutcome, .round oneByteOutcome, .round darkOutcome]).2.1 0
    oneByteOutcome.result rfl rfl
  obtain rfl : [7] = key := Option.some_inj.mp hkey
  exact hpair

end AV
