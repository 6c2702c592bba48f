/-
Publishing keys (`server/utils/av.py`): the constructor of `AV` and its rotation thread.

`AV.rotateKeys` is one turn of the thread's loop; it reads and writes `key` under the lock
and nobody else touches the generator, so a turn is one step.  `history` lists every value
`key` ever had.

* `rotateKeys_cases` — a turn publishes the generator's key under the thread's counter or
  leaves the published pair alone;
* `rotateKeys_bb84` — with BB84 it runs a round and publishes its key unless it was aborted;
* `published_key_lengths` — how long the published keys are, for every generator.
-/
import QuantumVideoChat.DeadTime
import QuantumVideoChat.HardwareKeyGenerator

open Protocol Encryption

/-! ### The generators as the rotation sees them -/

namespace Encryption.KeyGenerator

/-- `last_round_result`, when the round it belongs to was aborted. -/
def abortedRound (G : KeyGenerator) : Option BB84RoundResult :=
  G.lastRoundResult.filter fun result => result.aborted

/-- The constructor of `AV` hands the monitor to a BB84 generator. -/
def installMonitor : KeyGenerator → KeyGenerator
  | .bb84 G => .bb84 G.setMetricsCallback
  | G => G

/-- The bytes of a key after `generate_key(keyLength)`, where the kind of the generator
decides them: a BB84 key is as long as its round allows. -/
def keyBytes (keyLength : ℕ) : KeyGenerator → Option ℕ
  | .file _ => some (numBytes keyLength)
  | .random _ => some (numBytes keyLength)
  | .debug _ => some keyLength
  | .bb84 _ => none

theorem abortedRound_record (G : BB84KeyGenerator) (result : BB84RoundResult) :
    (KeyGenerator.bb84 (G.record result)).abortedRound
      = if result.aborted = true then some result else none := by
  rw [abortedRound, lastRoundResult, BB84KeyGenerator.record_lastRoundResult]
  cases h : result.aborted <;> simp [Option.filter, h]

end Encryption.KeyGenerator

theorem Encryption.FileKeyGenerator.length_key_of_generateKey (G : FileKeyGenerator)
    {keyLength : ℕ} (hk : keyLength ≠ 0) (hok : (G.generateKey keyLength).2 = none) :
    (G.generateKey keyLength).1.key.length = numBytes keyLength := by
  simp only [FileKeyGenerator.generateKey, requestedLength_of_ne_zero _ hk] at hok ⊢
  split_ifs at hok ⊢ with hshort hshort'
  · show (FileKeyGenerator.read G.content 0 (numBytes keyLength)).length = _
    rw [FileKeyGenerator.length_read] at hshort' ⊢
    omega
  · show (FileKeyGenerator.read G.content (G.file.getD 0) (numBytes keyLength)).length = _
    rw [FileKeyGenerator.length_read] at hshort ⊢
    omega

namespace Encryption.KeyGenerator

variable (math : MathFns) {keyLength : ℕ}

/-- A call that did not raise leaves a key of the kind's length. -/
theorem length_key_of_generateKey (hk : keyLength ≠ 0) (G : KeyGenerator) (draws : KeyDraws)
    (hok : (G.generateKey math keyLength draws).2 = none) {n : ℕ}
    (hn : G.keyBytes keyLength = some n) :
    (G.generateKey math keyLength draws).1.getKey.length = n := by
  cases G with
  | file G =>
    rw [← Option.some_inj.mp hn]
    exact G.length_key_of_generateKey hk hok
  | random G =>
    simp only [generateKey, RandomKeyGenerator.generateKey, requestedLength_of_ne_zero _ hk]
    rw [← Option.some_inj.mp hn]
    exact List.Vector.length_val _
  | debug G =>
    simp only [generateKey, DebugKeyGenerator.generateKey, if_pos hk]
    show ((List.range keyLength).map _).length = n
    rw [List.length_map, List.length_range, ← Option.some_inj.mp hn]
  | bb84 G => exact absurd hn (by simp [keyBytes])

/-- The kind of a generator never changes. -/
theorem keyBytes_generateKey (G : KeyGenerator) (draws : KeyDraws) :
    (G.generateKey math keyLength draws).1.keyBytes keyLength = G.keyBytes keyLength := by
  cases G <;> rfl

theorem keyBytes_installMonitor (G : KeyGenerator) :
    G.installMonitor.keyBytes keyLength = G.keyBytes keyLength := by
  cases G <;> rfl

end Encryption.KeyGenerator

/-! ### AV -/

/-- What `_qber_event_callback` is called with. -/
inductive QberEvent
  | intrusionDetected (qber : ℚ) (reason : Option AbortReason) (siftedBits : ℕ)
  | keyRedistributed (qber : ℚ) (siftedBits finalKeyBits : ℕ) (duration : ℚ)

/-- `keyIdx` is the local counter of the rotation thread, `rotating` says that the thread
still runs, `events` what the callback received once one is registered. -/
structure AV where
  keyGen : KeyGenerator
  key : ℕ × Bytes
  keyIdx : ℕ := 0
  rotating : Bool := true
  events : Option (List QberEvent) := none
  history : List (ℕ × Bytes)

namespace AV

/-- `AV.__init__`: the first pair is published with index 0 and whatever key is there. -/
def init (math : MathFns) (content : Bytes) (keygenName : String) (keyLength : ℕ)
    (draws : KeyDraws) : Except KeyGenError AV :=
  match KeyGenerator.createKeyGenerator content keygenName with
  | .error e => .error e
  | .ok keyGen =>
    match keyGen.generateKey math keyLength draws with
    | (_, some e) => .error e
    | (keyGen, none) =>
      -- whether the first round was aborted is not looked at
      .ok { keyGen := keyGen.installMonitor, key := (0, keyGen.getKey),
            history := [(0, keyGen.getKey)] }

/-- `self.key = pair`. -/
def publish (av : AV) (pair : ℕ × Bytes) : AV :=
  { av with key := pair, history := av.history ++ [pair] }

def emit (av : AV) (event : QberEvent) : AV :=
  { av with events := av.events.map fun events => events ++ [event] }

def setQberEventCallback (av : AV) : AV := { av with events := some [] }

/-- One turn of the loop in `_rotate_keys`. -/
def rotateKeys (math : MathFns) (keyLength : ℕ) (draws : KeyDraws) (av : AV) : AV :=
  if av.rotating = false then av
  else
    match av.keyGen.generateKey math keyLength draws with
    -- an exception ends the thread
    | (keyGen, some _) => { av with keyGen := keyGen, rotating := false }
    | (keyGen, none) =>
      let av := { av with keyGen := keyGen }
      match keyGen.abortedRound with
      -- an aborted round publishes nothing; the counter stays
      | some result =>
        av.emit (.intrusionDetected result.qber result.abortReason result.siftedBits)
      | none =>
        let av := { av.publish (av.keyIdx, keyGen.getKey) with keyIdx := av.keyIdx + 1 }
        match keyGen.lastRoundResult with
        | some result =>
          av.emit (.keyRedistributed result.qber result.siftedBits result.finalKeyBits
            result.durationSeconds)
        | none => av

inductive Action
  | setQberEventCallback
  | rotateKeys (draws : KeyDraws)

def step (math : MathFns) (keyLength : ℕ) : AV → Action → AV
  | av, .setQberEventCallback => av.setQberEventCallback
  | av, .rotateKeys draws => av.rotateKeys math keyLength draws

variable (math : MathFns) {keyLength : ℕ}

theorem init_eq_ok {content : Bytes} {keygenName : String} {draws : KeyDraws} {av : AV}
    (h : init math content keygenName keyLength draws = .ok av) :
    ∃ G, KeyGenerator.createKeyGenerator content keygenName = .ok G ∧
      (G.generateKey math keyLength draws).2 = none ∧
      av.keyGen = (G.generateKey math keyLength draws).1.installMonitor ∧
      av.key = (0, (G.generateKey math keyLength draws).1.getKey) ∧
      av.keyIdx = 0 ∧ av.rotating = true ∧ av.history = [av.key] := by
  rw [init] at h
  cases hG : KeyGenerator.createKeyGenerator content keygenName with
  | error e =>
    rw [hG] at h
    exact absurd h (by simp)
  | ok G =>
    rw [hG] at h
    rcases hcall : G.generateKey math keyLength draws with ⟨G', raised⟩
    cases raised with
    | some e => exact absurd h (by simp [hcall])
    | none =>
      simp only [hcall, Except.ok.injEq] at h
      subst h
      exact ⟨G, rfl, by rw [hcall], by rw [hcall], by rw [hcall], rfl, rfl, rfl⟩

/-- A turn publishes the generator's key under the counter, or leaves the pair alone. -/
theorem rotateKeys_cases (math : MathFns) (keyLength : ℕ) (draws : KeyDraws) (av : AV) :
    ((av.rotateKeys math keyLength draws).key = av.key ∧
      (av.rotateKeys math keyLength draws).keyIdx = av.keyIdx ∧
      (av.rotateKeys math keyLength draws).history = av.history ∧
      ((av.rotateKeys math keyLength draws).keyGen = av.keyGen ∨
        (av.rotateKeys math keyLength draws).keyGen
          = (av.keyGen.generateKey math keyLength draws).1)) ∨
    (av.rotating = true ∧ (av.keyGen.generateKey math keyLength draws).2 = none ∧
      (av.keyGen.generateKey math keyLength draws).1.abortedRound = none ∧
      (av.rotateKeys math keyLength draws).keyGen
        = (av.keyGen.generateKey math keyLength draws).1 ∧
      (av.rotateKeys math keyLength draws).key
        = (av.keyIdx, (av.keyGen.generateKey math keyLength draws).1.getKey) ∧
      (av.rotateKeys math keyLength draws).keyIdx = av.keyIdx + 1 ∧
      (av.rotateKeys math keyLength draws).rotating = true ∧
      (av.rotateKeys math keyLength draws).history
        = av.history ++ [(av.rotateKeys math keyLength draws).key]) := by
  cases hrot : av.rotating with
  | false =>
    rw [rotateKeys, if_pos hrot]
    exact .inl ⟨rfl, rfl, rfl, .inl rfl⟩
  | true =>
    rw [rotateKeys, if_neg (by simp [hrot])]
    rcases hcall : av.keyGen.generateKey math keyLength draws with ⟨G', raised⟩
    cases raised with
    | some e => exact .inl ⟨rfl, rfl, rfl, .inr rfl⟩
    | none =>
      cases habort : G'.abortedRound with
      | some result =>
        simp only [habort]
        exact .inl ⟨rfl, rfl, rfl, .inr rfl⟩
      | none =>
        right
        simp only [habort]
        cases G'.lastRoundResult <;>
          exact ⟨trivial, trivial, trivial, rfl, rfl, rfl, hrot, rfl⟩

theorem keyBytes_rotateKeys (draws : KeyDraws) (av : AV) :
    (av.rotateKeys math keyLength draws).keyGen.keyBytes keyLength
      = av.keyGen.keyBytes keyLength := by
  rcases rotateKeys_cases math keyLength draws av with
    ⟨-, -, -, hgen | hgen⟩ | ⟨-, -, -, hgen, -⟩ <;> rw [hgen]
  all_goals exact KeyGenerator.keyBytes_generateKey math av.keyGen draws

/-- The published keys have `n` bytes, and so will the next ones. -/
def PublishesBytes (keyLength n : ℕ) (av : AV) : Prop :=
  av.keyGen.keyBytes keyLength = some n ∧ ∀ pair ∈ av.history, pair.2.length = n

theorem publishesBytes_step (hk : keyLength ≠ 0) {n : ℕ} (av : AV) (a : Action)
    (h : PublishesBytes keyLength n av) :
    PublishesBytes keyLength n (step math keyLength av a) := by
  obtain ⟨hkind, hall⟩ := h
  cases a with
  | setQberEventCallback => exact ⟨hkind, hall⟩
  | rotateKeys draws =>
    refine ⟨(keyBytes_rotateKeys math draws av).trans hkind, fun pair hpair => ?_⟩
    rw [step] at hpair
    rcases rotateKeys_cases math keyLength draws av with
      ⟨-, -, hhist, -⟩ | ⟨-, hok, -, -, hkey, -, -, hhist⟩
    · rw [hhist] at hpair
      exact hall pair hpair
    · rw [hhist, List.mem_append, List.mem_singleton] at hpair
      rcases hpair with hpair | hpair
      · exact hall pair hpair
      · -- the pair just published holds the key that the generator made in this turn
        rw [hpair, hkey]
        exact KeyGenerator.length_key_of_generateKey math hk av.keyGen draws hok hkind

/-- Where the kind of the generator decides, every published key is of that length. -/
theorem length_of_mem_history (hk : keyLength ≠ 0) {content : Bytes} {keygenName : String}
    {draws : KeyDraws} {av : AV} (hinit : init math content keygenName keyLength draws = .ok av)
    {n : ℕ} (hn : av.keyGen.keyBytes keyLength = some n) (actions : List Action) :
    ∀ pair ∈ (actions.foldl (step math keyLength) av).history, pair.2.length = n := by
  refine (Transition.foldl_induction (I := PublishesBytes keyLength n) ⟨hn, ?_⟩
    (fun av a h => publishesBytes_step math hk av a h) actions).2
  obtain ⟨G, -, hok, hgen, hkey, -, -, hhist⟩ := init_eq_ok math hinit
  intro pair hpair
  rw [hgen, KeyGenerator.keyBytes_installMonitor, KeyGenerator.keyBytes_generateKey] at hn
  rw [hhist, List.mem_singleton] at hpair
  rw [hpair, hkey]
  exact KeyGenerator.length_key_of_generateKey math hk G draws hok hn

/-! ### The rounds behind BB84 keys -/

/-- The round of a call `generate_key(keyLength)` on the BB84 generator of an `AV`, which has
the default configuration and no Eve. -/
def bb84Round (math : MathFns) (keyLength : ℕ) (draws : KeyDraws) : Round :=
  BB84KeyGenerator.round math {} keyLength draws.round

/-- The rounds of the thread's turns that were not aborted. -/
def acceptedTurns (math : MathFns) (keyLength : ℕ) (actions : List Action) : List Round :=
  (actions.filterMap fun
    | .setQberEventCallback => none
    | .rotateKeys draws => some (bb84Round math keyLength draws)).filter
      fun R => !R.runRound.aborted

/-- The rounds whose keys are published: the constructor's, whatever came of it, and the
accepted ones of the thread. -/
def publishedRounds (math : MathFns) (keyLength : ℕ) (draws : KeyDraws)
    (actions : List Action) : List Round :=
  bb84Round math keyLength draws :: acceptedTurns math keyLength actions

/-- A BB84 generator of this `AV` runs `bb84Round`s. -/
structure Standard (keyLength : ℕ) (G : BB84KeyGenerator) : Prop where
  config_eq : G.roundConfig keyLength = BB84KeyGenerator.roundConfig {} keyLength
  noEve : G.eavesdropper = none

theorem Standard.round_eq {G : BB84KeyGenerator} (h : Standard keyLength G) (draws : KeyDraws) :
    G.round math keyLength draws.round = bb84Round math keyLength draws := by
  rw [bb84Round, BB84KeyGenerator.round, BB84KeyGenerator.round, h.config_eq, h.noEve]

theorem Standard.generateKey {G : BB84KeyGenerator} (h : Standard keyLength G)
    (draws : RoundDraws) : Standard keyLength (G.generateKey math keyLength draws) := by
  refine ⟨?_, by rw [BB84KeyGenerator.generateKey_eavesdropper, h.noEve]⟩
  rw [← h.config_eq, BB84KeyGenerator.roundConfig, BB84KeyGenerator.generateKey_config,
    BB84KeyGenerator.roundConfig]
  split_ifs <;> rfl

/-- A turn with a BB84 generator runs a round and publishes its key unless it was aborted. -/
theorem rotateKeys_bb84 (draws : KeyDraws) {av : AV} {G : BB84KeyGenerator}
    (hgen : av.keyGen = .bb84 G) (hrot : av.rotating = true) :
    (av.rotateKeys math keyLength draws).keyGen
        = .bb84 (G.generateKey math keyLength draws.round) ∧
    (av.rotateKeys math keyLength draws).rotating = true ∧
    (((G.round math keyLength draws.round).runRound.aborted = true ∧
        (av.rotateKeys math keyLength draws).history = av.history) ∨
      ((G.round math keyLength draws.round).runRound.aborted = false ∧
        (av.rotateKeys math keyLength draws).history = av.history
          ++ [(av.keyIdx, (G.generateKey math keyLength draws.round).getKey)])) := by
  have habort := KeyGenerator.abortedRound_record { G with config := G.roundConfig keyLength }
    (G.round math keyLength draws.round).runRound
  rw [← BB84KeyGenerator.generateKey] at habort
  rw [rotateKeys, if_neg (by simp [hrot]), hgen, KeyGenerator.generateKey]
  cases haborted : (G.round math keyLength draws.round).runRound.aborted with
  | true =>
    rw [if_pos haborted] at habort
    simp only [habort]
    exact ⟨rfl, hrot, .inl ⟨trivial, rfl⟩⟩
  | false =>
    rw [if_neg (by simp [haborted])] at habort
    simp only [habort]
    cases (KeyGenerator.bb84 (G.generateKey math keyLength draws.round)).lastRoundResult <;>
      exact ⟨rfl, hrot, .inr ⟨trivial, rfl⟩⟩

/-- The pair carries the key of the round, if the round was accepted. -/
def Carries (R : Round) (pair : ℕ × Bytes) : Prop :=
  R.runRound.aborted = false → R.runRound.key = some pair.2

theorem carries_generateKey {G : BB84KeyGenerator} (h : Standard keyLength G)
    (draws : KeyDraws) (idx : ℕ) :
    Carries (bb84Round math keyLength draws)
      (idx, (G.generateKey math keyLength draws.round).getKey) := by
  intro hok
  obtain ⟨-, -, -, key, -, hr⟩ := Round.runRound_of_not_aborted _ hok
  have hkey : (bb84Round math keyLength draws).runRound.key = some key := by rw [hr]; rfl
  rw [hkey]
  rw [← h.round_eq math draws] at hok hkey
  exact congrArg some (BB84KeyGenerator.record_accepted _ hok hkey).symm

/-- With BB84 the thread runs on, and the history lines up with the rounds `rounds`. -/
structure LinesUp (keyLength : ℕ) (rounds : List Round) (av : AV) : Prop where
  standard : ∃ G, av.keyGen = .bb84 G ∧ Standard keyLength G
  rotating : av.rotating = true
  carried : List.Forall₂ Carries rounds av.history

theorem linesUp_step {rounds : List Round} {av : AV} (h : LinesUp keyLength rounds av)
    (a : Action) :
    LinesUp keyLength (rounds ++ acceptedTurns math keyLength [a])
      (step math keyLength av a) := by
  obtain ⟨⟨G, hgen, hG⟩, hrot, hcarried⟩ := h
  cases a with
  | setQberEventCallback =>
    refine ⟨⟨G, hgen, hG⟩, hrot, ?_⟩
    show List.Forall₂ Carries (rounds ++ []) av.history
    rwa [List.append_nil]
  | rotateKeys draws =>
    obtain ⟨hgen', hrot', hhist⟩ := @rotateKeys_bb84 math keyLength draws av G hgen hrot
    rw [hG.round_eq] at hhist
    refine ⟨⟨_, hgen', hG.generateKey math draws.round⟩, hrot', ?_⟩
    rw [step]
    rcases hhist with ⟨haborted, hhist⟩ | ⟨hok, hhist⟩
    · rw [hhist]
      simpa [acceptedTurns, haborted] using hcarried
    · rw [hhist]
      have hturn : acceptedTurns math keyLength [.rotateKeys draws]
          = [bb84Round math keyLength draws] := by
        simp [acceptedTurns, hok]
      rw [hturn]
      exact List.rel_append hcarried (.cons (carries_generateKey math hG draws _) .nil)

theorem linesUp_foldl {rounds : List Round} {av : AV} (h : LinesUp keyLength rounds av)
    (actions : List Action) :
    LinesUp keyLength (rounds ++ acceptedTurns math keyLength actions)
      (actions.foldl (step math keyLength) av) := by
  induction actions generalizing rounds av with
  | nil => simpa [acceptedTurns] using h
  | cons a actions ih =>
    have hsplit : acceptedTurns math keyLength (a :: actions)
        = acceptedTurns math keyLength [a] ++ acceptedTurns math keyLength actions := by
      rw [acceptedTurns, acceptedTurns, acceptedTurns, ← List.filter_append,
        ← List.filterMap_append]
      rfl
    rw [hsplit, ← List.append_assoc]
    exact ih (linesUp_step math h a)

/-- The history of a run with BB84, round by round. -/
theorem linesUp_run {content : Bytes} {draws : KeyDraws} {av : AV}
    (hinit : init math content "BB84" keyLength draws = .ok av) (actions : List Action) :
    LinesUp keyLength (publishedRounds math keyLength draws actions)
      (actions.foldl (step math keyLength) av) := by
  obtain ⟨G, hcreate, -, hgen, hkey, -, hrot, hhist⟩ := init_eq_ok math hinit
  obtain rfl : KeyGenerator.bb84 {} = G := by
    simpa [KeyGenerator.createKeyGenerator] using hcreate
  have hG : Standard keyLength {} := ⟨rfl, rfl⟩
  have hstart : LinesUp keyLength [bb84Round math keyLength draws] av := by
    obtain ⟨hconfig, heve⟩ := hG.generateKey math draws.round
    refine ⟨⟨_, hgen, hconfig, heve⟩, hrot, ?_⟩
    rw [hhist, hkey]
    exact .cons (carries_generateKey math hG draws 0) .nil
  exact linesUp_foldl math hstart actions

theorem not_aborted_of_mem_acceptedTurns {actions : List Action} {R : Round}
    (h : R ∈ acceptedTurns math keyLength actions) : R.runRound.aborted = false := by
  simpa using (List.mem_filter.mp h).2

theorem target_of_mem_publishedRounds (hk : keyLength ≠ 0) {draws : KeyDraws}
    {actions : List Action} {R : Round}
    (h : R ∈ publishedRounds math keyLength draws actions) :
    R.config.targetKeyLengthBits = keyLength := by
  have htarget : ∀ draws, (bb84Round math keyLength draws).config.targetKeyLengthBits
      = keyLength := fun draws => by
    rw [bb84Round, BB84KeyGenerator.round, BB84KeyGenerator.roundConfig, if_pos hk]
  rcases List.mem_cons.mp h with rfl | h
  · exact htarget draws
  · obtain ⟨a, -, ha⟩ := List.mem_filterMap.mp (List.mem_filter.mp h).1
    cases a with
    | setQberEventCallback => exact absurd ha (by simp)
    | rotateKeys draws => rw [← Option.some_inj.mp ha, htarget draws]

/-- `AES.new(key, ..)` takes keys of 16, 24 and 32 bytes. -/
def AcceptedByAES (key : Bytes) : Prop := key.length ∈ [16, 24, 32]

instance (key : Bytes) : Decidable (AcceptedByAES key) :=
  inferInstanceAs (Decidable (key.length ∈ [16, 24, 32]))

theorem length_eq_div_iff (hdvd : 8 ∣ keyLength) {bits : ℤ} (hbits : 0 < bits) :
    ((min bits keyLength).toNat + 7) / 8 = keyLength / 8 ↔ (keyLength : ℤ) - 8 < bits := by
  omega

/-- **The lengths of the published keys.**  With BB84 pair `k` belongs to published round
`k`; of an aborted first round nothing is said. -/
theorem published_key_lengths (hk : keyLength ≠ 0) (hdvd : 8 ∣ keyLength) (content : Bytes)
    (keygenName : String) (draws : KeyDraws) (av : AV)
    (hinit : init math content keygenName keyLength draws = .ok av) (actions : List Action)
    (k : ℕ) (pair : ℕ × Bytes)
    (hpair : (actions.foldl (step math keyLength) av).history[k]? = some pair) :
    (keygenName = "FILE" ∨ keygenName = "RANDOM" →
      pair.2.length = keyLength / 8 ∧
        (AcceptedByAES pair.2 ↔ keyLength = 128 ∨ keyLength = 192 ∨ keyLength = 256)) ∧
    (keygenName = "DEBUG" →
      pair.2.length = keyLength ∧
        (AcceptedByAES pair.2 ↔ keyLength = 16 ∨ keyLength = 24 ∨ keyLength = 32)) ∧
    (keygenName = "BB84" →
      ∃ R, (publishedRounds math keyLength draws actions)[k]? = some R ∧
        (0 < k → R.runRound.aborted = false) ∧
        (R.runRound.aborted = false →
          R.runRound.key = some pair.2 ∧ 1 ≤ pair.2.length ∧ pair.2.length ≤ keyLength / 8 ∧
            (pair.2.length = keyLength / 8 ↔ (keyLength : ℤ) - 8 < R.secureBits))) := by
  have hlength := fun n hn =>
    length_of_mem_history (n := n) math hk hinit hn actions pair (List.mem_of_getElem? hpair)
  obtain ⟨G, hcreate, -, hgen, -⟩ := init_eq_ok math hinit
  rw [hgen, KeyGenerator.keyBytes_installMonitor, KeyGenerator.keyBytes_generateKey] at hlength
  have haes : ∀ n : ℕ, pair.2.length = n → (AcceptedByAES pair.2 ↔ n = 16 ∨ n = 24 ∨ n = 32) := by
    intro n hn
    simp [AcceptedByAES, hn]
  refine ⟨fun hname => ?_, fun hname => ?_, fun hname => ?_⟩
  · have hlen : pair.2.length = keyLength / 8 := by
      rw [← numBytes_of_dvd hdvd]
      rcases hname with rfl | rfl
      · obtain rfl : KeyGenerator.file { content := content } = G := by
          simpa [KeyGenerator.createKeyGenerator] using hcreate
        exact hlength _ rfl
      · obtain rfl : KeyGenerator.random {} = G := by
          simpa [KeyGenerator.createKeyGenerator] using hcreate
        exact hlength _ rfl
    refine ⟨hlen, (haes _ hlen).trans ?_⟩
    omega
  · subst hname
    obtain rfl : KeyGenerator.debug {} = G := by
      simpa [KeyGenerator.createKeyGenerator] using hcreate
    exact ⟨hlength _ rfl, haes _ (hlength _ rfl)⟩
  · subst hname
    obtain ⟨hlen, hcarries⟩ :=
      List.forall₂_iff_get.mp (linesUp_run math hinit actions).carried
    obtain ⟨hlt, hget⟩ := List.getElem?_eq_some_iff.mp hpair
    have hlt' : k < (publishedRounds math keyLength draws actions).length := hlen ▸ hlt
    refine ⟨_, List.getElem?_eq_getElem hlt', fun hpos => ?_, fun hok => ?_⟩
    · -- behind the constructor's round come accepted ones only
      obtain ⟨j, rfl⟩ := Nat.exists_eq_succ_of_ne_zero hpos.ne'
      exact not_aborted_of_mem_acceptedTurns math (List.getElem_mem _)
    · set R := (publishedRounds math keyLength draws actions)[k] with hR
      have hkey : R.runRound.key = some pair.2 := hget ▸ hcarries k hlt' hlt hok
      have htarget : R.config.targetKeyLengthBits = keyLength :=
        target_of_mem_publishedRounds math hk (List.getElem_mem hlt')
      have hpos : 0 < R.config.targetKeyLengthBits := by
        rw [htarget]
        exact_mod_cast Nat.pos_of_ne_zero hk
      obtain ⟨hbits, hlen⟩ := R.length_key_of_not_aborted hpos hok hkey
      rw [htarget] at hlen
      refine ⟨hkey, ?_, ?_, ?_⟩
      · omega
      · omega
      · rw [hlen]
        exact length_eq_div_iff hdvd hbits

/-- Nothing is drawn; the random bytes are zeros. -/
def quietDraws : KeyDraws := ⟨fun n => List.Vector.replicate n 0, lastPulseDraws⟩

/-- The draws of the round that attains the bound of the dead time. -/
def busyDraws : KeyDraws := { quietDraws with round := busyRound.draws }

theorem publishedRounds_busyDraws :
    publishedRounds degreeMath 128 quietDraws [.setQberEventCallback, .rotateKeys busyDraws]
      = [bb84Round degreeMath 128 quietDraws, busyRound] := by
  have hround : bb84Round degreeMath 128 busyDraws = busyRound := rfl
  simp [publishedRounds, acceptedTurns, hround, busyRound_runRound, Round.keyResult]

/-- The thread's first turn publishes two bytes, where 16 are asked for. -/
theorem published_key_lengths_bb84 :
    ∃ av, init degreeMath [] "BB84" 128 quietDraws = .ok av ∧
      ∃ pair, ([Action.setQberEventCallback, .rotateKeys busyDraws].foldl
          (step degreeMath 128) av).history[1]? = some pair ∧
        pair.2 = [0, 0] ∧ 1 ≤ pair.2.length ∧ pair.2.length ≤ 128 / 8 := by
  obtain ⟨av, hinit⟩ : ∃ av, init degreeMath [] "BB84" 128 quietDraws = .ok av := ⟨_, rfl⟩
  refine ⟨av, hinit, ?_⟩
  have hlen := (linesUp_run degreeMath hinit
    [.setQberEventCallback, .rotateKeys busyDraws]).carried.length_eq
  rw [publishedRounds_busyDraws] at hlen
  have hpair := List.getElem?_eq_getElem (Nat.lt_of_lt_of_eq (by decide : 1 < 2) hlen)
  obtain ⟨R, hR, -, hkey⟩ := (published_key_lengths degreeMath (by decide) (by decide) [] "BB84"
    quietDraws av hinit [.setQberEventCallback, .rotateKeys busyDraws] 1 _ hpair).2.2 rfl
  rw [publishedRounds_busyDraws] at hR
  obtain rfl : busyRound = R := Option.some_inj.mp hR
  rw [busyRound_runRound] at hkey
  obtain ⟨hkey, hle, hle', -⟩ := hkey rfl
  exact ⟨_, hpair, (Option.some_inj.mp hkey).symm, hle, hle'⟩

/-- With DEBUG and 128 bits the constructor publishes 128 bytes, which AES refuses. -/
theorem debug_key_refused :
    ∃ av, init quietMath [] "DEBUG" 128 quietDraws = .ok av ∧
      av.key.2.length ≠ 128 / 8 ∧ ¬ AcceptedByAES av.key.2 :=
  ⟨_, rfl, by decide +kernel, by decide +kernel⟩

end AV
