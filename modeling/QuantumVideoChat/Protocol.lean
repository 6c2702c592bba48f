/-
The BB84 round (`shared/bb84/protocol.py`, `BB84Protocol.run_round`).

A `Round` is one call: the configuration, the eavesdropper (or none) and every answer of
the random generators.  Its stages (`events`, `sifted`, `estimate`, `correctedBits`, …)
are functions of the `Round`, and `runRound` chooses among the five exits.

* `mem_survivors` — what sifting keeps, with Alice's bit, Bob's bit and the pulse index;
* `runRound_cases` — the five exits with their conditions;
* `runRound_coherent` — the fields of the result agree with each other at every exit.
-/
import QuantumVideoChat.BitUtils
import QuantumVideoChat.Cascade
import QuantumVideoChat.PhysicalLayer

namespace Protocol

open PhysicalLayer Cascade BitUtils

structure BB84ProtocolConfig where
  numRawBits : ℕ := 4096
  qberSampleFraction : ℚ := 1 / 10
  qberThreshold : ℚ := 11 / 100
  targetKeyLengthBits : ℤ := 128
  channelParams : ChannelParameters := {}

structure SiftedKeyResult where
  aliceSiftedBits : List Bool
  bobSiftedBits : List Bool
  matchingIndices : List ℕ
  rawKeyRate : ℚ
  detectionRate : ℚ

structure QBEREstimate where
  qber : ℚ
  sampleSize : ℕ
  errorsFound : ℕ
  isSecure : Bool

/-- The `abort_reason` texts; the third one quotes the estimate and the threshold. -/
inductive AbortReason
  | noPhotons
  | insufficientSifted
  | qberExceeds (qber threshold : ℚ)
  | insufficientAmplified
  deriving DecidableEq

/-- `fixed4` is the format `.4f`, `repr` the default format of a float. -/
def AbortReason.text (fixed4 repr : ℚ → String) : AbortReason → String
  | .noPhotons => "No photons detected"
  | .insufficientSifted => "Insufficient sifted bits"
  | .qberExceeds qber threshold =>
    "QBER " ++ fixed4 qber ++ " exceeds threshold " ++ repr threshold
  | .insufficientAmplified => "Insufficient bits after privacy amplification"

structure BB84RoundResult where
  key : Option Bytes
  qber : ℚ
  isSecure : Bool
  rawBitsGenerated : ℕ
  siftedBits : ℕ
  finalKeyBits : ℕ
  detectionEvents : ℕ
  darkCountFraction : ℚ
  multiPhotonFraction : ℚ
  aborted : Bool
  abortReason : Option AbortReason
  durationSeconds : ℚ

structure EavesdropperSimulator where
  interceptionRate : ℚ := 1

/-- `EavesdropperSimulator.intercept_resend`, with the two drawn bits. -/
def interceptResend (basisDraw bitDraw : Bool) (bit : Bool) (aliceBasis : Basis) :
    Bool × Basis :=
  let eveBasis := Basis.ofBit basisDraw
  let eveBit := if eveBasis = aliceBasis then bit else bitDraw
  (eveBit, eveBasis)

/-- Every answer of the random generators in one round, and the clock. -/
structure RoundDraws where
  -- `integers(0, 2, size=n)` for Alice's bits and bases and for Bob's bases
  aliceBit : ℕ → Bool
  aliceBasis : ℕ → Bool
  bobBasis : ℕ → Bool
  -- `random() < interception_rate` and Eve's own generator, by pulse
  intercept : ℕ → UnitDraw
  eveBasis : ℕ → Bool
  eveBit : ℕ → Bool
  pulse : ℕ → PulseDraws
  permutation : PassDraws
  toeplitz : BitDraw
  duration : ℚ

/-! ### Sifting -/

/-- The bit of a click. -/
def eventBit (event : DetectionEvent) (h : event.detected = true) : Bool :=
  event.measuredBit.get (event.detected_eq ▸ h)

theorem measuredBit_eq_some (event : DetectionEvent) (h : event.detected = true) :
    event.measuredBit = some (eventBit event h) :=
  (Option.some_get _).symm

/-- The loop of `_sift_keys`: Alice's bits, Bob's bits and the matching indices. -/
def siftLoop (aliceBits : List Bool) (aliceBases bobBases : List Basis)
    (events : List DetectionEvent) : List Bool × List Bool × List ℕ :=
  events.zipIdx.foldl
    (fun (aliceSifted, bobSifted, matchingIndices) (event, i) =>
      if h : event.detected = true ∧
          aliceBases.getD i .rectilinear = bobBases.getD i .rectilinear then
        (aliceSifted ++ [aliceBits.getD i false], bobSifted ++ [eventBit event h.1],
          matchingIndices ++ [i])
      else (aliceSifted, bobSifted, matchingIndices))
    ([], [], [])

/-- `_sift_keys`. -/
def siftKeys (aliceBits : List Bool) (aliceBases bobBases : List Basis)
    (events : List DetectionEvent) : SiftedKeyResult :=
  let (aliceSifted, bobSifted, matchingIndices) :=
    siftLoop aliceBits aliceBases bobBases events
  let total := events.length
  let detected := events.countP fun e => e.detected
  { aliceSiftedBits := aliceSifted
    bobSiftedBits := bobSifted
    matchingIndices := matchingIndices
    rawKeyRate := if total > 0 then aliceSifted.length / total else 0
    detectionRate := if total > 0 then detected / total else 0 }

section Sift

variable (aliceBits : List Bool) (aliceBases bobBases : List Basis)

/-- What the loop appends for one event. -/
def survivor : DetectionEvent × ℕ → Option (Bool × Bool × ℕ) := fun (event, i) =>
  if h : event.detected = true ∧
      aliceBases.getD i .rectilinear = bobBases.getD i .rectilinear then
    some (aliceBits.getD i false, eventBit event h.1, i)
  else none

/-- The surviving triples in pulse order: Alice's bit, Bob's bit, the index. -/
def survivors (events : List DetectionEvent) : List (Bool × Bool × ℕ) :=
  events.zipIdx.filterMap (survivor aliceBits aliceBases bobBases)

theorem siftLoop_eq (events : List DetectionEvent) :
    siftLoop aliceBits aliceBases bobBases events
      = ((survivors aliceBits aliceBases bobBases events).map (·.1),
        (survivors aliceBits aliceBases bobBases events).map (·.2.1),
        (survivors aliceBits aliceBases bobBases events).map (·.2.2)) := by
  rw [siftLoop, survivors]
  generalize events.zipIdx = l
  -- the loop appends, so the induction takes the last event off
  induction l using List.reverseRecOn with
  | nil => rfl
  | append_singleton l x ih =>
    obtain ⟨event, i⟩ := x
    rw [List.foldl_append, List.filterMap_append, ih]
    by_cases h : event.detected = true ∧
        aliceBases.getD i .rectilinear = bobBases.getD i .rectilinear
    · have hs : survivor aliceBits aliceBases bobBases (event, i)
          = some (aliceBits.getD i false, eventBit event h.1, i) := dif_pos h
      simp only [List.foldl_cons, List.foldl_nil, dif_pos h, List.filterMap_cons, hs,
        List.filterMap_nil, List.map_append, List.map_cons, List.map_nil]
    · have hs : survivor aliceBits aliceBases bobBases (event, i) = none := dif_neg h
      simp only [List.foldl_cons, List.foldl_nil, dif_neg h, List.filterMap_cons, hs,
        List.filterMap_nil, List.append_nil]

/-- A triple survives exactly when its pulse clicked in equal bases, with these bits. -/
theorem mem_survivors {events : List DetectionEvent} {a b : Bool} {i : ℕ} :
    (a, b, i) ∈ survivors aliceBits aliceBases bobBases events ↔
      ∃ event, events[i]? = some event ∧ event.detected = true ∧
        aliceBases.getD i .rectilinear = bobBases.getD i .rectilinear ∧
        a = aliceBits.getD i false ∧ event.measuredBit = some b := by
  rw [survivors, List.mem_filterMap]
  constructor
  · rintro ⟨⟨event, j⟩, hmem, hsome⟩
    rw [List.mem_zipIdx_iff_getElem?] at hmem
    by_cases h : event.detected = true ∧
        aliceBases.getD j .rectilinear = bobBases.getD j .rectilinear
    · simp only [survivor, dif_pos h, Option.some_inj, Prod.mk.injEq] at hsome
      obtain ⟨rfl, rfl, rfl⟩ := hsome
      exact ⟨event, hmem, h.1, h.2, rfl, measuredBit_eq_some event h.1⟩
    · rw [survivor, dif_neg h] at hsome
      exact absurd hsome (by simp)
  · rintro ⟨event, hmem, hdet, hbasis, rfl, hbit⟩
    refine ⟨(event, i), List.mem_zipIdx_iff_getElem?.mpr hmem, ?_⟩
    have hb : eventBit event hdet = b := by
      rw [measuredBit_eq_some event hdet, Option.some_inj] at hbit
      exact hbit
    rw [survivor, dif_pos ⟨hdet, hbasis⟩, hb]

theorem countP_detected_zipIdx (events : List DetectionEvent) :
    events.countP (fun e => e.detected) = events.zipIdx.countP fun x => x.1.detected := by
  conv_lhs => rw [← List.zipIdx_map_fst 0 events]
  rw [List.countP_map]
  rfl

theorem length_survivors_le (events : List DetectionEvent) :
    (survivors aliceBits aliceBases bobBases events).length
      ≤ events.countP fun e => e.detected := by
  -- count over the indexed events, which is where `survivors` picks from
  rw [countP_detected_zipIdx, survivors, List.length_filterMap_eq_countP]
  refine List.countP_mono_left fun x _ hx => ?_
  by_contra hdet
  have hnone : survivor aliceBits aliceBases bobBases x = none := dif_neg fun h => hdet h.1
  rw [hnone] at hx
  exact absurd hx (by simp)

/-- In equal bases every click survives. -/
theorem length_survivors_of_bases_eq (h : aliceBases = bobBases) (events : List DetectionEvent) :
    (survivors aliceBits aliceBases bobBases events).length
      = events.countP fun e => e.detected := by
  rw [countP_detected_zipIdx, survivors, List.length_filterMap_eq_countP]
  refine List.countP_congr fun x _ => ?_
  rw [survivor]
  split_ifs with hx
  · simp [hx.1]
  · have hdet : ¬ x.1.detected = true := fun hdet => hx ⟨hdet, by rw [h]⟩
    simp [hdet]

end Sift

/-! ### Estimation and amplification -/

/-- `_estimate_qber`. -/
def estimateQber (aliceSifted bobSifted : List Bool) (sampleFraction threshold : ℚ) :
    QBEREstimate :=
  -- at least one bit, even with fraction 0, and at most all of them
  let wanted : ℤ := max 1 (pyInt (aliceSifted.length * sampleFraction))
  let sampleSize : ℕ := (min wanted aliceSifted.length).toNat
  let errors := (List.range sampleSize).countP (differs aliceSifted bobSifted)
  let qber : ℚ := if sampleSize > 0 then errors / sampleSize else 0
  { qber := qber
    sampleSize := sampleSize
    errorsFound := errors
    isSecure := decide (qber < threshold) }

/-- `binary_entropy`. -/
def binaryEntropy (M : MathFns) (p : ℚ) : ℚ :=
  if p ≤ 0 ∨ p ≥ 1 then 0 else -p * M.log2 p - (1 - p) * M.log2 (1 - p)

def securityParameter : ℤ := 64

/-- `max_secure_bits`, for `n` corrected bits and the entropy function `h`. -/
def maxSecureBits (h : ℚ → ℚ) (n : ℕ) (qber : ℚ) : ℤ :=
  let hQber := if qber > 0 then h qber else 0
  let secureFraction := max 0 (1 - 2 * hQber)
  pyInt (n * secureFraction) - securityParameter

/-- `_privacy_amplify`. -/
def privacyAmplify (h : ℚ → ℚ) (draw : BitDraw) (correctedBits : List Bool) (qber : ℚ)
    (targetLength : ℤ) : Option Bytes :=
  if correctedBits.length = 0 then none
  else
    let bound := maxSecureBits h correctedBits.length qber
    -- a short string gives a shorter key rather than none
    if bound < targetLength then
      if bound ≤ 0 then none else some (toeplitzHash draw correctedBits bound)
    else some (toeplitzHash draw correctedBits targetLength)

/-- A returned key is the hash to `min(max_secure_bits, target)` bits. -/
theorem privacyAmplify_eq_some {h : ℚ → ℚ} {draw : BitDraw} {correctedBits : List Bool}
    {qber : ℚ} {targetLength : ℤ} {key : Bytes}
    (hkey : privacyAmplify h draw correctedBits qber targetLength = some key) :
    correctedBits ≠ [] ∧
      (0 < maxSecureBits h correctedBits.length qber ∨
        targetLength ≤ maxSecureBits h correctedBits.length qber) ∧
      key = toeplitzHash draw correctedBits
        (min (maxSecureBits h correctedBits.length qber) targetLength) := by
  rw [privacyAmplify] at hkey
  by_cases hn : correctedBits.length = 0
  · rw [if_pos hn] at hkey
    exact absurd hkey (by simp)
  · have hne : correctedBits ≠ [] := fun h => hn (by rw [h]; rfl)
    rw [if_neg hn] at hkey
    by_cases hlt : maxSecureBits h correctedBits.length qber < targetLength
    · simp only [if_pos hlt] at hkey
      by_cases hle : maxSecureBits h correctedBits.length qber ≤ 0
      · rw [if_pos hle] at hkey
        exact absurd hkey (by simp)
      · rw [if_neg hle, Option.some_inj] at hkey
        exact ⟨hne, .inl (by omega), by rw [← hkey, min_eq_left (by omega)]⟩
    · simp only [if_neg hlt, Option.some_inj] at hkey
      exact ⟨hne, .inr (by omega), by rw [← hkey, min_eq_right (by omega)]⟩

/-- A key has `min(max_secure_bits, target)` bits, rounded up to whole bytes. -/
theorem length_of_privacyAmplify {h : ℚ → ℚ} {draw : BitDraw} {bits : List Bool} {qber : ℚ}
    {t : ℤ} (ht : 0 < t) {key : Bytes} (hkey : privacyAmplify h draw bits qber t = some key) :
    0 < maxSecureBits h bits.length qber ∧
      key.length = ((min (maxSecureBits h bits.length qber) t).toNat + 7) / 8 := by
  obtain ⟨hne, hbound, rfl⟩ := privacyAmplify_eq_some hkey
  -- the bound passed the check `max_secure_bits <= 0` or the comparison with the target
  have hpos : 0 < maxSecureBits h bits.length qber := by omega
  exact ⟨hpos, length_toeplitzHash (lt_min hpos ht) hne⟩

/-! ### The round -/

/-- One call of `run_round` with everything it reads. -/
structure Round where
  math : MathFns
  config : BB84ProtocolConfig
  eavesdropper : Option EavesdropperSimulator
  draws : RoundDraws

namespace Round

variable (R : Round)

def n : ℕ := R.config.numRawBits

def aliceBits : List Bool := (List.range R.n).map R.draws.aliceBit

def aliceBases : List Basis := (List.range R.n).map fun i => Basis.ofBit (R.draws.aliceBasis i)

def bobBases : List Basis := (List.range R.n).map fun i => Basis.ofBit (R.draws.bobBasis i)

/-- Eve is present and takes pulse `i`. -/
def intercepts (i : ℕ) : Bool :=
  match R.eavesdropper with
  | none => false
  | some eve => (R.draws.intercept i).below eve.interceptionRate

/-- Eve's bit and basis, should she take pulse `i`. -/
def eveMeasures (i : ℕ) : Bool × Basis :=
  interceptResend (R.draws.eveBasis i) (R.draws.eveBit i) (R.aliceBits.getD i false)
    (R.aliceBases.getD i .rectilinear)

/-- What travels to Bob: Eve's resent photon, or Alice's own. -/
def sent (i : ℕ) : Bool × Basis :=
  if R.intercepts i then R.eveMeasures i
  else (R.aliceBits.getD i false, R.aliceBases.getD i .rectilinear)

def sentBits : List Bool := (List.range R.n).map fun i => (R.sent i).1

def sentBases : List Basis := (List.range R.n).map fun i => (R.sent i).2

def events : List DetectionEvent :=
  (simulateNPulses R.math R.config.channelParams R.draws.pulse R.n R.sentBits R.sentBases
    R.bobBases).1

def detectedCount : ℕ := R.events.countP fun e => e.detected

def darkCountTotal : ℕ := R.events.countP fun e => e.isDarkCount

def sifted : SiftedKeyResult := siftKeys R.aliceBits R.aliceBases R.bobBases R.events

def siftedCount : ℕ := R.sifted.aliceSiftedBits.length

def estimate : QBEREstimate :=
  estimateQber R.sifted.aliceSiftedBits R.sifted.bobSiftedBits R.config.qberSampleFraction
    R.config.qberThreshold

def aliceRemaining : List Bool := R.sifted.aliceSiftedBits.drop R.estimate.sampleSize

def bobRemaining : List Bool := R.sifted.bobSiftedBits.drop R.estimate.sampleSize

/-- The bits handed to privacy amplification. -/
def correctedBits : List Bool :=
  errorCorrectCascade R.draws.permutation R.aliceRemaining R.bobRemaining R.estimate.qber

/-- Privacy amplification of a string with this round's matrix and estimate. -/
def amplify (bits : List Bool) : Option Bytes :=
  privacyAmplify (binaryEntropy R.math) R.draws.toeplitz bits R.estimate.qber
    R.config.targetKeyLengthBits

def darkCountFraction : ℚ := R.darkCountTotal / max R.detectedCount 1

/-! The five exits of `run_round`, field by field. -/

def noPhotonsResult : BB84RoundResult where
  key := none
  qber := 1
  isSecure := false
  rawBitsGenerated := R.n
  siftedBits := 0
  finalKeyBits := 0
  detectionEvents := 0
  darkCountFraction := 0
  multiPhotonFraction := 0
  aborted := true
  abortReason := some .noPhotons
  durationSeconds := R.draws.duration

def insufficientSiftedResult : BB84RoundResult where
  key := none
  qber := 1
  isSecure := false
  rawBitsGenerated := R.n
  siftedBits := R.siftedCount
  finalKeyBits := 0
  detectionEvents := R.detectedCount
  darkCountFraction := R.darkCountFraction
  multiPhotonFraction := 0
  aborted := true
  abortReason := some .insufficientSifted
  durationSeconds := R.draws.duration

def insecureResult : BB84RoundResult where
  key := none
  qber := R.estimate.qber
  isSecure := false
  rawBitsGenerated := R.n
  siftedBits := R.siftedCount
  finalKeyBits := 0
  detectionEvents := R.detectedCount
  darkCountFraction := R.darkCountFraction
  multiPhotonFraction := 0
  aborted := true
  abortReason := some (.qberExceeds R.estimate.qber R.config.qberThreshold)
  durationSeconds := R.draws.duration

def insufficientAmplifiedResult : BB84RoundResult where
  key := none
  qber := R.estimate.qber
  isSecure := true
  rawBitsGenerated := R.n
  siftedBits := R.siftedCount
  finalKeyBits := 0
  detectionEvents := R.detectedCount
  darkCountFraction := R.darkCountFraction
  multiPhotonFraction := 0
  aborted := true
  abortReason := some .insufficientAmplified
  durationSeconds := R.draws.duration

def keyResult (key : Bytes) : BB84RoundResult where
  key := some key
  qber := R.estimate.qber
  isSecure := true
  rawBitsGenerated := R.n
  siftedBits := R.siftedCount
  finalKeyBits := key.length * 8
  detectionEvents := R.detectedCount
  darkCountFraction := R.darkCountFraction
  multiPhotonFraction := 0
  aborted := false
  abortReason := none
  durationSeconds := R.draws.duration

def minSiftedBits : ℕ := 10

/-- `run_round`. -/
def runRound : BB84RoundResult :=
  if R.detectedCount = 0 then R.noPhotonsResult
  else if R.siftedCount < minSiftedBits then R.insufficientSiftedResult
  else if R.estimate.isSecure = false then R.insecureResult
  else
    match R.amplify R.correctedBits with
    | none => R.insufficientAmplifiedResult
    | some key => R.keyResult key

/-- The exits with their conditions. -/
theorem runRound_cases :
    (R.detectedCount = 0 ∧ R.runRound = R.noPhotonsResult) ∨
    (R.detectedCount ≠ 0 ∧ R.siftedCount < minSiftedBits ∧
      R.runRound = R.insufficientSiftedResult) ∨
    (R.detectedCount ≠ 0 ∧ minSiftedBits ≤ R.siftedCount ∧ R.estimate.isSecure = false ∧
      R.runRound = R.insecureResult) ∨
    (R.detectedCount ≠ 0 ∧ minSiftedBits ≤ R.siftedCount ∧ R.estimate.isSecure = true ∧
      R.amplify R.correctedBits = none ∧ R.runRound = R.insufficientAmplifiedResult) ∨
    (R.detectedCount ≠ 0 ∧ minSiftedBits ≤ R.siftedCount ∧ R.estimate.isSecure = true ∧
      ∃ key, R.amplify R.correctedBits = some key ∧ R.runRound = R.keyResult key) := by
  by_cases hdet : R.detectedCount = 0
  · exact .inl ⟨hdet, by rw [runRound, if_pos hdet]⟩
  by_cases hsift : R.siftedCount < minSiftedBits
  · exact .inr (.inl ⟨hdet, hsift, by rw [runRound, if_neg hdet, if_pos hsift]⟩)
  have hsift' := not_lt.mp hsift
  by_cases hsec : R.estimate.isSecure = false
  · refine .inr (.inr (.inl ⟨hdet, hsift', hsec, ?_⟩))
    rw [runRound, if_neg hdet, if_neg hsift, if_pos hsec]
  have hsec' : R.estimate.isSecure = true := by simpa using hsec
  cases hamp : R.amplify R.correctedBits with
  | none =>
    refine .inr (.inr (.inr (.inl ⟨hdet, hsift', hsec', rfl, ?_⟩)))
    rw [runRound, if_neg hdet, if_neg hsift, if_neg hsec, hamp]
  | some key =>
    refine .inr (.inr (.inr (.inr ⟨hdet, hsift', hsec', key, rfl, ?_⟩)))
    rw [runRound, if_neg hdet, if_neg hsift, if_neg hsec, hamp]

/-- A round that is not aborted took the last exit. -/
theorem runRound_of_not_aborted (h : R.runRound.aborted = false) :
    R.detectedCount ≠ 0 ∧ minSiftedBits ≤ R.siftedCount ∧ R.estimate.isSecure = true ∧
      ∃ key, R.amplify R.correctedBits = some key ∧ R.runRound = R.keyResult key := by
  rcases R.runRound_cases with ⟨-, hr⟩ | ⟨-, -, hr⟩ | ⟨-, -, -, hr⟩ | ⟨-, -, -, -, hr⟩ | hkey
  · exact absurd h (by rw [hr]; simp [noPhotonsResult])
  · exact absurd h (by rw [hr]; simp [insufficientSiftedResult])
  · exact absurd h (by rw [hr]; simp [insecureResult])
  · exact absurd h (by rw [hr]; simp [insufficientAmplifiedResult])
  · exact hkey

/-! ### Counts -/

@[simp] theorem length_events : R.events.length = R.n := simulateNPulses_length ..

theorem sifted_lists :
    R.sifted.aliceSiftedBits
        = (survivors R.aliceBits R.aliceBases R.bobBases R.events).map (·.1) ∧
    R.sifted.bobSiftedBits
        = (survivors R.aliceBits R.aliceBases R.bobBases R.events).map (·.2.1) ∧
    R.sifted.matchingIndices
        = (survivors R.aliceBits R.aliceBases R.bobBases R.events).map (·.2.2) := by
  have h := siftLoop_eq R.aliceBits R.aliceBases R.bobBases R.events
  simp only [sifted, siftKeys, h, and_self]

theorem length_bobSifted : R.sifted.bobSiftedBits.length = R.siftedCount := by
  rw [siftedCount, R.sifted_lists.1, R.sifted_lists.2.1, List.length_map, List.length_map]

theorem length_matchingIndices : R.sifted.matchingIndices.length = R.siftedCount := by
  rw [siftedCount, R.sifted_lists.1, R.sifted_lists.2.2, List.length_map, List.length_map]

theorem length_remaining : R.aliceRemaining.length = R.bobRemaining.length := by
  rw [aliceRemaining, bobRemaining, List.length_drop, List.length_drop, length_bobSifted,
    siftedCount]

theorem siftedCount_le : R.siftedCount ≤ R.detectedCount := by
  rw [siftedCount, R.sifted_lists.1, List.length_map]
  exact length_survivors_le ..

theorem detectedCount_le : R.detectedCount ≤ R.n :=
  (List.countP_le_length).trans_eq R.length_events

theorem darkCountTotal_le : R.darkCountTotal ≤ R.detectedCount :=
  List.countP_mono_left fun e _ he => e.dark_detected he

theorem darkCountFraction_mem : 0 ≤ R.darkCountFraction ∧ R.darkCountFraction ≤ 1 := by
  have hle : (R.darkCountTotal : ℚ) ≤ (max R.detectedCount 1 : ℕ) := by
    exact_mod_cast R.darkCountTotal_le.trans (le_max_left _ _)
  have hpos : (0 : ℚ) < (max R.detectedCount 1 : ℕ) := by
    exact_mod_cast lt_max_of_lt_right Nat.zero_lt_one
  rw [darkCountFraction]
  exact ⟨by positivity, (div_le_one hpos).mpr hle⟩

/-! ### Coherence of the result -/

/-- What the fields of a result promise about each other, for threshold `threshold`. -/
structure Coherent (threshold : ℚ) (r : BB84RoundResult) : Prop where
  accepted : r.aborted = false → r.isSecure = true ∧ r.qber < threshold ∧
    ∃ key, r.key = some key ∧ key ≠ [] ∧ r.finalKeyBits = 8 * key.length
  rejected : r.aborted = true → r.key = none ∧ r.finalKeyBits = 0
  sifted_le : r.siftedBits ≤ r.detectionEvents
  detected_le : r.detectionEvents ≤ r.rawBitsGenerated
  dark_nonneg : 0 ≤ r.darkCountFraction
  dark_le_one : r.darkCountFraction ≤ 1

/-- With a positive target an amplified key is never empty. -/
theorem amplify_ne_nil {bits : List Bool} {key : Bytes}
    (htarget : 0 < R.config.targetKeyLengthBits) (h : R.amplify bits = some key) :
    key ≠ [] := by
  obtain ⟨hne, hbound, rfl⟩ := privacyAmplify_eq_some h
  apply List.ne_nil_of_length_pos
  rw [length_toeplitzHash (by omega) hne]
  omega

/-- `max_secure_bits` of this round. -/
def secureBits : ℤ :=
  maxSecureBits (binaryEntropy R.math) R.correctedBits.length R.estimate.qber

/-- An accepted key holds `min(max_secure_bits, target)` bits, rounded up to bytes. -/
theorem length_key_of_not_aborted (htarget : 0 < R.config.targetKeyLengthBits) {key : Bytes}
    (h : R.runRound.aborted = false) (hkey : R.runRound.key = some key) :
    0 < R.secureBits ∧
      key.length = ((min R.secureBits R.config.targetKeyLengthBits).toNat + 7) / 8 := by
  obtain ⟨-, -, -, key', hamp, hr⟩ := R.runRound_of_not_aborted h
  rw [hr] at hkey
  obtain rfl : key' = key := Option.some_inj.mp hkey
  exact length_of_privacyAmplify htarget hamp

theorem runRound_coherent (htarget : 0 < R.config.targetKeyLengthBits) :
    Coherent R.config.qberThreshold R.runRound := by
  have hsift := R.siftedCount_le
  have hdet := R.detectedCount_le
  obtain ⟨hdark₀, hdark₁⟩ := R.darkCountFraction_mem
  -- four exits without a key, then the one with it
  rcases R.runRound_cases with ⟨-, hr⟩ | ⟨-, -, hr⟩ | ⟨-, -, -, hr⟩ | ⟨-, -, -, -, hr⟩ |
    ⟨-, -, hsec, key, hkey, hr⟩ <;> rw [hr]
  · exact ⟨fun h => absurd h (by simp [noPhotonsResult]), fun _ => ⟨rfl, rfl⟩, le_refl 0,
      Nat.zero_le _, le_refl 0, zero_le_one⟩
  · exact ⟨fun h => absurd h (by simp [insufficientSiftedResult]), fun _ => ⟨rfl, rfl⟩,
      hsift, hdet, hdark₀, hdark₁⟩
  · exact ⟨fun h => absurd h (by simp [insecureResult]), fun _ => ⟨rfl, rfl⟩,
      hsift, hdet, hdark₀, hdark₁⟩
  · exact ⟨fun h => absurd h (by simp [insufficientAmplifiedResult]), fun _ => ⟨rfl, rfl⟩,
      hsift, hdet, hdark₀, hdark₁⟩
  · refine ⟨fun _ => ⟨rfl, ?_, key, rfl, R.amplify_ne_nil htarget hkey, Nat.mul_comm _ _⟩,
      fun h => absurd h (by simp [keyResult]), hsift, hdet, hdark₀, hdark₁⟩
    exact of_decide_eq_true hsec

end Round

end Protocol
