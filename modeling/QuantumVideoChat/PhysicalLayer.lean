/-
The optical chain (`shared/bb84/physical_layer.py`): source, fibre, detector.

Each call of the random generator is one field of `PulseDraws`; a statement for all
draws is a statement for every outcome of the source, the losses and the detector.

* `detect_cases` — what one detection attempt can do to the event and the detector;
* `simulateNPulses_getElem` — event `i` of a run is the detection attempt of pulse `i`
  in the detector state left by the pulses before it;
* `simulateNPulses_undisturbed` — where nothing clicks in the dark and no polarization is
  flipped, a click in the sender's basis carries the sent bit.
-/
import QuantumVideoChat.Numerics

namespace PhysicalLayer

/-- Measurement bases for BB84. -/
inductive Basis
  | rectilinear
  | diagonal
  deriving DecidableEq, Repr

/-- `Basis(int(x))` for a drawn bit. -/
def Basis.ofBit : Bool → Basis
  | false => .rectilinear
  | true => .diagonal

/-- Polarization states used in BB84 encoding. -/
inductive Polarization
  | H
  | V
  | D
  | A
  deriving DecidableEq, Repr

/-- `_BIT_BASIS_TO_POLARIZATION`. -/
def bitBasisToPolarization : Bool → Basis → Polarization
  | false, .rectilinear => .H
  | true, .rectilinear => .V
  | false, .diagonal => .D
  | true, .diagonal => .A

/-- `_POLARIZATION_TO_BIT_BASIS`. -/
def polarizationToBitBasis : Polarization → Bool × Basis
  | .H => (false, .rectilinear)
  | .V => (true, .rectilinear)
  | .D => (false, .diagonal)
  | .A => (true, .diagonal)

@[simp] theorem polarizationToBitBasis_bitBasisToPolarization (bit : Bool) (basis : Basis) :
    polarizationToBitBasis (bitBasisToPolarization bit basis) = (bit, basis) := by
  cases bit <;> cases basis <;> rfl

/-- Physical parameters for the quantum channel simulation. -/
structure ChannelParameters where
  sourceIntensityMu : ℚ := 1 / 10
  fiberLengthKm : ℚ := 1
  attenuationDbPerKm : ℚ := 1 / 5
  detectorEfficiency : ℚ := 1 / 10
  darkCountRate : ℚ := 1 / 100000
  deadTimeNs : ℚ := 50
  afterpulseProbability : ℚ := 1 / 100
  misalignmentAngleDeg : ℚ := 1

/-- Result of a single photon detection attempt.  A bit is recorded exactly when the
detector clicked, and a dark count is a click. -/
structure DetectionEvent where
  pulseIndex : ℤ
  detected : Bool
  measuredBit : Option Bool
  basis : Basis
  isDarkCount : Bool
  isAfterpulse : Bool
  detected_eq : detected = measuredBit.isSome
  dark_detected : isDarkCount = true → detected = true
  deriving DecidableEq

namespace DetectionEvent

/-- The event of an attempt that did not click. -/
def missed (pulseIndex : ℤ) (basis : Basis) : DetectionEvent where
  pulseIndex := pulseIndex
  detected := false
  measuredBit := none
  basis := basis
  isDarkCount := false
  isAfterpulse := false
  detected_eq := rfl
  dark_detected := fun h => h

/-- The event of a click. -/
def click (pulseIndex : ℤ) (bit : Bool) (basis : Basis) (isDarkCount isAfterpulse : Bool) :
    DetectionEvent where
  pulseIndex := pulseIndex
  detected := true
  measuredBit := some bit
  basis := basis
  isDarkCount := isDarkCount
  isAfterpulse := isAfterpulse
  detected_eq := rfl
  dark_detected := fun _ => rfl

@[simp] theorem missed_detected (i : ℤ) (b : Basis) : (missed i b).detected = false := rfl

@[simp] theorem click_detected (i : ℤ) (bit : Bool) (b : Basis) (d a : Bool) :
    (click i bit b d a).detected = true := rfl

@[simp] theorem click_measuredBit (i : ℤ) (bit : Bool) (b : Basis) (d a : Bool) :
    (click i bit b d a).measuredBit = some bit := rfl

end DetectionEvent

/-- The answers of the random generator during one pulse, one field for each call. -/
structure PulseDraws where
  /-- `poisson(mu)` of the source -/
  poisson : ℚ → ℕ
  /-- `binomial(n, transmission_prob)` of the fibre -/
  surviving : (n : ℕ) → ℚ → Fin (n + 1)
  /-- `random()` of the afterpulse check -/
  afterpulse : UnitDraw
  /-- `random()` of the dark count check -/
  dark : UnitDraw
  /-- `binomial(n, detector_efficiency)` of the detector -/
  triggered : (n : ℕ) → ℚ → Fin (n + 1)
  /-- `random()` of the misalignment check -/
  misalignment : UnitDraw
  /-- `integers(0, 2)` of a dark count or of a wrong basis -/
  bit : Bool

/-! ### Source and fibre -/

/-- `PhotonSource.emit_pulse`. -/
def emitPulse (params : ChannelParameters) (draws : PulseDraws) (bit : Bool) (basis : Basis) :
    ℕ × Polarization :=
  (draws.poisson params.sourceIntensityMu, bitBasisToPolarization bit basis)

/-- `QuantumChannel.transmission_prob`. -/
def transmissionProb (M : MathFns) (params : ChannelParameters) : ℚ :=
  M.exp10 (-(params.attenuationDbPerKm * params.fiberLengthKm) / 10)

/-- `QuantumChannel.transmit`. -/
def transmit (M : MathFns) (params : ChannelParameters) (draws : PulseDraws)
    (nPhotons : ℕ) : ℕ :=
  if nPhotons = 0 then 0 else draws.surviving nPhotons (transmissionProb M params)

/-! ### Detector -/

/-- The detector: its parameters and the index of its last click. -/
structure SinglePhotonDetector where
  params : ChannelParameters
  lastDetectionIndex : Option ℤ := none

namespace SinglePhotonDetector

variable (M : MathFns) (det : SinglePhotonDetector) (draws : PulseDraws)

/-- `_dead_time_pulses`. -/
def deadTimePulses : ℤ := max 1 (pyInt det.params.deadTimeNs)

/-- `_misalignment_error_prob`. -/
def misalignmentErrorProb : ℚ := M.sinDeg det.params.misalignmentAngleDeg ^ 2

/-- The dead time check: the detector has not recovered from its last click. -/
def recovering (pulseIndex : ℤ) : Bool :=
  match det.lastDetectionIndex with
  | none => false
  | some last => decide (pulseIndex - last < det.deadTimePulses)

/-- The afterpulse check. -/
def afterpulseFires (pulseIndex : ℤ) : Bool :=
  match det.lastDetectionIndex with
  | none => false
  | some last =>
    decide (pulseIndex - last < det.deadTimePulses * 3)
      && draws.afterpulse.below det.params.afterpulseProbability

/-- The dark count check. -/
def darkFires : Bool := draws.dark.below det.params.darkCountRate

/-- At least one of the arriving photons triggers the detector. -/
def photonFires (nPhotons : ℕ) : Bool :=
  decide (0 < nPhotons)
    && decide (0 < (draws.triggered nPhotons det.params.detectorEfficiency).val)

/-- The bit recorded by a click. -/
def measuredBit (isDarkCount photonDetected : Bool) (sentPolarization : Polarization)
    (measurementBasis : Basis) : Bool :=
  let (sentBit, sentBasis) := polarizationToBitBasis sentPolarization
  if isDarkCount && !photonDetected then draws.bit
  -- an afterpulse without a photon comes here too and reads the sent polarization
  else if measurementBasis = sentBasis then
    if draws.misalignment.below (det.misalignmentErrorProb M) then !sentBit else sentBit
  else draws.bit

/-- `SinglePhotonDetector.detect`: the event and the detector afterwards. -/
def detect (nPhotons : ℕ) (sentPolarization : Polarization) (measurementBasis : Basis)
    (pulseIndex : ℤ) : DetectionEvent × SinglePhotonDetector :=
  if det.recovering pulseIndex then (.missed pulseIndex measurementBasis, det)
  else
    -- the three causes of a click are checked independently of each other
    let isAfterpulse := det.afterpulseFires draws pulseIndex
    let isDarkCount := det.darkFires draws
    let photonDetected := det.photonFires draws nPhotons
    if photonDetected || isDarkCount || isAfterpulse then
      (.click pulseIndex
          (det.measuredBit M draws isDarkCount photonDetected sentPolarization measurementBasis)
          measurementBasis (isDarkCount && !photonDetected)
          (isAfterpulse && !photonDetected && !isDarkCount),
        { det with lastDetectionIndex := some pulseIndex })
    else (.missed pulseIndex measurementBasis, det)

/-- An attempt either misses and leaves the detector alone, or clicks after recovery and
records its own index. -/
theorem detect_cases (nPhotons : ℕ) (sentPolarization : Polarization)
    (measurementBasis : Basis) (pulseIndex : ℤ) :
    det.detect M draws nPhotons sentPolarization measurementBasis pulseIndex
        = (.missed pulseIndex measurementBasis, det) ∨
    (det.recovering pulseIndex = false ∧
      (det.photonFires draws nPhotons = true ∨ det.darkFires draws = true ∨
        det.afterpulseFires draws pulseIndex = true) ∧
      det.detect M draws nPhotons sentPolarization measurementBasis pulseIndex
        = (.click pulseIndex
            (det.measuredBit M draws (det.darkFires draws) (det.photonFires draws nPhotons)
              sentPolarization measurementBasis)
            measurementBasis (det.darkFires draws && !det.photonFires draws nPhotons)
            (det.afterpulseFires draws pulseIndex && !det.photonFires draws nPhotons
              && !det.darkFires draws),
          { det with lastDetectionIndex := some pulseIndex })) := by
  by_cases hrec : det.recovering pulseIndex = true
  · exact .inl (by rw [detect, if_pos hrec])
  · by_cases hclick : (det.photonFires draws nPhotons || det.darkFires draws
        || det.afterpulseFires draws pulseIndex) = true
    · refine .inr ⟨by simpa using hrec, by simpa [or_assoc] using hclick, ?_⟩
      rw [detect, if_neg hrec, if_pos hclick]
    · exact .inl (by rw [detect, if_neg hrec, if_neg hclick])

theorem detect_params (nPhotons : ℕ) (sentPolarization : Polarization)
    (measurementBasis : Basis) (pulseIndex : ℤ) :
    (det.detect M draws nPhotons sentPolarization measurementBasis pulseIndex).2.params
      = det.params := by
  rcases det.detect_cases M draws nPhotons sentPolarization measurementBasis pulseIndex with
    h | ⟨-, -, h⟩ <;> rw [h]

end SinglePhotonDetector

/-! ### Runs of the simulator -/

section Simulate

variable (M : MathFns) (params : ChannelParameters) (draws : ℕ → PulseDraws)

/-- `PhysicalLayerSimulator.simulate_pulse`; the detector is the simulator's only state. -/
def simulatePulse (det : SinglePhotonDetector) (draws : PulseDraws) (bit : Bool)
    (aliceBasis bobBasis : Basis) (pulseIndex : ℤ) : DetectionEvent × SinglePhotonDetector :=
  let (nPhotons, polarization) := emitPulse params draws bit aliceBasis
  let nSurviving := transmit M params draws nPhotons
  det.detect M draws nSurviving polarization bobBasis pulseIndex

/-- `PhysicalLayerSimulator.simulate_n_pulses` on a fresh simulator: the events in pulse
order and the detector afterwards. -/
def simulateNPulses (n : ℕ) (aliceBits : List Bool) (aliceBases bobBases : List Basis) :
    List DetectionEvent × SinglePhotonDetector :=
  (List.range n).foldl
    (fun (events, det) i =>
      let (event, det') := simulatePulse M params det (draws i) (aliceBits.getD i false)
        (aliceBases.getD i .rectilinear) (bobBases.getD i .rectilinear) i
      (events ++ [event], det'))
    ([], { params := params })

variable (aliceBits : List Bool) (aliceBases bobBases : List Basis)

/-- The detector that pulse `i` finds. -/
def detectorAt (i : ℕ) : SinglePhotonDetector :=
  (simulateNPulses M params draws i aliceBits aliceBases bobBases).2

/-- The attempt of pulse `i` in the run. -/
def attemptAt (i : ℕ) : DetectionEvent × SinglePhotonDetector :=
  simulatePulse M params (detectorAt M params draws aliceBits aliceBases bobBases i) (draws i)
    (aliceBits.getD i false) (aliceBases.getD i .rectilinear)
    (bobBases.getD i .rectilinear) i

theorem simulateNPulses_succ (n : ℕ) :
    simulateNPulses M params draws (n + 1) aliceBits aliceBases bobBases
      = ((simulateNPulses M params draws n aliceBits aliceBases bobBases).1
          ++ [(attemptAt M params draws aliceBits aliceBases bobBases n).1],
        (attemptAt M params draws aliceBits aliceBases bobBases n).2) := by
  rw [simulateNPulses, List.range_succ, List.foldl_append]
  rfl

@[simp] theorem simulateNPulses_length (n : ℕ) :
    (simulateNPulses M params draws n aliceBits aliceBases bobBases).1.length = n := by
  induction n with
  | zero => rfl
  | succ n ih => rw [simulateNPulses_succ, List.length_append, ih, List.length_singleton]

theorem detectorAt_params (i : ℕ) :
    (detectorAt M params draws aliceBits aliceBases bobBases i).params = params := by
  induction i with
  | zero => rfl
  | succ i ih =>
    rw [detectorAt, simulateNPulses_succ]
    exact (SinglePhotonDetector.detect_params ..).trans ih

/-- Event `i` is the attempt of pulse `i`. -/
theorem simulateNPulses_getElem (n i : ℕ) (hi : i < n) :
    (simulateNPulses M params draws n aliceBits aliceBases bobBases).1[i]?
      = some (attemptAt M params draws aliceBits aliceBases bobBases i).1 := by
  induction n with
  | zero => exact absurd hi (Nat.not_lt_zero i)
  | succ n ih =>
    rw [simulateNPulses_succ]
    -- an earlier event is where it was, the last one has just been appended
    rcases Nat.lt_or_eq_of_le (Nat.lt_succ_iff.mp hi) with hlt | heq
    · rw [List.getElem?_append_left (by simpa using hlt)]
      exact ih hlt
    · rw [heq, List.getElem?_append_right (by simp)]
      simp

end Simulate

/-! ### The noiseless link -/

/-- No misalignment, no dark counts, no afterpulses. -/
structure Noiseless (params : ChannelParameters) : Prop where
  misalignment : params.misalignmentAngleDeg = 0
  dark : params.darkCountRate = 0
  afterpulse : params.afterpulseProbability = 0

/-- Nothing clicks in the dark and no polarization is flipped. -/
structure Undisturbed (M : MathFns) (params : ChannelParameters) (draws : PulseDraws) :
    Prop where
  dark : draws.dark.below params.darkCountRate = false
  misalignment : draws.misalignment.below (M.sinDeg params.misalignmentAngleDeg ^ 2) = false

theorem Noiseless.undisturbed {params : ChannelParameters} (h : Noiseless params) (M : MathFns)
    (draws : PulseDraws) : Undisturbed M params draws where
  dark := by rw [h.dark, UnitDraw.below_zero]
  misalignment := by
    rw [h.misalignment, M.sinDeg_zero, zero_pow two_ne_zero, UnitDraw.below_zero]

/-- Undisturbed, a click in the sender's basis carries the sent bit. -/
theorem detect_undisturbed (M : MathFns) {det : SinglePhotonDetector} {draws : PulseDraws}
    (hquiet : Undisturbed M det.params draws) (nPhotons : ℕ) (bit : Bool)
    (basis : Basis) (pulseIndex : ℤ)
    (hclick : (det.detect M draws nPhotons (bitBasisToPolarization bit basis) basis
      pulseIndex).1.detected = true) :
    (det.detect M draws nPhotons (bitBasisToPolarization bit basis) basis
      pulseIndex).1.measuredBit = some bit := by
  have hdark : det.darkFires draws = false := hquiet.dark
  have hflip : draws.misalignment.below (det.misalignmentErrorProb M) = false :=
    hquiet.misalignment
  rcases det.detect_cases M draws nPhotons (bitBasisToPolarization bit basis) basis
    pulseIndex with h | ⟨-, -, h⟩
  · rw [h] at hclick
    exact absurd hclick (by simp)
  · -- no dark count, equal bases and no flip: the sent bit is all that is left
    rw [h]
    simp [SinglePhotonDetector.measuredBit, hdark, hflip]

/-- The same along a run: pulse by pulse, whatever bits and bases were sent. -/
theorem simulateNPulses_undisturbed {M : MathFns} {params : ChannelParameters}
    {draws : ℕ → PulseDraws} (hquiet : ∀ i, Undisturbed M params (draws i))
    (aliceBits : List Bool) (aliceBases bobBases : List Basis) {n i : ℕ}
    {event : DetectionEvent}
    (hevent : (simulateNPulses M params draws n aliceBits aliceBases bobBases).1[i]?
      = some event)
    (hclick : event.detected = true)
    (hbasis : aliceBases.getD i .rectilinear = bobBases.getD i .rectilinear) :
    event.measuredBit = some (aliceBits.getD i false) := by
  have hi : i < n := by
    simpa using (List.getElem?_eq_some_iff.mp hevent).choose
  rw [simulateNPulses_getElem M params draws aliceBits aliceBases bobBases n i hi,
    Option.some_inj] at hevent
  subst hevent
  have hparams := detectorAt_params M params draws aliceBits aliceBases bobBases i
  simp only [attemptAt, simulatePulse, emitPulse, ← hbasis] at hclick ⊢
  exact detect_undisturbed M (by rw [hparams]; exact hquiet i) _ _ _ _ hclick

end PhysicalLayer
