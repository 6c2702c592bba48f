/-
The optical chain with every exception it can raise (`shared/bb84/physical_layer.py`).

Here nothing is taken for granted: a bit is an integer or `None`, an index may be out of
range, a table lookup may miss, and numpy's samplers refuse parameters out of their range.
The chain of `PhysicalLayer` is what these definitions compute when nothing is raised.

* `simulateNPulses_yields` — a run on bits 0 and 1 computes the events of the total chain,
  and only a sampler can interrupt it.
-/
import QuantumVideoChat.Exceptions
import QuantumVideoChat.PhysicalLayer

/-! ### Python's partial operations -/

/-- The exceptions that are of interest here.  `samplerRejects` is the `ValueError` by which
`poisson` and `binomial` refuse a parameter, `valueError` any other one. -/
inductive PyException
  | indexError
  | keyError
  | typeError
  | valueError
  | zeroDivisionError
  | overflowError
  | samplerRejects
  deriving DecidableEq

abbrev Py := Except PyException

/-- An integer or `None`. -/
abbrev PyBit := Option ℤ

namespace Checked

open Exceptions

/-- The integer of a bit. -/
def pyBit (bit : Bool) : PyBit := some bit.toInt

theorem pyBit_injective : Function.Injective pyBit := by
  intro a b h
  cases a <;> cases b <;> simp_all [pyBit]

/-- `l[i]`. -/
def item {α : Type} (l : List α) (i : ℕ) : Py α :=
  match l[i]? with
  | some a => .ok a
  | none => .error .indexError

/-- `l[i] = a`. -/
def setItem {α : Type} (l : List α) (i : ℕ) (a : α) : Py (List α) :=
  if i < l.length then .ok (l.set i a) else .error .indexError

/-- A summand: `None` cannot be added. -/
def number : PyBit → Py ℤ
  | some x => .ok x
  | none => .error .typeError

/-- `a / b`. -/
def divide (a b : ℚ) : Py ℚ := if b = 0 then .error .zeroDivisionError else .ok (a / b)

/-- `range(0, stop, step)`. -/
def stepRange (stop step : ℕ) : Py (List ℕ) :=
  if step = 0 then .error .valueError
  else .ok ((List.range ((stop + step - 1) / step)).map fun i => i * step)

/-- The least magnitude that a float cannot hold: from here on a result is infinite. -/
def floatLimit : ℚ := 2 ^ 1024 - 2 ^ 970

theorem one_lt_floatLimit : 1 < floatLimit := by
  have hsplit : floatLimit = 2 ^ 970 * (2 ^ 54 - 1) := by
    rw [floatLimit, mul_sub, ← pow_add, mul_one]
  rw [hsplit]
  exact one_lt_mul (one_le_pow₀ (by norm_num)) (by norm_num)

/-- `int(a * b)` for a product of floats. -/
def intOfProduct (a b : ℚ) : Py ℤ :=
  if floatLimit ≤ |a * b| then .error .overflowError else .ok (pyInt (a * b))

/-- `10 ** x`. -/
def pow10 (M : MathFns) (x : ℚ) : Py ℚ :=
  if floatLimit ≤ M.exp10 x then .error .overflowError else .ok (M.exp10 x)

theorem item_eq_ok {α : Type} {l : List α} {i : ℕ} (h : i < l.length) (d : α) :
    item l i = .ok (l.getD i d) := by
  rw [item, List.getElem?_eq_getElem h, List.getD_eq_getElem l d h]

/-- Reading a list of encoded entries. -/
theorem item_map {α β : Type} (f : α → β) {l : List α} {i : ℕ} (h : i < l.length) (d : α) :
    item (l.map f) i = .ok (f (l.getD i d)) := by
  rw [item, List.getElem?_map, List.getElem?_eq_getElem h, List.getD_eq_getElem l d h]
  rfl

theorem divide_eq_ok {a b : ℚ} (h : b ≠ 0) : divide a b = .ok (a / b) := if_neg h

/-! ### Samplers -/

section Chain

open PhysicalLayer

/-- `poisson(lam)`, for a generator that takes means up to `lamMax`. -/
def poisson (lamMax : ℚ) (draws : PulseDraws) (lam : ℚ) : Py ℕ :=
  if 0 ≤ lam ∧ lam ≤ lamMax then .ok (draws.poisson lam) else .error .samplerRejects

/-- `binomial(n, p)`. -/
def binomial (draw : (n : ℕ) → ℚ → Fin (n + 1)) (n : ℕ) (p : ℚ) : Py ℕ :=
  if 0 ≤ p ∧ p ≤ 1 then .ok (draw n p) else .error .samplerRejects

/-- The samplers take the channel's parameters. -/
structure Accepted (lamMax : ℚ) (M : MathFns) (params : ChannelParameters) : Prop where
  mu_nonneg : 0 ≤ params.sourceIntensityMu
  mu_le : params.sourceIntensityMu ≤ lamMax
  transmission_nonneg : 0 ≤ transmissionProb M params
  transmission_le : transmissionProb M params ≤ 1
  efficiency_nonneg : 0 ≤ params.detectorEfficiency
  efficiency_le : params.detectorEfficiency ≤ 1

/-! ### Source, fibre and detector -/

/-- `Basis(x)`. -/
def basis : ℤ → Py Basis
  | 0 => .ok .rectilinear
  | 1 => .ok .diagonal
  | _ => .error .valueError

theorem basis_toInt (bit : Bool) : basis bit.toInt = .ok (Basis.ofBit bit) := by
  cases bit <;> rfl

/-- `_BIT_BASIS_TO_POLARIZATION[(bit, basis)]`. -/
def bitBasisToPolarization : PyBit → Basis → Py Polarization
  | some 0, .rectilinear => .ok .H
  | some 1, .rectilinear => .ok .V
  | some 0, .diagonal => .ok .D
  | some 1, .diagonal => .ok .A
  | _, _ => .error .keyError

theorem bitBasisToPolarization_pyBit (bit : Bool) (b : Basis) :
    bitBasisToPolarization (pyBit bit) b = .ok (PhysicalLayer.bitBasisToPolarization bit b) := by
  cases bit <;> cases b <;> rfl

/-- `DetectionEvent`, with whatever its fields are given. -/
structure Event where
  pulseIndex : ℤ
  detected : Bool
  measuredBit : PyBit
  basis : Basis
  isDarkCount : Bool := false
  isAfterpulse : Bool := false

/-- An event of the total chain as Python builds it. -/
def event (e : DetectionEvent) : Event where
  pulseIndex := e.pulseIndex
  detected := e.detected
  measuredBit := e.measuredBit.map Bool.toInt
  basis := e.basis
  isDarkCount := e.isDarkCount
  isAfterpulse := e.isAfterpulse

/-- A detected event carries a bit and an undetected one carries none. -/
theorem event_measuredBit (e : DetectionEvent) :
    ((event e).detected = true →
      (event e).measuredBit = some 0 ∨ (event e).measuredBit = some 1) ∧
    ((event e).detected = false → (event e).measuredBit = none) := by
  have hiff := e.detected_eq
  simp only [event]
  cases hbit : e.measuredBit with
  | none =>
    rw [hbit] at hiff
    exact ⟨fun h => absurd (hiff.symm.trans h) (by simp), fun _ => rfl⟩
  | some bit =>
    rw [hbit] at hiff
    refine ⟨fun _ => ?_, fun h => absurd (hiff.symm.trans h) (by simp)⟩
    cases bit
    · exact .inl rfl
    · exact .inr rfl

variable (lamMax : ℚ) (M : MathFns) (params : ChannelParameters)

/-- `PhotonSource.emit_pulse`. -/
def emitPulse (draws : PulseDraws) (bit : PyBit) (b : Basis) : Py (ℕ × Polarization) := do
  let nPhotons ← poisson lamMax draws params.sourceIntensityMu
  let polarization ← bitBasisToPolarization bit b
  return (nPhotons, polarization)

/-- `QuantumChannel.transmit`. -/
def transmit (transmissionProb : ℚ) (draws : PulseDraws) (nPhotons : ℕ) : Py ℕ :=
  if nPhotons = 0 then .ok 0 else binomial draws.surviving nPhotons transmissionProb

/-- The photon detection of `detect`. -/
def photonFires (det : SinglePhotonDetector) (draws : PulseDraws) (nPhotons : ℕ) : Py Bool :=
  if nPhotons > 0 then do
    let triggered ← binomial draws.triggered nPhotons det.params.detectorEfficiency
    return decide (triggered > 0)
  else .ok false

/-- The bit recorded by a click. -/
def measuredBit (det : SinglePhotonDetector) (draws : PulseDraws)
    (isDarkCount photonDetected : Bool) (sentPolarization : Polarization)
    (measurementBasis : Basis) : ℤ :=
  let (sentBit, sentBasis) := polarizationToBitBasis sentPolarization
  if isDarkCount && !photonDetected then draws.bit.toInt
  else if measurementBasis = sentBasis then
    if draws.misalignment.below (det.misalignmentErrorProb M) then 1 - sentBit.toInt
    else sentBit.toInt
  else draws.bit.toInt

/-- `SinglePhotonDetector.detect`. -/
def detect (det : SinglePhotonDetector) (draws : PulseDraws) (nPhotons : ℕ)
    (sentPolarization : Polarization) (measurementBasis : Basis) (pulseIndex : ℤ) :
    Py (Event × SinglePhotonDetector) :=
  let missed : Event :=
    { pulseIndex := pulseIndex, detected := false, measuredBit := none,
      basis := measurementBasis }
  if det.recovering pulseIndex then .ok (missed, det)
  else do
    let isAfterpulse := det.afterpulseFires draws pulseIndex
    let isDarkCount := det.darkFires draws
    let photonDetected ← photonFires det draws nPhotons
    if photonDetected || isDarkCount || isAfterpulse then
      return ({ pulseIndex := pulseIndex
                detected := true
                measuredBit := some (measuredBit M det draws isDarkCount photonDetected
                  sentPolarization measurementBasis)
                basis := measurementBasis
                isDarkCount := isDarkCount && !photonDetected
                isAfterpulse := isAfterpulse && !photonDetected && !isDarkCount },
        { det with lastDetectionIndex := some pulseIndex })
    else return (missed, det)

/-- `PhysicalLayerSimulator.simulate_pulse`. -/
def simulatePulse (transmissionProb : ℚ) (det : SinglePhotonDetector) (draws : PulseDraws)
    (bit : PyBit) (aliceBasis bobBasis : Basis) (pulseIndex : ℤ) :
    Py (Event × SinglePhotonDetector) := do
  let (nPhotons, polarization) ← emitPulse lamMax params draws bit aliceBasis
  let nSurviving ← transmit transmissionProb draws nPhotons
  detect M det draws nSurviving polarization bobBasis pulseIndex

/-- The body of the loop in `simulate_n_pulses`. -/
def simulateStep (transmissionProb : ℚ) (draws : ℕ → PulseDraws) (aliceBits : List PyBit)
    (aliceBases bobBases : List Basis) (s : List Event × SinglePhotonDetector) (i : ℕ) :
    Py (List Event × SinglePhotonDetector) := do
  let bit ← item aliceBits i
  let aliceBasis ← item aliceBases i
  let bobBasis ← item bobBases i
  let (event, det) ← simulatePulse lamMax M params transmissionProb s.2 (draws i) bit
    aliceBasis bobBasis i
  return (s.1 ++ [event], det)

/-- `PhysicalLayerSimulator(params)` and `simulate_n_pulses`. -/
def simulateNPulses (draws : ℕ → PulseDraws) (n : ℕ) (aliceBits : List PyBit)
    (aliceBases bobBases : List Basis) : Py (List Event) := do
  let transmissionProb ← pow10 M (-(params.attenuationDbPerKm * params.fiberLengthKm) / 10)
  let (events, _) ← (List.range n).foldlM
    (simulateStep lamMax M params transmissionProb draws aliceBits aliceBases bobBases)
    ([], { params := params })
  return events

/-! ### Only a sampler can interrupt a run -/

theorem measuredBit_eq (det : SinglePhotonDetector) (draws : PulseDraws)
    (isDarkCount photonDetected : Bool) (sentPolarization : Polarization)
    (measurementBasis : Basis) :
    measuredBit M det draws isDarkCount photonDetected sentPolarization measurementBasis
      = (det.measuredBit M draws isDarkCount photonDetected sentPolarization
          measurementBasis).toInt := by
  simp only [measuredBit, SinglePhotonDetector.measuredBit]
  split_ifs
  · rfl
  · -- the flipped bit is one minus the sent one
    cases (polarizationToBitBasis sentPolarization).1 <;> rfl
  · rfl
  · rfl

/-- An attempt of the total chain: its event and the detector it leaves. -/
def attempt (s : DetectionEvent × SinglePhotonDetector) : Event × SinglePhotonDetector :=
  (event s.1, s.2)

section Yields

variable {lamMax M params} {allowed : PyException → Prop}
  (hrefused : ¬ Accepted lamMax M params → allowed .samplerRejects ∧ allowed .overflowError)

include hrefused

theorem poisson_yields (draws : PulseDraws) :
    Yields allowed (poisson lamMax draws params.sourceIntensityMu)
      (draws.poisson params.sourceIntensityMu) := by
  rw [poisson]
  split_ifs with h
  · exact .pure _
  · exact .error (hrefused fun hacc => h ⟨hacc.mu_nonneg, hacc.mu_le⟩).1 _

theorem transmit_yields (draws : PulseDraws) (nPhotons : ℕ) :
    Yields allowed (transmit (transmissionProb M params) draws nPhotons)
      (PhysicalLayer.transmit M params draws nPhotons) := by
  rw [transmit, PhysicalLayer.transmit]
  split_ifs with hn
  · exact .pure _
  · rw [binomial]
    split_ifs with h
    · exact .pure _
    · exact .error (hrefused fun hacc => h ⟨hacc.transmission_nonneg, hacc.transmission_le⟩).1 _

theorem photonFires_yields {det : SinglePhotonDetector} (hdet : det.params = params)
    (draws : PulseDraws) (nPhotons : ℕ) :
    Yields allowed (photonFires det draws nPhotons) (det.photonFires draws nPhotons) := by
  rw [photonFires]
  by_cases hn : nPhotons > 0
  · rw [if_pos hn, binomial, hdet]
    split_ifs with h
    · exact .inl (by simp [SinglePhotonDetector.photonFires, hn, hdet])
    · exact .error (hrefused fun hacc => h ⟨hacc.efficiency_nonneg, hacc.efficiency_le⟩).1 _
  · rw [if_neg hn]
    exact .inl (by simp [SinglePhotonDetector.photonFires, hn])

theorem detect_yields {det : SinglePhotonDetector} (hdet : det.params = params)
    (draws : PulseDraws) (nPhotons : ℕ) (sentPolarization : Polarization)
    (measurementBasis : Basis) (pulseIndex : ℤ) :
    Yields allowed (detect M det draws nPhotons sentPolarization measurementBasis pulseIndex)
      (attempt (det.detect M draws nPhotons sentPolarization measurementBasis pulseIndex)) := by
  rw [detect]
  by_cases hrec : det.recovering pulseIndex = true
  · rw [if_pos hrec, SinglePhotonDetector.detect, if_pos hrec]
    exact .pure _
  · rw [if_neg hrec, SinglePhotonDetector.detect, if_neg hrec]
    refine (photonFires_yields hrefused hdet draws nPhotons).bind ?_
    by_cases hclick : (det.photonFires draws nPhotons || det.darkFires draws
        || det.afterpulseFires draws pulseIndex) = true
    · rw [if_pos hclick, if_pos hclick, measuredBit_eq]
      exact .pure _
    · rw [if_neg hclick, if_neg hclick]
      exact .pure _

theorem simulatePulse_yields {det : SinglePhotonDetector} (hdet : det.params = params)
    (draws : PulseDraws) (bit : Bool) (aliceBasis bobBasis : Basis) (pulseIndex : ℤ) :
    Yields allowed
      (simulatePulse lamMax M params (transmissionProb M params) det draws (pyBit bit)
        aliceBasis bobBasis pulseIndex)
      (attempt (PhysicalLayer.simulatePulse M params det draws bit aliceBasis bobBasis
        pulseIndex)) := by
  have hemit : Yields allowed (emitPulse lamMax params draws (pyBit bit) aliceBasis)
      (PhysicalLayer.emitPulse params draws bit aliceBasis) := by
    rw [emitPulse, bitBasisToPolarization_pyBit]
    exact (poisson_yields hrefused draws).bind (.pure _)
  rw [simulatePulse]
  exact hemit.bind ((transmit_yields hrefused draws _).bind
    (detect_yields hrefused hdet draws _ _ _ _))

/-- **A run on bits computes the events of the total chain**, or a sampler refused. -/
theorem simulateNPulses_yields (draws : ℕ → PulseDraws) {n : ℕ} {aliceBits : List Bool}
    {aliceBases bobBases : List Basis} (hbits : aliceBits.length = n)
    (halice : aliceBases.length = n) (hbob : bobBases.length = n) :
    Yields allowed
      (simulateNPulses lamMax M params draws n (aliceBits.map pyBit) aliceBases bobBases)
      ((PhysicalLayer.simulateNPulses M params draws n aliceBits aliceBases bobBases).1.map
        event) := by
  have hpow : Yields allowed
      (pow10 M (-(params.attenuationDbPerKm * params.fiberLengthKm) / 10))
      (transmissionProb M params) := by
    rw [pow10]
    split_ifs with h
    · refine .error (hrefused fun hacc => ?_).2 _
      exact absurd (h.trans hacc.transmission_le) (not_le.mpr one_lt_floatLimit)
    · exact .pure _
  refine hpow.bind ?_
  let enc : List DetectionEvent × SinglePhotonDetector → List Event × SinglePhotonDetector :=
    Prod.map (List.map event) id
  have hloop : Yields allowed ((List.range n).foldlM (simulateStep lamMax M params
        (transmissionProb M params) draws (aliceBits.map pyBit) aliceBases bobBases)
          (enc ([], { params := params })))
      (enc (PhysicalLayer.simulateNPulses M params draws n aliceBits aliceBases bobBases)) := by
    -- along the loop the detector keeps its parameters
    refine Yields.foldlM enc (fun s => s.2.params = params) ?_ rfl
    intro s hs i hi
    have hi' := List.mem_range.mp hi
    refine ⟨?_, (s.2.detect_params ..).trans hs⟩
    rw [simulateStep, item_map pyBit (by omega) false, item_eq_ok (by omega) Basis.rectilinear,
      item_eq_ok (by omega) Basis.rectilinear]
    refine (simulatePulse_yields hrefused hs (draws i) _ _ _ i).bind (.inl ?_)
    simp [enc, attempt, pure, Except.pure]
  exact hloop.bind (.pure _)

end Yields

end Chain

end Checked
