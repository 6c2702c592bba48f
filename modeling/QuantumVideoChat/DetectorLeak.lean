/-
What a click without a photon tells about the sent bit.

Two attempts on the same detector, with the same draws and bases, for the two bits of the
sender.  A dark count is a coin; an afterpulse without a photon is read out like a photon.

* `detect_zero` — an attempt on an empty pulse, by its causes;
* `detect_zero_eq_iff` — the event depends on the sent bit exactly when an afterpulse alone
  clicks in the sender's basis.
-/
import QuantumVideoChat.KeyAgreement

namespace PhysicalLayer

namespace SinglePhotonDetector

variable (M : MathFns) (det : SinglePhotonDetector) (draws : PulseDraws)

/-- The detector has recovered from its last click, still afterpulses, and no dark count
comes with it. -/
def AfterpulseAlone (pulseIndex : ℤ) : Prop :=
  ∃ last, det.lastDetectionIndex = some last ∧
    det.deadTimePulses ≤ pulseIndex - last ∧ pulseIndex - last < det.deadTimePulses * 3 ∧
    draws.afterpulse.val < det.params.afterpulseProbability ∧
    det.params.darkCountRate ≤ draws.dark.val

/-- The same by the three checks of `detect`. -/
theorem afterpulseAlone_iff (pulseIndex : ℤ) :
    det.AfterpulseAlone draws pulseIndex
      ↔ det.recovering pulseIndex = false ∧ det.afterpulseFires draws pulseIndex = true ∧
        det.darkFires draws = false := by
  rw [AfterpulseAlone, recovering, afterpulseFires, darkFires, UnitDraw.below]
  cases det.lastDetectionIndex with
  | none => simp
  | some last => simp [UnitDraw.below, and_assoc]

theorem photonFires_zero : det.photonFires draws 0 = false := rfl

/-- An attempt on an empty pulse. -/
theorem detect_zero (sentPolarization : Polarization) (measurementBasis : Basis)
    (pulseIndex : ℤ) :
    det.detect M draws 0 sentPolarization measurementBasis pulseIndex
      = if det.recovering pulseIndex = false ∧
            (det.darkFires draws = true ∨ det.afterpulseFires draws pulseIndex = true) then
          (.click pulseIndex
              (det.measuredBit M draws (det.darkFires draws) false sentPolarization
                measurementBasis)
              measurementBasis (det.darkFires draws)
              (det.afterpulseFires draws pulseIndex && !det.darkFires draws),
            { det with lastDetectionIndex := some pulseIndex })
        else (.missed pulseIndex measurementBasis, det) := by
  rw [detect, photonFires_zero]
  cases det.recovering pulseIndex <;> cases det.darkFires draws <;>
    cases det.afterpulseFires draws pulseIndex <;> simp

theorem click_inj {pulseIndex : ℤ} {b b' : Bool} {basis : Basis} {d a : Bool} :
    DetectionEvent.click pulseIndex b basis d a = .click pulseIndex b' basis d a ↔ b = b' := by
  constructor
  · intro h
    exact Option.some_inj.mp (congrArg DetectionEvent.measuredBit h)
  · rintro rfl
    rfl

/-- The recorded bit of a click without a photon: a coin for a dark count and in the wrong
basis, the sent bit or its complement for an afterpulse in the right one. -/
theorem measuredBit_eq_iff (isDarkCount : Bool) (basis measurementBasis : Basis) :
    det.measuredBit M draws isDarkCount false (bitBasisToPolarization false basis)
          measurementBasis
        = det.measuredBit M draws isDarkCount false (bitBasisToPolarization true basis)
          measurementBasis
      ↔ ¬ (isDarkCount = false ∧ measurementBasis = basis) := by
  simp only [measuredBit, polarizationToBitBasis_bitBasisToPolarization]
  cases isDarkCount with
  | true => simp
  | false =>
    by_cases hb : measurementBasis = basis
    · -- misaligned or not, the two bits come out different
      cases draws.misalignment.below (det.misalignmentErrorProb M) <;> simp [hb]
    · simp [hb]

/-- **What an empty pulse tells.**  For any detector state, parameters, bases, pulse index
and draws, the attempts for the two bits give the same event and the same next state if and
only if no afterpulse alone clicks in the sender's basis. -/
theorem detect_zero_eq_iff (basis measurementBasis : Basis) (pulseIndex : ℤ) :
    det.detect M draws 0 (bitBasisToPolarization false basis) measurementBasis pulseIndex
        = det.detect M draws 0 (bitBasisToPolarization true basis) measurementBasis pulseIndex
      ↔ ¬ (det.AfterpulseAlone draws pulseIndex ∧ measurementBasis = basis) := by
  rw [afterpulseAlone_iff, detect_zero, detect_zero]
  by_cases hclick : det.recovering pulseIndex = false ∧
      (det.darkFires draws = true ∨ det.afterpulseFires draws pulseIndex = true)
  · -- both click, and only the recorded bits can differ
    rw [if_pos hclick, if_pos hclick, Prod.mk.injEq, and_iff_left rfl, click_inj,
      measuredBit_eq_iff]
    refine not_congr ⟨fun h => ⟨⟨hclick.1, ?_, h.1⟩, h.2⟩, fun h => ⟨h.1.2.2, h.2⟩⟩
    rcases hclick.2 with hdark | hafter
    · exact absurd hdark (by rw [h.1]; exact Bool.false_ne_true)
    · exact hafter
  · rw [if_neg hclick, if_neg hclick]
    exact iff_of_true rfl fun h => hclick ⟨h.1.1, .inr h.1.2.1⟩

/-- A detector that clicked at pulse 0. -/
def clickedAtZero : SinglePhotonDetector := { params := {}, lastDetectionIndex := some 0 }

/-- An afterpulse and nothing else. -/
def afterpulseDraws : PulseDraws where
  poisson := fun _ => 0
  surviving := fun _ _ => 0
  afterpulse := .zero
  dark := .half
  triggered := fun _ _ => 0
  misalignment := .half
  bit := false

/-- At pulse 50 the default detector has recovered, and the afterpulse reads out the bit. -/
theorem clickedAtZero_leaks :
    ¬ ∀ (M : MathFns) (det : SinglePhotonDetector) (draws : PulseDraws)
        (basis measurementBasis : Basis) (pulseIndex : ℤ),
      det.detect M draws 0 (bitBasisToPolarization false basis) measurementBasis pulseIndex
        = det.detect M draws 0 (bitBasisToPolarization true basis) measurementBasis
            pulseIndex := by
  intro h
  have hbit := congrArg (fun r => r.1.measuredBit)
    (h Protocol.quietMath clickedAtZero afterpulseDraws .rectilinear .rectilinear 50)
  exact absurd hbit (by decide +kernel)

end SinglePhotonDetector

end PhysicalLayer
