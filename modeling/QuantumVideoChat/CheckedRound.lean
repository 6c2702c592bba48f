/-
The BB84 round with every exception it can raise (`BB84Protocol.run_round`).

`runRound` is the whole of `run_round` over integers and `None`.  Its stages raise nothing on
what the stages before them hand over; that is where the facts of the other modules meet.

* `runRound_yields` — a round returns what `Round.runRound` computes, unless a sampler refuses
  a channel parameter or a float product overflows;
* `siftedFrom_sifted` — the sifted lists are the bits at the kept indices, in pulse order;
* `round_cannot_crash` — the errors that are left, and the lists of a round.
-/
import QuantumVideoChat.CheckedCascade
import QuantumVideoChat.CheckedSift
import QuantumVideoChat.CheckedAmplify
import QuantumVideoChat.KeyAgreement

namespace Checked

open Exceptions PhysicalLayer Protocol

/-! ### Alice, Eve and Bob -/

/-- The bits of `integers(0, 2, size=n)`. -/
def drawnBits (draw : ℕ → Bool) (n : ℕ) : List PyBit :=
  (List.range n).map fun i => pyBit (draw i)

/-- `[Basis(int(x)) for x in integers(0, 2, size=n)]`. -/
def drawnBases (draw : ℕ → Bool) (n : ℕ) : Py (List Basis) :=
  (List.range n).mapM fun i => basis (draw i).toInt

/-- `EavesdropperSimulator.intercept_resend`. -/
def interceptResend (basisDraw bitDraw : Bool) (bit : PyBit) (aliceBasis : Basis) :
    Py (PyBit × Basis) := do
  let eveBasis ← basis basisDraw.toInt
  let eveBit := if eveBasis = aliceBasis then bit else pyBit bitDraw
  return (eveBit, eveBasis)

/-- The body of Eve's loop. -/
def eveStep (draws : RoundDraws) (eve : EavesdropperSimulator) (aliceBits : List PyBit)
    (aliceBases : List Basis) (s : List PyBit × List Basis) (i : ℕ) :
    Py (List PyBit × List Basis) := do
  let bit ← item aliceBits i
  let aliceBasis ← item aliceBases i
  if (draws.intercept i).below eve.interceptionRate then
    let (eveBit, eveBasis) ← interceptResend (draws.eveBasis i) (draws.eveBit i) bit aliceBasis
    return (s.1 ++ [eveBit], s.2 ++ [eveBasis])
  else return (s.1 ++ [bit], s.2 ++ [aliceBasis])

/-- What travels to Bob. -/
def sent (R : Round) (aliceBits : List PyBit) (aliceBases : List Basis) :
    Py (List PyBit × List Basis) :=
  match R.eavesdropper with
  | none => .ok (aliceBits, aliceBases)
  | some eve => (List.range R.n).foldlM (eveStep R.draws eve aliceBits aliceBases) ([], [])

/-! ### The round -/

/-- The events of a round: the draws of the bases, Eve's loop and the optical chain. -/
def events (lamMax : ℚ) (R : Round) (aliceBases bobBases : List Basis) : Py (List Event) := do
  let (bits, bases) ← sent R (drawnBits R.draws.aliceBit R.n) aliceBases
  simulateNPulses lamMax R.math R.config.channelParams R.draws.pulse R.n bits bases bobBases

/-- The results of the four exits without a key. -/
def abortedResult (R : Round) (qber : ℚ) (isSecure : Bool) (siftedBits detectionEvents : ℕ)
    (darkCountFraction : ℚ) (reason : AbortReason) : BB84RoundResult where
  key := none
  qber := qber
  isSecure := isSecure
  rawBitsGenerated := R.n
  siftedBits := siftedBits
  finalKeyBits := 0
  detectionEvents := detectionEvents
  darkCountFraction := darkCountFraction
  multiPhotonFraction := 0
  aborted := true
  abortReason := some reason
  durationSeconds := R.draws.duration

/-- `run_round`. -/
def runRound (lamMax : ℚ) (R : Round) : Py BB84RoundResult := do
  let aliceBits := drawnBits R.draws.aliceBit R.n
  let aliceBases ← drawnBases R.draws.aliceBasis R.n
  let bobBases ← drawnBases R.draws.bobBasis R.n
  let events ← events lamMax R aliceBases bobBases
  let detectedCount := events.countP fun e => e.detected
  let darkCountTotal := events.countP fun e => e.isDarkCount
  if detectedCount = 0 then return abortedResult R 1 false 0 0 0 .noPhotons
  else
    let sifted ← siftKeys aliceBits aliceBases bobBases events
    let siftedBits := sifted.aliceSiftedBits.length
    if siftedBits < Round.minSiftedBits then
      let darkCountFraction ← divide darkCountTotal (max detectedCount 1 : ℕ)
      return abortedResult R 1 false siftedBits detectedCount darkCountFraction
        .insufficientSifted
    else
      let estimate ← estimateQber sifted.aliceSiftedBits sifted.bobSiftedBits
        R.config.qberSampleFraction R.config.qberThreshold
      if estimate.isSecure = false then
        let darkCountFraction ← divide darkCountTotal (max detectedCount 1 : ℕ)
        return abortedResult R estimate.qber false siftedBits detectedCount darkCountFraction
          (.qberExceeds estimate.qber R.config.qberThreshold)
      else
        let aliceRemaining := sifted.aliceSiftedBits.drop estimate.sampleSize
        let bobRemaining := sifted.bobSiftedBits.drop estimate.sampleSize
        let correctedBits ← errorCorrectCascade R.draws.permutation aliceRemaining bobRemaining
          estimate.qber
        let amplified ← privacyAmplify R.math R.draws.toeplitz correctedBits estimate.qber
          R.config.targetKeyLengthBits
        let darkCountFraction ← divide darkCountTotal (max detectedCount 1 : ℕ)
        match amplified with
        | none =>
          return abortedResult R estimate.qber true siftedBits detectedCount darkCountFraction
            .insufficientAmplified
        | some key =>
          return { key := some key, qber := estimate.qber, isSecure := true,
                   rawBitsGenerated := R.n, siftedBits := siftedBits,
                   finalKeyBits := key.length * 8, detectionEvents := detectedCount,
                   darkCountFraction := darkCountFraction, multiPhotonFraction := 0,
                   aborted := false, abortReason := none,
                   durationSeconds := R.draws.duration }

/-! ### Alice, Eve and Bob: nothing is raised -/

theorem drawnBases_eq_ok (draw : ℕ → Bool) (n : ℕ) :
    drawnBases draw n = .ok ((List.range n).map fun i => Basis.ofBit (draw i)) :=
  mapM_eq_ok fun i _ => basis_toInt (draw i)

theorem drawnBits_aliceBit (R : Round) :
    drawnBits R.draws.aliceBit R.n = R.aliceBits.map pyBit := by
  rw [drawnBits, Round.aliceBits, List.map_map]
  rfl

theorem interceptResend_eq_ok (basisDraw bitDraw bit : Bool) (aliceBasis : Basis) :
    interceptResend basisDraw bitDraw (pyBit bit) aliceBasis
      = .ok ((Protocol.interceptResend basisDraw bitDraw bit aliceBasis).map pyBit id) := by
  rw [interceptResend, basis_toInt, Protocol.interceptResend]
  show Except.ok (if _ then _ else _, _) = Except.ok (pyBit (if _ then _ else _), _)
  rw [apply_ite pyBit]
  rfl

/-- Two lists grown together are two comprehensions. -/
theorem foldl_append_pair {α β : Type} (f : ℕ → α) (g : ℕ → β) (l : List ℕ) (s : List α × List β) :
    l.foldl (fun (s : List α × List β) i => (s.1 ++ [f i], s.2 ++ [g i])) s
      = (s.1 ++ l.map f, s.2 ++ l.map g) := by
  induction l generalizing s with
  | nil => simp
  | cons i l ih => simp [ih]

theorem range_map_getD {α : Type} (l : List α) (d : α) :
    (List.range l.length).map (fun i => l.getD i d) = l := by
  apply List.ext_getElem
  · simp
  · intro i h1 h2
    rw [List.getElem_map, List.getElem_range, List.getD_eq_getElem l d h2]

theorem length_aliceBits (R : Round) : R.aliceBits.length = R.n := by
  simp [Round.aliceBits]

theorem length_aliceBases (R : Round) : R.aliceBases.length = R.n := by
  simp [Round.aliceBases]

theorem length_bobBases (R : Round) : R.bobBases.length = R.n := by
  simp [Round.bobBases]

theorem sent_eq_ok (R : Round) :
    sent R (R.aliceBits.map pyBit) R.aliceBases = .ok (R.sentBits.map pyBit, R.sentBases) := by
  have hbits := length_aliceBits R
  have hbases := length_aliceBases R
  rw [sent]
  cases heve : R.eavesdropper with
  | none =>
    have hsent : ∀ i, R.sent i = (R.aliceBits.getD i false, R.aliceBases.getD i .rectilinear) :=
      fun i => by simp [Round.sent, Round.intercepts, heve]
    have h1 := range_map_getD R.aliceBits false
    have h2 := range_map_getD R.aliceBases .rectilinear
    rw [hbits] at h1
    rw [hbases] at h2
    simp only [Round.sentBits, Round.sentBases, hsent, h1, h2]
  | some eve =>
    let enc : List Bool × List Basis → List PyBit × List Basis := Prod.map (List.map pyBit) id
    have hgrown := foldl_append_pair (fun i => (R.sent i).1) (fun i => (R.sent i).2)
      (List.range R.n) ([], [])
    rw [List.nil_append, List.nil_append] at hgrown
    have hloop : (List.range R.n).foldlM (eveStep R.draws eve (R.aliceBits.map pyBit)
        R.aliceBases) (enc ([], [])) = .ok (enc (R.sentBits, R.sentBases)) := by
      rw [Round.sentBits, Round.sentBases, ← hgrown]
      refine foldlM_eq_ok enc (fun _ => True) (fun s _ i hi => ⟨?_, trivial⟩) trivial
      have hi' := List.mem_range.mp hi
      rw [eveStep, item_map pyBit (by omega) false, item_eq_ok (by omega) Basis.rectilinear]
      show (if _ then _ else _) = _
      have hint : R.intercepts i = (R.draws.intercept i).below eve.interceptionRate := by
        rw [Round.intercepts, heve]
      rw [← hint, Round.sent]
      split_ifs
      · rw [interceptResend_eq_ok]
        simp [enc, Round.eveMeasures, bind, Except.bind, pure, Except.pure]
      · simp [enc, pure, Except.pure]
    exact hloop

theorem events_yields {lamMax : ℚ} {R : Round} {allowed : PyException → Prop}
    (hrefused : ¬ Accepted lamMax R.math R.config.channelParams →
      allowed .samplerRejects ∧ allowed .overflowError) :
    Yields allowed (events lamMax R R.aliceBases R.bobBases) (R.events.map event) := by
  rw [events, drawnBits_aliceBit, sent_eq_ok]
  exact simulateNPulses_yields hrefused R.draws.pulse (by simp [Round.sentBits])
    (by simp [Round.sentBases]) (length_bobBases R)

/-! ### The whole round -/

theorem divide_max_eq_ok (dark detected : ℕ) :
    divide dark (max detected 1 : ℕ) = .ok ((dark : ℚ) / (max detected 1 : ℕ)) :=
  divide_eq_ok (Nat.cast_ne_zero.mpr (lt_max_of_lt_right Nat.zero_lt_one).ne')

theorem aliceBases_eq_ok (R : Round) : drawnBases R.draws.aliceBasis R.n = .ok R.aliceBases :=
  drawnBases_eq_ok _ _

theorem bobBases_eq_ok (R : Round) : drawnBases R.draws.bobBasis R.n = .ok R.bobBases :=
  drawnBases_eq_ok _ _

theorem sifted_eq_ok (R : Round) :
    siftKeys (R.aliceBits.map pyBit) R.aliceBases R.bobBases (R.events.map event)
      = .ok (siftedKeys R.sifted) :=
  siftKeys_eq_ok ((length_aliceBits R).trans R.length_events.symm)
    ((length_aliceBases R).trans R.length_events.symm)
    ((length_bobBases R).trans R.length_events.symm)

theorem correctedBits_eq_ok (R : Round) :
    errorCorrectCascade R.draws.permutation
        ((siftedKeys R.sifted).aliceSiftedBits.drop R.estimate.sampleSize)
        ((siftedKeys R.sifted).bobSiftedBits.drop R.estimate.sampleSize) R.estimate.qber
      = .ok (R.correctedBits.map pyBit) := by
  rw [siftedKeys, ← List.map_drop, ← List.map_drop]
  exact errorCorrectCascade_eq_ok _ _ R.length_remaining

/-- A round returns what the total round computes, unless a sampler refuses a channel
parameter or the product with the sample fraction overflows. -/
theorem runRound_yields {lamMax : ℚ} {R : Round} {allowed : PyException → Prop}
    (hrefused : ¬ Accepted lamMax R.math R.config.channelParams →
      allowed .samplerRejects ∧ allowed .overflowError)
    (hoverflow : floatLimit ≤ |R.siftedCount * R.config.qberSampleFraction| →
      allowed .overflowError) :
    Yields allowed (runRound lamMax R) R.runRound := by
  rw [runRound, drawnBits_aliceBit, aliceBases_eq_ok, bobBases_eq_ok]
  refine (events_yields hrefused).bind ?_
  rw [countP_detected_map, countP_darkCount_map, Round.runRound]
  show Yields allowed (if R.detectedCount = 0 then _ else _) _
  by_cases hdet : R.detectedCount = 0
  · rw [if_pos hdet, if_pos hdet]
    exact .pure _
  rw [if_neg hdet, if_neg hdet, sifted_eq_ok, divide_max_eq_ok]
  have hsifted : (siftedKeys R.sifted).aliceSiftedBits.length = R.siftedCount :=
    List.length_map _
  show Yields allowed (if (siftedKeys R.sifted).aliceSiftedBits.length < _ then _ else _) _
  rw [hsifted]
  by_cases hfew : R.siftedCount < Round.minSiftedBits
  · rw [if_pos hfew, if_pos hfew]
    exact .pure _
  rw [if_neg hfew, if_neg hfew]
  refine (estimateQber_yields R.length_bobSifted.symm _ _ hoverflow).bind ?_
  show Yields allowed (if R.estimate.isSecure = false then _ else _) _
  by_cases hsec : R.estimate.isSecure = false
  · rw [if_pos hsec, if_pos hsec]
    exact .pure _
  rw [if_neg hsec, if_neg hsec]
  refine (yields_of_eq (correctedBits_eq_ok R)).bind
    ((yields_of_eq (privacyAmplify_eq_ok _ _ _ _ _)).bind ?_)
  show Yields allowed (match R.amplify R.correctedBits with
    | none => _
    | some key => _) _
  cases R.amplify R.correctedBits with
  | none => exact .pure _
  | some key => exact .pure _

/-! ### The lists of a round -/

/-- Pulse `i` was detected and measured in the basis Alice had sent it in. -/
def kept (aliceBases bobBases : List Basis) (es : List Event) (i : ℕ) : Bool :=
  es[i]?.any (fun e => e.detected) && decide (aliceBases[i]? = bobBases[i]?)

/-- What sifting owes its inputs: the indices kept, in pulse order, and the bits of both
sides at exactly these. -/
structure SiftedFrom (aliceBits : List PyBit) (aliceBases bobBases : List Basis)
    (es : List Event) (s : SiftedKeyResult) : Prop where
  indices : s.matchingIndices = (List.range es.length).filter (kept aliceBases bobBases es)
  alice : s.aliceSiftedBits.map some = s.matchingIndices.map fun i => aliceBits[i]?
  bob : s.bobSiftedBits.map some = s.matchingIndices.map fun i => es[i]?.map (·.measuredBit)
  length_eq : s.aliceSiftedBits.length = s.bobSiftedBits.length

/-- For pulses within the lists the bases are the ones `getD` reads. -/
theorem getElem?_eq_iff_getD {α : Type} {l m : List α} {i : ℕ} (hl : i < l.length)
    (hm : i < m.length) (d : α) : l[i]? = m[i]? ↔ l.getD i d = m.getD i d := by
  rw [List.getElem?_eq_getElem hl, List.getElem?_eq_getElem hm, Option.some_inj,
    List.getD_eq_getElem l d hl, List.getD_eq_getElem m d hm]

theorem matchingIndices_eq (R : Round) :
    R.sifted.matchingIndices = (List.range R.events.length).filter
      (kept R.aliceBases R.bobBases (R.events.map event)) := by
  have hindex : ∀ x ∈ R.events.zipIdx,
      (survivor R.aliceBits R.aliceBases R.bobBases x).map (·.2.2)
        = Option.guard (kept R.aliceBases R.bobBases (R.events.map event)) x.2 := by
    rintro ⟨e, i⟩ hx
    have he : R.events[i]? = some e := List.mem_zipIdx_iff_getElem?.mp hx
    have hi : i < R.n := by
      rw [← R.length_events]
      exact (List.getElem?_eq_some_iff.mp he).choose
    have hbases := getElem?_eq_iff_getD ((length_aliceBases R).symm ▸ hi)
      ((length_bobBases R).symm ▸ hi) Basis.rectilinear
    have hkept : kept R.aliceBases R.bobBases (R.events.map event) i = true ↔
        e.detected = true ∧ R.aliceBases.getD i .rectilinear = R.bobBases.getD i .rectilinear := by
      rw [kept, List.getElem?_map, he, ← hbases]
      simp [event]
    rw [survivor, Option.guard]
    by_cases h : e.detected = true ∧
        R.aliceBases.getD i .rectilinear = R.bobBases.getD i .rectilinear
    · rw [dif_pos h, if_pos (hkept.mpr h)]
      rfl
    · rw [dif_neg h, if_neg (mt hkept.mp h)]
      rfl
  rw [R.sifted_lists.2.2, survivors, List.map_filterMap, List.filterMap_congr hindex,
    ← List.filterMap_eq_filter, List.range_eq_range', ← List.zipIdx_map_snd, List.filterMap_map]
  rfl

theorem siftedFrom_sifted (R : Round) :
    SiftedFrom (R.aliceBits.map pyBit) R.aliceBases R.bobBases (R.events.map event)
      (siftedKeys R.sifted) := by
  obtain ⟨halice, hbob, hindices⟩ := R.sifted_lists
  refine ⟨?_, ?_, ?_, ?_⟩
  · rw [List.length_map]
    exact matchingIndices_eq R
  · simp only [siftedKeys]
    rw [halice, hindices, List.map_map, List.map_map, List.map_map]
    refine List.map_congr_left fun ⟨a, b, i⟩ hmem => ?_
    obtain ⟨e, he, -, -, rfl, -⟩ := (mem_survivors _ _ _).mp hmem
    have hi : i < R.aliceBits.length := by
      rw [length_aliceBits, ← R.length_events]
      exact (List.getElem?_eq_some_iff.mp he).choose
    show some (pyBit (R.aliceBits.getD i false)) = (R.aliceBits.map pyBit)[i]?
    rw [List.getElem?_map, List.getElem?_eq_getElem hi, List.getD_eq_getElem _ _ hi]
    rfl
  · simp only [siftedKeys]
    rw [hbob, hindices, List.map_map, List.map_map, List.map_map]
    refine List.map_congr_left fun ⟨a, b, i⟩ hmem => ?_
    obtain ⟨e, he, -, -, -, hb⟩ := (mem_survivors _ _ _).mp hmem
    show some (pyBit b) = ((R.events.map event)[i]?).map (·.measuredBit)
    rw [List.getElem?_map, he]
    show _ = some (e.measuredBit.map Bool.toInt)
    rw [hb]
    rfl
  · show (R.sifted.aliceSiftedBits.map pyBit).length = (R.sifted.bobSiftedBits.map pyBit).length
    rw [List.length_map, List.length_map, R.length_bobSifted]
    rfl

/-- What the estimate and the correction owe the sifted lists: a sample of at least one bit and
at most all of them, which with the remaining bits makes up each list, and blocks that are not
empty in any pass over the remaining bits. -/
structure SplitBy (s : SiftedKeyResult) (estimate : QBEREstimate) : Prop where
  one_le : 1 ≤ estimate.sampleSize
  le_length : estimate.sampleSize ≤ s.aliceSiftedBits.length
  alice : s.aliceSiftedBits.take estimate.sampleSize
    ++ s.aliceSiftedBits.drop estimate.sampleSize = s.aliceSiftedBits
  bob : s.bobSiftedBits.take estimate.sampleSize
    ++ s.bobSiftedBits.drop estimate.sampleSize = s.bobSiftedBits
  one_le_blockSize : ∀ pass, 0 < (s.bobSiftedBits.drop estimate.sampleSize).length →
    1 ≤ min (Cascade.initialBlockSize estimate.qber * 2 ^ pass)
      (s.bobSiftedBits.drop estimate.sampleSize).length

theorem splitBy_estimate (R : Round) (hsifted : 0 < R.siftedCount) :
    SplitBy (siftedKeys R.sifted) R.estimate := by
  have hlength : (siftedKeys R.sifted).aliceSiftedBits.length = R.siftedCount :=
    List.length_map _
  have hsize : R.estimate.sampleSize = (min (max 1 (pyInt (R.siftedCount
      * R.config.qberSampleFraction))) (R.siftedCount : ℤ)).toNat := rfl
  refine ⟨?_, ?_, List.take_append_drop _ _, List.take_append_drop _ _, fun pass hrest =>
    Cascade.passBlockSize_pos R.estimate.qber hrest pass⟩
  · rw [hsize]
    omega
  · rw [hlength, hsize]
    omega

/-- The exception of a call that raised one. -/
def raised {α : Type} : Py α → Option PyException
  | .error e => some e
  | .ok _ => none

theorem overflow_le {R : Round}
    (h : floatLimit ≤ |R.siftedCount * R.config.qberSampleFraction|) :
    floatLimit ≤ |R.n * R.config.qberSampleFraction| := by
  have hcount : (R.siftedCount : ℚ) ≤ R.n := by
    exact_mod_cast R.siftedCount_le.trans R.detectedCount_le
  refine h.trans ?_
  rw [abs_mul, abs_mul, Nat.abs_cast, Nat.abs_cast]
  exact mul_le_mul_of_nonneg_right hcount (abs_nonneg _)

theorem eq_events {lamMax : ℚ} {R : Round} {es : List Event}
    (h : events lamMax R R.aliceBases R.bobBases = .ok es) : es = R.events.map event := by
  have hyields : Yields (fun _ => True) (events lamMax R R.aliceBases R.bobBases)
      (R.events.map event) := events_yields fun _ => ⟨trivial, trivial⟩
  exact hyields.eq_of_ok h

theorem eq_estimate {R : Round} {estimate : QBEREstimate}
    (h : estimateQber (siftedKeys R.sifted).aliceSiftedBits (siftedKeys R.sifted).bobSiftedBits
      R.config.qberSampleFraction R.config.qberThreshold = .ok estimate) :
    estimate = R.estimate := by
  have hyields : Yields (fun _ => True) (estimateQber (siftedKeys R.sifted).aliceSiftedBits
      (siftedKeys R.sifted).bobSiftedBits R.config.qberSampleFraction R.config.qberThreshold)
      R.estimate := estimateQber_yields R.length_bobSifted.symm _ _ fun _ => trivial
  exact hyields.eq_of_ok h

/-- The exceptions that are left, with the configurations in which they can occur. -/
def Admitted (lamMax : ℚ) (R : Round) (e : PyException) : Prop :=
  (e = .samplerRejects ∨ e = .overflowError) ∧
    (Accepted lamMax R.math R.config.channelParams →
      e = .overflowError ∧ floatLimit ≤ |R.n * R.config.qberSampleFraction|)

theorem runRound_yields_admitted (lamMax : ℚ) (R : Round) :
    Yields (Admitted lamMax R) (runRound lamMax R) R.runRound := by
  refine runRound_yields (fun hrefused => ⟨?_, ?_⟩) fun hoverflow => ?_
  · exact ⟨.inl rfl, fun hacc => absurd hacc hrefused⟩
  · exact ⟨.inr rfl, fun hacc => absurd hacc hrefused⟩
  · exact ⟨.inr rfl, fun _ => ⟨rfl, overflow_le hoverflow⟩⟩

/-- **A round cannot crash.**  No index, missing bit, division, logarithm or block size goes
wrong in any configuration of finite parameters (there is no NaN and no infinity here); what can
be raised is a sampler's refusal of a channel parameter and the overflow of a float. -/
theorem round_cannot_crash (lamMax : ℚ) (R : Round) :
    (∀ e, runRound lamMax R = .error e → Admitted lamMax R e) ∧
    (Accepted lamMax R.math R.config.channelParams →
      |R.n * R.config.qberSampleFraction| < floatLimit →
        runRound lamMax R = .ok R.runRound) ∧
    ∃ aliceBases bobBases,
      drawnBases R.draws.aliceBasis R.n = .ok aliceBases ∧
      drawnBases R.draws.bobBasis R.n = .ok bobBases ∧
      ∀ es, events lamMax R aliceBases bobBases = .ok es →
        (∀ e ∈ es, (e.detected = true → e.measuredBit = some 0 ∨ e.measuredBit = some 1) ∧
          (e.detected = false → e.measuredBit = none)) ∧
        ∃ sifted, siftKeys (drawnBits R.draws.aliceBit R.n) aliceBases bobBases es = .ok sifted ∧
          SiftedFrom (drawnBits R.draws.aliceBit R.n) aliceBases bobBases es sifted ∧
          ∀ estimate, estimateQber sifted.aliceSiftedBits sifted.bobSiftedBits
              R.config.qberSampleFraction R.config.qberThreshold = .ok estimate →
            0 < sifted.aliceSiftedBits.length → SplitBy sifted estimate := by
  have hround := runRound_yields_admitted lamMax R
  refine ⟨fun e he => ?_, fun hacc hfit => ?_, R.aliceBases, R.bobBases, aliceBases_eq_ok R,
    bobBases_eq_ok R, fun es hes => ?_⟩
  · rcases hround with h | ⟨e', h, hadmitted⟩
    · exact absurd (he.symm.trans h) (by simp)
    · obtain rfl : e = e' := Except.error.inj (he.symm.trans h)
      exact hadmitted
  · exact hround.eq_ok fun e hadmitted => not_le.mpr hfit (hadmitted.2 hacc).2
  · obtain rfl := eq_events hes
    rw [drawnBits_aliceBit]
    refine ⟨fun e he => ?_, siftedKeys R.sifted, sifted_eq_ok R, siftedFrom_sifted R,
      fun estimate hestimate hpos => ?_⟩
    · obtain ⟨e, -, rfl⟩ := List.mem_map.mp he
      exact event_measuredBit e
    · obtain rfl := eq_estimate hestimate
      rw [siftedKeys, List.length_map] at hpos
      exact splitBy_estimate R hpos

/-- The link of `quietParams` is one that the samplers take. -/
theorem round_cannot_crash_quietRound :
    runRound 1000 quietRound = .ok quietRound.runRound :=
  (round_cannot_crash 1000 quietRound).2.1
    ⟨by decide +kernel, by decide +kernel, by decide +kernel, by decide +kernel,
      by decide +kernel, by decide +kernel⟩ (by decide +kernel)

/-- A source with a negative mean. -/
def negativeMeanRound : Round :=
  { quietRound with config :=
      { numRawBits := 1, channelParams := { quietParams with sourceIntensityMu := -1 } } }

/-- Sixty-six sifted bits and a sample fraction of `10 ** 308`. -/
def hugeFractionRound : Round :=
  { quietRound with config :=
      { numRawBits := 66, qberSampleFraction := 10 ^ 308, channelParams := quietParams } }

theorem round_raises :
    raised (runRound 1000 negativeMeanRound) = some .samplerRejects ∧
      raised (runRound 1000 hugeFractionRound) = some .overflowError := by
  decide +kernel

end Checked
