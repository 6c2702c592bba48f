/-
What the dead time of the detector leaves of a key.

After a click the detector is blind for `deadTimePulses` pulses, whatever arrives; this
bounds the clicks of a run, and through sampling and amplification the length of the key.

* `Spaced.card_le` — of numbers at least `D` apart at most `⌈n / D⌉` are below `n`;
* `clicks_spaced` — two clicks of one run are a dead time apart;
* `dead_time_bounds_key` — detection events and final key bits of any round;
* `clicks_iff_dvd` — when photons arrive at every pulse the bound is attained, and
  `busyRound_runRound` is the key of such a round.
-/
import QuantumVideoChat.KeyAgreement

/-! ### Spaced predicates -/

/-- The numbers with `p` are at least `D` apart. -/
def Spaced (p : ℕ → Prop) (D : ℕ) : Prop := ∀ i j, i < j → p i → p j → i + D ≤ j

namespace Spaced

variable {p : ℕ → Prop} {D : ℕ}

/-- No two of them lie in one block of `D` consecutive numbers. -/
theorem injOn_div (h : Spaced p D) (hD : 0 < D) : Set.InjOn (· / D) {i | p i} := by
  intro i hi j hj heq
  dsimp only at heq
  have hdiv : ∀ a b, a + D ≤ b → a / D < b / D := by
    intro a b hab
    calc a / D < a / D + 1 := Nat.lt_succ_self _
      _ = (a + D) / D := (Nat.add_div_right a hD).symm
      _ ≤ b / D := Nat.div_le_div_right hab
  rcases lt_trichotomy i j with hlt | rfl | hlt
  · exact absurd heq (hdiv i j (h i j hlt hi hj)).ne
  · rfl
  · exact absurd heq.symm (hdiv j i (h j i hlt hj hi)).ne

theorem card_le [DecidablePred p] (h : Spaced p D) (hD : 0 < D) (n : ℕ) :
    ((Finset.range n).filter p).card ≤ n ⌈/⌉ D := by
  rw [← Finset.card_range (n ⌈/⌉ D)]
  refine Finset.card_le_card_of_injOn (· / D) (fun i hi => ?_)
    ((h.injOn_div hD).mono fun i hi => (Finset.mem_filter.mp hi).2)
  have hi' : i < n := Finset.mem_range.mp (Finset.mem_filter.mp hi).1
  have hblock : i / D * D ≤ i := Nat.div_mul_le_self i D
  rw [Finset.mem_coe, Finset.mem_range, Nat.ceilDiv_eq_add_pred_div,
    Nat.lt_iff_add_one_le, Nat.le_div_iff_mul_le hD, Nat.succ_mul]
  show i / D * D + D ≤ n + D - 1
  omega

end Spaced

/-! ### Clicks of a run -/

namespace PhysicalLayer

section Clicks

variable (M : MathFns) (params : ChannelParameters) (draws : ℕ → PulseDraws)
  (aliceBits : List Bool) (aliceBases bobBases : List Basis)

/-- Pulse `i` makes the detector click. -/
def Clicks (i : ℕ) : Prop :=
  (attemptAt M params draws aliceBits aliceBases bobBases i).1.detected = true

instance : DecidablePred (Clicks M params draws aliceBits aliceBases bobBases) :=
  fun _ => inferInstanceAs (Decidable (_ = true))

/-- `_dead_time_pulses` of a detector with these parameters. -/
def deadTime : ℕ := (max 1 (pyInt params.deadTimeNs)).toNat

theorem deadTime_pos : 0 < deadTime params := by
  rw [deadTime]
  omega

/-- A pulse misses and leaves the detector alone, or clicks after the dead time and is
remembered. -/
theorem attemptAt_cases (i : ℕ) :
    (¬ Clicks M params draws aliceBits aliceBases bobBases i ∧
      detectorAt M params draws aliceBits aliceBases bobBases (i + 1)
        = detectorAt M params draws aliceBits aliceBases bobBases i) ∨
    (Clicks M params draws aliceBits aliceBases bobBases i ∧
      (detectorAt M params draws aliceBits aliceBases bobBases i).recovering i = false ∧
      (detectorAt M params draws aliceBits aliceBases bobBases (i + 1)).lastDetectionIndex
        = some (i : ℤ)) := by
  have hnext : detectorAt M params draws aliceBits aliceBases bobBases (i + 1)
      = (attemptAt M params draws aliceBits aliceBases bobBases i).2 := by
    rw [detectorAt, simulateNPulses_succ]
  rw [hnext, Clicks, attemptAt, simulatePulse, emitPulse]
  dsimp only
  rcases SinglePhotonDetector.detect_cases M
    (detectorAt M params draws aliceBits aliceBases bobBases i) (draws i)
    (transmit M params (draws i) ((draws i).poisson params.sourceIntensityMu))
    (bitBasisToPolarization (aliceBits.getD i false) (aliceBases.getD i .rectilinear))
    (bobBases.getD i .rectilinear) i with hmiss | ⟨hrec, -, hhit⟩
  · rw [hmiss]
    exact .inl ⟨by simp, rfl⟩
  · rw [hhit]
    exact .inr ⟨rfl, hrec, rfl⟩

variable {M params draws aliceBits aliceBases bobBases}

/-- The detector remembers an index not before any click so far. -/
theorem click_le_lastDetectionIndex {i j : ℕ} (hj : j < i)
    (hclick : Clicks M params draws aliceBits aliceBases bobBases j) :
    ∃ last, (detectorAt M params draws aliceBits aliceBases bobBases i).lastDetectionIndex
      = some last ∧ (j : ℤ) ≤ last := by
  induction i with
  | zero => exact absurd hj (Nat.not_lt_zero j)
  | succ i ih =>
    rcases attemptAt_cases M params draws aliceBits aliceBases bobBases i with
      ⟨hmiss, hdet⟩ | ⟨-, -, hlast⟩
    · -- the pulse that missed is not `j`
      rw [hdet]
      rcases Nat.lt_succ_iff_lt_or_eq.mp hj with hlt | rfl
      · exact ih hlt
      · exact absurd hclick hmiss
    · exact ⟨i, hlast, by exact_mod_cast Nat.lt_succ_iff.mp hj⟩

/-- What it remembers is a click. -/
theorem clicks_of_lastDetectionIndex {i : ℕ} {last : ℤ}
    (h : (detectorAt M params draws aliceBits aliceBases bobBases i).lastDetectionIndex
      = some last) :
    ∃ j < i, (j : ℤ) = last ∧ Clicks M params draws aliceBits aliceBases bobBases j := by
  induction i with
  | zero => exact absurd h (by simp [detectorAt, simulateNPulses])
  | succ i ih =>
    rcases attemptAt_cases M params draws aliceBits aliceBases bobBases i with
      ⟨-, hdet⟩ | ⟨hclick, -, hlast⟩
    · rw [hdet] at h
      obtain ⟨j, hj, hjlast, hclick⟩ := ih h
      exact ⟨j, Nat.lt_succ_of_lt hj, hjlast, hclick⟩
    · rw [hlast, Option.some_inj] at h
      exact ⟨i, Nat.lt_succ_self i, h, hclick⟩

/-- A pulse clicks exactly when the detector has recovered and one of the causes fires. -/
theorem clicks_iff (i : ℕ) :
    Clicks M params draws aliceBits aliceBases bobBases i ↔
      (detectorAt M params draws aliceBits aliceBases bobBases i).recovering i = false ∧
        ((detectorAt M params draws aliceBits aliceBases bobBases i).photonFires (draws i)
            (transmit M params (draws i) ((draws i).poisson params.sourceIntensityMu)) = true ∨
          (detectorAt M params draws aliceBits aliceBases bobBases i).darkFires (draws i)
            = true ∨
          (detectorAt M params draws aliceBits aliceBases bobBases i).afterpulseFires (draws i) i
            = true) := by
  rw [Clicks, attemptAt, simulatePulse, emitPulse]
  dsimp only
  rw [SinglePhotonDetector.detect]
  dsimp only
  split_ifs with hrec hclick
  · simp [hrec]
  · simpa [hrec, or_assoc] using hclick
  · simpa [hrec, or_assoc] using hclick

/-- Arriving photons trigger the detector at pulse `i`. -/
def photonTriggers (M : MathFns) (params : ChannelParameters) (draws : ℕ → PulseDraws)
    (i : ℕ) : Bool :=
  SinglePhotonDetector.photonFires { params := params } (draws i)
    (transmit M params (draws i) ((draws i).poisson params.sourceIntensityMu))

theorem photonFires_detectorAt (i : ℕ) :
    (detectorAt M params draws aliceBits aliceBases bobBases i).photonFires (draws i)
        (transmit M params (draws i) ((draws i).poisson params.sourceIntensityMu))
      = photonTriggers M params draws i := by
  rw [photonTriggers, SinglePhotonDetector.photonFires, SinglePhotonDetector.photonFires,
    detectorAt_params]

theorem dvd_succ_iff {D i : ℕ} (hD : 0 < D) : D ∣ i + 1 ↔ i / D * D + D ≤ i + 1 := by
  have hdiv := Nat.div_add_mod' i D
  have hmod := Nat.mod_lt i hD
  constructor
  · rintro ⟨k, hk⟩
    have hlt : i / D < k := (Nat.div_lt_iff_lt_mul hD).mpr (by rw [Nat.mul_comm k]; omega)
    have := Nat.mul_le_mul_right D (Nat.succ_le_of_lt hlt)
    rw [Nat.succ_mul, Nat.mul_comm k] at this
    omega
  · intro h
    exact ⟨i / D + 1, by rw [Nat.mul_add_one, Nat.mul_comm]; omega⟩

/-- When photons trigger at every pulse, the detector clicks at the multiples of its dead
time and remembers the last of them. -/
theorem clicks_iff_dvd (h : ∀ i, photonTriggers M params draws i = true) (i : ℕ) :
    (Clicks M params draws aliceBits aliceBases bobBases i ↔ deadTime params ∣ i) ∧
      (detectorAt M params draws aliceBits aliceBases bobBases (i + 1)).lastDetectionIndex
        = some ((i / deadTime params * deadTime params : ℕ) : ℤ) := by
  have hD := deadTime_pos params
  have hclicks : ∀ i, Clicks M params draws aliceBits aliceBases bobBases i ↔
      (detectorAt M params draws aliceBits aliceBases bobBases i).recovering i = false := by
    intro i
    rw [clicks_iff, photonFires_detectorAt, h i]
    simp
  -- what the detector remembers after pulse `i` follows from whether it clicked
  have hnext := attemptAt_cases M params draws aliceBits aliceBases bobBases
  induction i with
  | zero =>
    have hclick : Clicks M params draws aliceBits aliceBases bobBases 0 := (hclicks 0).mpr rfl
    refine ⟨iff_of_true hclick (dvd_zero _), ?_⟩
    rcases hnext 0 with ⟨hmiss, -⟩ | ⟨-, -, hlast⟩
    · exact absurd hclick hmiss
    · rw [hlast, Nat.zero_div, Nat.zero_mul]
  | succ i ih =>
    have hrec : (detectorAt M params draws aliceBits aliceBases bobBases
        (i + 1)).recovering (i + 1 : ℕ) = false ↔ deadTime params ∣ i + 1 := by
      have hcast : ((deadTime params : ℕ) : ℤ) = max 1 (pyInt params.deadTimeNs) :=
        Int.toNat_of_nonneg (by omega)
      rw [SinglePhotonDetector.recovering, ih.2, SinglePhotonDetector.deadTimePulses,
        detectorAt_params, ← hcast, dvd_succ_iff hD]
      simp only [decide_eq_false_iff_not, not_lt]
      omega
    refine ⟨(hclicks (i + 1)).trans hrec, ?_⟩
    rcases hnext (i + 1) with ⟨hmiss, hdet⟩ | ⟨hclick, -, hlast⟩
    · have hnot : ¬ deadTime params ∣ i + 1 := fun hd =>
        hmiss ((hclicks (i + 1)).mpr (hrec.mpr hd))
      rw [hdet, ih.2, Nat.succ_div, if_neg hnot, Nat.add_zero]
    · have hd : deadTime params ∣ i + 1 := hrec.mp ((hclicks (i + 1)).mp hclick)
      rw [hlast, Nat.div_mul_cancel hd]

/-- Two clicks are a dead time apart. -/
theorem clicks_spaced :
    Spaced (Clicks M params draws aliceBits aliceBases bobBases) (deadTime params) := by
  intro j i hji hj hi
  obtain ⟨last, hlast, hle⟩ := click_le_lastDetectionIndex hji hj
  have hparams := detectorAt_params M params draws aliceBits aliceBases bobBases i
  rcases attemptAt_cases M params draws aliceBits aliceBases bobBases i with
    ⟨hmiss, -⟩ | ⟨-, hrec, -⟩
  · exact absurd hi hmiss
  · -- the click at `i` passed the dead time check against the remembered index
    simp only [SinglePhotonDetector.recovering, hlast, SinglePhotonDetector.deadTimePulses,
      hparams, decide_eq_false_iff_not, not_lt] at hrec
    rw [deadTime]
    omega

theorem countP_detected (n : ℕ) :
    (simulateNPulses M params draws n aliceBits aliceBases bobBases).1.countP
        (fun e => e.detected)
      = ((Finset.range n).filter
          (Clicks M params draws aliceBits aliceBases bobBases)).card := by
  rw [← Nat.count_eq_card_filter_range]
  induction n with
  | zero => rfl
  | succ n ih =>
    rw [simulateNPulses_succ, List.countP_append, ih, Nat.count_succ]
    congr 1
    rw [List.countP_singleton]
    rfl

end Clicks

end PhysicalLayer

/-! ### From clicks to key bits -/

namespace Protocol

open PhysicalLayer

/-- What the sample leaves of `s` sifted bits, for sample fraction `f`. -/
def remaining (f : ℚ) (s : ℕ) : ℕ := s - min s (max 1 ⌊f * s⌋₊)

/-- A longer string never leaves fewer bits. -/
theorem remaining_mono {f : ℚ} (h0 : 0 ≤ f) (h1 : f ≤ 1) : Monotone (remaining f) := by
  refine monotone_nat_of_le_succ fun s => ?_
  -- one more sifted bit enlarges the sample by one bit at most
  have hfloor : ⌊f * (s + 1 : ℕ)⌋₊ ≤ ⌊f * s⌋₊ + 1 := by
    rw [← Nat.floor_add_one (by positivity)]
    refine Nat.floor_mono ?_
    push_cast
    linarith [mul_add f s 1]
  rw [remaining, remaining]
  omega

theorem pyInt_of_nonneg {x : ℚ} (hx : 0 ≤ x) : pyInt x = ⌊x⌋₊ := by
  rw [pyInt, Int.tdiv_eq_ediv_of_nonneg (Rat.num_nonneg.mpr hx),
    Int.natCast_floor_eq_floor hx]
  exact (Rat.floor_def x).symm

theorem sampleSize_eq {f : ℚ} (h0 : 0 ≤ f) (aliceSifted bobSifted : List Bool)
    (threshold : ℚ) :
    (estimateQber aliceSifted bobSifted f threshold).sampleSize
      = min aliceSifted.length (max 1 ⌊f * aliceSifted.length⌋₊) := by
  have hwant : pyInt (aliceSifted.length * f) = ⌊f * aliceSifted.length⌋₊ := by
    rw [mul_comm]
    exact pyInt_of_nonneg (by positivity)
  simp only [estimateQber, hwant]
  omega

/-- With `log2` nonpositive below 1 the entropy is nonnegative. -/
theorem binaryEntropy_nonneg {M : MathFns} (hlog : ∀ x, 0 < x → x ≤ 1 → M.log2 x ≤ 0)
    (p : ℚ) : 0 ≤ binaryEntropy M p := by
  rw [binaryEntropy]
  split_ifs with h
  · exact le_rfl
  · rw [not_or, not_le, not_le] at h
    have h1 := mul_nonpos_of_nonneg_of_nonpos h.1.le (hlog p h.1 h.2.le)
    have h2 := mul_nonpos_of_nonneg_of_nonpos (sub_nonneg.mpr h.2.le)
      (hlog (1 - p) (sub_pos.mpr h.2) (by linarith))
    linarith

/-- Amplification never hands out more than the string has, less the security parameter. -/
theorem maxSecureBits_le {h : ℚ → ℚ} (hh : ∀ p, 0 ≤ h p) (n : ℕ) (qber : ℚ) :
    maxSecureBits h n qber ≤ n - securityParameter := by
  rw [maxSecureBits]
  set hQber := if qber > 0 then h qber else 0 with hdef
  have hQber0 : 0 ≤ hQber := by
    rw [hdef]
    split_ifs
    · exact hh qber
    · exact le_rfl
  have hfrac : max 0 (1 - 2 * hQber) ≤ 1 := max_le zero_le_one (by linarith)
  have hint : pyInt (n * max 0 (1 - 2 * hQber)) ≤ n := by
    rw [pyInt_of_nonneg (by positivity)]
    have hle : (n : ℚ) * max 0 (1 - 2 * hQber) ≤ n := mul_le_of_le_one_right (by positivity) hfrac
    exact_mod_cast (Nat.floor_mono hle).trans_eq (Nat.floor_natCast n)
  omega

theorem length_toeplitzHash_le (draw : BitDraw) (bits : List Bool) (outputLength : ℤ) :
    (BitUtils.toeplitzHash draw bits outputLength).length ≤ (outputLength.toNat + 7) / 8 := by
  by_cases h : outputLength ≤ 0 ∨ bits.length = 0
  · rw [BitUtils.toeplitzHash, if_pos h]
    exact Nat.zero_le _
  · rw [not_or, not_le] at h
    refine (BitUtils.length_toeplitzHash h.1 fun hnil => h.2 ?_).le
    rw [hnil, List.length_nil]

/-- The most clicks a round of this configuration can have. -/
def maxClicks (config : BB84ProtocolConfig) : ℕ :=
  config.numRawBits ⌈/⌉ deadTime config.channelParams

namespace Round

variable (R : Round)

theorem detectedCount_le_maxClicks : R.detectedCount ≤ maxClicks R.config := by
  rw [detectedCount, events, countP_detected]
  exact clicks_spaced.card_le (deadTime_pos _) _

theorem length_correctedBits_le (h0 : 0 ≤ R.config.qberSampleFraction)
    (h1 : R.config.qberSampleFraction ≤ 1) :
    R.correctedBits.length ≤ remaining R.config.qberSampleFraction (maxClicks R.config) := by
  have hlen : R.correctedBits.length
      = remaining R.config.qberSampleFraction R.siftedCount := by
    rw [length_correctedBits, aliceRemaining, List.length_drop, estimate, sampleSize_eq h0]
    rfl
  rw [hlen]
  exact remaining_mono h0 h1 (R.siftedCount_le.trans R.detectedCount_le_maxClicks)

theorem detectionEvents_le : R.runRound.detectionEvents ≤ maxClicks R.config := by
  have hle := R.detectedCount_le_maxClicks
  rcases R.runRound_cases with ⟨-, hr⟩ | ⟨-, -, hr⟩ | ⟨-, -, -, hr⟩ | ⟨-, -, -, -, hr⟩ |
    ⟨-, -, -, key, -, hr⟩ <;> rw [hr]
  · exact Nat.zero_le _
  all_goals exact hle

theorem finalKeyBits_le (hlog : ∀ x, 0 < x → x ≤ 1 → R.math.log2 x ≤ 0)
    (h0 : 0 ≤ R.config.qberSampleFraction) (h1 : R.config.qberSampleFraction ≤ 1) :
    R.runRound.finalKeyBits
      ≤ 8 * ((remaining R.config.qberSampleFraction (maxClicks R.config) - 64) ⌈/⌉ 8) := by
  rcases R.runRound_cases with ⟨-, hr⟩ | ⟨-, -, hr⟩ | ⟨-, -, -, hr⟩ | ⟨-, -, -, -, hr⟩ |
    ⟨-, -, -, key, hkey, hr⟩ <;> rw [hr]
  -- without a key there are no key bits
  iterate 4 exact Nat.zero_le _
  obtain ⟨-, -, rfl⟩ := privacyAmplify_eq_some hkey
  have hbytes := length_toeplitzHash_le R.draws.toeplitz R.correctedBits
    (min (maxSecureBits (binaryEntropy R.math) R.correctedBits.length R.estimate.qber)
      R.config.targetKeyLengthBits)
  have hsecure := maxSecureBits_le (binaryEntropy_nonneg hlog) R.correctedBits.length
    R.estimate.qber
  have hbits := R.length_correctedBits_le h0 h1
  rw [securityParameter] at hsecure
  rw [keyResult, Nat.ceilDiv_eq_add_pred_div]
  dsimp only
  omega

/-- **Dead time bounds the key.**  Two clicks of a run are a dead time apart, and this
limits the detection events and the key of a round; with 4096 pulses, 50 ns and a sample of
one tenth no key is longer than 16 bits. -/
theorem dead_time_bounds_key :
    (∀ (M : MathFns) (params : ChannelParameters) (draws : ℕ → PulseDraws) (n : ℕ)
      (aliceBits : List Bool) (aliceBases bobBases : List Basis) (i j : ℕ)
      (event event' : DetectionEvent), i < j →
      (simulateNPulses M params draws n aliceBits aliceBases bobBases).1[i]? = some event →
      (simulateNPulses M params draws n aliceBits aliceBases bobBases).1[j]? = some event' →
      event.detected = true → event'.detected = true → i + deadTime params ≤ j) ∧
    (∀ R : Round, R.runRound.detectionEvents ≤ maxClicks R.config) ∧
    ∀ R : Round, (∀ x, 0 < x → x ≤ 1 → R.math.log2 x ≤ 0) →
      0 ≤ R.config.qberSampleFraction → R.config.qberSampleFraction ≤ 1 →
      R.runRound.finalKeyBits
          ≤ 8 * ((remaining R.config.qberSampleFraction (maxClicks R.config) - 64) ⌈/⌉ 8) ∧
        (R.config.numRawBits = 4096 → R.config.channelParams.deadTimeNs = 50 →
          R.config.qberSampleFraction = 1 / 10 →
          R.runRound.finalKeyBits ≤ 16 ∧
            ∀ key, R.runRound.key = some key → 8 * key.length ≤ 16) := by
  refine ⟨?_, fun R => R.detectionEvents_le, fun R hlog h0 h1 => ?_⟩
  · intro M params draws n aliceBits aliceBases bobBases i j event event' hij hi hj hc hc'
    have hlt : ∀ {k e}, (simulateNPulses M params draws n aliceBits aliceBases
        bobBases).1[k]? = some e → k < n := fun h => by
      simpa using (List.getElem?_eq_some_iff.mp h).choose
    rw [simulateNPulses_getElem _ _ _ _ _ _ _ _ (hlt hi), Option.some_inj] at hi
    rw [simulateNPulses_getElem _ _ _ _ _ _ _ _ (hlt hj), Option.some_inj] at hj
    subst hi hj
    exact clicks_spaced i j hij hc hc'
  · have hbits := R.finalKeyBits_le hlog h0 h1
    refine ⟨hbits, fun hn hdead hf => ?_⟩
    -- 82 clicks leave 74 bits, of which 10 may become key
    have hclicks : maxClicks R.config = 82 := by
      rw [maxClicks, hn, deadTime, hdead]
      decide +kernel
    have hrem : remaining (1 / 10) 82 = 74 := by decide +kernel
    rw [hf, hclicks, hrem] at hbits
    have h16 : R.runRound.finalKeyBits ≤ 16 := hbits
    refine ⟨h16, fun key hkey => ?_⟩
    rcases R.runRound_cases with ⟨-, hr⟩ | ⟨-, -, hr⟩ | ⟨-, -, -, hr⟩ | ⟨-, -, -, -, hr⟩ |
      ⟨-, -, -, key', -, hr⟩ <;> rw [hr] at hkey h16
    iterate 4 exact absurd hkey (by simp [noPhotonsResult, insufficientSiftedResult,
      insecureResult, insufficientAmplifiedResult])
    obtain rfl : key' = key := Option.some_inj.mp hkey
    exact (Nat.mul_comm 8 _).trans_le h16

end Round

/-- `sin` of one degree and `10 ** -0.02`, which the default channel asks for.  The round
below shows no error, so `log2` is never called. -/
def degreeMath : MathFns where
  sinDeg := fun x => if x = 0 then 0 else 1745 / 100000
  log2 := fun _ => 0
  exp10 := fun _ => 955 / 1000
  sinDeg_zero := rfl

/-- The photon arrives and triggers, and nothing else happens. -/
def clearPulse : PulseDraws :=
  { certainPulse with afterpulse := .half, dark := .half, misalignment := .half }

/-- Every photon of the default round arrives, so that the detector clicks whenever it has
recovered. -/
def busyRound : Round where
  math := degreeMath
  config := {}
  eavesdropper := none
  draws := { lastPulseDraws with pulse := fun _ => clearPulse }

theorem busyRound_clicks_iff (i : ℕ) :
    Clicks degreeMath {} busyRound.draws.pulse busyRound.sentBits busyRound.sentBases
      busyRound.bobBases i ↔ 50 ∣ i := by
  have hdead : deadTime {} = 50 := by decide +kernel
  rw [← hdead]
  have htrigger : photonTriggers degreeMath {} (fun _ => clearPulse) 0 = true := by
    decide +kernel
  exact (clicks_iff_dvd (fun _ => htrigger) i).1

/-- As many clicks as the dead time admits. -/
theorem busyRound_detectedCount : busyRound.detectedCount = 82 := by
  rw [Round.detectedCount, Round.events]
  show (simulateNPulses degreeMath {} busyRound.draws.pulse 4096 busyRound.sentBits
    busyRound.sentBases busyRound.bobBases).1.countP (fun e => e.detected) = 82
  rw [countP_detected, Finset.filter_congr fun i _ => busyRound_clicks_iff i]
  decide +kernel

/-- Everybody uses one basis and Alice sends zeros: every click is a kept zero. -/
theorem busyRound_aliceSifted :
    busyRound.sifted.aliceSiftedBits = List.replicate 82 false := by
  have hbases : busyRound.aliceBases = busyRound.bobBases := List.map_congr_left fun _ _ => rfl
  have hlen : (survivors busyRound.aliceBits busyRound.aliceBases busyRound.bobBases
      busyRound.events).length = 82 := by
    rw [length_survivors_of_bases_eq _ _ _ hbases]
    exact busyRound_detectedCount
  rw [busyRound.sifted_lists.1]
  refine List.eq_replicate_iff.mpr ⟨by rw [List.length_map, hlen], fun b hb => ?_⟩
  obtain ⟨⟨a, b, i⟩, hx, rfl⟩ := List.mem_map.mp hb
  obtain ⟨-, -, -, -, ha, -⟩ := (mem_survivors _ _ _).mp hx
  rw [List.getD_eq_getElem?_getD, Round.aliceBits, List.getElem?_map] at ha
  rw [ha]
  cases (List.range busyRound.n)[i]? <;> rfl

/-- The 74 bits that the sample leaves are enough for a key of 10 bits. -/
theorem busyRound_runRound : busyRound.runRound = busyRound.keyResult [0, 0] := by
  have hquiet : Undisturbed degreeMath {} clearPulse := ⟨by decide +kernel, by decide +kernel⟩
  have halice := busyRound_aliceSifted
  have hbob : busyRound.sifted.bobSiftedBits = List.replicate 82 false :=
    (busyRound.bobSifted_eq_aliceSifted (fun _ => hquiet)
      (fun _ h => absurd h (by simp [busyRound]))).trans halice
  have hest : busyRound.estimate
      = estimateQber (List.replicate 82 false) (List.replicate 82 false) (1 / 10) (11 / 100) := by
    rw [Round.estimate, halice, hbob]
    rfl
  have hsecure : busyRound.estimate.isSecure = true := by
    rw [hest]
    decide +kernel
  have hcorrected : busyRound.correctedBits = List.replicate 74 false := by
    rw [Round.correctedBits, Round.aliceRemaining, Round.bobRemaining, halice, hbob, hest]
    decide +kernel
  have hkey : busyRound.amplify busyRound.correctedBits = some [0, 0] := by
    rw [Round.amplify, hcorrected, hest]
    decide +kernel
  rw [Round.runRound, if_neg (by rw [busyRound_detectedCount]; decide), if_neg, if_neg, hkey]
  · rw [hsecure]
    decide
  · rw [Round.siftedCount, halice]
    decide +kernel

theorem busyRound_is_bounded :
    0 + deadTime ({} : ChannelParameters) ≤ 50 ∧ busyRound.runRound.finalKeyBits ≤ 16 :=
  ⟨Round.dead_time_bounds_key.1 degreeMath {} (fun _ => clearPulse) 51 [] [] [] 0 50 _ _
      (by decide) (simulateNPulses_getElem _ _ _ _ _ _ 51 0 (by decide))
      (simulateNPulses_getElem _ _ _ _ _ _ 51 50 (by decide)) (by decide +kernel)
      (by decide +kernel),
    ((Round.dead_time_bounds_key.2.2 busyRound (fun _ _ _ => le_rfl) (by decide +kernel)
      (by decide +kernel)).2 rfl rfl rfl).1⟩

end Protocol
