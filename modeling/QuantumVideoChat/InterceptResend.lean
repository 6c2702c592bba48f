/-
The error an intercept-resend attack causes, and how often it is noticed.

Whether a pulse clicks depends on no bit and no basis, so the pulses of a round that are
sifted and sampled are fixed before anybody draws one.  On a noiseless link each sampled pulse
that Eve took is then an independent trial: Bob is wrong in two of the eight outcomes of Eve's
basis, Eve's bit and Bob's bit.

* `clicks_congr` — clicks are decided by photons, dark counts and afterpulses alone;
* `siftedCount_frequency` — how many clicks sifting keeps, over Bob's bases, on every link;
* `errorsFound_frequency`, `errorsFound_mean` — the errors in the sample, a quarter of the
  pulses Eve took on average;
* `insecure_frequency` — how often the round is rejected.
-/
import QuantumVideoChat.DeadTime
import QuantumVideoChat.Trials

namespace PhysicalLayer

/-! ### What a click depends on -/

/-- The answers on which a click depends. -/
structure SameCauses (draws draws' : PulseDraws) : Prop where
  poisson : draws.poisson = draws'.poisson
  surviving : draws.surviving = draws'.surviving
  afterpulse : draws.afterpulse = draws'.afterpulse
  dark : draws.dark = draws'.dark
  triggered : draws.triggered = draws'.triggered

namespace SameCauses

variable {draws draws' : PulseDraws} (h : SameCauses draws draws')
include h

theorem transmit_eq (M : MathFns) (params : ChannelParameters) (nPhotons : ℕ) :
    transmit M params draws nPhotons = transmit M params draws' nPhotons := by
  rw [transmit, transmit, h.surviving]

theorem photonFires_eq (det : SinglePhotonDetector) (nPhotons : ℕ) :
    det.photonFires draws nPhotons = det.photonFires draws' nPhotons := by
  rw [SinglePhotonDetector.photonFires, SinglePhotonDetector.photonFires, h.triggered]

theorem darkFires_eq (det : SinglePhotonDetector) : det.darkFires draws = det.darkFires draws' := by
  rw [SinglePhotonDetector.darkFires, SinglePhotonDetector.darkFires, h.dark]

theorem afterpulseFires_eq (det : SinglePhotonDetector) (pulseIndex : ℤ) :
    det.afterpulseFires draws pulseIndex = det.afterpulseFires draws' pulseIndex := by
  rw [SinglePhotonDetector.afterpulseFires, SinglePhotonDetector.afterpulseFires, h.afterpulse]

end SameCauses

section Clicks

variable (M : MathFns) (params : ChannelParameters) {draws draws' : ℕ → PulseDraws}

theorem detectorAt_succ (draws : ℕ → PulseDraws) (aliceBits : List Bool)
    (aliceBases bobBases : List Basis) (i : ℕ) :
    detectorAt M params draws aliceBits aliceBases bobBases (i + 1)
      = if Clicks M params draws aliceBits aliceBases bobBases i then
          { detectorAt M params draws aliceBits aliceBases bobBases i with
            lastDetectionIndex := some (i : ℤ) }
        else detectorAt M params draws aliceBits aliceBases bobBases i := by
  have hparams := detectorAt_params M params draws aliceBits aliceBases bobBases
  rcases attemptAt_cases M params draws aliceBits aliceBases bobBases i with
    ⟨hmiss, hdet⟩ | ⟨hclick, -, hlast⟩
  · rw [if_neg hmiss, hdet]
  · rw [if_pos hclick]
    generalize hnext : detectorAt M params draws aliceBits aliceBases bobBases (i + 1) = next
    rw [hnext] at hlast
    have hnextParams := hparams (i + 1)
    rw [hnext, ← hparams i] at hnextParams
    cases next
    cases hlast
    cases hnextParams
    rfl

/-- **Clicks do not depend on bits and bases.** -/
theorem clicks_congr (h : ∀ i, SameCauses (draws i) (draws' i)) (aliceBits bits' : List Bool)
    (aliceBases bobBases bases' bobBases' : List Basis) (i : ℕ) :
    detectorAt M params draws aliceBits aliceBases bobBases i
        = detectorAt M params draws' bits' bases' bobBases' i ∧
      (Clicks M params draws aliceBits aliceBases bobBases i
        ↔ Clicks M params draws' bits' bases' bobBases' i) := by
  -- equal detectors see equal causes
  have hsame : ∀ i, detectorAt M params draws aliceBits aliceBases bobBases i
      = detectorAt M params draws' bits' bases' bobBases' i →
      (Clicks M params draws aliceBits aliceBases bobBases i
        ↔ Clicks M params draws' bits' bases' bobBases' i) := by
    intro i hdet
    rw [clicks_iff, clicks_iff, hdet, (h i).poisson, (h i).transmit_eq, (h i).photonFires_eq,
      (h i).darkFires_eq, (h i).afterpulseFires_eq]
  have hdet : detectorAt M params draws aliceBits aliceBases bobBases i
      = detectorAt M params draws' bits' bases' bobBases' i := by
    induction i with
    | zero => rfl
    | succ i ih =>
      rw [detectorAt_succ, detectorAt_succ, ih]
      exact if_congr (hsame i ih) rfl rfl
  exact ⟨hdet, hsame i hdet⟩

end Clicks

/-- On a noiseless link a click reads the sent bit in the sent basis and the drawn bit in the
other one. -/
theorem detect_noiseless_bit (M : MathFns) {det : SinglePhotonDetector}
    (hquiet : Noiseless det.params) (draws : PulseDraws) (nPhotons : ℕ) (bit : Bool)
    (sentBasis basis : Basis) (pulseIndex : ℤ)
    (hclick : (det.detect M draws nPhotons (bitBasisToPolarization bit sentBasis) basis
      pulseIndex).1.detected = true) :
    (det.detect M draws nPhotons (bitBasisToPolarization bit sentBasis) basis
      pulseIndex).1.measuredBit = some (if basis = sentBasis then bit else draws.bit) := by
  by_cases hbasis : basis = sentBasis
  · subst hbasis
    rw [if_pos rfl]
    exact detect_undisturbed M (hquiet.undisturbed M draws) nPhotons bit basis pulseIndex hclick
  · rcases det.detect_cases M draws nPhotons (bitBasisToPolarization bit sentBasis) basis
      pulseIndex with h | ⟨-, -, h⟩
    · rw [h] at hclick
      exact absurd hclick (by simp)
    · rw [h]
      simp [SinglePhotonDetector.measuredBit, hbasis]

end PhysicalLayer

namespace Protocol

open PhysicalLayer Cascade Trials Finset

/-! ### Sifted pulses -/

theorem filterMap_ite {α β : Type*} (q : α → Bool) (f : α → β) (l : List α) :
    l.filterMap (fun x => if q x = true then some (f x) else none) = (l.filter q).map f := by
  induction l with
  | nil => rfl
  | cons x l ih =>
    by_cases hx : q x = true <;> simp [hx, ih]

/-- The first `k` positions at which two readings of a list differ. -/
theorem countP_differs_map {α : Type*} (f g : α → Bool) (l : List α) {k : ℕ}
    (hk : k ≤ l.length) :
    (List.range k).countP (differs (l.map f) (l.map g))
      = (l.take k).countP fun x => f x != g x := by
  induction k with
  | zero => rfl
  | succ k ih =>
    have hlt : k < l.length := hk
    have hlast : differs (l.map f) (l.map g) k = (f l[k] != g l[k]) := by
      simp [differs, List.getD_eq_getElem?_getD, hlt]
    rw [List.range_succ, List.countP_append, ih hlt.le, List.take_succ_eq_append_getElem hlt,
      List.countP_append, List.countP_singleton, List.countP_singleton, hlast]

theorem card_filter_fin (n : ℕ) (q : ℕ → Prop) [DecidablePred q] :
    #{i : Fin n | q i} = #{i ∈ range n | q i} := by
  rw [card_filter, card_filter]
  exact Fin.sum_univ_eq_sum_range (fun i => if q i then 1 else 0) n

theorem countP_eq_card {n : ℕ} {l : List ℕ} (hl : l.Nodup) (hlt : ∀ i ∈ l, i < n)
    (q : ℕ → Bool) : l.countP q = #{i ∈ range n | i ∈ l ∧ q i = true} := by
  rw [List.countP_eq_length_filter, ← List.toFinset_card_of_nodup (hl.filter q)]
  refine congrArg card (Finset.ext fun i => ?_)
  rw [List.mem_toFinset, List.mem_filter, mem_filter, mem_range]
  exact ⟨fun h => ⟨hlt i h.1, h⟩, fun h => h.2⟩

namespace Round

variable (R : Round)

/-- Pulse `i` clicks. -/
def Clicked (i : ℕ) : Prop :=
  Clicks R.math R.config.channelParams R.draws.pulse R.sentBits R.sentBases R.bobBases i

instance : DecidablePred R.Clicked := fun i =>
  inferInstanceAs (Decidable (Clicks _ _ _ _ _ _ i))

/-- Pulse `i` survives sifting. -/
def isSifted (i : ℕ) : Bool :=
  decide (R.Clicked i ∧ R.aliceBases.getD i .rectilinear = R.bobBases.getD i .rectilinear)

/-- The sifted pulses in their order. -/
def siftedPulses : List ℕ := (List.range R.n).filter R.isSifted

def aliceBit (i : ℕ) : Bool := R.aliceBits.getD i false

/-- The bit that Bob read at pulse `i`. -/
def bobReads (i : ℕ) : Bool :=
  ((attemptAt R.math R.config.channelParams R.draws.pulse R.sentBits R.sentBases R.bobBases
    i).1.measuredBit).getD false

theorem nodup_siftedPulses : R.siftedPulses.Nodup := List.nodup_range.filter _

theorem mem_siftedPulses {i : ℕ} : i ∈ R.siftedPulses ↔ i < R.n ∧ R.isSifted i = true := by
  rw [siftedPulses, List.mem_filter, List.mem_range]

theorem survivors_eq :
    survivors R.aliceBits R.aliceBases R.bobBases R.events
      = R.siftedPulses.map fun i => (R.aliceBit i, R.bobReads i, i) := by
  have hevents : R.events.zipIdx = (List.range R.n).map fun i =>
      ((attemptAt R.math R.config.channelParams R.draws.pulse R.sentBits R.sentBases R.bobBases
        i).1, i) := by
    refine List.ext_getElem (by simp) fun i hi _ => ?_
    have hin : i < R.n := by simpa using hi
    have hevent := simulateNPulses_getElem R.math R.config.channelParams R.draws.pulse R.sentBits
      R.sentBases R.bobBases R.n i hin
    obtain ⟨hlt, hget⟩ := List.getElem?_eq_some_iff.mp hevent
    simp only [List.getElem_zipIdx, List.getElem_map, List.getElem_range, Nat.zero_add]
    exact Prod.ext hget rfl
  rw [survivors, hevents, List.filterMap_map, siftedPulses, ← filterMap_ite]
  refine List.filterMap_congr fun i _ => ?_
  rw [Function.comp_apply, survivor]
  by_cases hi : R.isSifted i = true
  · have hsifted : R.Clicked i ∧
        R.aliceBases.getD i .rectilinear = R.bobBases.getD i .rectilinear := of_decide_eq_true hi
    rw [if_pos hi]
    refine (dif_pos hsifted).trans ?_
    rw [bobReads, measuredBit_eq_some _ hsifted.1, Option.getD_some]
    rfl
  · rw [if_neg hi]
    exact dif_neg fun h => hi (decide_eq_true h)

theorem siftedCount_eq : R.siftedCount = R.siftedPulses.length := by
  rw [siftedCount, R.sifted_lists.1, survivors_eq, List.length_map, List.length_map]

theorem siftedCount_eq_card : R.siftedCount = #{i ∈ range R.n | R.isSifted i = true} := by
  rw [siftedCount_eq, siftedPulses, ← List.countP_eq_length_filter,
    countP_eq_card List.nodup_range fun i hi => List.mem_range.mp hi]
  refine congrArg card (filter_congr fun i hi => ?_)
  exact and_iff_right (List.mem_range.mpr (mem_range.mp hi))

theorem sampleSize_le : R.estimate.sampleSize ≤ R.siftedPulses.length := by
  rw [← siftedCount_eq]
  show (min _ (R.siftedCount : ℤ)).toNat ≤ R.siftedCount
  omega

/-- The pulses that are sacrificed. -/
def sample : List ℕ := R.siftedPulses.take R.estimate.sampleSize

theorem nodup_sample : R.sample.Nodup := R.nodup_siftedPulses.take

theorem mem_siftedPulses_of_sample {i : ℕ} (h : i ∈ R.sample) : i ∈ R.siftedPulses :=
  List.mem_of_mem_take h

theorem errorsFound_eq :
    R.estimate.errorsFound = R.sample.countP fun i => R.aliceBit i != R.bobReads i := by
  have hlists : R.sifted.aliceSiftedBits = R.siftedPulses.map R.aliceBit ∧
      R.sifted.bobSiftedBits = R.siftedPulses.map R.bobReads := by
    rw [R.sifted_lists.1, R.sifted_lists.2.1, survivors_eq, List.map_map, List.map_map]
    exact ⟨rfl, rfl⟩
  rw [sample, ← countP_differs_map _ _ _ R.sampleSize_le, ← hlists.1, ← hlists.2]
  rfl

/-! ### How many clicks are sifted -/

theorem detectedCount_eq : R.detectedCount = #{i : Fin R.n | R.Clicked i} := by
  rw [detectedCount, events, countP_detected, card_filter_fin]
  rfl

/-- The same round with other bases of Bob. -/
def withBobBases (bases : Fin R.n → Bool) : Round :=
  { R with
    draws := { R.draws with
      bobBasis := fun i => if h : i < R.n then bases ⟨i, h⟩ else R.draws.bobBasis i } }

/-- Bob's basis is the one Alice sent pulse `i` in. -/
def Matches (i : Fin R.n) (basis : Bool) : Prop :=
  R.aliceBases.getD i .rectilinear = Basis.ofBit basis

instance (i : Fin R.n) : DecidablePred (R.Matches i) := fun _ =>
  inferInstanceAs (Decidable (_ = Basis.ofBit _))

theorem card_matches (i : Fin R.n) : #{basis | R.Matches i basis} = 1 := by
  have hone : ∀ aliceBasis : Basis, #{basis | aliceBasis = Basis.ofBit basis} = 1 := by
    intro aliceBasis
    cases aliceBasis <;> decide
  exact hone _

theorem isSifted_withBobBases (bases : Fin R.n → Bool) (i : Fin R.n) :
    (R.withBobBases bases).isSifted i = true ↔ R.Clicked i ∧ R.Matches i (bases i) := by
  have hbasis : (R.withBobBases bases).bobBases.getD i .rectilinear = Basis.ofBit (bases i) := by
    refine (getD_map_range _ i.isLt _).trans (congrArg Basis.ofBit ?_)
    exact dif_pos i.isLt
  have hclicks : (R.withBobBases bases).Clicked i ↔ R.Clicked i :=
    (clicks_congr R.math R.config.channelParams (fun _ => ⟨rfl, rfl, rfl, rfl, rfl⟩) _ _ _ _ _ _
      i).2
  rw [isSifted, decide_eq_true_iff, hclicks, hbasis]
  rfl

theorem siftedCount_withBobBases (bases : Fin R.n → Bool) :
    (R.withBobBases bases).siftedCount = #(hits R.Matches {i | R.Clicked i} bases) := by
  have hcount : (R.withBobBases bases).siftedCount
      = #{i : Fin R.n | (R.withBobBases bases).isSifted i = true} :=
    (siftedCount_eq_card _).trans (card_filter_fin R.n _).symm
  rw [hcount]
  refine congrArg card (Finset.ext fun i => ?_)
  rw [mem_filter_univ, mem_hits, mem_filter_univ, isSifted_withBobBases]

/-- **How many clicks sifting keeps.**  Over Bob's bases the sifted count is binomially
distributed, for every channel and every Eve: each click is kept with probability one half. -/
theorem siftedCount_frequency (s : ℕ) :
    frequency (fun bases => (R.withBobBases bases).siftedCount = s)
      = R.detectedCount.choose s * (1 / 2) ^ s * (1 / 2) ^ (R.detectedCount - s) := by
  have hbinomial := frequency_card_hits (by decide) R.card_matches {i | R.Clicked i} s
  simp only [siftedCount_withBobBases]
  rw [hbinomial, ← detectedCount_eq, Fintype.card_bool]
  norm_num

/-! ### What Eve does to the sample -/

/-- Eve's basis, her bit in a wrong basis, and Bob's bit in a wrong basis. -/
structure Outcome where
  eveBasis : Bool
  eveBit : Bool
  bobBit : Bool
  deriving DecidableEq, Fintype

/-- The same round with other outcomes of its pulses. -/
def withOutcomes (outcomes : Fin R.n → Outcome) : Round :=
  { R with
    draws := { R.draws with
      eveBasis := fun i => if h : i < R.n then (outcomes ⟨i, h⟩).eveBasis else R.draws.eveBasis i
      eveBit := fun i => if h : i < R.n then (outcomes ⟨i, h⟩).eveBit else R.draws.eveBit i
      pulse := fun i =>
        { R.draws.pulse i with
          bit := if h : i < R.n then (outcomes ⟨i, h⟩).bobBit else (R.draws.pulse i).bit } } }

/-- The sampled pulses that Eve takes. -/
def sampledInterceptions : Finset (Fin R.n) := {i | (i : ℕ) ∈ R.sample ∧ R.intercepts i = true}

/-- Eve measures in the other basis, and Bob, who does not, reads the other bit. -/
def Disturbed (i : Fin R.n) (o : Outcome) : Prop :=
  Basis.ofBit o.eveBasis ≠ R.aliceBases.getD i .rectilinear ∧ o.bobBit ≠ R.aliceBit i

instance (i : Fin R.n) : DecidablePred (R.Disturbed i) := fun _ =>
  inferInstanceAs (Decidable (_ ∧ _))

theorem card_disturbed (i : Fin R.n) : #{o | R.Disturbed i o} = 2 := by
  have htwo : ∀ (aliceBasis : Basis) (aliceBit : Bool),
      #{o : Outcome | Basis.ofBit o.eveBasis ≠ aliceBasis ∧ o.bobBit ≠ aliceBit} = 2 := by
    intro aliceBasis aliceBit
    cases aliceBasis <;> cases aliceBit <;> decide
  exact htwo _ _

/-- On a noiseless link Bob reads what was sent, or in the other basis what he draws. -/
theorem bobReads_of_sifted (hquiet : Noiseless R.config.channelParams) {i : ℕ} (hi : i < R.n)
    (hsifted : R.isSifted i = true) :
    R.bobReads i = if R.aliceBases.getD i .rectilinear = (R.sent i).2 then (R.sent i).1
      else (R.draws.pulse i).bit := by
  obtain ⟨hclick, hbasis⟩ : R.Clicked i ∧ _ := of_decide_eq_true hsifted
  have hbit : R.sentBits.getD i false = (R.sent i).1 := getD_map_range _ hi _
  have hsent : R.sentBases.getD i .rectilinear = (R.sent i).2 := getD_map_range _ hi _
  have hparams := detectorAt_params R.math R.config.channelParams R.draws.pulse R.sentBits
    R.sentBases R.bobBases i
  rw [Clicked, Clicks, attemptAt, simulatePulse] at hclick
  rw [bobReads, attemptAt, simulatePulse]
  simp only [emitPulse] at hclick ⊢
  rw [detect_noiseless_bit R.math (by rwa [hparams]) _ _ _ _ _ _ hclick, Option.getD_some, hbasis,
    hsent, hbit]

/-- A sampled bit is wrong exactly when Eve took the pulse and disturbed it. -/
theorem wrong_iff (hquiet : Noiseless R.config.channelParams) {i : ℕ} (hi : i < R.n)
    (hsifted : R.isSifted i = true) :
    (R.aliceBit i != R.bobReads i) = true ↔
      R.intercepts i = true ∧ Basis.ofBit (R.draws.eveBasis i) ≠ R.aliceBases.getD i .rectilinear
        ∧ (R.draws.pulse i).bit ≠ R.aliceBit i := by
  rw [R.bobReads_of_sifted hquiet hi hsifted, bne_iff_ne, sent]
  by_cases htake : R.intercepts i = true
  · rw [if_pos htake, eveMeasures, interceptResend]
    by_cases hbasis : Basis.ofBit (R.draws.eveBasis i) = R.aliceBases.getD i .rectilinear
    · -- Eve read, and sent on, Alice's bit
      simp [htake, hbasis, aliceBit]
    · simp only [htake, hbasis, ne_comm (a := R.aliceBit i), if_neg (Ne.symm hbasis), true_and,
        ne_eq, not_false_iff]
  · simp [htake, aliceBit]

section Outcomes

variable (outcomes : Fin R.n → Outcome)

theorem isSifted_withOutcomes (i : ℕ) :
    (R.withOutcomes outcomes).isSifted i = R.isSifted i := by
  have hcauses : ∀ i, SameCauses ((R.withOutcomes outcomes).draws.pulse i) (R.draws.pulse i) :=
    fun _ => ⟨rfl, rfl, rfl, rfl, rfl⟩
  have hclicks : (R.withOutcomes outcomes).Clicked i ↔ R.Clicked i :=
    (clicks_congr R.math R.config.channelParams hcauses _ _ _ _ _ _ i).2
  rw [isSifted, isSifted]
  exact decide_eq_decide.mpr (and_congr_left fun _ => hclicks)

theorem siftedCount_withOutcomes : (R.withOutcomes outcomes).siftedCount = R.siftedCount := by
  have hsifted : (R.withOutcomes outcomes).siftedPulses = R.siftedPulses :=
    List.filter_congr fun i _ => R.isSifted_withOutcomes outcomes i
  rw [siftedCount_eq, siftedCount_eq, hsifted]

theorem sampleSize_withOutcomes :
    (R.withOutcomes outcomes).estimate.sampleSize = R.estimate.sampleSize := by
  have hsize : ∀ S : Round, S.estimate.sampleSize
      = (min (max 1 (pyInt (S.siftedCount * S.config.qberSampleFraction)))
          (S.siftedCount : ℤ)).toNat := fun _ => rfl
  rw [hsize, hsize, siftedCount_withOutcomes]
  rfl

theorem sample_withOutcomes : (R.withOutcomes outcomes).sample = R.sample := by
  rw [sample, sample, sampleSize_withOutcomes]
  exact congrArg (List.take _) (List.filter_congr fun i _ => R.isSifted_withOutcomes outcomes i)

theorem errorsFound_withOutcomes (hquiet : Noiseless R.config.channelParams) :
    (R.withOutcomes outcomes).estimate.errorsFound
      = #(hits R.Disturbed R.sampledInterceptions outcomes) := by
  have hlt : ∀ i ∈ R.sample, i < R.n := fun i hi =>
    (R.mem_siftedPulses.mp (R.mem_siftedPulses_of_sample hi)).1
  rw [errorsFound_eq, sample_withOutcomes, countP_eq_card R.nodup_sample hlt, ← card_filter_fin]
  refine congrArg card (Finset.ext fun i => ?_)
  rw [mem_filter_univ, mem_hits, sampledInterceptions, mem_filter_univ, and_assoc]
  refine and_congr_right fun hi => ?_
  have hsifted := (R.mem_siftedPulses.mp (R.mem_siftedPulses_of_sample hi)).2
  rw [wrong_iff (R.withOutcomes outcomes) hquiet i.isLt
    ((R.isSifted_withOutcomes outcomes i).trans hsifted)]
  have hbasis : (R.withOutcomes outcomes).draws.eveBasis i = (outcomes i).eveBasis :=
    dif_pos i.isLt
  have hbit : ((R.withOutcomes outcomes).draws.pulse i).bit = (outcomes i).bobBit :=
    dif_pos i.isLt
  rw [hbasis, hbit]
  rfl

end Outcomes

theorem card_outcome : Fintype.card Outcome = 8 := rfl

theorem errorsFound_frequency (hquiet : Noiseless R.config.channelParams) (j : ℕ) :
    frequency (fun outcomes => (R.withOutcomes outcomes).estimate.errorsFound = j)
      = (#R.sampledInterceptions).choose j * (1 / 4) ^ j
        * (3 / 4) ^ (#R.sampledInterceptions - j) := by
  have hbinomial := frequency_card_hits (by decide) R.card_disturbed R.sampledInterceptions j
  simp only [R.errorsFound_withOutcomes _ hquiet]
  rw [hbinomial, card_outcome]
  norm_num

theorem errorsFound_mean (hquiet : Noiseless R.config.channelParams) :
    ((∑ outcomes, (R.withOutcomes outcomes).estimate.errorsFound : ℕ) : ℚ)
        / Fintype.card (Fin R.n → Outcome) = #R.sampledInterceptions / 4 := by
  have hmean := mean_card_hits (by decide) R.card_disturbed R.sampledInterceptions
  simp only [R.errorsFound_withOutcomes _ hquiet]
  rw [hmean, card_outcome]
  ring

/-- If Eve takes every pulse she takes the whole sample. -/
theorem card_sampledInterceptions (h : ∀ i < R.n, R.intercepts i = true) :
    #R.sampledInterceptions = R.estimate.sampleSize := by
  have hlt : ∀ i ∈ R.sample, i < R.n := fun i hi =>
    (R.mem_siftedPulses.mp (R.mem_siftedPulses_of_sample hi)).1
  have hcount := countP_eq_card R.nodup_sample hlt fun i => R.intercepts i
  rw [sampledInterceptions, card_filter_fin R.n fun i => i ∈ R.sample ∧ R.intercepts i = true,
    ← hcount, List.countP_eq_length.mpr fun i hi => h i (hlt i hi), sample, List.length_take,
    min_eq_left R.sampleSize_le]

/-- **Intercept-resend disturbs a quarter of the pulses.**  On a noiseless link the errors found
in the sample are binomially distributed over Eve's and Bob's outcomes, with one error in four
of the sampled pulses Eve took; an Eve who takes every pulse leaves a sample of `k` bits without
an error with probability `(3/4)^k`. -/
theorem intercept_resend_error_rate (hquiet : Noiseless R.config.channelParams) :
    (∀ j, frequency (fun outcomes => (R.withOutcomes outcomes).estimate.errorsFound = j)
      = (#R.sampledInterceptions).choose j * (1 / 4) ^ j
        * (3 / 4) ^ (#R.sampledInterceptions - j)) ∧
    ((∑ outcomes, (R.withOutcomes outcomes).estimate.errorsFound : ℕ) : ℚ)
        / Fintype.card (Fin R.n → Outcome) = #R.sampledInterceptions / 4 ∧
    ((∀ i < R.n, R.intercepts i = true) →
      frequency (fun outcomes => (R.withOutcomes outcomes).estimate.errorsFound = 0)
        = (3 / 4) ^ R.estimate.sampleSize) := by
  refine ⟨R.errorsFound_frequency hquiet, R.errorsFound_mean hquiet, fun hall => ?_⟩
  rw [R.errorsFound_frequency hquiet, R.card_sampledInterceptions hall, Nat.choose_zero_right,
    Nat.sub_zero]
  norm_num

/-! ### How often the round is rejected -/

theorem insecure_iff (h : minSiftedBits ≤ R.siftedCount) :
    R.runRound.isSecure = false ↔
      R.config.qberThreshold ≤ (R.estimate.errorsFound / R.estimate.sampleSize : ℚ) := by
  have hsize : 0 < R.estimate.sampleSize := by
    have hpos : minSiftedBits = 10 := rfl
    show 0 < (min (max 1 _) (R.siftedCount : ℤ)).toNat
    omega
  have hqber : R.estimate.qber = R.estimate.errorsFound / R.estimate.sampleSize :=
    if_pos hsize
  have hsecure : R.estimate.isSecure = false ↔ R.config.qberThreshold ≤ R.estimate.qber := by
    show decide (R.estimate.qber < R.config.qberThreshold) = false ↔ _
    rw [decide_eq_false_iff_not, not_lt]
  rw [← hqber, ← hsecure]
  rcases R.runRound_cases with ⟨h0, -⟩ | ⟨-, hlt, -⟩ | ⟨-, -, hsec, hr⟩ | ⟨-, -, hsec, -, hr⟩ |
    ⟨-, -, hsec, key, -, hr⟩
  · have hle := R.siftedCount_le
    have hpos : minSiftedBits = 10 := rfl
    omega
  · exact absurd h (not_le.mpr hlt)
  · rw [hr, hsec]
    exact iff_of_true rfl rfl
  · rw [hr, hsec]
    rfl
  · rw [hr, hsec]
    rfl

/-- **How often intercept-resend is noticed.**  A round that sifts enough bits is rejected with
the probability that a binomial number of errors reaches the threshold. -/
theorem insecure_frequency (hquiet : Noiseless R.config.channelParams)
    (h : minSiftedBits ≤ R.siftedCount) :
    frequency (fun outcomes => (R.withOutcomes outcomes).runRound.isSecure = false)
      = ∑ j ∈ range (#R.sampledInterceptions + 1)
          with R.config.qberThreshold ≤ ((j : ℕ) : ℚ) / R.estimate.sampleSize,
          ((#R.sampledInterceptions).choose j * (1 / 4) ^ j
            * (3 / 4) ^ (#R.sampledInterceptions - j) : ℚ) := by
  have hiff : ∀ outcomes, (R.withOutcomes outcomes).runRound.isSecure = false ↔
      R.config.qberThreshold
        ≤ (#(hits R.Disturbed R.sampledInterceptions outcomes) / R.estimate.sampleSize : ℚ) := by
    intro outcomes
    rw [insecure_iff _ (h.trans_eq (R.siftedCount_withOutcomes outcomes).symm),
      R.errorsFound_withOutcomes outcomes hquiet, sampleSize_withOutcomes]
    rfl
  have hsplit := frequency_of_card_hits (p := R.Disturbed)
    (fun j => R.config.qberThreshold ≤ (j : ℚ) / R.estimate.sampleSize) R.sampledInterceptions
  simp only [hiff]
  rw [hsplit]
  refine sum_congr rfl fun j _ => ?_
  rw [← R.errorsFound_frequency hquiet]
  simp only [R.errorsFound_withOutcomes _ hquiet]

end Round

/-- 66 pulses, all sifted, and an Eve who takes every one of them. -/
def attackedRound : Round :=
  { quietRound with
    config := { quietRound.config with qberSampleFraction := 1 / 10 }
    eavesdropper := some { interceptionRate := 1 } }

theorem attackedRound_sample : attackedRound.estimate.sampleSize = 6 := by decide +kernel

theorem attackedRound_intercepts (i : ℕ) : attackedRound.intercepts i = true := by
  by_cases hi : i = 65
  · subst hi
    decide +kernel
  · show ((if i = 65 then UnitDraw.zero else UnitDraw.half).below 1) = true
    rw [if_neg hi]
    decide +kernel

theorem attackedRound_unnoticed :
    frequency (fun outcomes => (attackedRound.withOutcomes outcomes).estimate.errorsFound = 0)
      = (3 / 4) ^ 6 := by
  have hquiet : Noiseless attackedRound.config.channelParams := ⟨rfl, rfl, rfl⟩
  rw [← attackedRound_sample]
  exact (attackedRound.intercept_resend_error_rate hquiet).2.2 fun i _ =>
    attackedRound_intercepts i

theorem attackedRound_rejected :
    frequency (fun outcomes => (attackedRound.withOutcomes outcomes).runRound.isSecure = false)
      = 1 - (3 / 4) ^ 6 := by
  have hquiet : Noiseless attackedRound.config.channelParams := ⟨rfl, rfl, rfl⟩
  rw [attackedRound.insecure_frequency hquiet (by decide +kernel),
    attackedRound.card_sampledInterceptions fun i _ => attackedRound_intercepts i,
    attackedRound_sample]
  decide +kernel

end Protocol
