/-
What the two parties hold at the end of a BB84 round.

* `noiseless_errors_are_eves` — on a link without misalignment, dark counts and
  afterpulses every wrong sifted bit is a pulse Eve took in the other basis; without Eve
  nothing differs, the estimate is 0 and error correction returns Alice's bits;
* `accepted_round_agrees_iff` — an accepted round hands Alice's string to privacy
  amplification for every choice of the Cascade permutations exactly when the remaining
  strings are `Correctable`; `missedError_disagrees` is a round where they are not,
  because the sacrificed sample happens to contain no error.
-/
import QuantumVideoChat.Protocol

namespace Protocol

open PhysicalLayer Cascade

namespace Round

variable (R : Round)

/-! ### The noiseless link -/

theorem getD_map_range {α : Type*} (f : ℕ → α) {n i : ℕ} (hi : i < n) (d : α) :
    ((List.range n).map f).getD i d = f i := by
  rw [List.getD_eq_getElem?_getD, List.getElem?_map, List.getElem?_range hi]
  rfl

/-- Undisturbed, a sifted bit that differs from Alice's was taken by Eve in the other basis. -/
theorem undisturbed_survivor
    (hquiet : ∀ i, Undisturbed R.math R.config.channelParams (R.draws.pulse i))
    {a b : Bool} {i : ℕ}
    (hmem : (a, b, i) ∈ survivors R.aliceBits R.aliceBases R.bobBases R.events)
    (hne : b ≠ a) :
    R.intercepts i = true ∧ (R.eveMeasures i).2 ≠ R.aliceBases.getD i .rectilinear := by
  obtain ⟨event, hevent, hdet, hbasis, rfl, hbit⟩ := (mem_survivors _ _ _).mp hmem
  have hi : i < R.n := by
    simpa using (List.getElem?_eq_some_iff.mp hevent).choose
  have hsentBit : R.sentBits.getD i false = (R.sent i).1 := getD_map_range _ hi _
  have hsentBasis : R.sentBases.getD i .rectilinear = (R.sent i).2 := getD_map_range _ hi _
  -- a click in the basis of the photon that reached Bob carries that photon's bit
  have hclick : (R.sent i).2 = R.aliceBases.getD i .rectilinear → b = (R.sent i).1 := by
    intro hsame
    have hval := simulateNPulses_undisturbed hquiet R.sentBits R.sentBases R.bobBases hevent
      hdet (by rw [hsentBasis, hsame, hbasis])
    rw [hbit, hsentBit, Option.some_inj] at hval
    exact hval
  by_cases htake : R.intercepts i = true
  · -- in Alice's basis Eve would have measured, and sent on, Alice's bit
    refine ⟨htake, fun hsame => hne ?_⟩
    have hsent : R.sent i = R.eveMeasures i := if_pos htake
    rw [hsent] at hclick
    rw [hclick hsame]
    exact if_pos hsame
  · have hsent : R.sent i = (R.aliceBits.getD i false, R.aliceBases.getD i .rectilinear) :=
      if_neg htake
    rw [hsent] at hclick
    exact absurd (hclick rfl) hne

theorem intercepts_eq_false (i : ℕ)
    (hnoEve : ∀ eve, R.eavesdropper = some eve → eve.interceptionRate = 0) :
    R.intercepts i = false := by
  rw [intercepts]
  cases heve : R.eavesdropper with
  | none => rfl
  | some eve =>
    show (R.draws.intercept i).below eve.interceptionRate = false
    rw [hnoEve eve heve, UnitDraw.below_zero]

/-- Undisturbed and without an Eve who takes pulses, Bob's sifted bits are Alice's. -/
theorem bobSifted_eq_aliceSifted
    (hquiet : ∀ i, Undisturbed R.math R.config.channelParams (R.draws.pulse i))
    (hnoEve : ∀ eve, R.eavesdropper = some eve → eve.interceptionRate = 0) :
    R.sifted.bobSiftedBits = R.sifted.aliceSiftedBits := by
  rw [R.sifted_lists.1, R.sifted_lists.2.1]
  refine List.map_congr_left fun x hx => ?_
  obtain ⟨a, b, i⟩ := x
  by_contra hne
  have htake := (R.undisturbed_survivor hquiet hx hne).1
  rw [R.intercepts_eq_false i hnoEve] at htake
  exact absurd htake (by simp)

theorem estimate_qber_of_eq {aliceSifted bobSifted : List Bool} (h : bobSifted = aliceSifted)
    (sampleFraction threshold : ℚ) :
    (estimateQber aliceSifted bobSifted sampleFraction threshold).qber = 0 := by
  have hcount : ∀ l, mismatches aliceSifted bobSifted l = 0 := mismatches_eq_zero_of_eq h
  unfold mismatches at hcount
  simp [estimateQber, hcount]

/-- **On a noiseless link only Eve causes errors.**  Position `k` of the two sifted lists
belongs to pulse `matchingIndices[k]`. -/
theorem noiseless_errors_are_eves (hquiet : Noiseless R.config.channelParams) :
    (R.sifted.bobSiftedBits.length = R.sifted.aliceSiftedBits.length ∧
      R.sifted.matchingIndices.length = R.sifted.aliceSiftedBits.length) ∧
    (∀ (k : ℕ) (a b : Bool) (i : ℕ), R.sifted.aliceSiftedBits[k]? = some a →
      R.sifted.bobSiftedBits[k]? = some b → R.sifted.matchingIndices[k]? = some i → b ≠ a →
        R.intercepts i = true ∧ (R.eveMeasures i).2 ≠ R.aliceBases.getD i .rectilinear) ∧
    ((∀ eve, R.eavesdropper = some eve → eve.interceptionRate = 0) →
      R.sifted.bobSiftedBits = R.sifted.aliceSiftedBits ∧ R.estimate.qber = 0 ∧
        R.correctedBits = R.aliceRemaining) := by
  obtain ⟨halice, hbob, hindex⟩ := R.sifted_lists
  have hundisturbed := fun i => hquiet.undisturbed R.math (R.draws.pulse i)
  refine ⟨⟨R.length_bobSifted, R.length_matchingIndices⟩, ?_, ?_⟩
  · intro k a b i ha hb hi hne
    rw [halice, List.getElem?_map, Option.map_eq_some_iff] at ha
    rw [hbob, List.getElem?_map] at hb
    rw [hindex, List.getElem?_map] at hi
    obtain ⟨⟨a', b', i'⟩, hk, rfl⟩ := ha
    rw [hk] at hb hi
    simp only [Option.map_some, Option.some_inj] at hb hi
    subst hb hi
    exact R.undisturbed_survivor hundisturbed (List.mem_of_getElem? hk) hne
  · intro hnoEve
    have hsame := R.bobSifted_eq_aliceSifted hundisturbed hnoEve
    have hqber : R.estimate.qber = 0 := estimate_qber_of_eq hsame _ _
    refine ⟨hsame, hqber, ?_⟩
    have hrem : R.bobRemaining = R.aliceRemaining := by
      rw [bobRemaining, aliceRemaining, hsame]
    -- with an estimate of 0 the correction returns Bob's bits as they are
    refine errorCorrectCascade_of_correctable R.length_remaining ?_ _
    rw [Correctable, if_pos (le_of_eq hqber), hrem]

/-! ### Agreement after error correction -/

/-- The same round with other Cascade permutations. -/
def withPermutations (perms : PassDraws) : Round :=
  { R with draws := { R.draws with permutation := perms } }

theorem length_correctedBits : R.correctedBits.length = R.aliceRemaining.length := by
  rw [correctedBits, length_errorCorrectCascade _ R.length_remaining, R.length_remaining]

/-- Whether a key comes out depends on the number of bits, not on the bits. -/
theorem amplify_isSome_congr {bits bits' : List Bool} (h : bits.length = bits'.length) :
    (R.amplify bits).isSome = (R.amplify bits').isSome := by
  simp only [amplify, privacyAmplify, h]
  split_ifs <;> rfl

theorem aborted_withPermutations (perms : PassDraws) (h : R.runRound.aborted = false) :
    (R.withPermutations perms).runRound.aborted = false := by
  obtain ⟨hdet, hsift, hsec, key, hkey, -⟩ := R.runRound_of_not_aborted h
  have hlen : (R.withPermutations perms).correctedBits.length = R.correctedBits.length := by
    rw [length_correctedBits, length_correctedBits]
    rfl
  have hsome : ((R.withPermutations perms).amplify
      (R.withPermutations perms).correctedBits).isSome = true := by
    rw [amplify_isSome_congr _ hlen]
    exact Option.isSome_iff_exists.mpr ⟨key, hkey⟩
  -- all conditions before the amplification are read off before any permutation is drawn
  rcases (R.withPermutations perms).runRound_cases with ⟨h0, -⟩ | ⟨-, h0, -⟩ | ⟨-, -, h0, -⟩ |
    ⟨-, -, -, h0, -⟩ | ⟨-, -, -, key', -, hr⟩
  · exact absurd h0 hdet
  · exact absurd h0 (not_lt.mpr hsift)
  · exact absurd (h0.symm.trans hsec) (by simp)
  · rw [h0] at hsome
    exact absurd hsome (by simp)
  · rw [hr]
    rfl

/-- **Key agreement of an accepted round.**  Whatever the permutations, the round stays
accepted; error correction returns Alice's remaining bits for every choice of them exactly
when the remaining strings are correctable, and then the key is the hash of Alice's own
string.  The equivalence holds for all strings of equal length and every estimate. -/
theorem accepted_round_agrees_iff (h : R.runRound.aborted = false) :
    (∀ perms : PassDraws, (R.withPermutations perms).runRound.aborted = false) ∧
    ((∀ perms : PassDraws, (R.withPermutations perms).correctedBits = R.aliceRemaining)
      ↔ Correctable R.aliceRemaining R.bobRemaining R.estimate.qber) ∧
    (Correctable R.aliceRemaining R.bobRemaining R.estimate.qber →
      R.runRound.key = R.amplify R.aliceRemaining) ∧
    ∀ (alice bob : List Bool) (qber : ℚ), alice.length = bob.length →
      ((∀ perms : PassDraws, errorCorrectCascade perms alice bob qber = alice)
        ↔ Correctable alice bob qber) := by
  refine ⟨fun perms => R.aborted_withPermutations perms h,
    errorCorrectCascade_forall_eq_iff R.estimate.qber R.length_remaining, fun hcorr => ?_,
    fun alice bob qber hlen => errorCorrectCascade_forall_eq_iff qber hlen⟩
  obtain ⟨-, -, -, key, hkey, hr⟩ := R.runRound_of_not_aborted h
  have heq : R.correctedBits = R.aliceRemaining :=
    errorCorrectCascade_of_correctable R.length_remaining hcorr _
  rw [hr, ← heq, hkey]
  rfl

end Round

/-! ### Two concrete rounds -/

/-- Values of the `math` functions at the arguments the rounds below use. -/
def quietMath : MathFns where
  sinDeg := fun _ => 0
  log2 := fun _ => 0
  exp10 := fun _ => 1
  sinDeg_zero := rfl

def quietParams : ChannelParameters :=
  { fiberLengthKm := 0, detectorEfficiency := 1, darkCountRate := 0, deadTimeNs := 0,
    afterpulseProbability := 0, misalignmentAngleDeg := 0 }

/-- One photon that survives and triggers; a wrong-basis measurement reads 1. -/
def certainPulse : PulseDraws where
  poisson := fun _ => 1
  surviving := fun n _ => Fin.last n
  afterpulse := .zero
  dark := .zero
  triggered := fun n _ => Fin.last n
  misalignment := .zero
  bit := true

/-- Alice sends 66 zeros in one basis; Eve takes pulse 65 only, in the other basis, if she
intercepts at all. -/
def lastPulseDraws : RoundDraws where
  aliceBit := fun _ => false
  aliceBasis := fun _ => false
  bobBasis := fun _ => false
  intercept := fun i => if i = 65 then .zero else .half
  eveBasis := fun _ => true
  eveBit := fun _ => true
  pulse := fun _ => certainPulse
  permutation := fun _ n => ⟨List.range n, List.Perm.refl _⟩
  toeplitz := fun _ _ => true
  duration := 0

def quietRound : Round where
  math := quietMath
  config := { numRawBits := 66, qberSampleFraction := 0, channelParams := quietParams }
  eavesdropper := none
  draws := lastPulseDraws

/-- The same round with an Eve who takes pulses at rate 1/2. -/
def missedErrorRound : Round :=
  { quietRound with eavesdropper := some { interceptionRate := 1 / 2 } }

theorem missedErrorRound_error_is_eves :
    missedErrorRound.intercepts 65 = true ∧
      (missedErrorRound.eveMeasures 65).2 ≠ missedErrorRound.aliceBases.getD 65 .rectilinear :=
  (missedErrorRound.noiseless_errors_are_eves ⟨rfl, rfl, rfl⟩).2.1 65 false true 65
    (by decide +kernel) (by decide +kernel) (by decide +kernel) (by decide)

theorem quietRound_key_is_alices :
    quietRound.runRound.key = quietRound.amplify quietRound.aliceRemaining :=
  (quietRound.accepted_round_agrees_iff (by decide +kernel)).2.2.1 (by decide +kernel)

/-- The sample of one bit shows no error, so the wrong last bit is never looked at. -/
theorem missedError_disagrees :
    missedErrorRound.runRound.aborted = false ∧ missedErrorRound.estimate.qber = 0 ∧
      missedErrorRound.correctedBits ≠ missedErrorRound.aliceRemaining := by
  decide +kernel

end Protocol
