/-
The amplified key against the secure length.

The bound `n * (1 - 2 * h(QBER)) - 64` is computed in bits; the hash output is padded to
bytes, and the round reports eight times the number of bytes.

* `runRound_key` — a round reports eight times the length of the key it amplified;
* `key_within_iff` — it stays within secure length and target exactly when nothing had to
  be rounded up, or there is no key.
-/
import QuantumVideoChat.DeadTime

namespace Protocol

open BitUtils

/-- `n * (1 - 2*h(QBER)) - security_parameter`, in whole bits. -/
def secureLength (h : ℚ → ℚ) (n : ℕ) (qber : ℚ) : ℤ := ⌊n * max 0 (1 - 2 * h qber)⌋ - 64

/-- For an estimate the code computes this bound: the test `qber > 0` only skips `h(0)`. -/
theorem maxSecureBits_eq {h : ℚ → ℚ} (h0 : h 0 = 0) {qber : ℚ} (hq : 0 ≤ qber) (n : ℕ) :
    maxSecureBits h n qber = secureLength h n qber := by
  have hent : (if qber > 0 then h qber else 0) = h qber := by
    rcases hq.eq_or_lt with rfl | hpos
    · rw [if_neg (lt_irrefl _), h0]
    · rw [if_pos hpos]
  have hint : pyInt (n * max 0 (1 - 2 * h qber)) = ⌊n * max 0 (1 - 2 * h qber)⌋ := by
    have hnonneg : (0 : ℚ) ≤ n * max 0 (1 - 2 * h qber) :=
      mul_nonneg (Nat.cast_nonneg n) (le_max_left _ _)
    rw [pyInt_of_nonneg hnonneg, Int.natCast_floor_eq_floor hnonneg]
  rw [maxSecureBits, secureLength, hent, hint, securityParameter]

/-- When a key is returned. -/
theorem privacyAmplify_isSome_iff {h : ℚ → ℚ} (draw : BitDraw) {bits : List Bool} {qber : ℚ}
    {t : ℤ} (ht : 0 < t) (hne : bits ≠ []) :
    (privacyAmplify h draw bits qber t).isSome = true ↔ 0 < maxSecureBits h bits.length qber := by
  have hlen : bits.length ≠ 0 := by simpa using hne
  rw [privacyAmplify, if_neg hlen]
  by_cases hlt : maxSecureBits h bits.length qber < t
  · simp [hlt]
  · simp only [if_neg hlt, Option.isSome_some, true_iff]
    omega

theorem maxSecureBits_nil (h : ℚ → ℚ) (qber : ℚ) : maxSecureBits h 0 qber = -64 := by
  rw [maxSecureBits, Nat.cast_zero, zero_mul]
  rfl

/-- Rounding `m` bits up to bytes keeps the number of bits exactly for multiples of 8. -/
theorem padded_le_iff {m : ℤ} (hm : 0 < m) :
    8 * (((m.toNat + 7) / 8 : ℕ) : ℤ) ≤ m ↔ 8 ∣ m := by
  omega

/-- Every round reports eight times the length of the key it amplified. -/
theorem Round.runRound_key (R : Round) {key : Bytes} (hkey : R.runRound.key = some key) :
    R.amplify R.correctedBits = some key ∧ R.runRound.finalKeyBits = 8 * key.length := by
  rcases R.runRound_cases with ⟨-, hr⟩ | ⟨-, -, hr⟩ | ⟨-, -, -, hr⟩ | ⟨-, -, -, -, hr⟩ |
    ⟨-, -, -, key', hamp, hr⟩ <;> rw [hr] at hkey ⊢
  iterate 4 exact absurd hkey (Option.some_ne_none key).symm
  obtain rfl : key' = key := Option.some_inj.mp hkey
  exact ⟨hamp, Nat.mul_comm _ _⟩

/-- **When the key stays within the secure length.**  The bits a round reports are those of
the amplified key, and for every string, estimate, entropy function, target and random
matrix they stay within secure length and target if and only if no bit may be extracted, or
the smaller of the two is a whole number of bytes. -/
theorem key_within_iff {h : ℚ → ℚ} (h0 : h 0 = 0) (bits : List Bool) {qber : ℚ}
    (hq : 0 ≤ qber) {t : ℤ} (ht : 0 < t) (draw : BitDraw) :
    (∀ (R : Round) (key : Bytes), R.runRound.key = some key →
      R.amplify R.correctedBits = some key ∧ R.runRound.finalKeyBits = 8 * key.length) ∧
    ((∀ key, privacyAmplify h draw bits qber t = some key →
        8 * (key.length : ℤ) ≤ secureLength h bits.length qber ∧ 8 * (key.length : ℤ) ≤ t)
      ↔ secureLength h bits.length qber ≤ 0 ∨
        8 ∣ min (secureLength h bits.length qber) t) := by
  refine ⟨fun R _ hkey => R.runRound_key hkey, ?_⟩
  rw [← maxSecureBits_eq h0 hq]
  constructor
  · intro hall
    by_cases hsecure : maxSecureBits h bits.length qber ≤ 0
    · exact .inl hsecure
    · right
      -- there is a key, and its padded length is within both bounds
      have hne : bits ≠ [] := by
        rintro rfl
        exact hsecure (by rw [List.length_nil, maxSecureBits_nil]; decide)
      obtain ⟨key, hkey⟩ := Option.isSome_iff_exists.mp
        ((privacyAmplify_isSome_iff draw ht hne).mpr (not_le.mp hsecure))
      have hlen := (length_of_privacyAmplify ht hkey).2
      have hbits := le_min (hall key hkey).1 (hall key hkey).2
      rw [hlen] at hbits
      exact (padded_le_iff (lt_min (not_le.mp hsecure) ht)).mp hbits
  · intro hcond key hkey
    obtain ⟨hpos, hlen⟩ := length_of_privacyAmplify ht hkey
    have hdvd := hcond.resolve_left (not_le.mpr hpos)
    have hbits := (padded_le_iff (lt_min hpos ht)).mpr hdvd
    rw [← hlen] at hbits
    exact ⟨hbits.trans (min_le_left _ _), hbits.trans (min_le_right _ _)⟩

/-- 96 bits and a sample without errors: 32 secure bits make four bytes. -/
theorem key_within_iff_four_bytes :
    secureLength (fun _ => 0) (List.replicate 96 true).length 0 = 32 ∧
      ∀ key, privacyAmplify (fun _ => 0) (fun _ _ => true) (List.replicate 96 true) 0 128 = some key →
        8 * (key.length : ℤ) ≤ secureLength (fun _ => 0) (List.replicate 96 true).length 0 ∧
          8 * (key.length : ℤ) ≤ 128 :=
  ⟨by decide +kernel,
    (key_within_iff rfl (List.replicate 96 true) (le_refl 0) (by decide) (fun _ _ => true)).2.mpr
      (.inr (by decide +kernel))⟩

/-- 73 bits leave 9 secure ones, and the key handed out has 16. -/
theorem nine_secure_bits_give_sixteen :
    ¬ ∀ (h : ℚ → ℚ) (_ : ∀ p, 0 ≤ h p ∧ h p ≤ 1) (_ : h 0 = 0) (bits : List Bool) (qber : ℚ)
        (_ : 0 ≤ qber) (t : ℤ) (_ : 0 < t) (draw : BitDraw) (key : Bytes),
      privacyAmplify h draw bits qber t = some key →
        8 * (key.length : ℤ) ≤ secureLength h bits.length qber ∧ 8 * (key.length : ℤ) ≤ t := by
  intro hall
  have hkey : privacyAmplify (fun _ => 0) (fun _ _ => true) (List.replicate 73 true) 0 128
      = some [255, 128] := by
    decide +kernel
  have h := (hall (fun _ => 0) (fun _ => ⟨le_refl 0, zero_le_one⟩) rfl _ 0 (le_refl 0) 128
    (by decide) (fun _ _ => true) _ hkey).1
  exact absurd h (by decide +kernel)

end Protocol
