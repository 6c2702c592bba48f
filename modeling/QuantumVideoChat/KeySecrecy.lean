/-
How secret a key is (`shared/bb84/protocol.py`, `_privacy_amplify`).

The key is a hash of the corrected bits, and the random bits of the hash are public.  Whoever is
left with many candidates for the corrected bits knows little about the key.

* `toeplitz_isTwoUniversal` — the hash is 2-universal;
* `key_nearly_uniform` — what the 64 bits of `security_parameter` are for.
-/
import QuantumVideoChat.BitPacking
import QuantumVideoChat.Protocol
import QuantumVideoChat.UniversalHash

namespace KeySecrecy

open BitUtils Protocol Finset UniversalHash

variable {n m : ℕ}

/-- The bits of the hash before packing. -/
def hashBits (n m : ℕ) (r : Fin (n + m - 1) → Bool) (x : Fin n → Bool) : Fin m → Bool :=
  fun i => (toeplitzBits (List.ofFn r) (List.ofFn x) m).getD i false

theorem ofFn_hashBits (r : Fin (n + m - 1) → Bool) (x : Fin n → Bool) :
    List.ofFn (hashBits n m r x) = toeplitzBits (List.ofFn r) (List.ofFn x) m := by
  refine List.ext_getElem (by simp) fun i h1 h2 => ?_
  rw [List.getElem_ofFn, hashBits, List.getD_eq_getElem]

theorem toeplitz_isTwoUniversal (n m : ℕ) : IsTwoUniversal (hashBits n m) := by
  intro x y hxy
  have hcount := card_collisions (m := m) hxy
  simp only [← ofFn_hashBits, List.ofFn_inj] at hcount
  simp only [Fintype.card_pi_const, Fintype.card_bool]
  exact hcount.le

/-- `rng.integers` returns `r`. -/
def drawOf {k : ℕ} (r : Fin k → Bool) : BitDraw := fun _ i =>
  if h : i < k then r ⟨i, h⟩ else false

/-- The keys of `m` bits. -/
def keys (m : ℕ) : Finset Bytes := univ.image fun k : Fin m → Bool => bitsToBytes (List.ofFn k)

theorem packed_injective (m : ℕ) :
    Function.Injective fun k : Fin m → Bool => bitsToBytes (List.ofFn k) := fun _ _ h =>
  List.ofFn_injective (bitsToBytes_injOn m (List.length_ofFn) (List.length_ofFn) h)

section

variable (h : ℚ → ℚ) (qber : ℚ) (targetLength : ℤ) (S : Finset (Fin n → Bool))

/-- How likely the key is, for corrected bits among `S` that are all as likely. -/
def keyLikelihood (r : Fin (n + m - 1) → Bool) (key : Bytes) : ℚ :=
  #{x ∈ S | privacyAmplify h (drawOf r) (List.ofFn x) qber targetLength = some key} / #S

/-- The distance of the key from a random one of `m` bits, averaged over the random bits. -/
def averageDistance (m : ℕ) : ℚ :=
  (∑ r : Fin (n + m - 1) → Bool, ∑ key ∈ keys m,
      |keyLikelihood h qber targetLength S r key - 1 / 2 ^ m|) / 2 ^ (n + m - 1)

variable {h qber targetLength}

/-- The key is the packed hash. -/
theorem privacyAmplify_ofFn (hn : 1 ≤ n) (hm : 1 ≤ m)
    (hlength : min (maxSecureBits h n qber) targetLength = m) (r : Fin (n + m - 1) → Bool)
    (x : Fin n → Bool) :
    privacyAmplify h (drawOf r) (List.ofFn x) qber targetLength
      = some (bitsToBytes (List.ofFn (hashBits n m r x))) := by
  have hdraw : drawOf r (n + m - 1) = r := by
    funext i
    rw [drawOf, dif_pos i.isLt]
  have hhash : toeplitzHash (drawOf r) (List.ofFn x) m
      = bitsToBytes (List.ofFn (hashBits n m r x)) := by
    rw [toeplitzHash, if_neg (by simp; omega), List.length_ofFn, Int.toNat_natCast, hdraw,
      ofFn_hashBits]
  rw [privacyAmplify, if_neg (by simp; omega), List.length_ofFn]
  dsimp only
  split_ifs with hlt hle
  · omega
  · rw [show maxSecureBits h n qber = m by omega, hhash]
  · rw [show targetLength = m by omega, hhash]

theorem averageDistance_eq (hn : 1 ≤ n) (hm : 1 ≤ m)
    (hlength : min (maxSecureBits h n qber) targetLength = m) :
    averageDistance h qber targetLength S m
      = (∑ r, deviation (hashBits n m) S r) / 2 ^ (n + m - 1) := by
  rw [averageDistance]
  congr 1
  refine sum_congr rfl fun r _ => ?_
  rw [keys, sum_image fun k _ k' _ heq => packed_injective m heq, deviation]
  refine sum_congr rfl fun k _ => ?_
  -- the keys are the hashes, one for one
  have hkey : ∀ x, (privacyAmplify h (drawOf r) (List.ofFn x) qber targetLength
      = some (bitsToBytes (List.ofFn k))) ↔ hashBits n m r x = k := fun x => by
    rw [privacyAmplify_ofFn hn hm hlength, Option.some_inj]
    exact (packed_injective m).eq_iff
  simp only [keyLikelihood, likelihood, hkey, Fintype.card_pi_const, Fintype.card_bool,
    Nat.cast_pow, Nat.cast_ofNat]

end

/-- With `2 ^ 64` candidates for each value the average is small. -/
theorem average_le {total seeds candidates values : ℚ} (hseeds : 0 < seeds)
    (hcandidates : 0 < candidates) (hleftover : total ^ 2 * candidates ≤ seeds ^ 2 * values)
    (h : values * 2 ^ 64 ≤ candidates) : total / seeds ≤ 1 / 2 ^ 32 := by
  refine abs_le_of_sq_le_sq' ?_ (by positivity) |>.2
  rw [div_pow, div_le_iff₀ (by positivity)]
  calc total ^ 2
      ≤ seeds ^ 2 * values / candidates := by
        rw [le_div_iff₀ hcandidates]
        exact hleftover
    _ ≤ (1 / 2 ^ 32) ^ 2 * seeds ^ 2 := by
        rw [div_le_iff₀ hcandidates]
        calc seeds ^ 2 * values
            = (1 / 2 ^ 32) ^ 2 * seeds ^ 2 * (values * 2 ^ 64) := by
              field_simp
          _ ≤ (1 / 2 ^ 32) ^ 2 * seeds ^ 2 * candidates := by
              gcongr

/-- **What privacy amplification achieves.**  Somebody who is left with as many candidates for
the corrected bits as the bound on the key length supposes, `2 ^ int(n * secure_fraction)` or
more, all as likely, finds the key to be a random one, up to a distance of `2 ^ (-32)` on average
over the random bits of the hash. -/
theorem key_nearly_uniform (h : ℚ → ℚ) (qber : ℚ) (targetLength : ℤ) (n m : ℕ) (hn : 1 ≤ n)
    (hm : 1 ≤ m) (hlength : min (maxSecureBits h n qber) targetLength = m)
    (S : Finset (Fin n → Bool))
    (hS : 2 ^ (maxSecureBits h n qber + securityParameter).toNat ≤ #S) :
    averageDistance h qber targetLength S m ≤ 1 / 2 ^ 32 := by
  have hcandidates : 2 ^ m * 2 ^ 64 ≤ #S := by
    refine le_trans ?_ hS
    rw [← pow_add]
    refine Nat.pow_le_pow_right (by decide) ?_
    rw [securityParameter]
    omega
  have hnonempty : S.Nonempty := card_pos.mp (lt_of_lt_of_le (by positivity) hcandidates)
  have hleftover := sq_sum_deviation_le (toeplitz_isTwoUniversal n m) hnonempty
  simp only [Fintype.card_pi_const, Fintype.card_bool, Nat.cast_pow, Nat.cast_ofNat] at hleftover
  rw [averageDistance_eq S hn hm hlength]
  exact average_le (by positivity) (by exact_mod_cast hnonempty.card_pos) hleftover
    (by exact_mod_cast hcandidates)

/-- No errors, and nothing known: one bit is left of 65. -/
theorem key_of_65_bits_nearly_uniform :
    averageDistance (fun _ => 0) 0 128 (univ : Finset (Fin 65 → Bool)) 1 ≤ 1 / 2 ^ 32 :=
  key_nearly_uniform (fun _ => 0) 0 128 65 1 (by decide) (by decide) (by decide +kernel) univ (by
    rw [card_univ, Fintype.card_pi_const, Fintype.card_bool]
    decide +kernel)

end KeySecrecy
