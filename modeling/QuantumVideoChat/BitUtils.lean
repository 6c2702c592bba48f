/-
Bit strings and Toeplitz hashing (`shared/bb84/utils.py`).

A bit is a `Bool`, a byte string a list of `UInt8`.  `toeplitzHash` is the privacy
amplification hash: row `i` of its matrix is the window `random_bits[i:i+n]`, and
output bit `i` is the parity of that row against the input.

* `toeplitzBits_xor` — for fixed random bits the hash is linear over GF(2);
* `toeplitzHash_two_universal` — two distinct inputs of length `n` collide on exactly
  `2 ^ (n + m - 1) / 2 ^ m` of the random vectors.
-/
import QuantumVideoChat.WindowHash

/-- Python's `bytes`. -/
abbrev Bytes := List UInt8

/-- `rng.integers(0, 2, size=k)`: one vector of `k` bits for each requested size. -/
abbrev BitDraw := (size : ℕ) → Fin size → Bool

namespace BitUtils

/-! ### Packing bits into bytes -/

/-- Eight bits into one byte, most significant first: `byte = (byte << 1) | bit`. -/
def packByte (bits : List Bool) : UInt8 :=
  bits.foldl (fun byte bit => (byte <<< 1) ||| bit.toUInt8) 0

/-- `bits_to_bytes`: pads with zeros on the right to a multiple of 8. -/
def bitsToBytes (bits : List Bool) : Bytes :=
  let padded := bits ++ List.replicate ((8 - bits.length % 8) % 8) false
  (List.range (padded.length / 8)).map fun k => packByte ((padded.drop (8 * k)).take 8)

/-- `bytes_to_bits`: the most significant bit of a byte comes first. -/
def bytesToBits (data : Bytes) : List Bool :=
  data.flatMap fun byte => (List.range 8).reverse.map fun i => (byte.toNat >>> i) &&& 1 == 1

@[simp] theorem length_bitsToBytes (bits : List Bool) :
    (bitsToBytes bits).length = (bits.length + 7) / 8 := by
  simp only [bitsToBytes, List.length_map, List.length_range, List.length_append,
    List.length_replicate]
  omega

/-! ### Toeplitz hashing -/

/-- `np.dot` of two 0/1 vectors, as an integer. -/
def dot (row input : List Bool) : ℕ :=
  (List.zipWith (fun r b => r.toNat * b.toNat) row input).sum

/-- The `m` output bits of the Toeplitz matrix on `bits`, before packing. -/
def toeplitzBits (randomBits bits : List Bool) (m : ℕ) : List Bool :=
  (List.range m).map fun i => dot ((randomBits.drop i).take bits.length) bits % 2 == 1

/-- `toeplitz_hash`: `output_length` is a Python integer and may be nonpositive. -/
def toeplitzHash (draw : BitDraw) (bits : List Bool) (outputLength : ℤ) : Bytes :=
  let n := bits.length
  let m := outputLength.toNat
  if outputLength ≤ 0 ∨ n = 0 then []
  else bitsToBytes (toeplitzBits (List.ofFn (draw (n + m - 1))) bits m)

@[simp] theorem length_toeplitzBits (randomBits bits : List Bool) (m : ℕ) :
    (toeplitzBits randomBits bits m).length = m := by
  simp [toeplitzBits]

theorem length_toeplitzHash {draw : BitDraw} {bits : List Bool} {outputLength : ℤ}
    (hm : 0 < outputLength) (hn : bits ≠ []) :
    (toeplitzHash draw bits outputLength).length = (outputLength.toNat + 7) / 8 := by
  have hlen : bits.length ≠ 0 := by simpa using hn
  simp [toeplitzHash, not_le.mpr hm, hlen]

/-! ### Reading the parities over GF(2) -/

/-- A bit as an element of GF(2). -/
def toGF2 : Bool ≃ ZMod 2 where
  toFun b := (b.toNat : ZMod 2)
  invFun z := z == 1
  left_inv := by decide
  right_inv := by decide

theorem toGF2_apply (b : Bool) : toGF2 b = (b.toNat : ZMod 2) := rfl

theorem toGF2_xor (a b : Bool) : toGF2 (xor a b) = toGF2 a + toGF2 b := by
  revert a b
  decide

/-- A parity bit is the integer sum read in GF(2). -/
theorem toGF2_parity (s : ℕ) : toGF2 (s % 2 == 1) = (s : ZMod 2) := by
  rw [← ZMod.natCast_mod s 2]
  rcases Nat.mod_two_eq_zero_or_one s with h | h <;> rw [h] <;> rfl

variable {n m : ℕ}

theorem take_drop_ofFn {k : ℕ} (r : Fin k → Bool) {i : ℕ} (h : i + n ≤ k) :
    ((List.ofFn r).drop i).take n = List.ofFn fun j : Fin n => r ⟨i + j, by omega⟩ := by
  apply List.ext_getElem
  · simp
    omega
  · intro j h1 h2
    simp

theorem zipWith_ofFn {α β γ : Type*} (f : α → β → γ) (a : Fin n → α) (b : Fin n → β) :
    List.zipWith f (List.ofFn a) (List.ofFn b) = List.ofFn fun j => f (a j) (b j) := by
  apply List.ext_getElem
  · simp
  · intro j h1 h2
    simp

/-- Every list of length `n` tabulates a function on `Fin n`. -/
theorem exists_eq_ofFn {α : Type*} {x : List α} (hx : x.length = n) :
    ∃ a : Fin n → α, x = List.ofFn a := by
  subst hx
  exact ⟨x.get, (List.ofFn_get x).symm⟩

/-- Output bit `i`, read in GF(2), is the `i`-th window product. -/
theorem toGF2_dot (r : Fin (n + m - 1) → Bool) (a : Fin n → Bool) (i : Fin m) :
    toGF2 (dot (((List.ofFn r).drop i).take (List.ofFn a).length) (List.ofFn a) % 2 == 1)
      = WindowHash.windowMap (toGF2 ∘ a) m (toGF2 ∘ r) i := by
  -- the parity of a sum of products is the sum of the products in GF(2)
  rw [toGF2_parity, List.length_ofFn, take_drop_ofFn r (by omega), dot, zipWith_ofFn,
    List.sum_ofFn, Nat.cast_sum, WindowHash.windowMap_apply]
  refine Finset.sum_congr rfl fun j _ => ?_
  rw [Nat.cast_mul, mul_comm]
  rfl

/-- The output bits as a tabulated vector. -/
theorem toeplitzBits_ofFn (r : Fin (n + m - 1) → Bool) (a : Fin n → Bool) :
    toeplitzBits (List.ofFn r) (List.ofFn a) m
      = List.ofFn fun i =>
          toGF2.symm (WindowHash.windowMap (toGF2 ∘ a) m (toGF2 ∘ r) i) := by
  apply List.ext_getElem
  · simp
  · intro i h1 h2
    have hi : i < m := by simpa using h1
    rw [List.getElem_ofFn, Equiv.eq_symm_apply]
    simpa [toeplitzBits] using toGF2_dot r a ⟨i, hi⟩

theorem windowMap_sub (d e : Fin n → ZMod 2) (r : Fin (n + m - 1) → ZMod 2) :
    WindowHash.windowMap (d - e) m r
      = WindowHash.windowMap d m r - WindowHash.windowMap e m r := by
  funext i
  simp [sub_mul, Finset.sum_sub_distrib]

/-- Two inputs collide exactly when the difference of the inputs is sent to zero. -/
theorem toeplitzBits_eq_iff (r : Fin (n + m - 1) → Bool) (a b : Fin n → Bool) :
    toeplitzBits (List.ofFn r) (List.ofFn a) m = toeplitzBits (List.ofFn r) (List.ofFn b) m
      ↔ WindowHash.windowMap (toGF2 ∘ a - toGF2 ∘ b) m (toGF2 ∘ r) = 0 := by
  rw [toeplitzBits_ofFn, toeplitzBits_ofFn, List.ofFn_inj, windowMap_sub, sub_eq_zero]
  constructor
  · intro h
    funext i
    exact toGF2.symm.injective (congrFun h i)
  · intro h
    rw [h]

/-- For fixed random bits the hash is linear over GF(2). -/
theorem toeplitzBits_xor (r : Fin (n + m - 1) → Bool) {x y : List Bool}
    (hx : x.length = n) (hy : y.length = n) :
    toeplitzBits (List.ofFn r) (List.zipWith xor x y) m
      = List.zipWith xor (toeplitzBits (List.ofFn r) x m)
          (toeplitzBits (List.ofFn r) y m) := by
  obtain ⟨a, rfl⟩ := exists_eq_ofFn hx
  obtain ⟨b, rfl⟩ := exists_eq_ofFn hy
  rw [zipWith_ofFn, toeplitzBits_ofFn, toeplitzBits_ofFn, toeplitzBits_ofFn, zipWith_ofFn]
  refine congrArg List.ofFn (funext fun i => ?_)
  rw [Equiv.symm_apply_eq, toGF2_xor, Equiv.apply_symm_apply, Equiv.apply_symm_apply]
  simp [toGF2_xor, add_mul, Finset.sum_add_distrib]

/-- The all-zero string hashes to zeros, whatever the random bits. -/
theorem toeplitzBits_zero (r : Fin (n + m - 1) → Bool) :
    toeplitzBits (List.ofFn r) (List.replicate n false) m = List.replicate m false := by
  rw [← List.ofFn_const, toeplitzBits_ofFn, ← List.ofFn_const]
  refine congrArg List.ofFn (funext fun i => ?_)
  rw [Equiv.symm_apply_eq]
  simp [toGF2_apply]

/-- The number of random vectors on which two distinct inputs collide. -/
theorem card_collisions {a b : Fin n → Bool} (hab : a ≠ b) :
    (Finset.univ.filter fun r : Fin (n + m - 1) → Bool =>
        toeplitzBits (List.ofFn r) (List.ofFn a) m
          = toeplitzBits (List.ofFn r) (List.ofFn b) m).card * 2 ^ m
      = 2 ^ (n + m - 1) := by
  have hd : (toGF2 ∘ a - toGF2 ∘ b : Fin n → ZMod 2) ≠ 0 := by
    intro h
    exact hab (funext fun j => toGF2.injective (congrFun (sub_eq_zero.mp h) j))
  -- the bit vectors are the vectors over GF(2), one for one
  have hcard : (Finset.univ.filter fun r : Fin (n + m - 1) → Bool =>
        toeplitzBits (List.ofFn r) (List.ofFn a) m
          = toeplitzBits (List.ofFn r) (List.ofFn b) m).card
      = (Finset.univ.filter fun r =>
          WindowHash.windowMap (toGF2 ∘ a - toGF2 ∘ b) m r = 0).card :=
    Finset.card_equiv (Equiv.arrowCongr (Equiv.refl _) toGF2) fun r => by
      simp only [Finset.mem_filter, Finset.mem_univ, true_and]
      exact toeplitzBits_eq_iff r a b
  have hcount := WindowHash.card_windowMap_fiber hd m 0
  rw [ZMod.card] at hcount
  rw [hcard, hcount]

/-- **Privacy amplification is exactly 2-universal**: two distinct inputs of length `n`
agree on all `m` output bits for exactly a `2 ^ (-m)` fraction of the random vectors, and
each vector gives a map that is linear over GF(2). -/
theorem toeplitzHash_two_universal (n m : ℕ) (hn : 1 ≤ n) (hm : 1 ≤ m) :
    (∀ x y : List Bool, x.length = n → y.length = n → x ≠ y →
      ((Finset.univ.filter fun r : Fin (n + m - 1) → Bool =>
          toeplitzBits (List.ofFn r) x m = toeplitzBits (List.ofFn r) y m).card : ℚ)
        / Fintype.card (Fin (n + m - 1) → Bool) = 1 / 2 ^ m) ∧
    (∀ draw : BitDraw, ∀ x : List Bool, x.length = n →
      toeplitzHash draw x m
        = bitsToBytes (toeplitzBits (List.ofFn (draw (n + m - 1))) x m)) ∧
    ∀ r : Fin (n + m - 1) → Bool,
      toeplitzBits (List.ofFn r) (List.replicate n false) m = List.replicate m false ∧
      ∀ x y : List Bool, x.length = n → y.length = n →
        toeplitzBits (List.ofFn r) (List.zipWith xor x y) m
          = List.zipWith xor (toeplitzBits (List.ofFn r) x m)
              (toeplitzBits (List.ofFn r) y m) := by
  refine ⟨fun x y hx hy hxy => ?_, fun draw x hx => ?_, fun r =>
    ⟨toeplitzBits_zero r, fun x y hx hy => toeplitzBits_xor r hx hy⟩⟩
  · obtain ⟨a, rfl⟩ := exists_eq_ofFn hx
    obtain ⟨b, rfl⟩ := exists_eq_ofFn hy
    have hcount := card_collisions (m := m) (a := a) (b := b) fun h => hxy (by rw [h])
    have hall : Fintype.card (Fin (n + m - 1) → Bool) = 2 ^ (n + m - 1) := by simp
    rw [hall, div_eq_div_iff (by positivity) (by positivity), one_mul]
    exact_mod_cast hcount
  · subst hx
    rw [toeplitzHash, if_neg (by omega), Int.toNat_natCast]

/-- Two-bit inputs hashed to one bit: half of the four vectors make them collide. -/
theorem toeplitzHash_two_universal_two_one :
    ((Finset.univ.filter fun r : Fin (2 + 1 - 1) → Bool =>
        toeplitzBits (List.ofFn r) [true, false] 1
          = toeplitzBits (List.ofFn r) [true, true] 1).card : ℚ)
      / Fintype.card (Fin (2 + 1 - 1) → Bool) = 1 / 2 ^ 1 :=
  (toeplitzHash_two_universal 2 1 (by decide) (by decide)).1
    [true, false] [true, true] rfl rfl (by decide)

end BitUtils
