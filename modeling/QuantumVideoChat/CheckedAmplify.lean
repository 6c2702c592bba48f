/-
Privacy amplification with every exception it can raise (`_privacy_amplify` and
`shared/bb84/utils.py`).

Logarithms have a domain, vectors a length, arrays no room for `None`, and a byte is below
256.

* `bitsToBytes_eq_ok`, `toeplitzHash_eq_ok`, `privacyAmplify_eq_ok` — on bits each of them
  returns what the total function computes.
-/
import QuantumVideoChat.CheckedLink
import QuantumVideoChat.Protocol

namespace Checked

open Exceptions Protocol

/-- `math.log2(x)`. -/
def log2 (M : MathFns) (x : ℚ) : Py ℚ := if x ≤ 0 then .error .valueError else .ok (M.log2 x)

/-- `binary_entropy`. -/
def binaryEntropy (M : MathFns) (p : ℚ) : Py ℚ :=
  if p ≤ 0 ∨ p ≥ 1 then .ok 0
  else do
    let logError ← log2 M p
    let logCorrect ← log2 M (1 - p)
    return -p * logError - (1 - p) * logCorrect

/-- The inner loop of `bits_to_bytes`: the byte at `start`. -/
def packByte (padded : List ℕ) (start : ℕ) : Py ℕ :=
  (List.range 8).foldlM (fun byte j => do
    let bit ← item padded (start + j)
    return (byte <<< 1) ||| bit) 0

/-- `result.append(byte)` of a `bytearray`. -/
def append (result : Bytes) (byte : ℕ) : Py Bytes :=
  if byte < 256 then .ok (result ++ [UInt8.ofNat byte]) else .error .valueError

/-- `bits_to_bytes`. -/
def bitsToBytes (bits : List ℕ) : Py Bytes := do
  let padded := bits ++ List.replicate ((8 - bits.length % 8) % 8) 0
  let starts ← stepRange padded.length 8
  starts.foldlM (fun result start => do
    let byte ← packByte padded start
    append result byte) []

/-- `integers(0, 2, size=size)`. -/
def integers (draw : BitDraw) (size : ℤ) : Py (List ℤ) :=
  if size < 0 then .error .valueError else .ok ((List.ofFn (draw size.toNat)).map Bool.toInt)

/-- `np.dot(row, input)` of two vectors. -/
def dot (row input : List ℤ) : Py ℤ :=
  if row.length = input.length then .ok (List.zipWith (· * ·) row input).sum
  else .error .valueError

/-- `toeplitz_hash`. -/
def toeplitzHash (draw : BitDraw) (bits : List PyBit) (outputLength : ℤ) : Py Bytes :=
  let n := bits.length
  if outputLength ≤ 0 ∨ n = 0 then .ok []
  else do
    let randomBits ← integers draw (n + outputLength - 1)
    -- an array of small integers cannot hold `None`
    let input ← bits.mapM number
    let outputBits ← (List.range outputLength.toNat).mapM fun i => do
      let bit ← dot ((randomBits.drop i).take n) input
      return (bit % 2).toNat
    bitsToBytes outputBits

/-- `binary_entropy(qber) if qber > 0 else 0.0`. -/
def hQber (M : MathFns) (qber : ℚ) : Py ℚ := if qber > 0 then binaryEntropy M qber else .ok 0

/-- `_privacy_amplify`. -/
def privacyAmplify (M : MathFns) (draw : BitDraw) (correctedBits : List PyBit) (qber : ℚ)
    (targetLength : ℤ) : Py (Option Bytes) :=
  let n := correctedBits.length
  if n = 0 then .ok none
  else do
    let entropy ← hQber M qber
    let secureFraction := max 0 (1 - 2 * entropy)
    let bound := pyInt (n * secureFraction) - securityParameter
    if bound < targetLength then
      if bound ≤ 0 then return none
      else
        let key ← toeplitzHash draw correctedBits bound
        return some key
    else
      let key ← toeplitzHash draw correctedBits targetLength
      return some key

/-! ### Packing and hashing -/

/-- Shifting a bit into a byte, as integers. -/
def shiftIn (byte : ℕ) (bit : Bool) : ℕ := (byte <<< 1) ||| bit.toNat

theorem ofNat_shiftIn (byte : ℕ) (bit : Bool) :
    UInt8.ofNat (shiftIn byte bit) = (UInt8.ofNat byte <<< 1) ||| bit.toUInt8 := by
  rw [shiftIn, UInt8.ofNat_or, UInt8.ofNat_shiftLeft _ _ (by decide)]
  cases bit <;> rfl

theorem shiftIn_lt {byte k : ℕ} (h : byte < 2 ^ k) (bit : Bool) :
    shiftIn byte bit < 2 ^ (k + 1) := by
  refine Nat.or_lt_two_pow ?_ ?_
  · rw [Nat.shiftLeft_eq, pow_succ]
    omega
  · calc bit.toNat < 2 ^ 1 := bit.toNat_lt
      _ ≤ 2 ^ (k + 1) := Nat.pow_le_pow_right (by decide) (by omega)

/-- `k` more bits make a number below `2 ^ k` times the bound, and a byte when it fits. -/
theorem foldl_shiftIn (bits : List Bool) : ∀ {byte k : ℕ}, byte < 2 ^ k →
    bits.foldl shiftIn byte < 2 ^ (k + bits.length) ∧
      UInt8.ofNat (bits.foldl shiftIn byte)
        = bits.foldl (fun (byte : UInt8) bit => (byte <<< 1) ||| bit.toUInt8)
            (UInt8.ofNat byte) := by
  induction bits with
  | nil =>
    intro byte k h
    exact ⟨h, rfl⟩
  | cons bit bits ih =>
    intro byte k h
    obtain ⟨hlt, heq⟩ := ih (shiftIn_lt h bit)
    rw [List.foldl_cons, List.foldl_cons, List.length_cons, ← ofNat_shiftIn]
    exact ⟨by rwa [Nat.add_assoc, Nat.add_comm 1] at hlt, heq⟩

theorem foldl_shiftIn_of_length {bits : List Bool} (h : bits.length = 8) :
    bits.foldl shiftIn 0 < 256 ∧
      UInt8.ofNat (bits.foldl shiftIn 0) = BitUtils.packByte bits := by
  have hbyte := @foldl_shiftIn bits 0 0 (by decide)
  rwa [h] at hbyte

theorem packByte_eq_ok {padded : List Bool} {start : ℕ} (h : start + 8 ≤ padded.length) :
    packByte (padded.map Bool.toNat) start
      = .ok (((padded.drop start).take 8).foldl shiftIn 0) := by
  have hslice : (padded.drop start).take 8
      = (List.range 8).map fun j => padded.getD (start + j) false := by
    apply List.ext_getElem
    · simp only [List.length_take, List.length_drop, List.length_map, List.length_range]
      omega
    · intro j h1 h2
      have hj : j < 8 := by simpa using h2
      rw [List.getElem_take, List.getElem_drop, List.getElem_map, List.getElem_range,
        List.getD_eq_getElem _ _ (by omega)]
  rw [hslice, List.foldl_map]
  refine foldlM_eq_ok id (fun _ => True) (fun byte _ j hj => ⟨?_, trivial⟩) trivial
  have hj' := List.mem_range.mp hj
  rw [item_map Bool.toNat (by omega) false]
  rfl

theorem bitsToBytes_eq_ok (bits : List Bool) :
    bitsToBytes (bits.map Bool.toNat) = .ok (BitUtils.bitsToBytes bits) := by
  set padded := bits ++ List.replicate ((8 - bits.length % 8) % 8) false with hpadded
  have hpad : bits.map Bool.toNat ++ List.replicate ((8 - (bits.map Bool.toNat).length % 8) % 8) 0
      = padded.map Bool.toNat := by
    rw [hpadded, List.map_append, List.map_replicate, List.length_map]
    rfl
  have hlen : padded.length % 8 = 0 := by
    rw [hpadded, List.length_append, List.length_replicate]
    omega
  have hcount : (padded.length + 8 - 1) / 8 = padded.length / 8 := by omega
  have hbytes : bitsToBytes (bits.map Bool.toNat)
      = stepRange (padded.map Bool.toNat).length 8 >>= fun starts =>
          starts.foldlM (fun result start =>
            packByte (padded.map Bool.toNat) start >>= append result) [] := by
    rw [bitsToBytes, hpad]
  rw [hbytes, stepRange, if_neg (by decide), List.length_map, hcount]
  show List.foldlM _ _ _ = _
  rw [List.foldlM_map]
  have hgrown : BitUtils.bitsToBytes bits = (List.range (padded.length / 8)).foldl
      (fun result k => result ++ [BitUtils.packByte ((padded.drop (8 * k)).take 8)]) [] := by
    rw [BitUtils.bitsToBytes, ← hpadded, List.foldl_append_eq_append, List.nil_append,
      ← List.flatMap_def]
    exact List.map_eq_flatMap
  rw [hgrown]
  refine foldlM_eq_ok id (fun _ => True) (fun result _ k hk => ⟨?_, trivial⟩) trivial
  have hk' := List.mem_range.mp hk
  rw [packByte_eq_ok (by omega), Nat.mul_comm]
  have height : ((padded.drop (8 * k)).take 8).length = 8 := by
    rw [List.length_take, List.length_drop]
    omega
  obtain ⟨hlt, heq⟩ := foldl_shiftIn_of_length height
  show append _ _ = _
  rw [append, if_pos hlt, heq]
  rfl

theorem dot_eq_ok {row input : List Bool} (h : row.length = input.length) :
    dot (row.map Bool.toInt) (input.map Bool.toInt) = .ok (BitUtils.dot row input : ℤ) := by
  have hsum : (List.zipWith (· * ·) (row.map Bool.toInt) (input.map Bool.toInt)).sum
      = (BitUtils.dot row input : ℤ) := by
    rw [BitUtils.dot, List.zipWith_map, Nat.cast_list_sum, List.map_zipWith]
    refine congrArg (fun f => (List.zipWith f row input).sum) (funext₂ fun r b => ?_)
    cases r <;> cases b <;> rfl
  rw [dot, if_pos (by simpa using h), hsum]

theorem toNat_parity (s : ℕ) : ((s : ℤ) % 2).toNat = (s % 2 == 1).toNat := by
  have hcast : ((s : ℤ) % 2).toNat = s % 2 := by omega
  rw [hcast]
  rcases Nat.mod_two_eq_zero_or_one s with h | h <;> rw [h] <;> rfl

theorem toeplitzHash_eq_ok (draw : BitDraw) (bits : List Bool) (outputLength : ℤ) :
    toeplitzHash draw (bits.map pyBit) outputLength
      = .ok (BitUtils.toeplitzHash draw bits outputLength) := by
  rw [toeplitzHash, BitUtils.toeplitzHash, List.length_map]
  split_ifs with hempty
  · rfl
  push Not at hempty
  obtain ⟨hpos, hn⟩ := hempty
  obtain ⟨m, rfl⟩ : ∃ m : ℕ, outputLength = m := ⟨outputLength.toNat, by omega⟩
  have hsize : ((bits.length : ℤ) + m - 1).toNat = bits.length + m - 1 := by omega
  have hinput : (bits.map pyBit).mapM number = Except.ok (bits.map Bool.toInt) := by
    rw [mapM_eq_ok (g := fun bit => bit.getD 0) fun bit hbit => ?_, List.map_map]
    · rfl
    · obtain ⟨b, -, rfl⟩ := List.mem_map.mp hbit
      rfl
  set randomBits := List.ofFn (draw (bits.length + m - 1)) with hrandom
  have hrows : (List.range m).mapM (fun i => do
        let bit ← dot (((randomBits.map Bool.toInt).drop i).take bits.length)
          (bits.map Bool.toInt)
        return (bit % 2).toNat)
      = Except.ok ((BitUtils.toeplitzBits randomBits bits m).map Bool.toNat) := by
    rw [BitUtils.toeplitzBits, List.map_map]
    refine mapM_eq_ok fun i hi => ?_
    have hi' := List.mem_range.mp hi
    -- the row is a window of the random bits as long as the input
    have hrow : ((randomBits.drop i).take bits.length).length = bits.length := by
      rw [List.length_take, List.length_drop, hrandom, List.length_ofFn]
      omega
    rw [← List.map_drop, ← List.map_take, dot_eq_ok hrow]
    exact congrArg Except.ok (toNat_parity _)
  rw [integers, if_neg (by omega), hsize, ← hrandom, Int.toNat_natCast, hinput]
  show List.mapM _ _ >>= bitsToBytes = _
  rw [hrows]
  exact bitsToBytes_eq_ok _

/-- The logarithms are taken of numbers strictly between 0 and 1. -/
theorem binaryEntropy_eq_ok (M : MathFns) (p : ℚ) :
    binaryEntropy M p = .ok (Protocol.binaryEntropy M p) := by
  rw [binaryEntropy, Protocol.binaryEntropy]
  by_cases h : p ≤ 0 ∨ p ≥ 1
  · rw [if_pos h, if_pos h]
  · rw [if_neg h, if_neg h, log2, log2, if_neg fun h0 => h (.inl h0),
      if_neg fun h1 => h (.inr (by linarith))]
    rfl

theorem hQber_eq_ok (M : MathFns) (qber : ℚ) :
    hQber M qber = .ok (if qber > 0 then Protocol.binaryEntropy M qber else 0) := by
  rw [hQber, binaryEntropy_eq_ok]
  split_ifs <;> rfl

theorem privacyAmplify_eq_ok (M : MathFns) (draw : BitDraw) (correctedBits : List Bool)
    (qber : ℚ) (targetLength : ℤ) :
    privacyAmplify M draw (correctedBits.map pyBit) qber targetLength
      = .ok (Protocol.privacyAmplify (Protocol.binaryEntropy M) draw correctedBits qber
          targetLength) := by
  rw [privacyAmplify, Protocol.privacyAmplify, List.length_map]
  by_cases hn : correctedBits.length = 0
  · rw [if_pos hn, if_pos hn]
  rw [if_neg hn, if_neg hn, hQber_eq_ok]
  let bound := maxSecureBits (Protocol.binaryEntropy M) correctedBits.length qber
  show (if bound < targetLength then
      if bound ≤ 0 then Except.ok none
      else toeplitzHash draw _ bound >>= fun key => Except.ok (some key)
    else toeplitzHash draw _ targetLength >>= fun key => Except.ok (some key)) = _
  rw [toeplitzHash_eq_ok, toeplitzHash_eq_ok]
  show _ = Except.ok (if bound < targetLength then if bound ≤ 0 then _ else _ else _)
  split_ifs <;> rfl

end Checked
