/-
Packing bits into bytes and taking them out again (`shared/bb84/utils.py`).

A byte is the binary numeral of its eight bits, most significant first, and a packed key is
one such byte for each block of eight.

* `bytesToBits_bitsToBytes` — unpacking gives the bits back, with their padding;
* `bytesToBits_injective` — two byte strings with the same bits are the same;
* `toNat_getElem_bitsToBytes` — what a packed byte is, bit by bit;
* `bit_packing_faithful` — the two conversions undo each other up to the fewest zeros.
-/
import QuantumVideoChat.BinaryNumerals
import QuantumVideoChat.BitUtils
import QuantumVideoChat.Blocks

namespace BitUtils

open BinaryNumerals

/-! ### One byte -/

/-- Taking in one more bit, as long as the top bit is clear. -/
theorem toNat_shiftLeft_or {byte : UInt8} (h : byte.toNat < 2 ^ 7) (b : Bool) :
    ((byte <<< 1) ||| b.toUInt8).toNat = Nat.bit b byte.toNat := by
  have hshift : (byte <<< 1).toNat = Nat.bit false byte.toNat := by
    rw [UInt8.toNat_shiftLeft]
    show byte.toNat <<< 1 % 2 ^ 8 = 2 * byte.toNat
    rw [Nat.shiftLeft_eq]
    omega
  have hbit : b.toUInt8.toNat = Nat.bit b 0 := by cases b <;> rfl
  rw [UInt8.toNat_or, hshift, hbit, Nat.lor_bit, Bool.false_or, Nat.or_zero]

/-- Up to eight bits nothing is shifted out of the byte. -/
theorem toNat_packByte {bits : List Bool} (h : bits.length ≤ 8) :
    (packByte bits).toNat = value bits := by
  induction bits using List.reverseRecOn with
  | nil => rfl
  | append_singleton bits b ih =>
    rw [List.length_append, List.length_singleton] at h
    have hlow : value bits < 2 ^ 7 :=
      (value_lt bits).trans_le (Nat.pow_le_pow_right Nat.two_pos (by omega))
    have hpack : packByte (bits ++ [b]) = (packByte bits <<< 1) ||| b.toUInt8 := by
      rw [packByte, List.foldl_append]
      rfl
    rw [← ih (by omega)] at hlow
    rw [hpack, toNat_shiftLeft_or hlow, ih (by omega), value_concat]

theorem bytesToBits_cons (byte : UInt8) (data : Bytes) :
    bytesToBits (byte :: data) = digits 8 byte.toNat ++ bytesToBits data := by
  have hbit : ∀ i, ((byte.toNat >>> i) &&& 1 == 1) = byte.toNat.testBit i := by
    intro i
    rw [Nat.testBit, Nat.and_comm, Nat.one_and_eq_mod_two]
    rcases Nat.mod_two_eq_zero_or_one (byte.toNat >>> i) with h | h <;> rw [h] <;> rfl
  simp only [bytesToBits, List.flatMap_cons, hbit]
  rfl

theorem digits_packByte {bits : List Bool} (h : bits.length = 8) :
    digits 8 (packByte bits).toNat = bits := by
  rw [toNat_packByte h.le, ← h, digits_value]

theorem digits_toNat_injective : Function.Injective fun byte : UInt8 => digits 8 byte.toNat := by
  intro a b hab
  have hvalue := congrArg value hab
  dsimp only at hvalue
  rw [value_digits 8 a.toNat_lt, value_digits 8 b.toNat_lt] at hvalue
  exact UInt8.toNat_inj.mp hvalue

/-! ### Byte strings -/

theorem length_bytesToBits (data : Bytes) : (bytesToBits data).length = 8 * data.length := by
  induction data with
  | nil => rfl
  | cons byte data ih =>
    rw [bytesToBits_cons, List.length_append, length_digits, ih, List.length_cons]
    omega

theorem bytesToBits_injective : Function.Injective bytesToBits := by
  intro a
  induction a with
  | nil =>
    intro b hb
    have hlen := congrArg List.length hb
    rw [length_bytesToBits, length_bytesToBits] at hlen
    exact (List.length_eq_zero_iff.mp (by simpa using hlen.symm)).symm
  | cons byte a ih =>
    intro b hb
    cases b with
    | nil =>
      have hlen := congrArg List.length hb
      rw [length_bytesToBits, length_bytesToBits] at hlen
      exact absurd hlen (by simp)
    | cons byte' b =>
      -- the first eight bits are the first byte
      rw [bytesToBits_cons, bytesToBits_cons] at hb
      obtain ⟨hbyte, hrest⟩ := List.append_inj hb (by rw [length_digits, length_digits])
      rw [digits_toNat_injective hbyte, ih hrest]

/-- The bytes of a list of blocks of eight unpack to the blocks. -/
theorem bytesToBits_map_packByte {bs : List (List Bool)} (h : ∀ b ∈ bs, b.length = 8) :
    bytesToBits (bs.map packByte) = bs.flatten := by
  induction bs with
  | nil => rfl
  | cons b bs ih =>
    rw [List.map_cons, bytesToBits_cons, digits_packByte (h b List.mem_cons_self),
      ih fun b' hb' => h b' (List.mem_cons_of_mem b hb'), List.flatten_cons]

/-- Unpacking gives the bits back, padded. -/
theorem bytesToBits_bitsToBytes (bits : List Bool) :
    bytesToBits (bitsToBytes bits)
      = bits ++ List.replicate ((8 - bits.length % 8) % 8) false := by
  set padded := bits ++ List.replicate ((8 - bits.length % 8) % 8) false with hpadded
  have hlen : padded.length = bits.length + (8 - bits.length % 8) % 8 := by
    rw [hpadded, List.length_append, List.length_replicate]
  -- eight divides the padded length, so every block is full
  have hblock : ∀ b ∈ (List.range (padded.length / 8)).map (Blocks.blockAt padded 8),
      b.length = 8 := by
    intro b hb
    obtain ⟨k, hk, rfl⟩ := List.mem_map.mp hb
    rw [List.mem_range] at hk
    rw [Blocks.blockAt, List.length_take, List.length_drop]
    omega
  have hpack : bitsToBytes bits
      = ((List.range (padded.length / 8)).map (Blocks.blockAt padded 8)).map packByte := by
    rw [bitsToBytes, List.map_map]
    refine List.map_congr_left fun k _ => ?_
    rw [Function.comp_apply, Blocks.blockAt, Nat.mul_comm]
  rw [hpack, bytesToBits_map_packByte hblock, Blocks.flatten_map_blockAt _ padded (by omega)]

/-- Behind the bits come zeros. -/
theorem getD_append_replicate_false (bits : List Bool) (zeros i : ℕ) :
    (bits ++ List.replicate zeros false).getD i false = bits.getD i false := by
  rcases Nat.lt_or_ge i bits.length with hlt | hge
  · exact List.getD_append _ _ _ _ hlt
  · rw [List.getD_append_right _ _ _ _ hge, List.getD_eq_default _ _ hge,
      List.getD_eq_getElem?_getD, List.getElem?_replicate]
    split_ifs <;> rfl

/-- Byte `j` holds the bits from `8 * j` on, the first of them in its highest place. -/
theorem toNat_getElem_bitsToBytes {bits : List Bool} {j : ℕ} {byte : UInt8}
    (h : (bitsToBytes bits)[j]? = some byte) :
    byte.toNat = ∑ i ∈ Finset.range 8, (bits.getD (8 * j + i) false).toNat * 2 ^ (7 - i) := by
  have hj : j < (bits.length + 7) / 8 := by
    simpa using (List.getElem?_eq_some_iff.mp h).choose
  set padded := bits ++ List.replicate ((8 - bits.length % 8) % 8) false with hpadded
  have hlen : padded.length = bits.length + (8 - bits.length % 8) % 8 := by
    rw [hpadded, List.length_append, List.length_replicate]
  have hbyte : byte = packByte ((padded.drop (8 * j)).take 8) := by
    rw [bitsToBytes, ← hpadded, List.getElem?_map, List.getElem?_range (by omega)] at h
    exact (Option.some_inj.mp h).symm
  have hblock : ((padded.drop (8 * j)).take 8).length = 8 := by
    rw [List.length_take, List.length_drop]
    omega
  rw [hbyte, toNat_packByte hblock.le, value_eq_sum, hblock]
  refine Finset.sum_congr rfl fun i hi => ?_
  have hget : ((padded.drop (8 * j)).take 8).getD i false = bits.getD (8 * j + i) false := by
    rw [← getD_append_replicate_false bits ((8 - bits.length % 8) % 8), ← hpadded,
      List.getD_eq_getElem?_getD, List.getD_eq_getElem?_getD,
      List.getElem?_take_of_lt (Finset.mem_range.mp hi), List.getElem?_drop]
  rw [hget]

/-- Packing gives the bytes back, since both sides unpack to the same bits. -/
theorem bitsToBytes_bytesToBits (data : Bytes) : bitsToBytes (bytesToBits data) = data := by
  apply bytesToBits_injective
  rw [bytesToBits_bitsToBytes, length_bytesToBits, Nat.mul_mod_right]
  exact List.append_nil _

/-- The padding is the shortest that fills the last byte. -/
theorem isLeast_padding (n : ℕ) : IsLeast {zeros | 8 ∣ n + zeros} ((8 - n % 8) % 8) := by
  constructor
  · show 8 ∣ n + (8 - n % 8) % 8
    omega
  · rintro zeros (hzeros : 8 ∣ n + zeros)
    omega

theorem bitsToBytes_injOn (n : ℕ) : Set.InjOn bitsToBytes {bits | bits.length = n} := by
  intro x hx y hy hxy
  have hbits := congrArg bytesToBits hxy
  rw [bytesToBits_bitsToBytes, bytesToBits_bitsToBytes] at hbits
  exact (List.append_inj hbits (hx.trans hy.symm)).1

/-- **Bit packing is faithful.**  The most significant bit of a byte is the first of its eight;
the bits come back followed by the fewest zeros that fill the last byte, every byte string comes
back as it was, and lists of one length are told apart. -/
theorem bit_packing_faithful :
    (∀ (bits : List Bool) (j : ℕ) (byte : UInt8), (bitsToBytes bits)[j]? = some byte →
      byte.toNat
        = ∑ i ∈ Finset.range 8, (bits.getD (8 * j + i) false).toNat * 2 ^ (7 - i)) ∧
    (∀ bits : List Bool, ∃ zeros, IsLeast {zeros | 8 ∣ bits.length + zeros} zeros ∧
      bytesToBits (bitsToBytes bits) = bits ++ List.replicate zeros false) ∧
    (∀ data : Bytes, bitsToBytes (bytesToBits data) = data) ∧
    ∀ n, Set.InjOn bitsToBytes {bits | bits.length = n} :=
  ⟨fun _ _ _ h => toNat_getElem_bitsToBytes h,
    fun bits => ⟨_, isLeast_padding bits.length, bytesToBits_bitsToBytes bits⟩,
    bitsToBytes_bytesToBits, bitsToBytes_injOn⟩

example : bitsToBytes [true, false, true] = [160] := by decide

end BitUtils
