/-
Binary numerals of a fixed width, most significant digit first.

`value` reads a list of digits as a number, doubling as it goes; `digits w n` writes the `w`
low digits of `n`.

* `digits_value` — a numeral read and written again is the same numeral;
* `value_digits` — a number below `2 ^ w` written with `w` digits and read again is the same
  number;
* `value_eq_sum` — digit `i` of `n` digits counts `2 ^ (n - 1 - i)`.
-/
import Mathlib.Algebra.BigOperators.Ring.Finset
import Mathlib.Data.List.Induction
import Mathlib.Data.Nat.Bitwise

namespace BinaryNumerals

/-- The number a list of digits stands for. -/
def value (bits : List Bool) : ℕ := bits.foldl (fun n b => Nat.bit b n) 0

/-- The `w` low digits of `n`. -/
def digits (w n : ℕ) : List Bool := (List.range w).reverse.map n.testBit

@[simp] theorem value_nil : value [] = 0 := rfl

@[simp] theorem value_concat (bits : List Bool) (b : Bool) :
    value (bits ++ [b]) = Nat.bit b (value bits) := by
  rw [value, List.foldl_append]
  rfl

@[simp] theorem length_digits (w n : ℕ) : (digits w n).length = w := by
  rw [digits, List.length_map, List.length_reverse, List.length_range]

/-- The last digit, and the digits of the half. -/
theorem digits_succ (w n : ℕ) : digits (w + 1) n = digits w (n / 2) ++ [n.testBit 0] := by
  have hhalf : n.testBit ∘ Nat.succ = (n / 2).testBit := by
    funext i
    exact Nat.testBit_succ n i
  rw [digits, List.range_succ_eq_map, List.reverse_cons, List.map_append, ← List.map_reverse,
    List.map_map, hhalf]
  rfl

theorem value_lt (bits : List Bool) : value bits < 2 ^ bits.length := by
  induction bits using List.reverseRecOn with
  | nil => exact Nat.one_pos
  | append_singleton bits b ih =>
    rw [value_concat, List.length_append, List.length_singleton, pow_succ]
    cases b <;> simp only [Nat.bit_false, Nat.bit_true] <;> omega

/-- The first digit has the largest weight. -/
theorem value_eq_sum (bits : List Bool) :
    value bits = ∑ i ∈ Finset.range bits.length,
      (bits.getD i false).toNat * 2 ^ (bits.length - 1 - i) := by
  induction bits using List.reverseRecOn with
  | nil => rfl
  | append_singleton bits b ih =>
    have hlast : (bits ++ [b]).getD bits.length false = b := by simp
    have hbefore : ∀ i ∈ Finset.range bits.length,
        ((bits ++ [b]).getD i false).toNat * 2 ^ (bits.length + 1 - 1 - i)
          = 2 * ((bits.getD i false).toNat * 2 ^ (bits.length - 1 - i)) := by
      intro i hi
      rw [Finset.mem_range] at hi
      have hexp : bits.length + 1 - 1 - i = bits.length - 1 - i + 1 := by omega
      rw [List.getD_append _ _ _ _ hi, hexp, pow_succ, ← Nat.mul_assoc, Nat.mul_comm]
    -- appending a digit doubles what the others count
    rw [value_concat, List.length_append, List.length_singleton, Finset.sum_range_succ, hlast,
      Finset.sum_congr rfl hbefore, ← Finset.mul_sum, ← ih, Nat.bit_val]
    simp

theorem digits_value (bits : List Bool) : digits bits.length (value bits) = bits := by
  induction bits using List.reverseRecOn with
  | nil => rfl
  | append_singleton bits b ih =>
    rw [value_concat, List.length_append, List.length_singleton, digits_succ, Nat.bit_div_two,
      Nat.testBit_bit_zero, ih]

theorem value_digits (w : ℕ) : ∀ {n : ℕ}, n < 2 ^ w → value (digits w n) = n := by
  induction w with
  | zero =>
    intro n hn
    rw [Nat.lt_one_iff.mp hn]
    rfl
  | succ w ih =>
    intro n hn
    rw [pow_succ] at hn
    rw [digits_succ, value_concat, ih (by omega)]
    exact Nat.bit_testBit_zero_shiftRight_one n

end BinaryNumerals
