/-
Numbers as the program uses them.

Floats are read as exact rationals, `int(x)` truncates towards zero, and the functions
of Python's `math` that leave the rationals are a parameter (`MathFns`) of which only
documented values are assumed.  Where the rounding of a float operation decides an integer
the program goes on with, the operation is followed by `roundDouble`.  A call of
`Generator.random()` is a `UnitDraw`.
-/
import Mathlib

/-- `int(x)`. -/
def pyInt (x : ℚ) : ℤ := x.num.tdiv x.den

/-- `round(x, digits)`: a tie goes to the even last digit. -/
def pyRound (x : ℚ) (digits : ℕ) : ℚ :=
  let scaled := x * 10 ^ digits
  let below := ⌊scaled⌋
  let up := 1 / 2 < scaled - below ∨ scaled - below = 1 / 2 ∧ below % 2 = 1
  (if up then below + 1 else below) / 10 ^ digits

/-- The distance between two floats at `x`. -/
def doubleUnit (x : ℚ) : ℚ := 2 ^ (Int.log 2 |x| - 52)

/-- The float nearest to `x`, a tie going to the even one; the bounds on the exponent are
left out. -/
def roundDouble (x : ℚ) : ℚ := pyRound (x / doubleUnit x) 0 * doubleUnit x

theorem doubleUnit_pos (x : ℚ) : 0 < doubleUnit x := zpow_pos two_pos _

theorem floor_le_pyRound (x : ℚ) : ⌊x⌋ ≤ pyRound x 0 := by
  simp only [pyRound, pow_zero, mul_one, div_one]
  split_ifs
  · push_cast
    linarith
  · exact le_refl _

/-- A positive number is not rounded to 0: it has 53 significant digits. -/
theorem roundDouble_pos {x : ℚ} (hx : 0 < x) : 0 < roundDouble x := by
  have hu := doubleUnit_pos x
  have hlog : (2 : ℚ) ^ Int.log 2 |x| ≤ x := by
    rw [abs_of_pos hx]
    exact_mod_cast Int.zpow_log_le_self (by norm_num) hx
  have hscale : (2 : ℚ) ^ (52 : ℕ) * doubleUnit x = 2 ^ Int.log 2 |x| := by
    rw [doubleUnit, ← zpow_natCast, ← zpow_add₀ two_ne_zero]
    congr 1
    omega
  have hquot : (2 : ℚ) ^ (52 : ℕ) ≤ x / doubleUnit x := by
    rwa [le_div_iff₀ hu, hscale]
  have hfloor : 1 ≤ ⌊x / doubleUnit x⌋ := Int.le_floor.mpr (by push_cast; linarith)
  have hround : (1 : ℚ) ≤ pyRound (x / doubleUnit x) 0 :=
    le_trans (by exact_mod_cast hfloor) (floor_le_pyRound _)
  exact mul_pos (by linarith) hu

/-- The functions of `math` and the power operator that the simulation calls. -/
structure MathFns where
  /-- `math.sin(math.radians(x))` -/
  sinDeg : ℚ → ℚ
  /-- `math.log2(x)` -/
  log2 : ℚ → ℚ
  /-- `10 ** x` -/
  exp10 : ℚ → ℚ
  sinDeg_zero : sinDeg 0 = 0

/-- One answer of `Generator.random()`: a number in `[0, 1)`. -/
structure UnitDraw where
  val : ℚ
  nonneg : 0 ≤ val
  lt_one : val < 1

namespace UnitDraw

/-- `rng.random() < p`. -/
def below (u : UnitDraw) (p : ℚ) : Bool := decide (u.val < p)

@[simp] theorem below_zero (u : UnitDraw) : u.below 0 = false := by
  simpa [below] using u.nonneg

/-- The draw `0.0`. -/
def zero : UnitDraw := ⟨0, le_refl 0, zero_lt_one⟩

/-- The draw `0.5`. -/
def half : UnitDraw := ⟨1 / 2, by norm_num, by norm_num⟩

end UnitDraw
