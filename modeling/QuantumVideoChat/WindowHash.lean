/-
Sliding windows of one vector over a finite field.

`windowMap d m` sends a vector `r` of length `n + m - 1` to the `m` dot products
of a fixed `d` of length `n` with the windows `r[i], …, r[i + n - 1]`.  The rows
overlap, so the outputs are not visibly independent, yet:

* `windowMap_surjective` — for `d ≠ 0` every output vector is reached, by solving
  for the entry of `r` under the last nonzero entry of `d`;
* `card_windowMap_fiber` — hence every fibre has exactly `|F| ^ (n + m - 1) / |F| ^ m`
  elements, which is the counting step behind 2-universality of such hashes.
-/
import Mathlib

namespace WindowHash

variable {F : Type*} [Field F] {n : ℕ}

/-- The dot products of `d` with the `m` windows of `r`. -/
def windowMap (d : Fin n → F) (m : ℕ) : (Fin (n + m - 1) → F) →+ (Fin m → F) where
  toFun r i := ∑ j : Fin n, d j * r ⟨i + j, by omega⟩
  map_zero' := by
    funext i
    simp
  map_add' r s := by
    funext i
    simp [mul_add, Finset.sum_add_distrib]

@[simp] theorem windowMap_apply (d : Fin n → F) (m : ℕ) (r : Fin (n + m - 1) → F)
    (i : Fin m) : windowMap d m r i = ∑ j : Fin n, d j * r ⟨i + j, by omega⟩ := rfl

/-- A nonzero vector has a last nonzero entry. -/
theorem exists_last_ne_zero {d : Fin n → F} (hd : d ≠ 0) :
    ∃ k, d k ≠ 0 ∧ ∀ j, k < j → d j = 0 := by
  classical
  obtain ⟨j₀, hj₀⟩ := Function.ne_iff.mp hd
  set s : Finset (Fin n) := Finset.univ.filter fun j => d j ≠ 0 with hs
  have hne : s.Nonempty := ⟨j₀, by simpa [hs] using hj₀⟩
  refine ⟨s.max' hne, by simpa [hs] using s.max'_mem hne, fun j hj => ?_⟩
  by_contra hjne
  have hmem : j ∈ s := by simpa [hs] using hjne
  exact absurd (s.le_max' j hmem) (not_le.mpr hj)

/-- The sequence that solves for the entry under position `k` of each window:
entries before `k` are zero, and entry `k + i` makes window `i` come out as `y i`. -/
def solveFrom (d : Fin n → F) (k : Fin n) (y : ℕ → F) (t : ℕ) : F :=
  if t < k then 0
  else (d k)⁻¹ * (y (t - k) - ∑ j : Fin k, d ⟨j, by omega⟩ * solveFrom d k y (t - k + j))
termination_by t
decreasing_by omega

theorem solveFrom_add (d : Fin n → F) (k : Fin n) (y : ℕ → F) (i : ℕ) :
    solveFrom d k y (i + k)
      = (d k)⁻¹ * (y i - ∑ j : Fin k, d ⟨j, by omega⟩ * solveFrom d k y (i + j)) := by
  rw [solveFrom, if_neg (by omega), Nat.add_sub_cancel]

/-- A sum over `Fin n` whose terms vanish after `k` splits off the term at `k`. -/
theorem sum_eq_prefix_add {f : Fin n → F} {k : Fin n} (hk : ∀ j, k < j → f j = 0) :
    ∑ j, f j = (∑ j : Fin k, f ⟨j, by omega⟩) + f k := by
  have hkn : (k : ℕ) + 1 ≤ n := k.isLt
  -- as a sum over naturals it can be cut after `k`
  set g : ℕ → F := fun j => if h : j < n then f ⟨j, h⟩ else 0 with hg
  have hall : ∑ j, f j = ∑ j ∈ Finset.range n, g j := by
    rw [← Fin.sum_univ_eq_sum_range]
    exact Finset.sum_congr rfl fun j _ => by simp [hg]
  have hcut : ∑ j ∈ Finset.range n, g j = ∑ j ∈ Finset.range (k + 1), g j := by
    refine (Finset.sum_subset (Finset.range_mono hkn) fun j hj hjk => ?_).symm
    have hjn : j < n := Finset.mem_range.mp hj
    have hkj : (k : ℕ) < j := by simpa using hjk
    simp only [hg, dif_pos hjn]
    exact hk ⟨j, hjn⟩ hkj
  rw [hall, hcut, Finset.sum_range_succ, ← Fin.sum_univ_eq_sum_range]
  congr 1
  · exact Finset.sum_congr rfl fun j _ => by simp [hg, show (j : ℕ) < n by omega]
  · simp [hg]

/-- Every output vector is reached when `d` is not zero. -/
theorem windowMap_surjective {d : Fin n → F} (hd : d ≠ 0) (m : ℕ) :
    Function.Surjective (windowMap d m) := by
  intro y
  obtain ⟨k, hk, hlast⟩ := exists_last_ne_zero hd
  set y' : ℕ → F := fun i => if h : i < m then y ⟨i, h⟩ else 0 with hy'
  refine ⟨fun t => solveFrom d k y' t, ?_⟩
  funext i
  -- window `i` ends, as far as `d` sees it, at the entry chosen to give `y i`
  rw [windowMap_apply, sum_eq_prefix_add (k := k) fun j hj => by rw [hlast j hj, zero_mul],
    solveFrom_add, mul_inv_cancel_left₀ hk, add_sub_cancel]
  simp [hy']

section Count

variable [Fintype F] [DecidableEq F]

/-- The fibres of a surjective homomorphism of finite groups all have the size
`|G| / |H|`. -/
theorem card_fiber_mul_card {G H : Type*} [AddGroup G] [AddGroup H] [Fintype G] [Fintype H]
    [DecidableEq H] {f : G →+ H} (hf : Function.Surjective f) (y : H) :
    (Finset.univ.filter fun g => f g = y).card * Fintype.card H = Fintype.card G := by
  -- any two fibres are cosets of the kernel
  have hall : ∀ z : H, (Finset.univ.filter fun g => f g = z).card
      = (Finset.univ.filter fun g => f g = y).card :=
    fun z => AddMonoidHom.card_fiber_eq_of_mem_range f (hf z) (hf y)
  have hsum : Fintype.card G = ∑ z : H, (Finset.univ.filter fun g => f g = z).card :=
    Finset.card_eq_sum_card_fiberwise fun g _ => Finset.mem_coe.mpr (Finset.mem_univ (f g))
  rw [hsum, Finset.sum_congr rfl fun z _ => hall z, Finset.sum_const, Finset.card_univ,
    smul_eq_mul, mul_comm]

/-- **Exact fibre count.**  For `d ≠ 0` each output vector has
`|F| ^ (n + m - 1) / |F| ^ m` preimages. -/
theorem card_windowMap_fiber {d : Fin n → F} (hd : d ≠ 0) (m : ℕ) (y : Fin m → F) :
    (Finset.univ.filter fun r => windowMap d m r = y).card * Fintype.card F ^ m
      = Fintype.card F ^ (n + m - 1) := by
  have h := card_fiber_mul_card (windowMap_surjective hd m) y
  simpa using h

end Count

end WindowHash
