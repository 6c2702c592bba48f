/-
Hashing with a random function (the leftover hash lemma, over finite types).

`f r : X → K` is the hash function with seed `r`.  For every seed the values of `f r` on a finite
set of inputs, each as likely as the others, have a distribution on `K`.

* `sum_sq_likelihood` — how concentrated it is is a matter of collisions;
* `sq_sum_deviation_le` — for a 2-universal family it is uniform on average over the seeds, up to
  the square root of the ratio of the number of values to the number of inputs;
* `sq_sum_jointDeviation_le` — also for somebody who has been told something about the input; what
  counts is the number of things he can be told.
-/
import Mathlib

namespace UniversalHash

open Finset

variable {R X K : Type*} [Fintype K] [DecidableEq K] (f : R → X → K) (S : Finset X)

/-- Two inputs have the same value under at most one in `|K|` seeds. -/
def IsTwoUniversal [Fintype R] : Prop :=
  ∀ x y, x ≠ y → #{r | f r x = f r y} * Fintype.card K ≤ Fintype.card R

/-- The likelihood of the value `k` under the seed `r`. -/
def likelihood (r : R) (k : K) : ℚ := #{x ∈ S | f r x = k} / #S

/-- How far the values under the seed `r` are from being all as likely. -/
def deviation (r : R) : ℚ := ∑ k, |likelihood f S r k - 1 / Fintype.card K|

/-- The pairs of inputs with the same value. -/
def collisions (r : R) : Finset (X × X) := {p ∈ S ×ˢ S | f r p.1 = f r p.2}

variable {f S}

theorem sum_likelihood (hS : S.Nonempty) (r : R) : ∑ k, likelihood f S r k = 1 := by
  have hcard : ∑ k, #{x ∈ S | f r x = k} = #S :=
    (card_eq_sum_card_fiberwise fun x _ => mem_univ (f r x)).symm
  have hpos : (#S : ℚ) ≠ 0 := by exact_mod_cast hS.card_pos.ne'
  simp only [likelihood]
  rw [← sum_div, ← Nat.cast_sum, hcard, div_self hpos]

theorem sum_sq_likelihood (r : R) :
    ∑ k, likelihood f S r k ^ 2 = #(collisions f S r) / (#S : ℚ) ^ 2 := by
  have hcard : ∑ k, #{x ∈ S | f r x = k} ^ 2 = #(collisions f S r) := by
    rw [card_eq_sum_card_fiberwise (f := fun p : X × X => f r p.1) (t := univ)
      fun p _ => mem_univ _]
    refine sum_congr rfl fun k _ => ?_
    rw [sq, ← card_product]
    congr 1
    ext ⟨x, y⟩
    simp only [collisions, mem_product, mem_filter]
    constructor
    · rintro ⟨⟨hx, hxk⟩, hy, hyk⟩
      exact ⟨⟨⟨hx, hy⟩, hxk.trans hyk.symm⟩, hxk⟩
    · rintro ⟨⟨⟨hx, hy⟩, hxy⟩, hxk⟩
      exact ⟨⟨hx, hxk⟩, hy, hxy.symm.trans hxk⟩
  simp only [likelihood, div_pow]
  rw [← sum_div]
  congr 1
  exact_mod_cast hcard

/-- Every input collides with itself, and with any other under few seeds. -/
theorem sum_card_collisions [Fintype R] [DecidableEq X] (h : IsTwoUniversal f) :
    (∑ r, #(collisions f S r)) * Fintype.card K
      ≤ Fintype.card R * (#S * Fintype.card K + #S * #S) := by
  have hswap : ∑ r, #(collisions f S r)
      = ∑ p ∈ S ×ˢ S, #{r | f r p.1 = f r p.2} := by
    simp only [collisions, card_filter]
    exact sum_comm
  rw [hswap, sum_mul]
  have hpair : ∀ p ∈ S ×ˢ S, #{r | f r p.1 = f r p.2} * Fintype.card K
      ≤ Fintype.card R * (if p.1 = p.2 then Fintype.card K else 0) + Fintype.card R := by
    rintro ⟨x, y⟩ -
    by_cases hxy : x = y
    · subst hxy
      simp [card_univ]
    · rw [if_neg hxy, mul_zero, zero_add]
      exact h x y hxy
  refine (sum_le_sum hpair).trans ?_
  rw [sum_add_distrib, ← mul_sum, sum_const, card_product, smul_eq_mul, sum_product]
  have hdiagonal : ∀ x ∈ S, ∑ y ∈ S, (if x = y then Fintype.card K else 0) = Fintype.card K :=
    fun x hx => by rw [sum_ite_eq, if_pos hx]
  rw [sum_congr rfl hdiagonal, sum_const, smul_eq_mul]
  exact le_of_eq (by ring)

theorem sum_sq_sub (hS : S.Nonempty) (r : R) :
    ∑ k, (likelihood f S r k - 1 / Fintype.card K) ^ 2
      = #(collisions f S r) / (#S : ℚ) ^ 2 - 1 / Fintype.card K := by
  have hK : (Fintype.card K : ℚ) ≠ 0 := by
    have : Nonempty K := ⟨f r hS.choose⟩
    exact_mod_cast Fintype.card_ne_zero
  have hsplit : ∀ k, (likelihood f S r k - 1 / Fintype.card K) ^ 2
      = likelihood f S r k ^ 2 - 2 / Fintype.card K * likelihood f S r k
        + (1 / Fintype.card K) ^ 2 := fun k => by ring
  simp only [hsplit]
  rw [sum_add_distrib, sum_sub_distrib, ← mul_sum, sum_likelihood hS, sum_sq_likelihood, sum_const,
    card_univ, nsmul_eq_mul]
  field_simp
  ring

/-- **The leftover hash lemma.**  The sum over all seeds is `|R|` times the average. -/
theorem sq_sum_deviation_le [Fintype R] [DecidableEq X] (h : IsTwoUniversal f) (hS : S.Nonempty) :
    (∑ r, deviation f S r) ^ 2 * #S ≤ (Fintype.card R : ℚ) ^ 2 * Fintype.card K := by
  rcases isEmpty_or_nonempty R with hR | ⟨⟨r₀⟩⟩
  · simp
  have hKpos : (0 : ℚ) < Fintype.card K := by
    have : Nonempty K := ⟨f r₀ hS.choose⟩
    exact_mod_cast Fintype.card_pos
  have hSpos : (0 : ℚ) < #S := by exact_mod_cast hS.card_pos
  -- all deviations at once, by Cauchy-Schwarz
  have hcauchy : (∑ r, deviation f S r) ^ 2
      ≤ (Fintype.card R * Fintype.card K : ℚ)
        * ∑ r, ∑ k, (likelihood f S r k - 1 / Fintype.card K) ^ 2 := by
    have hsq := sq_sum_le_card_mul_sum_sq (s := (univ : Finset (R × K)))
      (f := fun p => |likelihood f S p.1 p.2 - 1 / Fintype.card K|)
    simp only [sq_abs] at hsq
    rw [Fintype.sum_prod_type, Fintype.sum_prod_type, card_univ, Fintype.card_prod] at hsq
    exact_mod_cast hsq
  have hsum : ∑ r, ∑ k, (likelihood f S r k - 1 / Fintype.card K) ^ 2
      = (∑ r, #(collisions f S r) : ℕ) / (#S : ℚ) ^ 2 - Fintype.card R / Fintype.card K := by
    simp only [sum_sq_sub hS]
    rw [sum_sub_distrib, ← sum_div, sum_const, card_univ, nsmul_eq_mul, Nat.cast_sum]
    ring
  have hcollisions : ((∑ r, #(collisions f S r) : ℕ) : ℚ)
      ≤ Fintype.card R * #S + Fintype.card R * #S ^ 2 / Fintype.card K := by
    have hcount : ((∑ r, #(collisions f S r) : ℕ) : ℚ) * Fintype.card K
        ≤ Fintype.card R * (#S * Fintype.card K + #S * #S) := by
      exact_mod_cast sum_card_collisions (S := S) h
    rw [← le_div_iff₀ hKpos] at hcount
    refine hcount.trans (le_of_eq ?_)
    field_simp
  calc (∑ r, deviation f S r) ^ 2 * #S
      ≤ (Fintype.card R * Fintype.card K : ℚ)
          * ((Fintype.card R * #S + Fintype.card R * #S ^ 2 / Fintype.card K) / (#S : ℚ) ^ 2
            - Fintype.card R / Fintype.card K) * #S := by
        rw [hsum] at hcauchy
        gcongr
        refine hcauchy.trans ?_
        gcongr
    _ = (Fintype.card R : ℚ) ^ 2 * Fintype.card K := by
        field_simp
        ring

theorem IsTwoUniversal.comp_injective [Fintype R] {X' : Type*} (h : IsTwoUniversal f) {e : X' → X}
    (he : Function.Injective e) : IsTwoUniversal fun r x => f r (e x) :=
  fun _ _ hxy => h _ _ (he.ne hxy)

/-! ### With something known about the input -/

section

variable {T : Type*} [DecidableEq T] (f S) (g : X → T)

/-- How far the values under the seed `r` are from being all as likely and independent of `g`. -/
def jointDeviation (r : R) : ℚ :=
  ∑ t ∈ S.image g, ∑ k,
    |(#{x ∈ S | g x = t ∧ f r x = k} : ℚ) / #S - #{x ∈ S | g x = t} / #S / Fintype.card K|

variable {f S g}

/-- Whoever is told `t` is left with the inputs for it. -/
theorem jointDeviation_eq (r : R) :
    jointDeviation f S g r
      = ∑ t ∈ S.image g, (#{x ∈ S | g x = t} : ℚ) / #S * deviation f {x ∈ S | g x = t} r := by
  refine sum_congr rfl fun t ht => ?_
  have hfiber : (0 : ℚ) < #{x ∈ S | g x = t} := by
    obtain ⟨x, hx, hxt⟩ := mem_image.mp ht
    exact_mod_cast card_pos.mpr ⟨x, mem_filter.mpr ⟨hx, hxt⟩⟩
  rw [deviation, mul_sum]
  refine sum_congr rfl fun k _ => ?_
  rw [likelihood, filter_filter, ← abs_of_nonneg (show (0 : ℚ) ≤ #{x ∈ S | g x = t} / #S by
    positivity), ← abs_mul, abs_of_nonneg (show (0 : ℚ) ≤ #{x ∈ S | g x = t} / #S by positivity)]
  congr 1
  field_simp

theorem sum_card_fiber_div (hS : S.Nonempty) :
    ∑ t ∈ S.image g, (#{x ∈ S | g x = t} : ℚ) / #S = 1 := by
  have hpos : (#S : ℚ) ≠ 0 := by exact_mod_cast hS.card_pos.ne'
  have hcard : ∑ t ∈ S.image g, #{x ∈ S | g x = t} = #S :=
    (card_eq_sum_card_image g S).symm
  rw [← sum_div, ← Nat.cast_sum, hcard, div_self hpos]

theorem sq_sum_jointDeviation_le [Fintype R] [DecidableEq X] (h : IsTwoUniversal f)
    (hS : S.Nonempty) :
    (∑ r, jointDeviation f S g r) ^ 2 * #S
      ≤ (Fintype.card R : ℚ) ^ 2 * Fintype.card K * #(S.image g) := by
  have hSpos : (0 : ℚ) < #S := by exact_mod_cast hS.card_pos
  set bound : ℚ := (Fintype.card R : ℚ) ^ 2 * Fintype.card K with hbound
  set weight : T → ℚ := fun t => #{x ∈ S | g x = t} / #S with hweight
  set total : T → ℚ := fun t => ∑ r, deviation f {x ∈ S | g x = t} r with htotal
  have hsplit : ∑ r, jointDeviation f S g r = ∑ t ∈ S.image g, weight t * total t := by
    simp only [jointDeviation_eq]
    rw [sum_comm]
    simp only [hweight, htotal, mul_sum]
  -- for every thing told the inputs that are left are hashed on their own
  have hterm : ∀ t ∈ S.image g, weight t * total t ^ 2 ≤ bound / #S := by
    intro t ht
    obtain ⟨x, hx, hxt⟩ := mem_image.mp ht
    have hfiber : ({x ∈ S | g x = t} : Finset X).Nonempty := ⟨x, mem_filter.mpr ⟨hx, hxt⟩⟩
    have hleftover := sq_sum_deviation_le h hfiber
    rw [hweight, div_mul_eq_mul_div, mul_comm]
    gcongr
  have hnonneg : ∀ t ∈ S.image g, 0 ≤ weight t := fun t _ => by positivity
  calc (∑ r, jointDeviation f S g r) ^ 2 * #S
      ≤ ((∑ t ∈ S.image g, weight t) * ∑ t ∈ S.image g, weight t * total t ^ 2) * #S := by
        rw [hsplit]
        gcongr
        exact sum_sq_le_sum_mul_sum_of_sq_le_mul _ hnonneg
          (fun t ht => mul_nonneg (hnonneg t ht) (sq_nonneg _)) fun t _ => le_of_eq (by ring)
    _ ≤ (#(S.image g) * (bound / #S)) * #S := by
        rw [sum_card_fiber_div hS, one_mul]
        gcongr
        exact (sum_le_sum hterm).trans_eq (by rw [sum_const, nsmul_eq_mul])
    _ = bound * #(S.image g) := by
        field_simp

end

end UniversalHash
