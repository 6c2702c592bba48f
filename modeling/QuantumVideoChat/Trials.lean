/-
Independent trials, by counting.

An assignment `draws : ι → α` gives each index an outcome, and all assignments are equally
likely.  `hits p S draws` are the indices of `S` whose outcome satisfies `p`, which may read
the outcome differently at each index but accepts equally many everywhere.

* `card_hits_eq` — how many assignments hit exactly the indices of `J`;
* `frequency_card_hits` — the number of hits is binomially distributed;
* `frequency_of_card_hits` — a property of that number, summed over the numbers that have it;
* `mean_card_hits` — its mean.
-/
import Mathlib

namespace Trials

open Finset

variable {ι α : Type*} (p : ι → α → Prop) [∀ i, DecidablePred (p i)]

/-- The indices of `S` whose outcome is accepted. -/
def hits (S : Finset ι) (draws : ι → α) : Finset ι := {i ∈ S | p i (draws i)}

/-- Outcome `i` is accepted, refused, or free. -/
def outcomesFor [Fintype α] [DecidableEq ι] (S J : Finset ι) (i : ι) : Finset α :=
  if i ∈ J then univ.filter (p i) else if i ∈ S then univ.filter (¬ p i ·) else univ

/-- The share of the assignments with the property. -/
def frequency [Fintype ι] [DecidableEq ι] [Fintype α] (P : (ι → α) → Prop) [DecidablePred P] :
    ℚ :=
  #{draws | P draws} / Fintype.card (ι → α)

variable {p} {S J : Finset ι}

theorem mem_hits {draws : ι → α} {i : ι} : i ∈ hits p S draws ↔ i ∈ S ∧ p i (draws i) :=
  mem_filter

/-- Equally many outcomes are refused everywhere, too. -/
theorem card_refused [Fintype α] {h : ℕ} (hp : ∀ i, #{x | p i x} = h) (i : ι) :
    #{x | ¬ p i x} = Fintype.card α - h := by
  have hsplit := card_filter_add_card_filter_not (s := univ) (p i)
  rw [hp i, card_univ] at hsplit
  omega

theorem hits_eq_iff [Fintype α] [DecidableEq ι] (hJ : J ⊆ S) {draws : ι → α} :
    hits p S draws = J ↔ ∀ i, draws i ∈ outcomesFor p S J i := by
  constructor
  · rintro rfl i
    rw [outcomesFor]
    split_ifs with hhit hS
    · exact (mem_filter_univ _).mpr (mem_hits.mp hhit).2
    · exact (mem_filter_univ _).mpr fun hp => hhit (mem_hits.mpr ⟨hS, hp⟩)
    · exact mem_univ _
  · intro h
    ext i
    have hi := h i
    rw [outcomesFor] at hi
    rw [mem_hits]
    split_ifs at hi with hiJ hiS
    · exact iff_of_true ⟨hJ hiJ, (mem_filter_univ _).mp hi⟩ hiJ
    · exact iff_of_false (fun hp => (mem_filter_univ _).mp hi hp.2) hiJ
    · exact iff_of_false (fun hp => hiS hp.1) hiJ

variable [Fintype ι] [DecidableEq ι] [Fintype α] {h : ℕ}

/-- The indices of `J` hit, the other indices of `S` missed, the rest free. -/
theorem card_hits_eq (hp : ∀ i, #{x | p i x} = h) (hJ : J ⊆ S) :
    #{draws | hits p S draws = J}
      = h ^ #J * (Fintype.card α - h) ^ (#S - #J)
        * Fintype.card α ^ (Fintype.card ι - #S) := by
  have hset : ({draws | hits p S draws = J} : Finset (ι → α))
      = Fintype.piFinset (outcomesFor p S J) := by
    ext draws
    rw [mem_filter_univ, Fintype.mem_piFinset]
    exact hits_eq_iff hJ
  have hcard : ∀ i, #(outcomesFor p S J i)
      = if i ∈ J then h else if i ∈ S then Fintype.card α - h else Fintype.card α := by
    intro i
    rw [outcomesFor]
    split_ifs
    · exact hp i
    · exact card_refused hp i
    · exact card_univ
  have hmissed : ({i ∈ univ.filter (· ∉ J) | i ∈ S} : Finset ι) = S \ J := by
    ext i
    simp [and_comm]
  have hfree : ({i ∈ univ.filter (· ∉ J) | i ∉ S} : Finset ι) = univ \ S := by
    ext i
    simp only [mem_filter, mem_univ, true_and, mem_sdiff]
    exact ⟨fun hi => hi.2, fun hi => ⟨fun hiJ => hi (hJ hiJ), hi⟩⟩
  rw [hset, Fintype.card_piFinset, prod_congr rfl fun i _ => hcard i, prod_ite, prod_ite,
    prod_const, prod_const, prod_const, filter_mem_eq_inter, univ_inter, hmissed, hfree,
    card_sdiff_of_subset hJ, card_sdiff_of_subset (subset_univ S), card_univ, mul_assoc]

/-- Exactly `j` hits among the indices of `S`. -/
theorem card_card_hits_eq (hp : ∀ i, #{x | p i x} = h) (S : Finset ι) (j : ℕ) :
    #{draws | #(hits p S draws) = j}
      = (#S).choose j * (h ^ j * (Fintype.card α - h) ^ (#S - j)
        * Fintype.card α ^ (Fintype.card ι - #S)) := by
  let hitting : Finset (ι → α) := {draws | #(hits p S draws) = j}
  have hmaps : (hitting : Set (ι → α)).MapsTo (hits p S) (powersetCard j S) := by
    intro draws hdraws
    have hcard : #(hits p S draws) = j := (mem_filter_univ draws).mp hdraws
    exact mem_coe.mpr (mem_powersetCard.mpr ⟨filter_subset _ _, hcard⟩)
  -- each choice of the `j` indices is hit equally often
  have hfiber : ∀ J ∈ powersetCard j S, #{draws ∈ hitting | hits p S draws = J}
      = h ^ j * (Fintype.card α - h) ^ (#S - j)
        * Fintype.card α ^ (Fintype.card ι - #S) := by
    intro J hJ
    obtain ⟨hsub, rfl⟩ := mem_powersetCard.mp hJ
    rw [← card_hits_eq hp hsub, filter_filter]
    congr 1
    ext draws
    simp only [mem_filter_univ]
    exact ⟨fun hd => hd.2, fun hd => ⟨by rw [hd], hd⟩⟩
  rw [card_eq_sum_card_fiberwise hmaps, sum_congr rfl hfiber, sum_const, card_powersetCard,
    smul_eq_mul]

/-- **The number of hits is binomially distributed.** -/
theorem frequency_card_hits (hα : 0 < Fintype.card α) (hp : ∀ i, #{x | p i x} = h)
    (S : Finset ι) (j : ℕ) :
    frequency (fun draws : ι → α => #(hits p S draws) = j)
      = (#S).choose j * (h / Fintype.card α : ℚ) ^ j * (1 - h / Fintype.card α) ^ (#S - j) := by
  rcases Nat.lt_or_ge (#S) j with hlt | hle
  · rw [frequency, card_card_hits_eq hp, Nat.choose_eq_zero_of_lt hlt]
    simp
  · have hS : #S ≤ Fintype.card ι := card_le_univ S
    have hc : (Fintype.card α : ℚ) ≠ 0 := by exact_mod_cast hα.ne'
    have hpow : (Fintype.card α : ℚ) ^ Fintype.card ι
        = (Fintype.card α : ℚ) ^ j * (Fintype.card α : ℚ) ^ (#S - j)
          * (Fintype.card α : ℚ) ^ (Fintype.card ι - #S) := by
      rw [← pow_add, ← pow_add]
      congr 1
      omega
    rw [frequency, card_card_hits_eq hp, Fintype.card_fun]
    push_cast
    rw [hpow]
    rcases S.eq_empty_or_nonempty with rfl | ⟨i, -⟩
    · obtain rfl : j = 0 := by simpa using hle
      simp [hc]
    · have hmissed : ((Fintype.card α - h : ℕ) : ℚ) = Fintype.card α - h :=
        Nat.cast_sub ((hp i).symm.trans_le (card_le_univ _))
      rw [hmissed, one_sub_div hc, div_pow, div_pow]
      field_simp

/-- A property of the number of hits, by the number. -/
theorem frequency_of_card_hits (P : ℕ → Prop) [DecidablePred P] (S : Finset ι) :
    frequency (fun draws : ι → α => P #(hits p S draws))
      = ∑ j ∈ range (#S + 1) with P j, frequency fun draws : ι → α => #(hits p S draws) = j := by
  let good : Finset (ι → α) := {draws | P #(hits p S draws)}
  have hmaps : (good : Set (ι → α)).MapsTo (fun draws => #(hits p S draws))
      ({j ∈ range (#S + 1) | P j} : Finset ℕ) := by
    intro draws hdraws
    have hgood : P #(hits p S draws) := (mem_filter_univ draws).mp hdraws
    have hle : #(hits p S draws) < #S + 1 := Nat.lt_succ_of_le (card_filter_le _ _)
    exact mem_coe.mpr (mem_filter.mpr ⟨mem_range.mpr hle, hgood⟩)
  have hfiber : ∀ j ∈ ({j ∈ range (#S + 1) | P j} : Finset ℕ),
      #{draws ∈ good | #(hits p S draws) = j} = #{draws | #(hits p S draws) = j} := by
    intro j hj
    refine congrArg card (Finset.ext fun draws => ?_)
    simp only [good, mem_filter, mem_univ, true_and]
    exact and_iff_right_of_imp fun hd => hd ▸ (mem_filter.mp hj).2
  simp only [frequency]
  rw [← sum_div, card_eq_sum_card_fiberwise hmaps, sum_congr rfl hfiber, Nat.cast_sum]

/-- One index is hit by a share `h / card α` of the assignments. -/
theorem card_hit (hα : 0 < Fintype.card α) (hp : ∀ i, #{x | p i x} = h) (i : ι) :
    (#{draws : ι → α | p i (draws i)} : ℚ)
      = Fintype.card (ι → α) * (h / Fintype.card α) := by
  have hone : ∀ draws : ι → α, #(hits p {i} draws) = 1 ↔ p i (draws i) := by
    intro draws
    rw [hits, filter_singleton]
    split_ifs with hi <;> simp [hi]
  have hfreq := frequency_card_hits hα hp {i} 1
  simp only [frequency, hone, card_singleton, Nat.choose_self, Nat.sub_self, pow_one, pow_zero,
    Nat.cast_one, one_mul, mul_one] at hfreq
  have hpos : (Fintype.card (ι → α) : ℚ) ≠ 0 := by
    rw [Fintype.card_fun]
    exact_mod_cast (pow_pos hα _).ne'
  rw [← hfreq, mul_div_cancel₀ _ hpos]

/-- On average a share `h / card α` of the indices is hit. -/
theorem mean_card_hits (hα : 0 < Fintype.card α) (hp : ∀ i, #{x | p i x} = h) (S : Finset ι) :
    ((∑ draws : ι → α, #(hits p S draws) : ℕ) : ℚ) / Fintype.card (ι → α)
      = #S * (h / Fintype.card α) := by
  have hswap : ∑ draws : ι → α, #(hits p S draws)
      = ∑ i ∈ S, #{draws : ι → α | p i (draws i)} := by
    simp only [hits, card_filter]
    exact sum_comm
  have hpos : (Fintype.card (ι → α) : ℚ) ≠ 0 := by
    rw [Fintype.card_fun]
    exact_mod_cast (pow_pos hα _).ne'
  rw [hswap, Nat.cast_sum, sum_congr rfl fun i _ => card_hit hα hp i, sum_const, nsmul_eq_mul]
  field_simp

end Trials
