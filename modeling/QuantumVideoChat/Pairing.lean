/-
Pairings: symmetric partial partner maps.

`m a = some b` reads "the partner of `a` is `b`".  A map is a pairing when this relation is
symmetric and nobody is its own partner.

* `isPairing_of_rearranged` — joining two singles (`link`) and separating a pair (`unlink`)
  keep a pairing;
* `not_isPairing_update_none` — dropping one member of a pair does not;
* `existsUnique_pair`, `two_mul_card_pairs` — the partnered elements fall into disjoint
  pairs, half as many as there are elements.
-/
import Mathlib.Data.Finset.Sym
import Mathlib.Algebra.Order.BigOperators.Group.Finset

/-- Nobody is its own partner, and partners name each other. -/
structure IsPairing {α : Type*} (m : α → Option α) : Prop where
  symm : ∀ a b, m a = some b → m b = some a
  irrefl : ∀ a, m a ≠ some a

namespace Pairing

variable {α : Type*} {m : α → Option α} {a b : α} {s : Finset α}

theorem mem_of_partner (h : IsPairing m) (hs : ∀ x, x ∈ s ↔ m x ≠ none) (hab : m a = some b) :
    b ∈ s := by
  rw [hs, h.symm a b hab]
  simp

theorem pair_eq_iff (h : IsPairing m) {c : α} (hab : m a = some b) (hc : m c ≠ none) :
    s(c, (m c).getD c) = s(a, b) ↔ c = a ∨ c = b := by
  obtain ⟨d, hd⟩ := Option.ne_none_iff_exists'.mp hc
  rw [hd, Option.getD_some, Sym2.eq_iff]
  constructor
  · rintro (⟨hca, -⟩ | ⟨hcb, -⟩)
    · exact .inl hca
    · exact .inr hcb
  · rintro (rfl | rfl)
    · exact .inl ⟨rfl, Option.some_inj.mp (hd.symm.trans hab)⟩
    · exact .inr ⟨rfl, Option.some_inj.mp (hd.symm.trans (h.symm a c hab))⟩

variable [DecidableEq α]

/-- Make partners of `a` and `b`. -/
def link (m : α → Option α) (a b : α) : α → Option α :=
  Function.update (Function.update m a (some b)) b (some a)

/-- Make singles of `a` and `b`. -/
def unlink (m : α → Option α) (a b : α) : α → Option α :=
  Function.update (Function.update m a none) b none

theorem link_apply_of_ne {x : α} (ha : x ≠ a) (hb : x ≠ b) : link m a b x = m x := by
  rw [link, Function.update_of_ne hb, Function.update_of_ne ha]

theorem unlink_apply_of_ne {x : α} (ha : x ≠ a) (hb : x ≠ b) : unlink m a b x = m x := by
  rw [unlink, Function.update_of_ne hb, Function.update_of_ne ha]

theorem isPairing_link (h : IsPairing m) (hab : a ≠ b) (ha : m a = none) (hb : m b = none) :
    IsPairing (link m a b) := by
  have hleft : link m a b a = some b := by
    rw [link, Function.update_of_ne hab, Function.update_self]
  have hright : link m a b b = some a := by rw [link, Function.update_self]
  -- nobody else was paired with `a` or `b`, who were single
  have hother : ∀ x y, x ≠ a → x ≠ b → m x = some y → y ≠ a ∧ y ≠ b := by
    intro x y _ _ hxy
    have hyx := h.symm x y hxy
    refine ⟨?_, ?_⟩
    · rintro rfl
      exact absurd (ha.symm.trans hyx) (by simp)
    · rintro rfl
      exact absurd (hb.symm.trans hyx) (by simp)
  constructor
  · intro x y hxy
    by_cases hxa : x = a
    · subst hxa
      rw [hleft, Option.some_inj] at hxy
      rw [← hxy, hright]
    · by_cases hxb : x = b
      · subst hxb
        rw [hright, Option.some_inj] at hxy
        rw [← hxy, hleft]
      · rw [link_apply_of_ne hxa hxb] at hxy
        obtain ⟨hya, hyb⟩ := hother x y hxa hxb hxy
        rw [link_apply_of_ne hya hyb]
        exact h.symm x y hxy
  · intro x hx
    by_cases hxa : x = a
    · rw [hxa, hleft, Option.some_inj] at hx
      exact hab hx.symm
    · by_cases hxb : x = b
      · rw [hxb, hright, Option.some_inj] at hx
        exact hab hx
      · rw [link_apply_of_ne hxa hxb] at hx
        exact h.irrefl x hx

theorem unlink_left (m : α → Option α) (a b : α) : unlink m a b a = none := by
  rw [unlink]
  by_cases heq : a = b
  · rw [heq, Function.update_self]
  · rw [Function.update_of_ne heq, Function.update_self]

theorem isPairing_unlink (h : IsPairing m) (hab : m a = some b) : IsPairing (unlink m a b) := by
  have hba := h.symm a b hab
  have hleft := unlink_left m a b
  have hright : unlink m a b b = none := by rw [unlink, Function.update_self]
  -- whoever still has a partner is neither `a` nor `b`
  have hsome : ∀ x y, unlink m a b x = some y → x ≠ a ∧ x ≠ b ∧ m x = some y := by
    intro x y hxy
    have hxa : x ≠ a := by
      rintro rfl
      exact absurd (hleft.symm.trans hxy) (by simp)
    have hxb : x ≠ b := by
      rintro rfl
      exact absurd (hright.symm.trans hxy) (by simp)
    rw [unlink_apply_of_ne hxa hxb] at hxy
    exact ⟨hxa, hxb, hxy⟩
  constructor
  · intro x y hxy
    obtain ⟨hxa, hxb, hm⟩ := hsome x y hxy
    have hyx := h.symm x y hm
    have hya : y ≠ a := by
      rintro rfl
      exact hxb (Option.some_inj.mp (hyx.symm.trans hab))
    have hyb : y ≠ b := by
      rintro rfl
      exact hxa (Option.some_inj.mp (hyx.symm.trans hba))
    rw [unlink_apply_of_ne hya hyb]
    exact hyx
  · intro x hx
    exact h.irrefl x (hsome x x hx).2.2

/-- A change that deals with whole pairs. -/
inductive Rearranged (m : α → Option α) : (α → Option α) → Prop
  | keep : Rearranged m m
  | link (a b : α) (hab : a ≠ b) (ha : m a = none) (hb : m b = none) :
      Rearranged m (link m a b)
  | unlink (a b : α) (hab : m a = some b) : Rearranged m (unlink m a b)

theorem isPairing_of_rearranged (h : IsPairing m) {m' : α → Option α} (hm : Rearranged m m') :
    IsPairing m' := by
  cases hm with
  | keep => exact h
  | link a b hab ha hb => exact isPairing_link h hab ha hb
  | unlink a b hab => exact isPairing_unlink h hab

/-- Dropping one member of a pair leaves the other without a partner that answers. -/
theorem not_isPairing_update_none (h : IsPairing m) (hab : m a = some b) :
    ¬ IsPairing (Function.update m a none) := by
  intro hdrop
  have hne : b ≠ a := by
    rintro rfl
    exact h.irrefl b hab
  have hba : Function.update m a none b = some a := by
    rw [Function.update_of_ne hne]
    exact h.symm a b hab
  have := hdrop.symm b a hba
  rw [Function.update_self] at this
  exact absurd this (by simp)

theorem link_left (m : α → Option α) (hab : a ≠ b) : link m a b a = some b := by
  rw [link, Function.update_of_ne hab, Function.update_self]

theorem link_right (m : α → Option α) (a b : α) : link m a b b = some a := by
  rw [link, Function.update_self]

/-- Linking two elements that have other partners leaves somebody behind. -/
theorem not_isPairing_link (h : IsPairing m) (hab : a ≠ b)
    (hfree : ¬ ((m a = none ∧ m b = none) ∨ m a = some b)) : ¬ IsPairing (link m a b) := by
  intro hlink
  have hleft := link_left m hab
  have hright := link_right m a b
  -- a third one still names one of the two
  have hthird : ∀ c x, (c = a ∨ c = b) → m c = some x → x = a ∨ x = b := by
    intro c x hc hx
    by_contra hother
    obtain ⟨ha, hb⟩ := not_or.mp hother
    have hnames : link m a b x = some c := by
      rw [link_apply_of_ne ha hb]
      exact h.symm c x hx
    have hback := hlink.symm x c hnames
    rcases hc with rfl | rfl
    · exact hb (Option.some_inj.mp (hleft.symm.trans hback)).symm
    · exact ha (Option.some_inj.mp (hright.symm.trans hback)).symm
  refine hfree ?_
  cases hma : m a with
  | some x =>
    rcases hthird a x (.inl rfl) hma with rfl | rfl
    · exact absurd hma (h.irrefl x)
    · exact .inr rfl
  | none =>
    refine .inl ⟨rfl, ?_⟩
    rw [Option.eq_none_iff_forall_ne_some]
    intro x hx
    rcases hthird b x (.inr rfl) hx with rfl | rfl
    · exact absurd (hma.symm.trans (h.symm b x hx)) (by simp)
    · exact absurd hx (h.irrefl x)

/-! ### Counting pairs -/

/-- The unordered pairs of partners among `s`. -/
def pairs (m : α → Option α) (s : Finset α) : Finset (Sym2 α) :=
  s.image fun a => s(a, (m a).getD a)

/-- Every partnered element lies in exactly one pair. -/
theorem existsUnique_pair (h : IsPairing m) (hs : ∀ x, x ∈ s ↔ m x ≠ none) (ha : a ∈ s) :
    ∃! p, p ∈ pairs m s ∧ a ∈ p := by
  obtain ⟨b, hab⟩ := Option.ne_none_iff_exists'.mp ((hs a).mp ha)
  refine ⟨s(a, b), ⟨?_, Sym2.mem_mk_left a b⟩, ?_⟩
  · exact Finset.mem_image.mpr ⟨a, ha, by rw [hab, Option.getD_some]⟩
  · rintro p ⟨hp, hap⟩
    obtain ⟨c, hc, rfl⟩ := Finset.mem_image.mp hp
    have hcn := (hs c).mp hc
    obtain ⟨d, hcd⟩ := Option.ne_none_iff_exists'.mp hcn
    rw [hcd, Option.getD_some, Sym2.mem_iff] at hap
    rw [pair_eq_iff h hab hcn]
    rcases hap with rfl | rfl
    · exact .inl rfl
    · exact .inr (Option.some_inj.mp ((h.symm c a hcd).symm.trans hab))

/-- A pair consists of two partners. -/
theorem exists_of_mem_pairs (h : IsPairing m) (hs : ∀ x, x ∈ s ↔ m x ≠ none) {p : Sym2 α}
    (hp : p ∈ pairs m s) : ∃ a b, p = s(a, b) ∧ a ≠ b ∧ m a = some b ∧ m b = some a := by
  obtain ⟨a, ha, rfl⟩ := Finset.mem_image.mp hp
  obtain ⟨b, hab⟩ := Option.ne_none_iff_exists'.mp ((hs a).mp ha)
  refine ⟨a, b, by rw [hab, Option.getD_some], ?_, hab, h.symm a b hab⟩
  rintro rfl
  exact h.irrefl a hab

theorem two_mul_card_pairs (h : IsPairing m) (hs : ∀ x, x ∈ s ↔ m x ≠ none) :
    2 * (pairs m s).card = s.card := by
  -- each pair is the image of its two members and of nobody else
  have hfibre : ∀ p ∈ pairs m s,
      (s.filter fun c => s(c, (m c).getD c) = p).card = 2 := by
    intro p hp
    obtain ⟨a, ha, rfl⟩ := Finset.mem_image.mp hp
    obtain ⟨b, hab⟩ := Option.ne_none_iff_exists'.mp ((hs a).mp ha)
    have hne : a ≠ b := by
      rintro rfl
      exact h.irrefl a hab
    have hset : (s.filter fun c => s(c, (m c).getD c) = s(a, (m a).getD a)) = {a, b} := by
      ext c
      rw [Finset.mem_filter, hab, Option.getD_some, Finset.mem_insert, Finset.mem_singleton]
      constructor
      · rintro ⟨hc, heq⟩
        exact (pair_eq_iff h hab ((hs c).mp hc)).mp heq
      · intro hc
        have hcs : c ∈ s := by
          rcases hc with rfl | rfl
          · exact ha
          · exact mem_of_partner h hs hab
        exact ⟨hcs, (pair_eq_iff h hab ((hs c).mp hcs)).mpr hc⟩
    rw [hset, Finset.card_pair hne]
  have hcount : s.card = ∑ p ∈ pairs m s, (s.filter fun c => s(c, (m c).getD c) = p).card :=
    Finset.card_eq_sum_card_image _ s
  rw [hcount, Finset.sum_congr rfl hfibre, Finset.sum_const, smul_eq_mul, mul_comm]

end Pairing
