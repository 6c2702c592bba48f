/-
Partner maps that are no pairings.

`a` is stranded when it has a partner whose own partner is somebody else or nobody.

* `card_eq` — those who have a partner are the members of the mutual pairs and the stranded;
* `card_stranded_of_rearranged` — linking two singles and unlinking two partners leaves no more
  stranded than before, whether or not the map is a pairing;
* `card_stranded_update_none` — dropping somebody leaves at most one more.
-/
import QuantumVideoChat.Pairing

namespace Pairing

variable {α : Type*} [DecidableEq α] {m m' : α → Option α} {a b : α} {s s' : Finset α}

/-- The partner, where partners name each other. -/
def mutualPartner (m : α → Option α) : α → Option α := fun a =>
  if (m a).bind m = some a then m a else none

/-- Those of `s` whose partner does not name them. -/
def stranded (m : α → Option α) (s : Finset α) : Finset α :=
  s.filter fun a => (m a).bind m ≠ some a

theorem mutualPartner_eq_some : mutualPartner m a = some b ↔ m a = some b ∧ m b = some a := by
  rw [mutualPartner]
  constructor
  · intro h
    split at h
    · rename_i hback
      rw [h, Option.bind_some] at hback
      exact ⟨h, hback⟩
    · exact absurd h (by simp)
  · rintro ⟨hab, hba⟩
    rw [if_pos (by rw [hab, Option.bind_some, hba]), hab]

theorem isPairing_mutualPartner (hirrefl : ∀ a, m a ≠ some a) : IsPairing (mutualPartner m) where
  symm _ _ h := mutualPartner_eq_some.mpr (mutualPartner_eq_some.mp h).symm
  irrefl a h := hirrefl a (mutualPartner_eq_some.mp h).1

theorem mem_stranded (hs : ∀ x, x ∈ s ↔ m x ≠ none) :
    a ∈ stranded m s ↔ ∃ b, m a = some b ∧ m b ≠ some a := by
  rw [stranded, Finset.mem_filter, hs, Option.ne_none_iff_exists']
  constructor
  · rintro ⟨⟨b, hab⟩, hback⟩
    exact ⟨b, hab, by rwa [hab, Option.bind_some] at hback⟩
  · rintro ⟨b, hab, hback⟩
    exact ⟨⟨b, hab⟩, by rwa [hab, Option.bind_some]⟩

/-- The elements that have a partner, counted by the mutual pairs. -/
theorem card_eq (hs : ∀ x, x ∈ s ↔ m x ≠ none) (hirrefl : ∀ a, m a ≠ some a) :
    ∃ calls : Finset (Sym2 α), (∀ a b, s(a, b) ∈ calls ↔ m a = some b ∧ m b = some a) ∧
      s.card = 2 * calls.card + (stranded m s).card := by
  have hpairing := isPairing_mutualPartner hirrefl
  -- the others are those with a mutual partner
  have hmem : ∀ x, x ∈ s \ stranded m s ↔ mutualPartner m x ≠ none := by
    intro x
    rw [Finset.mem_sdiff, mem_stranded hs, hs, Option.ne_none_iff_exists',
      Option.ne_none_iff_exists']
    constructor
    · rintro ⟨⟨b, hxb⟩, hnot⟩
      exact ⟨b, mutualPartner_eq_some.mpr ⟨hxb, not_not.mp fun hback => hnot ⟨b, hxb, hback⟩⟩⟩
    · rintro ⟨b, hb⟩
      obtain ⟨hxb, hbx⟩ := mutualPartner_eq_some.mp hb
      refine ⟨⟨b, hxb⟩, ?_⟩
      rintro ⟨c, hxc, hback⟩
      obtain rfl : b = c := Option.some_inj.mp (hxb.symm.trans hxc)
      exact hback hbx
  refine ⟨pairs (mutualPartner m) (s \ stranded m s), fun a b => ?_, ?_⟩
  · rw [← mutualPartner_eq_some]
    constructor
    · intro hp
      obtain ⟨c, d, hcd, -, hc, hd⟩ := exists_of_mem_pairs hpairing hmem hp
      rcases Sym2.eq_iff.mp hcd with ⟨rfl, rfl⟩ | ⟨rfl, rfl⟩
      · exact hc
      · exact hd
    · intro hab
      exact Finset.mem_image.mpr ⟨a, (hmem a).mpr (by rw [hab]; simp),
        by rw [hab, Option.getD_some]⟩
  · rw [two_mul_card_pairs hpairing hmem]
    exact (Finset.card_sdiff_add_card_eq_card (Finset.filter_subset _ s)).symm

/-! ### Changes of the map -/

/-- Dropping somebody can only leave its partner behind. -/
theorem card_stranded_update_none (hs : ∀ x, x ∈ s ↔ m x ≠ none)
    (hs' : ∀ x, x ∈ s' ↔ Function.update m a none x ≠ none) :
    (stranded (Function.update m a none) s').card
      ≤ (stranded m s).card + if m a = none then 0 else 1 := by
  have hold : ∀ x y, Function.update m a none x = some y → x ≠ a ∧ m x = some y := by
    intro x y hxy
    by_cases hxa : x = a
    · rw [hxa, Function.update_self] at hxy
      exact absurd hxy (by simp)
    · exact ⟨hxa, by rwa [Function.update_of_ne hxa] at hxy⟩
  have hsub : ∀ x ∈ stranded (Function.update m a none) s', x ∈ stranded m s ∨ m a = some x := by
    intro x hx
    obtain ⟨y, hxy, hback⟩ := (mem_stranded hs').mp hx
    obtain ⟨-, hmxy⟩ := hold x y hxy
    rw [or_iff_not_imp_left]
    intro hnot
    have hyx : m y = some x := not_not.mp fun hne => hnot ((mem_stranded hs).mpr ⟨y, hmxy, hne⟩)
    by_cases hya : y = a
    · rwa [← hya]
    · exact absurd (by rwa [Function.update_of_ne hya]) hback
  cases hma : m a with
  | none =>
    rw [if_pos rfl, Nat.add_zero]
    refine Finset.card_le_card fun x hx => (hsub x hx).resolve_right ?_
    rw [hma]
    simp
  | some b =>
    rw [if_neg (by simp)]
    refine le_trans (Finset.card_le_card fun x hx => ?_) (Finset.card_insert_le b (stranded m s))
    rw [Finset.mem_insert]
    rcases hsub x hx with hin | hax
    · exact .inr hin
    · exact .inl (Option.some_inj.mp (hax.symm.trans hma))

theorem card_stranded_link (hs : ∀ x, x ∈ s ↔ m x ≠ none)
    (hs' : ∀ x, x ∈ s' ↔ link m a b x ≠ none) (hab : a ≠ b) (ha : m a = none) (hb : m b = none) :
    (stranded (link m a b) s').card ≤ (stranded m s).card := by
  refine Finset.card_le_card fun x hx => ?_
  obtain ⟨y, hxy, hback⟩ := (mem_stranded hs').mp hx
  by_cases hxa : x = a
  · -- the two new partners name each other
    rw [hxa, link_left m hab, Option.some_inj] at hxy
    rw [← hxy, hxa, link_right] at hback
    exact absurd rfl hback
  by_cases hxb : x = b
  · rw [hxb, link_right, Option.some_inj] at hxy
    rw [← hxy, hxb, link_left m hab] at hback
    exact absurd rfl hback
  rw [link_apply_of_ne hxa hxb] at hxy
  refine (mem_stranded hs).mpr ⟨y, hxy, ?_⟩
  by_cases hya : y = a
  · rw [hya, ha]
    simp
  by_cases hyb : y = b
  · rw [hyb, hb]
    simp
  rwa [link_apply_of_ne hya hyb] at hback

/-- Whoever is left behind when two partners are unlinked was the partner of the second one, and
then the first one was stranded before. -/
theorem card_stranded_unlink (hs : ∀ x, x ∈ s ↔ m x ≠ none)
    (hs' : ∀ x, x ∈ s' ↔ unlink m a b x ≠ none) (hab : m a = some b) :
    (stranded (unlink m a b) s').card ≤ (stranded m s).card := by
  have hsub : ∀ x ∈ stranded (unlink m a b) s',
      (x ≠ a ∧ x ≠ b) ∧ (x ∈ stranded m s ∨ m b = some x) := by
    intro x hx
    obtain ⟨y, hxy, hback⟩ := (mem_stranded hs').mp hx
    have hxb : x ≠ b := by
      rintro rfl
      rw [unlink, Function.update_self] at hxy
      exact absurd hxy (by simp)
    have hxa : x ≠ a := by
      rintro rfl
      rw [unlink_left] at hxy
      exact absurd hxy (by simp)
    rw [unlink_apply_of_ne hxa hxb] at hxy
    refine ⟨⟨hxa, hxb⟩, or_iff_not_imp_left.mpr fun hnot => ?_⟩
    have hyx : m y = some x := not_not.mp fun hne => hnot ((mem_stranded hs).mpr ⟨y, hxy, hne⟩)
    have hya : y ≠ a := by
      rintro rfl
      exact hxb (Option.some_inj.mp (hab.symm.trans hyx)).symm
    by_cases hyb : y = b
    · rwa [← hyb]
    · exact absurd (by rwa [unlink_apply_of_ne hya hyb]) hback
  by_cases hback : m b = some a
  · -- the two named each other, and nobody else is left behind
    refine Finset.card_le_card fun x hx => ?_
    obtain ⟨⟨hxa, -⟩, hin | hbx⟩ := hsub x hx
    · exact hin
    · exact absurd (Option.some_inj.mp (hbx.symm.trans hback)) hxa
  · have ha : a ∈ stranded m s := (mem_stranded hs).mpr ⟨b, hab, hback⟩
    cases hmb : m b with
    | none =>
      refine Finset.card_le_card fun x hx => (hsub x hx).2.resolve_right ?_
      rw [hmb]
      simp
    | some c =>
      -- `c` takes the place of `a`
      have hinto : stranded (unlink m a b) s' ⊆ insert c ((stranded m s).erase a) := by
        intro x hx
        rw [Finset.mem_insert, Finset.mem_erase]
        rcases (hsub x hx).2 with hin | hbx
        · exact .inr ⟨(hsub x hx).1.1, hin⟩
        · exact .inl (Option.some_inj.mp (hbx.symm.trans hmb))
      calc (stranded (unlink m a b) s').card
          ≤ (insert c ((stranded m s).erase a)).card := Finset.card_le_card hinto
        _ ≤ ((stranded m s).erase a).card + 1 := Finset.card_insert_le _ _
        _ = (stranded m s).card := Finset.card_erase_add_one ha

theorem card_stranded_of_rearranged (hs : ∀ x, x ∈ s ↔ m x ≠ none)
    (hs' : ∀ x, x ∈ s' ↔ m' x ≠ none) (h : Rearranged m m') :
    (stranded m' s').card ≤ (stranded m s).card := by
  cases h with
  | keep =>
    obtain rfl : s = s' := Finset.ext fun x => (hs x).trans (hs' x).symm
    exact le_rfl
  | link a b hab ha hb => exact card_stranded_link hs hs' hab ha hb
  | unlink a b hab => exact card_stranded_unlink hs hs' hab

end Pairing
