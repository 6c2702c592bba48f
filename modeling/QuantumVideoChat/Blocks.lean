/-
Cutting a list into consecutive blocks, and counting through the cut.

`blocks l k` is what `for start in range(0, len(l), k): l[start:start+k]` visits.

* `blocks_flatten` — the blocks are the list, in order, so they partition it;
* `countP_blockAt_append` — when a predicate holds on a prefix and nowhere after it,
  block `i` holds as many hits as the prefix still has after `i * k` entries.
-/
import Mathlib

namespace Blocks

variable {α : Type*}

/-- The `i`-th block of `k` entries; the last one may be shorter. -/
def blockAt (l : List α) (k i : ℕ) : List α := (l.drop (i * k)).take k

/-- All blocks, in order. -/
def blocks (l : List α) (k : ℕ) : List (List α) :=
  (List.range ((l.length + k - 1) / k)).map (blockAt l k)

theorem blockAt_succ (l : List α) (k i : ℕ) :
    blockAt l k (i + 1) = blockAt (l.drop k) k i := by
  rw [blockAt, blockAt, List.drop_drop, Nat.succ_mul, Nat.add_comm]

theorem mem_blocks {l : List α} {k : ℕ} {b : List α} :
    b ∈ blocks l k ↔ ∃ i < (l.length + k - 1) / k, blockAt l k i = b := by
  simp [blocks]

/-- Enough blocks, taken in order, give the list back. -/
theorem flatten_map_blockAt {k : ℕ} : ∀ (count : ℕ) (l : List α), l.length ≤ count * k →
    ((List.range count).map (blockAt l k)).flatten = l := by
  intro count
  induction count with
  | zero =>
    intro l h
    have hnil : l = [] := List.length_eq_zero_iff.mp (by omega)
    rw [hnil]
    rfl
  | succ count ih =>
    intro l h
    have hdrop : (l.drop k).length ≤ count * k := by
      rw [Nat.succ_mul] at h
      rw [List.length_drop]
      omega
    -- without the first block the others move up by one
    have hshift : (List.range count).map (blockAt l k ∘ Nat.succ)
        = (List.range count).map (blockAt (l.drop k) k) :=
      List.map_congr_left fun i _ => blockAt_succ l k i
    rw [List.range_succ_eq_map, List.map_cons, List.map_map, List.flatten_cons, hshift,
      ih _ hdrop]
    simp [blockAt]

/-- The blocks partition the list. -/
theorem blocks_flatten (l : List α) {k : ℕ} (hk : 0 < k) : (blocks l k).flatten = l := by
  refine flatten_map_blockAt _ l ?_
  have h1 := Nat.div_add_mod (l.length + k - 1) k
  have h2 := Nat.mod_lt (l.length + k - 1) hk
  rw [Nat.mul_comm] at h1
  omega

/-- Even counts in all blocks make the count over the list even. -/
theorem countP_flatten_even {p : α → Bool} : ∀ {bs : List (List α)},
    (∀ b ∈ bs, b.countP p % 2 = 0) → bs.flatten.countP p % 2 = 0 := by
  intro bs
  induction bs with
  | nil =>
    intro _
    rfl
  | cons b bs ih =>
    intro h
    have hb := h b (by simp)
    have hbs := ih fun b' hb' => h b' (by simp [hb'])
    rw [List.flatten_cons, List.countP_append]
    omega

/-- Hits all at the front: block `i` takes what the prefix has left. -/
theorem countP_blockAt_append {p : α → Bool} {a b : List α} (ha : ∀ x ∈ a, p x = true)
    (hb : ∀ x ∈ b, p x = false) (k i : ℕ) :
    (blockAt (a ++ b) k i).countP p = min k (a.length - i * k) := by
  have hfront : ((a.drop (i * k)).take k).countP p = ((a.drop (i * k)).take k).length :=
    List.countP_eq_length.mpr fun x hx =>
      ha x (List.mem_of_mem_drop (List.mem_of_mem_take hx))
  have hback : ∀ j t, ((b.drop j).take t).countP p = 0 := fun j t =>
    List.countP_eq_zero.mpr fun x hx => by
      simpa using hb x (List.mem_of_mem_drop (List.mem_of_mem_take hx))
  -- cutting distributes over `a ++ b`, and only the part of `a` has hits
  rw [blockAt, List.drop_append, List.take_append, List.countP_append, hfront, hback,
    List.length_take, List.length_drop, Nat.add_zero]

end Blocks
