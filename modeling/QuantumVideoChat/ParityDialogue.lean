/-
Error correction as a dialogue (`BB84Protocol._error_correct_cascade`).

The simulation has both strings at hand; it stands for a Bob who asks Alice for parities over a
public channel.  Here is that Bob: he has his own string only, and flips the bit that a search
ends at.

* `result_correct` — he ends up with the string that the simulation computes;
* `length_asked_le` — how many parities he asks for;
* `asked_congr` — what he asks depends on where the strings differ, and on nothing else;
* `correction_by_parities` — so whoever hears the answers knows all that the corrected string
  owes to Alice's.
-/
import Mathlib.Data.Nat.Log
import QuantumVideoChat.CascadeRun
import QuantumVideoChat.Dialogue

namespace Cascade

open Blocks

/-- A dialogue in which Bob asks for the parities of blocks. -/
abbrev ParityDialogue := Dialogue (List ℕ) ℕ (List Bool)

namespace Bob

/-- `_binary_search_correct` without Alice's string. -/
def search (corrected : List Bool) (block : List ℕ) : ParityDialogue :=
  if h : block.length ≤ 1 then
    match block with
    | [] => .done corrected
    | idx :: _ => .done (corrected.set idx !corrected.getD idx false)
  else
    let mid := block.length / 2
    .ask (block.take mid) fun p =>
      if p ≠ parity corrected (block.take mid) then search corrected (block.take mid)
      else search corrected (block.drop mid)
termination_by block.length
decreasing_by
  · rw [List.length_take]
    omega
  · rw [List.length_drop]
    omega

/-- The body of the block loop. -/
def correctBlock (corrected : List Bool) (block : List ℕ) : ParityDialogue :=
  .ask block fun p => if p ≠ parity corrected block then search corrected block else .done corrected

def correct (perms : PassDraws) (bob : List Bool) (qber : ℚ) : ParityDialogue :=
  if qber ≤ 0 then .done bob
  else .fold correctBlock bob ((List.range 4).flatMap (passBlocks perms qber bob.length))

end Bob

variable {alice corrected alice' corrected' : List Bool}

/-! ### The result -/

theorem result_search {block : List ℕ} (hodd : mismatches alice corrected block % 2 = 1) :
    (Bob.search corrected block).result (parity alice)
      = binarySearchCorrect alice corrected block := by
  induction block using binarySearchCorrect.induct alice corrected with
  | case1 => exact absurd hodd (by simp [mismatches])
  | case2 idx rest h =>
    obtain ⟨i, hmem, hdiffers, -⟩ := binarySearchCorrect_spec hodd
    have hrest : rest = [] := List.length_eq_zero_iff.mp (by simpa using h)
    subst hrest
    obtain rfl := List.mem_singleton.mp hmem
    have hflip : alice.getD i false = !corrected.getD i false :=
      Bool.eq_not_iff.mpr (bne_iff_ne.mp hdiffers)
    have hrepair : binarySearchCorrect alice corrected [i] = repair alice corrected i := by
      rw [binarySearchCorrect]
      rfl
    rw [hrepair, repair, hflip, Bob.search]
    rfl
  | case3 block h mid hleft ih =>
    rw [Bob.search, dif_neg h, binarySearchCorrect, dif_neg h, if_pos hleft, Dialogue.result,
      if_pos hleft]
    exact ih ((parity_ne_iff _).mp hleft)
  | case4 block h mid hleft ih =>
    have hsplit : mismatches alice corrected block
        = mismatches alice corrected (block.take mid)
          + mismatches alice corrected (block.drop mid) := by
      rw [← mismatches_append, List.take_append_drop]
    have hl : ¬ mismatches alice corrected (block.take mid) % 2 = 1 := fun hl =>
      hleft ((parity_ne_iff _).mpr hl)
    rw [Bob.search, dif_neg h, binarySearchCorrect, dif_neg h, if_neg hleft, Dialogue.result,
      if_neg hleft]
    exact ih (by omega)

theorem result_correctBlock (alice corrected : List Bool) (block : List ℕ) :
    (Bob.correctBlock corrected block).result (parity alice)
      = correctBlock alice corrected block := by
  rw [Bob.correctBlock, correctBlock, Dialogue.result]
  by_cases hne : parity alice block ≠ parity corrected block
  · rw [if_pos hne, if_pos hne, result_search ((parity_ne_iff block).mp hne)]
  · rw [if_neg hne, if_neg hne]
    rfl

/-- The simulation computes what Bob ends up with. -/
theorem result_correct (perms : PassDraws) (qber : ℚ) {alice bob : List Bool}
    (hlen : alice.length = bob.length) :
    (Bob.correct perms bob qber).result (parity alice)
      = errorCorrectCascade perms alice bob qber := by
  rw [Bob.correct]
  split_ifs with hq
  · rw [errorCorrectCascade, if_pos hq, Dialogue.result]
    split_ifs with hempty
    · exact List.length_eq_zero_iff.mp (hlen ▸ hempty)
    · rfl
  · rw [Dialogue.result_fold]
    simp only [result_correctBlock]
    exact (Reconciliation.output_eq_afterPasses ⟨perms, alice, bob, qber, hlen, not_le.mp hq⟩).symm

/-! ### The number of questions -/

theorem length_asked_search (answer : List ℕ → ℕ) (corrected : List Bool) (block : List ℕ) :
    ((Bob.search corrected block).asked answer).length ≤ Nat.clog 2 block.length := by
  induction hn : block.length using Nat.strong_induction_on generalizing block with
  | _ n ih =>
    subst hn
    rw [Bob.search]
    split_ifs with h
    · cases block <;> exact Nat.zero_le _
    · have htwo : 2 ≤ block.length := by omega
      rw [Dialogue.asked, List.length_cons, Nat.clog_of_two_le (by decide) htwo]
      refine Nat.succ_le_succ ?_
      -- either half is no longer than the one that is rounded up
      have hhalf : ∀ half : List ℕ, half.length < block.length →
          half.length ≤ (block.length + 2 - 1) / 2 →
          ((Bob.search corrected half).asked answer).length
            ≤ Nat.clog 2 ((block.length + 2 - 1) / 2) := fun half hlt hle =>
        (ih half.length hlt half rfl).trans (Nat.clog_mono_right 2 hle)
      split
      · refine hhalf _ ?_ ?_ <;> rw [List.length_take] <;> omega
      · refine hhalf _ ?_ ?_ <;> rw [List.length_drop] <;> omega

/-- A repair leaves one position less at which the strings differ. -/
theorem disagreements_correctBlock (hlen : alice.length = corrected.length) (block : List ℕ) :
    disagreements alice (correctBlock alice corrected block)
        + mismatches alice corrected block % 2 = disagreements alice corrected := by
  rcases correctBlock_cases alice corrected block with
    ⟨heven, hsame⟩ | ⟨hodd, idx, -, hdiffers, hrepair⟩
  · rw [hsame, heven, Nat.add_zero]
  · have hidx : idx < alice.length := by
      by_contra hout
      rw [differs, List.getD_eq_default _ _ (by omega), List.getD_eq_default _ _ (by omega)]
        at hdiffers
      exact absurd hdiffers (by decide)
    rw [hrepair, hodd]
    exact mismatches_repair hlen List.nodup_range (List.mem_range.mpr hidx) hdiffers

theorem length_asked_correctBlock (hlen : alice.length = corrected.length) {n : ℕ}
    {block : List ℕ} (hblock : block.length ≤ n) :
    ((Bob.correctBlock corrected block).asked (parity alice)).length
        + disagreements alice (correctBlock alice corrected block) * Nat.clog 2 n
      ≤ 1 + disagreements alice corrected * Nat.clog 2 n := by
  rw [← disagreements_correctBlock hlen block, Bob.correctBlock, Dialogue.asked, List.length_cons]
  by_cases hne : parity alice block ≠ parity corrected block
  · have hsearch := (length_asked_search (parity alice) corrected block).trans
      (Nat.clog_mono_right 2 hblock)
    rw [if_pos hne, (parity_ne_iff block).mp hne, Nat.add_mul, Nat.one_mul]
    omega
  · have hodd : ¬ mismatches alice corrected block % 2 = 1 := mt (parity_ne_iff block).mpr hne
    have heven : mismatches alice corrected block % 2 = 0 := by omega
    rw [if_neg hne, heven, Dialogue.asked, List.length_nil]
    simp only [Nat.add_zero]
    omega

theorem length_asked_fold {n : ℕ} {bs : List (List ℕ)} (hbs : ∀ block ∈ bs, block.length ≤ n) :
    ∀ {corrected : List Bool}, alice.length = corrected.length →
      ((Dialogue.fold Bob.correctBlock corrected bs).asked (parity alice)).length
        ≤ bs.length + disagreements alice corrected * Nat.clog 2 n := by
  induction bs with
  | nil => exact fun _ => Nat.zero_le _
  | cons block bs ih =>
    intro corrected hlen
    obtain ⟨hblock, hbs⟩ := List.forall_mem_cons.mp hbs
    have hlen' : alice.length = (correctBlock alice corrected block).length := by
      rw [length_correctBlock, hlen]
    have hfirst := length_asked_correctBlock hlen hblock
    have hlater := ih hbs hlen'
    rw [Dialogue.asked_fold_cons, List.length_append, result_correctBlock, List.length_cons]
    omega

/-- The parities of all blocks, and a search for each difference at most. -/
theorem length_asked_le (perms : PassDraws) (qber : ℚ) {alice bob : List Bool}
    (hlen : alice.length = bob.length) :
    ((Bob.correct perms bob qber).asked (parity alice)).length
      ≤ ∑ pass ∈ Finset.range 4,
          (bob.length + passBlockSize qber bob.length pass - 1) / passBlockSize qber bob.length pass
        + disagreements alice bob * Nat.clog 2 bob.length := by
  rw [Bob.correct]
  split_ifs with hq
  · exact Nat.zero_le _
  · refine (length_asked_fold (n := bob.length) (fun block hblock => ?_) hlen).trans ?_
    · obtain ⟨pass, -, hblock⟩ := List.mem_flatMap.mp hblock
      obtain ⟨i, -, rfl⟩ := mem_blocks.mp hblock
      exact (List.length_take_le _ _).trans (min_le_right _ _)
    · refine Nat.add_le_add_right (le_of_eq ?_) _
      have hcount : ∀ pass, (passBlocks perms qber bob.length pass).length
          = (bob.length + passBlockSize qber bob.length pass - 1)
            / passBlockSize qber bob.length pass := by
        intro pass
        rw [passBlocks, blocks, List.length_map, List.length_range]
        split_ifs
        · rw [List.length_range]
        · rw [(perms pass bob.length).2.length_eq, List.length_range]
      rw [List.length_flatMap]
      simp [hcount, Finset.sum_range_succ, List.range_succ, Nat.add_assoc]

/-! ### What the questions depend on -/

/-- The strings of either pair differ at the same positions. -/
structure SamePattern (alice corrected alice' corrected' : List Bool) : Prop where
  length_eq : alice.length = corrected.length
  length_eq' : alice'.length = corrected'.length
  same : ∀ j, differs alice corrected j = differs alice' corrected' j

theorem SamePattern.parity_ne_iff (h : SamePattern alice corrected alice' corrected')
    (block : List ℕ) :
    parity alice block ≠ parity corrected block ↔ parity alice' block ≠ parity corrected' block := by
  have hmismatches : mismatches alice corrected block = mismatches alice' corrected' block :=
    List.countP_congr fun j _ => by rw [h.same j]
  rw [Cascade.parity_ne_iff, Cascade.parity_ne_iff, hmismatches]

theorem SamePattern.repair (h : SamePattern alice corrected alice' corrected') (idx : ℕ) :
    SamePattern alice (repair alice corrected idx) alice' (Cascade.repair alice' corrected' idx) where
  length_eq := by rw [length_repair, h.length_eq]
  length_eq' := by rw [length_repair, h.length_eq']
  same j := by rw [differs_repair h.length_eq, differs_repair h.length_eq', h.same j]

/-! One turn of a search, to the left or to the right. -/

section

variable {block : List ℕ} (hlong : ¬ block.length ≤ 1)

include hlong

theorem binarySearchCorrect_left
    (h : parity alice (block.take (block.length / 2))
      ≠ parity corrected (block.take (block.length / 2))) :
    binarySearchCorrect alice corrected block
      = binarySearchCorrect alice corrected (block.take (block.length / 2)) := by
  rw [binarySearchCorrect, dif_neg hlong, if_pos h]

theorem binarySearchCorrect_right
    (h : ¬ parity alice (block.take (block.length / 2))
      ≠ parity corrected (block.take (block.length / 2))) :
    binarySearchCorrect alice corrected block
      = binarySearchCorrect alice corrected (block.drop (block.length / 2)) := by
  rw [binarySearchCorrect, dif_neg hlong, if_neg h]

theorem asked_search_left
    (h : parity alice (block.take (block.length / 2))
      ≠ parity corrected (block.take (block.length / 2))) :
    (Bob.search corrected block).asked (parity alice)
      = block.take (block.length / 2)
        :: (Bob.search corrected (block.take (block.length / 2))).asked (parity alice) := by
  rw [Bob.search, dif_neg hlong, Dialogue.asked, if_pos h]

theorem asked_search_right
    (h : ¬ parity alice (block.take (block.length / 2))
      ≠ parity corrected (block.take (block.length / 2))) :
    (Bob.search corrected block).asked (parity alice)
      = block.take (block.length / 2)
        :: (Bob.search corrected (block.drop (block.length / 2))).asked (parity alice) := by
  rw [Bob.search, dif_neg hlong, Dialogue.asked, if_neg h]

end

/-- Searches take the same way. -/
theorem SamePattern.search (h : SamePattern alice corrected alice' corrected') (block : List ℕ) :
    (Bob.search corrected block).asked (parity alice)
        = (Bob.search corrected' block).asked (parity alice') ∧
      SamePattern alice (binarySearchCorrect alice corrected block) alice'
        (binarySearchCorrect alice' corrected' block) := by
  induction block using binarySearchCorrect.induct alice corrected with
  | case1 hshort =>
    rw [Bob.search, Bob.search, binarySearchCorrect, binarySearchCorrect]
    exact ⟨rfl, h⟩
  | case2 idx rest hshort =>
    rw [Bob.search, Bob.search, binarySearchCorrect, binarySearchCorrect, dif_pos hshort,
      dif_pos hshort, dif_pos hshort, dif_pos hshort]
    exact ⟨rfl, h.repair idx⟩
  | case3 block hlong mid hleft ih =>
    have hleft' := (h.parity_ne_iff _).mp hleft
    rw [asked_search_left hlong hleft, asked_search_left hlong hleft',
      binarySearchCorrect_left hlong hleft, binarySearchCorrect_left hlong hleft']
    exact ⟨congrArg _ ih.1, ih.2⟩
  | case4 block hlong mid hleft ih =>
    have hleft' := mt (h.parity_ne_iff _).mpr hleft
    rw [asked_search_right hlong hleft, asked_search_right hlong hleft',
      binarySearchCorrect_right hlong hleft, binarySearchCorrect_right hlong hleft']
    exact ⟨congrArg _ ih.1, ih.2⟩

theorem SamePattern.correctBlock (h : SamePattern alice corrected alice' corrected')
    (block : List ℕ) :
    (Bob.correctBlock corrected block).asked (parity alice)
        = (Bob.correctBlock corrected' block).asked (parity alice') ∧
      SamePattern alice (correctBlock alice corrected block) alice'
        (Cascade.correctBlock alice' corrected' block) := by
  rw [Bob.correctBlock, Bob.correctBlock, Cascade.correctBlock, Cascade.correctBlock,
    Dialogue.asked, Dialogue.asked]
  by_cases hne : parity alice block ≠ parity corrected block
  · have hne' := (h.parity_ne_iff block).mp hne
    rw [if_pos hne, if_pos hne', if_pos hne, if_pos hne']
    exact ⟨congrArg _ (h.search block).1, (h.search block).2⟩
  · have hne' := mt (h.parity_ne_iff block).mpr hne
    rw [if_neg hne, if_neg hne', if_neg hne, if_neg hne']
    exact ⟨rfl, h⟩

theorem SamePattern.fold {bs : List (List ℕ)} : ∀ {corrected corrected' : List Bool},
    SamePattern alice corrected alice' corrected' →
      (Dialogue.fold Bob.correctBlock corrected bs).asked (parity alice)
          = (Dialogue.fold Bob.correctBlock corrected' bs).asked (parity alice') ∧
        SamePattern alice (cascadePass alice corrected bs) alice'
          (cascadePass alice' corrected' bs) := by
  induction bs with
  | nil => exact fun h => ⟨rfl, h⟩
  | cons block bs ih =>
    intro corrected corrected' h
    obtain ⟨hasked, hnext⟩ := h.correctBlock block
    rw [Dialogue.asked_fold_cons, Dialogue.asked_fold_cons, hasked, result_correctBlock,
      result_correctBlock]
    exact ⟨congrArg _ (ih hnext).1, (ih hnext).2⟩

/-- Bob asks the same, and leaves the same positions uncorrected. -/
theorem SamePattern.correct (perms : PassDraws) (qber : ℚ) {bob bob' : List Bool}
    (h : SamePattern alice bob alice' bob') (hlen : bob.length = bob'.length) :
    (Bob.correct perms bob qber).asked (parity alice)
        = (Bob.correct perms bob' qber).asked (parity alice') ∧
      SamePattern alice (errorCorrectCascade perms alice bob qber) alice'
        (errorCorrectCascade perms alice' bob' qber) := by
  rw [← result_correct perms qber h.length_eq, ← result_correct perms qber h.length_eq',
    Bob.correct, Bob.correct, ← hlen]
  split_ifs with hq
  · exact ⟨rfl, h⟩
  · rw [Dialogue.result_fold, Dialogue.result_fold]
    simp only [result_correctBlock]
    exact h.fold

/-! ### What the answers tell -/

/-- **The correction runs on parities.**  What `_error_correct_cascade` computes from both
strings, Bob finds out by questions about parities of Alice's.  He asks one for each block and no
more than `⌈log₂ n⌉` for each error, and strings of Alice's with the same answers are corrected to
the same. -/
theorem correction_by_parities (perms : PassDraws) (qber : ℚ) {alice bob : List Bool}
    (hlen : alice.length = bob.length) :
    (Bob.correct perms bob qber).result (parity alice)
        = errorCorrectCascade perms alice bob qber ∧
      ((Bob.correct perms bob qber).asked (parity alice)).length
        ≤ ∑ pass ∈ Finset.range 4,
            (bob.length + passBlockSize qber bob.length pass - 1)
              / passBlockSize qber bob.length pass
          + disagreements alice bob * Nat.clog 2 bob.length ∧
      ∀ alice' : List Bool, alice'.length = bob.length →
        (Bob.correct perms bob qber).answers (parity alice')
            = (Bob.correct perms bob qber).answers (parity alice) →
          errorCorrectCascade perms alice' bob qber
            = errorCorrectCascade perms alice bob qber := by
  refine ⟨result_correct perms qber hlen, length_asked_le perms qber hlen,
    fun alice' hlen' hanswers => ?_⟩
  rw [← result_correct perms qber hlen', ← result_correct perms qber hlen]
  exact (Dialogue.eq_of_answers hanswers).2

/-- The first of three bits is wrong. -/
theorem correction_of_three_bits :
    (Bob.correct (fun _ n => ⟨List.range n, List.Perm.refl _⟩) [true, true, false] (1 / 4)).result
        (parity [false, true, false]) = [false, true, false] ∧
      ((Bob.correct (fun _ n => ⟨List.range n, List.Perm.refl _⟩) [true, true, false]
        (1 / 4)).asked (parity [false, true, false])).length ≤ 7 := by
  obtain ⟨hresult, hasked, -⟩ := @correction_by_parities
    (fun _ n => ⟨List.range n, List.Perm.refl _⟩) (1 / 4) [false, true, false] [true, true, false]
    rfl
  exact ⟨hresult.trans (by decide +kernel), hasked.trans (by decide +kernel)⟩

end Cascade
