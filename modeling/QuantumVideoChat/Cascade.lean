/-
Error correction (`BB84Protocol._error_correct_cascade`).

Four passes over blocks of doubling size; a block whose parity differs from Alice's is
bisected down to one index, and that bit is copied from Alice.

* `binarySearchCorrect_spec` — a bisected block loses exactly one mismatch of its own;
* `cascadePass_mismatches` — after a pass every block of its partition has equal parity,
  and each lost at most one mismatch;
* `errorCorrectCascade_forall_eq_iff` — the output is Alice's string for every choice of
  the per-pass permutations exactly when the estimate is 0 and nothing differs, or the
  estimate is positive and no block of the first pass holds two mismatches.

For the last one the bad permutations are explicit (`gatheredOrder`): list the surviving
mismatches first, so that every later block holds an even number of them.
-/
import QuantumVideoChat.Blocks
import QuantumVideoChat.Numerics

namespace Cascade

open Blocks

/-- `rng.permutation(n)`. -/
abbrev Shuffle (n : ℕ) := {order : List ℕ // order.Perm (List.range n)}

/-- One permutation for each pass and size. -/
abbrev PassDraws := ℕ → (n : ℕ) → Shuffle n

def parity (bits : List Bool) (block : List ℕ) : ℕ :=
  (block.map fun idx => (bits.getD idx false).toNat).sum % 2

/-- `corrected[idx] = alice_bits[idx]`. -/
def repair (alice corrected : List Bool) (idx : ℕ) : List Bool :=
  corrected.set idx (alice.getD idx false)

/-- `_binary_search_correct`. -/
def binarySearchCorrect (alice corrected : List Bool) (block : List ℕ) : List Bool :=
  if h : block.length ≤ 1 then
    match block with
    | [] => corrected
    | idx :: _ => repair alice corrected idx
  else
    let mid := block.length / 2
    if parity alice (block.take mid) ≠ parity corrected (block.take mid) then
      binarySearchCorrect alice corrected (block.take mid)
    else
      -- the right half is searched without a look at its parity
      binarySearchCorrect alice corrected (block.drop mid)
termination_by block.length
decreasing_by
  · rw [List.length_take]
    omega
  · rw [List.length_drop]
    omega

/-- The body of the block loop. -/
def correctBlock (alice corrected : List Bool) (block : List ℕ) : List Bool :=
  if parity alice block ≠ parity corrected block then binarySearchCorrect alice corrected block
  else corrected

/-- The block loop of one pass. -/
def cascadePass (alice corrected : List Bool) (bs : List (List ℕ)) : List Bool :=
  bs.foldl (correctBlock alice) corrected

/-- `max(2, int(0.73 / qber))`: literal, estimate and quotient are floats. -/
def initialBlockSize (qber : ℚ) : ℕ :=
  (max 2 (pyInt (roundDouble (roundDouble (73 / 100) / roundDouble qber)))).toNat

-- the exact quotient is 219
example : initialBlockSize (1 / 300) = 218 := by decide +kernel

def passBlockSize (qber : ℚ) (n pass : ℕ) : ℕ := min (initialBlockSize qber * 2 ^ pass) n

/-- The blocks of a pass: the first one is not shuffled. -/
def passBlocks (perms : PassDraws) (qber : ℚ) (n pass : ℕ) : List (List ℕ) :=
  blocks (if pass = 0 then List.range n else (perms pass n).1) (passBlockSize qber n pass)

/-- `_error_correct_cascade`. -/
def errorCorrectCascade (perms : PassDraws) (alice bob : List Bool) (qber : ℚ) : List Bool :=
  if alice.length = 0 then []
  -- an estimate of 0 skips the correction
  else if qber ≤ 0 then bob
  else
    (List.range 4).foldl
      (fun corrected pass => cascadePass alice corrected (passBlocks perms qber bob.length pass))
      bob

/-! ### Mismatches -/

def differs (alice corrected : List Bool) (idx : ℕ) : Bool :=
  alice.getD idx false != corrected.getD idx false

def mismatches (alice corrected : List Bool) (block : List ℕ) : ℕ :=
  block.countP (differs alice corrected)

variable {alice corrected : List Bool}

theorem parity_add_mismatches (alice corrected : List Bool) (block : List ℕ) :
    (parity alice block + parity corrected block + mismatches alice corrected block) % 2 = 0 := by
  induction block with
  | nil => rfl
  | cons idx block ih =>
    -- four cases for the two bits at `idx`, each adding an even number
    simp only [parity, mismatches, List.map_cons, List.sum_cons, List.countP_cons] at ih ⊢
    cases ha : alice.getD idx false <;> cases hc : corrected.getD idx false <;>
      simp only [differs, ha, hc, bne_self_eq_false, Bool.toNat_false, Bool.toNat_true,
        Bool.false_bne, Bool.true_bne, Bool.not_false, if_true, Bool.false_eq_true, if_false] <;>
      omega

/-- Comparing parities detects exactly the blocks with an odd number of mismatches. -/
theorem parity_ne_iff (block : List ℕ) :
    parity alice block ≠ parity corrected block ↔ mismatches alice corrected block % 2 = 1 := by
  have h := parity_add_mismatches alice corrected block
  have ha : parity alice block < 2 := Nat.mod_lt _ (by decide)
  have hc : parity corrected block < 2 := Nat.mod_lt _ (by decide)
  omega

theorem mismatches_append (b₁ b₂ : List ℕ) :
    mismatches alice corrected (b₁ ++ b₂)
      = mismatches alice corrected b₁ + mismatches alice corrected b₂ :=
  List.countP_append

theorem length_repair (idx : ℕ) : (repair alice corrected idx).length = corrected.length :=
  List.length_set

/-- A repair removes the mismatch at its own index and touches no other. -/
theorem differs_repair (hlen : alice.length = corrected.length) (idx j : ℕ) :
    differs alice (repair alice corrected idx) j
      = (differs alice corrected j && decide (j ≠ idx)) := by
  rw [differs, differs, repair]
  by_cases hj : j = idx
  · subst hj
    by_cases hlt : j < corrected.length
    · simp [List.getD_eq_getElem?_getD, hlt]
    · -- out of range both strings read the default bit
      have ha : alice[j]? = none := List.getElem?_eq_none (by omega)
      simp [List.getD_eq_getElem?_getD, hlt, ha]
  · simp [List.getD_eq_getElem?_getD, List.getElem?_set_ne (Ne.symm hj), hj]

/-- Equal strings are strings without mismatches. -/
theorem eq_of_forall_not_differs (hlen : alice.length = corrected.length)
    (h : ∀ idx < alice.length, differs alice corrected idx = false) : corrected = alice := by
  apply List.ext_getElem hlen.symm
  intro i hi₁ hi₂
  have hd := h i hi₂
  simp only [differs, bne_eq_false_iff_eq] at hd
  rw [List.getD_eq_getElem _ _ hi₁, List.getD_eq_getElem _ _ hi₂] at hd
  exact hd.symm

/-! ### One block -/

/-- Bisection ends on a mismatch of the block and repairs it. -/
theorem binarySearchCorrect_spec {block : List ℕ}
    (hodd : mismatches alice corrected block % 2 = 1) :
    ∃ idx ∈ block, differs alice corrected idx = true ∧
      binarySearchCorrect alice corrected block = repair alice corrected idx := by
  induction block using binarySearchCorrect.induct alice corrected with
  | case1 => exact absurd hodd (by simp [mismatches])
  | case2 idx rest h =>
    have hrest : rest = [] := List.length_eq_zero_iff.mp (by simpa using h)
    subst hrest
    have hd : differs alice corrected idx = true := by
      by_contra hne
      simp [mismatches, hne] at hodd
    exact ⟨idx, List.mem_singleton_self idx, hd, by rw [binarySearchCorrect]; rfl⟩
  | case3 block h mid hleft ih =>
    -- unequal parities on the left: the left half is odd
    obtain ⟨idx, hmem, hd, heq⟩ := ih ((parity_ne_iff _).mp hleft)
    refine ⟨idx, List.mem_of_mem_take hmem, hd, ?_⟩
    rw [binarySearchCorrect, dif_neg h, if_pos hleft]
    exact heq
  | case4 block h mid hleft ih =>
    have hsplit : mismatches alice corrected block
        = mismatches alice corrected (block.take mid)
          + mismatches alice corrected (block.drop mid) := by
      rw [← mismatches_append, List.take_append_drop]
    -- the left half has equal parity, so the odd mismatch is on the right
    have hl : ¬ mismatches alice corrected (block.take mid) % 2 = 1 := fun hl =>
      hleft ((parity_ne_iff _).mpr hl)
    obtain ⟨idx, hmem, hd, heq⟩ := ih (by omega)
    refine ⟨idx, List.mem_of_mem_drop hmem, hd, ?_⟩
    rw [binarySearchCorrect, dif_neg h, if_neg hleft]
    exact heq

/-- What the loop body does: nothing to an even block, one repair inside an odd one. -/
theorem correctBlock_cases (alice corrected : List Bool) (block : List ℕ) :
    (mismatches alice corrected block % 2 = 0 ∧
      correctBlock alice corrected block = corrected) ∨
    (mismatches alice corrected block % 2 = 1 ∧
      ∃ idx ∈ block, differs alice corrected idx = true ∧
        correctBlock alice corrected block = repair alice corrected idx) := by
  by_cases hne : parity alice block ≠ parity corrected block
  · have hodd := (parity_ne_iff block).mp hne
    refine .inr ⟨hodd, ?_⟩
    rw [correctBlock, if_pos hne]
    exact binarySearchCorrect_spec hodd
  · have heven : ¬ mismatches alice corrected block % 2 = 1 := fun h =>
      hne ((parity_ne_iff block).mpr h)
    exact .inl ⟨by omega, by rw [correctBlock, if_neg hne]⟩

theorem length_correctBlock (block : List ℕ) :
    (correctBlock alice corrected block).length = corrected.length := by
  rcases correctBlock_cases alice corrected block with
    ⟨-, h⟩ | ⟨-, idx, -, -, h⟩
  · rw [h]
  · rw [h, length_repair]

theorem length_cascadePass (bs : List (List ℕ)) :
    ∀ corrected : List Bool, (cascadePass alice corrected bs).length = corrected.length := by
  induction bs with
  | nil =>
    intro corrected
    rfl
  | cons b bs ih =>
    intro corrected
    show (cascadePass alice (correctBlock alice corrected b) bs).length = _
    rw [ih, length_correctBlock]

/-- A block is only ever repaired at its own indices. -/
theorem differs_correctBlock_of_notMem (hlen : alice.length = corrected.length)
    {block : List ℕ} {j : ℕ} (hj : j ∉ block) :
    differs alice (correctBlock alice corrected block) j = differs alice corrected j := by
  rcases correctBlock_cases alice corrected block with
    ⟨-, h⟩ | ⟨-, idx, hmem, -, h⟩
  · rw [h]
  · have hne : j ≠ idx := fun h => hj (h ▸ hmem)
    rw [h, differs_repair hlen]
    simp [hne]

theorem mismatches_congr {c c' : List Bool} {block : List ℕ}
    (h : ∀ j ∈ block, differs alice c j = differs alice c' j) :
    mismatches alice c block = mismatches alice c' block :=
  List.countP_congr fun j hj => by rw [h j hj]

/-- Repairing one mismatch of a block without repetitions lowers its count by one. -/
theorem mismatches_repair (hlen : alice.length = corrected.length) {block : List ℕ}
    (hnd : block.Nodup) {idx : ℕ} (hmem : idx ∈ block)
    (hd : differs alice corrected idx = true) :
    mismatches alice (repair alice corrected idx) block + 1
      = mismatches alice corrected block := by
  -- split the block at `idx`; the parts beside it are not touched
  obtain ⟨b₁, b₂, rfl⟩ := List.append_of_mem hmem
  have hnot : idx ∉ b₁ ∧ idx ∉ b₂ := by
    have := List.nodup_middle.mp hnd
    simpa [not_or] using (List.nodup_cons.mp this).1
  have hkeep : ∀ {b : List ℕ}, idx ∉ b →
      mismatches alice (repair alice corrected idx) b = mismatches alice corrected b :=
    fun {b} hb => mismatches_congr fun j hj => by
      have hne : j ≠ idx := fun h => hb (h ▸ hj)
      rw [differs_repair hlen]
      simp [hne]
  have hcons : ∀ (c : List Bool) (b : List ℕ), mismatches alice c (idx :: b)
      = mismatches alice c b + if differs alice c idx then 1 else 0 := fun c b =>
    List.countP_cons
  rw [mismatches_append, mismatches_append, hcons, hcons, hkeep hnot.1, hkeep hnot.2,
    differs_repair hlen, hd]
  simp
  omega

/-- The body drops the parity bit of the block's mismatch count. -/
theorem mismatches_correctBlock (hlen : alice.length = corrected.length) {block : List ℕ}
    (hnd : block.Nodup) :
    mismatches alice (correctBlock alice corrected block) block
      = mismatches alice corrected block - mismatches alice corrected block % 2 := by
  rcases correctBlock_cases alice corrected block with
    ⟨heven, h⟩ | ⟨hodd, idx, hmem, hd, h⟩
  · rw [h, heven, Nat.sub_zero]
  · have := mismatches_repair hlen hnd hmem hd
    rw [h, hodd]
    omega

/-! ### One pass -/

theorem differs_cascadePass_of_notMem : ∀ {bs : List (List ℕ)} {corrected : List Bool},
    alice.length = corrected.length → ∀ {j : ℕ}, j ∉ bs.flatten →
      differs alice (cascadePass alice corrected bs) j = differs alice corrected j := by
  intro bs
  induction bs with
  | nil =>
    intro corrected _ j _
    rfl
  | cons b bs ih =>
    intro corrected hlen j hj
    rw [List.flatten_cons, List.mem_append, not_or] at hj
    have hlen' : alice.length = (correctBlock alice corrected b).length := by
      rw [length_correctBlock, hlen]
    show differs alice (cascadePass alice (correctBlock alice corrected b) bs) j = _
    rw [ih hlen' hj.2, differs_correctBlock_of_notMem hlen hj.1]

/-- A pass over disjoint blocks drops the parity bit of every block's count. -/
theorem cascadePass_mismatches : ∀ {bs : List (List ℕ)} {corrected : List Bool},
    alice.length = corrected.length → bs.flatten.Nodup → ∀ b ∈ bs,
      mismatches alice (cascadePass alice corrected bs) b
        = mismatches alice corrected b - mismatches alice corrected b % 2 := by
  intro bs
  induction bs with
  | nil =>
    intro corrected _ _ b hb
    exact absurd hb List.not_mem_nil
  | cons b₀ bs ih =>
    intro corrected hlen hnd b hb
    rw [List.flatten_cons, List.nodup_append'] at hnd
    obtain ⟨hnd₀, hnds, hdisj⟩ := hnd
    have hlen' : alice.length = (correctBlock alice corrected b₀).length := by
      rw [length_correctBlock, hlen]
    show mismatches alice (cascadePass alice (correctBlock alice corrected b₀) bs) b = _
    rcases List.mem_cons.mp hb with rfl | hbs
    · -- later blocks do not meet this one
      rw [← mismatches_correctBlock hlen hnd₀]
      exact mismatches_congr fun j hj =>
        differs_cascadePass_of_notMem hlen' (fun hj' => hdisj hj hj')
    · -- and the first block does not meet the later ones
      have hsame : mismatches alice (correctBlock alice corrected b₀) b
          = mismatches alice corrected b :=
        mismatches_congr fun j hj => differs_correctBlock_of_notMem hlen
          fun hj' => hdisj hj' (List.mem_flatten.mpr ⟨b, hbs, hj⟩)
      rw [ih hlen' hnds b hbs, hsame]

/-- A pass whose blocks all have equal parity changes nothing. -/
theorem cascadePass_eq_self : ∀ {bs : List (List ℕ)} {corrected : List Bool},
    (∀ b ∈ bs, mismatches alice corrected b % 2 = 0) →
      cascadePass alice corrected bs = corrected := by
  intro bs
  induction bs with
  | nil =>
    intro corrected _
    rfl
  | cons b bs ih =>
    intro corrected h
    have hb : correctBlock alice corrected b = corrected := by
      rcases correctBlock_cases alice corrected b with
        ⟨-, heq⟩ | ⟨hodd, -⟩
      · exact heq
      · exact absurd hodd (by simp [h b (by simp)])
    show cascadePass alice (correctBlock alice corrected b) bs = corrected
    rw [hb]
    exact ih fun b' hb' => h b' (by simp [hb'])

/-! ### All passes -/

theorem nodup_flatten_passBlocks (perms : PassDraws) {qber : ℚ} {n pass : ℕ}
    (hsize : 0 < passBlockSize qber n pass) : (passBlocks perms qber n pass).flatten.Nodup := by
  rw [passBlocks, blocks_flatten _ hsize]
  by_cases h : pass = 0
  · rw [if_pos h]
    exact List.nodup_range
  · rw [if_neg h]
    exact (perms pass n).2.nodup_iff.mpr List.nodup_range

theorem mem_flatten_passBlocks (perms : PassDraws) {qber : ℚ} {n pass j : ℕ}
    (hsize : 0 < passBlockSize qber n pass) :
    j ∈ (passBlocks perms qber n pass).flatten ↔ j < n := by
  rw [passBlocks, blocks_flatten _ hsize]
  by_cases h : pass = 0
  · rw [if_pos h, List.mem_range]
  · rw [if_neg h, (perms pass n).2.mem_iff, List.mem_range]

theorem two_le_initialBlockSize (qber : ℚ) : 2 ≤ initialBlockSize qber := by
  rw [initialBlockSize]
  have := le_max_left 2 (pyInt (roundDouble (roundDouble (73 / 100) / roundDouble qber)))
  omega

theorem passBlockSize_pos (qber : ℚ) {n : ℕ} (hn : 0 < n) (pass : ℕ) :
    0 < passBlockSize qber n pass := by
  have h2 := two_le_initialBlockSize qber
  have hpow : 0 < 2 ^ pass := Nat.pow_pos (by decide)
  exact lt_min (Nat.mul_pos (by omega) hpow) hn

/-- From the second pass on, a block size below `n` is even. -/
theorem passBlockSize_even_or (qber : ℚ) (n : ℕ) {pass : ℕ} (hpass : pass ≠ 0) :
    passBlockSize qber n pass % 2 = 0 ∨ passBlockSize qber n pass = n := by
  rcases min_choice (initialBlockSize qber * 2 ^ pass) n with h | h
  · -- the size has been doubled at least once
    left
    obtain ⟨p, rfl⟩ : ∃ p, pass = p + 1 := ⟨pass - 1, by omega⟩
    rw [passBlockSize, h, Nat.pow_succ, ← Nat.mul_assoc]
    omega
  · exact .inr h

/-- The passes from the second one on. -/
def laterPasses (perms : PassDraws) (alice : List Bool) (qber : ℚ) (n : ℕ)
    (corrected : List Bool) : List Bool :=
  [1, 2, 3].foldl (fun c pass => cascadePass alice c (passBlocks perms qber n pass)) corrected

def firstPass (perms : PassDraws) (alice bob : List Bool) (qber : ℚ) : List Bool :=
  cascadePass alice bob (passBlocks perms qber bob.length 0)

theorem errorCorrectCascade_eq (perms : PassDraws) {alice bob : List Bool} {qber : ℚ}
    (halice : alice.length ≠ 0) (hq : ¬ qber ≤ 0) :
    errorCorrectCascade perms alice bob qber
      = laterPasses perms alice qber bob.length (firstPass perms alice bob qber) := by
  rw [errorCorrectCascade, if_neg halice, if_neg hq]
  rfl

theorem length_errorCorrectCascade (perms : PassDraws) {alice bob : List Bool} {qber : ℚ}
    (hlen : alice.length = bob.length) :
    (errorCorrectCascade perms alice bob qber).length = bob.length := by
  by_cases halice : alice.length = 0
  · rw [errorCorrectCascade, if_pos halice, ← hlen, halice]
    rfl
  · by_cases hq : qber ≤ 0
    · rw [errorCorrectCascade, if_neg halice, if_pos hq]
    · rw [errorCorrectCascade_eq perms halice hq, firstPass, laterPasses]
      simp only [List.foldl_cons, List.foldl_nil, length_cascadePass]

/-- Every pass after the first leaves a string alone when all its blocks are even. -/
theorem laterPasses_eq_self {perms : PassDraws} {qber : ℚ} {n : ℕ}
    (h : ∀ pass, pass ≠ 0 → ∀ b ∈ passBlocks perms qber n pass,
      mismatches alice corrected b % 2 = 0) :
    laterPasses perms alice qber n corrected = corrected := by
  have hpass : ∀ pass, pass ≠ 0 →
      cascadePass alice corrected (passBlocks perms qber n pass) = corrected :=
    fun pass hne => cascadePass_eq_self (h pass hne)
  simp [laterPasses, hpass]

/-- Bit strings without mismatches have none in any block either. -/
theorem mismatches_eq_zero_of_eq (h : corrected = alice) (block : List ℕ) :
    mismatches alice corrected block = 0 := by
  subst h
  simp [mismatches, differs]

/-! ### The worst permutations -/

/-- The mismatches first, then everything else. -/
def gatheredOrder (alice corrected : List Bool) (n : ℕ) : Shuffle n :=
  ⟨(List.range n).filter (differs alice corrected)
      ++ (List.range n).filter fun idx => !differs alice corrected idx,
    by simpa using List.filter_append_perm (differs alice corrected) (List.range n)⟩

/-- With the mismatches gathered, an even total leaves every later block even. -/
theorem mismatches_gathered_even {n : ℕ} {perms : PassDraws} {qber : ℚ} {pass : ℕ}
    (hn : 0 < n) (hpass : pass ≠ 0) (hperm : perms pass n = gatheredOrder alice corrected n)
    (heven : mismatches alice corrected (List.range n) % 2 = 0) :
    ∀ b ∈ passBlocks perms qber n pass, mismatches alice corrected b % 2 = 0 := by
  intro b hb
  rw [passBlocks, if_neg hpass, hperm, mem_blocks] at hb
  obtain ⟨i, hi, rfl⟩ := hb
  set k := passBlockSize qber n pass with hk
  set total := mismatches alice corrected (List.range n) with htotal
  -- block `i` takes what is left of the prefix of mismatches
  have hcount : mismatches alice corrected
      (blockAt (gatheredOrder alice corrected n).1 k i) = min k (total - i * k) := by
    rw [htotal, mismatches, mismatches, List.countP_eq_length_filter (l := List.range n)]
    exact countP_blockAt_append (fun x hx => (List.mem_filter.mp hx).2)
      (fun x hx => by simpa using (List.mem_filter.mp hx).2) k i
  have hle : total ≤ n := by
    have := List.countP_le_length (p := differs alice corrected) (l := List.range n)
    rwa [List.length_range] at this
  rw [hcount]
  rcases passBlockSize_even_or qber n hpass with heven' | hwhole
  · -- an even size cuts the even prefix into even parts
    have hmul : i * k % 2 = 0 := by rw [Nat.mul_mod, hk, heven', Nat.mul_zero, Nat.zero_mod]
    omega
  · -- one block holds everything
    have hlen : (gatheredOrder alice corrected n).1.length = n := by
      rw [(gatheredOrder alice corrected n).2.length_eq, List.length_range]
    rw [← hk] at hwhole
    rw [hlen, hwhole] at hi
    have hcount : (n + n - 1) / n = 1 := Nat.div_eq_of_lt_le (by omega) (by omega)
    have hi0 : i = 0 := by omega
    rw [hi0, hwhole]
    omega

/-! ### When the output is Alice's string -/

/-- What the four passes can always repair: nothing differs when the estimate is 0, and
no block of the first pass holds two mismatches when it is positive. -/
def Correctable (alice bob : List Bool) (qber : ℚ) : Prop :=
  if qber ≤ 0 then bob = alice
  else ∀ b ∈ blocks (List.range bob.length) (passBlockSize qber bob.length 0),
    mismatches alice bob b ≤ 1

instance (alice bob : List Bool) (qber : ℚ) : Decidable (Correctable alice bob qber) :=
  inferInstanceAs (Decidable (if qber ≤ 0 then _ else _))

/-- The first pass leaves `count - count % 2` mismatches in each of its blocks. -/
theorem firstPass_mismatches (perms : PassDraws) {alice bob : List Bool} {qber : ℚ}
    (hlen : alice.length = bob.length) (hpos : 0 < bob.length) :
    ∀ b ∈ passBlocks perms qber bob.length 0,
      mismatches alice (firstPass perms alice bob qber) b
        = mismatches alice bob b - mismatches alice bob b % 2 :=
  cascadePass_mismatches hlen
    (nodup_flatten_passBlocks perms (passBlockSize_pos qber hpos 0))

theorem firstPass_length (perms : PassDraws) (alice bob : List Bool) (qber : ℚ) :
    (firstPass perms alice bob qber).length = bob.length :=
  length_cascadePass _ _

/-- A correctable pair is corrected by the first pass already. -/
theorem errorCorrectCascade_of_correctable {alice bob : List Bool} {qber : ℚ}
    (hlen : alice.length = bob.length) (h : Correctable alice bob qber) (perms : PassDraws) :
    errorCorrectCascade perms alice bob qber = alice := by
  by_cases halice : alice.length = 0
  · rw [errorCorrectCascade, if_pos halice, List.length_eq_zero_iff.mp halice]
  · by_cases hq : qber ≤ 0
    · rw [Correctable, if_pos hq] at h
      rw [errorCorrectCascade, if_neg halice, if_pos hq, h]
    · rw [Correctable, if_neg hq] at h
      have hpos : 0 < bob.length := by omega
      have hlen' : alice.length = (firstPass perms alice bob qber).length := by
        rw [firstPass_length, hlen]
      -- every index lies in a block of the first pass, which has no mismatch left
      have hfirst : firstPass perms alice bob qber = alice := by
        refine eq_of_forall_not_differs hlen' fun idx hidx => ?_
        obtain ⟨b, hb, hmem⟩ := List.mem_flatten.mp
          ((mem_flatten_passBlocks perms (passBlockSize_pos qber hpos 0)).mpr (hlen ▸ hidx))
        have hzero : mismatches alice (firstPass perms alice bob qber) b = 0 := by
          have hone := h b hb
          rw [firstPass_mismatches perms hlen hpos b hb]
          omega
        simpa using List.countP_eq_zero.mp hzero idx hmem
      rw [errorCorrectCascade_eq perms halice hq, hfirst]
      exact laterPasses_eq_self fun pass _ b _ => by
        rw [mismatches_eq_zero_of_eq rfl]

/-- Two mismatches in one block of the first pass survive some choice of permutations. -/
theorem exists_perms_ne_of_not_correctable {alice bob : List Bool} {qber : ℚ}
    (hlen : alice.length = bob.length) (h : ¬ Correctable alice bob qber) :
    ∃ perms : PassDraws, errorCorrectCascade perms alice bob qber ≠ alice := by
  set identity : PassDraws := fun _ n => ⟨List.range n, List.Perm.refl _⟩ with hid
  by_cases hq : qber ≤ 0
  · rw [Correctable, if_pos hq] at h
    refine ⟨identity, ?_⟩
    have halice : alice.length ≠ 0 := by
      intro h0
      have hbob : bob.length = 0 := by omega
      exact h (by rw [List.length_eq_zero_iff.mp h0, List.length_eq_zero_iff.mp hbob])
    rwa [errorCorrectCascade, if_neg halice, if_pos hq]
  · rw [Correctable, if_neg hq] at h
    push Not at h
    obtain ⟨b, hb, htwo⟩ := h
    have hpos : 0 < bob.length := by
      by_contra h0
      have hnil : bob = [] := List.length_eq_zero_iff.mp (by omega)
      subst hnil
      obtain ⟨i, -, rfl⟩ := mem_blocks.mp hb
      simp [blockAt, mismatches] at htwo
    -- the string after the first pass does not depend on the permutations
    set mid := firstPass identity alice bob qber with hmid
    have hmidlen : alice.length = mid.length := by rw [hmid, firstPass_length, hlen]
    set perms : PassDraws := fun _ n => gatheredOrder alice mid n with hperms
    have hsame : firstPass perms alice bob qber = mid := rfl
    have hcounts : ∀ b ∈ passBlocks perms qber bob.length 0,
        mismatches alice mid b = mismatches alice bob b - mismatches alice bob b % 2 :=
      firstPass_mismatches perms hlen hpos
    have hflat := blocks_flatten (List.range bob.length) (passBlockSize_pos qber hpos 0)
    have heven : mismatches alice mid (List.range bob.length) % 2 = 0 := by
      rw [← hflat]
      refine countP_flatten_even fun b' hb' => ?_
      have := hcounts b' hb'
      rw [mismatches] at this
      omega
    have hpersist : laterPasses perms alice qber bob.length mid = mid :=
      laterPasses_eq_self fun pass hpass =>
        mismatches_gathered_even hpos hpass rfl heven
    refine ⟨perms, ?_⟩
    rw [errorCorrectCascade_eq perms (by omega) hq, hsame, hpersist]
    -- block `b` had at least two mismatches and lost at most one
    intro heq
    have hzero := mismatches_eq_zero_of_eq heq b
    rw [hcounts b hb] at hzero
    omega

/-- **Exactly when Cascade reconciles**: for every choice of the permutations the output
is Alice's string, if and only if the pair is correctable. -/
theorem errorCorrectCascade_forall_eq_iff {alice bob : List Bool} (qber : ℚ)
    (hlen : alice.length = bob.length) :
    (∀ perms : PassDraws, errorCorrectCascade perms alice bob qber = alice)
      ↔ Correctable alice bob qber := by
  constructor
  · intro h
    by_contra hnot
    obtain ⟨perms, hne⟩ := exists_perms_ne_of_not_correctable hlen hnot
    exact hne (h perms)
  · exact errorCorrectCascade_of_correctable hlen

end Cascade
