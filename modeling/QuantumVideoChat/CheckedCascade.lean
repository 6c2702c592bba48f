/-
Error correction with every exception it can raise (`_error_correct_cascade`).

Both bit lists may hold `None`, the block size is a divisor and a step of a `range`, and
every index is looked up.

* `parity_eq_ok` — the parity of a block whose indices are in range is an integer;
* `errorCorrectCascade_eq_ok` — on two bit strings of one length the correction returns,
  with the string that `Cascade.errorCorrectCascade` computes.
-/
import QuantumVideoChat.Cascade
import QuantumVideoChat.CheckedLink

namespace Checked

open Exceptions Blocks Cascade

/-- One summand of a parity sum. -/
def addBit (bits : List PyBit) (total : ℤ) (idx : ℕ) : Py ℤ := do
  let bit ← item bits idx
  let bit ← number bit
  return total + bit

/-- `sum(bits[idx] for idx in block) % 2`. -/
def parity (bits : List PyBit) (block : List ℕ) : Py ℤ := do
  let total ← block.foldlM (addBit bits) 0
  return total % 2

/-- `_binary_search_correct`. -/
def binarySearchCorrect (alice corrected : List PyBit) (block : List ℕ) : Py (List PyBit) :=
  if h : block.length ≤ 1 then
    match block with
    | [] => .ok corrected
    | idx :: _ => do
      let bit ← item alice idx
      setItem corrected idx bit
  else do
    let mid := block.length / 2
    let aliceLeft ← parity alice (block.take mid)
    let bobLeft ← parity corrected (block.take mid)
    if aliceLeft ≠ bobLeft then
      binarySearchCorrect alice corrected (block.take mid)
    else
      binarySearchCorrect alice corrected (block.drop mid)
termination_by block.length
decreasing_by
  · rw [List.length_take]
    omega
  · rw [List.length_drop]
    omega

/-- The body of the block loop. -/
def correctBlock (alice corrected : List PyBit) (block : List ℕ) : Py (List PyBit) := do
  let aliceParity ← parity alice block
  let bobParity ← parity corrected block
  if aliceParity ≠ bobParity then binarySearchCorrect alice corrected block
  else return corrected

/-- One pass: `blockSize` is the step of the `range` over the block starts. -/
def cascadePass (perms : PassDraws) (alice : List PyBit) (initialBlockSize n : ℕ)
    (corrected : List PyBit) (pass : ℕ) : Py (List PyBit) := do
  let blockSize := min (initialBlockSize * 2 ^ pass) n
  let indices := if pass = 0 then List.range n else (perms pass n).1
  let starts ← stepRange n blockSize
  starts.foldlM (fun corrected start =>
    let blockEnd := min (start + blockSize) n
    correctBlock alice corrected ((indices.drop start).take (blockEnd - start))) corrected

/-- `_error_correct_cascade`. -/
def errorCorrectCascade (perms : PassDraws) (alice bob : List PyBit) (qber : ℚ) :
    Py (List PyBit) :=
  if alice.length = 0 then .ok []
  else if qber ≤ 0 then .ok bob
  else do
    let ratio ← divide (roundDouble (73 / 100)) (roundDouble qber)
    let initialBlockSize := (max 2 (pyInt (roundDouble ratio))).toNat
    (List.range 4).foldlM (cascadePass perms alice initialBlockSize bob.length) bob

/-! ### On bits nothing is raised -/

variable {alice corrected bits : List Bool} {block : List ℕ}

theorem sum_eq_ok (h : ∀ idx ∈ block, idx < bits.length) :
    block.foldlM (addBit (bits.map pyBit)) 0
      = .ok (((block.map fun idx => (bits.getD idx false).toNat).sum : ℕ) : ℤ) := by
  have hsum : block.foldl (fun total idx => total + (bits.getD idx false).toNat) 0
      = (block.map fun idx => (bits.getD idx false).toNat).sum := by
    rw [List.sum_eq_foldl, List.foldl_map]
  rw [← hsum]
  refine foldlM_eq_ok (fun total : ℕ => (total : ℤ)) (fun _ => True)
    (fun total _ idx hidx => ⟨?_, trivial⟩) trivial
  rw [addBit, item_map pyBit (h idx hidx) false]
  cases bits.getD idx false <;> rfl

theorem parity_eq_ok (h : ∀ idx ∈ block, idx < bits.length) :
    parity (bits.map pyBit) block = .ok (Cascade.parity bits block : ℤ) := by
  rw [parity, sum_eq_ok h, Cascade.parity]
  rfl

/-- Comparing the two parities chooses as in the total algorithm. -/
theorem compare_parities (halice : ∀ idx ∈ block, idx < alice.length)
    (hcorrected : ∀ idx ∈ block, idx < corrected.length) (x y : Py (List PyBit)) :
    (do
      let aliceParity ← parity (alice.map pyBit) block
      let bobParity ← parity (corrected.map pyBit) block
      if aliceParity ≠ bobParity then x else y)
      = if Cascade.parity alice block ≠ Cascade.parity corrected block then x else y := by
  rw [parity_eq_ok halice, parity_eq_ok hcorrected]
  refine if_congr ?_ rfl rfl
  rw [Ne, Ne, Nat.cast_inj]

theorem repair_eq_ok (hlen : alice.length = corrected.length) {idx : ℕ}
    (h : idx < corrected.length) :
    (item (alice.map pyBit) idx >>= setItem (corrected.map pyBit) idx)
      = .ok ((repair alice corrected idx).map pyBit) := by
  rw [item_map pyBit (hlen ▸ h) false]
  show setItem _ _ _ = _
  rw [setItem, if_pos (by simpa using h), repair, List.map_set]

theorem binarySearchCorrect_eq_ok (hlen : alice.length = corrected.length)
    (h : ∀ idx ∈ block, idx < corrected.length) :
    binarySearchCorrect (alice.map pyBit) (corrected.map pyBit) block
      = .ok ((Cascade.binarySearchCorrect alice corrected block).map pyBit) := by
  induction block using Cascade.binarySearchCorrect.induct alice corrected with
  | case1 =>
    rw [binarySearchCorrect, Cascade.binarySearchCorrect]
    rfl
  | case2 idx rest hshort =>
    rw [binarySearchCorrect, dif_pos hshort, Cascade.binarySearchCorrect, dif_pos hshort]
    exact repair_eq_ok hlen (h idx (by simp))
  | case3 block hlong mid hleft ih =>
    have htake : ∀ idx ∈ block.take mid, idx < corrected.length := fun idx hidx =>
      h idx (List.mem_of_mem_take hidx)
    rw [binarySearchCorrect, dif_neg hlong, Cascade.binarySearchCorrect, dif_neg hlong,
      if_pos hleft]
    refine (compare_parities (hlen ▸ htake) htake _ _).trans ?_
    rw [if_pos hleft]
    exact ih htake
  | case4 block hlong mid hleft ih =>
    have htake : ∀ idx ∈ block.take mid, idx < corrected.length := fun idx hidx =>
      h idx (List.mem_of_mem_take hidx)
    rw [binarySearchCorrect, dif_neg hlong, Cascade.binarySearchCorrect, dif_neg hlong,
      if_neg hleft]
    refine (compare_parities (hlen ▸ htake) htake _ _).trans ?_
    rw [if_neg hleft]
    exact ih fun idx hidx => h idx (List.mem_of_mem_drop hidx)

theorem correctBlock_eq_ok (hlen : alice.length = corrected.length)
    (h : ∀ idx ∈ block, idx < corrected.length) :
    correctBlock (alice.map pyBit) (corrected.map pyBit) block
      = .ok ((Cascade.correctBlock alice corrected block).map pyBit) := by
  rw [correctBlock, Cascade.correctBlock]
  refine (compare_parities (hlen ▸ h) h _ _).trans ?_
  split_ifs
  · exact binarySearchCorrect_eq_ok hlen h
  · rfl

/-- The slice from a block's start to its end is the block. -/
theorem slice_eq_blockAt {indices : List ℕ} {n : ℕ} (hn : indices.length = n) (k i : ℕ) :
    (indices.drop (i * k)).take (min (i * k + k) n - i * k) = blockAt indices k i := by
  rw [blockAt]
  refine List.take_eq_take_iff.mpr ?_
  rw [List.length_drop, hn]
  omega

theorem cascadePass_eq_ok (perms : PassDraws) (qber : ℚ) {n : ℕ} (hn : 0 < n)
    (halice : alice.length = n) (hcorrected : corrected.length = n) (pass : ℕ) :
    cascadePass perms (alice.map pyBit) (initialBlockSize qber) n (corrected.map pyBit) pass
      = .ok ((Cascade.cascadePass alice corrected (passBlocks perms qber n pass)).map
          pyBit) := by
  have hsize := passBlockSize_pos qber hn pass
  set indices := if pass = 0 then List.range n else (perms pass n).1 with hindices
  have hlen : indices.length = n := by
    rw [hindices]
    split_ifs
    · exact List.length_range
    · rw [(perms pass n).2.length_eq, List.length_range]
  have hmem : ∀ b ∈ passBlocks perms qber n pass, ∀ idx ∈ b, idx < n := fun b hb idx hidx =>
    (mem_flatten_passBlocks perms hsize).mp (List.mem_flatten.mpr ⟨b, hb, hidx⟩)
  set k := passBlockSize qber n pass with hk
  have hblocks : passBlocks perms qber n pass
      = (List.range ((n + k - 1) / k)).map (blockAt indices k) := by
    rw [passBlocks, blocks, ← hindices, hlen]
  rw [hblocks] at hmem ⊢
  have hpass : cascadePass perms (alice.map pyBit) (initialBlockSize qber) n
        (corrected.map pyBit) pass
      = stepRange n k >>= fun starts => starts.foldlM (fun corrected start =>
          correctBlock (alice.map pyBit) corrected
            ((indices.drop start).take (min (start + k) n - start))) (corrected.map pyBit) := rfl
  rw [hpass, stepRange, if_neg hsize.ne', Cascade.cascadePass, List.foldl_map]
  show List.foldlM _ _ _ = _
  rw [List.foldlM_map]
  -- every block lies within the string, whose length the corrections keep
  refine foldlM_eq_ok (List.map pyBit) (fun c : List Bool => c.length = n)
    (fun c hc i hi => ⟨?_, ?_⟩) hcorrected
  · rw [slice_eq_blockAt hlen]
    exact correctBlock_eq_ok (halice.trans hc.symm) fun idx hidx =>
      hc ▸ hmem _ (List.mem_map_of_mem hi) idx hidx
  · rw [length_correctBlock, hc]

theorem errorCorrectCascade_eq_ok (perms : PassDraws) {bob : List Bool} (qber : ℚ)
    (hlen : alice.length = bob.length) :
    errorCorrectCascade perms (alice.map pyBit) (bob.map pyBit) qber
      = .ok ((Cascade.errorCorrectCascade perms alice bob qber).map pyBit) := by
  rw [errorCorrectCascade, Cascade.errorCorrectCascade, List.length_map, List.length_map]
  split_ifs with halice hq
  · rfl
  · rfl
  · -- a positive estimate divides, and a string that is not empty has blocks
    rw [divide_eq_ok (roundDouble_pos (not_le.mp hq)).ne']
    show List.foldlM _ _ _ = _
    refine foldlM_eq_ok (List.map pyBit) (fun c : List Bool => c.length = bob.length)
      (fun c hc pass _ => ⟨?_, ?_⟩) rfl
    · exact cascadePass_eq_ok perms qber (by omega) hlen hc pass
    · rw [length_cascadePass, hc]

end Checked
