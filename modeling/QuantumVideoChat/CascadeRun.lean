/-
A whole run of error correction, block by block.

`blocksBefore` lists the blocks in the order `_error_correct_cascade` visits them; the
string after `k` of them is a snapshot of the run.

* `errorCorrectCascade_eq_afterPasses` — the output is the last snapshot;
* `differs_snapshot_mono` — an index that agreed with Alice agrees in every later one;
* `parity_afterPasses` — a pass ends with every block of its partition at equal parity;
* `only_repairs` — these together, for every pair of strings and all permutations.
-/
import QuantumVideoChat.Cascade

namespace Cascade

open Blocks

/-- A call of `_error_correct_cascade` that does correct: two strings of one length and a
positive estimate. -/
structure Reconciliation where
  perms : PassDraws
  alice : List Bool
  bob : List Bool
  qber : ℚ
  length_eq : alice.length = bob.length
  qber_pos : 0 < qber

/-- Positions at which two strings differ. -/
def disagreements (alice corrected : List Bool) : ℕ :=
  mismatches alice corrected (List.range alice.length)

namespace Reconciliation

variable (R : Reconciliation)

def n : ℕ := R.bob.length

/-- The partition of one pass. -/
def partition (pass : ℕ) : List (List ℕ) := passBlocks R.perms R.qber R.n pass

/-- The blocks of the first passes, in the order of their visits. -/
def blocksBefore (passes : ℕ) : List (List ℕ) := (List.range passes).flatMap R.partition

/-- The blocks of all four passes. -/
def visited : List (List ℕ) := R.blocksBefore 4

/-- Bob's string after the first `k` visits. -/
def snapshot (k : ℕ) : List Bool := cascadePass R.alice R.bob (R.visited.take k)

/-- Bob's string after the first passes. -/
def afterPasses (passes : ℕ) : List Bool := cascadePass R.alice R.bob (R.blocksBefore passes)

def output : List Bool := errorCorrectCascade R.perms R.alice R.bob R.qber

theorem afterPasses_succ (passes : ℕ) :
    R.afterPasses (passes + 1)
      = cascadePass R.alice (R.afterPasses passes) (R.partition passes) := by
  rw [afterPasses, blocksBefore, List.range_succ, List.flatMap_append, List.flatMap_singleton,
    cascadePass, List.foldl_append]
  rfl

theorem afterPasses_eq_foldl (passes : ℕ) :
    R.afterPasses passes
      = (List.range passes).foldl
          (fun corrected pass => cascadePass R.alice corrected (R.partition pass)) R.bob := by
  induction passes with
  | zero => rfl
  | succ passes ih => rw [afterPasses_succ, ih, List.range_succ, List.foldl_append]; rfl

/-- The end of a pass is one of the snapshots. -/
theorem afterPasses_eq_snapshot {passes : ℕ} (h : passes ≤ 4) :
    R.afterPasses passes = R.snapshot (R.blocksBefore passes).length := by
  obtain ⟨later, hlater⟩ := Nat.exists_eq_add_of_le h
  have hsplit : R.visited
      = R.blocksBefore passes ++ (List.range later).flatMap fun k => R.partition (passes + k) := by
    rw [visited, hlater, blocksBefore, List.range_add, List.flatMap_append, List.flatMap_map,
      blocksBefore]
  rw [snapshot, hsplit, List.take_left]
  rfl

/-- The output is the string after all visits. -/
theorem output_eq_afterPasses : R.output = R.afterPasses 4 := by
  rw [afterPasses_eq_foldl, output, errorCorrectCascade, if_neg (not_le.mpr R.qber_pos)]
  by_cases halice : R.alice.length = 0
  · -- on the empty string the loops would change nothing either
    have hbob : R.bob = [] := List.length_eq_zero_iff.mp (R.length_eq ▸ halice)
    have hnil : (R.afterPasses 4).length = 0 := by
      rw [afterPasses, length_cascadePass, hbob, List.length_nil]
    rw [if_pos halice, ← afterPasses_eq_foldl, List.length_eq_zero_iff.mp hnil]
  · rw [if_neg halice]
    rfl

theorem length_snapshot (k : ℕ) : R.alice.length = (R.snapshot k).length := by
  rw [snapshot, length_cascadePass, R.length_eq]

theorem length_afterPasses (passes : ℕ) : R.alice.length = (R.afterPasses passes).length := by
  rw [afterPasses, length_cascadePass, R.length_eq]

/-! ### From one snapshot to the next -/

theorem snapshot_succ {k : ℕ} (h : k < R.visited.length) :
    R.snapshot (k + 1) = correctBlock R.alice (R.snapshot k) R.visited[k] := by
  rw [snapshot, List.take_succ_eq_append_getElem h, cascadePass, List.foldl_append]
  rfl

theorem snapshot_of_length_le {k : ℕ} (h : R.visited.length ≤ k) :
    R.snapshot (k + 1) = R.snapshot k := by
  rw [snapshot, snapshot, List.take_of_length_le h, List.take_of_length_le (by omega)]

/-- One visit never spoils an index. -/
theorem differs_correctBlock {alice corrected : List Bool}
    (hlen : alice.length = corrected.length) {block : List ℕ} {idx : ℕ}
    (h : differs alice (correctBlock alice corrected block) idx = true) :
    differs alice corrected idx = true := by
  rcases correctBlock_cases alice corrected block with ⟨-, heq⟩ | ⟨-, i, -, -, heq⟩
  · rwa [heq] at h
  · rw [heq, differs_repair hlen, Bool.and_eq_true] at h
    exact h.1

theorem differs_snapshot_succ {k idx : ℕ}
    (h : differs R.alice (R.snapshot (k + 1)) idx = true) :
    differs R.alice (R.snapshot k) idx = true := by
  by_cases hk : k < R.visited.length
  · rw [R.snapshot_succ hk] at h
    exact differs_correctBlock (R.length_snapshot k) h
  · rwa [R.snapshot_of_length_le (not_lt.mp hk)] at h

/-- What differs in a snapshot differed in all earlier ones. -/
theorem differs_snapshot_mono {k k' : ℕ} (hk : k ≤ k') {idx : ℕ}
    (h : differs R.alice (R.snapshot k') idx = true) :
    differs R.alice (R.snapshot k) idx = true := by
  induction hk with
  | refl => exact h
  | step _ ih => exact ih (R.differs_snapshot_succ h)

theorem disagreements_snapshot_antitone {k k' : ℕ} (hk : k ≤ k') :
    disagreements R.alice (R.snapshot k') ≤ disagreements R.alice (R.snapshot k) :=
  List.countP_mono_left fun _ _ h => R.differs_snapshot_mono hk h

/-- A visit writes Alice's bit or nothing. -/
theorem getElem?_correctBlock {alice corrected : List Bool}
    (hlen : alice.length = corrected.length) (block : List ℕ) (idx : ℕ) :
    (correctBlock alice corrected block)[idx]? = alice[idx]? ∨
      (correctBlock alice corrected block)[idx]? = corrected[idx]? := by
  rcases correctBlock_cases alice corrected block with ⟨-, heq⟩ | ⟨-, i, -, -, heq⟩
  · exact .inr (by rw [heq])
  · rw [heq, repair]
    by_cases hi : i = idx
    · subst hi
      by_cases hlt : i < corrected.length
      · left
        rw [List.getElem?_set_self hlt, List.getD_eq_getElem _ _ (hlen ▸ hlt),
          List.getElem?_eq_getElem (hlen ▸ hlt)]
      · right
        rw [List.getElem?_eq_none (by rw [List.length_set]; omega),
          List.getElem?_eq_none (by omega)]
    · exact .inr (List.getElem?_set_ne hi)

theorem getElem?_snapshot (k idx : ℕ) :
    (R.snapshot k)[idx]? = R.alice[idx]? ∨ (R.snapshot k)[idx]? = R.bob[idx]? := by
  induction k with
  | zero => exact .inr rfl
  | succ k ih =>
    by_cases hk : k < R.visited.length
    · rw [R.snapshot_succ hk]
      rcases getElem?_correctBlock (R.length_snapshot k) R.visited[k] idx with h | h
      · exact .inl h
      · rw [h]
        exact ih
    · rw [R.snapshot_of_length_le (not_lt.mp hk)]
      exact ih

/-! ### Partitions -/

theorem partition_of_n_eq_zero (h : R.n = 0) (pass : ℕ) {block : List ℕ}
    (hb : block ∈ R.partition pass) : block = [] := by
  have hsize : passBlockSize R.qber R.n pass = 0 := by rw [passBlockSize, h, Nat.min_zero]
  obtain ⟨i, -, rfl⟩ := mem_blocks.mp hb
  rw [blockAt, hsize, List.take_zero]

/-- A pass ends with every block of its partition at equal parity. -/
theorem parity_afterPasses {pass : ℕ} {block : List ℕ} (hb : block ∈ R.partition pass) :
    parity R.alice block = parity (R.afterPasses (pass + 1)) block := by
  by_contra hne
  have hodd := (parity_ne_iff block).mp hne
  by_cases h : R.n = 0
  · rw [R.partition_of_n_eq_zero h pass hb] at hodd
    simp [mismatches] at hodd
  · have hflat := nodup_flatten_passBlocks R.perms
      (passBlockSize_pos R.qber (Nat.pos_of_ne_zero h) pass)
    have hcount := cascadePass_mismatches (R.length_afterPasses pass) hflat block hb
    rw [R.afterPasses_succ] at hodd
    change mismatches R.alice (cascadePass R.alice (R.afterPasses pass) (R.partition pass)) block
      = _ at hcount
    omega

/-- A single disagreement is never in company. -/
theorem correctable_of_disagreements_le_one (h : disagreements R.alice R.bob ≤ 1) :
    Correctable R.alice R.bob R.qber := by
  rw [Correctable, if_neg (not_le.mpr R.qber_pos)]
  intro b hb
  rw [disagreements, R.length_eq] at h
  by_cases hn : R.bob.length = 0
  · obtain rfl := R.partition_of_n_eq_zero hn 0 hb
    exact Nat.zero_le _
  · have hflat := blocks_flatten (List.range R.bob.length)
      (passBlockSize_pos R.qber (Nat.pos_of_ne_zero hn) 0)
    rw [← hflat] at h
    exact ((List.sublist_flatten_of_mem hb).countP_le).trans h

/-! ### The whole run -/

/-- **Cascade only ever repairs.**  The run goes from Bob's string to the output by visits.
Every bit is Alice's or Bob's and an agreement is never lost; a visit to a block of unequal
parity removes one disagreement, in that block; a pass leaves its own blocks at equal
parity; and a single disagreement is always found. -/
theorem only_repairs :
    (R.snapshot 0 = R.bob ∧ R.snapshot R.visited.length = R.output ∧
      ∀ pass ≤ 4, R.afterPasses pass = R.snapshot (R.blocksBefore pass).length) ∧
    ((∀ k idx : ℕ, (R.snapshot k)[idx]? = R.alice[idx]? ∨ (R.snapshot k)[idx]? = R.bob[idx]?) ∧
      ∀ k k' : ℕ, k ≤ k' →
        (∀ idx, differs R.alice (R.snapshot k) idx = false →
          differs R.alice (R.snapshot k') idx = false) ∧
        disagreements R.alice (R.snapshot k') ≤ disagreements R.alice (R.snapshot k)) ∧
    (∀ (k : ℕ) (hk : k < R.visited.length),
      parity R.alice R.visited[k] ≠ parity (R.snapshot k) R.visited[k] →
        disagreements R.alice (R.snapshot (k + 1)) + 1
          = disagreements R.alice (R.snapshot k) ∧
        ∃ idx ∈ R.visited[k], differs R.alice (R.snapshot k) idx = true ∧
          ∀ j, differs R.alice (R.snapshot (k + 1)) j
            = (differs R.alice (R.snapshot k) j && decide (j ≠ idx))) ∧
    (∀ pass < 4, ∀ block ∈ R.partition pass,
      parity R.alice block = parity (R.afterPasses (pass + 1)) block) ∧
    (disagreements R.alice R.bob ≤ 1 → R.output = R.alice) := by
  refine ⟨⟨rfl, ?_, fun pass h => R.afterPasses_eq_snapshot h⟩,
    ⟨R.getElem?_snapshot, fun k k' hk => ⟨fun idx h => ?_, R.disagreements_snapshot_antitone hk⟩⟩,
    fun k hk hne => ?_, fun pass _ block hb => R.parity_afterPasses hb, fun h => ?_⟩
  · rw [output_eq_afterPasses, R.afterPasses_eq_snapshot (le_refl 4)]
    rfl
  · -- contrapositive of the persistence of differences backwards
    rw [← Bool.not_eq_true] at h ⊢
    exact fun h' => h (R.differs_snapshot_mono hk h')
  · rcases correctBlock_cases R.alice (R.snapshot k) R.visited[k] with
      ⟨heven, -⟩ | ⟨-, idx, hmem, hd, heq⟩
    · exact absurd ((parity_ne_iff _).mp hne) (by omega)
    · rw [R.snapshot_succ hk, heq]
      refine ⟨?_, idx, hmem, hd, differs_repair (R.length_snapshot k) idx⟩
      -- a differing index is in range, so it counts among all positions
      have hlt : idx < R.alice.length := by
        by_contra hge
        have ha : R.alice[idx]? = none := List.getElem?_eq_none (by omega)
        have hc : (R.snapshot k)[idx]? = none :=
          List.getElem?_eq_none (by rw [← R.length_snapshot]; omega)
        simp [differs, List.getD_eq_getElem?_getD, ha, hc] at hd
      exact mismatches_repair (R.length_snapshot k) List.nodup_range (List.mem_range.mpr hlt) hd
  · exact errorCorrectCascade_of_correctable R.length_eq
      (R.correctable_of_disagreements_le_one h) R.perms

end Reconciliation

/-- Nine bits of which the last one arrived wrong; the later passes take them backwards. -/
def lateError : Reconciliation where
  perms _ n := ⟨(List.range n).reverse, List.reverse_perm _⟩
  alice := [true, false, true, true, false, false, true, false, true]
  bob := [true, false, true, true, false, false, true, false, false]
  qber := 1 / 4
  length_eq := rfl
  qber_pos := by norm_num

/-- The last of the five first blocks has an odd number of errors; visiting it repairs the
string. -/
theorem only_repairs_lateError :
    lateError.bob ≠ lateError.alice ∧
      disagreements lateError.alice (lateError.snapshot 5) + 1
        = disagreements lateError.alice (lateError.snapshot 4) ∧
      lateError.output = lateError.alice :=
  ⟨by decide, (lateError.only_repairs.2.2.1 4 (by decide +kernel) (by decide +kernel)).1,
    lateError.only_repairs.2.2.2.2 (by decide +kernel)⟩

end Cascade
