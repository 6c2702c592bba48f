/-
Runs of the file key generator (`FileKeyGenerator.generate_key`).

The file position is where the last read ended.  `served` lists, for each successful call of
a run, the slice of the file its key is, and whether the call had to start over.

* `generateKey_too_large` — a call for more bytes than there are fails and ends at the end of
  the file;
* `generateKey_fits` — any other call succeeds, from the position on or from the beginning;
* `file_keys_exact` — both along every run, and the keys between two restarts.
-/
import QuantumVideoChat.KeyGenerators

namespace Encryption.FileKeyGenerator

variable (G : FileKeyGenerator)

/-- `f.tell()`, or 0 when the file has not been opened. -/
def position : ℕ := G.file.getD 0

/-- Where a call for `b` bytes reads its key. -/
def startOf (b : ℕ) : ℕ := if G.position + b ≤ G.content.length then G.position else 0

/-- More bytes than the file holds: both reads come short, and the call raises. -/
theorem generateKey_too_large {keyLength : ℕ} (hk : keyLength ≠ 0)
    (h : G.content.length < numBytes keyLength) :
    G.generateKey keyLength
      = ({ G with keyLength := keyLength, file := some G.content.length },
        some (.runtimeError (s!"Key file too small: need {numBytes keyLength} bytes, got " ++
          toString G.content.length))) := by
  have hshort : (read G.content (G.file.getD 0) (numBytes keyLength)).length
      < numBytes keyLength := by
    rw [length_read]
    omega
  have hall : (read G.content 0 (numBytes keyLength)).length = G.content.length := by
    rw [length_read, Nat.sub_zero, min_eq_right h.le]
  simp only [generateKey, requestedLength_of_ne_zero _ hk, if_pos hshort, hall, if_pos h]

theorem generateKey_fits {keyLength : ℕ} (hk : keyLength ≠ 0)
    (hfit : numBytes keyLength ≤ G.content.length) :
    G.generateKey keyLength = ({ G with
      key := read G.content (G.startOf (numBytes keyLength)) (numBytes keyLength)
      keyLength := keyLength
      file := some (G.startOf (numBytes keyLength) + numBytes keyLength) }, none) := by
  rw [startOf]
  split_ifs with h
  · exact G.generateKey_ahead hk h
  · rw [G.generateKey_restart hk hfit (not_le.mp h), Nat.zero_add]

theorem length_read_startOf {b : ℕ} (hfit : b ≤ G.content.length) :
    (read G.content (G.startOf b) b).length = b := by
  rw [length_read, startOf]
  split_ifs <;> omega

theorem startOf_add_le {b : ℕ} (hfit : b ≤ G.content.length) :
    G.startOf b + b ≤ G.content.length := by
  rw [startOf]
  split_ifs <;> omega

/-- No call changes what the file holds. -/
theorem generateKey_content (keyLength : ℕ) :
    (G.generateKey keyLength).1.content = G.content := by
  rw [generateKey]
  cases requestedLength G.keyLength keyLength with
  | error e => rfl
  | ok length =>
    dsimp only
    split_ifs <;> rfl

/-! ### Runs -/

/-- The generator after calls for `keyLengths`. -/
def afterCalls (keyLengths : List ℕ) : FileKeyGenerator :=
  keyLengths.foldl (fun G keyLength => (G.generateKey keyLength).1) G

/-- A key of a run: the slice `[start, stop)` of the file, and whether the call went back to
the beginning for it. -/
structure ServedKey where
  start : ℕ
  stop : ℕ
  restarted : Bool
  key : Bytes
  deriving DecidableEq

/-- The keys of the successful calls, in order. -/
def served (G : FileKeyGenerator) : List ℕ → List ServedKey
  | [] => []
  | keyLength :: keyLengths =>
    match G.generateKey keyLength with
    | (G', some _) => served G' keyLengths
    | (G', none) =>
      -- the last read of the call was for the key, so it ends where the file stands now
      let start := G'.position - G'.key.length
      ⟨start, G'.position, decide (start ≠ G.position), G'.key⟩ :: served G' keyLengths

theorem afterCalls_content (keyLengths : List ℕ) :
    (G.afterCalls keyLengths).content = G.content := by
  induction keyLengths generalizing G with
  | nil => rfl
  | cons keyLength keyLengths ih =>
    exact (ih (G.generateKey keyLength).1).trans (G.generateKey_content keyLength)

variable {G} {keyLengths : List ℕ}

/-- What a call adds to the keys of a run. -/
theorem served_cons (G : FileKeyGenerator) (keyLengths : List ℕ) {keyLength : ℕ}
    (hk : keyLength ≠ 0) :
    (G.content.length < numBytes keyLength ∧
      G.served (keyLength :: keyLengths)
        = (G.generateKey keyLength).1.served keyLengths) ∨
    (numBytes keyLength ≤ G.content.length ∧
      G.served (keyLength :: keyLengths)
        = ⟨G.startOf (numBytes keyLength), G.startOf (numBytes keyLength) + numBytes keyLength,
            decide (G.startOf (numBytes keyLength) ≠ G.position),
            read G.content (G.startOf (numBytes keyLength)) (numBytes keyLength)⟩ ::
          (G.generateKey keyLength).1.served keyLengths) := by
  rcases Nat.lt_or_ge G.content.length (numBytes keyLength) with hlarge | hfit
  · exact .inl ⟨hlarge, by rw [served, G.generateKey_too_large hk hlarge]⟩
  · refine .inr ⟨hfit, ?_⟩
    rw [served, G.generateKey_fits hk hfit]
    simp only [position, Option.getD_some, G.length_read_startOf hfit, Nat.add_sub_cancel]
    trivial

theorem position_generateKey {keyLength : ℕ} (hk : keyLength ≠ 0) :
    (G.generateKey keyLength).1.position
      = if numBytes keyLength ≤ G.content.length then
          G.startOf (numBytes keyLength) + numBytes keyLength
        else G.content.length := by
  split_ifs with hfit
  · rw [G.generateKey_fits hk hfit]
    rfl
  · rw [G.generateKey_too_large hk (not_le.mp hfit)]
    rfl

/-- A served key is its slice of the file. -/
theorem served_exact (hks : ∀ k ∈ keyLengths, k ≠ 0) :
    ∀ s ∈ G.served keyLengths, s.start ≤ s.stop ∧ s.stop ≤ G.content.length ∧
      s.key = read G.content s.start (s.stop - s.start) := by
  induction keyLengths generalizing G with
  | nil => exact fun s hs => absurd hs List.not_mem_nil
  | cons keyLength keyLengths ih =>
    have hk := hks keyLength List.mem_cons_self
    have hrest := ih (G := (G.generateKey keyLength).1)
      fun k hmem => hks k (List.mem_cons_of_mem _ hmem)
    rw [G.generateKey_content] at hrest
    rcases served_cons G keyLengths hk with ⟨-, heq⟩ | ⟨hfit, heq⟩
    · rw [heq]
      exact hrest
    · rw [heq]
      intro s hs
      rcases List.mem_cons.mp hs with rfl | hs
      · refine ⟨Nat.le_add_right _ _, ?_, ?_⟩
        · exact G.startOf_add_le hfit
        · rw [Nat.add_sub_cancel_left]
      · exact hrest s hs

theorem position_generateKey_le {keyLength : ℕ} (hk : keyLength ≠ 0) :
    (G.generateKey keyLength).1.position ≤ (G.generateKey keyLength).1.content.length := by
  rw [position_generateKey hk, G.generateKey_content]
  split_ifs with hfit
  · exact G.startOf_add_le hfit
  · exact le_rfl

/-- Up to the first restart the keys lie behind the position. -/
theorem position_le_start (hG : G.position ≤ G.content.length)
    (hks : ∀ k ∈ keyLengths, k ≠ 0) {j : ℕ} {t : ServedKey}
    (ht : (G.served keyLengths)[j]? = some t)
    (hstraight : ∀ m r, m ≤ j → (G.served keyLengths)[m]? = some r → r.restarted = false) :
    G.position ≤ t.start := by
  induction keyLengths generalizing G j with
  | nil => exact absurd ht (by simp [served])
  | cons keyLength keyLengths ih =>
    have hk := hks keyLength List.mem_cons_self
    have hks' : ∀ k ∈ keyLengths, k ≠ 0 := fun k hmem => hks k (List.mem_cons_of_mem _ hmem)
    have hpos := position_generateKey (G := G) hk
    have hG' := position_generateKey_le (G := G) hk
    rcases served_cons G keyLengths hk with ⟨hlarge, heq⟩ | ⟨hfit, heq⟩
    · -- a failed call leaves the position at the end of the file
      rw [heq] at ht hstraight
      rw [if_neg (not_le.mpr hlarge)] at hpos
      have hrest := ih hG' hks' ht hstraight
      omega
    · rw [heq] at ht hstraight
      rw [if_pos hfit] at hpos
      -- the key of this call starts where the previous read ended
      have hfirst := hstraight 0 _ (Nat.zero_le j) List.getElem?_cons_zero
      have hstart : G.startOf (numBytes keyLength) = G.position := by simpa using hfirst
      cases j with
      | zero =>
        rw [List.getElem?_cons_zero, Option.some_inj] at ht
        rw [← ht, hstart]
      | succ j =>
        rw [List.getElem?_cons_succ] at ht
        have hrest := ih hG' hks' ht fun m r hm hr =>
          hstraight (m + 1) r (Nat.succ_le_succ hm) (by rwa [List.getElem?_cons_succ])
        omega

/-- Between two restarts the keys are disjoint slices in increasing order. -/
theorem stop_le_start (hks : ∀ k ∈ keyLengths, k ≠ 0) {i j : ℕ} {s t : ServedKey} (hij : i < j)
    (hs : (G.served keyLengths)[i]? = some s) (ht : (G.served keyLengths)[j]? = some t)
    (hstraight : ∀ m r, i < m → m ≤ j → (G.served keyLengths)[m]? = some r →
      r.restarted = false) :
    s.stop ≤ t.start := by
  induction keyLengths generalizing G i j with
  | nil => exact absurd ht (by simp [served])
  | cons keyLength keyLengths ih =>
    have hk := hks keyLength List.mem_cons_self
    have hks' : ∀ k ∈ keyLengths, k ≠ 0 := fun k hmem => hks k (List.mem_cons_of_mem _ hmem)
    rcases served_cons G keyLengths hk with ⟨-, heq⟩ | ⟨hfit, heq⟩
    · rw [heq] at hs ht hstraight
      exact ih hks' hij hs ht hstraight
    · rw [heq] at hs ht hstraight
      obtain ⟨j, rfl⟩ := Nat.exists_eq_succ_of_ne_zero (Nat.ne_of_gt (Nat.zero_lt_of_lt hij))
      rw [List.getElem?_cons_succ] at ht
      cases i with
      | zero =>
        -- the rest of the run starts at the end of this key
        rw [List.getElem?_cons_zero, Option.some_inj] at hs
        have hpos := position_generateKey (G := G) hk
        rw [if_pos hfit] at hpos
        rw [← hs, ← hpos]
        exact position_le_start (position_generateKey_le hk) hks' ht fun m r hm hr =>
          hstraight (m + 1) r m.succ_pos (Nat.succ_le_succ hm) (by rwa [List.getElem?_cons_succ])
      | succ i =>
        rw [List.getElem?_cons_succ] at hs
        exact ih hks' (Nat.lt_of_succ_lt_succ hij) hs ht fun m r him hm hr =>
          hstraight (m + 1) r (Nat.succ_lt_succ him) (Nat.succ_le_succ hm)
            (by rwa [List.getElem?_cons_succ])

/-- **Keys from the file.**  Whatever was read before, a call for `b` bytes gets the `b` bytes
behind the last read, or the first `b` bytes of the file when there are fewer, and it raises
and keeps the key when the file is too short.  Between two restarts no byte is used twice. -/
theorem file_keys_exact (content : Bytes) (stored : ℕ) (keyLengths : List ℕ)
    (hks : ∀ k ∈ keyLengths, k ≠ 0) :
    let fresh : FileKeyGenerator := { content := content, keyLength := stored }
    let G := fresh.afterCalls keyLengths
    (∀ keyLength, keyLength ≠ 0 → numBytes keyLength ≤ content.length →
      (G.generateKey keyLength).2 = none ∧
        (G.generateKey keyLength).1.key
          = read content (G.startOf (numBytes keyLength)) (numBytes keyLength) ∧
        (G.generateKey keyLength).1.key.length = numBytes keyLength ∧
        G.startOf (numBytes keyLength)
          = (if G.position + numBytes keyLength ≤ content.length then G.position else 0) ∧
        (G.generateKey keyLength).1.position
          = G.startOf (numBytes keyLength) + numBytes keyLength) ∧
      (∀ keyLength, keyLength ≠ 0 → content.length < numBytes keyLength →
        (∃ e, (G.generateKey keyLength).2 = some e) ∧
          (G.generateKey keyLength).1.key = G.key ∧
          (G.generateKey keyLength).1.position = content.length) ∧
      (∀ s ∈ fresh.served keyLengths, s.start ≤ s.stop ∧ s.stop ≤ content.length ∧
        s.key = read content s.start (s.stop - s.start)) ∧
      ∀ (i j : ℕ) (s t : ServedKey), i < j → (fresh.served keyLengths)[i]? = some s →
        (fresh.served keyLengths)[j]? = some t →
        (∀ (m : ℕ) (r : ServedKey), i < m → m ≤ j → (fresh.served keyLengths)[m]? = some r →
          r.restarted = false) → s.stop ≤ t.start := by
  dsimp only
  set fresh : FileKeyGenerator := { content := content, keyLength := stored } with hfresh
  set G := fresh.afterCalls keyLengths with hG
  have hcontent : G.content = content := fresh.afterCalls_content keyLengths
  refine ⟨fun k hk hfit => ?_, fun k hk hlarge => ?_, served_exact hks,
    fun i j s t hij hs ht hstraight => stop_le_start hks hij hs ht hstraight⟩
  · rw [← hcontent] at hfit ⊢
    have hlength := G.length_read_startOf hfit
    rw [G.generateKey_fits hk hfit]
    exact ⟨rfl, rfl, hlength, rfl, rfl⟩
  · rw [← hcontent] at hlarge ⊢
    rw [G.generateKey_too_large hk hlarge]
    exact ⟨⟨_, rfl⟩, rfl, rfl⟩

/-- A file of three bytes: two keys of one byte, a key of two bytes that starts over. -/
theorem file_keys_exact_three :
    (({ content := [7, 8, 9] } : FileKeyGenerator).afterCalls [8, 8]).generateKey 16
      = ({ content := [7, 8, 9], key := [7, 8], keyLength := 16, file := some 2 }, none) ∧
    ((({ content := [7, 8, 9] } : FileKeyGenerator).afterCalls [8, 8]).generateKey 16).1.key.length
      = 2 :=
  ⟨by rfl, ((file_keys_exact [7, 8, 9] 0 [8, 8] (by decide)).1 16 (by decide)
    (by decide)).2.2.1⟩

end Encryption.FileKeyGenerator
