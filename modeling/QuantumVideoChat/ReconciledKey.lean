/-
How secret the key is after error correction (`shared/bb84/protocol.py`,
`_error_correct_cascade` and `_privacy_amplify`).

Alice's string is one of many candidates, Bob's differs from it where the channel made errors.
Whoever listens to the correction hears parities, and after that the random bits of the hash.

* `corrected_eq` — the errors alone decide which bits the correction leaves wrong;
* `card_image_announced_le` — a listener can be told `2 ^ announcements` things at most;
* `key_nearly_uniform_despite_parities` — so every parity costs one bit of the key.
-/
import QuantumVideoChat.KeySecrecy
import QuantumVideoChat.ParityDialogue

namespace KeySecrecy

open BitUtils Protocol Cascade Finset UniversalHash

/-- The correction of a string of `n` bits: where the errors are, the estimate and the draws. -/
structure Correction (n : ℕ) where
  perms : PassDraws
  qber : ℚ
  errors : Fin n → Bool

namespace Correction

variable {n m : ℕ} (C : Correction n)

/-- Bob's string, when Alice's is `x`. -/
def received (x : Fin n → Bool) : List Bool := List.ofFn fun i => x i ^^ C.errors i

def corrected (x : Fin n → Bool) : List Bool :=
  errorCorrectCascade C.perms (List.ofFn x) (C.received x) C.qber

/-- The parities that Alice announces. -/
def announced (x : Fin n → Bool) : List ℕ :=
  (Bob.correct C.perms (C.received x) C.qber).answers (parity (List.ofFn x))

/-- How many they are. -/
def announcements : ℕ := (C.announced fun _ => false).length

/-- The bits that stay wrong. -/
def residual (i : Fin n) : Bool :=
  differs (List.ofFn fun _ : Fin n => false) (C.corrected fun _ => false) i

/-! ### The errors decide -/

theorem length_received (x : Fin n → Bool) : (List.ofFn x).length = (C.received x).length := by
  rw [received, List.length_ofFn, List.length_ofFn]

theorem getD_ofFn (x : Fin n → Bool) (i : Fin n) : (List.ofFn x).getD i false = x i := by
  rw [List.getD_eq_getElem _ _ (by rw [List.length_ofFn]; exact i.isLt), List.getElem_ofFn]

theorem differs_received (x : Fin n → Bool) (j : ℕ) :
    differs (List.ofFn x) (C.received x) j = (List.ofFn C.errors).getD j false := by
  by_cases hj : j < n
  · have hx := getD_ofFn x ⟨j, hj⟩
    have hb := getD_ofFn (fun i => x i ^^ C.errors i) ⟨j, hj⟩
    have he := getD_ofFn C.errors ⟨j, hj⟩
    rw [differs, received, hx, hb, he]
    cases x ⟨j, hj⟩ <;> cases C.errors ⟨j, hj⟩ <;> rfl
  · have hout : ∀ y : Fin n → Bool, (List.ofFn y).getD j false = false := fun y =>
      List.getD_eq_default _ _ (by rw [List.length_ofFn]; omega)
    rw [differs, received, hout, hout, hout]
    rfl

theorem samePattern (x y : Fin n → Bool) :
    SamePattern (List.ofFn x) (C.received x) (List.ofFn y) (C.received y) where
  length_eq := C.length_received x
  length_eq' := C.length_received y
  same j := by rw [differs_received, differs_received]

theorem samePattern_correct (x y : Fin n → Bool) :
    (Bob.correct C.perms (C.received x) C.qber).asked (parity (List.ofFn x))
        = (Bob.correct C.perms (C.received y) C.qber).asked (parity (List.ofFn y)) ∧
      SamePattern (List.ofFn x) (C.corrected x) (List.ofFn y) (C.corrected y) :=
  (C.samePattern x y).correct C.perms C.qber (by rw [← length_received, ← length_received,
    List.length_ofFn, List.length_ofFn])

theorem length_announced (x : Fin n → Bool) : (C.announced x).length = C.announcements := by
  rw [announcements, announced, announced, Dialogue.answers, Dialogue.answers, List.length_map,
    List.length_map, (C.samePattern_correct x fun _ => false).1]

theorem corrected_eq (x : Fin n → Bool) :
    C.corrected x = List.ofFn fun i => x i ^^ C.residual i := by
  obtain ⟨-, hsame⟩ := C.samePattern_correct x fun _ => false
  refine List.ext_getElem (by rw [← hsame.length_eq, List.length_ofFn, List.length_ofFn])
    fun i h1 h2 => ?_
  have hi : i < n := by rwa [List.length_ofFn] at h2
  have hdiffers : differs (List.ofFn x) (C.corrected x) i = C.residual ⟨i, hi⟩ := hsame.same i
  rw [differs, getD_ofFn x ⟨i, hi⟩, List.getD_eq_getElem _ _ h1] at hdiffers
  rw [List.getElem_ofFn, ← hdiffers]
  cases x ⟨i, hi⟩ <;> cases (C.corrected x)[i] <;> rfl

theorem flip_injective : Function.Injective fun (x : Fin n → Bool) i => x i ^^ C.residual i :=
  fun _ _ h => funext fun i => Bool.xor_left_inj.mp (congrFun h i)

theorem card_image_announced_le (S : Finset (Fin n → Bool)) :
    #(S.image C.announced) ≤ 2 ^ C.announcements := by
  have hsub : S.image C.announced
      ⊆ univ.image fun b : Fin C.announcements → Bool => List.ofFn fun i => (b i).toNat := by
    intro t ht
    obtain ⟨x, -, rfl⟩ := mem_image.mp ht
    have hbit : ∀ p ∈ C.announced x, p < 2 := by
      intro p hp
      obtain ⟨block, -, rfl⟩ := List.mem_map.mp hp
      exact Nat.mod_lt _ (by decide)
    refine mem_image.mpr ⟨fun i => (C.announced x).getD i 0 = 1, mem_univ _, ?_⟩
    refine List.ext_getElem (by rw [List.length_ofFn, length_announced]) fun i h1 h2 => ?_
    rw [List.getElem_ofFn]
    change (decide ((C.announced x).getD i 0 = 1)).toNat = _
    rw [List.getD_eq_getElem _ _ h2]
    have hlt := hbit _ (List.getElem_mem h2)
    interval_cases (C.announced x)[i] <;> rfl
  refine (card_le_card hsub).trans (card_image_le.trans_eq ?_)
  rw [card_univ, Fintype.card_pi_const, Fintype.card_bool]

/-! ### The distance -/

section

variable (h : ℚ → ℚ) (targetLength : ℤ) (S : Finset (Fin n → Bool))

/-- How likely the parities and the key are together, for strings of Alice's among `S` that are
all as likely. -/
def jointLikelihood (r : Fin (n + m - 1) → Bool) (t : List ℕ) (key : Bytes) : ℚ :=
  #{x ∈ S | C.announced x = t ∧
    privacyAmplify h (drawOf r) (C.corrected x) C.qber targetLength = some key} / #S

/-- The distance of the parities and the key from the parities and a random string of `m` bits,
averaged over the random bits of the hash. -/
def averageJointDistance (m : ℕ) : ℚ :=
  (∑ r : Fin (n + m - 1) → Bool, ∑ t ∈ S.image C.announced, ∑ key ∈ keys m,
      |C.jointLikelihood h targetLength S r t key - #{x ∈ S | C.announced x = t} / #S / 2 ^ m|)
    / 2 ^ (n + m - 1)

variable {h targetLength}

theorem averageJointDistance_eq (hn : 1 ≤ n) (hm : 1 ≤ m)
    (hlength : min (maxSecureBits h n C.qber) targetLength = m) :
    C.averageJointDistance h targetLength S m
      = (∑ r, jointDeviation (fun r x => hashBits n m r fun i => x i ^^ C.residual i) S
          C.announced r) / 2 ^ (n + m - 1) := by
  rw [averageJointDistance]
  congr 1
  refine sum_congr rfl fun r _ => sum_congr rfl fun t _ => ?_
  rw [keys, sum_image fun k _ k' _ heq => packed_injective m heq]
  refine sum_congr rfl fun k _ => ?_
  have hkey : ∀ x, (privacyAmplify h (drawOf r) (C.corrected x) C.qber targetLength
      = some (bitsToBytes (List.ofFn k))) ↔ hashBits n m r (fun i => x i ^^ C.residual i) = k :=
    fun x => by
      rw [corrected_eq, privacyAmplify_ofFn hn hm hlength, Option.some_inj]
      exact (packed_injective m).eq_iff
  simp only [jointLikelihood, hkey, Fintype.card_pi_const, Fintype.card_bool, Nat.cast_pow,
    Nat.cast_ofNat]

end

end Correction

/-- **The price of error correction.**  Alice's string is one of those in `S`, all as likely, and
there are `2 ^ 64` of them for each key and each sequence of answers.  To somebody who hears the
answers the key is still a random one, up to a distance of `2 ^ (-32)` on average over the random
bits of the hash. -/
theorem key_nearly_uniform_despite_parities (h : ℚ → ℚ) (targetLength : ℤ) {n : ℕ} (m : ℕ)
    (C : Correction n) (hn : 1 ≤ n) (hm : 1 ≤ m)
    (hlength : min (maxSecureBits h n C.qber) targetLength = m) (S : Finset (Fin n → Bool))
    (hS : 2 ^ (m + securityParameter.toNat + C.announcements) ≤ #S) :
    C.averageJointDistance h targetLength S m ≤ 1 / 2 ^ 32 := by
  have hnonempty : S.Nonempty := card_pos.mp (lt_of_lt_of_le (by positivity) hS)
  have hleftover := sq_sum_jointDeviation_le (g := C.announced)
    ((toeplitz_isTwoUniversal n m).comp_injective C.flip_injective) hnonempty
  simp only [Fintype.card_pi_const, Fintype.card_bool, Nat.cast_pow, Nat.cast_ofNat] at hleftover
  have htold : (#(S.image C.announced) : ℚ) ≤ 2 ^ C.announcements := by
    exact_mod_cast C.card_image_announced_le S
  have hcandidates : (2 : ℚ) ^ m * 2 ^ C.announcements * 2 ^ 64 ≤ #S := by
    rw [← pow_add, ← pow_add, Nat.add_right_comm]
    exact_mod_cast hS
  rw [C.averageJointDistance_eq S hn hm hlength]
  refine average_le (by positivity) (by exact_mod_cast hnonempty.card_pos)
    (hleftover.trans ?_) hcandidates
  rw [mul_assoc]
  gcongr

/-- 61 bits of 150, with one error among them and an estimate of one in a hundred: not more than
fifteen parities are announced. -/
theorem key_of_61_bits_nearly_uniform :
    (Correction.mk (fun _ k => ⟨List.range k, List.Perm.refl _⟩) (1 / 100)
        fun i : Fin 150 => i = 0).averageJointDistance (fun _ => 808 / 10000) 128 univ 61
      ≤ 1 / 2 ^ 32 := by
  refine key_nearly_uniform_despite_parities (fun _ => 808 / 10000) 128 61 _ (by decide)
    (by decide) (by decide +kernel) univ ?_
  have hcount := length_asked_le (fun _ k => ⟨List.range k, List.Perm.refl _⟩) (1 / 100)
    (Correction.length_received (Correction.mk (fun _ k => ⟨List.range k, List.Perm.refl _⟩)
      (1 / 100) fun i : Fin 150 => i = 0) fun _ => false)
  rw [card_univ, Fintype.card_pi_const, Fintype.card_bool]
  refine Nat.pow_le_pow_right (by decide) ?_
  rw [Correction.announcements, Correction.announced, Dialogue.answers, List.length_map]
  refine (Nat.add_le_add_left hcount _).trans ?_
  decide +kernel

end KeySecrecy
