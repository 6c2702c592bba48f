/-
The bridge to exported key files (`shared/bb84/hardware_bridge.py`, `MATLABBridge`).

The bridge reads on from its position and, after a short read, once more from the beginning,
for what is missing; it does not look at what the second read brings.

* `length_getRawKeyMaterial` — how many bytes a call returns;
* `answers` — the bridge behind the interface of `HardwareKeyGenerator`;
* `bridge_returns_requested_iff` — the states and requests for which a call returns as many
  bytes as requested, or raises.
-/
import QuantumVideoChat.FileKeys
import QuantumVideoChat.HardwareKeyGenerator

open Protocol Encryption

/-- `content` is what the key file holds; `fileHandle` is the position of the open handle. -/
structure MATLABBridge where
  keyPath : String := "sifted_key.bin"
  content : Bytes
  dirExists : Bool := true
  keyExists : Bool := true
  fileHandle : Option ℕ := none

namespace MATLABBridge

def isConnected (B : MATLABBridge) : Bool := B.dirExists && B.keyExists

/-- The position of the handle that `get_raw_key_material` reads from; the file is opened when
it is not open. -/
def openKeyFile (B : MATLABBridge) : Except String ℕ :=
  match B.fileHandle with
  | some pos => .ok pos
  | none => if B.keyExists then .ok 0 else .error ("Key file not found: " ++ B.keyPath)

/-- `get_raw_key_material`: the bytes, or the text of the `OSError`. -/
def getRawKeyMaterial (B : MATLABBridge) (lengthBytes : ℕ) : MATLABBridge × Except String Bytes :=
  match B.openKeyFile with
  | .error e => (B, .error e)
  | .ok pos =>
    let data := FileKeyGenerator.read B.content pos lengthBytes
    if data.length < lengthBytes then
      -- wrap around to the beginning of the file, once
      let rest := FileKeyGenerator.read B.content 0 (lengthBytes - data.length)
      ({ B with fileHandle := some rest.length }, .ok (data ++ rest))
    else ({ B with fileHandle := some (pos + data.length) }, .ok data)

def close (B : MATLABBridge) : MATLABBridge := { B with fileHandle := none }

/-- What the bridge answers during one call of `HardwareKeyGenerator.generate_key`. -/
def answers (B : MATLABBridge) : BridgeAnswers where
  isConnected := B.isConnected
  getRawKeyMaterial lengthBytes := (B.getRawKeyMaterial lengthBytes).2.toOption

/-- The bytes from the position to the end of the file, and the whole file after them. -/
def available (B : MATLABBridge) : ℕ :=
  (B.content.length - B.fileHandle.getD 0) + B.content.length

/-- The file is neither open nor there. -/
def Missing (B : MATLABBridge) : Prop := B.fileHandle = none ∧ B.keyExists = false

variable {B : MATLABBridge}

theorem openKeyFile_of_not_missing (h : ¬ B.Missing) :
    B.openKeyFile = .ok (B.fileHandle.getD 0) := by
  rw [openKeyFile]
  cases hhandle : B.fileHandle with
  | some pos => rfl
  | none =>
    cases hexists : B.keyExists with
    | true => rfl
    | false => exact absurd ⟨hhandle, hexists⟩ h

theorem getRawKeyMaterial_of_missing (h : B.Missing) (lengthBytes : ℕ) :
    B.getRawKeyMaterial lengthBytes = (B, .error ("Key file not found: " ++ B.keyPath)) := by
  rw [getRawKeyMaterial, openKeyFile, h.1, h.2]
  rfl

/-- A call on a file that is there never raises; it returns what two reads can bring. -/
theorem length_getRawKeyMaterial (h : ¬ B.Missing) (lengthBytes : ℕ) :
    ∃ data, (B.getRawKeyMaterial lengthBytes).2 = .ok data ∧
      data.length = min lengthBytes B.available := by
  rw [getRawKeyMaterial, openKeyFile_of_not_missing h, available]
  dsimp only
  split_ifs with hshort
  · refine ⟨_, rfl, ?_⟩
    rw [FileKeyGenerator.length_read] at hshort
    rw [List.length_append, FileKeyGenerator.length_read, FileKeyGenerator.length_read]
    omega
  · refine ⟨_, rfl, ?_⟩
    rw [FileKeyGenerator.length_read] at hshort ⊢
    omega

/-- The call returns as many bytes as requested, or raises. -/
def ExactOrRaises (B : MATLABBridge) (lengthBytes : ℕ) : Prop :=
  (∃ data, (B.getRawKeyMaterial lengthBytes).2 = .ok data ∧ data.length = lengthBytes) ∨
    ∃ e, (B.getRawKeyMaterial lengthBytes).2 = .error e

theorem exactOrRaises_iff (B : MATLABBridge) (lengthBytes : ℕ) :
    B.ExactOrRaises lengthBytes ↔ B.Missing ∨ lengthBytes ≤ B.available := by
  by_cases h : B.Missing
  · exact iff_of_true (.inr ⟨_, by rw [getRawKeyMaterial_of_missing h]⟩) (.inl h)
  · obtain ⟨data, hdata, hlength⟩ := length_getRawKeyMaterial h lengthBytes
    rw [ExactOrRaises, hdata]
    simp only [Except.ok.injEq, exists_eq_left', reduceCtorEq, exists_false, or_false, h, false_or,
      hlength]
    omega

/-- A call of the generator that ends with `using_hardware` leaves a key of the requested
length. -/
def GeneratesExact (math : MathFns) (B : MATLABBridge) (G : HardwareKeyGenerator)
    (keyLength : ℕ) (draws : RoundDraws) : Prop :=
  (G.generateKey math keyLength B.answers draws).usingHardware = true →
    (G.generateKey math keyLength B.answers draws).getKey.length = numBytes keyLength

/-- When the hardware is asked, the key file is there. -/
theorem generatesExact_iff (math : MathFns) (B : MATLABBridge) (G : HardwareKeyGenerator)
    {keyLength : ℕ} (hk : keyLength ≠ 0) (draws : RoundDraws) :
    GeneratesExact math B G keyLength draws ↔
      G.isHardwareConnected B.answers = false ∨ numBytes keyLength ≤ B.available := by
  rw [GeneratesExact, HardwareKeyGenerator.generateKey, HardwareKeyGenerator.readHardware,
    HardwareKeyGenerator.requestedBytes, if_pos hk]
  cases hconnected : G.isHardwareConnected B.answers with
  | false => simp [HardwareKeyGenerator.simulate]
  | true =>
    have hpresent : ¬ B.Missing := by
      rintro ⟨-, hgone⟩
      simp [HardwareKeyGenerator.isHardwareConnected, answers, isConnected, hgone] at hconnected
    obtain ⟨data, hdata, hlength⟩ := length_getRawKeyMaterial hpresent (numBytes keyLength)
    have hanswer : B.answers.getRawKeyMaterial (numBytes keyLength) = some data := by
      show (B.getRawKeyMaterial (numBytes keyLength)).2.toOption = some data
      rw [hdata]
      rfl
    simp only [if_true, hanswer, HardwareKeyGenerator.getKey, forall_const, hlength, reduceCtorEq,
      false_or]
    omega

/-! ### Runs -/

inductive Action
  | getRawKeyMaterial (lengthBytes : ℕ)
  | close

def step (B : MATLABBridge) : Action → MATLABBridge
  | .getRawKeyMaterial lengthBytes => (B.getRawKeyMaterial lengthBytes).1
  | .close => B.close

/-- **When the bridge does not come short.**  In every state that earlier calls have led to,
and for the key generator on top of it. -/
theorem bridge_returns_requested_iff (math : MathFns) (content : Bytes) (keyPath : String)
    (dirExists keyExists : Bool) (actions : List Action) :
    let B := actions.foldl step
      { content := content, keyPath := keyPath, dirExists := dirExists, keyExists := keyExists }
    (∀ lengthBytes, 0 < lengthBytes →
      (B.ExactOrRaises lengthBytes ↔ B.Missing ∨ lengthBytes ≤ B.available)) ∧
    ∀ (G : HardwareKeyGenerator) keyLength draws, 0 < keyLength →
      (GeneratesExact math B G keyLength draws ↔
        G.isHardwareConnected B.answers = false ∨ numBytes keyLength ≤ B.available) :=
  ⟨fun lengthBytes _ => exactOrRaises_iff _ lengthBytes,
    fun G _ draws hk => generatesExact_iff math _ G (Nat.ne_of_gt hk) draws⟩

/-- A file of three bytes and a request for sixteen: six bytes come back, and they become the
key.  The file key generator raises in its place. -/
theorem small_key_file_gives_short_key :
    let B : MATLABBridge := { content := [7, 8, 9] }
    let G := (HardwareKeyGenerator.init {}).setBridge
    ¬ B.ExactOrRaises 16 ∧
      (B.getRawKeyMaterial 16).2 = .ok [7, 8, 9, 7, 8, 9] ∧
      (G.generateKey quietMath 128 B.answers lastPulseDraws).usingHardware = true ∧
      (G.generateKey quietMath 128 B.answers lastPulseDraws).getKey.length = 6 ∧
      ((FileKeyGenerator.generateKey { content := [7, 8, 9] } 128).2).isSome = true := by
  refine ⟨?_, by rfl, by rfl, by rfl, by rfl⟩
  rw [exactOrRaises_iff]
  simp [Missing, available]

end MATLABBridge
