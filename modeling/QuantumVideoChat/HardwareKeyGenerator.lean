/-
Keys from quantum hardware with the simulation as fallback
(`shared/bb84/hardware_key_generator.py`).

The bridge is an interface, so a call receives what the bridge answers during it.

* `key_of_simulated` — as long as the simulation served the last call, the generator's key
  is the fallback's key;
* `failed_call_keeps_key_iff` — when the hardware does not deliver and the simulated round
  is aborted, the key survives exactly when the simulation served the last call or the two
  keys are equal; `failed_call_loses_key` is a run that loses a hardware key.
-/
import QuantumVideoChat.KeyGenerators

open Protocol Encryption

/-- What `AbstractHardwareBridge` answers during one call. -/
structure BridgeAnswers where
  isConnected : Bool
  /-- `get_raw_key_material(length_bytes)`, `none` when it raises `OSError` -/
  getRawKeyMaterial : ℕ → Option Bytes

/-- `bridge` says whether a bridge has been set. -/
structure HardwareKeyGenerator where
  bridge : Bool := false
  fallback : BB84KeyGenerator
  key : Bytes := []
  usingHardware : Bool := false

namespace HardwareKeyGenerator

def init (fallbackConfig : BB84ProtocolConfig) : HardwareKeyGenerator where
  fallback := { config := fallbackConfig }

variable (G : HardwareKeyGenerator)

def isHardwareConnected (answers : BridgeAnswers) : Bool := G.bridge && answers.isConnected

def setBridge : HardwareKeyGenerator := { G with bridge := true }

/-- The number of bytes asked of the hardware; 16 without a length. -/
def requestedBytes (keyLength : ℕ) : ℕ := if keyLength ≠ 0 then numBytes keyLength else 16

/-- The hardware's part of `generate_key`: `none` when it is absent or raises `OSError`. -/
def readHardware (keyLength : ℕ) (answers : BridgeAnswers) : Option Bytes :=
  if G.isHardwareConnected answers then answers.getRawKeyMaterial (requestedBytes keyLength)
  else none

/-- The simulation's part of `generate_key`. -/
def simulate (math : MathFns) (keyLength : ℕ) (draws : RoundDraws) : HardwareKeyGenerator :=
  let fallback := G.fallback.generateKey math keyLength draws
  { G with usingHardware := false, fallback := fallback, key := fallback.getKey }

def generateKey (math : MathFns) (keyLength : ℕ) (answers : BridgeAnswers)
    (draws : RoundDraws) : HardwareKeyGenerator :=
  match G.readHardware keyLength answers with
  -- the fallback keeps whatever key it had
  | some key => { G with key := key, usingHardware := true }
  | none => G.simulate math keyLength draws

def getKey : Bytes := G.key

def lastRoundResult : Option BB84RoundResult :=
  if G.usingHardware then none else G.fallback.lastRoundResult

inductive Action
  | setBridge
  | generateKey (keyLength : ℕ) (answers : BridgeAnswers) (draws : RoundDraws)

def step (math : MathFns) : HardwareKeyGenerator → Action → HardwareKeyGenerator
  | G, .setBridge => G.setBridge
  | G, .generateKey keyLength answers draws => G.generateKey math keyLength answers draws

variable {G}

theorem generateKey_cases (math : MathFns) (keyLength : ℕ) (answers : BridgeAnswers)
    (draws : RoundDraws) :
    (∃ key, G.readHardware keyLength answers = some key ∧
      G.generateKey math keyLength answers draws
        = { G with key := key, usingHardware := true }) ∨
    (G.readHardware keyLength answers = none ∧
      G.generateKey math keyLength answers draws = G.simulate math keyLength draws) := by
  cases h : G.readHardware keyLength answers with
  | some key => exact .inl ⟨key, rfl, by rw [generateKey, h]⟩
  | none => exact .inr ⟨rfl, by rw [generateKey, h]⟩

/-- Whenever the simulation served the last call, the two key holders agree. -/
theorem key_of_simulated (math : MathFns) (config : BB84ProtocolConfig)
    (actions : List Action) :
    (actions.foldl (step math) (init config)).usingHardware = false →
      (actions.foldl (step math) (init config)).fallback.getKey
        = (actions.foldl (step math) (init config)).getKey := by
  refine Transition.foldl_induction (I := fun G : HardwareKeyGenerator =>
    G.usingHardware = false → G.fallback.getKey = G.getKey) (fun _ => rfl) ?_ actions
  intro G a ih
  cases a with
  | setBridge => exact ih
  | generateKey keyLength answers draws =>
    -- a hardware key sets the flag, a simulated one is copied from the fallback
    rcases generateKey_cases math keyLength answers draws with ⟨key, -, hG⟩ | ⟨-, hG⟩
    · rw [step, hG]
      intro h
      exact absurd h (by simp)
    · rw [step, hG]
      exact fun _ => rfl

/-- **When a failed call keeps the key.** -/
theorem failed_call_keeps_key_iff (math : MathFns) (config : BB84ProtocolConfig)
    (actions : List Action) (keyLength : ℕ) (answers : BridgeAnswers) (draws : RoundDraws)
    (hhardware : (actions.foldl (step math) (init config)).readHardware keyLength answers
      = none)
    (habort : ((actions.foldl (step math) (init config)).fallback.round math keyLength
      draws).runRound.aborted = true) :
    ((actions.foldl (step math) (init config)).generateKey math keyLength answers
        draws).getKey = (actions.foldl (step math) (init config)).getKey ↔
      (actions.foldl (step math) (init config)).usingHardware = false ∨
        (actions.foldl (step math) (init config)).fallback.getKey
          = (actions.foldl (step math) (init config)).getKey := by
  have hsimulated := key_of_simulated math config actions
  generalize actions.foldl (step math) (init config) = G at hhardware habort hsimulated ⊢
  -- the aborted round leaves the fallback's key, which the generator then adopts
  have hkey : (G.generateKey math keyLength answers draws).getKey = G.fallback.getKey := by
    rw [generateKey, hhardware]
    exact BB84KeyGenerator.record_aborted _ habort
  rw [hkey]
  constructor
  · exact .inr
  · rintro (h | h)
    · exact hsimulated h
    · exact h

/-- No photon leaves the source and nothing clicks in the dark. -/
def darkPulse : PhysicalLayer.PulseDraws :=
  { certainPulse with poisson := fun _ => 0, dark := .half }

def darkDraws : RoundDraws := { lastPulseDraws with pulse := fun _ => darkPulse }

def smallConfig : BB84ProtocolConfig := { numRawBits := 8 }

def hardwareAnswers : BridgeAnswers := ⟨true, fun n => some (List.replicate n 0xA5)⟩

def lostHardware : BridgeAnswers := ⟨true, fun _ => none⟩

/-- A hardware key, then a simulated one, which is still there after an aborted round. -/
theorem failed_call_keeps_key_iff_simulated :
    let G := [Action.setBridge, .generateKey 128 hardwareAnswers darkDraws,
      .generateKey 128 lostHardware lastPulseDraws].foldl (step quietMath)
        (init quietRound.config)
    G.getKey ≠ [] ∧ (G.generateKey quietMath 128 lostHardware darkDraws).getKey = G.getKey :=
  ⟨by decide +kernel, (failed_call_keeps_key_iff quietMath quietRound.config
    [.setBridge, .generateKey 128 hardwareAnswers darkDraws,
      .generateKey 128 lostHardware lastPulseDraws] 128 lostHardware darkDraws
    (by decide +kernel) (by decide +kernel)).mpr (.inl (by decide +kernel))⟩

/-- The hardware delivers 16 bytes, then a read fails and the simulated round is aborted. -/
theorem failed_call_loses_key :
    let G := [Action.setBridge, .generateKey 128 hardwareAnswers darkDraws].foldl
      (step quietMath) (init smallConfig)
    G.getKey = List.replicate 16 0xA5 ∧ G.readHardware 128 lostHardware = none ∧
      (G.fallback.round quietMath 128 darkDraws).runRound.aborted = true ∧
      (G.generateKey quietMath 128 lostHardware darkDraws).getKey = [] := by
  decide +kernel

end HardwareKeyGenerator
