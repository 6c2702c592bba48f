/-
The key generators of the registry (`shared/encryption.py`).

`generateKey` returns the generator after the call together with the exception it raised,
if any: a failed call may still have changed the generator.

* `FileKeyGenerator.key_afterReads` — the key of read `m` is slice `m % (L / b)` of the file;
* `BB84KeyGenerator.key_is_last_accepted` — after any switching of the eavesdropper and any
  rounds the key is that of the last round that was not aborted.
-/
import QuantumVideoChat.KeyAgreement
import QuantumVideoChat.Transition

namespace Encryption

open Protocol

inductive KeyGenError
  | valueError (message : String)
  | typeError (message : String)
  | runtimeError (message : String)
  deriving DecidableEq

/-- `os.urandom(n)`. -/
abbrev Urandom := (n : ℕ) → List.Vector UInt8 n

/-- Bytes that hold `bits` bits. -/
def numBytes (bits : ℕ) : ℕ := (bits + 7) / 8

theorem numBytes_pos {bits : ℕ} (h : bits ≠ 0) : 0 < numBytes bits := by
  rw [numBytes]
  omega

theorem numBytes_of_dvd {bits : ℕ} (h : 8 ∣ bits) : numBytes bits = bits / 8 := by
  rw [numBytes]
  omega

/-! ### Debug keys -/

/-- The `key` argument of `DebugKeyGenerator.generate_key`. -/
inductive KeyArgument
  | bytes (key : Bytes)
  | str (key : String)
  | other

structure DebugKeyGenerator where
  key : Bytes := []
  keyLength : ℕ := 0

namespace DebugKeyGenerator

/-- One byte for each unit of `length`. -/
def specifiedKeylength (length : ℕ) : DebugKeyGenerator where
  key := (List.range length).map fun i => UInt8.ofNat (i % 2)
  keyLength := length

def specifiedKey (G : DebugKeyGenerator) :
    KeyArgument → DebugKeyGenerator × Option KeyGenError
  | .bytes key => ({ key := key, keyLength := key.length }, none)
  | .str key =>
    let key := key.toUTF8.toList
    ({ key := key, keyLength := key.length }, none)
  | .other => (G, some (.typeError "Error, only bytes or string allowed"))

def generateKey (G : DebugKeyGenerator) (key : Option KeyArgument) (keyLength : ℕ) :
    DebugKeyGenerator × Option KeyGenError :=
  match key with
  | some key => G.specifiedKey key
  | none =>
    if keyLength ≠ 0 then (specifiedKeylength keyLength, none)
    else (G, some (.valueError "Invalid parameters"))

end DebugKeyGenerator

/-- The length a generator works with after `generate_key(key_length)`, or the refusal. -/
def requestedLength (stored keyLength : ℕ) : Except KeyGenError ℕ :=
  if keyLength ≠ 0 then .ok keyLength
  else if stored < 1 then .error (.valueError "Error, please make key length nonzero")
  else .ok stored

theorem requestedLength_of_ne_zero (stored : ℕ) {keyLength : ℕ} (h : keyLength ≠ 0) :
    requestedLength stored keyLength = .ok keyLength := if_pos h

/-! ### Random keys -/

structure RandomKeyGenerator where
  key : Bytes := []
  keyLength : ℕ := 0

def RandomKeyGenerator.generateKey (G : RandomKeyGenerator) (urandom : Urandom)
    (keyLength : ℕ) : RandomKeyGenerator × Option KeyGenError :=
  match requestedLength G.keyLength keyLength with
  | .error e => (G, some e)
  | .ok length => ({ key := (urandom (numBytes length)).toList, keyLength := length }, none)

/-! ### Keys from a file -/

/-- `content` is what the key file holds; `file` is the read position once it is open. -/
structure FileKeyGenerator where
  content : Bytes
  key : Bytes := []
  keyLength : ℕ := 0
  file : Option ℕ := none

namespace FileKeyGenerator

/-- `f.read(n)` at position `pos`. -/
def read (content : Bytes) (pos n : ℕ) : Bytes := (content.drop pos).take n

@[simp] theorem length_read (content : Bytes) (pos n : ℕ) :
    (read content pos n).length = min n (content.length - pos) := by
  rw [read, List.length_take, List.length_drop]

/-- `generate_key`: a short read starts over at the beginning of the file. -/
def generateKey (G : FileKeyGenerator) (keyLength : ℕ) :
    FileKeyGenerator × Option KeyGenError :=
  match requestedLength G.keyLength keyLength with
  | .error e => (G, some e)
  | .ok length =>
    let n := numBytes length
    -- the file is opened at the first call
    let pos := G.file.getD 0
    let data := read G.content pos n
    if data.length < n then
      let data := read G.content 0 n
      let G' := { G with keyLength := length, file := some data.length }
      if data.length < n then
        (G', some (.runtimeError (s!"Key file too small: need {n} bytes, got " ++
          toString data.length)))
      else ({ G' with key := data }, none)
    else ({ G with key := data, keyLength := length, file := some (pos + data.length) }, none)

def close (G : FileKeyGenerator) : FileKeyGenerator := { G with file := none }

/-- A call for `b` bytes that has `b` bytes ahead of it takes these. -/
theorem generateKey_ahead (G : FileKeyGenerator) {keyLength : ℕ} (hk : keyLength ≠ 0)
    (h : G.file.getD 0 + numBytes keyLength ≤ G.content.length) :
    G.generateKey keyLength = ({ G with
      key := read G.content (G.file.getD 0) (numBytes keyLength)
      keyLength := keyLength
      file := some (G.file.getD 0 + numBytes keyLength) }, none) := by
  have hlen : (read G.content (G.file.getD 0) (numBytes keyLength)).length
      = numBytes keyLength := by
    rw [length_read, min_eq_left (by omega)]
  simp only [generateKey, requestedLength_of_ne_zero _ hk, hlen, lt_irrefl, if_false]

/-- Otherwise it takes the first `b` bytes of the file. -/
theorem generateKey_restart (G : FileKeyGenerator) {keyLength : ℕ} (hk : keyLength ≠ 0)
    (hfit : numBytes keyLength ≤ G.content.length)
    (h : G.content.length < G.file.getD 0 + numBytes keyLength) :
    G.generateKey keyLength = ({ G with
      key := read G.content 0 (numBytes keyLength)
      keyLength := keyLength
      file := some (numBytes keyLength) }, none) := by
  have hb := numBytes_pos hk
  have hshort : (read G.content (G.file.getD 0) (numBytes keyLength)).length
      < numBytes keyLength := by
    rw [length_read]
    omega
  have hlen : (read G.content 0 (numBytes keyLength)).length = numBytes keyLength := by
    rw [length_read]
    omega
  simp only [generateKey, requestedLength_of_ne_zero _ hk, if_pos hshort, hlen, lt_irrefl,
    if_false]

/-- The key of read `m` (counted from 0) when each key takes `b` bytes. -/
def fileKey (content : Bytes) (b m : ℕ) : Bytes :=
  read content (m % (content.length / b) * b) b

/-- The generator after `m + 1` calls `generate_key(key_length)` on a fresh file. -/
def afterReads (content : Bytes) (keyLength m : ℕ) : FileKeyGenerator where
  content := content
  key := fileKey content (numBytes keyLength) m
  keyLength := keyLength
  file := some ((m % (content.length / numBytes keyLength) + 1) * numBytes keyLength)

theorem generateKey_fresh {content : Bytes} {keyLength : ℕ} (hk : keyLength ≠ 0)
    (h : numBytes keyLength ≤ content.length) :
    generateKey { content := content } keyLength = (afterReads content keyLength 0, none) := by
  rw [generateKey_ahead _ hk (by simpa using h)]
  simp [afterReads, fileKey]

/-- One more read is the next slice, or the first one when the rest is too short. -/
theorem generateKey_afterReads {content : Bytes} {keyLength : ℕ} (hk : keyLength ≠ 0)
    (h : numBytes keyLength ≤ content.length) (m : ℕ) :
    (afterReads content keyLength m).generateKey keyLength
      = (afterReads content keyLength (m + 1), none) := by
  have hb : 0 < numBytes keyLength := numBytes_pos hk
  have hslices : 0 < content.length / numBytes keyLength := Nat.div_pos h hb
  have hbound := Nat.div_mul_le_self content.length (numBytes keyLength)
  have hrest := Nat.lt_div_mul_add (a := content.length) hb
  have hlt := Nat.mod_lt m hslices
  have hpos : (afterReads content keyLength m).file.getD 0
      = (m % (content.length / numBytes keyLength) + 1) * numBytes keyLength := rfl
  have hmod := Nat.mod_add_mod m (content.length / numBytes keyLength) 1
  -- either another whole slice is ahead, or this was the last one
  rcases Nat.lt_or_ge (m % (content.length / numBytes keyLength) + 1)
    (content.length / numBytes keyLength) with hnext | hlast
  · rw [Nat.mod_eq_of_lt hnext] at hmod
    have hahead := (Nat.mul_le_mul_right (numBytes keyLength) hnext).trans hbound
    rw [Nat.succ_mul] at hahead
    rw [generateKey_ahead _ hk (by rw [hpos]; exact hahead), hpos]
    simp only [afterReads, fileKey, ← hmod, Nat.succ_mul]
  · have heq : m % (content.length / numBytes keyLength) + 1
        = content.length / numBytes keyLength := by omega
    rw [heq] at hpos hmod
    rw [Nat.mod_self] at hmod
    rw [generateKey_restart _ hk h (by rw [hpos]; exact hrest)]
    simp only [afterReads, fileKey, ← hmod, zero_mul, zero_add, one_mul]

end FileKeyGenerator

/-! ### BB84 keys -/

/-- `metrics` holds what the metrics callback was called with, once one is set. -/
structure BB84KeyGenerator where
  config : BB84ProtocolConfig := {}
  key : Bytes := []
  lastRoundResult : Option BB84RoundResult := none
  eavesdropper : Option EavesdropperSimulator := none
  metrics : Option (List BB84RoundResult) := none

namespace BB84KeyGenerator

def setEavesdropper (G : BB84KeyGenerator) (eavesdropper : EavesdropperSimulator) :
    BB84KeyGenerator := { G with eavesdropper := some eavesdropper }

def clearEavesdropper (G : BB84KeyGenerator) : BB84KeyGenerator :=
  { G with eavesdropper := none }

def setMetricsCallback (G : BB84KeyGenerator) : BB84KeyGenerator :=
  { G with metrics := some [] }

@[simp] theorem setMetricsCallback_config (G : BB84KeyGenerator) :
    G.setMetricsCallback.config = G.config := rfl

@[simp] theorem setMetricsCallback_eavesdropper (G : BB84KeyGenerator) :
    G.setMetricsCallback.eavesdropper = G.eavesdropper := rfl

/-- The configuration a round runs with: `if key_length: target = key_length`. -/
def roundConfig (G : BB84KeyGenerator) (keyLength : ℕ) : BB84ProtocolConfig :=
  if keyLength ≠ 0 then { G.config with targetKeyLengthBits := keyLength } else G.config

/-- The round that `generate_key(key_length)` runs. -/
def round (math : MathFns) (G : BB84KeyGenerator) (keyLength : ℕ) (draws : RoundDraws) :
    Round where
  math := math
  config := G.roundConfig keyLength
  eavesdropper := G.eavesdropper
  draws := draws

/-- The generator once a round returned `result`. -/
def record (G : BB84KeyGenerator) (result : BB84RoundResult) : BB84KeyGenerator :=
  let G' := { G with
    lastRoundResult := some result
    metrics := G.metrics.map fun reported => reported ++ [result] }
  if result.aborted = true then G'
  else
    match result.key with
    | none => G'
    | some key => { G' with key := key }

def generateKey (math : MathFns) (G : BB84KeyGenerator) (keyLength : ℕ)
    (draws : RoundDraws) : BB84KeyGenerator :=
  { G with config := G.roundConfig keyLength }.record (G.round math keyLength draws).runRound

def getKey (G : BB84KeyGenerator) : Bytes := G.key

theorem record_aborted (G : BB84KeyGenerator) {result : BB84RoundResult}
    (h : result.aborted = true) : (G.record result).key = G.key := by
  rw [record, if_pos h]

theorem record_accepted (G : BB84KeyGenerator) {result : BB84RoundResult} {key : Bytes}
    (h : result.aborted = false) (hkey : result.key = some key) :
    (G.record result).key = key := by
  rw [record, if_neg (by simp [h]), hkey]

@[simp] theorem record_lastRoundResult (G : BB84KeyGenerator) (result : BB84RoundResult) :
    (G.record result).lastRoundResult = some result := by
  rw [record]
  split_ifs
  · rfl
  · cases result.key <;> rfl

@[simp] theorem record_config (G : BB84KeyGenerator) (result : BB84RoundResult) :
    (G.record result).config = G.config := by
  rw [record]
  split_ifs
  · rfl
  · cases result.key <;> rfl

theorem record_metrics (G : BB84KeyGenerator) (result : BB84RoundResult) :
    (G.record result).metrics = G.metrics.map fun reported => reported ++ [result] := by
  rw [record]
  split_ifs
  · rfl
  · cases result.key <;> rfl

theorem record_eavesdropper (G : BB84KeyGenerator) (result : BB84RoundResult) :
    (G.record result).eavesdropper = G.eavesdropper := by
  rw [record]
  split_ifs
  · rfl
  · cases result.key <;> rfl

theorem generateKey_config (math : MathFns) (G : BB84KeyGenerator) (keyLength : ℕ)
    (draws : RoundDraws) :
    (G.generateKey math keyLength draws).config = G.roundConfig keyLength := by
  rw [generateKey, record_config]

theorem generateKey_eavesdropper (math : MathFns) (G : BB84KeyGenerator) (keyLength : ℕ)
    (draws : RoundDraws) :
    (G.generateKey math keyLength draws).eavesdropper = G.eavesdropper := by
  rw [generateKey, record_eavesdropper]

theorem roundConfig_target_pos {G : BB84KeyGenerator}
    (h : 0 < G.config.targetKeyLengthBits) (keyLength : ℕ) :
    0 < (G.roundConfig keyLength).targetKeyLengthBits := by
  rw [roundConfig]
  split_ifs with hk
  · show (0 : ℤ) < keyLength
    exact_mod_cast Nat.pos_of_ne_zero hk
  · exact h

theorem roundConfig_threshold (G : BB84KeyGenerator) (keyLength : ℕ) :
    (G.roundConfig keyLength).qberThreshold = G.config.qberThreshold := by
  rw [roundConfig]
  split_ifs <;> rfl

/-! A generator over time. -/

inductive Action
  | setEavesdropper (eavesdropper : EavesdropperSimulator)
  | clearEavesdropper
  | generateKey (keyLength : ℕ) (draws : RoundDraws)

/-- One action on a generator, together with the results of its rounds so far. -/
def step (math : MathFns) :
    BB84KeyGenerator × List BB84RoundResult → Action →
      BB84KeyGenerator × List BB84RoundResult
  | (G, results), .setEavesdropper eavesdropper => (G.setEavesdropper eavesdropper, results)
  | (G, results), .clearEavesdropper => (G.clearEavesdropper, results)
  | (G, results), .generateKey keyLength draws =>
    (G.generateKey math keyLength draws,
      results ++ [(G.round math keyLength draws).runRound])

/-- The results of the rounds that were not aborted. -/
def accepted (results : List BB84RoundResult) : List BB84RoundResult :=
  results.filter fun r => !r.aborted

theorem accepted_append_aborted (results : List BB84RoundResult) {r : BB84RoundResult}
    (h : r.aborted = true) : accepted (results ++ [r]) = accepted results := by
  simp [accepted, h]

theorem accepted_append_accepted (results : List BB84RoundResult) {r : BB84RoundResult}
    (h : r.aborted = false) : accepted (results ++ [r]) = accepted results ++ [r] := by
  simp [accepted, h]

/-- What the generator owes its history, for threshold `threshold`. -/
structure Faithful (threshold : ℚ)
    (s : BB84KeyGenerator × List BB84RoundResult) : Prop where
  target_pos : 0 < s.1.config.targetKeyLengthBits
  threshold_eq : s.1.config.qberThreshold = threshold
  coherent : ∀ r ∈ s.2, Round.Coherent threshold r
  key_none : accepted s.2 = [] → s.1.getKey = []
  key_some : ∀ r, (accepted s.2).getLast? = some r → r.key = some s.1.getKey

theorem faithful_generateKey (math : MathFns) {threshold : ℚ} {G : BB84KeyGenerator}
    {results : List BB84RoundResult} (h : Faithful threshold (G, results)) (keyLength : ℕ)
    (draws : RoundDraws) :
    Faithful threshold (step math (G, results) (.generateKey keyLength draws)) := by
  obtain ⟨htarget, hthreshold, hcoh, hnone, hsome⟩ := h
  set result := (G.round math keyLength draws).runRound with hresult
  have hpos := roundConfig_target_pos htarget keyLength
  have hth := (roundConfig_threshold G keyLength).trans hthreshold
  have hround : Round.Coherent threshold result :=
    hth ▸ (G.round math keyLength draws).runRound_coherent hpos
  have hstep : step math (G, results) (.generateKey keyLength draws)
      = ({ G with config := G.roundConfig keyLength }.record result, results ++ [result]) := rfl
  rw [hstep]
  have hcoh' : ∀ r ∈ results ++ [result], Round.Coherent threshold r := by
    intro r hr
    rcases List.mem_append.mp hr with hr | hr
    · exact hcoh r hr
    · rwa [List.mem_singleton.mp hr]
  refine ⟨by rwa [record_config], by rwa [record_config], hcoh', ?_, ?_⟩
  all_goals dsimp only [getKey] at hnone hsome ⊢
  · intro hempty
    cases habort : result.aborted with
    | true =>
      -- nothing is accepted and the key stays
      rw [accepted_append_aborted results habort] at hempty
      rw [record_aborted _ habort]
      exact hnone hempty
    | false =>
      rw [accepted_append_accepted results habort] at hempty
      exact absurd hempty (by simp)
  · intro r hlast
    cases habort : result.aborted with
    | true =>
      rw [accepted_append_aborted results habort] at hlast
      rw [record_aborted _ habort]
      exact hsome r hlast
    | false =>
      rw [accepted_append_accepted results habort, List.getLast?_concat, Option.some_inj]
        at hlast
      -- coherence is what makes an accepted round carry a key
      obtain ⟨-, -, key, hkey, -⟩ := hround.accepted habort
      rw [record_accepted _ habort hkey, ← hlast, hkey]

theorem faithful_step (math : MathFns) {threshold : ℚ}
    (s : BB84KeyGenerator × List BB84RoundResult) (a : Action) (h : Faithful threshold s) :
    Faithful threshold (step math s a) := by
  cases a with
  | setEavesdropper eavesdropper =>
    exact ⟨h.target_pos, h.threshold_eq, h.coherent, h.key_none, h.key_some⟩
  | clearEavesdropper =>
    exact ⟨h.target_pos, h.threshold_eq, h.coherent, h.key_none, h.key_some⟩
  | generateKey keyLength draws => exact faithful_generateKey math h keyLength draws

/-- **No key from an insecure round.**  Every result is coherent, and after any actions on
a new generator its key is that of the last round that was not aborted. -/
theorem key_is_last_accepted (math : MathFns) (config : BB84ProtocolConfig)
    (htarget : 0 < config.targetKeyLengthBits) (actions : List Action) :
    (∀ R : Round, 0 < R.config.targetKeyLengthBits →
      Round.Coherent R.config.qberThreshold R.runRound) ∧
    Faithful config.qberThreshold
      (actions.foldl (step math) ({ config := config }, [])) := by
  refine ⟨fun R hR => R.runRound_coherent hR, ?_⟩
  refine Transition.foldl_induction (I := Faithful config.qberThreshold) ?_
    (fun s a hs => faithful_step math s a hs) actions
  exact ⟨htarget, rfl, fun r hr => absurd hr (List.not_mem_nil), fun _ => rfl,
    fun r hr => absurd hr (by simp [accepted])⟩

/-- A quiet round between an attack and a round that Eve spoils. -/
theorem key_is_last_accepted_quiet :
    Faithful (11 / 100) ([Action.generateKey 128 lastPulseDraws, .setEavesdropper {},
      .generateKey 64 lastPulseDraws, .clearEavesdropper].foldl (step quietMath)
        ({ config := quietRound.config }, [])) :=
  (key_is_last_accepted quietMath quietRound.config (by decide) _).2

end BB84KeyGenerator

/-! ### The registry -/

/-- The generators `create_key_generator` knows. -/
inductive KeyGenerator
  | file (G : FileKeyGenerator)
  | random (G : RandomKeyGenerator)
  | debug (G : DebugKeyGenerator)
  | bb84 (G : BB84KeyGenerator)

/-- Every answer the outside world gives one call of `generate_key`. -/
structure KeyDraws where
  urandom : Urandom
  round : RoundDraws

namespace KeyGenerator

/-- `create_key_generator(name)`, when the default key file holds `content`. -/
def createKeyGenerator (content : Bytes) (name : String) : Except KeyGenError KeyGenerator :=
  if name = "FILE" then .ok (.file { content := content })
  else if name = "RANDOM" then .ok (.random {})
  else if name = "DEBUG" then .ok (.debug {})
  else if name = "BB84" then .ok (.bb84 {})
  else .error (.valueError ("Invalid key generator type: " ++ name))

/-- `generate_key(key_length=keyLength)`. -/
def generateKey (math : MathFns) (keyLength : ℕ) (draws : KeyDraws) :
    KeyGenerator → KeyGenerator × Option KeyGenError
  | .file G => ((G.generateKey keyLength).map .file id)
  | .random G => ((G.generateKey draws.urandom keyLength).map .random id)
  | .debug G => ((G.generateKey none keyLength).map .debug id)
  | .bb84 G => (.bb84 (G.generateKey math keyLength draws.round), none)

def getKey : KeyGenerator → Bytes
  | .file G => G.key
  | .random G => G.key
  | .debug G => G.key
  | .bb84 G => G.getKey

/-- `key_gen.last_round_result`, which only the BB84 generator has. -/
def lastRoundResult : KeyGenerator → Option BB84RoundResult
  | .bb84 G => G.lastRoundResult
  | _ => none

end KeyGenerator
end Encryption
