/-
The QBER monitor (`shared/bb84/qber_monitor.py`).

The monitor sees the result of a round and nothing else: it reads back from `aborted` and
`qber` what the round was aborted for.

* `runRound_reports` — what the monitor gets to see of each exit of a round;
* `intrusion_alarm_iff` — when an alarm is the same as a measured intrusion.
-/
import QuantumVideoChat.KeyAgreement

open Protocol

/-- `QBEREvent`: the classification of a round. -/
inductive QBEREvent
  | normal
  | warning
  | intrusionDetected
  | keyRedistributed
  | keyGenerationFailed
  deriving DecidableEq

def QBEREvent.value : QBEREvent → String
  | .normal => "normal"
  | .warning => "warning"
  | .intrusionDetected => "intrusion_detected"
  | .keyRedistributed => "key_redistributed"
  | .keyGenerationFailed => "key_generation_failed"

/-- A classified round, without its time stamp. -/
structure QBERSnapshot where
  qber : ℚ
  event : QBEREvent
  siftedBits : ℕ
  finalKeyBits : ℕ
  detectionRate : ℚ
  darkCountFraction : ℚ
  durationSeconds : ℚ
  abortReason : Option AbortReason

structure QBERMonitor where
  threshold : ℚ := 11 / 100
  warningThreshold : ℚ := 5 / 100
  historySize : ℕ := 100
  history : List QBERSnapshot := []
  intrusionCount : ℕ := 0
  totalRounds : ℕ := 0
  successfulRounds : ℕ := 0
  failedRounds : ℕ := 0
  totalSiftedBits : ℕ := 0
  totalFinalBits : ℕ := 0

namespace QBERMonitor

/-- The first statement of `record_round`. -/
def classify (m : QBERMonitor) (result : BB84RoundResult) : QBEREvent :=
  if result.aborted then
    if result.qber ≥ m.threshold then .intrusionDetected else .keyGenerationFailed
  else if result.qber ≥ m.warningThreshold then .warning
  else .normal

def snapshot (m : QBERMonitor) (result : BB84RoundResult) : QBERSnapshot where
  qber := result.qber
  event := m.classify result
  siftedBits := result.siftedBits
  finalKeyBits := result.finalKeyBits
  detectionRate :=
    if result.rawBitsGenerated > 0 then result.detectionEvents / result.rawBitsGenerated else 0
  darkCountFraction := result.darkCountFraction
  durationSeconds := result.durationSeconds
  abortReason := result.abortReason

/-- `deque.append` with `maxlen`. -/
def appendHistory (m : QBERMonitor) (snapshot : QBERSnapshot) : List QBERSnapshot :=
  (m.history ++ [snapshot]).drop (m.history.length + 1 - m.historySize)

/-- `record_round`: the monitor afterwards and the snapshot it returns. -/
def recordRound (m : QBERMonitor) (result : BB84RoundResult) : QBERMonitor × QBERSnapshot :=
  let event := m.classify result
  let snapshot := m.snapshot result
  let m' := { m with
    history := m.appendHistory snapshot
    totalRounds := m.totalRounds + 1
    totalSiftedBits := m.totalSiftedBits + result.siftedBits
    totalFinalBits := m.totalFinalBits + result.finalKeyBits }
  if result.aborted then
    let m' := { m' with failedRounds := m.failedRounds + 1 }
    if event = .intrusionDetected then
      ({ m' with intrusionCount := m.intrusionCount + 1 }, snapshot)
    else (m', snapshot)
  else ({ m' with successfulRounds := m.successfulRounds + 1 }, snapshot)

/-- `reset`: the thresholds and the length of the history stay. -/
def reset (m : QBERMonitor) : QBERMonitor where
  threshold := m.threshold
  warningThreshold := m.warningThreshold
  historySize := m.historySize

variable (m : QBERMonitor)

@[simp] theorem recordRound_snd (result : BB84RoundResult) :
    (m.recordRound result).2 = m.snapshot result := by
  simp only [recordRound]
  split_ifs <;> rfl

@[simp] theorem snapshot_event (result : BB84RoundResult) :
    (m.snapshot result).event = m.classify result := rfl

/-- The thresholds never change. -/
theorem recordRound_threshold (result : BB84RoundResult) :
    (m.recordRound result).1.threshold = m.threshold := by
  simp only [recordRound]
  split_ifs <;> rfl

/-- Only an alarm moves the alarm counter. -/
theorem recordRound_intrusionCount (result : BB84RoundResult) :
    (m.recordRound result).1.intrusionCount
      = if m.classify result = .intrusionDetected then m.intrusionCount + 1
        else m.intrusionCount := by
  have halarm : m.classify result = .intrusionDetected → result.aborted = true := by
    intro h
    by_contra hnot
    rw [classify, if_neg hnot] at h
    split_ifs at h
  rw [recordRound]
  dsimp only
  by_cases haborted : result.aborted = true
  · rw [if_pos haborted]
    by_cases hevent : m.classify result = .intrusionDetected
    · rw [if_pos hevent, if_pos hevent]
    · rw [if_neg hevent, if_neg hevent]
  · rw [if_neg haborted, if_neg fun h => haborted (halarm h)]

/-- An aborted round is an alarm or a failure, by its `qber` alone. -/
theorem classify_aborted {result : BB84RoundResult} (h : result.aborted = true) :
    m.classify result
      = if m.threshold ≤ result.qber then .intrusionDetected else .keyGenerationFailed := by
  rw [classify, if_pos h]

theorem classify_not_aborted {result : BB84RoundResult} (h : result.aborted = false) :
    m.classify result ≠ .intrusionDetected := by
  rw [classify, if_neg (by simp [h])]
  split_ifs <;> simp

/-! ### Rounds of the protocol -/

/-- The round was aborted because its sample showed at least the threshold. -/
def MeasuredIntrusion (R : Round) : Prop :=
  R.runRound.aborted = true ∧ R.config.qberThreshold ≤ R.estimate.qber ∧
    R.runRound.abortReason = some (.qberExceeds R.estimate.qber R.config.qberThreshold)

instance (R : Round) : Decidable (MeasuredIntrusion R) :=
  inferInstanceAs (Decidable (_ ∧ _ ∧ _))

/-- There was something to measure: a click, and enough bits after sifting. -/
def Measurable (R : Round) : Prop :=
  R.detectedCount ≠ 0 ∧ Round.minSiftedBits ≤ R.siftedCount

instance (R : Round) : Decidable (Measurable R) := inferInstanceAs (Decidable (_ ∧ _))

theorem isSecure_eq_false_iff (R : Round) :
    R.estimate.isSecure = false ↔ R.config.qberThreshold ≤ R.estimate.qber := by
  show decide (R.estimate.qber < R.config.qberThreshold) = false ↔ _
  rw [decide_eq_false_iff_not, not_lt]

/-- The exits of a round as the monitor sees them: a round without a measurement reports
the error rate 1, a measured one its estimate. -/
theorem runRound_reports (R : Round) :
    (¬ Measurable R ∧ R.runRound.aborted = true ∧ R.runRound.qber = 1 ∧
      ¬ MeasuredIntrusion R) ∨
    (Measurable R ∧ R.runRound.aborted = true ∧
      R.runRound.qber = R.estimate.qber ∧ R.config.qberThreshold ≤ R.estimate.qber ∧
      MeasuredIntrusion R) ∨
    (Measurable R ∧ R.runRound.aborted = true ∧
      R.runRound.qber = R.estimate.qber ∧ R.estimate.qber < R.config.qberThreshold ∧
      R.amplify R.correctedBits = none ∧ ¬ MeasuredIntrusion R) ∨
    (Measurable R ∧ R.runRound.aborted = false ∧ ¬ MeasuredIntrusion R) := by
  rcases R.runRound_cases with ⟨hdet, hr⟩ | ⟨-, hsift, hr⟩ | ⟨hdet, hsift, hsec, hr⟩ |
    ⟨hdet, hsift, hsec, hamp, hr⟩ | ⟨hdet, hsift, -, key, -, hr⟩
  · refine .inl ⟨fun h => h.1 hdet, by rw [hr]; rfl, by rw [hr]; rfl, fun h => ?_⟩
    have hreason := h.2.2
    rw [hr] at hreason
    exact absurd hreason (by simp [Round.noPhotonsResult])
  · refine .inl ⟨fun h => absurd h.2 (not_le.mpr hsift), by rw [hr]; rfl, by rw [hr]; rfl,
      fun h => ?_⟩
    have hreason := h.2.2
    rw [hr] at hreason
    exact absurd hreason (by simp [Round.insufficientSiftedResult])
  · have hle := (isSecure_eq_false_iff R).mp hsec
    exact .inr (.inl ⟨⟨hdet, hsift⟩, by rw [hr]; rfl, by rw [hr]; rfl, hle,
      by rw [hr]; rfl, hle, by rw [hr]; rfl⟩)
  · have hlt : R.estimate.qber < R.config.qberThreshold := by
      rw [← not_le, ← isSecure_eq_false_iff, hsec]
      simp
    exact .inr (.inr (.inl ⟨⟨hdet, hsift⟩, by rw [hr]; rfl, by rw [hr]; rfl, hlt,
      hamp, fun h => absurd h.2.1 (not_le.mpr hlt)⟩))
  · refine .inr (.inr (.inr ⟨⟨hdet, hsift⟩, by rw [hr]; rfl, fun h => ?_⟩))
    rw [MeasuredIntrusion, hr] at h
    exact absurd h.1 (by simp [Round.keyResult])

/-- **When an alarm is a measured intrusion.**  With one threshold on both sides the monitor
tells measured intrusions from other aborted rounds exactly when the round measured
anything, or the threshold is above the error rate 1 that the other rounds report. -/
theorem intrusion_alarm_iff (R : Round) (hthreshold : m.threshold = R.config.qberThreshold) :
    (((m.recordRound R.runRound).2.event = .intrusionDetected ↔ MeasuredIntrusion R) ∧
      (R.runRound.aborted = true → ¬ MeasuredIntrusion R →
        (m.recordRound R.runRound).2.event = .keyGenerationFailed ∧
          (m.recordRound R.runRound).1.intrusionCount = m.intrusionCount)) ↔
      Measurable R ∨ 1 < R.config.qberThreshold := by
  rw [recordRound_snd, snapshot_event, recordRound_intrusionCount]
  rcases runRound_reports R with ⟨hnot, habort, hqber, hno⟩ | ⟨hmeas, habort, hqber, hle, hyes⟩ |
    ⟨hmeas, habort, hqber, hlt, -, hno⟩ | ⟨hmeas, haccept, hno⟩
  · -- nothing was measured, so the classification compares 1 with the threshold
    rw [m.classify_aborted habort, hqber, hthreshold]
    by_cases hT : R.config.qberThreshold ≤ 1
    · simp [hT, hno, hnot, not_lt.mpr hT]
    · simp [hT, hno, not_le.mp hT, habort]
  · rw [m.classify_aborted habort, hqber, hthreshold]
    simp [hle, hyes, hmeas]
  · rw [m.classify_aborted habort, hqber, hthreshold]
    simp [not_le.mpr hlt, hno, hmeas, habort]
  · simp [m.classify_not_aborted haccept, hno, hmeas, haccept]

theorem intrusion_alarm_iff_quiet :
    (((({} : QBERMonitor).recordRound quietRound.runRound).2.event = .intrusionDetected ↔
        MeasuredIntrusion quietRound) ∧
      (quietRound.runRound.aborted = true → ¬ MeasuredIntrusion quietRound →
        (({} : QBERMonitor).recordRound quietRound.runRound).2.event = .keyGenerationFailed ∧
          (({} : QBERMonitor).recordRound quietRound.runRound).1.intrusionCount = 0)) :=
  (intrusion_alarm_iff {} quietRound rfl).mpr (.inl (by decide +kernel))

/-- The source sends nothing. -/
def silentRound : Round :=
  { quietRound with draws :=
      { lastPulseDraws with pulse := fun _ => { certainPulse with poisson := fun _ => 0 } } }

/-- Five pulses, all of them detected in equal bases. -/
def shortRound : Round :=
  { quietRound with config := { numRawBits := 5, channelParams := quietParams } }

/-- Neither round measured anything, and both raise the alarm. -/
theorem unmeasured_rounds_raise_alarm :
    silentRound.runRound.abortReason = some .noPhotons ∧
      shortRound.runRound.abortReason = some .insufficientSifted ∧
      ¬ MeasuredIntrusion silentRound ∧ ¬ MeasuredIntrusion shortRound ∧
      (({} : QBERMonitor).recordRound silentRound.runRound).2.event = .intrusionDetected ∧
      (({} : QBERMonitor).recordRound silentRound.runRound).1.intrusionCount = 1 ∧
      (({} : QBERMonitor).recordRound shortRound.runRound).2.event = .intrusionDetected ∧
      (({} : QBERMonitor).recordRound shortRound.runRound).1.intrusionCount = 1 := by
  decide +kernel

end QBERMonitor
