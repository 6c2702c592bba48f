/-
What the QBER monitor shows (`QBERMonitor.get_history`, `get_summary`, `reset`).

The rounds recorded since the last reset determine the monitor: `ofRounds` computes it from
them, and the counters and the bounded history are read off there.

* `recordRound_ofRounds` — recording a round is appending it;
* `run_eq_ofRounds` — a run of the monitor is the list of its rounds;
* `figures_of_rounds` — every figure of the dashboard as a function of that list.
-/
import QuantumVideoChat.BoundedHistory
import QuantumVideoChat.QBERMonitor

namespace QBERMonitor

open Protocol BoundedHistory

def init (threshold warningThreshold : ℚ) (historySize : ℕ) : QBERMonitor where
  threshold := threshold
  warningThreshold := warningThreshold
  historySize := historySize

/-- `get_history`: a copy of the deque. -/
def getHistory (m : QBERMonitor) : List QBERSnapshot := m.history

/-- `avg_qber`, before it is rounded: over `history[-10:]`. -/
def averageQber (history : List QBERSnapshot) : ℚ :=
  let recentQbers := (history.rtake 10).map (·.qber)
  if recentQbers = [] then 0 else recentQbers.sum / recentQbers.length

structure Summary where
  totalRounds : ℕ
  successfulRounds : ℕ
  failedRounds : ℕ
  intrusionCount : ℕ
  currentQber : Option ℚ
  averageQberLast10 : ℚ
  totalSiftedBits : ℕ
  totalFinalBits : ℕ
  latestEvent : Option String
  threshold : ℚ
  warningThreshold : ℚ

/-- `get_summary`. -/
def getSummary (m : QBERMonitor) : Summary :=
  let latest := m.history.getLast?
  { totalRounds := m.totalRounds
    successfulRounds := m.successfulRounds
    failedRounds := m.failedRounds
    intrusionCount := m.intrusionCount
    currentQber := latest.map (·.qber)
    averageQberLast10 := pyRound (averageQber m.history) 6
    totalSiftedBits := m.totalSiftedBits
    totalFinalBits := m.totalFinalBits
    latestEvent := latest.map (·.event.value)
    threshold := m.threshold
    warningThreshold := m.warningThreshold }

/-! ### The monitor and its rounds -/

inductive Action
  | recordRound (result : BB84RoundResult)
  | reset

def step (m : QBERMonitor) : Action → QBERMonitor
  | .recordRound result => (m.recordRound result).1
  | .reset => m.reset

/-- The rounds recorded since the last reset, after `rounds` and then `a`. -/
def remember (rounds : List BB84RoundResult) : Action → List BB84RoundResult
  | .recordRound result => rounds ++ [result]
  | .reset => []

def sinceReset (actions : List Action) : List BB84RoundResult := actions.foldl remember []

/-- The monitor with the thresholds of `m` that has seen `rounds`. -/
def ofRounds (m : QBERMonitor) (rounds : List BB84RoundResult) : QBERMonitor where
  threshold := m.threshold
  warningThreshold := m.warningThreshold
  historySize := m.historySize
  history := (rounds.map m.snapshot).rtake m.historySize
  intrusionCount := rounds.countP fun r => m.classify r = .intrusionDetected
  totalRounds := rounds.length
  successfulRounds := rounds.countP fun r => !r.aborted
  failedRounds := rounds.countP fun r => r.aborted
  totalSiftedBits := (rounds.map (·.siftedBits)).sum
  totalFinalBits := (rounds.map (·.finalKeyBits)).sum

variable (m : QBERMonitor)

/-- The classification reads the thresholds only. -/
theorem classify_ofRounds (rounds : List BB84RoundResult) (result : BB84RoundResult) :
    (m.ofRounds rounds).classify result = m.classify result := rfl

theorem snapshot_ofRounds (rounds : List BB84RoundResult) (result : BB84RoundResult) :
    (m.ofRounds rounds).snapshot result = m.snapshot result := rfl

theorem appendHistory_ofRounds (rounds : List BB84RoundResult) (result : BB84RoundResult) :
    (m.ofRounds rounds).appendHistory (m.snapshot result)
      = ((rounds ++ [result]).map m.snapshot).rtake m.historySize := by
  rw [List.map_append, List.map_singleton, ← push_rtake]
  rfl

/-- An alarm is an aborted round. -/
theorem aborted_of_intrusion {result : BB84RoundResult}
    (h : m.classify result = .intrusionDetected) : result.aborted = true := by
  by_contra hnot
  exact m.classify_not_aborted (by simpa using hnot) h

theorem recordRound_ofRounds (rounds : List BB84RoundResult) (result : BB84RoundResult) :
    ((m.ofRounds rounds).recordRound result).1 = m.ofRounds (rounds ++ [result]) := by
  have hhistory := m.appendHistory_ofRounds rounds result
  simp only [recordRound, classify_ofRounds, snapshot_ofRounds, hhistory]
  -- three kinds of rounds: accepted, aborted with an alarm, aborted without
  by_cases habort : result.aborted = true
  · by_cases hevent : m.classify result = .intrusionDetected
    · simp [ofRounds, habort, hevent]
    · simp [ofRounds, habort, hevent]
  · have hevent : m.classify result ≠ .intrusionDetected := fun h =>
      habort (m.aborted_of_intrusion h)
    simp [ofRounds, habort, hevent]

theorem reset_ofRounds (rounds : List BB84RoundResult) :
    (m.ofRounds rounds).reset = m.ofRounds [] := by
  simp [reset, ofRounds]

theorem step_ofRounds (rounds : List BB84RoundResult) (a : Action) :
    (m.ofRounds rounds).step a = m.ofRounds (remember rounds a) := by
  cases a with
  | recordRound result => exact m.recordRound_ofRounds rounds result
  | reset => exact m.reset_ofRounds rounds

/-- The run of the monitor is the run of the list of its rounds. -/
theorem run_ofRounds (actions : List Action) (rounds : List BB84RoundResult) :
    actions.foldl step (m.ofRounds rounds) = m.ofRounds (actions.foldl remember rounds) := by
  induction actions generalizing rounds with
  | nil => rfl
  | cons a actions ih => rw [List.foldl_cons, step_ofRounds, ih, List.foldl_cons]

theorem init_eq_ofRounds (threshold warningThreshold : ℚ) (historySize : ℕ) :
    init threshold warningThreshold historySize
      = (init threshold warningThreshold historySize).ofRounds [] := by
  simp [init, ofRounds]

theorem run_eq_ofRounds (threshold warningThreshold : ℚ) (historySize : ℕ)
    (actions : List Action) :
    actions.foldl step (init threshold warningThreshold historySize)
      = (init threshold warningThreshold historySize).ofRounds (sinceReset actions) := by
  conv_lhs => rw [init_eq_ofRounds]
  exact run_ofRounds _ actions []

/-! ### The figures -/

/-- Every round is accepted or aborted. -/
theorem length_eq_countP_aborted (rounds : List BB84RoundResult) :
    rounds.length = rounds.countP (fun r => !r.aborted) + rounds.countP fun r => r.aborted := by
  rw [rounds.length_eq_countP_add_countP (p := fun r => !r.aborted)]
  simp

theorem averageQber_eq (history : List QBERSnapshot) :
    averageQber history
      = ((history.rtake (min 10 history.length)).map (·.qber)).sum
          / (min 10 history.length : ℕ) := by
  rw [rtake_min, averageQber, List.length_map, length_rtake]
  by_cases h : (history.rtake 10).map (·.qber) = []
  · simp [h]
  · simp [h]

/-- **The figures of the dashboard.** -/
theorem figures_of_rounds (threshold warningThreshold : ℚ) (historySize : ℕ)
    (hsize : 1 ≤ historySize) (actions : List Action) :
    let m := actions.foldl step (init threshold warningThreshold historySize)
    let rounds := sinceReset actions
    let snapshots := rounds.map (init threshold warningThreshold historySize).snapshot
    m.getSummary.totalRounds = rounds.length ∧
      m.getSummary.totalRounds = m.getSummary.successfulRounds + m.getSummary.failedRounds ∧
      m.getSummary.failedRounds = rounds.countP (fun r => r.aborted) ∧
      m.getSummary.intrusionCount = snapshots.countP (fun s => s.event = .intrusionDetected) ∧
      m.getSummary.intrusionCount ≤ m.getSummary.failedRounds ∧
      m.getSummary.totalSiftedBits = (rounds.map (·.siftedBits)).sum ∧
      m.getSummary.totalFinalBits = (rounds.map (·.finalKeyBits)).sum ∧
      m.getHistory = snapshots.rtake (min historySize m.getSummary.totalRounds) ∧
      m.getSummary.currentQber = snapshots.getLast?.map (·.qber) ∧
      m.getSummary.latestEvent = snapshots.getLast?.map (·.event.value) ∧
      averageQber m.getHistory
        = ((m.getHistory.rtake (min 10 m.getHistory.length)).map (·.qber)).sum
            / (min 10 m.getHistory.length : ℕ) ∧
      m.getSummary.averageQberLast10 = pyRound (averageQber m.getHistory) 6 := by
  dsimp only
  rw [run_eq_ofRounds]
  set fresh := init threshold warningThreshold historySize
  set rounds := sinceReset actions
  have hlast : (fresh.ofRounds rounds).history.getLast? = (rounds.map fresh.snapshot).getLast? :=
    getLast?_rtake hsize _
  refine ⟨rfl, length_eq_countP_aborted rounds, rfl, ?_, ?_, rfl, rfl, ?_, ?_, ?_,
    averageQber_eq _, rfl⟩
  · show rounds.countP _ = _
    rw [List.countP_map]
    rfl
  · exact List.countP_mono_left fun r _ hr => fresh.aborted_of_intrusion (by simpa using hr)
  · show (rounds.map fresh.snapshot).rtake historySize
      = (rounds.map fresh.snapshot).rtake (min historySize rounds.length)
    rw [← rtake_min (rounds.map fresh.snapshot) historySize, List.length_map]
  · show (fresh.ofRounds rounds).history.getLast?.map _ = _
    rw [hlast]
  · show (fresh.ofRounds rounds).history.getLast?.map _ = _
    rw [hlast]

/-- A round before a reset, and two rounds after it. -/
def overflowRun : List Action :=
  [.recordRound silentRound.runRound, .reset, .recordRound quietRound.runRound,
    .recordRound shortRound.runRound]

/-- A history of length 1 shows the second of them only. -/
theorem figures_of_overflowRun :
    (overflowRun.foldl step (init (11 / 100) (5 / 100) 1)).getSummary.totalRounds = 2 ∧
      (overflowRun.foldl step (init (11 / 100) (5 / 100) 1)).getHistory
        = [(init (11 / 100) (5 / 100) 1).snapshot shortRound.runRound] := by
  obtain ⟨htotal, -, -, -, -, -, -, hhistory, -⟩ :=
    figures_of_rounds (11 / 100) (5 / 100) 1 (by decide) overflowRun
  refine ⟨htotal, ?_⟩
  rw [hhistory, htotal]
  rfl

end QBERMonitor
