/-
The two places where an intrusion shows: the events of the rotation thread
(`server/utils/av.py`), which the browser gets, and the monitor behind the dashboard.

`Watched` is an `AV` with its monitor; `turns` is a record of what reached either side in
each turn of the thread.

* `rotate_eq` — a turn runs one round, emits one event and records one snapshot;
* `channels_agree_iff` — the turns on which both sides agree;
* `thin_turn_disagrees` — a default round without errors that alarms one side only.
-/
import QuantumVideoChat.KeyRotation
import QuantumVideoChat.QBERMonitor
import QuantumVideoChat.DeadTime

open Protocol Encryption PhysicalLayer

/-! ### Too few bits for a key -/

namespace Protocol.Round

variable (R : Round)

/-- For a positive target there is no key exactly when no bit is secure. -/
theorem amplify_eq_none_iff (htarget : 0 < R.config.targetKeyLengthBits) :
    R.amplify R.correctedBits = none ↔ R.secureBits ≤ 0 := by
  show privacyAmplify _ _ _ _ _ = none ↔ maxSecureBits _ _ _ ≤ 0
  rw [privacyAmplify]
  by_cases hnil : R.correctedBits.length = 0
  · -- the empty string has -64 secure bits
    have hzero : maxSecureBits (binaryEntropy R.math) 0 R.estimate.qber
        = -securityParameter := by
      rw [maxSecureBits, Nat.cast_zero, zero_mul]
      rfl
    rw [if_pos hnil, hnil, hzero, securityParameter]
    simp
  · rw [if_neg hnil]
    dsimp only
    split_ifs with hlt hle
    · simp [hle]
    · simp [hle]
    · simp only [false_iff]
      omega

/-- The round measured an error rate below the threshold, but no secure bit is left. -/
def TooShort : Prop :=
  QBERMonitor.Measurable R ∧ R.estimate.qber < R.config.qberThreshold ∧ R.secureBits ≤ 0

instance : Decidable R.TooShort := inferInstanceAs (Decidable (_ ∧ _ ∧ _))

/-- With the protocol's threshold the monitor raises an alarm for every aborted round but
the short ones. -/
theorem classify_eq_intrusion_iff {m : QBERMonitor}
    (hthreshold : m.threshold = R.config.qberThreshold) (hone : R.config.qberThreshold ≤ 1)
    (htarget : 0 < R.config.targetKeyLengthBits) :
    m.classify R.runRound = .intrusionDetected ↔ R.runRound.aborted = true ∧ ¬ R.TooShort := by
  rcases QBERMonitor.runRound_reports R with ⟨hnot, habort, hqber, -⟩ |
    ⟨-, habort, hqber, hle, -⟩ | ⟨hmeas, habort, hqber, hlt, hamp, -⟩ | ⟨-, haccept, -⟩
  · have hlong : ¬ R.TooShort := fun h => hnot h.1
    rw [m.classify_aborted habort, hqber, hthreshold, if_pos hone]
    simp [hlong, habort]
  · have hlong : ¬ R.TooShort := fun h => absurd h.2.1 (not_lt.mpr hle)
    rw [m.classify_aborted habort, hqber, hthreshold, if_pos hle]
    simp [hlong, habort]
  · have hshort : R.TooShort := ⟨hmeas, hlt, (R.amplify_eq_none_iff htarget).mp hamp⟩
    rw [m.classify_aborted habort, hqber, hthreshold, if_neg (not_le.mpr hlt)]
    simp [hshort]
  · simp [m.classify_not_aborted haccept, haccept]

/-- A short round is an aborted round. -/
theorem aborted_of_tooShort (htarget : 0 < R.config.targetKeyLengthBits) (h : R.TooShort) :
    R.runRound.aborted = true := by
  by_contra hnot
  obtain ⟨-, -, -, key, hkey, -⟩ := R.runRound_of_not_aborted (by simpa using hnot)
  rw [(R.amplify_eq_none_iff htarget).mpr h.2.2] at hkey
  exact absurd hkey (by simp)

end Protocol.Round

/-! ### The rotation thread and the monitor -/

/-- What one turn told the callback and the monitor. -/
structure Turn where
  events : List QberEvent
  snapshots : List QBERSnapshot

def QberEvent.isIntrusion : QberEvent → Bool
  | .intrusionDetected .. => true
  | .keyRedistributed .. => false

/-- The callback is told of an intrusion if and only if the monitor classified one. -/
def Turn.Agrees (turn : Turn) : Prop :=
  (∃ event ∈ turn.events, event.isIntrusion = true) ↔
    ∃ snapshot ∈ turn.snapshots, snapshot.event = .intrusionDetected

instance (turn : Turn) : Decidable turn.Agrees := inferInstanceAs (Decidable (_ ↔ _))

structure Watched where
  av : AV
  monitor : QBERMonitor := {}
  turns : List Turn := []

namespace Watched

/-- The results that were handed to the metrics callback. -/
def reported : KeyGenerator → List BB84RoundResult
  | .bb84 G => G.metrics.getD []
  | _ => []

/-- `record_round` for each of some results. -/
def recordAll (monitor : QBERMonitor) (results : List BB84RoundResult) :
    QBERMonitor × List QBERSnapshot :=
  results.foldl
    (fun (monitor, snapshots) result =>
      let (monitor, snapshot) := monitor.recordRound result
      (monitor, snapshots ++ [snapshot]))
    (monitor, [])

inductive Action
  | setEavesdropper (eavesdropper : EavesdropperSimulator)
  | clearEavesdropper
  | rotateKeys (draws : KeyDraws)

def switchEve (f : BB84KeyGenerator → BB84KeyGenerator) : KeyGenerator → KeyGenerator
  | .bb84 G => .bb84 (f G)
  | G => G

/-- A turn of the thread: the monitor records what the generator reports on the way. -/
def rotate (math : MathFns) (keyLength : ℕ) (draws : KeyDraws) (w : Watched) : Watched :=
  let av := w.av.rotateKeys math keyLength draws
  let results := (reported av.keyGen).drop (reported w.av.keyGen).length
  let (monitor, snapshots) := recordAll w.monitor results
  { av := av
    monitor := monitor
    turns := w.turns ++
      [⟨(av.events.getD []).drop (w.av.events.getD []).length, snapshots⟩] }

def step (math : MathFns) (keyLength : ℕ) : Watched → Action → Watched
  | w, .setEavesdropper eavesdropper =>
    { w with av.keyGen := switchEve (fun G => G.setEavesdropper eavesdropper) w.av.keyGen }
  | w, .clearEavesdropper =>
    { w with av.keyGen := switchEve BB84KeyGenerator.clearEavesdropper w.av.keyGen }
  | w, .rotateKeys draws => w.rotate math keyLength draws

/-- An `AV` whose callback has just been registered. -/
def watch (av : AV) : Watched := { av := av.setQberEventCallback }

/-- The round of a turn is not a short one. -/
def EnoughBits (math : MathFns) (keyLength : ℕ) (w : Watched) : Action → Prop
  | .rotateKeys draws =>
    match w.av.keyGen with
    | .bb84 G => ¬ (G.round math keyLength draws.round).TooShort
    | _ => True
  | _ => True

/-- The event for a result: the thread looks at `aborted` alone. -/
def turnEvent (result : BB84RoundResult) : QberEvent :=
  if result.aborted then
    .intrusionDetected result.qber result.abortReason result.siftedBits
  else .keyRedistributed result.qber result.siftedBits result.finalKeyBits
    result.durationSeconds

/-- A BB84 generator that reports to the monitor, a running thread with a callback, and the
default threshold on both sides. -/
structure Running (w : Watched) (G : BB84KeyGenerator) : Prop where
  keyGen : w.av.keyGen = .bb84 G
  threshold : G.config.qberThreshold = 11 / 100
  target : 0 < G.config.targetKeyLengthBits
  metrics : G.metrics.isSome
  rotating : w.av.rotating = true
  events : w.av.events.isSome
  monitor : w.monitor.threshold = 11 / 100

variable (math : MathFns) (keyLength : ℕ) {w : Watched} {G : BB84KeyGenerator}

/-- One turn of a running thread. -/
theorem rotateKeys_bb84 (h : Running w G) (draws : KeyDraws) :
    let result := (G.round math keyLength draws.round).runRound
    (w.av.rotateKeys math keyLength draws).keyGen
        = .bb84 (G.generateKey math keyLength draws.round) ∧
      (w.av.rotateKeys math keyLength draws).rotating = true ∧
      (w.av.rotateKeys math keyLength draws).events
        = w.av.events.map fun events => events ++ [turnEvent result] := by
  intro result
  have hlast : (G.generateKey math keyLength draws.round).lastRoundResult = some result := by
    rw [BB84KeyGenerator.generateKey, BB84KeyGenerator.record_lastRoundResult]
  have hlast' : (KeyGenerator.bb84 (G.generateKey math keyLength draws.round)).lastRoundResult
      = some result := hlast
  have hgen : w.av.keyGen.generateKey math keyLength draws
      = (.bb84 (G.generateKey math keyLength draws.round), none) := by
    rw [h.keyGen]
    rfl
  have hrot := h.rotating
  have hab : (KeyGenerator.bb84 (G.generateKey math keyLength draws.round)).abortedRound
      = if result.aborted = true then some result else none :=
    KeyGenerator.abortedRound_record _ result
  rw [AV.rotateKeys, if_neg (by simp [hrot]), hgen]
  by_cases haborted : result.aborted = true
  · rw [if_pos haborted] at hab
    simp only [hab, turnEvent, haborted, if_true]
    exact ⟨rfl, hrot, rfl⟩
  · rw [if_neg haborted] at hab
    simp only [hab, hlast', turnEvent, haborted]
    exact ⟨rfl, hrot, rfl⟩

theorem recordRound_keeps (m : QBERMonitor) (result : BB84RoundResult) :
    (recordAll m [result]).2 = [m.snapshot result] ∧
      (recordAll m [result]).1.threshold = m.threshold := by
  show [(m.recordRound result).2] = _ ∧ (m.recordRound result).1.threshold = _
  rw [QBERMonitor.recordRound_snd, QBERMonitor.recordRound_threshold]
  exact ⟨rfl, rfl⟩

/-- A turn runs one round, emits one event and records one snapshot. -/
theorem rotate_eq (h : Running w G) (draws : KeyDraws) :
    let result := (G.round math keyLength draws.round).runRound
    Running (w.rotate math keyLength draws) (G.generateKey math keyLength draws.round) ∧
      (w.rotate math keyLength draws).turns
        = w.turns ++ [⟨[turnEvent result], [w.monitor.snapshot result]⟩] := by
  intro result
  obtain ⟨hgen, hrot, hevents⟩ := rotateKeys_bb84 math keyLength h draws
  obtain ⟨metrics, hmetrics⟩ := Option.isSome_iff_exists.mp h.metrics
  obtain ⟨events, hev⟩ := Option.isSome_iff_exists.mp h.events
  have hmetrics' : (G.generateKey math keyLength draws.round).metrics
      = some (metrics ++ [result]) := by
    rw [BB84KeyGenerator.generateKey, BB84KeyGenerator.record_metrics, hmetrics]
    rfl
  rw [hev] at hevents
  -- what the turn added to either list
  have hresults : (reported (w.av.rotateKeys math keyLength draws).keyGen).drop
      (reported w.av.keyGen).length = [result] := by
    rw [hgen, h.keyGen, reported, reported, hmetrics', hmetrics]
    simp
  have hadded : ((w.av.rotateKeys math keyLength draws).events.getD []).drop
      (w.av.events.getD []).length = [turnEvent result] := by
    rw [hevents, hev]
    simp [result]
  obtain ⟨hsnapshots, hthreshold⟩ := recordRound_keeps w.monitor result
  rw [rotate, hresults, hadded]
  dsimp only
  rw [hsnapshots]
  refine ⟨⟨hgen, ?_, ?_, ?_, hrot, ?_, hthreshold.trans h.monitor⟩, rfl⟩
  · rw [BB84KeyGenerator.generateKey_config]
    exact (BB84KeyGenerator.roundConfig_threshold G keyLength).trans h.threshold
  · rw [BB84KeyGenerator.generateKey_config]
    exact BB84KeyGenerator.roundConfig_target_pos h.target keyLength
  · rw [hmetrics']
    rfl
  · rw [hevents]
    rfl

/-- The turn of a round agrees unless the round is a short one. -/
theorem agrees_turn_iff (h : Running w G) (draws : KeyDraws) :
    Turn.Agrees ⟨[turnEvent (G.round math keyLength draws.round).runRound],
        [w.monitor.snapshot (G.round math keyLength draws.round).runRound]⟩ ↔
      ¬ (G.round math keyLength draws.round).TooShort := by
  set R := G.round math keyLength draws.round with hR
  have hthreshold : R.config.qberThreshold = 11 / 100 :=
    (BB84KeyGenerator.roundConfig_threshold G keyLength).trans h.threshold
  have htarget : 0 < R.config.targetKeyLengthBits :=
    BB84KeyGenerator.roundConfig_target_pos h.target keyLength
  have hclass := R.classify_eq_intrusion_iff (h.monitor.trans hthreshold.symm)
    (by rw [hthreshold]; norm_num) htarget
  have hevent : (turnEvent R.runRound).isIntrusion = true ↔ R.runRound.aborted = true := by
    rw [turnEvent]
    split_ifs with habort
    · simp [QberEvent.isIntrusion, habort]
    · simp [QberEvent.isIntrusion, habort]
  simp only [Turn.Agrees, List.mem_singleton, exists_eq_left, QBERMonitor.snapshot_event, hevent,
    hclass]
  constructor
  · intro hiff hshort
    exact (hiff.mp (R.aborted_of_tooShort htarget hshort)).2 hshort
  · exact fun hlong => ⟨fun habort => ⟨habort, hlong⟩, And.left⟩

/-- Every turn so far agrees. -/
def AllAgree (w : Watched) : Prop := ∀ turn ∈ w.turns, turn.Agrees

/-- A step keeps the thread running and adds a turn that agrees unless its round is a short
one. -/
theorem step_running (h : Running w G) (a : Action) :
    (∃ G', Running (step math keyLength w a) G') ∧
      (AllAgree (step math keyLength w a) ↔ AllAgree w ∧ EnoughBits math keyLength w a) := by
  cases a with
  | setEavesdropper eavesdropper =>
    refine ⟨⟨G.setEavesdropper eavesdropper, ?_, h.threshold, h.target, h.metrics, h.rotating,
      h.events, h.monitor⟩, (and_iff_left trivial).symm⟩
    rw [step, h.keyGen]
    rfl
  | clearEavesdropper =>
    refine ⟨⟨G.clearEavesdropper, ?_, h.threshold, h.target, h.metrics, h.rotating, h.events,
      h.monitor⟩, (and_iff_left trivial).symm⟩
    rw [step, h.keyGen]
    rfl
  | rotateKeys draws =>
    obtain ⟨hrun, hturns⟩ := rotate_eq math keyLength h draws
    refine ⟨⟨_, hrun⟩, ?_⟩
    simp only [AllAgree, step, hturns, List.mem_append, List.mem_singleton, or_imp,
      forall_and, forall_eq, EnoughBits, h.keyGen]
    rw [agrees_turn_iff math keyLength h draws]

theorem running_watch (content : Bytes) (draws : KeyDraws) (av : AV)
    (hinit : AV.init math content "BB84" keyLength draws = .ok av) :
    ∃ G, Running (watch av) G := by
  obtain ⟨G, hcreate, -, hgen, -, -, hrot, -⟩ := AV.init_eq_ok math hinit
  obtain rfl : KeyGenerator.bb84 {} = G := by
    simpa [KeyGenerator.createKeyGenerator] using hcreate
  have hconfig : (BB84KeyGenerator.generateKey math {} keyLength draws.round).config
      = BB84KeyGenerator.roundConfig {} keyLength := BB84KeyGenerator.generateKey_config ..
  refine ⟨_, hgen, ?_, ?_, rfl, hrot, rfl, rfl⟩
  · rw [BB84KeyGenerator.setMetricsCallback_config, hconfig,
      BB84KeyGenerator.roundConfig_threshold]
  · rw [BB84KeyGenerator.setMetricsCallback_config, hconfig]
    exact BB84KeyGenerator.roundConfig_target_pos (by norm_num) keyLength

theorem allAgree_iff (hw : ∃ G, Running w G) (actions : List Action) :
    AllAgree (actions.foldl (step math keyLength) w) ↔ AllAgree w ∧
      Transition.Along (step math keyLength) (EnoughBits math keyLength) w actions :=
  Transition.foldl_iff_along (I := fun w => ∃ G, Running w G)
    (fun _ a ⟨_, hG⟩ => (step_running math keyLength hG a).1)
    (fun _ a ⟨_, hG⟩ => (step_running math keyLength hG a).2) hw actions

/-- **When the two channels agree.**  In a run of the rotation thread with a callback, with
any switching of the eavesdropper, every turn agrees exactly when no turn's round is a
short one. -/
theorem channels_agree_iff (content : Bytes) (draws : KeyDraws) (av : AV)
    (hinit : AV.init math content "BB84" keyLength draws = .ok av) (actions : List Action) :
    AllAgree (actions.foldl (step math keyLength) (watch av)) ↔
      Transition.Along (step math keyLength) (EnoughBits math keyLength) (watch av) actions := by
  rw [allAgree_iff math keyLength (running_watch math keyLength content draws av hinit) actions]
  exact and_iff_right fun turn hturn => absurd hturn List.not_mem_nil

/-! ### A thin round -/

/-- Photons arrive at every fiftieth of the first `last` pulses and trigger the detector. -/
def thinDraws (last : ℕ) : RoundDraws :=
  { lastPulseDraws with pulse := fun i =>
      { clearPulse with poisson := fun _ => if i % 50 = 0 ∧ i < last then 1 else 0 } }

def thinRound (last : ℕ) : Round where
  math := degreeMath
  config := {}
  eavesdropper := none
  draws := thinDraws last

theorem half_below {p : ℚ} (hp : p ≤ 1 / 2) : UnitDraw.half.below p = false :=
  decide_eq_false (not_lt.mpr hp)

/-- Only an arriving photon can make the detector click. -/
theorem thin_fires {det : SinglePhotonDetector} (hdet : det.params = {}) (last i : ℕ) :
    (det.photonFires ((thinDraws last).pulse i)
        (transmit degreeMath {} ((thinDraws last).pulse i) (((thinDraws last).pulse i).poisson (1 / 10)))
          = true ∨
      det.darkFires ((thinDraws last).pulse i) = true ∨
      det.afterpulseFires ((thinDraws last).pulse i) i = true) ↔ i % 50 = 0 ∧ i < last := by
  have hdark : det.darkFires ((thinDraws last).pulse i) = false := by
    rw [SinglePhotonDetector.darkFires, hdet]
    exact half_below (by norm_num)
  have hafter : det.afterpulseFires ((thinDraws last).pulse i) i = false := by
    rw [SinglePhotonDetector.afterpulseFires, hdet]
    cases det.lastDetectionIndex with
    | none => rfl
    | some detection =>
      have hdraw : ((thinDraws last).pulse i).afterpulse.below (1 / 100) = false :=
        half_below (by norm_num)
      show (_ && ((thinDraws last).pulse i).afterpulse.below (1 / 100)) = false
      rw [hdraw, Bool.and_false]
  by_cases hi : i % 50 = 0 ∧ i < last
  · have hphoton : ((thinDraws last).pulse i).poisson (1 / 10) = 1 := if_pos hi
    simp only [hphoton, hi, and_self, iff_true]
    exact .inl rfl
  · have hphoton : ((thinDraws last).pulse i).poisson (1 / 10) = 0 := if_neg hi
    have hnone : det.photonFires ((thinDraws last).pulse i) 0 = false := rfl
    rw [hphoton, transmit, if_pos rfl, hnone, hdark, hafter]
    simp [hi]

theorem thin_clicks (last : ℕ) (aliceBits : List Bool) (aliceBases bobBases : List Basis)
    (i : ℕ) :
    Clicks degreeMath {} (thinDraws last).pulse aliceBits aliceBases bobBases i ↔
      i % 50 = 0 ∧ i < last := by
  have hdet := detectorAt_params degreeMath {} (thinDraws last).pulse aliceBits aliceBases bobBases
  have hfires := fun j => thin_fires (hdet j) last j
  rw [clicks_iff]
  refine ⟨fun h => (hfires i).mp h.2, fun hi => ⟨?_, (hfires i).mpr hi⟩⟩
  rw [SinglePhotonDetector.recovering]
  cases hlast : (detectorAt degreeMath {} (thinDraws last).pulse aliceBits aliceBases bobBases
      i).lastDetectionIndex with
  | none => rfl
  | some detection =>
    -- the last click is at an earlier multiple of 50, a dead time ago
    obtain ⟨j, hji, rfl, hj⟩ := clicks_of_lastDetectionIndex hlast
    have hj' := (hfires j).mp ((clicks_iff j).mp hj).2
    have hdead : (detectorAt degreeMath {} (thinDraws last).pulse aliceBits aliceBases bobBases
        i).deadTimePulses = 50 := by
      rw [SinglePhotonDetector.deadTimePulses, hdet]
      decide +kernel
    rw [hdead]
    simp only [decide_eq_false_iff_not, not_lt]
    omega

theorem thinRound_detectedCount (last : ℕ) :
    (thinRound last).detectedCount
      = ((Finset.range 4096).filter fun i => i % 50 = 0 ∧ i < last).card := by
  rw [Round.detectedCount, Round.events, countP_detected]
  exact congrArg Finset.card (Finset.filter_congr fun i _ => thin_clicks last _ _ _ i)

theorem thinRound_detectedCount_600 : (thinRound 600).detectedCount = 12 := by
  have hset : ((Finset.range 4096).filter fun i => i % 50 = 0 ∧ i < 600)
      = (Finset.range 12).image (· * 50) := by
    ext i
    simp only [Finset.mem_filter, Finset.mem_range, Finset.mem_image]
    constructor
    · rintro ⟨-, hmod, hlt⟩
      exact ⟨i / 50, by omega, by omega⟩
    · rintro ⟨k, hk, rfl⟩
      exact ⟨by omega, by omega, by omega⟩
  rw [thinRound_detectedCount, hset]
  decide

theorem thinRound_siftedCount (last : ℕ) :
    (thinRound last).siftedCount = (thinRound last).detectedCount := by
  have hbases : (thinRound last).aliceBases = (thinRound last).bobBases :=
    List.map_congr_left fun _ _ => rfl
  rw [Round.siftedCount, (thinRound last).sifted_lists.1, List.length_map,
    length_survivors_of_bases_eq _ _ _ hbases]
  rfl

theorem thinRound_aliceBits {last i : ℕ} (hi : i < (thinRound last).n) :
    (thinRound last).aliceBits.getD i false = false :=
  Round.getD_map_range (thinRound last).draws.aliceBit hi _

/-- A click carries the bit 0 that Alice sent. -/
theorem thinRound_measuredBit {last : ℕ} {event : DetectionEvent} {i : ℕ}
    (hevent : (thinRound last).events[i]? = some event) (hclick : event.detected = true) :
    event.measuredBit = some false := by
  have hi : i < (thinRound last).n := by simpa using (List.getElem?_eq_some_iff.mp hevent).choose
  rw [Round.events, simulateNPulses_getElem _ _ _ _ _ _ _ _ hi, Option.some_inj] at hevent
  subst hevent
  have hdet := detectorAt_params (thinRound last).math (thinRound last).config.channelParams
    (thinRound last).draws.pulse (thinRound last).sentBits (thinRound last).sentBases (thinRound last).bobBases i
  have hsent : (thinRound last).sent i = (false, .rectilinear) :=
    congrArg₂ Prod.mk (thinRound_aliceBits hi)
      (Round.getD_map_range (fun i => Basis.ofBit ((thinRound last).draws.aliceBasis i)) hi _)
  have hbit : (thinRound last).sentBits.getD i false = false :=
    (Round.getD_map_range (fun i => ((thinRound last).sent i).1) hi _).trans (by rw [hsent])
  have hbasis : (thinRound last).sentBases.getD i .rectilinear = .rectilinear :=
    (Round.getD_map_range (fun i => ((thinRound last).sent i).2) hi _).trans (by rw [hsent])
  have hbob : (thinRound last).bobBases.getD i .rectilinear = .rectilinear :=
    Round.getD_map_range (fun i => Basis.ofBit ((thinRound last).draws.bobBasis i)) hi _
  simp only [attemptAt, simulatePulse, emitPulse, hbit, hbasis, hbob] at hclick ⊢
  set det := detectorAt (thinRound last).math (thinRound last).config.channelParams (thinRound last).draws.pulse
    (thinRound last).sentBits (thinRound last).sentBases (thinRound last).bobBases i
  rcases det.detect_cases (thinRound last).math ((thinRound last).draws.pulse i) _
    (bitBasisToPolarization false .rectilinear) .rectilinear i with hmiss | ⟨-, -, hhit⟩
  · rw [hmiss] at hclick
    exact absurd hclick (by simp)
  · -- no dark count, equal bases and no flip
    have hdark : det.darkFires ((thinRound last).draws.pulse i) = false := by
      rw [SinglePhotonDetector.darkFires, hdet]
      exact half_below (by show (1 / 100000 : ℚ) ≤ 1 / 2; norm_num)
    have hflip : ((thinRound last).draws.pulse i).misalignment.below
        (det.misalignmentErrorProb (thinRound last).math) = false := by
      rw [SinglePhotonDetector.misalignmentErrorProb, hdet]
      exact half_below (by decide +kernel : degreeMath.sinDeg 1 ^ 2 ≤ 1 / 2)
    rw [hhit, hdark]
    simp [SinglePhotonDetector.measuredBit, hflip]

theorem thinRound_qber (last : ℕ) : (thinRound last).estimate.qber = 0 := by
  have hsame : (thinRound last).sifted.bobSiftedBits = (thinRound last).sifted.aliceSiftedBits := by
    rw [(thinRound last).sifted_lists.1, (thinRound last).sifted_lists.2.1]
    refine List.map_congr_left fun x hx => ?_
    obtain ⟨a, b, i⟩ := x
    obtain ⟨event, hevent, hclick, -, ha, hbit⟩ := (mem_survivors (thinRound last).aliceBits
      (thinRound last).aliceBases (thinRound last).bobBases).mp hx
    have hi : i < (thinRound last).n := by simpa using (List.getElem?_eq_some_iff.mp hevent).choose
    rw [thinRound_measuredBit hevent hclick, Option.some_inj] at hbit
    show b = a
    rw [ha, thinRound_aliceBits hi, hbit]
  exact Round.estimate_qber_of_eq hsame _ _

/-- Twelve clicks without an error, and no bit is left for a key. -/
theorem thinRound_tooShort : (thinRound 600).TooShort := by
  have hdetected := thinRound_detectedCount_600
  have hsifted := (thinRound_siftedCount 600).trans hdetected
  have hqber := thinRound_qber 600
  refine ⟨⟨?_, ?_⟩, ?_, ?_⟩
  · rw [hdetected]
    decide
  · rw [hsifted]
    decide
  · rw [hqber]
    show (0 : ℚ) < 11 / 100
    norm_num
  · have hsecure := maxSecureBits_le (fun _ => le_refl (0 : ℚ))
      (thinRound 600).correctedBits.length 0
    have hlen : (thinRound 600).correctedBits.length ≤ 12 := by
      rw [Round.length_correctedBits, Round.aliceRemaining, List.length_drop]
      exact (Nat.sub_le _ _).trans_eq hsifted
    rw [Round.secureBits, hqber]
    rw [maxSecureBits, if_neg (lt_irrefl 0)] at hsecure ⊢
    rw [securityParameter] at hsecure ⊢
    omega

/-- Without a single photon there is nothing to be short of. -/
theorem silent_not_tooShort : ¬ (thinRound 0).TooShort := by
  have hnone : (thinRound 0).detectedCount = 0 := by
    rw [thinRound_detectedCount, Finset.card_eq_zero]
    refine Finset.filter_false_of_mem fun i _ hi => ?_
    exact Nat.not_lt_zero i hi.2
  exact fun h => h.1.1 hnone

/-- The generator that a new `AV` hands to its thread runs the round above. -/
theorem round_of_new_generator (draws : RoundDraws) (last : ℕ) :
    (BB84KeyGenerator.generateKey degreeMath {} 128 draws).setMetricsCallback.round degreeMath
      128 (thinDraws last) = thinRound last := by
  rw [BB84KeyGenerator.round, BB84KeyGenerator.roundConfig,
    BB84KeyGenerator.setMetricsCallback_config, BB84KeyGenerator.setMetricsCallback_eavesdropper,
    BB84KeyGenerator.generateKey_config, BB84KeyGenerator.generateKey_eavesdropper]
  rfl

/-- A turn of the thread in which the generator runs the thin round. -/
def thinTurn (last : ℕ) : Action := .rotateKeys { AV.quietDraws with round := thinDraws last }

theorem silent_turn_agrees :
    ∃ av, AV.init degreeMath [] "BB84" 128 AV.quietDraws = .ok av ∧
      AllAgree ([thinTurn 0].foldl (step degreeMath 128) (watch av)) := by
  refine ⟨_, rfl, (channels_agree_iff degreeMath 128 [] AV.quietDraws _ rfl [thinTurn 0]).mpr
    ⟨?_, trivial⟩⟩
  show ¬ Round.TooShort (BB84KeyGenerator.round _ _ _ _)
  rw [round_of_new_generator]
  exact silent_not_tooShort

/-- The first turn runs a short round: the callback is told of an intrusion, the monitor
records a failed generation of a key. -/
theorem thin_turn_disagrees :
    ∃ av, AV.init degreeMath [] "BB84" 128 AV.quietDraws = .ok av ∧
      ¬ AllAgree ([thinTurn 600].foldl (step degreeMath 128) (watch av)) := by
  refine ⟨_, rfl, fun hall => ?_⟩
  obtain ⟨-, hlong, -⟩ := (allAgree_iff degreeMath 128 (running_watch degreeMath 128 [] AV.quietDraws _ rfl)
    [thinTurn 600]).mp hall
  change ¬ Round.TooShort (BB84KeyGenerator.round _ _ _ _) at hlong
  rw [round_of_new_generator] at hlong
  exact hlong thinRound_tooShort

end Watched
