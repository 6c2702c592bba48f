/-
Sifting and the estimate with every exception they can raise (`_sift_keys`,
`_estimate_qber`).

The loops look every index up, and a bit of Bob's may be `None`.

* `siftKeys_eq_ok` — on the events of the chain sifting returns the total lists;
* `estimateQber_yields` — the estimate is the total one, unless the product with the sample
  fraction overflows.
-/
import QuantumVideoChat.CheckedLink
import QuantumVideoChat.Protocol

namespace Checked

open Exceptions PhysicalLayer Protocol

/-! ### Sifting and estimation -/

structure SiftedKeyResult where
  aliceSiftedBits : List PyBit
  bobSiftedBits : List PyBit
  matchingIndices : List ℕ
  rawKeyRate : ℚ
  detectionRate : ℚ

/-- `hits / total if total > 0 else 0.0`. -/
def rate (hits total : ℕ) : Py ℚ := if total > 0 then divide hits total else .ok 0

/-- The body of the loop in `_sift_keys`. -/
def siftStep (aliceBits : List PyBit) (aliceBases bobBases : List Basis)
    (s : List PyBit × List PyBit × List ℕ) (indexed : Event × ℕ) :
    Py (List PyBit × List PyBit × List ℕ) :=
  let (event, i) := indexed
  if event.detected then do
    let aliceBasis ← item aliceBases i
    let bobBasis ← item bobBases i
    if aliceBasis = bobBasis then
      let bit ← item aliceBits i
      return (s.1 ++ [bit], s.2.1 ++ [event.measuredBit], s.2.2 ++ [i])
    else return s
  else .ok s

/-- `_sift_keys`. -/
def siftKeys (aliceBits : List PyBit) (aliceBases bobBases : List Basis)
    (events : List Event) : Py SiftedKeyResult := do
  let (aliceSifted, bobSifted, matchingIndices) ←
    events.zipIdx.foldlM (siftStep aliceBits aliceBases bobBases) ([], [], [])
  let total := events.length
  let detected := events.countP fun e => e.detected
  let rawKeyRate ← rate aliceSifted.length total
  let detectionRate ← rate detected total
  return { aliceSiftedBits := aliceSifted, bobSiftedBits := bobSifted,
           matchingIndices := matchingIndices, rawKeyRate := rawKeyRate,
           detectionRate := detectionRate }

/-- One comparison of the error count. -/
def countError (aliceSifted bobSifted : List PyBit) (errors : ℕ) (i : ℕ) : Py ℕ := do
  let aliceBit ← item aliceSifted i
  let bobBit ← item bobSifted i
  return if aliceBit ≠ bobBit then errors + 1 else errors

/-- `_estimate_qber`. -/
def estimateQber (aliceSifted bobSifted : List PyBit) (sampleFraction threshold : ℚ) :
    Py QBEREstimate := do
  let wanted ← intOfProduct aliceSifted.length sampleFraction
  let sampleSize := (min (max 1 wanted) aliceSifted.length).toNat
  let errors ← (List.range sampleSize).foldlM (countError aliceSifted bobSifted) 0
  let qber ← rate errors sampleSize
  return { qber := qber, sampleSize := sampleSize, errorsFound := errors,
           isSecure := decide (qber < threshold) }

/-! ### Sifting returns the total lists -/

/-- The sifted lists of the total round as Python holds them. -/
def siftedKeys (s : Protocol.SiftedKeyResult) : SiftedKeyResult where
  aliceSiftedBits := s.aliceSiftedBits.map pyBit
  bobSiftedBits := s.bobSiftedBits.map pyBit
  matchingIndices := s.matchingIndices
  rawKeyRate := s.rawKeyRate
  detectionRate := s.detectionRate

theorem countP_detected_map (es : List DetectionEvent) :
    (es.map event).countP (fun e => e.detected) = es.countP fun e => e.detected := by
  rw [List.countP_map]
  rfl

theorem countP_darkCount_map (es : List DetectionEvent) :
    (es.map event).countP (fun e => e.isDarkCount) = es.countP fun e => e.isDarkCount := by
  rw [List.countP_map]
  rfl

theorem rate_eq_ok (hits total : ℕ) :
    rate hits total = .ok (if total > 0 then (hits : ℚ) / total else 0) := by
  rw [rate]
  split_ifs with h
  · exact divide_eq_ok (by exact_mod_cast h.ne')
  · rfl

theorem siftLoop_eq_ok {aliceBits : List Bool} {aliceBases bobBases : List Basis}
    {es : List DetectionEvent} (hbits : aliceBits.length = es.length)
    (halice : aliceBases.length = es.length) (hbob : bobBases.length = es.length) :
    (es.map event).zipIdx.foldlM (siftStep (aliceBits.map pyBit) aliceBases bobBases)
        ([], [], [])
      = .ok ((siftLoop aliceBits aliceBases bobBases es).1.map pyBit,
          (siftLoop aliceBits aliceBases bobBases es).2.1.map pyBit,
          (siftLoop aliceBits aliceBases bobBases es).2.2) := by
  rw [List.zipIdx_map, List.foldlM_map]
  let enc : List Bool × List Bool × List ℕ → List PyBit × List PyBit × List ℕ :=
    Prod.map (List.map pyBit) (Prod.map (List.map pyBit) id)
  have hloop : es.zipIdx.foldlM (fun s x => siftStep (aliceBits.map pyBit) aliceBases bobBases s
      (event x.1, x.2)) (enc ([], [], [])) = .ok (enc (siftLoop aliceBits aliceBases bobBases
        es)) := by
    refine foldlM_eq_ok enc (fun _ => True) (fun s _ x hx => ⟨?_, trivial⟩) trivial
    obtain ⟨e, i⟩ := x
    obtain ⟨aliceSifted, bobSifted, indices⟩ := s
    -- an index of the events is an index of the three lists
    have hi : i < es.length := (List.getElem?_eq_some_iff.mp
      (List.mem_zipIdx_iff_getElem?.mp hx)).choose
    show (if e.detected = true then _ else _) = Except.ok (enc (if h : e.detected = true ∧
        aliceBases.getD i .rectilinear = bobBases.getD i .rectilinear then
      (aliceSifted ++ [aliceBits.getD i false], bobSifted ++ [eventBit e h.1], indices ++ [i])
      else (aliceSifted, bobSifted, indices)))
    by_cases hdet : e.detected = true
    · rw [if_pos hdet, item_eq_ok (by omega) Basis.rectilinear,
        item_eq_ok (by omega) Basis.rectilinear]
      show (if _ then _ else _) = _
      by_cases hbasis : aliceBases.getD i .rectilinear = bobBases.getD i .rectilinear
      · have hbit : (event e).measuredBit = pyBit (eventBit e hdet) := by
          simp only [event, measuredBit_eq_some e hdet]
          rfl
        rw [if_pos hbasis, item_map pyBit (by omega) false, dif_pos ⟨hdet, hbasis⟩, hbit]
        simp [enc, bind, Except.bind, pure, Except.pure]
      · rw [if_neg hbasis, dif_neg fun h => hbasis h.2]
        rfl
    · rw [if_neg hdet, dif_neg fun h => hdet h.1]
  exact hloop

theorem siftKeys_eq_ok {aliceBits : List Bool} {aliceBases bobBases : List Basis}
    {es : List DetectionEvent} (hbits : aliceBits.length = es.length)
    (halice : aliceBases.length = es.length) (hbob : bobBases.length = es.length) :
    siftKeys (aliceBits.map pyBit) aliceBases bobBases (es.map event)
      = .ok (siftedKeys (Protocol.siftKeys aliceBits aliceBases bobBases es)) := by
  rw [siftKeys, siftLoop_eq_ok hbits halice hbob]
  simp only [bind, Except.bind, List.length_map, countP_detected_map, rate_eq_ok]
  rfl

/-! ### The estimate -/

theorem countErrors_eq_ok {aliceSifted bobSifted : List Bool} {sampleSize : ℕ}
    (halice : sampleSize ≤ aliceSifted.length) (hbob : sampleSize ≤ bobSifted.length) :
    (List.range sampleSize).foldlM
        (countError (aliceSifted.map pyBit) (bobSifted.map pyBit)) 0
      = .ok ((List.range sampleSize).countP (Cascade.differs aliceSifted bobSifted)) := by
  have hcount : ∀ (l : List ℕ) (c : ℕ), l.foldl (fun errors i =>
      if Cascade.differs aliceSifted bobSifted i = true then errors + 1 else errors) c
        = c + l.countP (Cascade.differs aliceSifted bobSifted) := by
    intro l
    induction l with
    | nil =>
      intro c
      rfl
    | cons i l ih =>
      intro c
      rw [List.foldl_cons, ih, List.countP_cons]
      split_ifs <;> omega
  rw [← Nat.zero_add (List.countP _ _), ← hcount]
  refine foldlM_eq_ok id (fun _ => True) (fun errors _ i hi => ⟨?_, trivial⟩) trivial
  have hi' := List.mem_range.mp hi
  rw [countError, item_map pyBit (by omega) false, item_map pyBit (by omega) false]
  show Except.ok (if _ then _ else _) = Except.ok (if _ then _ else _)
  refine congrArg Except.ok (if_congr ?_ rfl rfl)
  rw [Cascade.differs, bne_iff_ne, Ne, pyBit_injective.eq_iff]

/-- Only the product with the fraction can go wrong. -/
theorem estimateQber_yields {aliceSifted bobSifted : List Bool}
    (hlen : aliceSifted.length = bobSifted.length) (sampleFraction threshold : ℚ)
    {allowed : PyException → Prop}
    (hoverflow : floatLimit ≤ |aliceSifted.length * sampleFraction| → allowed .overflowError) :
    Yields allowed
      (estimateQber (aliceSifted.map pyBit) (bobSifted.map pyBit) sampleFraction threshold)
      (Protocol.estimateQber aliceSifted bobSifted sampleFraction threshold) := by
  have hwanted : Yields allowed
      (intOfProduct (aliceSifted.map pyBit).length sampleFraction)
      (pyInt (aliceSifted.length * sampleFraction)) := by
    rw [intOfProduct, List.length_map]
    split_ifs with h
    · exact .error (hoverflow h) _
    · exact .pure _
  refine hwanted.bind (yields_of_eq ?_)
  set sampleSize := (min (max 1 (pyInt (aliceSifted.length * sampleFraction)))
    aliceSifted.length).toNat with hsample
  have hle : sampleSize ≤ aliceSifted.length := by omega
  simp only [List.length_map, ← hsample, countErrors_eq_ok hle (hlen ▸ hle), rate_eq_ok, bind,
    Except.bind]
  rfl

end Checked
