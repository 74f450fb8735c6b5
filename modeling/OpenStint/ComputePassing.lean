/-
This file models `compute_passing_point` of `passing.cpp`, the estimate of a passing from
its hits. Few hits are averaged with their levels as weights. Otherwise the levels are
resampled to a uniform grid, and the passing is placed between three dips, between two peaks
of the smoothed levels, or between their -6 dB crossings. The model takes any float
operations, of single and of double precision, and tells which of the four cases applied.

The estimate depends on differences of timecodes only: hits that come later, on either
clock, give the same passing at the later time.
-/

import OpenStint.Crossings
import OpenStint.IdealPlatform
import OpenStint.Library.CheckedLoop
import OpenStint.Library.MaxElement
import OpenStint.Peaks
import OpenStint.Receiver

namespace OpenStint

open CheckedLoop Machine MaxElement

variable {R D : Type}

/-! ### The model -/

/-- The double precision arithmetic of `weigthed_passing`. -/
structure DoublePrecision (R D : Type) where
  /-- the conversion of a float -/
  widen : R → D
  /-- the conversion to a float -/
  narrow : D → R
  /-- `std::pow` of base 10 -/
  pow10 : D → D

/-- In exact arithmetic doubles are floats. -/
def exactDouble (platform : Platform R) : DoublePrecision R R where
  widen := id
  narrow := id
  pow10 := platform.pow10

inductive PassingBranch
  | weighted
  | dips
  | peaks
  | crossings
  deriving DecidableEq, Repr

def timecodeToUsec (samplesPerSymbol : Nat) (timecode : UInt64) : UInt64 :=
  timecode * 1000000 / sampleRate samplesPerSymbol

/-- The place between two samples of the uniform grid, and how long the passing took. -/
def passingBetween (samplesPerSymbol : Nat) (timestamp : UInt64) (maxRssi : R)
    (tcDuration : UInt64) (first last : Nat) : PassingPoint R :=
  let passDuration := (.ofNat last - .ofNat first) * tcDuration / 128
  let passCenterOffset := .ofNat first * tcDuration / 128 + passDuration / 2
  { weightedTimestamp := timestamp + timecodeToUsec samplesPerSymbol passCenterOffset
    maxRssi
    duration := timecodeToUsec samplesPerSymbol passDuration }

section Model

variable [Add R] [Sub R] [Mul R] [Div R] [Neg R] [NatCast R] [OfScientific R] [LT R]
  [DecidableLT R] [LE R] [DecidableLE R] [FloatDivision R]
  [Add D] [Mul D] [Div D] [NatCast D]
  (platform : Platform R) (double : DoublePrecision R D) (samplesPerSymbol : Nat)

/-- One turn of the loop of `weigthed_passing`: the weighted sum and the total weight. -/
def weighDetection (offset : Nat) (rssiThreshold : R) (sums : R × R) (d : Detection R) : R × R :=
  if rssiThreshold ≤ d.rssi then
    let p := double.pow10 (double.widen d.rssi / ((20 : Nat) : D))
    (double.narrow (double.widen sums.1 +
        double.widen (timecodeSince offset d.timecode : R) * p),
      double.narrow (double.widen sums.2 + p))
  else sums

def weigthedPassing (detections : List (Detection R)) (maxRssi : R) : Option (PassingPoint R) := do
  let front ← detections.head?
  let rssiThreshold := maxRssi - ((6 : Nat) : R)
  let sums := detections.foldl (weighDetection double front.timecode rssiThreshold)
    (((0 : Nat) : R), ((0 : Nat) : R))
  let timecodeAverage := platform.toUint64 (← divide sums.1 sums.2)
  return {
    weightedTimestamp := front.timestamp + timecodeToUsec samplesPerSymbol timecodeAverage
    maxRssi
    duration := 0 }

def smoothingFir : List R := [
  0.00000000, 0.01320163, 0.0588375,
  0.12796555, 0.19141461, 0.21716141,
  0.19141461, 0.12796555, 0.0588375,
  0.01320163, 0.00000000]

/-- A sample of the padding on the left, the reflection of `x[padlen - i]`. -/
def reflectLeft (x : List R) (padlen i : Nat) : Option R := do
  return ((2 : Nat) : R) * (← x[0]?) - (← x[padlen - i]?)

/-- A sample of the padding on the right. Without enough samples `n - 2 - i` wraps. -/
def reflectRight (x : List R) (i : Nat) : Option R :=
  if i + 2 ≤ x.length then do
    return ((2 : Nat) : R) * (← x[x.length - 1]?) - (← x[x.length - 2 - i]?)
  else none

/-- `filtfilt`: the filter runs over the samples, padded by reflection, and backwards over
its own output. -/
def filtfilt (b x : List R) : Option (List R) := do
  let padlen := 3 * b.length
  let left ← (List.range padlen).mapM (reflectLeft x padlen)
  let right ← (List.range padlen).mapM (reflectRight x)
  let (q, y1) := platform.firfiltExecuteBlock (platform.firfiltCreate b) (left ++ x ++ right)
  let (_, y2) := platform.firfiltExecuteBlock (platform.firfiltReset q) y1.reverse
  return (y2.reverse.drop padlen).take x.length

/-- The default of `compute_passing_point`: the middle between the -6 dB crossings. -/
def crossingsPassing (timestamp : UInt64) (maxRssi : R) (tcDuration : UInt64)
    (ySmoothed : List R) : Option (PassingPoint R) := do
  let front ← ySmoothed.head?
  let maxSmoothed := maxElement id front ySmoothed.tail
  let idxFirst ← firstCrossing ySmoothed (maxSmoothed - ((6 : Nat) : R))
  let idxLast ← lastCrossing ySmoothed (maxSmoothed - ((6 : Nat) : R))
  let passWidth := idxLast - idxFirst
  let passCenterOffset := platform.toUint64 ((idxFirst + passWidth / ((2 : Nat) : R)) /
    ((128 : Nat) : R) * (tcDuration.toNat : R))
  return {
    weightedTimestamp := timestamp + timecodeToUsec samplesPerSymbol passCenterOffset
    maxRssi
    duration := 0 }

/-- The part of `compute_passing_point` that works on the waveform. -/
def waveformPassing (timestamp : UInt64) (maxRssi : R) (tcDuration : UInt64)
    (yUniform : List R) : Option (PassingBranch × PassingPoint R) := do
  let rssiDips ← findPeaks (yUniform.map fun y => -y) ((3 : Nat) : R)
  match rssiDips with
  | [first, _, last] =>
    return (.dips, passingBetween samplesPerSymbol timestamp maxRssi tcDuration first.index
      last.index)
  | _ =>
    let ySmoothed ← filtfilt platform smoothingFir yUniform
    let rssiPeaks ← findPeaks ySmoothed ((1 : Nat) : R)
    match rssiPeaks with
    | [first, last] =>
      return (.peaks, passingBetween samplesPerSymbol timestamp maxRssi tcDuration first.index
        last.index)
    | _ =>
      return (.crossings,
        ← crossingsPassing platform samplesPerSymbol timestamp maxRssi tcDuration ySmoothed)

/-- `compute_passing_point`, with the branch it takes. -/
def computePassingPoint (detections : List (Detection R)) :
    Option (PassingBranch × PassingPoint R) := do
  let front ← detections.head?
  let maxRssi := (maxElement Detection.rssi front detections.tail).rssi
  if detections.length < 16 then
    return (.weighted, ← weigthedPassing platform double samplesPerSymbol detections maxRssi)
  else
    let (yUniform, _, tcDiff) ← resampUniform detections
    waveformPassing platform samplesPerSymbol front.timestamp maxRssi (.ofNat tcDiff) yUniform

end Model

/-! ### A point for every passing -/

section Filter

variable [Sub R] [Mul R] [NatCast R] (platform : Platform R)
  (outputs : ∀ filter samples,
    (platform.firfiltExecuteBlock filter samples).2.length = samples.length)

include outputs

/-- Enough samples are filtered without a read outside of them, and none is lost. -/
theorem filtfilt_defined {b x : List R} (enough : 3 * b.length < x.length) :
    ∃ y, filtfilt platform b x = some y ∧ y.length = x.length := by
  have reflectedLeft : ∀ i ∈ List.range (3 * b.length), ∃ sample,
      reflectLeft x (3 * b.length) i = some sample := by
    intro i _
    rw [reflectLeft, List.getElem?_eq_getElem (by omega : 0 < x.length),
      List.getElem?_eq_getElem (by omega : 3 * b.length - i < x.length)]
    exact ⟨_, rfl⟩
  have reflectedRight : ∀ i ∈ List.range (3 * b.length), ∃ sample,
      reflectRight x i = some sample := by
    intro i member
    have below := List.mem_range.mp member
    rw [reflectRight, if_pos (by omega),
      List.getElem?_eq_getElem (by omega : x.length - 1 < x.length),
      List.getElem?_eq_getElem (by omega : x.length - 2 - i < x.length)]
    exact ⟨_, rfl⟩
  obtain ⟨left, leftRead, leftLength⟩ := mapM_defined reflectedLeft
  obtain ⟨right, rightRead, rightLength⟩ := mapM_defined reflectedRight
  rw [List.length_range] at leftLength rightLength
  rw [filtfilt]
  dsimp only
  rw [leftRead, rightRead]
  simp only [Option.bind_eq_bind, Option.bind_some]
  refine ⟨_, rfl, ?_⟩
  rw [List.length_take, List.length_drop, List.length_reverse, outputs, List.length_reverse,
    outputs, List.length_append, List.length_append]
  omega

end Filter

section Defined

variable [Add R] [Sub R] [Mul R] [Div R] [Neg R] [NatCast R] [OfScientific R] [LT R]
  [DecidableLT R] [LE R] [DecidableLE R] [FloatDivision R]
  [Add D] [Mul D] [Div D] [NatCast D]
  (platform : Platform R) (double : DoublePrecision R D) (samplesPerSymbol : Nat)
  (quotients : ∀ dividend divisor : R, ∃ quotient, divide dividend divisor = some quotient)

include quotients

omit [Add R] [Mul R] [Div R] [Neg R] [OfScientific R] [LT R] [DecidableLT R] in
theorem weigthedPassing_defined {detections : List (Detection R)} (some_ : detections ≠ [])
    (maxRssi : R) :
    ∃ point, weigthedPassing platform double samplesPerSymbol detections maxRssi = some point := by
  rw [weigthedPassing, List.head?_eq_some_head some_]
  simp only [Option.bind_eq_bind, Option.bind_some]
  obtain ⟨average, quotient⟩ := quotients _ _
  rw [quotient]
  exact ⟨_, rfl⟩

omit [Neg R] [OfScientific R] in
theorem crossingsPassing_defined {ySmoothed : List R} (several : 2 ≤ ySmoothed.length)
    (timestamp : UInt64) (maxRssi : R) (tcDuration : UInt64) :
    ∃ point, crossingsPassing platform samplesPerSymbol timestamp maxRssi tcDuration ySmoothed =
      some point := by
  have some_ : ySmoothed ≠ [] := List.ne_nil_of_length_pos (by omega)
  let level := maxElement id (ySmoothed.head some_) ySmoothed.tail - ((6 : Nat) : R)
  obtain ⟨first, foundFirst⟩ := firstCrossing_defined quotients some_ level
  obtain ⟨last, foundLast⟩ := lastCrossing_defined quotients several level
  rw [crossingsPassing, List.head?_eq_some_head some_]
  simp only [Option.bind_eq_bind, Option.bind_some]
  rw [foundFirst, Option.bind_some, foundLast]
  exact ⟨_, rfl⟩

variable (outputs : ∀ filter samples,
  (platform.firfiltExecuteBlock filter samples).2.length = samples.length)

include outputs

theorem waveformPassing_defined {yUniform : List R} (size : yUniform.length = 129)
    (timestamp : UInt64) (maxRssi : R) (tcDuration : UInt64) :
    ∃ branch point, waveformPassing platform samplesPerSymbol timestamp maxRssi tcDuration
      yUniform = some (branch, point) := by
  have taps : (smoothingFir : List R).length = 11 := rfl
  have peaking : (yUniform.map fun y => -y) ≠ [] :=
    List.ne_nil_of_length_pos (by rw [List.length_map]; omega)
  obtain ⟨dips, foundDips⟩ := findPeaks_defined peaking ((3 : Nat) : R)
  obtain ⟨ySmoothed, smoothed, length⟩ :=
    filtfilt_defined platform outputs (b := smoothingFir) (x := yUniform) (by omega)
  obtain ⟨peaks, foundPeaks⟩ :=
    findPeaks_defined (List.ne_nil_of_length_pos (by omega : 0 < ySmoothed.length)) ((1 : Nat) : R)
  obtain ⟨point, crossed⟩ := crossingsPassing_defined platform samplesPerSymbol quotients
    (by omega : 2 ≤ ySmoothed.length) timestamp maxRssi tcDuration
  rw [waveformPassing, foundDips, smoothed]
  simp only [Option.bind_eq_bind, Option.bind_some, foundPeaks, crossed]
  split
  · exact ⟨_, _, rfl⟩
  · split <;> exact ⟨_, _, rfl⟩

/-- Hits give a point, whatever the float operations compute. -/
theorem computePassingPoint_defined {detections : List (Detection R)} (some_ : detections ≠ []) :
    ∃ branch point, computePassingPoint platform double samplesPerSymbol detections =
      some (branch, point) := by
  have front := List.head?_eq_some_head some_
  have back := List.getLast?_eq_some_getLast some_
  rw [computePassingPoint, front]
  simp only [Option.bind_eq_bind, Option.bind_some]
  split
  · obtain ⟨point, averaged⟩ := weigthedPassing_defined platform double samplesPerSymbol quotients
      some_ (maxElement Detection.rssi (detections.head some_) detections.tail).rssi
    rw [averaged]
    exact ⟨_, _, rfl⟩
  · obtain ⟨⟨yUniform, tcMin, tcDiff⟩, resampled⟩ :=
      resampUniform_defined quotients (by omega : 2 ≤ detections.length)
    obtain ⟨size, -⟩ := resampUniform_some front back resampled
    rw [resampled]
    exact waveformPassing_defined platform samplesPerSymbol quotients outputs size _ _ _

end Defined

/-! ### Hits at a later time -/

/-- The hit, later by `a` on the system clock and by `b` in the stream. -/
def Detection.later (a : UInt64) (b : Nat) (d : Detection R) : Detection R :=
  { d with timestamp := d.timestamp + a, timecode := d.timecode + b }

def PassingPoint.later (a : UInt64) (point : PassingPoint R) : PassingPoint R :=
  { point with weightedTimestamp := point.weightedTimestamp + a }

theorem timecodeSince_later (first later b : Nat) :
    timecodeSince (first + b) (later + b) = timecodeSince first later := by
  rw [timecodeSince, timecodeSince]
  split <;> split <;> omega

theorem add_later (timestamp a offset : UInt64) :
    timestamp + a + offset = timestamp + offset + a := by
  rw [UInt64.add_assoc, UInt64.add_comm a, UInt64.add_assoc]

theorem passingBetween_later (samplesPerSymbol : Nat) (timestamp a : UInt64) (maxRssi : R)
    (tcDuration : UInt64) (first last : Nat) :
    passingBetween samplesPerSymbol (timestamp + a) maxRssi tcDuration first last =
      (passingBetween samplesPerSymbol timestamp maxRssi tcDuration first last).later a := by
  rw [passingBetween, passingBetween, PassingPoint.later]
  dsimp only
  rw [add_later]

/-- The largest level does not depend on the clocks. -/
theorem rssi_maxElement_later [LT R] [DecidableLT R] (a : UInt64) (b : Nat)
    (front : Detection R) (rest : List (Detection R)) :
    (maxElement Detection.rssi (front.later a b) (rest.map (Detection.later a b))).rssi =
      (maxElement Detection.rssi front rest).rssi := by
  induction rest generalizing front with
  | nil => rfl
  | cons detection rest inductionHypothesis =>
    have best : (if (front.later a b).rssi < (detection.later a b).rssi then detection.later a b
        else front.later a b) =
        Detection.later a b (if front.rssi < detection.rssi then detection else front) :=
      (apply_ite (Detection.later a b) _ _ _).symm
    rw [List.map_cons, maxElement_cons, maxElement_cons, best, inductionHypothesis]

theorem normalizedTimecodes_later [NatCast R] [FloatDivision R] (a : UInt64) (b : Nat)
    (detections : List (Detection R)) :
    normalizedTimecodes (detections.map (Detection.later a b)) =
      normalizedTimecodes detections := by
  rw [normalizedTimecodes, normalizedTimecodes, List.head?_map, List.getLast?_map]
  cases detections.head? with
  | none => rfl
  | some front =>
    cases detections.getLast? with
    | none => rfl
    | some back =>
      simp only [Option.map_some, Option.bind_eq_bind, Option.bind_some, List.mapM_map,
        Function.comp_def, Detection.later, timecodeSince_later]

section Later

variable [Add R] [Sub R] [Mul R] [Div R] [Neg R] [NatCast R] [OfScientific R] [LT R]
  [DecidableLT R] [LE R] [DecidableLE R] [FloatDivision R]
  [Add D] [Mul D] [Div D] [NatCast D]
  (platform : Platform R) (double : DoublePrecision R D) (samplesPerSymbol : Nat)
  (a : UInt64) (b : Nat)

omit [Add R] [Mul R] [Div R] [Neg R] [OfScientific R] [LT R] [DecidableLT R] in
theorem weigthedPassing_later (detections : List (Detection R)) (maxRssi : R) :
    weigthedPassing platform double samplesPerSymbol (detections.map (Detection.later a b))
        maxRssi =
      (weigthedPassing platform double samplesPerSymbol detections maxRssi).map
        (PassingPoint.later a) := by
  have turn : ∀ offset threshold sums (d : Detection R),
      weighDetection double (offset + b) threshold sums (d.later a b) =
        weighDetection double offset threshold sums d := by
    intro offset threshold sums d
    rw [weighDetection, weighDetection, Detection.later]
    dsimp only
    rw [timecodeSince_later]
  rw [weigthedPassing, weigthedPassing, List.head?_map]
  cases detections.head? with
  | none => rfl
  | some front =>
    have sums : ∀ threshold start, (detections.map (Detection.later a b)).foldl
        (weighDetection double (front.later a b).timecode threshold) start =
          detections.foldl (weighDetection double front.timecode threshold) start := by
      intro threshold start
      rw [List.foldl_map]
      exact List.foldl_ext _ _ _ fun sums d _ => turn _ _ _ d
    simp only [Option.map_some, Option.bind_eq_bind, Option.bind_some, sums, Option.map_bind]
    refine Option.bind_congr fun average _ => congrArg some ?_
    rw [PassingPoint.later, Detection.later, add_later]

omit [Neg R] [OfScientific R] in
theorem crossingsPassing_later (timestamp : UInt64) (maxRssi : R) (tcDuration : UInt64)
    (ySmoothed : List R) :
    crossingsPassing platform samplesPerSymbol (timestamp + a) maxRssi tcDuration ySmoothed =
      (crossingsPassing platform samplesPerSymbol timestamp maxRssi tcDuration ySmoothed).map
        (PassingPoint.later a) := by
  rw [crossingsPassing, crossingsPassing]
  simp only [Option.bind_eq_bind, Option.map_bind, Function.comp_def]
  refine Option.bind_congr fun front _ => Option.bind_congr fun idxFirst _ =>
    Option.bind_congr fun idxLast _ => congrArg some ?_
  rw [PassingPoint.later, add_later]

theorem waveformPassing_later (timestamp : UInt64) (maxRssi : R) (tcDuration : UInt64)
    (yUniform : List R) :
    waveformPassing platform samplesPerSymbol (timestamp + a) maxRssi tcDuration yUniform =
      (waveformPassing platform samplesPerSymbol timestamp maxRssi tcDuration yUniform).map
        (Prod.map id (PassingPoint.later a)) := by
  rw [waveformPassing, waveformPassing]
  simp only [Option.bind_eq_bind, Option.map_bind, Function.comp_def]
  refine Option.bind_congr fun rssiDips _ => ?_
  split
  · rw [passingBetween_later]
    rfl
  · simp only [Option.map_bind, Function.comp_def]
    refine Option.bind_congr fun ySmoothed _ => Option.bind_congr fun rssiPeaks _ => ?_
    split
    · rw [passingBetween_later]
      rfl
    · rw [crossingsPassing_later]
      cases crossingsPassing platform samplesPerSymbol timestamp maxRssi tcDuration ySmoothed <;>
        rfl

omit [Neg R] [OfScientific R] in
theorem resampUniform_later (detections : List (Detection R)) :
    resampUniform (detections.map (Detection.later a b)) =
      (resampUniform detections).map fun (yUniform, tcMin, tcDiff) =>
        (yUniform, tcMin + b, tcDiff) := by
  rw [resampUniform, resampUniform, normalizedTimecodes_later, List.head?_map, List.getLast?_map]
  cases detections.head? with
  | none => rfl
  | some front =>
    cases detections.getLast? with
    | none => rfl
    | some back =>
      simp only [Option.map_some, Option.bind_eq_bind, Option.bind_some, Option.map_bind,
        Function.comp_def, List.map_map, Detection.later, timecodeSince_later]
      rfl

/-- The estimate of hits that come later on either clock. -/
theorem computePassingPoint_map_later (detections : List (Detection R)) :
    computePassingPoint platform double samplesPerSymbol (detections.map (Detection.later a b)) =
      (computePassingPoint platform double samplesPerSymbol detections).map
        (Prod.map id (PassingPoint.later a)) := by
  cases detections with
  | nil => rfl
  | cons front rest =>
    have sameWeights := weigthedPassing_later platform double samplesPerSymbol a b (front :: rest)
    have sameWaveform := resampUniform_later a b (front :: rest)
    rw [List.map_cons] at sameWeights sameWaveform ⊢
    rw [computePassingPoint, computePassingPoint]
    simp only [List.head?_cons, Option.bind_eq_bind, Option.bind_some, List.tail_cons,
      rssi_maxElement_later, List.length_cons, List.length_map, sameWeights, sameWaveform]
    split
    · rw [Option.map_bind]
      cases weigthedPassing platform double samplesPerSymbol (front :: rest) _ <;> rfl
    · cases resampUniform (front :: rest) with
      | none => rfl
      | some resampled => exact waveformPassing_later platform samplesPerSymbol a _ _ _ _

/-- Hits that come later on either clock give the same estimate, at the later time. Of the float
operations it matters only that every quotient exists, and of the filter that it writes one output
for each sample. -/
theorem computePassingPoint_later
    (quotients : ∀ dividend divisor : R, ∃ quotient, divide dividend divisor = some quotient)
    (outputs : ∀ filter samples,
      (platform.firfiltExecuteBlock filter samples).2.length = samples.length)
    {detections : List (Detection R)} (some_ : detections ≠ []) :
    ∃ branch point,
      computePassingPoint platform double samplesPerSymbol detections = some (branch, point) ∧
        computePassingPoint platform double samplesPerSymbol
          (detections.map (Detection.later a b)) = some (branch, point.later a) := by
  obtain ⟨branch, point, computed⟩ := computePassingPoint_defined platform double samplesPerSymbol
    quotients outputs some_
  refine ⟨branch, point, computed, ?_⟩
  rw [computePassingPoint_map_later, computed]
  rfl

end Later

/-- Division as it is for floats: every quotient exists. -/
noncomputable abbrev totalDivision : FloatDivision ℝ :=
  ⟨fun dividend divisor => dividend / divisor⟩

/-- Sixteen hits, a hundred samples apart. -/
def sixteenHits : List (Detection ℝ) :=
  (List.range 16).map fun i => ⟨.ofNat (1000000 + 20 * i), 5000 + 100 * i, 0⟩

/-- Two hits, which are averaged, and sixteen, which are resampled, a second later and 2^40 samples
later. -/
theorem computePassingPoint_later_second :
    letI := totalDivision
    (∃ branch point,
      computePassingPoint idealPlatform (exactDouble idealPlatform) 4
          [⟨1000000, 5000, -20⟩, ⟨1000400, 7000, -18⟩] = some (branch, point) ∧
        computePassingPoint idealPlatform (exactDouble idealPlatform) 4
          ([⟨1000000, 5000, -20⟩, ⟨1000400, 7000, -18⟩].map (.later 1000000 (2 ^ 40))) =
            some (branch, point.later 1000000)) ∧
      ∃ branch point,
        computePassingPoint idealPlatform (exactDouble idealPlatform) 4 sixteenHits =
            some (branch, point) ∧
          computePassingPoint idealPlatform (exactDouble idealPlatform) 4
            (sixteenHits.map (.later 1000000 (2 ^ 40))) = some (branch, point.later 1000000) := by
  let := totalDivision
  have quotients : ∀ dividend divisor : ℝ, ∃ quotient, divide dividend divisor = some quotient :=
    fun _ _ => ⟨_, rfl⟩
  have outputs : ∀ filter samples,
      (idealPlatform.firfiltExecuteBlock filter samples).2.length = samples.length :=
    fun filter samples => length_convolveBlock filter.1 filter.2 samples
  exact ⟨computePassingPoint_later idealPlatform (exactDouble idealPlatform) 4 1000000 (2 ^ 40)
      quotients outputs (List.cons_ne_nil _ _),
    computePassingPoint_later idealPlatform (exactDouble idealPlatform) 4 1000000 (2 ^ 40)
      quotients outputs (List.map_eq_nil_iff.not.mpr (by decide))⟩

end OpenStint
