/-
This file proves that the estimate of a passing lies inside the passing: not before the
first hit, not after the last one, and no longer than the time between them, in each of the
four cases and whatever the smoothing filter returns. On the way no division is by zero and
no read is outside of a vector. Timecodes increase, and no 64-bit sum or product of the
conversion to microseconds overflows.

An average with positive weights is between the smallest and the largest value. A peak of
the waveform has an index below 128, and a crossing lies between the ends of the grid; the
grid spans the time between the first hit and the last one.
-/

import OpenStint.ZeroPhase

namespace OpenStint

open Machine MaxElement

variable {R : Type}

/-! ### Microseconds -/

/-- A passing point inside of a time span. -/
structure Inside (timestamp span : UInt64) (point : PassingPoint R) : Prop where
  after : timestamp ≤ point.weightedTimestamp
  before : point.weightedTimestamp ≤ timestamp + span
  short : point.duration ≤ span

theorem toNat_ofNat64 {value : Nat} (fits : value < 2 ^ 64) :
    (UInt64.ofNat value).toNat = value := UInt64.toNat_ofNat_of_lt fits

section Span

variable {samplesPerSymbol : Nat} {timestamp : UInt64} {duration : Nat}
  (fits : duration * 1000000 < 2 ^ 64)
  (sum : timestamp.toNat + (timecodeToUsec samplesPerSymbol (.ofNat duration)).toNat < 2 ^ 64)

include fits

theorem timecodeToUsec_le {timecode : UInt64} (within : timecode.toNat ≤ duration) :
    timecodeToUsec samplesPerSymbol timecode ≤
      timecodeToUsec samplesPerSymbol (.ofNat duration) := by
  have million : (1000000 : UInt64).toNat = 1000000 := rfl
  have whole : (UInt64.ofNat duration).toNat = duration := toNat_ofNat64 (by omega)
  have product : timecode.toNat * 1000000 ≤ duration * 1000000 := by omega
  rw [UInt64.le_iff_toNat_le, timecodeToUsec, timecodeToUsec, UInt64.toNat_div, UInt64.toNat_div,
    UInt64.toNat_mul, UInt64.toNat_mul, million, whole, Nat.mod_eq_of_lt fits,
    Nat.mod_eq_of_lt (product.trans_lt fits)]
  exact Nat.div_le_div_right product

include sum

theorem inside_of_le {center passDuration : UInt64} (within : center.toNat ≤ duration)
    (short : passDuration ≤ timecodeToUsec samplesPerSymbol (.ofNat duration)) (maxRssi : R) :
    Inside timestamp (timecodeToUsec samplesPerSymbol (.ofNat duration))
      ⟨timestamp + timecodeToUsec samplesPerSymbol center, maxRssi, passDuration⟩ := by
  have offset : timecodeToUsec samplesPerSymbol center ≤
      timecodeToUsec samplesPerSymbol (.ofNat duration) := timecodeToUsec_le fits within
  rw [UInt64.le_iff_toNat_le] at offset
  refine ⟨?_, ?_, short⟩
  · rw [UInt64.le_iff_toNat_le, UInt64.toNat_add, Nat.mod_eq_of_lt (by omega)]
    exact Nat.le_add_right _ _
  · rw [UInt64.le_iff_toNat_le, UInt64.toNat_add, UInt64.toNat_add, Nat.mod_eq_of_lt (by omega),
      Nat.mod_eq_of_lt sum]
    exact Nat.add_le_add_left offset _

/-- A passing between two samples of the grid. -/
theorem passingBetween_inside {first last : Nat} (ordered : first ≤ last) (bound : last ≤ 128)
    (maxRssi : R) :
    Inside timestamp (timecodeToUsec samplesPerSymbol (.ofNat duration))
      (passingBetween samplesPerSymbol timestamp maxRssi (.ofNat duration) first last) := by
  have whole : (UInt64.ofNat duration).toNat = duration := toNat_ofNat64 (by omega)
  have firstIndex : (UInt64.ofNat first).toNat = first := toNat_ofNat64 (by omega)
  have lastIndex : (UInt64.ofNat last).toNat = last := toNat_ofNat64 (by omega)
  have firstProduct : first * duration ≤ 128 * duration :=
    Nat.mul_le_mul_right duration (ordered.trans bound)
  have widthProduct : first * duration + (last - first) * duration ≤ 128 * duration := by
    rw [← Nat.add_mul, Nat.add_sub_cancel' ordered]
    exact Nat.mul_le_mul_right duration bound
  have width : ((UInt64.ofNat last - UInt64.ofNat first) * UInt64.ofNat duration / 128).toNat =
      (last - first) * duration / 128 := by
    have indices : UInt64.ofNat first ≤ UInt64.ofNat last := by
      rw [UInt64.le_iff_toNat_le, firstIndex, lastIndex]
      exact ordered
    rw [UInt64.toNat_div, UInt64.toNat_mul, UInt64.toNat_sub_of_le _ _ indices, lastIndex,
      firstIndex, whole, Nat.mod_eq_of_lt (by omega)]
    rfl
  have start : (UInt64.ofNat first * UInt64.ofNat duration / 128).toNat =
      first * duration / 128 := by
    rw [UInt64.toNat_div, UInt64.toNat_mul, firstIndex, whole, Nat.mod_eq_of_lt (by omega)]
    rfl
  rw [passingBetween]
  refine inside_of_le fits sum ?_ (timecodeToUsec_le fits ?_) maxRssi
  · have two : (2 : UInt64).toNat = 2 := rfl
    rw [UInt64.toNat_add, start, UInt64.toNat_div, width, two]
    refine (Nat.mod_le _ _).trans ?_
    omega
  · rw [width]
    omega

end Span

variable [Field R] [LinearOrder R]

/-! ### The library functions -/

/-- What the estimate relies on of the functions outside of the repository. -/
structure EstimateLaws (platform : Platform R) : Prop where
  /-- a power is positive -/
  pow10_pos : ∀ exponent, 0 < platform.pow10 exponent
  /-- the conversion to an integer truncates -/
  toUint64_truncates : ∀ value : R, 0 ≤ value → value < 2 ^ 64 →
    ((platform.toUint64 value).toNat : R) ≤ value ∧ value < (platform.toUint64 value).toNat + 1
  /-- a filter writes one output for each sample -/
  executeBlock_length : ∀ filter samples,
    (platform.firfiltExecuteBlock filter samples).2.length = samples.length

section Laws

variable [IsStrictOrderedRing R] {platform : Platform R} (laws : EstimateLaws platform)

include laws

theorem toUint64_le {value : R} {bound : Nat} (nonneg : 0 ≤ value) (within : value ≤ bound)
    (fits : bound < 2 ^ 64) : (platform.toUint64 value).toNat ≤ bound := by
  have below : value < 2 ^ 64 := within.trans_lt (by exact_mod_cast fits)
  exact Nat.cast_le.mp ((laws.toUint64_truncates value nonneg below).1.trans within)

/-! ### The weighted average -/

/-- The sums of `weigthed_passing` over hits at most `duration` after the first one. -/
structure WeighedWithin (duration : Nat) (sums : R × R) : Prop where
  sum_nonneg : 0 ≤ sums.1
  total_nonneg : 0 ≤ sums.2
  within : sums.1 ≤ duration * sums.2

theorem WeighedWithin.turn {duration offset : Nat} (threshold : R) {sums : R × R}
    (weighed : WeighedWithin duration sums) {d : Detection R}
    (inside : timecodeSince offset d.timecode ≤ duration) :
    WeighedWithin duration (weighDetection (exactDouble platform) offset threshold sums d) ∧
      sums.2 ≤ (weighDetection (exactDouble platform) offset threshold sums d).2 ∧
      (threshold ≤ d.rssi →
        0 < (weighDetection (exactDouble platform) offset threshold sums d).2) := by
  have positive := laws.pow10_pos (d.rssi / ((20 : Nat) : R))
  have product := mul_le_mul_of_nonneg_right (Nat.cast_le (α := R).mpr inside) positive.le
  have product_nonneg : (0 : R) ≤ (timecodeSince offset d.timecode : R) *
      platform.pow10 (d.rssi / ((20 : Nat) : R)) := mul_nonneg (Nat.cast_nonneg _) positive.le
  rw [weighDetection]
  by_cases heavy : threshold ≤ d.rssi
  · rw [if_pos heavy]
    dsimp only [exactDouble, id]
    refine ⟨⟨add_nonneg weighed.sum_nonneg product_nonneg,
      add_nonneg weighed.total_nonneg positive.le, ?_⟩, le_add_of_nonneg_right positive.le,
      fun _ => add_pos_of_nonneg_of_pos weighed.total_nonneg positive⟩
    rw [mul_add]
    exact add_le_add weighed.within product
  · rw [if_neg heavy]
    exact ⟨weighed, le_rfl, fun light => absurd light heavy⟩

theorem WeighedWithin.foldl {duration offset : Nat} (threshold : R)
    {detections : List (Detection R)} (inside : ∀ d ∈ detections,
      timecodeSince offset d.timecode ≤ duration) {sums : R × R}
    (weighed : WeighedWithin duration sums) :
    WeighedWithin duration
        (detections.foldl (weighDetection (exactDouble platform) offset threshold) sums) ∧
      sums.2 ≤
        (detections.foldl (weighDetection (exactDouble platform) offset threshold) sums).2 ∧
      ((∃ d ∈ detections, threshold ≤ d.rssi) → 0 <
        (detections.foldl (weighDetection (exactDouble platform) offset threshold) sums).2) := by
  induction detections generalizing sums with
  | nil => exact ⟨weighed, le_rfl, by simp⟩
  | cons d rest inductionHypothesis =>
    rw [List.forall_mem_cons] at inside
    obtain ⟨kept, grown, heavy⟩ := weighed.turn laws threshold inside.1
    obtain ⟨keptAfter, grownAfter, heavyAfter⟩ := inductionHypothesis inside.2 kept
    rw [List.foldl_cons]
    refine ⟨keptAfter, grown.trans grownAfter, ?_⟩
    rintro ⟨other, member, above⟩
    rcases List.mem_cons.mp member with rfl | later
    · exact (heavy above).trans_le grownAfter
    · exact heavyAfter ⟨other, later, above⟩

section Estimate

variable {samplesPerSymbol : Nat} {duration : Nat} (fits : duration * 1000000 < 2 ^ 64)

include fits

/-- The weighted average of hits, the loudest of which counts, lies inside the passing. -/
theorem weigthedPassing_inside {front : Detection R} {detections : List (Detection R)}
    (first : detections.head? = some front)
    (inside : ∀ d ∈ detections, timecodeSince front.timecode d.timecode ≤ duration)
    (sum : front.timestamp.toNat +
      (timecodeToUsec samplesPerSymbol (.ofNat duration)).toNat < 2 ^ 64) {maxRssi : R}
    (loudest : ∃ d ∈ detections, d.rssi = maxRssi) :
    ∃ point, weigthedPassing platform (exactDouble platform) samplesPerSymbol detections maxRssi =
        some point ∧
      Inside front.timestamp (timecodeToUsec samplesPerSymbol (.ofNat duration)) point := by
  have start : WeighedWithin duration (((0 : Nat) : R), ((0 : Nat) : R)) :=
    ⟨Nat.cast_nonneg 0, Nat.cast_nonneg 0, by simp⟩
  obtain ⟨weighed, -, heavy⟩ := start.foldl laws (maxRssi - ((6 : Nat) : R)) inside
  have total := heavy <| by
    obtain ⟨d, member, rfl⟩ := loudest
    exact ⟨d, member, sub_le_self _ (Nat.cast_nonneg 6)⟩
  have average_nonneg := div_nonneg weighed.sum_nonneg weighed.total_nonneg
  have average_le := (div_le_iff₀ total).mpr weighed.within
  rw [weigthedPassing, first]
  simp only [Option.bind_eq_bind, Option.bind_some, divide_of_ne _ total.ne']
  exact ⟨_, rfl, inside_of_le fits sum (toUint64_le laws average_nonneg average_le (by omega))
    (UInt64.zero_le) maxRssi⟩

/-! ### The waveform -/

/-- The middle between the crossings lies inside the passing. -/
theorem crossingsPassing_inside {timestamp : UInt64} (sum : timestamp.toNat +
      (timecodeToUsec samplesPerSymbol (.ofNat duration)).toNat < 2 ^ 64) (maxRssi : R)
    {ySmoothed : List R} (size : ySmoothed.length = 129) :
    ∃ point, crossingsPassing platform samplesPerSymbol timestamp maxRssi (.ofNat duration)
        ySmoothed = some point ∧
      Inside timestamp (timecodeToUsec samplesPerSymbol (.ofNat duration)) point := by
  obtain ⟨front, rest, rfl⟩ := List.exists_cons_of_length_pos (size.symm ▸ (by decide) :
    0 < ySmoothed.length)
  obtain ⟨i, read⟩ := List.mem_iff_getElem?.mp (maxElement_mem id front rest)
  have reached : maxElement id front rest - ((6 : Nat) : R) ≤ maxElement id front rest :=
    sub_le_self _ (Nat.cast_nonneg 6)
  obtain ⟨first, foundFirst, first_nonneg, first_le⟩ := firstCrossing_le read reached
  obtain ⟨last, foundLast, le_last, last_le⟩ := le_lastCrossing read reached
  rw [size] at last_le
  push_cast at last_le
  have whole : (UInt64.ofNat duration).toNat = duration := toNat_ofNat64 (by omega)
  have middle_nonneg : 0 ≤ first + (last - first) / ((2 : Nat) : R) := by
    push_cast
    linarith
  have middle_le : (first + (last - first) / ((2 : Nat) : R)) / ((128 : Nat) : R) ≤ 1 := by
    rw [div_le_one (by norm_num)]
    push_cast
    linarith
  have offset_nonneg : 0 ≤ (first + (last - first) / ((2 : Nat) : R)) / ((128 : Nat) : R) *
      (duration : R) :=
    mul_nonneg (div_nonneg middle_nonneg (Nat.cast_nonneg 128)) (Nat.cast_nonneg duration)
  have offset_le : (first + (last - first) / ((2 : Nat) : R)) / ((128 : Nat) : R) *
      (duration : R) ≤ duration := mul_le_of_le_one_left (Nat.cast_nonneg duration) middle_le
  rw [crossingsPassing]
  simp only [List.head?_cons, List.tail_cons, Option.bind_eq_bind, Option.bind_some, foundFirst,
    foundLast, whole]
  exact ⟨_, rfl, inside_of_le fits sum (toUint64_le laws offset_nonneg offset_le (by omega))
    UInt64.zero_le maxRssi⟩

/-- In each case of the waveform the passing lies between its ends. -/
theorem waveformPassing_inside {timestamp : UInt64} (sum : timestamp.toNat +
      (timecodeToUsec samplesPerSymbol (.ofNat duration)).toNat < 2 ^ 64) (maxRssi : R)
    {yUniform : List R} (size : yUniform.length = 129) :
    ∃ branch point, waveformPassing platform samplesPerSymbol timestamp maxRssi (.ofNat duration)
        yUniform = some (branch, point) ∧
      Inside timestamp (timecodeToUsec samplesPerSymbol (.ofNat duration)) point := by
  have peakingSize : (yUniform.map fun y => -y).length = 129 := by rw [List.length_map, size]
  obtain ⟨dips, foundDips, dipsOrdered, dipsInside⟩ :=
    findPeaks_ordered (y := yUniform.map fun y => -y) (by omega) ((3 : Nat) : R)
  have taps : (smoothingFir : List R).length = 11 := rfl
  obtain ⟨ySmoothed, smoothed, smoothedSize⟩ := filtfilt_defined platform laws.executeBlock_length
    (b := smoothingFir) (x := yUniform) (by omega)
  obtain ⟨peaks, foundPeaks, peaksOrdered, peaksInside⟩ :=
    findPeaks_ordered (y := ySmoothed) (by omega) ((1 : Nat) : R)
  rw [waveformPassing, foundDips, smoothed]
  simp only [Option.bind_eq_bind, Option.bind_some, foundPeaks]
  split
  · rename_i first middle last
    have lastInside := dipsInside last (by simp)
    have ordered := (List.pairwise_cons.mp dipsOrdered).1 last.index (by simp)
    exact ⟨_, _, rfl, passingBetween_inside fits sum ordered.le (by omega) maxRssi⟩
  · split
    · rename_i first last
      have lastInside := peaksInside last (by simp)
      have ordered := (List.pairwise_cons.mp peaksOrdered).1 last.index (by simp)
      exact ⟨_, _, rfl, passingBetween_inside fits sum ordered.le (by omega) maxRssi⟩
    · obtain ⟨point, crossed, inside⟩ := crossingsPassing_inside laws fits sum maxRssi
        (smoothedSize.trans size)
      rw [crossed]
      exact ⟨_, _, rfl, inside⟩

end Estimate

/-- The estimate of a passing lies inside the passing, in every case. -/
theorem passing_inside (samplesPerSymbol : Nat) {detections : List (Detection R)}
    {front back : Detection R} (first : detections.head? = some front)
    (last : detections.getLast? = some back) (increasing : IncreasingTimecodes detections)
    (fits : (back.timecode - front.timecode) * 1000000 < 2 ^ 64)
    (sum : front.timestamp.toNat + (timecodeToUsec samplesPerSymbol
      (.ofNat (back.timecode - front.timecode))).toNat < 2 ^ 64) :
    ∃ branch point, computePassingPoint platform (exactDouble platform) samplesPerSymbol
        detections = some (branch, point) ∧
      Inside front.timestamp
        (timecodeToUsec samplesPerSymbol (.ofNat (back.timecode - front.timecode))) point := by
  obtain ⟨rest, rfl⟩ := List.head?_eq_some_iff.mp first
  have after : ∀ d ∈ front :: rest, front.timecode ≤ d.timecode := by
    intro d member
    rcases List.mem_cons.mp member with rfl | later
    · exact le_rfl
    · exact ((List.pairwise_cons.mp increasing).1 d later).le
  have before : ∀ d ∈ front :: rest, d.timecode ≤ back.timecode := by
    obtain ⟨init, split⟩ := List.getLast?_eq_some_iff.mp last
    rw [split] at increasing ⊢
    intro d member
    rcases List.mem_append.mp member with earlier | final
    · exact ((List.pairwise_append.mp increasing).2.2 d earlier back
        (List.mem_singleton_self _)).le
    · rw [List.mem_singleton.mp final]
  rw [computePassingPoint]
  simp only [List.head?_cons, List.tail_cons, Option.bind_eq_bind, Option.bind_some]
  split
  · have within : ∀ d ∈ front :: rest, timecodeSince front.timecode d.timecode ≤
        back.timecode - front.timecode := by
      intro d member
      rw [timecodeSince_of_le (after d member)]
      exact Nat.sub_le_sub_right (before d member) _
    obtain ⟨point, averaged, inside⟩ := weigthedPassing_inside laws fits first within sum
      ⟨_, maxElement_mem Detection.rssi front rest, rfl⟩
    rw [averaged]
    exact ⟨_, _, rfl, inside⟩
  · rename_i several
    obtain ⟨⟨yUniform, tcMin, tcDiff⟩, resampled⟩ :=
      (resampling_law (R := R) increasing (by omega)).defined
    obtain ⟨size, difference⟩ := resampUniform_some first last resampled
    rw [timecodeSince_of_le (after back (List.mem_of_getLast? last))] at difference
    rw [resampled, difference]
    exact waveformPassing_inside laws fits sum _ size

end Laws

/-! ### The concrete platform -/

theorem estimateLaws_ideal : EstimateLaws idealPlatform where
  pow10_pos := fun exponent => Real.rpow_pos_of_pos (by norm_num) exponent
  toUint64_truncates := fun value nonneg below => by
    have small : ⌊value⌋₊ < 2 ^ 64 := (Nat.floor_lt nonneg).mpr (by exact_mod_cast below)
    have whole : (idealPlatform.toUint64 value).toNat = ⌊value⌋₊ := toNat_ofNat64 small
    rw [whole]
    exact ⟨Nat.floor_le nonneg, Nat.lt_floor_add_one value⟩
  executeBlock_length := fun filter samples => length_convolveBlock filter.1 filter.2 samples

/-- Two hits, which are averaged, and sixteen, which are resampled. -/
theorem passing_inside_two :
    (∃ branch point, computePassingPoint idealPlatform (exactDouble idealPlatform) 4
        [⟨1000000, 5000, -20⟩, ⟨1000400, 7000, -18⟩] = some (branch, point) ∧
      Inside 1000000 (timecodeToUsec 4 2000) point) ∧
      ∃ branch point, computePassingPoint idealPlatform (exactDouble idealPlatform) 4 sixteenHits =
          some (branch, point) ∧
        Inside 1000000 (timecodeToUsec 4 1500) point := by
  constructor
  · have increasing : IncreasingTimecodes
        ([⟨1000000, 5000, -20⟩, ⟨1000400, 7000, -18⟩] : List (Detection ℝ)) := by
      simp [IncreasingTimecodes]
    exact passing_inside estimateLaws_ideal 4 rfl rfl increasing (by decide) (by decide)
  · have increasing : IncreasingTimecodes sixteenHits := by
      refine List.pairwise_map.mpr (List.pairwise_lt_range.imp fun before => ?_)
      dsimp only
      omega
    exact passing_inside estimateLaws_ideal 4 rfl rfl increasing (by decide) (by decide)

end OpenStint
