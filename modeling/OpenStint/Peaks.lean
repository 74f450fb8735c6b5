/-
This file models `find_peaks` of `passing.cpp` and proves when it computes true
prominences. Its scan to the left stops before index 0, its scan to the right takes in the
last sample. The first sample of a waveform is therefore missing from the valley on the left
of a peak, the prominence comes out too small where that sample is the lowest, and a peak is
lost when this takes its prominence below the threshold. In every other case the peaks
found are the right ones, and those of the reversed waveform mirror them.

Differences may be rounded. What counts is only that a lower sample is not less far below a
peak, which holds of exact differences and of floats.
-/

import Mathlib.Algebra.Order.Field.Rat
import Mathlib.Data.List.Range
import OpenStint.Library.Prominence
import OpenStint.PassingPoint

namespace OpenStint

open Prominence

variable {R : Type}

/-! ### The model -/

structure Peak (R : Type) where
  index : Nat
  value : R
  prominence : R
  deriving DecidableEq, Repr

section Model

/-- `std::min` -/
def stdMin [LT R] [DecidableLT R] (a b : R) : R := if b < a then b else a

/-- `std::max` -/
def stdMax [LT R] [DecidableLT R] (a b : R) : R := if a < b then b else a

variable [Sub R] [NatCast R] [LT R] [DecidableLT R] [LE R] [DecidableLE R]

/-- The loop that finds all local maxima, over the given indices. -/
def localMaxima (y : List R) : List Nat → Option (List (Peak R))
  | [] => some []
  | i :: rest => do
    let before ← y[i - 1]?
    let value ← y[i]?
    let after ← y[i + 1]?
    let peaks ← localMaxima y rest
    return if before < value ∧ after < value then ⟨i, value, ((0 : Nat) : R)⟩ :: peaks else peaks

/-- A scan for the lowest sample, over the given indices, up to a higher peak. -/
def scanValley (y : List R) (peakValue low : R) : List Nat → Option R
  | [] => some low
  | j :: rest => do
    let sample ← y[j]?
    if peakValue < sample then return stdMin low sample
    else scanValley y peakValue (stdMin low sample) rest

/-- The prominence of a peak. Only the scan to the left leaves out the boundary. -/
def measurePeak (y : List R) (peak : Peak R) : Option (Peak R) := do
  let leftMin ← scanValley y peak.value peak.value (List.range' 1 peak.index).reverse
  let rightMin ← scanValley y peak.value peak.value
    (List.range' peak.index (y.length - peak.index))
  return { peak with prominence := peak.value - stdMax leftMin rightMin }

/-- For an empty vector `y.size() - 1` wraps, and the loop reads far behind the end. -/
def findPeaks (y : List R) (minProminence : R) : Option (List (Peak R)) :=
  if y = [] then none
  else do
    let peaks ← localMaxima y (List.range' 1 (y.length - 2))
    let peaks ← peaks.mapM (measurePeak y)
    return peaks.filter fun peak => minProminence ≤ peak.prominence

/-! ### Where the loops are defined -/

omit [LE R] [DecidableLE R] [Sub R] in
theorem localMaxima_defined {y : List R} {indices : List Nat}
    (inside : ∀ i ∈ indices, i + 1 < y.length) :
    ∃ peaks, localMaxima y indices = some peaks ∧ ∀ peak ∈ peaks, peak.index + 1 < y.length := by
  induction indices with
  | nil => exact ⟨[], rfl, List.forall_mem_nil _⟩
  | cons i rest inductionHypothesis =>
    rw [List.forall_mem_cons] at inside
    obtain ⟨bound, restInside⟩ := inside
    obtain ⟨peaks, found, peaksInside⟩ := inductionHypothesis restInside
    rw [localMaxima, List.getElem?_eq_getElem (by omega : i - 1 < y.length),
      List.getElem?_eq_getElem (by omega : i < y.length), List.getElem?_eq_getElem bound, found]
    simp only [Option.bind_eq_bind, Option.bind_some]
    refine ⟨_, rfl, ?_⟩
    split
    · exact List.forall_mem_cons.mpr ⟨bound, peaksInside⟩
    · exact peaksInside

omit [LE R] [DecidableLE R] [Sub R] [NatCast R] in
theorem scanValley_defined {y : List R} {indices : List Nat}
    (inside : ∀ j ∈ indices, j < y.length) (peakValue low : R) :
    ∃ bottom, scanValley y peakValue low indices = some bottom := by
  induction indices generalizing low with
  | nil => exact ⟨low, rfl⟩
  | cons j rest inductionHypothesis =>
    rw [List.forall_mem_cons] at inside
    rw [scanValley, List.getElem?_eq_getElem inside.1, Option.bind_eq_bind, Option.bind_some]
    split
    · exact ⟨_, rfl⟩
    · exact inductionHypothesis inside.2 _

omit [LE R] [DecidableLE R] [NatCast R] in
theorem measurePeak_defined {y : List R} {peak : Peak R} (inside : peak.index + 1 < y.length) :
    ∃ measured, measurePeak y peak = some measured := by
  have leftInside : ∀ j ∈ (List.range' 1 peak.index).reverse, j < y.length := by
    intro j member
    rw [List.mem_reverse, List.mem_range'_1] at member
    omega
  have rightInside : ∀ j ∈ List.range' peak.index (y.length - peak.index), j < y.length := by
    intro j member
    rw [List.mem_range'_1] at member
    omega
  obtain ⟨leftMin, left⟩ := scanValley_defined leftInside peak.value peak.value
  obtain ⟨rightMin, right⟩ := scanValley_defined rightInside peak.value peak.value
  rw [measurePeak, left, right]
  exact ⟨_, rfl⟩

/-- Whatever the comparisons say, every read is inside of the samples. -/
theorem findPeaks_defined {y : List R} (some_ : y ≠ []) (m : R) :
    ∃ peaks, findPeaks y m = some peaks := by
  have indices : ∀ i ∈ List.range' 1 (y.length - 2), i + 1 < y.length := by
    intro i member
    rw [List.mem_range'_1] at member
    omega
  obtain ⟨maxima, found, inside⟩ := localMaxima_defined indices
  obtain ⟨peaks, measured, -⟩ :=
    CheckedLoop.mapM_defined fun peak member => measurePeak_defined (inside peak member)
  rw [findPeaks, if_neg some_, found, Option.bind_eq_bind, Option.bind_some, measured]
  exact ⟨_, rfl⟩

end Model

/-! ### What the loops compute -/

theorem map_read_range' (y : List R) {start count : Nat} (inside : start + count ≤ y.length) :
    (List.range' start count).map (fun j => y[j]?) = ((y.drop start).take count).map some := by
  refine List.ext_getElem ?_ fun i firstBound secondBound => ?_
  · simp
    omega
  · rw [List.length_map, List.length_range'] at firstBound
    simp only [List.getElem_map, List.getElem_range', List.getElem_take, List.getElem_drop]
    rw [List.getElem?_eq_getElem (by omega)]
    congr 2
    omega

variable [LinearOrder R]

theorem stdMin_eq (a b : R) : stdMin a b = min a b := by
  rw [stdMin, min_comm, min_def_lt]

theorem stdMax_eq (a b : R) : stdMax a b = max a b := by
  rw [stdMax, max_def_lt]

/-- A scan computes the bottom of a valley. -/
theorem scanValley_eq {y : List R} {indices : List Nat} {samples : List R}
    (reads : indices.map (fun j => y[j]?) = samples.map some) {peakValue low : R}
    (under : low ≤ peakValue) :
    scanValley y peakValue low indices =
      some (lowest low (samples.takeWhile fun sample => sample ≤ peakValue)) := by
  induction indices generalizing samples low with
  | nil =>
    obtain rfl := List.map_eq_nil_iff.mp reads.symm
    rfl
  | cons j indices inductionHypothesis =>
    cases samples with
    | nil => cases reads
    | cons sample samples =>
      obtain ⟨read, later⟩ : y[j]? = some sample ∧
          indices.map (fun j => y[j]?) = samples.map some := List.cons.inj reads
      rw [scanValley, read, Option.bind_eq_bind, Option.bind_some, stdMin_eq]
      by_cases higher : peakValue < sample
      · rw [if_pos higher, List.takeWhile_cons_of_neg (by simpa using higher),
          min_eq_left (under.trans higher.le)]
        rfl
      · rw [if_neg higher, List.takeWhile_cons_of_pos (by simpa using higher), lowest_cons,
          inductionHypothesis later ((min_le_left _ _).trans under)]

variable [Sub R] [NatCast R]

/-- The prominence that is computed: the first sample is missing on the left. -/
def measured (left : List R) (value : R) (right : List R) : R :=
  value - max (valley value left.tail.reverse) (valley value right)

omit [NatCast R] in
theorem measurePeak_eq (left : List R) (value : R) (right : List R) (prominence : R)
    (several : left ≠ []) :
    measurePeak (left ++ value :: right) ⟨left.length, value, prominence⟩ =
      some ⟨left.length, value, measured left value right⟩ := by
  have whole : (left ++ value :: right).length = left.length + (right.length + 1) := by
    rw [List.length_append, List.length_cons]
  have scanLeft : scanValley (left ++ value :: right) value value
      (List.range' 1 left.length).reverse = some (valley value left.tail.reverse) := by
    have reads : (List.range' 1 left.length).reverse.map
        (fun j => (left ++ value :: right)[j]?) = (value :: left.tail.reverse).map some := by
      obtain ⟨front, inner, rfl⟩ := List.exists_cons_of_ne_nil several
      rw [List.map_reverse, map_read_range' _ (by rw [whole]; omega), ← List.map_reverse]
      congr 1
      simp [List.take_append, List.take_of_length_le]
    rw [scanValley_eq reads le_rfl, List.takeWhile_cons_of_pos (by simp), lowest_cons, min_self]
    rfl
  have scanRight : scanValley (left ++ value :: right) value value
      (List.range' left.length ((left ++ value :: right).length - left.length)) =
        some (valley value right) := by
    have reads : (List.range' left.length ((left ++ value :: right).length - left.length)).map
        (fun j => (left ++ value :: right)[j]?) = (value :: right).map some := by
      rw [map_read_range' _ (by omega)]
      congr 1
      simp [whole]
    rw [scanValley_eq reads le_rfl, List.takeWhile_cons_of_pos (by simp), lowest_cons, min_self]
    rfl
  rw [measurePeak]
  dsimp only
  rw [scanLeft, scanRight]
  simp only [Option.bind_eq_bind, Option.bind_some, stdMax_eq]
  rfl

/-! ### The peaks that are found -/

/-- A sample higher than the two beside it. -/
def isPeak (y : List R) (i : Nat) : Bool :=
  match y[i - 1]?, y[i]?, y[i + 1]? with
  | some before, some value, some after => before < value && after < value
  | _, _, _ => false

/-- The peak at an index, as it is measured. -/
def peakAt (y : List R) (i : Nat) : Option (Peak R) :=
  if isPeak y i then
    y[i]?.map fun value => ⟨i, value, measured (y.take i) value (y.drop (i + 1))⟩
  else none

omit [NatCast R] in
theorem peakAt_index {y : List R} {i : Nat} {peak : Peak R} (found : peakAt y i = some peak) :
    peak.index = i := by
  rw [peakAt] at found
  split at found
  · obtain ⟨value, -, rfl⟩ := Option.map_eq_some_iff.mp found
    rfl
  · cases found

/-- The local maxima are found and measured in the order of the indices. -/
theorem localMaxima_measured {y : List R} {indices : List Nat}
    (inside : ∀ i ∈ indices, 1 ≤ i ∧ i + 1 < y.length) :
    ∃ peaks, localMaxima y indices = some peaks ∧
      peaks.mapM (measurePeak y) = some (indices.filterMap (peakAt y)) := by
  induction indices with
  | nil => exact ⟨[], rfl, rfl⟩
  | cons i rest inductionHypothesis =>
    rw [List.forall_mem_cons] at inside
    obtain ⟨⟨positive, bound⟩, restInside⟩ := inside
    obtain ⟨peaks, found, measured⟩ := inductionHypothesis restInside
    have before : y[i - 1]? = some y[i - 1] := List.getElem?_eq_getElem (by omega)
    have here : y[i]? = some y[i] := List.getElem?_eq_getElem (by omega)
    have after : y[i + 1]? = some y[i + 1] := List.getElem?_eq_getElem bound
    have split : y = y.take i ++ y[i] :: y.drop (i + 1) := by
      rw [← List.drop_eq_getElem_cons, List.take_append_drop]
    have length : (y.take i).length = i := List.length_take_of_le (by omega)
    rw [localMaxima, before, here, after, found, List.filterMap_cons, peakAt, isPeak, before, here,
      after]
    simp only [Option.bind_eq_bind, Option.bind_some, Bool.and_eq_true, decide_eq_true_eq,
      Option.map_some]
    by_cases isMaximum : y[i - 1] < y[i] ∧ y[i + 1] < y[i]
    · have measuredHere := measurePeak_eq (y.take i) y[i] (y.drop (i + 1)) ((0 : Nat) : R)
        (List.ne_nil_of_length_pos (by omega))
      rw [← split, length] at measuredHere
      refine ⟨⟨i, y[i], ((0 : Nat) : R)⟩ :: peaks, ?_, ?_⟩
      · rw [if_pos isMaximum]
        rfl
      · rw [if_pos isMaximum, List.mapM_cons, measuredHere, measured]
        rfl
    · refine ⟨peaks, ?_, ?_⟩
      · rw [if_neg isMaximum]
        rfl
      · rw [if_neg isMaximum, measured]

theorem findPeaks_eq {y : List R} (several : 2 ≤ y.length) (m : R) :
    findPeaks y m = some (((List.range' 1 (y.length - 2)).filterMap (peakAt y)).filter
      fun peak => m ≤ peak.prominence) := by
  have inside : ∀ i ∈ List.range' 1 (y.length - 2), 1 ≤ i ∧ i + 1 < y.length := by
    intro i member
    rw [List.mem_range'_1] at member
    omega
  obtain ⟨peaks, found, measured⟩ := localMaxima_measured inside
  rw [findPeaks, if_neg (List.ne_nil_of_length_pos (by omega)), found, Option.bind_eq_bind,
    Option.bind_some, measured]
  rfl

/-! ### True prominences -/

/-- A local maximum whose prominence is at least `m`. -/
def isProminent (y : List R) (m : R) (i : Nat) : Bool :=
  isPeak y i && y[i]?.any fun value => m ≤ value - saddle y i value

/-- The first sample decides about a local maximum: no sample to the left of it is higher, of the
samples up to it only the first one is `m` or more below it, and to the right there is such a
sample before a higher one. -/
def FirstDecides (y : List R) (m : R) (i : Nat) : Prop :=
  isPeak y i ∧ ∃ value, y[i]? = some value ∧ (∀ sample ∈ y.take i, sample ≤ value) ∧
    (∃ first ∈ y.head?, m ≤ value - first) ∧
    (∀ sample ∈ (y.take (i + 1)).tail, value - sample < m) ∧
    ∃ sample ∈ (y.drop (i + 1)).takeWhile fun sample => sample ≤ value, m ≤ value - sample

/-- The peaks found are those with a prominence of at least `m`, and the peaks of the
reversed waveform mirror them. -/
def TrueProminences (y : List R) (m : R) : Prop :=
  ∃ peaks mirrored, findPeaks y m = some peaks ∧ findPeaks y.reverse m = some mirrored ∧
    peaks.map Peak.index = (List.range' 1 (y.length - 2)).filter (isProminent y m) ∧
    mirrored.map Peak.index = (peaks.map Peak.index).reverse.map fun i => y.length - 1 - i

/-- An index at which a peak is found. -/
def isFound (y : List R) (m : R) (i : Nat) : Bool :=
  (peakAt y i).any fun peak => m ≤ peak.prominence

omit [NatCast R] in
theorem map_index_found (y : List R) (m : R) (indices : List Nat) :
    ((indices.filterMap (peakAt y)).filter fun peak => m ≤ peak.prominence).map Peak.index =
      indices.filter (isFound y m) := by
  induction indices with
  | nil => rfl
  | cons i rest inductionHypothesis =>
    cases found : peakAt y i with
    | none =>
      rw [List.filterMap_cons_none found, List.filter_cons_of_neg (by simp [isFound, found]),
        inductionHypothesis]
    | some peak =>
      rw [List.filterMap_cons_some found]
      by_cases enough : m ≤ peak.prominence
      · rw [List.filter_cons_of_pos (by simpa using enough),
          List.filter_cons_of_pos (by simpa [isFound, found] using enough), List.map_cons,
          inductionHypothesis, peakAt_index found]
      · rw [List.filter_cons_of_neg (by simpa using enough),
          List.filter_cons_of_neg (by simpa [isFound, found] using enough), inductionHypothesis]

/-- The peaks are found in the order of their indices, inside of the samples. -/
theorem findPeaks_ordered {y : List R} (several : 2 ≤ y.length) (m : R) :
    ∃ peaks, findPeaks y m = some peaks ∧ (peaks.map Peak.index).Pairwise (· < ·) ∧
      ∀ peak ∈ peaks, peak.index + 1 < y.length := by
  refine ⟨_, findPeaks_eq several m, ?_, fun peak member => ?_⟩
  · rw [map_index_found]
    exact List.Pairwise.filter _ (List.pairwise_lt_range' 1 Nat.one_pos)
  · have index := List.mem_map_of_mem (f := Peak.index) member
    rw [map_index_found] at index
    have bound := List.mem_range'_1.mp (List.mem_of_mem_filter index)
    omega

/-- Two filters of a list agree exactly when they agree on its items. -/
theorem filter_eq_filter_iff {Item : Type} {items : List Item} {first second : Item → Bool} :
    items.filter first = items.filter second ↔ ∀ item ∈ items, first item = second item := by
  constructor
  · intro same item member
    have mem_iff : item ∈ items.filter first ↔ item ∈ items.filter second := by rw [same]
    rw [List.mem_filter, List.mem_filter, and_iff_right member, and_iff_right member] at mem_iff
    exact Bool.eq_iff_iff.mpr mem_iff
  · exact List.filter_congr

omit [Sub R] [NatCast R] in
theorem isPeak_inside {y : List R} {i : Nat} (maximum : isPeak y i) :
    i ∈ List.range' 1 (y.length - 2) := by
  rw [isPeak] at maximum
  split at maximum
  · rename_i before value after readBefore read readAfter
    have bound := (List.getElem?_eq_some_iff.mp readAfter).1
    have positive : i ≠ 0 := by
      rintro rfl
      rw [readBefore] at read
      obtain rfl := Option.some.inj read
      simp at maximum
    rw [List.mem_range'_1]
    omega
  · cases maximum

omit [NatCast R] in
theorem isProminent_reverse (y : List R) (m : R) {i : Nat}
    (inside : i ∈ List.range' 1 (y.length - 2)) :
    isProminent y.reverse m (y.length - 1 - i) = isProminent y m i := by
  rw [List.mem_range'_1] at inside
  have mirrored {j k : Nat} (places : j + k + 1 = y.length) : y.reverse[j]? = y[k]? := by
    rw [List.getElem?_reverse (by omega)]
    congr 1
    omega
  have before : y.reverse[y.length - 1 - i - 1]? = y[i + 1]? := mirrored (by omega)
  have here : y.reverse[y.length - 1 - i]? = y[i]? := mirrored (by omega)
  have after : y.reverse[y.length - 1 - i + 1]? = y[i - 1]? := mirrored (by omega)
  have maximum : isPeak y.reverse (y.length - 1 - i) = isPeak y i := by
    rw [isPeak, isPeak, before, here, after]
    cases y[i - 1]? <;> cases y[i]? <;> cases y[i + 1]? <;> simp [Bool.and_comm]
  rw [isProminent, isProminent, maximum, here]
  simp only [saddle_reverse (by omega : i < y.length)]

theorem mirrored_range' (length : Nat) :
    ((List.range' 1 (length - 2)).reverse.map fun i => length - 1 - i) =
      List.range' 1 (length - 2) := by
  refine List.ext_getElem (by simp) fun i firstBound secondBound => ?_
  rw [List.length_range'] at secondBound
  simp only [List.getElem_map, List.getElem_reverse, List.getElem_range', List.length_range']
  omega

omit [NatCast R] in
/-- The right peaks of the reversed waveform mirror the right peaks. -/
theorem filter_isProminent_reverse (y : List R) (m : R) :
    (((List.range' 1 (y.length - 2)).filter (isProminent y m)).reverse.map fun i =>
        y.length - 1 - i) =
      (List.range' 1 (y.length - 2)).filter (isProminent y.reverse m) := by
  conv_rhs => rw [← mirrored_range' y.length, List.filter_map]
  rw [← List.filter_reverse]
  congr 1
  refine List.filter_congr fun i member => ?_
  exact (isProminent_reverse y m (List.mem_reverse.mp member)).symm

section Differences

variable (falling : ∀ value : R, Antitone fun sample => value - sample)

include falling

omit [NatCast R] in
/-- A prominence is at least `m` when, on each side, a sample of the valley is `m` or more below
the peak. -/
theorem prominence_iff (m value : R) (left right : List R) :
    m ≤ value - max (valley value left) (valley value right) ↔
      (m ≤ value - value ∨
          ∃ sample ∈ left.takeWhile fun sample => sample ≤ value, m ≤ value - sample) ∧
        (m ≤ value - value ∨
          ∃ sample ∈ right.takeWhile fun sample => sample ≤ value, m ≤ value - sample) :=
  have closed : IsLowerSet {sample | m ≤ value - sample} :=
    fun _ _ below inside => inside.trans (falling value below)
  valleys_mem_iff closed value left right

omit [NatCast R] in
/-- Where no sample on the left is higher, the first one matters when nothing else on the left is
deep enough and the valley on the right is. -/
theorem measured_iff {m value first : R} {inner right : List R}
    (clear : ∀ sample ∈ first :: inner, sample ≤ value) :
    (m ≤ measured (first :: inner) value right ↔
        m ≤ value - max (valley value (first :: inner).reverse) (valley value right)) ↔
      ¬ (m ≤ value - first ∧ (∀ sample ∈ inner ++ [value], value - sample < m) ∧
        ∃ sample ∈ right.takeWhile fun sample => sample ≤ value, m ≤ value - sample) := by
  have whole {part : List R} (inside : part ⊆ first :: inner) :
      (part.reverse.takeWhile fun sample => sample ≤ value) = part.reverse :=
    List.takeWhile_eq_self_iff.mpr fun sample member =>
      decide_eq_true (clear sample (inside (List.mem_reverse.mp member)))
  rw [measured, prominence_iff falling, prominence_iff falling, List.tail_cons,
    whole (List.subset_cons_self first inner), whole (List.Subset.refl _)]
  simp only [List.mem_reverse, List.mem_cons, exists_eq_or_imp]
  constructor
  · rintro same ⟨firstBelow, others, right⟩
    rw [List.forall_mem_append, List.forall_mem_singleton] at others
    obtain ⟨above | ⟨sample, member, below⟩, -⟩ :=
      same.mpr ⟨Or.inr (Or.inl firstBelow), Or.inr right⟩
    · exact absurd above (not_le.mpr others.2)
    · exact absurd below (not_le.mpr (others.1 sample member))
  · intro spared
    refine ⟨And.imp_left (Or.imp_right Or.inr), fun ⟨left, right⟩ => ⟨?_, right⟩⟩
    by_contra none_
    obtain ⟨above, others⟩ := not_or.mp none_
    refine spared ⟨(left.resolve_left above).resolve_right others, ?_, right.resolve_left above⟩
    rw [List.forall_mem_append, List.forall_mem_singleton]
    exact ⟨fun sample member => not_le.mp fun below => others ⟨sample, member, below⟩,
      not_le.mp above⟩

omit [NatCast R] in
/-- A local maximum is judged by its true prominence unless the first sample decides. -/
theorem isFound_eq_isProminent_iff (y : List R) (m : R) (i : Nat) :
    isFound y m i = isProminent y m i ↔ ¬ FirstDecides y m i := by
  rw [isFound, peakAt, isProminent, FirstDecides]
  by_cases maximum : isPeak y i
  · have places := List.mem_range'_1.mp (isPeak_inside maximum)
    cases here : y[i]? with
    | none => simp [maximum]
    | some value =>
      simp only [maximum, if_true, Option.map_some, Option.any_some, Bool.true_and, true_and,
        Option.some.injEq, exists_eq_left']
      rw [decide_eq_decide, saddle]
      by_cases clear : ∀ sample ∈ y.take i, sample ≤ value
      · obtain ⟨first, inner, split⟩ : ∃ first inner, y.take i = first :: inner :=
          List.exists_cons_of_length_pos (by rw [List.length_take]; omega)
        have front : y.head? = some first := by
          rw [← List.take_append_drop i y, split]
          rfl
        have upTo : (y.take (i + 1)).tail = inner ++ [value] := by
          rw [List.take_add_one, here, split]
          rfl
        rw [split] at clear ⊢
        rw [measured_iff falling clear, front, upTo, and_iff_right clear]
        simp only [Option.mem_some_iff, exists_eq_left']
      · have higher : ∃ sample ∈ (y.take i).reverse, value < sample := by simpa using clear
        rw [measured, ← List.dropLast_reverse, valley_dropLast_of_higher higher]
        exact iff_of_true Iff.rfl fun decides => clear decides.1
  · simp [maximum]

omit [NatCast R] in
/-- The peaks found are the right ones exactly when the first sample never decides. -/
theorem found_iff (y : List R) (m : R) :
    (List.range' 1 (y.length - 2)).filter (isFound y m) =
        (List.range' 1 (y.length - 2)).filter (isProminent y m) ↔
      ∀ i, ¬ FirstDecides y m i := by
  rw [filter_eq_filter_iff]
  simp only [isFound_eq_isProminent_iff falling]
  exact ⟨fun spared i decides => spared i (isPeak_inside decides.1) decides,
    fun spared i _ => spared i⟩

/-- However differences are rounded, the peaks have true prominences exactly when the first sample
decides about no peak, of the waveform and of its reverse. -/
theorem true_prominences_iff {y : List R} (several : 3 ≤ y.length) (m : R) :
    TrueProminences y m ↔
      (∀ i, ¬ FirstDecides y m i) ∧ ∀ i, ¬ FirstDecides y.reverse m i := by
  have found := findPeaks_eq (y := y) (by omega) m
  have foundReverse := findPeaks_eq (y := y.reverse) (by rw [List.length_reverse]; omega) m
  rw [← found_iff falling, ← found_iff falling, List.length_reverse]
  rw [List.length_reverse] at foundReverse
  constructor
  · rintro ⟨peaks, mirrored, peaksFound, mirroredFound, exact, mirrors⟩
    rw [found] at peaksFound
    rw [foundReverse] at mirroredFound
    obtain rfl := Option.some.inj peaksFound
    obtain rfl := Option.some.inj mirroredFound
    rw [exact, filter_isProminent_reverse] at mirrors
    rw [map_index_found] at exact mirrors
    exact ⟨exact, mirrors⟩
  · rintro ⟨exact, exactReverse⟩
    refine ⟨_, _, found, foundReverse, ?_, ?_⟩
    · rw [map_index_found, exact]
    · rw [map_index_found, map_index_found, exact, exactReverse, filter_isProminent_reverse]

end Differences

theorem true_prominences_iff_middle : TrueProminences [(0 : ℚ), 1, 3, 1, 0] 1 :=
  (true_prominences_iff (fun value _ _ below => sub_le_sub_left below value) (by decide) 1).mpr
    ⟨(found_iff (fun value _ _ below => sub_le_sub_left below value) _ _).mp (by decide +kernel),
      (found_iff (fun value _ _ below => sub_le_sub_left below value) _ _).mp (by decide +kernel)⟩

/-- A peak next to the start comes out without any prominence. -/
theorem true_prominences_fails :
    ¬ ∀ (y : List ℚ) (m : ℚ), 3 ≤ y.length → TrueProminences y m := by
  intro always
  obtain ⟨peaks, _, found, -, exact, -⟩ := always [0, 3, 0] 1 (by decide)
  have nothing : findPeaks [(0 : ℚ), 3, 0] 1 = some [] := by decide +kernel
  rw [nothing] at found
  obtain rfl := Option.some.inj found
  exact absurd exact (by decide +kernel)

end OpenStint
