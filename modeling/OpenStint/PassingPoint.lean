/-
This file models `interp` and `resamp_uniform` of `passing.cpp`, which put the levels of a
passing on a uniform grid. The model takes any float operations, without a law. A read
outside of a vector is `none`, and so is a quotient that does not exist: in exact
arithmetic, over an ordered field, the one by zero, which no float operation refuses.
Only a division by a constant of the source, none of which is zero, is written `/`.

The timecodes of the hits are the abscissa of the interpolation. When they increase, every
division is by a positive number.
-/

import Mathlib.Algebra.Order.Field.Basic
import OpenStint.Library.CheckedLoop
import OpenStint.Passing

namespace OpenStint

open CheckedLoop Machine

/-- Division of floats. -/
class FloatDivision (R : Type) where
  /-- A quotient, when there is one. -/
  divide : R → R → Option R

export FloatDivision (divide)

/-- In exact arithmetic there is no quotient by zero. -/
instance {R : Type} [Field R] [DecidableEq R] : FloatDivision R where
  divide := fun dividend divisor => if divisor = 0 then none else some (dividend / divisor)

/-- The difference of two counters in 64 bits, which wraps below zero. -/
def timecodeSince (first later : Nat) : Nat :=
  if first ≤ later then later - first else later + 2 ^ 64 - first

theorem timecodeSince_of_le {first later : Nat} (ordered : first ≤ later) :
    timecodeSince first later = later - first := if_pos ordered

variable {R : Type}

/-! ### The model -/

section Model

variable [Add R] [Sub R] [Mul R] [Div R] [NatCast R] [LT R] [DecidableLT R] [LE R]
  [DecidableLE R] [FloatDivision R]

/-- The `while` loop of `interp`, from interval `j` on. It runs on two points or more. -/
def findInterval (x : List R) (xi : R) (j : Nat) : Option Nat :=
  if j < x.length - 2 then do
    let next ← x[j + 1]?
    if next < xi then findInterval x xi (j + 1) else some j
  else some j
termination_by x.length - j

/-- One turn of the loop of `interp`. -/
def interpPoint (x y : List R) (j : Nat) (xi : R) : Option (Nat × R) := do
  let front ← x.head?
  if xi ≤ front then return (j, ← y.head?)
  let back ← x.getLast?
  if back ≤ xi then return (j, ← y.getLast?)
  let j ← findInterval x xi j
  let t ← divide (xi - (← x[j]?)) ((← x[j + 1]?) - (← x[j]?))
  return (j, (← y[j]?) + t * ((← y[j + 1]?) - (← y[j]?)))

def interp (xNew x y : List R) : Option (List R) :=
  (run (interpPoint x y) 0 xNew).map Prod.snd

/-- `t_sample` of `resamp_uniform`: the timecodes, normalized to the interval from 0 to 1. -/
def normalizedTimecodes (detections : List (Detection R)) : Option (List R) := do
  let front ← detections.head?
  let back ← detections.getLast?
  let tcDiff := timecodeSince front.timecode back.timecode
  detections.mapM fun d => divide (timecodeSince front.timecode d.timecode : R) (tcDiff : R)

/-- `resamp_uniform`: the levels on the uniform grid, the first timecode, and the duration. -/
def resampUniform (detections : List (Detection R)) : Option (List R × Nat × Nat) := do
  let front ← detections.head?
  let back ← detections.getLast?
  let tSample ← normalizedTimecodes detections
  let tUniform : List R := (List.range 129).map fun i : Nat => (i : R) / ((128 : Nat) : R)
  let yIrregular := detections.map Detection.rssi
  let yUniform ← interp tUniform tSample yIrregular
  return (yUniform, front.timecode, timecodeSince front.timecode back.timecode)

end Model

/-! ### Where the interpolation is defined -/

/-- The search goes to the first interval from `j` on that reaches the point, or to the last
one. -/
theorem findInterval_first [LT R] [DecidableLT R] (x : List R) (xi : R) {j : Nat}
    (inside : j + 1 < x.length) :
    ∃ k, findInterval x xi j = some k ∧ k + 1 < x.length ∧
      (∀ i, j ≤ i → i < k → ∀ v ∈ x[i + 1]?, v < xi) ∧
      (k + 2 < x.length → ∀ v ∈ x[k + 1]?, ¬ v < xi) := by
  induction left : x.length - j generalizing j with
  | zero => omega
  | succ left inductionHypothesis =>
    rw [findInterval]
    by_cases more : j < x.length - 2
    · rw [if_pos more, List.getElem?_eq_getElem inside, Option.bind_eq_bind, Option.bind_some]
      by_cases before : x[j + 1] < xi
      · rw [if_pos before]
        obtain ⟨k, found, within, passed, reaches⟩ :=
          inductionHypothesis (j := j + 1) (by omega) (by omega)
        refine ⟨k, found, within, fun i from_ below v read => ?_, reaches⟩
        rcases Nat.eq_or_lt_of_le from_ with rfl | later
        · rw [List.getElem?_eq_getElem inside] at read
          rwa [← Option.some.inj read]
        · exact passed i later below v read
      · refine ⟨j, if_neg before, inside, fun i from_ below => absurd below (by omega), ?_⟩
        intro _ v read
        rw [List.getElem?_eq_getElem inside] at read
        rwa [← Option.some.inj read]
    · exact ⟨j, if_neg more, inside, fun i from_ below => absurd below (by omega),
        fun longer => absurd longer (by omega)⟩

section Points

variable [Add R] [Sub R] [Mul R] [LT R] [DecidableLT R] [LE R] [DecidableLE R] [FloatDivision R]
  {x y : List R} (steps : ∀ (k : Nat) (before : k < x.length) (within : k + 1 < x.length)
    (dividend : R), ∃ t, divide dividend (x[k + 1] - x[k]) = some t) (levels : y.length = x.length)

include steps levels

/-- Where there are quotients by the steps of the abscissa, every point is interpolated. -/
theorem interpPoint_defined (xi : R) {j : Nat} (inside : j + 1 < x.length) :
    ∃ k yi, interpPoint x y j xi = some (k, yi) ∧ k + 1 < x.length := by
  have points : x ≠ [] := List.ne_nil_of_length_pos (by omega)
  have values : y ≠ [] := List.ne_nil_of_length_pos (by omega)
  rw [interpPoint, List.head?_eq_some_head points, List.head?_eq_some_head values,
    List.getLast?_eq_some_getLast points, List.getLast?_eq_some_getLast values]
  simp only [Option.bind_eq_bind, Option.bind_some]
  by_cases low : xi ≤ x.head points
  · exact ⟨j, _, if_pos low, inside⟩
  rw [if_neg low]
  by_cases high : x.getLast points ≤ xi
  · exact ⟨j, _, if_pos high, inside⟩
  rw [if_neg high]
  obtain ⟨k, found, within, -, -⟩ := findInterval_first x xi inside
  have before : k < x.length := Nat.lt_of_succ_lt within
  obtain ⟨t, quotient⟩ := steps k before within (xi - x[k])
  rw [found, Option.bind_some, List.getElem?_eq_getElem before, List.getElem?_eq_getElem within,
    List.getElem?_eq_getElem (levels.symm ▸ before),
    List.getElem?_eq_getElem (levels.symm ▸ within)]
  simp only [Option.bind_some, quotient]
  exact ⟨k, _, rfl, within⟩

theorem interp_defined (points : 2 ≤ x.length) (xNew : List R) :
    ∃ yNew, interp xNew x y = some yNew := by
  obtain ⟨j, yNew, ran, -⟩ : ∃ j yNew, run (interpPoint x y) 0 xNew = some (j, yNew) ∧
      j + 1 < x.length :=
    run_history (fun _ j => j + 1 < x.length)
      (fun _ _ xi inside => interpPoint_defined steps levels xi inside) points xNew
  exact ⟨yNew, by rw [interp, ran, Option.map_some]⟩

end Points

/-- Where all quotients exist, as those of floats do, two hits or more are resampled. -/
theorem resampUniform_defined [Add R] [Sub R] [Mul R] [Div R] [NatCast R] [LT R] [DecidableLT R]
    [LE R] [DecidableLE R] [FloatDivision R]
    (quotients : ∀ dividend divisor : R, ∃ quotient, divide dividend divisor = some quotient)
    {detections : List (Detection R)} (several : 2 ≤ detections.length) :
    ∃ result, resampUniform detections = some result := by
  have hits : detections ≠ [] := List.ne_nil_of_length_pos (by omega)
  have front := List.head?_eq_some_head hits
  have back := List.getLast?_eq_some_getLast hits
  obtain ⟨tSample, normalized, length⟩ : ∃ tSample, normalizedTimecodes detections = some tSample ∧
      tSample.length = detections.length := by
    rw [normalizedTimecodes, front, back]
    simp only [Option.bind_eq_bind, Option.bind_some]
    exact mapM_defined fun d _ => quotients _ _
  have levels : (detections.map Detection.rssi).length = tSample.length := by
    rw [List.length_map, length]
  obtain ⟨yUniform, interpolated⟩ := interp_defined (fun k _ _ dividend => quotients dividend _)
    levels (length ▸ several) ((List.range 129).map fun i : Nat => (i : R) / ((128 : Nat) : R))
  rw [resampUniform, front, back, normalized]
  simp only [Option.bind_eq_bind, Option.bind_some, interpolated]
  exact ⟨_, rfl⟩

/-! ### Interpolation on an increasing abscissa -/

variable [Field R] [LinearOrder R]

theorem divide_of_ne (dividend : R) {divisor : R} (nonzero : divisor ≠ 0) :
    divide dividend divisor = some (dividend / divisor) := if_neg nonzero

/-- The steps of an increasing abscissa are not zero. -/
theorem divide_step {x : List R} (increasing : x.Pairwise (· < ·)) (k : Nat)
    (before : k < x.length) (within : k + 1 < x.length) (dividend : R) :
    ∃ t, divide dividend (x[k + 1] - x[k]) = some t := by
  have step : x[k] < x[k + 1] :=
    List.pairwise_iff_getElem.mp increasing k (k + 1) before within (Nat.lt_succ_self k)
  exact ⟨_, divide_of_ne dividend (sub_ne_zero.mpr step.ne')⟩

/-! ### Hits with increasing timecodes -/

/-- Every hit comes later in the stream than the one before it. -/
def IncreasingTimecodes {R : Type} (detections : List (Detection R)) : Prop :=
  detections.Pairwise fun first second => first.timecode < second.timecode

/-- The resampling is defined, and interpolates on an abscissa that increases from 0 to 1. -/
structure ResamplingLaw (detections : List (Detection R)) : Prop where
  abscissa : ∃ tSample, normalizedTimecodes detections = some tSample ∧
    tSample.length = detections.length ∧ tSample.Pairwise (· < ·) ∧
      tSample.head? = some 0 ∧ tSample.getLast? = some 1
  defined : ∃ result, resampUniform detections = some result

/-- The timecode of a hit, normalized. -/
def normalized (front back detection : Detection R) : R :=
  (timecodeSince front.timecode detection.timecode : R) /
    (timecodeSince front.timecode back.timecode : R)

section Resampling

variable [IsStrictOrderedRing R] {front back : Detection R} {middle : List (Detection R)}
  (increasing : IncreasingTimecodes (front :: middle ++ [back]))

include increasing

omit [Field R] [LinearOrder R] [IsStrictOrderedRing R] in
theorem front_lt_back : front.timecode < back.timecode :=
  (List.pairwise_append.mp increasing).2.2 front List.mem_cons_self back (List.mem_singleton_self _)

omit [Field R] [LinearOrder R] [IsStrictOrderedRing R] in
theorem front_le {detection : Detection R} (member : detection ∈ front :: middle ++ [back]) :
    front.timecode ≤ detection.timecode := by
  rw [List.cons_append] at member
  rcases List.mem_cons.mp member with rfl | later
  · exact le_rfl
  · exact ((List.pairwise_cons.mp increasing).1 detection later).le

theorem duration_pos : (0 : R) < (timecodeSince front.timecode back.timecode : R) := by
  have ordered := front_lt_back increasing
  rw [timecodeSince_of_le ordered.le]
  exact Nat.cast_pos.mpr (Nat.sub_pos_of_lt ordered)

theorem normalizedTimecodes_eq :
    normalizedTimecodes (front :: middle ++ [back]) =
      some ((front :: middle ++ [back]).map (normalized front back)) := by
  have quotients : (fun d : Detection R => divide (timecodeSince front.timecode d.timecode : R)
      (timecodeSince front.timecode back.timecode : R)) =
        fun d => pure (normalized front back d) := by
    funext d
    exact divide_of_ne _ (duration_pos increasing).ne'
  have last : (front :: middle ++ [back]).getLast? = some back := List.getLast?_concat
  rw [normalizedTimecodes, last]
  simp only [List.cons_append, List.head?_cons, Option.bind_eq_bind, Option.bind_some]
  rw [quotients, List.mapM_pure]
  rfl

theorem normalized_increasing :
    ((front :: middle ++ [back]).map (normalized front back)).Pairwise (· < ·) := by
  refine List.pairwise_map.mpr (List.Pairwise.imp_of_mem ?_ increasing)
  intro first second firstMember secondMember before
  have shifted : timecodeSince front.timecode first.timecode <
      timecodeSince front.timecode second.timecode := by
    have firstAfter := front_le increasing firstMember
    rw [timecodeSince_of_le firstAfter, timecodeSince_of_le (front_le increasing secondMember)]
    omega
  exact div_lt_div_of_pos_right (Nat.cast_lt.mpr shifted) (duration_pos increasing)

/-- Increasing timecodes are resampled without a division by zero. -/
theorem resampling_law_of_ends : ResamplingLaw (front :: middle ++ [back]) := by
  have levels : ((front :: middle ++ [back]).map Detection.rssi).length =
      ((front :: middle ++ [back]).map (normalized front back)).length := by
    rw [List.length_map, List.length_map]
  have last : (front :: middle ++ [back]).getLast? = some back := List.getLast?_concat
  have points : 2 ≤ ((front :: middle ++ [back]).map (normalized front back)).length := by
    simp
  refine ⟨⟨_, normalizedTimecodes_eq increasing, List.length_map _,
    normalized_increasing increasing, ?_, ?_⟩, ?_⟩
  · simp [normalized, timecodeSince_of_le]
  · rw [List.getLast?_map, last, Option.map_some, normalized,
      div_self (duration_pos increasing).ne']
  · obtain ⟨yUniform, interpolated⟩ := interp_defined
      (divide_step (normalized_increasing increasing)) levels points
      ((List.range 129).map fun i : Nat => (i : R) / ((128 : Nat) : R))
    refine ⟨(yUniform, front.timecode, timecodeSince front.timecode back.timecode), ?_⟩
    rw [resampUniform, normalizedTimecodes_eq increasing, last]
    simp only [List.cons_append, List.head?_cons, Option.bind_eq_bind, Option.bind_some]
    rw [← List.cons_append, interpolated, Option.bind_some]
    rfl

end Resampling

/-- Two hits or more with increasing timecodes are resampled without a division by zero. -/
theorem resampling_law [IsStrictOrderedRing R] {detections : List (Detection R)}
    (increasing : IncreasingTimecodes detections) (several : 2 ≤ detections.length) :
    ResamplingLaw detections := by
  cases detections with
  | nil => cases several
  | cons front rest =>
    rcases List.eq_nil_or_concat rest with rfl | ⟨middle, back, rfl⟩
    · exact absurd several (Nat.lt_irrefl 1)
    · rw [List.concat_eq_append, ← List.cons_append] at increasing ⊢
      exact resampling_law_of_ends increasing

omit [Field R] [LinearOrder R] in
/-- What a defined resampling returns: 129 levels, and the time between the first hit and the
last one. -/
theorem resampUniform_some [Add R] [Sub R] [Mul R] [Div R] [NatCast R] [LT R] [DecidableLT R]
    [LE R] [DecidableLE R] [FloatDivision R] {detections : List (Detection R)}
    {front back : Detection R} (first : detections.head? = some front)
    (last : detections.getLast? = some back) {yUniform : List R} {tcMin tcDiff : Nat}
    (resampled : resampUniform detections = some (yUniform, tcMin, tcDiff)) :
    yUniform.length = 129 ∧ tcDiff = timecodeSince front.timecode back.timecode := by
  rw [resampUniform, first, last] at resampled
  simp only [Option.bind_eq_bind, Option.bind_some, Option.bind_eq_some_iff] at resampled
  obtain ⟨tSample, -, levels, interpolated, same⟩ := resampled
  obtain ⟨rfl, -, rfl⟩ : levels = yUniform ∧ _ ∧ _ := by simpa using same
  refine ⟨?_, rfl⟩
  obtain ⟨⟨_, answers⟩, ran, rfl⟩ := Option.map_eq_some_iff.mp interpolated
  rw [length_of_run _ ran, List.length_map, List.length_range]

end OpenStint
