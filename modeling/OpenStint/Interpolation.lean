/-
This file proves that the one pass of `interp` is pointwise interpolation, as
`numpy.interp` has it. The pass carries an interval from one output point to the next and
only moves it forward: what it has passed lies below an earlier output point, and the
output points are sorted, so it lies below the current one too.

Repeated abscissae do no harm. The interval that a point falls into is the first one that
reaches the point, so it begins below the point and is not empty. For the same reason the
abscissae need not be sorted.
-/

import Mathlib.Algebra.Order.Field.Rat
import Mathlib.Data.List.Forall2
import OpenStint.PassingPoint

namespace OpenStint

open Machine

variable {R : Type} [Field R] [LinearOrder R]

/-! ### Pointwise interpolation -/

/-- Two neighbouring points of a waveform. -/
structure Segment (x y : List R) (j : Nat) where
  x0 : R
  y0 : R
  x1 : R
  y1 : R
  begins : x[j]? = some x0 ∧ y[j]? = some y0
  ends : x[j + 1]? = some x1 ∧ y[j + 1]? = some y1

/-- The straight line through the two points. -/
def Segment.line {x y : List R} {j : Nat} (segment : Segment x y j) (xi : R) : R :=
  segment.y0 + (xi - segment.x0) / (segment.x1 - segment.x0) * (segment.y1 - segment.y0)

/-- The value at a point: that of the nearest end outside of the waveform, and inside the one
on the first segment that reaches the point. It lies between two values of the waveform. -/
structure InterpolatedAt (x y : List R) (xi yi : R) : Prop where
  low : ∀ front ∈ x.head?, xi ≤ front → y.head? = some yi
  high : ∀ front ∈ x.head?, ∀ back ∈ x.getLast?, front < xi → back ≤ xi → y.getLast? = some yi
  between : ∀ front ∈ x.head?, ∀ back ∈ x.getLast?, front < xi → xi < back →
    ∃ j, ∃ segment : Segment x y j, (∀ k < j, ∀ v ∈ x[k + 1]?, v < xi) ∧ xi ≤ segment.x1 ∧
      0 < segment.x1 - segment.x0 ∧ yi = segment.line xi
  bounded : (∃ v ∈ y, v ≤ yi) ∧ ∃ v ∈ y, yi ≤ v

/-! ### One output point -/

section Points

variable {x y : List R} {xi front back : R} (first : x.head? = some front)
  (last : x.getLast? = some back)

include first in
theorem interpolatedAt_low {yFront : R} (level : y.head? = some yFront) (low : xi ≤ front) :
    InterpolatedAt x y xi yFront := by
  have member := List.mem_of_mem_head? level
  have never (other : R) (same : other ∈ x.head?) (after : other < xi) : False := by
    rw [first] at same
    exact not_lt.mpr low (Option.some.inj same ▸ after)
  exact ⟨fun _ _ _ => level, fun other same _ _ after => (never other same after).elim,
    fun other same _ _ after => (never other same after).elim, ⟨_, member, le_rfl⟩, _, member,
    le_rfl⟩

include first last in
theorem interpolatedAt_high {yBack : R} (level : y.getLast? = some yBack) (after : front < xi)
    (high : back ≤ xi) : InterpolatedAt x y xi yBack := by
  have member := List.mem_of_getLast? level
  refine ⟨fun other same before => ?_, fun _ _ _ _ _ _ => level,
    fun _ _ other same _ before => ?_, ⟨_, member, le_rfl⟩, _, member, le_rfl⟩
  · rw [first] at same
    exact absurd (Option.some.inj same ▸ before) (not_le.mpr after)
  · rw [last] at same
    exact absurd (Option.some.inj same ▸ before) (not_lt.mpr high)

omit [Field R] in
include first last in
/-- Behind the first point and before the last one, the search finds the first segment that
reaches the point. -/
theorem findInterval_segment (levels : y.length = x.length) {j : Nat} (inside : j + 1 < x.length)
    (passed : ∀ k < j, ∀ v ∈ x[k + 1]?, v < xi) (after : front < xi) (before : xi < back) :
    ∃ k, ∃ segment : Segment x y k, findInterval x xi j = some k ∧ k + 1 < x.length ∧
      (∀ i < k, ∀ v ∈ x[i + 1]?, v < xi) ∧ segment.x0 < xi ∧ xi ≤ segment.x1 := by
  obtain ⟨k, found, within, skipped, reaches⟩ := findInterval_first x xi inside
  have start : k < x.length := Nat.lt_of_succ_lt within
  have behind : ∀ i < k, ∀ v ∈ x[i + 1]?, v < xi := by
    intro i below
    by_cases old : i < j
    · exact passed i old
    · exact skipped i (not_lt.mp old) below
  refine ⟨k, ⟨x[k], y[k], x[k + 1], y[k + 1],
    ⟨List.getElem?_eq_getElem start, List.getElem?_eq_getElem (levels.symm ▸ start)⟩,
    ⟨List.getElem?_eq_getElem within, List.getElem?_eq_getElem (levels.symm ▸ within)⟩⟩,
    found, within, behind, ?_, ?_⟩
  · cases k with
    | zero =>
      rw [List.head?_eq_getElem?, List.getElem?_eq_getElem start] at first
      exact (Option.some.inj first).trans_lt after
    | succ i => exact behind i (Nat.lt_succ_self i) _ (List.getElem?_eq_getElem start)
  · by_cases more : k + 2 < x.length
    · exact not_lt.mp (reaches more _ (List.getElem?_eq_getElem within))
    · have final : x.length - 1 = k + 1 := by omega
      rw [List.getLast?_eq_getElem?, final, List.getElem?_eq_getElem within] at last
      exact before.le.trans_eq (Option.some.inj last).symm

variable [IsStrictOrderedRing R] (levels : y.length = x.length)

/-- Between the two points a line lies between their values. -/
theorem line_bounded {j : Nat} (segment : Segment x y j) (after : segment.x0 < xi)
    (reaches : xi ≤ segment.x1) :
    (∃ v ∈ y, v ≤ segment.line xi) ∧ ∃ v ∈ y, segment.line xi ≤ v := by
  have begins : segment.y0 ∈ y := List.mem_of_getElem? segment.begins.2
  have ends : segment.y1 ∈ y := List.mem_of_getElem? segment.ends.2
  have width : 0 < segment.x1 - segment.x0 := sub_pos.mpr (after.trans_le reaches)
  have nonneg : 0 ≤ (xi - segment.x0) / (segment.x1 - segment.x0) :=
    div_nonneg (sub_nonneg.mpr after.le) width.le
  have le_one : (xi - segment.x0) / (segment.x1 - segment.x0) ≤ 1 :=
    (div_le_one width).mpr (sub_le_sub_right reaches _)
  rcases le_total segment.y0 segment.y1 with rises | falls
  · have climb := sub_nonneg.mpr rises
    refine ⟨⟨_, begins, le_add_of_nonneg_right (mul_nonneg nonneg climb)⟩, _, ends, ?_⟩
    rw [Segment.line, ← le_sub_iff_add_le']
    exact mul_le_of_le_one_left climb le_one
  · have drop := sub_nonpos.mpr falls
    refine ⟨⟨_, ends, ?_⟩, _, begins, add_le_of_nonpos_right (mul_nonpos_of_nonneg_of_nonpos nonneg
      drop)⟩
    rw [Segment.line, ← sub_le_iff_le_add']
    exact le_mul_of_le_one_left drop le_one

include first last in
theorem interpolatedAt_between {j : Nat} (segment : Segment x y j)
    (passed : ∀ k < j, ∀ v ∈ x[k + 1]?, v < xi) (begins : segment.x0 < xi)
    (reaches : xi ≤ segment.x1) (after : front < xi) (before : xi < back) :
    InterpolatedAt x y xi (segment.line xi) := by
  refine ⟨fun other same low => ?_, fun _ _ other same _ high => ?_, fun _ _ _ _ _ _ =>
    ⟨j, segment, passed, reaches, sub_pos.mpr (begins.trans_le reaches), rfl⟩,
    line_bounded segment begins reaches⟩
  · rw [first] at same
    exact absurd (Option.some.inj same ▸ low) (not_le.mpr after)
  · rw [last] at same
    exact absurd (Option.some.inj same ▸ high) (not_le.mpr before)

include levels

/-- One turn of the pass, from an interval that lies behind points below the current one. -/
theorem interpPoint_at {j : Nat} (inside : j + 1 < x.length)
    (passed : ∀ k < j, ∀ v ∈ x[k + 1]?, v < xi) :
    ∃ k yi, interpPoint x y j xi = some (k, yi) ∧ k + 1 < x.length ∧
      (∀ i < k, ∀ v ∈ x[i + 1]?, v < xi) ∧ InterpolatedAt x y xi yi := by
  have points : x ≠ [] := List.ne_nil_of_length_pos (by omega)
  have values : y ≠ [] := List.ne_nil_of_length_pos (by omega)
  have first := List.head?_eq_some_head points
  have last := List.getLast?_eq_some_getLast points
  have yFirst := List.head?_eq_some_head values
  have yLast := List.getLast?_eq_some_getLast values
  rw [interpPoint, first, last, yFirst, yLast]
  simp only [Option.bind_eq_bind, Option.bind_some]
  by_cases low : xi ≤ x.head points
  · exact ⟨j, _, if_pos low, inside, passed, interpolatedAt_low first yFirst low⟩
  have after := not_le.mp low
  rw [if_neg low]
  by_cases high : x.getLast points ≤ xi
  · exact ⟨j, _, if_pos high, inside, passed, interpolatedAt_high first last yLast after high⟩
  have before := not_le.mp high
  rw [if_neg high]
  obtain ⟨k, segment, found, within, behind, begins, reaches⟩ :=
    findInterval_segment first last levels inside passed after before
  rw [found, Option.bind_some, segment.begins.1, segment.begins.2, segment.ends.1, segment.ends.2]
  simp only [Option.bind_some, divide_of_ne _ (sub_ne_zero.mpr (begins.trans_le reaches).ne')]
  exact ⟨k, segment.line xi, rfl, within, behind,
    interpolatedAt_between first last segment behind begins reaches after before⟩

/-- Over sorted output points every turn of the pass is defined, and interpolates. -/
theorem run_interpPoint (points : 2 ≤ x.length) {xNew : List R}
    (sortedNew : xNew.Pairwise (· ≤ ·)) :
    ∃ j yNew, run (interpPoint x y) 0 xNew = some (j, yNew) ∧
      List.Forall₂ (InterpolatedAt x y) xNew yNew := by
  obtain ⟨j, yNew, ran, -, -, interpolated⟩ :
      ∃ j yNew, run (interpPoint x y) 0 xNew = some (j, yNew) ∧ j + 1 < x.length ∧
        (∀ k < j, ∀ v ∈ x[k + 1]?, ∃ earlier ∈ xNew, v < earlier) ∧
        List.Forall₂ (InterpolatedAt x y) xNew yNew := by
    refine run_inputs (fun past answers j => j + 1 < x.length ∧
      (∀ k < j, ∀ v ∈ x[k + 1]?, ∃ earlier ∈ past, v < earlier) ∧
      List.Forall₂ (InterpolatedAt x y) past answers) xNew ?_ ⟨points, ?_, .nil⟩
    · rintro past answers j xi ⟨rest, split⟩ ⟨inside, passed, interpolated⟩
      have ordered : ∀ earlier ∈ past, earlier ≤ xi := by
        intro earlier member
        rw [← split] at sortedNew
        exact (List.pairwise_append.mp (List.pairwise_append.mp sortedNew).1).2.2 earlier member xi
          (List.mem_singleton_self xi)
      obtain ⟨k, yi, stepped, within, behind, here⟩ := interpPoint_at levels inside
        fun k below v read => by
          obtain ⟨earlier, member, before⟩ := passed k below v read
          exact before.trans_le (ordered earlier member)
      refine ⟨k, yi, stepped, within, fun i below v read => ?_,
        List.rel_append interpolated (.cons here .nil)⟩
      exact ⟨xi, by simp, behind i below v read⟩
    · intro k below
      exact absurd below (Nat.not_lt_zero k)
  exact ⟨j, yNew, ran, interpolated⟩

/-- Over sorted output points the pass is defined, and interpolates at every one of them. -/
theorem interp_pointwise (points : 2 ≤ x.length) {xNew : List R}
    (sortedNew : xNew.Pairwise (· ≤ ·)) :
    ∃ yNew, interp xNew x y = some yNew ∧ List.Forall₂ (InterpolatedAt x y) xNew yNew := by
  obtain ⟨j, yNew, ran, interpolated⟩ := run_interpPoint levels points sortedNew
  exact ⟨yNew, by rw [interp, ran, Option.map_some], interpolated⟩

end Points

/-- A waveform with a repeated point, on a grid that is wider than the waveform. -/
theorem interp_pointwise_repeated :
    ∃ yNew, interp [-1, 0, 1 / 2, 1, 5 / 4, 2, 3] [0, 1, 1, 2] [10, 20, 40, 30] = some yNew ∧
      List.Forall₂ (InterpolatedAt ([0, 1, 1, 2] : List ℚ) [10, 20, 40, 30])
        [-1, 0, 1 / 2, 1, 5 / 4, 2, 3] yNew := by
  have levels : ([10, 20, 40, 30] : List ℚ).length = ([0, 1, 1, 2] : List ℚ).length := rfl
  have sortedNew : ([-1, 0, 1 / 2, 1, 5 / 4, 2, 3] : List ℚ).Pairwise (· ≤ ·) := by
    decide +kernel
  exact interp_pointwise levels (by decide) sortedNew

/-! ### The uniform grid -/

section Grid

variable [IsStrictOrderedRing R]

theorem uniformGrid_sorted :
    ((List.range 129).map fun i : Nat => (i : R) / ((128 : Nat) : R)).Pairwise (· ≤ ·) := by
  refine List.pairwise_map.mpr (List.pairwise_lt_range.imp fun {first second} before => ?_)
  exact div_le_div_of_nonneg_right (Nat.cast_le.mpr before.le) (Nat.cast_nonneg 128)

/-- The levels of a passing are resampled by interpolation at every point of the grid. -/
theorem resampUniform_pointwise {detections : List (Detection R)}
    (increasing : IncreasingTimecodes detections) (several : 2 ≤ detections.length) :
    ∃ tSample yUniform tcMin tcDiff, normalizedTimecodes detections = some tSample ∧
      resampUniform detections = some (yUniform, tcMin, tcDiff) ∧
      List.Forall₂ (InterpolatedAt tSample (detections.map Detection.rssi))
        ((List.range 129).map fun i : Nat => (i : R) / ((128 : Nat) : R)) yUniform := by
  obtain ⟨tSample, normalized, length, -⟩ := (resampling_law (R := R) increasing several).abscissa
  have levels : (detections.map Detection.rssi).length = tSample.length := by
    rw [List.length_map, length]
  obtain ⟨j, yUniform, ran, pointwise⟩ :=
    run_interpPoint levels (length ▸ several) uniformGrid_sorted
  obtain ⟨front, rest, rfl⟩ := List.exists_cons_of_length_pos (Nat.zero_lt_of_lt several)
  let back := (front :: rest).getLast (List.cons_ne_nil front rest)
  have last : (front :: rest).getLast? = some back := List.getLast?_eq_some_getLast _
  refine ⟨tSample, yUniform, front.timecode, timecodeSince front.timecode back.timecode,
    normalized, ?_, pointwise⟩
  rw [resampUniform, List.head?_cons, last, normalized]
  simp only [Option.bind_eq_bind, Option.bind_some]
  rw [interp, ran, Option.map_some, Option.bind_some]
  rfl

end Grid

end OpenStint
