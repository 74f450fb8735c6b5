/-
This file models `first_crossing` and `last_crossing` of `passing.cpp`, the interpolated
places where a waveform first and last passes a level, and proves when they mirror each
other. The loop of `last_crossing` stops before index 0, so a waveform that reaches the
level at its first value only has its last crossing at the end. In every other case the last
crossing is the mirrored first crossing of the reversed waveform, and not before the first;
where this is so of the waveform and of its reverse, their centres mirror each other.
-/

import Mathlib.Algebra.Order.Field.Rat
import Mathlib.Tactic.Linarith
import OpenStint.PassingPoint

namespace OpenStint

variable {R : Type}

/-! ### The model -/

section Model

variable [Add R] [Sub R] [NatCast R] [LE R] [DecidableLE R] [FloatDivision R]

/-- The loop over the values: the first one that reaches the level, interpolated with the
value beside it. -/
def crossingLoop (data : List R) (v : R) (beside : Nat → Nat) (place : Nat → R → R)
    (fallback : R) : List Nat → Option R
  | [] => some fallback
  | i :: rest => do
    let value ← data[i]?
    if v ≤ value then
      let below ← data[beside i]?
      let t ← divide (v - below) (value - below)
      return place i t
    else crossingLoop data v beside place fallback rest

def firstCrossing (data : List R) (v : R) : Option R := do
  let front ← data[0]?
  if v ≤ front then return ((0 : Nat) : R)
  else
    crossingLoop data v (fun i => i - 1) (fun i t => ((i - 1 : Nat) : R) + t) ((0 : Nat) : R)
      (List.range' 1 (data.length - 1))

/-- Of a single value below the level the loop would start at `k - 1`, which wraps. -/
def lastCrossing (data : List R) (v : R) : Option R := do
  let k := data.length - 1
  let back ← data[k]?
  if v ≤ back then return (k : R)
  else if k = 0 then none
  else
    crossingLoop data v (fun i => i + 1) (fun i t => ((i + 1 : Nat) : R) - t) (k : R)
      (List.range' 1 (k - 1)).reverse

/-! ### Where the loops are defined -/

section Defined

variable (quotients : ∀ dividend divisor : R, ∃ quotient, divide dividend divisor = some quotient)

include quotients

omit [Add R] [NatCast R] in
theorem crossingLoop_defined {data : List R} {beside : Nat → Nat} {indices : List Nat}
    (inside : ∀ i ∈ indices, i < data.length ∧ beside i < data.length) (v : R)
    (place : Nat → R → R) (fallback : R) :
    ∃ crossing, crossingLoop data v beside place fallback indices = some crossing := by
  induction indices with
  | nil => exact ⟨fallback, rfl⟩
  | cons i rest inductionHypothesis =>
    rw [List.forall_mem_cons] at inside
    obtain ⟨⟨bound, besideBound⟩, restInside⟩ := inside
    rw [crossingLoop, List.getElem?_eq_getElem bound, Option.bind_eq_bind, Option.bind_some]
    split
    · obtain ⟨t, quotient⟩ := quotients (v - data[beside i]) (data[i] - data[beside i])
      rw [List.getElem?_eq_getElem besideBound, Option.bind_some, quotient]
      exact ⟨_, rfl⟩
    · exact inductionHypothesis restInside

/-- Where all quotients exist, as those of floats do, every waveform has its first crossing. -/
theorem firstCrossing_defined {data : List R} (some_ : data ≠ []) (v : R) :
    ∃ first, firstCrossing data v = some first := by
  have positive := List.length_pos_of_ne_nil some_
  rw [firstCrossing, List.getElem?_eq_getElem positive, Option.bind_eq_bind, Option.bind_some]
  split
  · exact ⟨_, rfl⟩
  · refine crossingLoop_defined quotients (fun i member => ?_) v _ _
    rw [List.mem_range'_1] at member
    omega

omit [Add R] in
/-- The same of the last crossing, for two values or more. -/
theorem lastCrossing_defined {data : List R} (several : 2 ≤ data.length) (v : R) :
    ∃ last, lastCrossing data v = some last := by
  rw [lastCrossing, List.getElem?_eq_getElem (by omega : data.length - 1 < data.length),
    Option.bind_eq_bind, Option.bind_some]
  split
  · exact ⟨_, rfl⟩
  · rw [if_neg (by omega)]
    refine crossingLoop_defined quotients (fun i member => ?_) v _ _
    rw [List.mem_reverse, List.mem_range'_1] at member
    omega

end Defined

end Model

/-! ### Where the loops stop -/

variable [Field R] [LinearOrder R]

section Loop

variable {data : List R} {v : R} {beside : Nat → Nat} {place : Nat → R → R} {fallback : R}

/-- Values below the level are passed over. -/
theorem crossingLoop_skip {passed : List Nat}
    (low : ∀ i ∈ passed, ∃ value, data[i]? = some value ∧ value < v) (rest : List Nat) :
    crossingLoop data v beside place fallback (passed ++ rest) =
      crossingLoop data v beside place fallback rest := by
  induction passed with
  | nil => rfl
  | cons i passed inductionHypothesis =>
    rw [List.forall_mem_cons] at low
    obtain ⟨⟨value, read, below⟩, later⟩ := low
    rw [List.cons_append, crossingLoop, read, Option.bind_eq_bind, Option.bind_some,
      if_neg (not_le.mpr below), inductionHypothesis later]

theorem crossingLoop_stop {i : Nat} {value below : R} (read : data[i]? = some value)
    (readBeside : data[beside i]? = some below) (reached : v ≤ value) (low : below < v)
    (rest : List Nat) :
    crossingLoop data v beside place fallback (i :: rest) =
      some (place i ((v - below) / (value - below))) := by
  have rises : value - below ≠ 0 := sub_ne_zero.mpr (low.trans_le reached).ne'
  rw [crossingLoop, read, readBeside]
  simp only [Option.bind_eq_bind, Option.bind_some, if_pos reached, divide_of_ne _ rises]
  rfl

end Loop

theorem range'_split (first rest : Nat) :
    List.range' 1 (first + (rest + 1)) =
      List.range' 1 first ++ (first + 1) :: List.range' (first + 2) rest := by
  rw [← List.range'_append_1, List.range'_succ, Nat.add_comm 1 first]

theorem reverse_range'_split (first rest : Nat) :
    (List.range' 1 (first + 1 + rest)).reverse =
      (List.range' (first + 1 + 1) rest).reverse ++
        (first + 1) :: (List.range' 1 first).reverse := by
  rw [Nat.add_assoc, Nat.add_comm 1 rest, range'_split, List.reverse_append, List.reverse_cons,
    List.append_assoc, List.singleton_append]

omit [Field R] in
theorem exists_low (before : List R) {part : List R} {v : R} (lows : ∀ sample ∈ part, sample < v)
    (after : List R) {i : Nat} (start : before.length ≤ i)
    (stop : i < before.length + part.length) :
    ∃ value, (before ++ part ++ after)[i]? = some value ∧ value < v := by
  have inside : i - before.length < part.length := by omega
  refine ⟨part[i - before.length], ?_, lows _ (List.getElem_mem inside)⟩
  rw [List.append_assoc, List.getElem?_append_right start, List.getElem?_append_left inside,
    List.getElem?_eq_getElem inside]

variable {v value below : R} {low rest : List R}

theorem firstCrossing_head (reached : v ≤ value) (rest : List R) :
    firstCrossing (value :: rest) v = some 0 := by
  rw [firstCrossing, List.getElem?_cons_zero]
  simp [reached]

/-- The first crossing is between the last value of a low part and the value after it. -/
theorem firstCrossing_eq (lows : ∀ sample ∈ low ++ [below], sample < v) (reached : v ≤ value)
    (rest : List R) :
    firstCrossing (low ++ [below] ++ value :: rest) v =
      some ((low.length : R) + (v - below) / (value - below)) := by
  have indices : (low ++ [below] ++ value :: rest).length - 1 =
      low.length + (rest.length + 1) := by
    simp only [List.length_append, List.length_cons, List.length_nil]
    omega
  have readLow {i : Nat} (inside : i < low.length + 1) :
      ∃ sample, (low ++ [below] ++ value :: rest)[i]? = some sample ∧ sample < v :=
    exists_low [] lows (value :: rest) (Nat.zero_le i) (by simpa using inside)
  obtain ⟨front, readFront, frontLow⟩ := readLow (Nat.succ_pos low.length)
  have skipped : ∀ i ∈ List.range' 1 low.length,
      ∃ sample, (low ++ [below] ++ value :: rest)[i]? = some sample ∧ sample < v := by
    intro i member
    rw [List.mem_range'_1] at member
    exact readLow (by omega)
  have read : (low ++ [below] ++ value :: rest)[low.length + 1]? = some value := by simp
  have readBeside : (low ++ [below] ++ value :: rest)[low.length + 1 - 1]? = some below := by simp
  rw [firstCrossing, readFront, Option.bind_eq_bind, Option.bind_some,
    if_neg (not_le.mpr frontLow), indices, range'_split, crossingLoop_skip skipped,
    crossingLoop_stop read readBeside reached (lows below (by simp)), Nat.add_sub_cancel]

theorem lastCrossing_last (reached : v ≤ value) (rest : List R) :
    lastCrossing (rest ++ [value]) v = some (rest.length : R) := by
  rw [lastCrossing]
  simp [reached]

/-- The last crossing is between the first value of a low part and the value before it,
unless that value is the first of all. -/
theorem lastCrossing_eq (lows : ∀ sample ∈ below :: low, sample < v) (reached : v ≤ value)
    (rest : List R) :
    lastCrossing (rest ++ value :: below :: low) v =
      some (if rest = [] then ((low.length + 1 : Nat) : R)
        else ((rest.length + 1 : Nat) : R) - (v - below) / (value - below)) := by
  have shape : rest ++ value :: below :: low = rest ++ [value] ++ (below :: low) ++ [] := by simp
  have readLow {i : Nat} (start : rest.length < i) (stop : i < rest.length + low.length + 2) :
      ∃ sample, (rest ++ value :: below :: low)[i]? = some sample ∧ sample < v := by
    rw [shape]
    refine exists_low (rest ++ [value]) lows [] ?_ ?_
    · rw [List.length_append, List.length_singleton]
      omega
    · simp only [List.length_append, List.length_cons, List.length_nil]
      omega
  have last : (rest ++ value :: below :: low).length - 1 = rest.length + low.length + 1 := by
    simp only [List.length_append, List.length_cons]
    omega
  obtain ⟨back, readBack, backLow⟩ :=
    readLow (i := rest.length + low.length + 1) (by omega) (by omega)
  have skipped : ∀ i ∈ (List.range' (rest.length + 1) low.length).reverse,
      ∃ sample, (rest ++ value :: below :: low)[i]? = some sample ∧ sample < v := by
    intro i member
    rw [List.mem_reverse, List.mem_range'_1] at member
    exact readLow (by omega) (by omega)
  rw [lastCrossing, last, readBack, Option.bind_eq_bind, Option.bind_some,
    if_neg (not_le.mpr backLow), if_neg (Nat.succ_ne_zero _), Nat.add_sub_cancel]
  cases rest with
  | nil =>
    rw [List.length_nil, Nat.zero_add] at skipped ⊢
    rw [← List.append_nil (List.range' 1 low.length).reverse, crossingLoop_skip skipped, if_pos rfl]
    rfl
  | cons front rest =>
    have read : (front :: rest ++ value :: below :: low)[rest.length + 1]? = some value := by simp
    have readBeside : (front :: rest ++ value :: below :: low)[rest.length + 1 + 1]? =
        some below := by simp
    rw [List.length_cons] at skipped
    rw [if_neg (List.cons_ne_nil front rest), List.length_cons, reverse_range'_split,
      crossingLoop_skip skipped,
      crossingLoop_stop read readBeside reached (lows below List.mem_cons_self)]

/-! ### Mirrored waveforms -/

/-- The middle between two crossings, as `compute_passing_point` takes it. -/
def centre (first last : R) : R := first + (last - first) / ((2 : Nat) : R)

/-- The last crossing is the mirrored first crossing of the reversed waveform, the first
crossing is not after it, and the centre of the reversed waveform is the mirrored centre. -/
def CrossingsMirror (data : List R) (v : R) : Prop :=
  ∃ first last otherFirst otherLast,
    firstCrossing data v = some first ∧ lastCrossing data v = some last ∧
    firstCrossing data.reverse v = some otherFirst ∧
    lastCrossing data.reverse v = some otherLast ∧
    last = ((data.length - 1 : Nat) : R) - otherFirst ∧ first ≤ last ∧
    centre otherFirst otherLast = ((data.length - 1 : Nat) : R) - centre first last

omit [Field R] in
/-- The last value that reaches the level, and the low part behind it. -/
theorem exists_last_reached (data : List R) {v : R} (level : ∃ sample ∈ data, v ≤ sample) :
    ∃ rest value low, data = rest ++ value :: low ∧ v ≤ value ∧ ∀ sample ∈ low, sample < v := by
  obtain ⟨value, found⟩ := Option.isSome_iff_exists.mp
    (List.find?_isSome (p := fun sample => decide (v ≤ sample)).mpr
      (by simpa using level) : (data.reverse.find? fun sample => decide (v ≤ sample)).isSome)
  obtain ⟨reached, low, rest, split, lows⟩ := List.find?_eq_some_iff_append.mp found
  refine ⟨rest.reverse, value, low.reverse, ?_, of_decide_eq_true reached, fun sample member => ?_⟩
  · rw [← List.reverse_reverse data, split]
    simp
  · simpa using lows sample (List.mem_reverse.mp member)

omit [Field R] in
/-- The first value that reaches the level, and the low part before it. -/
theorem exists_first_reached {data : List R} {v : R} (level : ∃ sample ∈ data, v ≤ sample) :
    ∃ low value rest, data = low ++ value :: rest ∧ v ≤ value ∧ ∀ sample ∈ low, sample < v := by
  obtain ⟨rest, value, low, split, reached, lows⟩ :=
    exists_last_reached data.reverse (by simpa using level)
  refine ⟨low.reverse, value, rest.reverse, ?_, reached, fun sample member =>
    lows sample (List.mem_reverse.mp member)⟩
  rw [← List.reverse_reverse data, split]
  simp

variable [IsStrictOrderedRing R]

theorem fraction_pos (low : below < v) (reached : v ≤ value) :
    0 < (v - below) / (value - below) :=
  div_pos (sub_pos.mpr low) (sub_pos.mpr (low.trans_le reached))

theorem fraction_le_one (low : below < v) (reached : v ≤ value) :
    (v - below) / (value - below) ≤ 1 := by
  rw [div_le_one (sub_pos.mpr (low.trans_le reached))]
  exact sub_le_sub_right reached below

/-- The first crossing is not after a value that reaches the level. -/
theorem firstCrossing_le {data : List R} {i : Nat} (read : data[i]? = some value)
    (reached : v ≤ value) :
    ∃ first : R, firstCrossing data v = some first ∧ 0 ≤ first ∧ first ≤ i := by
  obtain ⟨low, stop, rest, rfl, stopReached, lows⟩ :=
    exists_first_reached ⟨value, List.mem_of_getElem? read, reached⟩
  rcases List.eq_nil_or_concat low with rfl | ⟨low, below, rfl⟩
  · exact ⟨0, firstCrossing_head stopReached rest, le_rfl, Nat.cast_nonneg i⟩
  · rw [List.concat_eq_append] at lows read ⊢
    have after : low.length + 1 ≤ i := by
      by_contra before
      obtain ⟨sample, readLow, sampleLow⟩ := exists_low [] lows (stop :: rest) (Nat.zero_le i)
        (by simpa using before)
      rw [List.nil_append, read] at readLow
      obtain rfl := Option.some.inj readLow
      exact absurd sampleLow (not_lt.mpr reached)
    have belowLow : below < v := lows below (by simp)
    refine ⟨_, firstCrossing_eq lows stopReached rest, ?_, ?_⟩
    · exact add_nonneg (Nat.cast_nonneg _) (fraction_pos belowLow stopReached).le
    · calc (low.length : R) + (v - below) / (stop - below)
          ≤ low.length + 1 := by gcongr; exact fraction_le_one belowLow stopReached
        _ = ((low.length + 1 : Nat) : R) := by rw [Nat.cast_succ]
        _ ≤ i := Nat.cast_le.mpr after

/-- The last crossing is not before a value that reaches the level. -/
theorem le_lastCrossing {data : List R} {i : Nat} (read : data[i]? = some value)
    (reached : v ≤ value) :
    ∃ last : R, lastCrossing data v = some last ∧ i ≤ last ∧ last ≤ (data.length - 1 : Nat) := by
  obtain ⟨rest, stop, low, rfl, stopReached, lows⟩ :=
    exists_last_reached data ⟨value, List.mem_of_getElem? read, reached⟩
  have before : i ≤ rest.length := by
    by_contra after
    obtain ⟨bound, -⟩ := List.getElem?_eq_some_iff.mp read
    rw [List.length_append, List.length_cons] at bound
    have length : (rest ++ [stop]).length = rest.length + 1 := List.length_append
    obtain ⟨sample, readLow, sampleLow⟩ := exists_low (rest ++ [stop]) lows [] (i := i)
      (by omega) (by omega)
    rw [List.append_nil, List.append_assoc, List.singleton_append, read] at readLow
    obtain rfl := Option.some.inj readLow
    exact absurd sampleLow (not_lt.mpr reached)
  cases low with
  | nil =>
    refine ⟨_, lastCrossing_last stopReached rest, Nat.cast_le.mpr before, Nat.cast_le.mpr ?_⟩
    simp
  | cons below low =>
    have belowLow : below < v := lows below List.mem_cons_self
    have length : (rest ++ stop :: below :: low).length - 1 = rest.length + low.length + 1 := by
      simp only [List.length_append, List.length_cons]
      omega
    have position : (rest.length : R) ≤ (rest.length + 1 : Nat) - (v - below) / (stop - below) := by
      rw [Nat.cast_succ, add_sub_assoc]
      exact le_add_of_nonneg_right (sub_nonneg.mpr (fraction_le_one belowLow stopReached))
    have end_ : (rest.length + 1 : Nat) - (v - below) / (stop - below) ≤
        ((rest.length + low.length + 1 : Nat) : R) :=
      (sub_le_self _ (fraction_pos belowLow stopReached).le).trans (Nat.cast_le.mpr (by omega))
    refine ⟨_, lastCrossing_eq lows stopReached rest, ?_, ?_⟩
    · split
      · rename_i only
        rw [only, List.length_nil] at before
        exact Nat.cast_le.mpr (by omega)
      · exact (Nat.cast_le.mpr before).trans position
    · rw [length]
      split
      · exact Nat.cast_le.mpr (by omega)
      · exact end_

/-- Where the last crossing is found, it mirrors the first crossing of the reversed waveform,
unless only the first value of several reaches the level. -/
theorem lastCrossing_mirror_iff {data : List R} (several : 2 ≤ data.length)
    (level : ∃ sample ∈ data, v ≤ sample) {last mirrored : R}
    (foundLast : lastCrossing data v = some last)
    (foundMirrored : firstCrossing data.reverse v = some mirrored) :
    last = (data.length - 1 : Nat) - mirrored ↔ ∃ sample ∈ data.tail, v ≤ sample := by
  obtain ⟨rest, value, low, rfl, reached, lows⟩ := exists_last_reached data level
  cases low with
  | nil =>
    rw [lastCrossing_last reached] at foundLast
    rw [List.reverse_append, List.reverse_singleton, List.singleton_append,
      firstCrossing_head reached] at foundMirrored
    obtain rfl := Option.some.inj foundLast
    obtain rfl := Option.some.inj foundMirrored
    cases rest with
    | nil => exact absurd several (by simp)
    | cons front rest => simp [reached]
  | cons below low =>
    have belowLow : below < v := lows below List.mem_cons_self
    have reversed : (rest ++ value :: below :: low).reverse =
        low.reverse ++ [below] ++ value :: rest.reverse := by simp
    have reversedLows : ∀ sample ∈ low.reverse ++ [below], sample < v := by
      intro sample member
      refine lows sample ?_
      simpa [or_comm] using member
    rw [reversed, firstCrossing_eq reversedLows reached, List.length_reverse] at foundMirrored
    rw [lastCrossing_eq lows reached] at foundLast
    obtain rfl := Option.some.inj foundLast
    obtain rfl := Option.some.inj foundMirrored
    have length : (rest ++ value :: below :: low).length - 1 = rest.length + low.length + 1 := by
      simp only [List.length_append, List.length_cons]
      omega
    rw [length]
    cases rest with
    | nil =>
      have positive := fraction_pos belowLow reached
      rw [if_pos rfl]
      constructor
      · intro same
        push_cast [List.length_nil] at same
        have nonneg : (0 : R) ≤ low.length := Nat.cast_nonneg low.length
        linarith
      · rintro ⟨sample, member, high⟩
        exact absurd (lows sample member) (not_lt.mpr high)
    | cons front rest =>
      rw [if_neg (List.cons_ne_nil front rest)]
      refine iff_of_true ?_ ⟨value, by simp, reached⟩
      push_cast
      ring

/-- Where a last crossing is a mirrored first crossing, the centres mirror each other exactly
when the other one is, too. -/
theorem centre_mirror_iff {first last otherFirst otherLast end_ : R}
    (mirrors : last = end_ - otherFirst) :
    centre otherFirst otherLast = end_ - centre first last ↔ otherLast = end_ - first := by
  rw [centre, centre, mirrors]
  push_cast
  constructor
  · intro same
    linarith
  · rintro rfl
    ring

/-- The crossings mirror each other exactly when a value other than the first one and a value
other than the last one reach the level. -/
theorem crossings_mirror_iff {data : List R} (several : 2 ≤ data.length)
    (level : ∃ sample ∈ data, v ≤ sample) :
    CrossingsMirror data v ↔
      (∃ sample ∈ data.tail, v ≤ sample) ∧ ∃ sample ∈ data.dropLast, v ≤ sample := by
  obtain ⟨value, member, reached⟩ := level
  obtain ⟨i, read⟩ := List.mem_iff_getElem?.mp member
  obtain ⟨j, readReversed⟩ := List.mem_iff_getElem?.mp (List.mem_reverse.mpr member)
  obtain ⟨first, foundFirst, -, early⟩ := firstCrossing_le read reached
  obtain ⟨last, foundLast, late, -⟩ := le_lastCrossing read reached
  obtain ⟨otherFirst, foundOtherFirst, -⟩ := firstCrossing_le readReversed reached
  obtain ⟨otherLast, foundOtherLast, -⟩ := le_lastCrossing readReversed reached
  have forth : last = (data.length - 1 : Nat) - otherFirst ↔ ∃ sample ∈ data.tail, v ≤ sample :=
    lastCrossing_mirror_iff several ⟨value, member, reached⟩ foundLast foundOtherFirst
  have back : otherLast = (data.length - 1 : Nat) - first ↔
      ∃ sample ∈ data.dropLast, v ≤ sample := by
    have turned : otherLast = (data.reverse.length - 1 : Nat) - first ↔
        ∃ sample ∈ data.reverse.tail, v ≤ sample :=
      lastCrossing_mirror_iff (by rwa [List.length_reverse])
        ⟨value, List.mem_reverse.mpr member, reached⟩ foundOtherLast
        (by rwa [List.reverse_reverse])
    rw [List.length_reverse, List.tail_reverse] at turned
    simpa only [List.mem_reverse] using turned
  rw [← forth, ← back]
  constructor
  · rintro ⟨_, _, _, _, readFirst, readLast, readOtherFirst, readOtherLast, mirrors, -, centres⟩
    obtain rfl := Option.some.inj (foundFirst.symm.trans readFirst)
    obtain rfl := Option.some.inj (foundLast.symm.trans readLast)
    obtain rfl := Option.some.inj (foundOtherFirst.symm.trans readOtherFirst)
    obtain rfl := Option.some.inj (foundOtherLast.symm.trans readOtherLast)
    exact ⟨mirrors, (centre_mirror_iff mirrors).mp centres⟩
  · rintro ⟨mirrors, turned⟩
    exact ⟨first, last, otherFirst, otherLast, foundFirst, foundLast, foundOtherFirst,
      foundOtherLast, mirrors, early.trans late, (centre_mirror_iff mirrors).mpr turned⟩

theorem crossings_mirror_iff_peak : CrossingsMirror [(0 : ℚ), 2, 0] 1 :=
  (crossings_mirror_iff (by decide) ⟨2, by decide, by decide⟩).mpr
    ⟨⟨2, by decide, by decide⟩, ⟨2, by decide, by decide⟩⟩

/-- A waveform that falls from the level: the last crossing is found at its end. -/
theorem crossings_mirror_fails :
    ¬ ∀ (data : List ℚ) (v : ℚ), 2 ≤ data.length → (∃ sample ∈ data, v ≤ sample) →
      CrossingsMirror data v := by
  intro always
  obtain ⟨_, last, mirrored, _, -, foundLast, foundMirrored, -, mirrors, -⟩ :=
    always [1, 0] 1 (by decide) ⟨1, by decide, by decide⟩
  have lastEnd : lastCrossing [(1 : ℚ), 0] 1 = some 1 := by decide +kernel
  have mirroredEnd : firstCrossing [(0 : ℚ), 1] 1 = some 1 := by decide +kernel
  rw [lastEnd] at foundLast
  rw [List.reverse_cons, List.reverse_singleton, List.singleton_append, mirroredEnd]
    at foundMirrored
  obtain rfl := Option.some.inj foundLast
  obtain rfl := Option.some.inj foundMirrored
  norm_num at mirrors

end OpenStint
