/-
This file is about the topographic prominence of a peak among samples. On each side of the
peak lies a valley, which reaches outwards to the nearest strictly higher sample or to the
end of the samples, and the prominence is the height of the peak above the higher of the two
valleys. It is the same when the samples are read in the other direction. A valley without
its outermost sample is the same valley, unless no sample on that side is higher. How deep a
valley is can be told from the samples in it: it is below a level when one of them is.
-/

import Mathlib.Data.List.TakeWhile
import Mathlib.Order.Lattice
import Mathlib.Order.Defs.Unbundled
import Mathlib.Order.MinMax

namespace Prominence

variable {Height : Type*} [LinearOrder Height]

/-- The lowest of a level and some samples. -/
def lowest (level : Height) (samples : List Height) : Height := samples.foldl min level

/-- The bottom of the valley beside a peak, whose samples are read outwards. -/
def valley (peak : Height) (outward : List Height) : Height :=
  lowest peak (outward.takeWhile fun sample => sample ≤ peak)

/-- The higher of the two valleys beside a peak. -/
def saddle (samples : List Height) (index : Nat) (peak : Height) : Height :=
  max (valley peak (samples.take index).reverse) (valley peak (samples.drop (index + 1)))

@[simp] theorem lowest_cons (level sample : Height) (samples : List Height) :
    lowest level (sample :: samples) = lowest (min level sample) samples := rfl

/-- A lower set takes in the lowest of some samples when it takes in one of them. -/
theorem lowest_mem_iff {lower : Set Height} (closed : IsLowerSet lower) (level : Height)
    (samples : List Height) :
    lowest level samples ∈ lower ↔ level ∈ lower ∨ ∃ sample ∈ samples, sample ∈ lower := by
  induction samples generalizing level with
  | nil => simp [lowest]
  | cons sample rest inductionHypothesis =>
    have lowerOne : min level sample ∈ lower ↔ level ∈ lower ∨ sample ∈ lower := by
      rcases le_total level sample with below | above
      · rw [min_eq_left below]
        exact ⟨Or.inl, fun inside => inside.elim id (closed below)⟩
      · rw [min_eq_right above]
        exact ⟨Or.inr, fun inside => inside.elim (closed above) id⟩
    simp only [lowest_cons, inductionHypothesis, lowerOne, List.mem_cons, exists_eq_or_imp,
      or_assoc]

/-- A lower set takes in the higher of two levels when it takes in both. -/
theorem max_mem_iff {lower : Set Height} (closed : IsLowerSet lower) (first second : Height) :
    max first second ∈ lower ↔ first ∈ lower ∧ second ∈ lower := by
  constructor
  · exact fun inside => ⟨closed (le_max_left _ _) inside, closed (le_max_right _ _) inside⟩
  · rintro ⟨firstInside, secondInside⟩
    rcases max_choice first second with higher | higher <;> rwa [higher]

/-- A lower set takes in the higher of two valleys when it takes in the peak, or a sample of each
valley. -/
theorem valleys_mem_iff {lower : Set Height} (closed : IsLowerSet lower) (peak : Height)
    (left right : List Height) :
    max (valley peak left) (valley peak right) ∈ lower ↔
      (peak ∈ lower ∨ ∃ sample ∈ left.takeWhile fun sample => sample ≤ peak, sample ∈ lower) ∧
        (peak ∈ lower ∨
          ∃ sample ∈ right.takeWhile fun sample => sample ≤ peak, sample ∈ lower) := by
  rw [max_mem_iff closed, valley, valley, lowest_mem_iff closed, lowest_mem_iff closed]

/-- Where a sample is higher than the peak, the outermost sample makes no difference. -/
theorem valley_dropLast_of_higher {peak : Height} {outward : List Height}
    (higher : ∃ sample ∈ outward, peak < sample) :
    valley peak outward.dropLast = valley peak outward := by
  rcases List.eq_nil_or_concat outward with rfl | ⟨inner, outermost, rfl⟩
  · rfl
  rw [List.concat_eq_append] at higher ⊢
  rw [List.dropLast_concat, valley, valley, List.takeWhile_append]
  split
  · rename_i whole
    have innerClear : ∀ sample ∈ inner, sample ≤ peak := by
      have all := (List.takeWhile_prefix _).eq_of_length whole
      simpa using List.takeWhile_eq_self_iff.mp all
    obtain ⟨sample, member, above⟩ := higher
    have outermostAbove : peak < outermost := by
      rcases List.mem_append.mp member with inside | last
      · exact absurd (innerClear sample inside) (not_le.mpr above)
      · rwa [List.mem_singleton.mp last] at above
    rw [List.takeWhile_cons_of_neg (by simpa using outermostAbove), List.append_nil,
      List.takeWhile_eq_self_iff.mpr (by simpa using innerClear)]
  · rfl

/-- The prominence does not depend on the direction of reading. -/
theorem saddle_reverse {samples : List Height} {index : Nat} (inside : index < samples.length)
    (peak : Height) :
    saddle samples.reverse (samples.length - 1 - index) peak = saddle samples index peak := by
  have left : (samples.reverse.take (samples.length - 1 - index)).reverse =
      samples.drop (index + 1) := by
    rw [List.take_reverse, List.reverse_reverse]
    congr 1
    omega
  have right : samples.reverse.drop (samples.length - 1 - index + 1) =
      (samples.take index).reverse := by
    rw [List.drop_reverse]
    congr 2
    omega
  rw [saddle, left, right, max_comm, saddle]

end Prominence
