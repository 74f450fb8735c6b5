/-
This file is about binary search in a sorted list. The search for a bound finds how many
items lie below it, so two searches cut out the indices of the items between two bounds.
-/

import Mathlib.Order.Lattice

namespace Bisect

variable {Item : Type*} [LinearOrder Item]

/-- The search between two indices: the first one whose item is not below the bound. -/
def searchLeft (items : List Item) (bound : Item) (lo hi : Nat) (inside : hi ≤ items.length) :
    Nat :=
  if open_ : lo < hi then
    have within : (lo + hi) / 2 < items.length := by omega
    if items[(lo + hi) / 2] < bound then
      searchLeft items bound ((lo + hi) / 2 + 1) hi inside
    else searchLeft items bound lo ((lo + hi) / 2) (Nat.le_of_lt within)
  else lo
termination_by hi - lo

def bisectLeft (items : List Item) (bound : Item) : Nat :=
  searchLeft items bound 0 items.length (Nat.le_refl _)

/-- What lies before an index is below the bound, and what lies behind it is not. -/
structure Splits (items : List Item) (bound : Item) (before behind : Nat) : Prop where
  below : ∀ i v, items[i]? = some v → i < before → v < bound
  above : ∀ i v, items[i]? = some v → behind ≤ i → bound ≤ v

theorem searchLeft_splits {items : List Item} (sorted : items.Pairwise (· ≤ ·)) {bound : Item}
    {lo hi : Nat} (inside : hi ≤ items.length) (ordered : lo ≤ hi)
    (splits : Splits items bound lo hi) :
    searchLeft items bound lo hi inside ≤ hi ∧
      Splits items bound (searchLeft items bound lo hi inside)
        (searchLeft items bound lo hi inside) := by
  have later : ∀ (i j : Nat) v w, items[i]? = some v → items[j]? = some w → i ≤ j → v ≤ w := by
    intro i j v w first second before
    obtain ⟨firstInside, rfl⟩ := List.getElem?_eq_some_iff.mp first
    obtain ⟨secondInside, rfl⟩ := List.getElem?_eq_some_iff.mp second
    rcases Nat.eq_or_lt_of_le before with rfl | strict
    · exact le_rfl
    · exact List.pairwise_iff_getElem.mp sorted i j firstInside secondInside strict
  fun_induction searchLeft items bound lo hi inside with
  | case1 lo hi inside open_ within below inductionHypothesis =>
    have middle := List.getElem?_eq_getElem within
    refine inductionHypothesis (by omega) ⟨fun i v read before => ?_, splits.above⟩
    exact (later i _ v _ read middle (by omega)).trans_lt below
  | case2 lo hi inside open_ within notBelow inductionHypothesis =>
    have middle := List.getElem?_eq_getElem within
    obtain ⟨bounded, found⟩ := inductionHypothesis (by omega)
      ⟨splits.below, fun i v read behind =>
        (not_lt.mp notBelow).trans (later _ i _ v middle read behind)⟩
    exact ⟨by omega, found⟩
  | case3 lo hi inside closed =>
    obtain rfl : lo = hi := by omega
    exact ⟨Nat.le_refl _, splits⟩

section Sorted

variable {items : List Item} (sorted : items.Pairwise (· ≤ ·))

include sorted

theorem bisectLeft_splits (bound : Item) :
    bisectLeft items bound ≤ items.length ∧
      Splits items bound (bisectLeft items bound) (bisectLeft items bound) := by
  refine searchLeft_splits sorted (Nat.le_refl _) (Nat.zero_le _) ⟨fun i v read before => ?_, ?_⟩
  · exact absurd before (Nat.not_lt_zero i)
  · intro i v read behind
    obtain ⟨inside, -⟩ := List.getElem?_eq_some_iff.mp read
    exact absurd inside (Nat.not_lt.mpr behind)

/-- The items below a bound are those before the index found. -/
theorem lt_bisectLeft_iff (bound : Item) {i : Nat} {v : Item} (read : items[i]? = some v) :
    i < bisectLeft items bound ↔ v < bound := by
  obtain ⟨-, splits⟩ := bisectLeft_splits sorted bound
  refine ⟨splits.below i v read, fun below => ?_⟩
  by_contra behind
  exact absurd (splits.above i v read (Nat.not_lt.mp behind)) (not_le.mpr below)

/-- Two searches cut out the items between two bounds. -/
theorem mem_range_bisectLeft_iff (lower upper : Item) {i : Nat} {v : Item}
    (read : items[i]? = some v) :
    bisectLeft items lower ≤ i ∧ i < bisectLeft items upper ↔ lower ≤ v ∧ v < upper := by
  rw [lt_bisectLeft_iff sorted upper read, ← Nat.not_lt, lt_bisectLeft_iff sorted lower read,
    not_lt]

end Sorted

end Bisect
