/-
This file is about the search for the largest of some items, as `std::max_element` makes it:
a later item takes the place of the best one so far when it is strictly larger, so the first
of the largest items is found.
-/

import Mathlib.Order.Lattice

namespace MaxElement

variable {Item Key : Type*}

/-- The largest of an item and those behind it. -/
def maxElement [LT Key] [DecidableLT Key] (key : Item → Key) (first : Item) (rest : List Item) :
    Item :=
  rest.foldl (fun best item => if key best < key item then item else best) first

@[simp] theorem maxElement_nil [LT Key] [DecidableLT Key] (key : Item → Key) (first : Item) :
    maxElement key first [] = first := rfl

@[simp] theorem maxElement_cons [LT Key] [DecidableLT Key] (key : Item → Key) (first item : Item)
    (rest : List Item) :
    maxElement key first (item :: rest) =
      maxElement key (if key first < key item then item else first) rest := rfl

/-- The search finds one of the items. -/
theorem maxElement_mem [LT Key] [DecidableLT Key] (key : Item → Key) (first : Item)
    (rest : List Item) : maxElement key first rest ∈ first :: rest := by
  induction rest generalizing first with
  | nil => exact List.mem_singleton_self first
  | cons item rest inductionHypothesis =>
    rw [maxElement_cons]
    split
    · exact List.mem_cons_of_mem _ (inductionHypothesis item)
    · rcases List.mem_cons.mp (inductionHypothesis first) with here | later
      · rw [here]
        exact List.mem_cons_self
      · exact List.mem_cons_of_mem _ (List.mem_cons_of_mem _ later)

/-- No item is larger than the one that is found. -/
theorem le_maxElement [LinearOrder Key] (key : Item → Key) (first : Item) (rest : List Item) :
    ∀ item ∈ first :: rest, key item ≤ key (maxElement key first rest) := by
  induction rest generalizing first with
  | nil =>
    intro item member
    rw [List.mem_singleton.mp member, maxElement_nil]
  | cons item rest inductionHypothesis =>
    have first_le : key first ≤ key (if key first < key item then item else first) := by
      split
      · rename_i larger
        exact larger.le
      · exact le_rfl
    have item_le : key item ≤ key (if key first < key item then item else first) := by
      split
      · exact le_rfl
      · rename_i smaller
        exact not_lt.mp smaller
    have best_le := inductionHypothesis (if key first < key item then item else first)
    intro other member
    rw [maxElement_cons]
    rcases List.mem_cons.mp member with rfl | member
    · exact first_le.trans (best_le _ List.mem_cons_self)
    · rcases List.mem_cons.mp member with rfl | later
      · exact item_le.trans (best_le _ List.mem_cons_self)
      · exact best_le other (List.mem_cons_of_mem _ later)

/-- The search looks only at how the keys compare. -/
theorem maxElement_congr {Other : Type*} [LT Key] [DecidableLT Key] [LT Other]
    [DecidableLT Other] {key : Item → Key} {other : Item → Other}
    (same : ∀ first second, key first < key second ↔ other first < other second) (first : Item)
    (rest : List Item) : maxElement key first rest = maxElement other first rest := by
  simp only [maxElement, same]

end MaxElement
