/-
This file is about loops whose turns may be undefined, because of a read outside of a vector
or of a quotient that does not exist. When every turn is defined, so is the loop, and it
computes what the loop over the defined turns computes.
-/

import Mathlib.Data.List.Basic

namespace CheckedLoop

variable {Item Value State : Type*}

theorem mapM_eq_some {turn : Item → Option Value} {value : Item → Value} {items : List Item}
    (defined : ∀ item ∈ items, turn item = some (value item)) :
    items.mapM turn = some (items.map value) := by
  induction items with
  | nil => rfl
  | cons item rest inductionHypothesis =>
    rw [List.forall_mem_cons] at defined
    rw [List.mapM_cons, defined.1, inductionHypothesis defined.2]
    rfl

theorem mapM_defined {turn : Item → Option Value} {items : List Item}
    (defined : ∀ item ∈ items, ∃ value, turn item = some value) :
    ∃ values, items.mapM turn = some values ∧ values.length = items.length := by
  induction items with
  | nil => exact ⟨[], rfl, rfl⟩
  | cons item rest inductionHypothesis =>
    rw [List.forall_mem_cons] at defined
    obtain ⟨⟨value, here⟩, later⟩ := defined
    obtain ⟨values, looped, length⟩ := inductionHypothesis later
    refine ⟨value :: values, ?_, congrArg Nat.succ length⟩
    rw [List.mapM_cons, here, looped]
    rfl

theorem foldlM_eq_some {turn : State → Item → Option State} {step : State → Item → State}
    {items : List Item}
    (defined : ∀ item ∈ items, ∀ state, turn state item = some (step state item)) (start : State) : items.foldlM turn start = some (items.foldl step start) := by
  induction items generalizing start with
  | nil => rfl
  | cons item rest inductionHypothesis =>
    rw [List.forall_mem_cons] at defined
    rw [List.foldlM_cons, defined.1 start, Option.bind_eq_bind, Option.bind_some,
      inductionHypothesis defined.2, List.foldl_cons]

end CheckedLoop
