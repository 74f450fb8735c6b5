/-
This file is about a queue of bounded length that drops its oldest item when a new one
does not fit. The queue always holds the most recent items of its history, so what it
holds is `List.rtake` of everything pushed so far.
-/

import Mathlib.Data.List.DropRight

namespace BoundedQueue

variable {Item : Type*}

/-- Append an item at the back; drop the front when the queue has grown over its capacity. -/
def push (capacity : Nat) (queue : List Item) (item : Item) : List Item :=
  let queue := queue ++ [item]
  if capacity < queue.length then queue.tail else queue

theorem length_rtake (count : Nat) (history : List Item) :
    (history.rtake count).length = min count history.length := by
  rw [List.rtake, List.length_drop]
  omega

theorem rtake_suffix (count : Nat) (history : List Item) : history.rtake count <:+ history :=
  List.drop_suffix _ _

theorem rtake_of_length_le {count : Nat} {history : List Item} (fits : history.length ≤ count) :
    history.rtake count = history := by
  rw [List.rtake, Nat.sub_eq_zero_of_le fits, List.drop_zero]

/-- The queue holds the last items pushed. -/
theorem push_rtake (capacity : Nat) (history : List Item) (item : Item) :
    push capacity (history.rtake capacity) item = (history ++ [item]).rtake capacity := by
  unfold push
  by_cases full : capacity ≤ history.length
  · have length : (history.rtake capacity ++ [item]).length = capacity + 1 := by
      rw [List.length_append, length_rtake, Nat.min_eq_left full, List.length_singleton]
    rw [if_pos (by omega), List.rtake, ← List.drop_append_of_le_length (Nat.sub_le _ _),
      List.tail_drop, List.rtake, List.length_append, List.length_singleton]
    congr 1
    omega
  · have fits : history.length ≤ capacity := by omega
    rw [rtake_of_length_le fits, if_neg (by simp; omega), rtake_of_length_le (by simp; omega)]

theorem length_push {capacity : Nat} {queue : List Item} (bounded : queue.length ≤ capacity)
    (item : Item) : (push capacity queue item).length = min capacity (queue.length + 1) := by
  conv_lhs => rw [← rtake_of_length_le bounded, push_rtake, length_rtake]
  rw [List.length_append, List.length_singleton]

theorem push_ne_nil {capacity : Nat} (room : 0 < capacity) (queue : List Item) (item : Item) :
    push capacity queue item ≠ [] := by
  rw [← List.length_pos_iff]
  dsimp only [push]
  split
  · rename_i full
    rw [List.length_append, List.length_singleton] at full
    rw [List.length_tail, List.length_append, List.length_singleton]
    omega
  · simp

/-- The last items of two histories in a row: all of the second, or the end of it, after
what still fits of the first. -/
theorem rtake_append (count : Nat) (first second : List Item) :
    (first ++ second).rtake count = first.rtake (count - second.length) ++ second.rtake count := by
  rw [List.rtake, List.drop_append, List.rtake, List.rtake, List.length_append,
    show first.length + second.length - count - first.length = second.length - count by omega]
  congr 1
  by_cases inside : second.length ≤ count
  · rw [show first.length + second.length - count = first.length - (count - second.length) by omega]
  · rw [List.drop_eq_nil_of_le (by omega), List.drop_eq_nil_of_le]
    omega

theorem rtake_of_suffix {count : Nat} {queue history : List Item} (suffix : queue <:+ history)
    (long : count ≤ queue.length) : queue.rtake count = history.rtake count := by
  obtain ⟨older, rfl⟩ := suffix
  rw [rtake_append, Nat.sub_eq_zero_of_le long, List.rtake_zero, List.nil_append]

theorem push_suffix {capacity : Nat} {queue history : List Item} (suffix : queue <:+ history)
    (item : Item) : push capacity queue item <:+ history ++ [item] := by
  obtain ⟨older, rfl⟩ := suffix
  have grown : queue ++ [item] <:+ older ++ queue ++ [item] :=
    ⟨older, (List.append_assoc _ _ _).symm⟩
  dsimp only [push]
  split
  · exact (List.tail_suffix _).trans grown
  · exact grown

end BoundedQueue
