/-
This file is about a window of fixed length over a stream of items, kept in a cyclic array:
a new item overwrites the oldest one, in the slot that the phase points to. Read from the
phase on, the slots are the bounded queue of the last items. The second part is about the
correlation of a window of integers with a word of signs.
-/

import Mathlib.Algebra.BigOperators.Fin
import Mathlib.Algebra.Order.Chebyshev
import Mathlib.Data.List.GetD
import OpenStint.Library.BoundedQueue

namespace CyclicWindow

open BoundedQueue

variable {length : Nat} [NeZero length]

/-- The items of the slots, oldest first. -/
def inOrder {Item : Type*} (slots : Fin length → Item) (phase : Fin length) : List Item :=
  List.ofFn fun age => slots (phase + age)

omit [NeZero length] in
theorem getD_inOrder {Item : Type*} (slots : Fin length → Item) (phase age : Fin length)
    (fallback : Item) : (inOrder slots phase).getD age.val fallback = slots (phase + age) := by
  rw [inOrder, List.getD_eq_getElem _ _ (by simp), List.getElem_ofFn]

/-- Overwriting the oldest item and advancing the phase is a push on the bounded queue. -/
theorem inOrder_update {Item : Type*} (slots : Fin length → Item) (phase : Fin length)
    (item : Item) :
    inOrder (Function.update slots phase item) (phase + 1) =
      push length (inOrder slots phase) item := by
  obtain ⟨older, rfl⟩ : ∃ older, length = older + 1 := Nat.exists_eq_succ_of_ne_zero (NeZero.ne _)
  have kept : ∀ age : Fin older, Function.update slots phase item (phase + 1 + age.castSucc) =
      slots (phase + age.succ) := by
    intro age
    have next : phase + 1 + age.castSucc = phase + age.succ := by
      rw [add_assoc, add_comm 1, Fin.coeSucc_eq_succ]
    have other : phase + age.succ ≠ phase := fun same =>
      Fin.succ_ne_zero age (add_eq_left.mp same)
    rw [next, Function.update_of_ne other]
  have latest : phase + 1 + Fin.last older = phase := by
    rw [add_assoc, add_comm 1, Fin.last_add_one, add_zero]
  have full : older + 1 < (List.ofFn fun age => slots (phase + age)).length + 1 := by
    rw [List.length_ofFn]
    omega
  rw [inOrder, inOrder, push, List.length_append, List.length_singleton, if_pos full,
    List.ofFn_succ', List.ofFn_succ, List.cons_append, List.tail_cons, latest,
    Function.update_self, List.concat_eq_append]
  exact congrArg (· ++ [item]) (congrArg List.ofFn (funext kept))

/-- Overwriting the oldest item in its place. -/
theorem inOrder_update_oldest {Item : Type*} (slots : Fin length → Item) (phase : Fin length)
    (item : Item) :
    inOrder (Function.update slots phase item) phase = item :: (inOrder slots phase).tail := by
  obtain ⟨older, rfl⟩ : ∃ older, length = older + 1 := Nat.exists_eq_succ_of_ne_zero (NeZero.ne _)
  have kept : ∀ age : Fin older, Function.update slots phase item (phase + age.succ) =
      slots (phase + age.succ) := by
    intro age
    exact Function.update_of_ne (fun same => Fin.succ_ne_zero age (add_eq_left.mp same)) _ _
  rw [inOrder, inOrder, List.ofFn_succ, List.ofFn_succ, List.tail_cons, add_zero,
    Function.update_self]
  exact congrArg (item :: ·) (congrArg List.ofFn (funext kept))

/-- A sum over the items does not depend on where the phase is. -/
theorem sum_inOrder {Item : Type*} (slots : Fin length → Item) (phase : Fin length)
    (value : Item → Nat) : ((inOrder slots phase).map value).sum = ∑ slot, value (slots slot) := by
  have shifted := Equiv.sum_comp (Equiv.addLeft phase) fun slot => value (slots slot)
  rw [inOrder, List.map_ofFn, List.sum_ofFn, ← shifted]
  rfl

omit [NeZero length] in
/-- A running total of the slots: the new item counts, the overwritten one no longer does. -/
theorem sum_update (slots : Fin length → Nat) (phase : Fin length) (item : Nat) :
    ∑ slot, Function.update slots phase item slot + slots phase = ∑ slot, slots slot + item := by
  rw [Finset.sum_update_of_mem (Finset.mem_univ phase), Finset.sdiff_singleton_eq_erase,
    ← Finset.add_sum_erase _ slots (Finset.mem_univ phase)]
  omega

/-! ### Correlation -/

/-- The correlation of the slots, read from the phase on, with a word. -/
def correlation (word slots : Fin length → Int) (phase : Fin length) : Int :=
  ∑ age, word age * slots (phase + age)

/-- The energy of the slots. -/
def energy (slots : Fin length → Int) : Int := ∑ slot, slots slot ^ 2

/-- The correlation can be summed slot by slot, against the word shifted by the phase. -/
theorem correlation_eq_sum (word slots : Fin length → Int) (phase : Fin length) :
    correlation word slots phase = ∑ slot, slots slot * word (slot - phase) := by
  have shifted := Equiv.sum_comp (Equiv.addLeft phase) fun slot => slots slot * word (slot - phase)
  rw [correlation, ← shifted]
  refine Finset.sum_congr rfl fun age _ => ?_
  rw [Equiv.coe_addLeft, add_sub_cancel_left, mul_comm]

/-- A word of signs correlates with a window at most as its energy allows, and the less the
fewer slots there are that are not zero. -/
theorem correlation_sq_le_card {word : Fin length → Int} (signs : ∀ age, word age ^ 2 = 1)
    (slots : Fin length → Int) (phase : Fin length) :
    correlation word slots phase ^ 2 ≤
      (Finset.univ.filter fun slot => slots slot ≠ 0).card * energy slots := by
  have support : correlation word slots phase =
      ∑ slot with slots slot ≠ 0, slots slot * word (slot - phase) := by
    rw [correlation_eq_sum, Finset.sum_filter_of_ne]
    intro slot _ nonzero zero
    exact nonzero (by rw [zero, zero_mul])
  have squares : ∑ slot with slots slot ≠ 0, (slots slot * word (slot - phase)) ^ 2 ≤
      energy slots := by
    rw [energy]
    refine (Finset.sum_le_sum_of_subset_of_nonneg (Finset.filter_subset _ _)
      fun slot _ _ => sq_nonneg _).trans (le_of_eq ?_)
    exact Finset.sum_congr rfl fun slot _ => by rw [mul_pow, signs, mul_one]
  rw [support]
  exact sq_sum_le_card_mul_sum_sq.trans (mul_le_mul_of_nonneg_left squares (Nat.cast_nonneg _))

theorem correlation_sq_le {word : Fin length → Int} (signs : ∀ age, word age ^ 2 = 1)
    (slots : Fin length → Int) (phase : Fin length) :
    correlation word slots phase ^ 2 ≤ length * energy slots := by
  have slotCount := Finset.card_filter_le Finset.univ fun slot => slots slot ≠ 0
  rw [Finset.card_univ, Fintype.card_fin] at slotCount
  have nonneg : 0 ≤ energy slots := Finset.sum_nonneg fun slot _ => sq_nonneg _
  exact (correlation_sq_le_card signs slots phase).trans
    (mul_le_mul_of_nonneg_right (by exact_mod_cast slotCount) nonneg)

/-- A window without a negative item can only be against a word where the word is negative. -/
theorem correlation_sq_le_of_nonneg {word slots : Fin length → Int}
    (signs : ∀ age, word age ^ 2 = 1) (nonneg : ∀ slot, 0 ≤ slots slot) {phase : Fin length}
    (against : correlation word slots phase ≤ 0) :
    correlation word slots phase ^ 2 ≤
      (Finset.univ.filter fun age => word age = -1).card * energy slots := by
  let opposed : Int := ∑ age with word age = -1, slots (phase + age)
  have part : -opposed ≤ correlation word slots phase := by
    rw [correlation, ← Finset.sum_filter_add_sum_filter_not _ fun age => word age = -1,
      ← Finset.sum_neg_distrib]
    have equal : ∑ age with word age = -1, word age * slots (phase + age) =
        ∑ age with word age = -1, -slots (phase + age) :=
      Finset.sum_congr rfl fun age member => by
        rw [(Finset.mem_filter.mp member).2, neg_one_mul]
    have other : 0 ≤ ∑ age with ¬ word age = -1, word age * slots (phase + age) :=
      Finset.sum_nonneg fun age member => by
        have plus : word age = 1 :=
          (sq_eq_one_iff.mp (signs age)).resolve_right (Finset.mem_filter.mp member).2
        rw [plus, one_mul]
        exact nonneg _
    rw [equal]
    exact le_add_of_nonneg_right other
  have squares : ∑ age with word age = -1, slots (phase + age) ^ 2 ≤ energy slots := by
    have shifted := Equiv.sum_comp (Equiv.addLeft phase) fun slot => slots slot ^ 2
    rw [energy, ← shifted]
    exact Finset.sum_le_sum_of_subset_of_nonneg (Finset.filter_subset _ _)
      fun age _ _ => sq_nonneg _
  calc correlation word slots phase ^ 2
      ≤ opposed ^ 2 := sq_le_sq' (by omega) (against.trans (Finset.sum_nonneg fun _ _ => nonneg _))
    _ ≤ _ := sq_sum_le_card_mul_sum_sq.trans
      (mul_le_mul_of_nonneg_left squares (Nat.cast_nonneg _))

end CyclicWindow
