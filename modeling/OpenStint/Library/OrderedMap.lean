/-
This file is about the ordered map `Std.TreeMap`, which stands for `std::map`. A loop over
a `std::map` runs over `toList`; the rules here say what such a loop finds of one key, and
what several insertions or erasures in a row leave of each key.
-/

import Mathlib.Data.List.Induction
import Std.Data.TreeMap

namespace OrderedMap

variable {Key Value : Type*} {cmp : Key → Key → Ordering}

/-- Erase several keys in turn. -/
def eraseAll (map : Std.TreeMap Key Value cmp) (keys : List Key) : Std.TreeMap Key Value cmp :=
  keys.foldl (fun map key => map.erase key) map

/-- Give several keys in turn the same value. -/
def insertAll (map : Std.TreeMap Key Value cmp) (keys : List Key) (value : Value) :
    Std.TreeMap Key Value cmp :=
  keys.foldl (fun map key => map.insert key value) map

variable [Std.TransCmp cmp] [Std.LawfulEqCmp cmp]

theorem getElem?_eraseAll [DecidableEq Key] (map : Std.TreeMap Key Value cmp) (keys : List Key)
    (key : Key) : (eraseAll map keys)[key]? = if key ∈ keys then none else map[key]? := by
  induction keys generalizing map with
  | nil => rfl
  | cons first rest inductionHypothesis =>
    rw [eraseAll, List.foldl_cons, ← eraseAll, inductionHypothesis, Std.TreeMap.getElem?_erase]
    by_cases same : first = key
    · subst same
      simp [Std.ReflCmp.compare_self]
    · simp [Std.LawfulEqCmp.compare_eq_iff_eq, same, Ne.symm same]

theorem getElem?_insertAll [DecidableEq Key] (map : Std.TreeMap Key Value cmp) (keys : List Key)
    (value : Value) (key : Key) :
    (insertAll map keys value)[key]? = if key ∈ keys then some value else map[key]? := by
  induction keys generalizing map with
  | nil => rfl
  | cons first rest inductionHypothesis =>
    rw [insertAll, List.foldl_cons, ← insertAll, inductionHypothesis, Std.TreeMap.getElem?_insert]
    by_cases same : first = key
    · subst same
      simp [Std.ReflCmp.compare_self]
    · simp [Std.LawfulEqCmp.compare_eq_iff_eq, same, Ne.symm same]

/-- Two maps that hold the same value at every key are run through in the same order. -/
theorem toList_eq_of_getElem? {first second : Std.TreeMap Key Value cmp}
    (same : ∀ key : Key, first[key]? = second[key]?) : first.toList = second.toList := by
  refine Std.TreeMap.equiv_iff_toList_eq.mp (Std.TreeMap.Equiv.of_toList_perm ?_)
  refine (List.perm_ext_iff_of_nodup ?_ ?_).mpr fun entry => ?_
  · exact Std.TreeMap.distinct_keys_toList.imp fun distinct same =>
      distinct (by rw [same]; exact Std.ReflCmp.compare_self)
  · exact Std.TreeMap.distinct_keys_toList.imp fun distinct same =>
      distinct (by rw [same]; exact Std.ReflCmp.compare_self)
  · obtain ⟨key, value⟩ := entry
    rw [Std.TreeMap.mem_toList_iff_getElem?_eq_some, Std.TreeMap.mem_toList_iff_getElem?_eq_some,
      same]

/-- A loop over the map meets a key exactly once, when it is there. -/
theorem filter_key_toList [DecidableEq Key] (map : Std.TreeMap Key Value cmp) (key : Key) :
    (map.toList.filter fun entry => entry.1 = key) = (map[key]?.map fun v => (key, v)).toList := by
  cases held : map[key]? with
  | none =>
    refine List.filter_eq_nil_iff.mpr fun entry member same => ?_
    rw [decide_eq_true_eq] at same
    subst same
    rw [Std.TreeMap.mem_toList_iff_getElem?_eq_some.mp member] at held
    cases held
  | some value =>
    obtain ⟨before, after, split⟩ :=
      List.append_of_mem (Std.TreeMap.mem_toList_iff_getElem?_eq_some.mpr held)
    have distinct := Std.TreeMap.distinct_keys_toList (t := map)
    rw [split, List.pairwise_append, List.pairwise_cons] at distinct
    obtain ⟨-, ⟨afterDistinct, -⟩, beforeDistinct⟩ := distinct
    have noneBefore : before.filter (fun entry => decide (entry.1 = key)) = [] :=
      List.filter_eq_nil_iff.mpr fun entry member same =>
        beforeDistinct entry member (key, value) List.mem_cons_self
          (Std.LawfulEqCmp.compare_eq_iff_eq.mpr (of_decide_eq_true same))
    have noneAfter : after.filter (fun entry => decide (entry.1 = key)) = [] :=
      List.filter_eq_nil_iff.mpr fun entry member same =>
        afterDistinct entry member
          (Std.LawfulEqCmp.compare_eq_iff_eq.mpr (of_decide_eq_true same).symm)
    rw [split, List.filter_append, noneBefore, List.filter_cons_of_pos (by simp), noneAfter]
    rfl

end OrderedMap
