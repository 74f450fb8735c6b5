/-
This file is about finite impulse response filters in exact arithmetic. A signal is a
function of the time; a pass of a filter runs over a block of samples, after a past that it
may or may not remember.

A pass forward and a pass backward over the outputs of the first make a filter without delay.
Away from the ends of the block nothing of either past is left. The filter commutes with
turning the time around, and it keeps straight lines when its taps sum to one.
-/

import Mathlib.Algebra.BigOperators.Fin
import Mathlib.Algebra.BigOperators.Ring.Finset
import Mathlib.Tactic.LinearCombination
import Mathlib.Tactic.Ring

namespace FirFilter

variable {R : Type*} [CommRing R]

/-! ### Passes -/

/-- The output of a filter: the taps against the present sample and the ones before it. -/
def output (taps : List R) (signal : Int → R) (n : Int) : R :=
  ∑ k : Fin taps.length, taps[k] * signal (n - (k : Nat))

/-- The signal that a block of samples is, behind a past. -/
def continued (past : Int → R) (samples : List R) (n : Int) : R :=
  if n < 0 then past n else samples.getD n.toNat 0

/-- A pass over a block of samples. -/
def pass (taps : List R) (past : Int → R) (samples : List R) : List R :=
  (List.range samples.length).map fun n : Nat => output taps (continued past samples) n

/-- The first samples of a signal. -/
def block (signal : Int → R) (length : Nat) : List R :=
  (List.range length).map fun n : Nat => signal n

/-- The filter that has no delay. -/
def zeroPhase (taps : List R) (signal : Int → R) (n : Int) : R :=
  ∑ k : Fin taps.length, ∑ l : Fin taps.length,
    taps[k] * taps[l] * signal (n - (k : Nat) + (l : Nat))

/-- A pass forward, and one backward over its outputs. -/
def forwardBackward (taps : List R) (past behind : Int → R) (samples : List R) : List R :=
  (pass taps behind (pass taps past samples).reverse).reverse

/-! ### Blocks -/

omit [CommRing R] in
@[simp] theorem length_block (signal : Int → R) (length : Nat) :
    (block signal length).length = length := by
  rw [block, List.length_map, List.length_range]

omit [CommRing R] in
theorem getElem?_block (signal : Int → R) {length n : Nat} (inside : n < length) :
    (block signal length)[n]? = some (signal n) := by
  rw [block, List.getElem?_map, List.getElem?_range inside, Option.map_some]

omit [CommRing R] in
theorem block_append (signal : Int → R) (first second : Nat) :
    block signal first ++ block (fun n => signal (first + n)) second =
      block signal (first + second) := by
  rw [block, block, block, List.range_add, List.map_append, List.map_map]
  have moved : (fun n : Nat => signal (first + n)) =
      (fun n : Nat => signal n) ∘ fun n : Nat => first + n := by
    funext n
    rw [Function.comp, Nat.cast_add]
  rw [moved]

omit [CommRing R] in
theorem block_congr {first second : Int → R} {length : Nat}
    (same : ∀ n : Nat, n < length → first n = second n) :
    block first length = block second length :=
  List.map_congr_left fun n member => same n (List.mem_range.mp member)

omit [CommRing R] in
theorem reverse_block (signal : Int → R) (length : Nat) :
    (block signal length).reverse = block (fun n => signal (length - 1 - n)) length := by
  refine List.ext_getElem? fun n => ?_
  by_cases inside : n < length
  · have turned : (length : Int) - 1 - n = ((length - 1 - n : Nat) : Int) := by omega
    rw [List.getElem?_reverse (by rwa [length_block]), length_block,
      getElem?_block signal (by omega), getElem?_block _ inside, turned]
  · rw [List.getElem?_eq_none, List.getElem?_eq_none] <;> simpa using inside

theorem pass_block (taps : List R) (past signal : Int → R) (length : Nat) :
    pass taps past (block signal length) =
      block (output taps (continued past (block signal length))) length := by
  rw [pass, length_block]
  rfl

theorem continued_block (past signal : Int → R) {length : Nat} {n : Int} (after : 0 ≤ n)
    (inside : n < length) : continued past (block signal length) n = signal n := by
  obtain ⟨m, rfl⟩ := Int.eq_ofNat_of_zero_le after
  rw [continued, if_neg (not_lt.mpr after), Int.toNat_natCast,
    List.getD_eq_getElem?_getD, getElem?_block signal (by omega), Option.getD_some]

/-! ### Sample by sample -/

/-- The past after one more sample. -/
def recalled (past : Int → R) (sample : R) (n : Int) : R := continued past [sample] (n + 1)

/-- The past that the last samples are, the newest first, from zero state. -/
def remembered (window : List R) (n : Int) : R :=
  if n < 0 then window.getD (-1 - n).toNat 0 else 0

theorem remembered_nil : remembered ([] : List R) = 0 := by
  funext n
  rw [remembered, List.getD_nil, ite_self, Pi.zero_apply]

theorem remembered_apply (window : List R) (k : Nat) :
    remembered window (-1 - k) = window.getD k 0 := by
  have place : (-1 - (-1 - (k : Int))).toNat = k := by omega
  rw [remembered, if_pos (by omega), place]

theorem recalled_remembered (window : List R) (sample : R) :
    recalled (remembered window) sample = remembered (sample :: window) := by
  funext n
  rw [recalled, continued, remembered, remembered]
  by_cases before : n + 1 < 0
  · have older : (-1 - n).toNat = (-1 - (n + 1)).toNat + 1 := by omega
    rw [if_pos before, if_pos before, if_pos (by omega), older, List.getD_cons_succ]
  · by_cases newest : n < 0
    · have zero : (n + 1).toNat = 0 ∧ (-1 - n).toNat = 0 := by omega
      rw [if_neg before, if_pos newest, zero.1, zero.2, List.getD_cons_zero, List.getD_cons_zero]
    · have later : (n + 1).toNat = n.toNat + 1 := by omega
      rw [if_neg before, if_neg newest, later, List.getD_cons_succ, List.getD_nil]

theorem continued_recalled (past : Int → R) (sample : R) (rest : List R) (n : Int) :
    continued (recalled past sample) rest n = continued past (sample :: rest) (n + 1) := by
  rw [continued, continued]
  by_cases before : n < 0
  · rw [if_pos before, recalled, continued]
    by_cases older : n + 1 < 0
    · rw [if_pos older, if_pos older]
    · have zero : (n + 1).toNat = 0 := by omega
      rw [if_neg older, if_neg older, zero, List.getD_cons_zero, List.getD_cons_zero]
  · have later : (n + 1).toNat = n.toNat + 1 := by omega
    rw [if_neg before, if_neg (by omega), later, List.getD_cons_succ]

/-- A pass goes on after its first sample with that sample in its past. -/
theorem pass_cons (taps : List R) (past : Int → R) (sample : R) (rest : List R) :
    pass taps past (sample :: rest) =
      output taps (recalled past sample) (-1) :: pass taps (recalled past sample) rest := by
  have moved (n : Int) : output taps (continued (recalled past sample) rest) n =
      output taps (continued past (sample :: rest)) (n + 1) := by
    refine Finset.sum_congr rfl fun k _ => ?_
    have time : n + 1 - (k : Nat) = n - (k : Nat) + 1 := by omega
    rw [continued_recalled, time]
  have first : output taps (recalled past sample) (-1) =
      output taps (continued (recalled past sample) rest) (-1) := by
    refine Finset.sum_congr rfl fun k _ => ?_
    rw [continued, if_pos (by omega)]
  have later : (fun n : Nat => output taps (continued (recalled past sample) rest) n) =
      (fun n : Nat => output taps (continued past (sample :: rest)) n) ∘ Nat.succ := by
    funext n
    rw [moved, Function.comp, Nat.succ_eq_add_one, Nat.cast_add, Nat.cast_one]
  rw [first, moved, pass, pass, later, List.length_cons, List.range_succ_eq_map, List.map_cons,
    List.map_map]
  rfl

/-! ### The filter without delay -/

/-- Away from the ends of the block both pasts are out of reach. -/
theorem getElem?_forwardBackward (taps : List R) (past behind signal : Int → R) {length n : Nat}
    (after : taps.length ≤ n + 1) (before : n + taps.length ≤ length) (inside : n < length) :
    (forwardBackward taps past behind (block signal length))[n]? =
      some (zeroPhase taps signal n) := by
  rw [forwardBackward, pass_block, reverse_block, pass_block, reverse_block,
    getElem?_block _ inside, Option.some_inj, output, zeroPhase, Finset.sum_comm]
  refine Finset.sum_congr rfl fun l _ => ?_
  have lBelow := l.isLt
  rw [continued_block _ _ (by omega) (by omega), output, Finset.mul_sum]
  refine Finset.sum_congr rfl fun k _ => ?_
  have kBelow := k.isLt
  have time : (length : Int) - 1 - (length - 1 - n - (l : Nat)) - (k : Nat) =
      n - (k : Nat) + (l : Nat) := by ring
  rw [time, continued_block _ _ (by omega) (by omega)]
  ring

/-- Only the samples in reach of the taps matter. -/
theorem zeroPhase_congr {taps : List R} {first second : Int → R} {n : Int}
    (same : ∀ m : Int, n - taps.length < m → m < n + taps.length → first m = second m) :
    zeroPhase taps first n = zeroPhase taps second n := by
  refine Finset.sum_congr rfl fun k _ => Finset.sum_congr rfl fun l _ => ?_
  have kBelow := k.isLt
  have lBelow := l.isLt
  rw [same _ (by omega) (by omega)]

/-- The filter commutes with turning the time around. -/
theorem zeroPhase_reverse (taps : List R) (signal : Int → R) (center n : Int) :
    zeroPhase taps (fun m => signal (center - m)) n = zeroPhase taps signal (center - n) := by
  rw [zeroPhase, zeroPhase, Finset.sum_comm]
  refine Finset.sum_congr rfl fun k _ => Finset.sum_congr rfl fun l _ => ?_
  have time : center - (n - (l : Nat) + (k : Nat)) = center - n - (k : Nat) + (l : Nat) := by ring
  rw [time, mul_comm taps[l]]

/-- Straight lines are kept when the taps sum to one: the delays of the two passes cancel. -/
theorem zeroPhase_affine {taps : List R} (unit : taps.sum = 1) (start slope : R) (n : Int) :
    zeroPhase taps (fun m => start + slope * m) n = start + slope * n := by
  have whole : ∑ k : Fin taps.length, taps[k] = 1 := (Fin.sum_univ_getElem taps).trans unit
  let delay : R := ∑ k : Fin taps.length, taps[k] * ((k : Nat) : R)
  have inner : ∀ k : Fin taps.length, ∑ l : Fin taps.length, taps[k] * taps[l] *
      (start + slope * ((n - (k : Nat) + (l : Nat) : Int) : R)) =
        taps[k] * (start + slope * n + slope * delay) - slope * (taps[k] * ((k : Nat) : R)) := by
    intro k
    have terms : ∀ l : Fin taps.length, taps[k] * taps[l] *
        (start + slope * ((n - (k : Nat) + (l : Nat) : Int) : R)) =
          taps[l] * (taps[k] * (start + slope * n) - slope * (taps[k] * ((k : Nat) : R))) +
            taps[l] * ((l : Nat) : R) * (taps[k] * slope) := by
      intro l
      push_cast
      ring
    rw [Finset.sum_congr rfl fun l _ => terms l, Finset.sum_add_distrib, ← Finset.sum_mul,
      ← Finset.sum_mul, whole]
    ring
  rw [zeroPhase, Finset.sum_congr rfl fun k _ => inner k, Finset.sum_sub_distrib, ← Finset.sum_mul,
    ← Finset.mul_sum, whole]
  ring

end FirFilter
