/-
This file is about words as vectors over the two-element field. A parity check is the
exclusive or of the bits a mask selects; it is linear in the word and in the mask, which
is what error-detecting codes live on. Population counts reduce to it modulo two. The
file also relates a word to the list of its bits, most significant first, as a serial
line sends them, and a differentially coded line to the bits it carries.
-/

import Mathlib.Data.List.GetD
import Mathlib.Data.List.Induction
import Mathlib.Tactic.Ring

namespace Gf2

/-! ### Parity and population count -/

/-- The exclusive or of `bits 0`, ..., `bits (count - 1)`. -/
def parityOf (bits : Nat → Bool) : Nat → Bool
  | 0 => false
  | count + 1 => bits count ^^ parityOf bits count

theorem parityOf_congr {first second : Nat → Bool} {count : Nat}
    (same : ∀ index < count, first index = second index) :
    parityOf first count = parityOf second count := by
  induction count with
  | zero => rfl
  | succ count inductionHypothesis =>
    rw [parityOf, parityOf, same count (Nat.lt_succ_self count),
      inductionHypothesis fun index below => same index (Nat.lt_succ_of_lt below)]

/-- Bits that are all zero do not count. -/
theorem parityOf_tail {bits : Nat → Bool} {small large : Nat} (order : small ≤ large)
    (clear : ∀ index, small ≤ index → bits index = false) :
    parityOf bits large = parityOf bits small := by
  induction large, order using Nat.le_induction with
  | base => rfl
  | succ large order inductionHypothesis =>
    rw [parityOf, clear large order, inductionHypothesis, Bool.false_xor]

theorem parityOf_xor (first second : Nat → Bool) (count : Nat) :
    parityOf (fun index => first index ^^ second index) count =
      (parityOf first count ^^ parityOf second count) := by
  induction count with
  | zero => rfl
  | succ count inductionHypothesis =>
    simp only [parityOf, inductionHypothesis]
    cases first count <;> cases second count <;> simp

theorem parityOf_single (value : Bool) {position count : Nat} (inside : position < count) :
    parityOf (fun index => decide (index = position) && value) count = value := by
  induction count with
  | zero => omega
  | succ count inductionHypothesis =>
    rw [parityOf]
    by_cases here : count = position
    · have below : parityOf (fun index => decide (index = position) && value) count =
          parityOf (fun _ => false) count :=
        parityOf_congr fun index less => by simp [show index ≠ position by omega]
      rw [below, parityOf_tail (Nat.zero_le count) fun _ _ => rfl]
      simp [here, parityOf]
    · rw [inductionHypothesis (by omega)]
      simp [here]

/-- The parity of a word. -/
def parity {width : Nat} (word : BitVec width) : Bool := parityOf word.getLsbD width

theorem parity_xor {width : Nat} (first second : BitVec width) :
    parity (first ^^^ second) = (parity first ^^ parity second) := by
  rw [parity, parity, parity, ← parityOf_xor]
  exact parityOf_congr fun index _ => BitVec.getLsbD_xor

theorem xor_and {width : Nat} (first second mask : BitVec width) :
    (first ^^^ second) &&& mask = (first &&& mask) ^^^ (second &&& mask) := by
  refine BitVec.eq_of_getLsbD_eq fun index _ => ?_
  simp only [BitVec.getLsbD_and, BitVec.getLsbD_xor]
  exact Bool.and_xor_distrib_right _ _ _

/-- A parity check is linear in the word it reads. -/
theorem parity_xor_and {width : Nat} (first second mask : BitVec width) :
    parity ((first ^^^ second) &&& mask) =
      (parity (first &&& mask) ^^ parity (second &&& mask)) := by
  rw [xor_and, parity_xor]

/-- A parity check is linear in its mask. -/
theorem parity_and_xor {width : Nat} (word first second : BitVec width) :
    parity (word &&& (first ^^^ second)) =
      (parity (word &&& first) ^^ parity (word &&& second)) := by
  rw [BitVec.and_comm, parity_xor_and, BitVec.and_comm first, BitVec.and_comm second]

/-- A check whose mask is short reads only the low bits of a wide word. -/
theorem parity_and_setWidth {width wide : Nat} (order : width ≤ wide) (word : BitVec wide)
    (mask : BitVec width) :
    parity (word &&& mask.setWidth wide) = parity (word.setWidth width &&& mask) := by
  have high : ∀ index, width ≤ index → (word &&& mask.setWidth wide).getLsbD index = false := by
    intro index above
    rw [BitVec.getLsbD_and, BitVec.getLsbD_setWidth, mask.getLsbD_of_ge index above]
    simp
  rw [parity, parity, parityOf_tail order high]
  refine parityOf_congr fun index below => ?_
  simp only [BitVec.getLsbD_and, BitVec.getLsbD_setWidth, below, decide_true, Bool.true_and]
  simp [show index < wide by omega]

/-- The check whose mask is a single bit reads that bit. -/
theorem parity_and_twoPow {width : Nat} (word : BitVec width) {position : Nat}
    (inside : position < width) :
    parity (word &&& BitVec.twoPow width position) = word.getLsbD position := by
  rw [parity, ← parityOf_single (word.getLsbD position) inside]
  refine parityOf_congr fun index below => ?_
  rw [BitVec.getLsbD_and, BitVec.getLsbD_twoPow]
  by_cases here : index = position
  · simp [here, inside]
  · simp [here, Ne.symm here]

/-- The number of ones of a word. -/
def popcount {width : Nat} (word : BitVec width) : Nat :=
  (List.range width).countP word.getLsbD

theorem popcount_eq_zero_iff {width : Nat} (word : BitVec width) :
    popcount word = 0 ↔ word = BitVec.ofNat width 0 := by
  rw [popcount, List.countP_eq_zero]
  constructor
  · intro clear
    refine BitVec.eq_of_getLsbD_eq fun index below => ?_
    rw [BitVec.getLsbD_zero]
    simpa using clear index (List.mem_range.mpr below)
  · rintro rfl index _
    simp

/-- The ones of a word are those a mask selects and those it does not. -/
theorem popcount_split {width : Nat} (word mask : BitVec width) :
    popcount word = popcount (word &&& mask) + popcount (word &&& ~~~mask) := by
  have each : ∀ indices : List Nat, (∀ index ∈ indices, index < width) →
      indices.countP word.getLsbD = indices.countP (word &&& mask).getLsbD +
        indices.countP (word &&& ~~~mask).getLsbD := by
    intro indices inside
    induction indices with
    | nil => rfl
    | cons index rest inductionHypothesis =>
      have below : index < width := inside index List.mem_cons_self
      rw [List.countP_cons, List.countP_cons, List.countP_cons,
        inductionHypothesis fun other member => inside other (List.mem_cons_of_mem _ member),
        BitVec.getLsbD_and, BitVec.getLsbD_and, BitVec.getLsbD_not]
      cases word.getLsbD index <;> cases mask.getLsbD index <;> simp [below] <;> omega
  exact each _ fun index member => List.mem_range.mp member

/-- The word without its lowest one. -/
def dropLowest {width : Nat} (word : BitVec width) : BitVec width :=
  word &&& (word - BitVec.ofNat width 1)

theorem popcount_dropLowest_lt {width : Nat} (word : BitVec width)
    (nonzero : word ≠ BitVec.ofNat width 0) : popcount (dropLowest word) < popcount word := by
  have removed : word &&& ~~~(word - BitVec.ofNat width 1) ≠ BitVec.ofNat width 0 := by
    intro kept
    have same : word &&& (word - BitVec.ofNat width 1) = word := by
      refine BitVec.eq_of_getLsbD_eq fun index below => ?_
      have bit := congrArg (fun other => BitVec.getLsbD other index) kept
      simp only [BitVec.getLsbD_and, BitVec.getLsbD_not, BitVec.getLsbD_zero, below,
        decide_true, Bool.true_and] at bit ⊢
      revert bit
      cases word.getLsbD index <;> cases (word - BitVec.ofNat width 1).getLsbD index <;> simp
    have smaller : (word &&& (word - BitVec.ofNat width 1)).toNat ≤
        (word - BitVec.ofNat width 1).toNat := by
      rw [BitVec.toNat_and]
      exact Nat.and_le_right
    have positive : 0 < word.toNat :=
      Nat.pos_of_ne_zero fun zero => nonzero (BitVec.eq_of_toNat_eq (by simpa using zero))
    have size := word.isLt
    have one : (BitVec.ofNat width 1).toNat = 1 := by
      rw [BitVec.toNat_ofNat]
      exact Nat.mod_eq_of_lt (by omega)
    rw [same, BitVec.toNat_sub, one,
      show 2 ^ width - 1 + word.toNat = 2 ^ width + (word.toNat - 1) by omega,
      Nat.add_mod_left, Nat.mod_eq_of_lt (by omega)] at smaller
    omega
  have rest : popcount (word &&& ~~~(word - BitVec.ofNat width 1)) ≠ 0 :=
    mt (popcount_eq_zero_iff _).mp removed
  rw [popcount_split word (word - BitVec.ofNat width 1), dropLowest]
  omega

theorem countP_mod_two (bits : Nat → Bool) (count : Nat) :
    ((List.range count).countP bits) % 2 = (parityOf bits count).toNat := by
  induction count with
  | zero => rfl
  | succ count inductionHypothesis =>
    rw [List.range_succ, List.countP_append, Nat.add_mod, inductionHypothesis, parityOf,
      List.countP_singleton]
    cases bits count <;> cases parityOf bits count <;> rfl

/-- The population count modulo two is the parity. -/
theorem popcount_mod_two {width : Nat} (word : BitVec width) :
    popcount word % 2 = (parity word).toNat := by
  rw [popcount, countP_mod_two, parity]

/-! ### Words and the bits they are sent as -/

/-- The word a list of bits spells, most significant bit first. -/
def wordOfBits (bits : List Bool) : Nat :=
  bits.foldl (fun word bit => 2 * word + bit.toNat) 0

@[simp] theorem wordOfBits_nil : wordOfBits [] = 0 := rfl

theorem wordOfBits_concat (bits : List Bool) (last : Bool) :
    wordOfBits (bits ++ [last]) = 2 * wordOfBits bits + last.toNat := by
  rw [wordOfBits, List.foldl_append]
  rfl

theorem wordOfBits_lt (bits : List Bool) : wordOfBits bits < 2 ^ bits.length := by
  induction bits using List.reverseRecOn with
  | nil => decide
  | append_singleton front last inductionHypothesis =>
    rw [wordOfBits_concat, List.length_append, List.length_singleton, pow_succ]
    have bit : last.toNat ≤ 1 := Bool.toNat_le last
    omega

/-- Bit `index` of the word is the bit sent `index` places before the last one. -/
theorem testBit_wordOfBits (bits : List Bool) (index : Nat) :
    (wordOfBits bits).testBit index = bits.reverse.getD index false := by
  induction bits using List.reverseRecOn generalizing index with
  | nil => simp
  | append_singleton front last inductionHypothesis =>
    rw [wordOfBits_concat, List.reverse_concat]
    cases index with
    | zero => cases last <;> simp
    | succ index =>
      rw [List.getD_cons_succ, ← inductionHypothesis, Nat.testBit_succ]
      congr 1
      have bit : last.toNat ≤ 1 := Bool.toNat_le last
      omega

theorem testBit_wordOfBits_of_lt (bits : List Bool) {index : Nat} (below : index < bits.length) :
    (wordOfBits bits).testBit index = bits.getD (bits.length - 1 - index) false := by
  rw [testBit_wordOfBits, List.getD_eq_getElem _ _ (by simpa using below),
    List.getD_eq_getElem _ _ (by omega), List.getElem_reverse]

/-! ### Differential coding -/

/-- The symbols of a differentially coded line: a one flips the line, a zero keeps it. -/
def differentialEncode (previous : Bool) : List Bool → List Bool
  | [] => []
  | bit :: rest => (bit ^^ previous) :: differentialEncode (bit ^^ previous) rest

/-- The bits a differentially coded line carries. -/
def differentialDecode (previous : Bool) : List Bool → List Bool
  | [] => []
  | symbol :: rest => (symbol ^^ previous) :: differentialDecode symbol rest

@[simp] theorem length_differentialEncode (previous : Bool) (bits : List Bool) :
    (differentialEncode previous bits).length = bits.length := by
  induction bits generalizing previous with
  | nil => rfl
  | cons bit rest inductionHypothesis => simp [differentialEncode, inductionHypothesis]

@[simp] theorem length_differentialDecode (previous : Bool) (symbols : List Bool) :
    (differentialDecode previous symbols).length = symbols.length := by
  induction symbols generalizing previous with
  | nil => rfl
  | cons symbol rest inductionHypothesis => simp [differentialDecode, inductionHypothesis]

theorem differentialDecode_encode (previous : Bool) (bits : List Bool) :
    differentialDecode previous (differentialEncode previous bits) = bits := by
  induction bits generalizing previous with
  | nil => rfl
  | cons bit rest inductionHypothesis =>
    rw [differentialEncode, differentialDecode, inductionHypothesis]
    simp

theorem differentialEncode_decode (previous : Bool) (symbols : List Bool) :
    differentialEncode previous (differentialDecode previous symbols) = symbols := by
  induction symbols generalizing previous with
  | nil => rfl
  | cons symbol rest inductionHypothesis =>
    have kept : ((symbol ^^ previous) ^^ previous) = symbol := by simp
    rw [differentialDecode, differentialEncode, kept, inductionHypothesis]

/-- Decoding a line gives a message exactly when the line is that message's encoding. -/
theorem differentialDecode_eq_iff (previous : Bool) (symbols bits : List Bool) :
    differentialDecode previous symbols = bits ↔ symbols = differentialEncode previous bits := by
  constructor
  · rintro rfl
    exact (differentialEncode_decode previous symbols).symm
  · rintro rfl
    exact differentialDecode_encode previous bits

theorem getD_differentialEncode (previous : Bool) (bits : List Bool) (t : Nat)
    (below : t < bits.length) :
    (differentialEncode previous bits).getD t false =
      (bits.getD t false ^^
        match t with
        | 0 => previous
        | t + 1 => (differentialEncode previous bits).getD t false) := by
  induction bits generalizing previous t with
  | nil => simp at below
  | cons bit rest inductionHypothesis =>
    cases t with
    | zero => rfl
    | succ t =>
      rw [differentialEncode, List.getD_cons_succ, List.getD_cons_succ,
        inductionHypothesis _ t (Nat.lt_of_succ_lt_succ below)]
      cases t <;> rfl

/-- The symbols of a message's beginning do not depend on what follows. -/
theorem getD_differentialEncode_append (previous : Bool) (first second : List Bool) {t : Nat}
    (below : t < first.length) :
    (differentialEncode previous (first ++ second)).getD t false =
      (differentialEncode previous first).getD t false := by
  induction first generalizing previous t with
  | nil => simp at below
  | cons bit rest inductionHypothesis =>
    cases t with
    | zero => rfl
    | succ t =>
      rw [List.cons_append, differentialEncode, differentialEncode, List.getD_cons_succ,
        List.getD_cons_succ, inductionHypothesis _ (Nat.lt_of_succ_lt_succ below)]

end Gf2
