/-
This file proves that the circular matched filter of `preamble.hpp` is a plain sliding
correlation. Any sequence of calls of `push` and `clear_next` leaves the last symbols and
their energies in the buffer, read from the phase on; the running energy is their sum and
the dot product their correlation with the word. A cleared slot counts until the next push
overwrites it and leaves no trace.

Where the energies are the squares of the symbols, the metric of a match is above the
threshold and at most one, and the more symbols of the window are zero the less.
-/

import Mathlib.Algebra.Order.Field.Rat
import OpenStint.Preamble

namespace OpenStint

open BoundedQueue CyclicWindow

variable {R : Type} {bitCount : Nat}

/-! ### Calls on a buffer -/

inductive BufferInput
  | push (symbol : Int16) (symbolEnergy : UInt32)
  | clearNext
  deriving DecidableEq, Repr

section Runs

variable [NeZero bitCount]

def CircBuff.handle (buffer : CircBuff bitCount) : BufferInput → CircBuff bitCount
  | .push symbol symbolEnergy => buffer.push symbol symbolEnergy
  | .clearNext => buffer.clearNext

/-- The buffer after some calls on a new one. -/
def CircBuff.after (inputs : List BufferInput) : CircBuff bitCount :=
  inputs.foldl CircBuff.handle .initial

end Runs

/-! ### The sliding correlation -/

/-- The symbols that were pushed, each with its energy. -/
def pushes (inputs : List BufferInput) : List (Int16 × UInt32) :=
  inputs.filterMap fun
    | .push symbol symbolEnergy => some (symbol, symbolEnergy)
    | .clearNext => none

/-- `clear_next` was called since the last push. -/
def cleared (inputs : List BufferInput) : Bool := inputs.getLast? = some .clearNext

/-- The last symbols, oldest first, with zeros before the start. A cleared oldest one is zero. -/
def slidingWindow (bitCount : Nat) (inputs : List BufferInput) : List (Int16 × UInt32) :=
  let latest := (List.replicate bitCount (0, 0) ++ pushes inputs).rtake bitCount
  if cleared inputs then (0, 0) :: latest.tail else latest

/-- The correlation of a window with a word, whose most significant bit goes with the oldest
symbol. -/
def slidingCorrelation (word : BitVec bitCount) (window : List (Int16 × UInt32)) : Int :=
  ∑ k : Fin bitCount, (if word.getMsbD k then 1 else -1) * (window.getD k (0, 0)).1.toInt

/-- The calls without every `clear_next` that a push follows. -/
def withoutTraces : List BufferInput → List BufferInput
  | [] => []
  | .push symbol symbolEnergy :: rest => .push symbol symbolEnergy :: withoutTraces rest
  | .clearNext :: rest =>
    if pushes rest = [] then .clearNext :: withoutTraces rest else withoutTraces rest

/-- The buffer after some calls, in terms of the calls. -/
structure MatchedFilterLaw (R : Type) (bitCount : Nat) [NeZero bitCount]
    (inputs : List BufferInput) : Prop where
  phase : (CircBuff.after inputs : CircBuff bitCount).phase.val =
    (pushes inputs).length % bitCount
  buff : inOrder (CircBuff.after inputs).buff (CircBuff.after inputs : CircBuff bitCount).phase =
    (slidingWindow bitCount inputs).map Prod.fst
  buffE : inOrder (CircBuff.after inputs).buffE (CircBuff.after inputs : CircBuff bitCount).phase =
    (slidingWindow bitCount inputs).map fun slot => slot.2.toUInt64
  windowEnergy : (CircBuff.after inputs : CircBuff bitCount).windowEnergy.toNat =
    ((slidingWindow bitCount inputs).map fun slot => slot.2.toNat).sum
  dot : ∀ syncWord : Preamble R bitCount,
    syncWord.dot (CircBuff.after inputs).buff (CircBuff.after inputs : CircBuff bitCount).phase =
      slidingCorrelation syncWord.preamble (slidingWindow bitCount inputs)
  traceless : (CircBuff.after (withoutTraces inputs) : CircBuff bitCount) = CircBuff.after inputs

/-! ### The slots -/

/-- The symbols of the slots, each with its energy. -/
def CircBuff.slots (buffer : CircBuff bitCount) (i : Fin bitCount) : Int16 × UInt64 :=
  (buffer.buff i, buffer.buffE i)

theorem CircBuff.slots_update (buffer : CircBuff bitCount) (symbol : Int16)
    (symbolEnergy : UInt64) (i : Fin bitCount) :
    (Function.update buffer.buff buffer.phase symbol i,
        Function.update buffer.buffE buffer.phase symbolEnergy i) =
      Function.update buffer.slots buffer.phase (symbol, symbolEnergy) i := by
  by_cases here : i = buffer.phase
  · rw [here, Function.update_self, Function.update_self, Function.update_self]
  · rw [Function.update_of_ne here, Function.update_of_ne here, Function.update_of_ne here]
    rfl

@[simp] theorem pushes_concat_push (inputs : List BufferInput) (symbol : Int16)
    (symbolEnergy : UInt32) :
    pushes (inputs ++ [.push symbol symbolEnergy]) = pushes inputs ++ [(symbol, symbolEnergy)] :=
  List.filterMap_append

@[simp] theorem pushes_concat_clearNext (inputs : List BufferInput) :
    pushes (inputs ++ [.clearNext]) = pushes inputs :=
  List.filterMap_append.trans (List.append_nil _)

@[simp] theorem cleared_concat_push (inputs : List BufferInput) (symbol : Int16)
    (symbolEnergy : UInt32) : cleared (inputs ++ [.push symbol symbolEnergy]) = false := by
  simp [cleared]

@[simp] theorem cleared_concat_clearNext (inputs : List BufferInput) :
    cleared (inputs ++ [.clearNext]) = true := by
  simp [cleared]

variable (bitCount) in
/-- The window is always full. -/
theorem length_slidingWindow [NeZero bitCount] (inputs : List BufferInput) :
    (slidingWindow bitCount inputs).length = bitCount := by
  have full : ((List.replicate bitCount ((0, 0) : Int16 × UInt32) ++ pushes inputs).rtake
      bitCount).length = bitCount := by
    rw [length_rtake, List.length_append, List.length_replicate]
    omega
  have positive := Nat.pos_of_neZero bitCount
  rw [slidingWindow]
  split
  · rw [List.length_cons, List.length_tail, full]
    omega
  · exact full

/-- A push drops the oldest symbol, whether it was cleared or not. -/
theorem slidingWindow_push [NeZero bitCount] (inputs : List BufferInput) (symbol : Int16)
    (symbolEnergy : UInt32) :
    slidingWindow bitCount (inputs ++ [.push symbol symbolEnergy]) =
      (slidingWindow bitCount inputs).tail ++ [(symbol, symbolEnergy)] := by
  have full := length_slidingWindow bitCount inputs
  have positive := Nat.pos_of_neZero bitCount
  let history := List.replicate bitCount ((0, 0) : Int16 × UInt32) ++ pushes inputs
  have dropped : (slidingWindow bitCount inputs).tail = (history.rtake bitCount).tail := by
    rw [slidingWindow]
    split <;> rfl
  have length : (history.rtake bitCount).length = bitCount := by
    rw [length_rtake, List.length_append, List.length_replicate]
    omega
  have nonempty : history.rtake bitCount ≠ [] := List.ne_nil_of_length_pos (by omega)
  rw [slidingWindow, pushes_concat_push, cleared_concat_push, if_neg Bool.false_ne_true,
    ← List.append_assoc, ← push_rtake, dropped, push, if_pos (by
      rw [List.length_append, length, List.length_singleton]
      exact Nat.lt_succ_self _),
    List.tail_append_of_ne_nil nonempty]

theorem slidingWindow_clearNext (inputs : List BufferInput) :
    slidingWindow bitCount (inputs ++ [.clearNext]) =
      (0, 0) :: (slidingWindow bitCount inputs).tail := by
  rw [slidingWindow, pushes_concat_clearNext, cleared_concat_clearNext, if_pos rfl, slidingWindow]
  split <;> rfl

/-! ### Runs -/

section Runs

variable [NeZero bitCount]

theorem after_concat (inputs : List BufferInput) (input : BufferInput) :
    (CircBuff.after (inputs ++ [input]) : CircBuff bitCount) =
      (CircBuff.after inputs).handle input := by
  rw [CircBuff.after, List.foldl_append]
  rfl

theorem sums_after (short : bitCount ≤ 64) (inputs : List BufferInput) :
    (CircBuff.after inputs : CircBuff bitCount).Sums := by
  induction inputs using List.reverseRecOn with
  | nil => exact .initial
  | append_singleton inputs input inductionHypothesis =>
    rw [after_concat]
    cases input with
    | push symbol symbolEnergy => exact inductionHypothesis.push short symbol symbolEnergy
    | clearNext => exact inductionHypothesis.clearNext short

theorem phase_after (inputs : List BufferInput) :
    (CircBuff.after inputs : CircBuff bitCount).phase.val = (pushes inputs).length % bitCount := by
  induction inputs using List.reverseRecOn with
  | nil => rfl
  | append_singleton inputs input inductionHypothesis =>
    rw [after_concat]
    cases input with
    | push symbol symbolEnergy =>
      rw [pushes_concat_push, List.length_append, List.length_singleton]
      show ((CircBuff.after inputs : CircBuff bitCount).phase.val + 1 % bitCount) % bitCount = _
      rw [inductionHypothesis, Nat.add_mod_mod, Nat.mod_add_mod]
    | clearNext =>
      rw [pushes_concat_clearNext]
      exact inductionHypothesis

variable (bitCount) in
/-- Read from the phase on, the slots are the sliding window. -/
theorem slots_after (inputs : List BufferInput) :
    inOrder (CircBuff.after inputs).slots (CircBuff.after inputs : CircBuff bitCount).phase =
      (slidingWindow bitCount inputs).map fun slot => (slot.1, slot.2.toUInt64) := by
  induction inputs using List.reverseRecOn with
  | nil =>
    have empty : slidingWindow bitCount [] = List.replicate bitCount (0, 0) := by
      rw [slidingWindow, if_neg (by decide), pushes, List.filterMap_nil, List.append_nil,
        rtake_of_length_le (by rw [List.length_replicate])]
    rw [empty, List.map_replicate, inOrder]
    exact List.ofFn_const bitCount (0, 0)
  | append_singleton inputs input inductionHypothesis =>
    let buffer : CircBuff bitCount := .after inputs
    have full : (inOrder buffer.slots buffer.phase).length = bitCount := List.length_ofFn
    have positive := Nat.pos_of_neZero bitCount
    rw [after_concat]
    cases input with
    | push symbol symbolEnergy =>
      have slots : (buffer.push symbol symbolEnergy).slots =
          Function.update buffer.slots buffer.phase (symbol, symbolEnergy.toUInt64) :=
        funext fun i => buffer.slots_update symbol symbolEnergy.toUInt64 i
      show inOrder (buffer.push symbol symbolEnergy).slots (buffer.phase + 1) = _
      rw [slots, inOrder_update, push, if_pos (by
          rw [List.length_append, full, List.length_singleton]
          exact Nat.lt_succ_self _),
        List.tail_append_of_ne_nil (List.ne_nil_of_length_pos (by omega)), inductionHypothesis,
        slidingWindow_push, List.map_append, List.map_tail, List.map_singleton]
    | clearNext =>
      have slots : buffer.clearNext.slots = Function.update buffer.slots buffer.phase (0, 0) :=
        funext fun i => buffer.slots_update 0 0 i
      show inOrder buffer.clearNext.slots buffer.phase = _
      rw [slots, inOrder_update_oldest, inductionHypothesis, slidingWindow_clearNext,
        List.map_cons, List.map_tail]
      rfl

/-- The dot product with the row of the phase is the correlation of the window. -/
theorem dot_after (short : bitCount ≤ 64) (inputs : List BufferInput)
    (syncWord : Preamble R bitCount) :
    syncWord.dot (CircBuff.after inputs).buff (CircBuff.after inputs : CircBuff bitCount).phase =
      slidingCorrelation syncWord.preamble (slidingWindow bitCount inputs) := by
  rw [dot_eq_exactCorrelation _ _ short, exactCorrelation, correlation, slidingCorrelation]
  refine Finset.sum_congr rfl fun k _ => congrArg₂ (· * ·) rfl ?_
  have read := getD_inOrder (CircBuff.after inputs).slots
    (CircBuff.after inputs : CircBuff bitCount).phase k (0, 0)
  have same := List.getD_map (l := slidingWindow bitCount inputs) (d := (0, 0)) (n := k.val)
    fun slot => (slot.1, slot.2.toUInt64)
  rw [slots_after] at read
  exact congrArg (fun slot => slot.1.toInt) (read.symm.trans same)

/-! ### Cleared slots -/

omit [NeZero bitCount] in
theorem clearNext_clearNext (buffer : CircBuff bitCount) :
    buffer.clearNext.clearNext = buffer.clearNext := by
  simp only [CircBuff.clearNext, Function.update_self, Function.update_idem, UInt64.sub_zero]

/-- A cleared slot leaves no trace behind the next push. -/
theorem foldl_clearNext {inputs : List BufferInput} (pushed : pushes inputs ≠ [])
    (buffer : CircBuff bitCount) :
    inputs.foldl CircBuff.handle buffer.clearNext = inputs.foldl CircBuff.handle buffer := by
  cases inputs with
  | nil => exact absurd rfl pushed
  | cons input rest =>
    cases input with
    | push symbol symbolEnergy =>
      rw [List.foldl_cons, List.foldl_cons, CircBuff.handle, CircBuff.handle,
        CircBuff.push_clearNext]
    | clearNext =>
      rw [List.foldl_cons, List.foldl_cons, CircBuff.handle, CircBuff.handle, clearNext_clearNext]

theorem foldl_withoutTraces (inputs : List BufferInput) (buffer : CircBuff bitCount) :
    (withoutTraces inputs).foldl CircBuff.handle buffer = inputs.foldl CircBuff.handle buffer := by
  induction inputs generalizing buffer with
  | nil => rfl
  | cons input rest inductionHypothesis =>
    cases input with
    | push symbol symbolEnergy => exact inductionHypothesis _
    | clearNext =>
      rw [withoutTraces]
      split
      · exact inductionHypothesis _
      · rename_i pushed
        rw [inductionHypothesis, List.foldl_cons, CircBuff.handle, foldl_clearNext pushed]

variable (R) in
/-- The circular matched filter is the sliding correlation, after every sequence of calls. -/
theorem matchedFilter_law (short : bitCount ≤ 32) (inputs : List BufferInput) :
    MatchedFilterLaw R bitCount inputs := by
  have long : bitCount ≤ 64 := short.trans (by decide)
  have slots := slots_after bitCount inputs
  have buff := congrArg (List.map Prod.fst) slots
  have buffE := congrArg (List.map Prod.snd) slots
  rw [inOrder, List.map_ofFn, List.map_map] at buff buffE
  have energies := congrArg (fun energies => (energies.map UInt64.toNat).sum) buffE
  refine ⟨phase_after inputs, buff, buffE, ?_, dot_after long inputs,
    foldl_withoutTraces inputs .initial⟩
  have total := sum_inOrder (CircBuff.after inputs : CircBuff bitCount).buffE
    (CircBuff.after inputs : CircBuff bitCount).phase UInt64.toNat
  rw [(sums_after long inputs).total, ← total]
  refine energies.trans ?_
  rw [List.map_map]
  exact congrArg List.sum (List.map_congr_left fun slot _ => UInt32.toNat_toUInt64 slot.2)

end Runs

/-- Three symbols, and a cleared slot that the next push fills. -/
theorem matchedFilter_law_uint16 :
    MatchedFilterLaw Int 16 [.push 5 25, .push (-3) 9, .clearNext, .push 7 49] :=
  matchedFilter_law Int (by decide) _

/-! ### The metric of a match -/

/-- Every symbol is pushed with its square. -/
def SquareEnergies (inputs : List BufferInput) : Prop :=
  ∀ symbol symbolEnergy, .push symbol symbolEnergy ∈ inputs → symbolEnergy = energyOf symbol

/-- The slots of a buffer that are not zero. -/
def CircBuff.support (buffer : CircBuff bitCount) : Finset (Fin bitCount) :=
  Finset.univ.filter fun slot => buffer.symbols slot ≠ 0

/-- What the metric of a match tells. -/
structure MetricLaw [Field R] [LinearOrder R] (inputs : List BufferInput)
    (syncWord : Preamble R 16) : Prop where
  energy : (CircBuff.after inputs : CircBuff 16).windowEnergy ≠ 0
  above : syncWord.threshold < (CircBuff.after inputs).calcMetric syncWord
  bounded : (CircBuff.after inputs).calcMetric syncWord ≤ 1
  cleared : cleared inputs = true → (CircBuff.after inputs).calcMetric syncWord ≤ 15 / 16
  support : 73 / 100 ≤ syncWord.threshold → 12 ≤ (CircBuff.after inputs : CircBuff 16).support.card

theorem tracks_after [NeZero bitCount] (short : bitCount ≤ 64) {inputs : List BufferInput}
    (squares : SquareEnergies inputs) : (CircBuff.after inputs : CircBuff bitCount).Tracks := by
  induction inputs using List.reverseRecOn with
  | nil => exact .initial
  | append_singleton inputs input inductionHypothesis =>
    have tracks := inductionHypothesis fun symbol symbolEnergy member =>
      squares symbol symbolEnergy (List.mem_append_left _ member)
    rw [after_concat]
    cases input with
    | push symbol symbolEnergy =>
      rw [squares symbol symbolEnergy (List.mem_append_right _ (List.mem_singleton_self _))]
      exact tracks.push short symbol
    | clearNext => exact tracks.clearNext short

/-- A cleared slot is not in the support. -/
theorem support_of_cleared {inputs : List BufferInput} (clearedNow : cleared inputs = true) :
    (CircBuff.after inputs : CircBuff 16).support.card ≤ 15 := by
  induction inputs using List.reverseRecOn with
  | nil => cases clearedNow
  | append_singleton inputs input _ =>
    cases input with
    | push symbol symbolEnergy => simp at clearedNow
    | clearNext =>
      let buffer : CircBuff 16 := .after inputs
      rw [after_concat]
      have zero : buffer.clearNext.symbols buffer.phase = 0 := by
        show (Function.update buffer.buff buffer.phase 0 buffer.phase).toInt = 0
        rw [Function.update_self]
        rfl
      have inside : buffer.clearNext.support ⊆ Finset.univ.erase buffer.phase := by
        intro slot member
        refine Finset.mem_erase.mpr ⟨fun same => ?_, Finset.mem_univ slot⟩
        rw [same] at member
        exact (Finset.mem_filter.mp member).2 zero
      have slots := Finset.card_le_card inside
      rwa [Finset.card_erase_of_mem (Finset.mem_univ _), Finset.card_univ, Fintype.card_fin]
        at slots

section Metric

variable [Field R] [LinearOrder R] [IsStrictOrderedRing R] {buffer : CircBuff 16}
  (syncWord : Preamble R 16)

omit [LinearOrder R] [IsStrictOrderedRing R] in
/-- The metric in exact arithmetic. -/
theorem calcMetric_eq (tracks : buffer.Tracks) :
    buffer.calcMetric syncWord =
      ((exactCorrelation buffer syncWord ^ 2 : Int) : R) /
        (16 * ((energy buffer.symbols : Int) : R)) := by
  have small := (tracks.sums.total_update (by decide) 0).2.2
  have divisor : ((16 * buffer.windowEnergy).toNat : Int) = 16 * energy buffer.symbols := by
    rw [← tracks.windowEnergy_eq, UInt64.toNat_mul,
      Nat.mod_eq_of_lt (lt_of_le_of_lt (Nat.mul_le_mul_left _ small) (by decide)), Nat.cast_mul]
    rfl
  have cast : (((16 * buffer.windowEnergy).toNat : Nat) : R) =
      16 * ((energy buffer.symbols : Int) : R) := by
    rw [← Int.cast_natCast, divisor, Int.cast_mul]
    norm_num
  rw [CircBuff.calcMetric, dot_eq_exactCorrelation _ _ (by decide), cast, sq]

/-- A match has energy, and its square without the wrap is above the threshold. -/
theorem energy_pos_of_match (tracks : buffer.Tracks)
    (found : buffer.matchPreamble syncWord = true) :
    0 < energy buffer.symbols ∧ syncWord.threshold * (16 * ((energy buffer.symbols : Int) : R)) <
      ((exactCorrelation buffer syncWord ^ 2 : Int) : R) := by
  obtain ⟨early, decided⟩ := (matchPreamble_eq syncWord tracks (by decide)).mp found
  have negative : exactCorrelation buffer syncWord ≤ -48 := early
  have correlated := correlation_sq_le (patternRow_sq syncWord.preamble) buffer.symbols buffer.phase
  rw [← exactCorrelation] at correlated
  have quarter := sq_tdiv_le (show exactCorrelation buffer syncWord ≤ 0 by omega)
  have wrapped := wrap32_le (sq_nonneg ((exactCorrelation buffer syncWord).tdiv 4))
  refine ⟨?_, ?_⟩
  · have square : 0 < exactCorrelation buffer syncWord ^ 2 := sq_pos_of_neg (by omega)
    push_cast at correlated
    omega
  · have share : 16 * (((wrap32 ((exactCorrelation buffer syncWord).tdiv 4 ^ 2) : Int) : R)) ≤
        ((exactCorrelation buffer syncWord ^ 2 : Int) : R) := by
      exact_mod_cast (by omega : 16 * wrap32 ((exactCorrelation buffer syncWord).tdiv 4 ^ 2) ≤
        exactCorrelation buffer syncWord ^ 2)
    linarith

/-- The metric is at most the share of the slots that are not zero. -/
theorem calcMetric_le_card (tracks : buffer.Tracks) (energetic : 0 < energy buffer.symbols) :
    buffer.calcMetric syncWord ≤ ((buffer.support.card : Nat) : R) / 16 := by
  have correlated :=
    correlation_sq_le_card (patternRow_sq syncWord.preamble) buffer.symbols buffer.phase
  rw [← exactCorrelation] at correlated
  have positive : (0 : R) < ((energy buffer.symbols : Int) : R) := by exact_mod_cast energetic
  have bound : ((exactCorrelation buffer syncWord ^ 2 : Int) : R) ≤
      ((buffer.support.card : Nat) : R) * ((energy buffer.symbols : Int) : R) := by
    exact_mod_cast correlated
  rw [calcMetric_eq syncWord tracks, div_le_div_iff₀ (by linarith) (by norm_num)]
  linarith

/-- Whatever was pushed and cleared before, and although the product of the test may wrap, a
match has a metric above the threshold and at most one. -/
theorem match_metric_law {inputs : List BufferInput} (squares : SquareEnergies inputs)
    (found : (CircBuff.after inputs).matchPreamble syncWord = true) :
    MetricLaw inputs syncWord := by
  have tracks : (CircBuff.after inputs : CircBuff 16).Tracks := tracks_after (by decide) squares
  obtain ⟨energetic, decided⟩ := energy_pos_of_match syncWord tracks found
  have share := calcMetric_le_card syncWord tracks energetic
  have scale : (0 : R) < 16 * ((energy (CircBuff.after inputs : CircBuff 16).symbols : Int) : R) :=
    mul_pos (by norm_num) (by exact_mod_cast energetic)
  have above : syncWord.threshold < (CircBuff.after inputs).calcMetric syncWord := by
    rwa [calcMetric_eq syncWord tracks, lt_div_iff₀ scale]
  refine ⟨?_, above, share.trans ?_, fun clearedNow => share.trans ?_, fun high => ?_⟩
  · intro none
    have sum := tracks.windowEnergy_eq
    rw [none] at sum
    exact energetic.ne sum
  · have slots : ((CircBuff.after inputs : CircBuff 16).support.card : R) ≤ 16 := by
      exact_mod_cast Finset.card_le_univ (CircBuff.after inputs : CircBuff 16).support
    linarith
  · have slots : ((CircBuff.after inputs : CircBuff 16).support.card : R) ≤ 15 := by
      exact_mod_cast support_of_cleared clearedNow
    linarith
  · by_contra few
    have slots : ((CircBuff.after inputs : CircBuff 16).support.card : R) ≤ 11 := by
      exact_mod_cast Nat.lt_succ_iff.mp (not_le.mp few)
    linarith

end Metric

/-- The RC4 word without noise. -/
def rc4Word : List BufferInput :=
  (List.range 16).map fun k =>
    let symbol : Int16 := if (0xc0ab#16).getMsbD k then -10 else 10
    .push symbol (energyOf symbol)

theorem match_metric_law_rc4 :
    MetricLaw rc4Word (⟨0xc0ab#16, 78 / 100⟩ : Preamble ℚ 16) := by
  refine match_metric_law _ ?_ (by decide +kernel)
  intro symbol symbolEnergy member
  obtain ⟨k, -, same⟩ := List.mem_map.mp member
  injection same with same energies
  rw [← energies, same]

end OpenStint
