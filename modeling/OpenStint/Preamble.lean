/-
This file models `preamble.hpp`: the matched filter that finds the preamble of a frame in
the differential signal. `CircBuff` keeps the last symbols and their energies; `Preamble`
is the word to find, with one row for each phase of the buffer.

The filter squares a quarter of the correlation in 32 bits. It decides as the exact
statistic does as long as that square fits, and it misses every word it does not fit for.
-/

import Mathlib.Tactic.Linarith
import OpenStint.Library.CyclicWindow
import OpenStint.Signal

namespace OpenStint

open BoundedQueue CyclicWindow

variable {R : Type} {bitCount : Nat} [NeZero bitCount]

/-! ### The word -/

/-- The 0th row of `pattern`: the bits as signs, most significant first. -/
def patternRow (preamble : BitVec bitCount) (i : Fin bitCount) : Int :=
  if preamble.getMsbD i then 1 else -1

/-- The next row of `pattern`: shifted to the right, with the last sign in front. -/
def shiftedRow (row : Fin bitCount → Int) (j : Fin bitCount) : Int :=
  if j.val = 0 then row ⟨bitCount - 1, Nat.sub_one_lt (NeZero.ne _)⟩
  else row ⟨j.val - 1, by omega⟩

structure Preamble (R : Type) (bitCount : Nat) where
  preamble : BitVec bitCount
  threshold : R

namespace Preamble

/-- The member `pattern`. -/
def pattern (syncWord : Preamble R bitCount) (i : Fin bitCount) : Fin bitCount → Int :=
  shiftedRow^[i.val] (patternRow syncWord.preamble)

/-- `Preamble::dot`, with its 32-bit accumulator. -/
def dot (syncWord : Preamble R bitCount) (buffer : Fin bitCount → Int16) (phase : Fin bitCount) :
    Int :=
  (List.finRange bitCount).foldl
    (fun acc i => wrap32 (acc + (buffer i).toInt * syncWord.pattern phase i)) 0

end Preamble

/-! ### The buffer -/

structure CircBuff (bitCount : Nat) where
  phase : Fin bitCount
  buff : Fin bitCount → Int16
  buffE : Fin bitCount → UInt64
  windowEnergy : UInt64

namespace CircBuff

def initial : CircBuff bitCount where
  phase := 0
  buff := fun _ => 0
  buffE := fun _ => 0
  windowEnergy := 0

def earlyThreshold (bitCount : Nat) : Int := -bitCount * 3

def push (buffer : CircBuff bitCount) (symbol : Int16) (symbolEnergy : UInt32) :
    CircBuff bitCount where
  windowEnergy := buffer.windowEnergy + (symbolEnergy.toUInt64 - buffer.buffE buffer.phase)
  buffE := Function.update buffer.buffE buffer.phase symbolEnergy.toUInt64
  buff := Function.update buffer.buff buffer.phase symbol
  phase := buffer.phase + 1

def clearNext (buffer : CircBuff bitCount) : CircBuff bitCount :=
  { buffer with
    windowEnergy := buffer.windowEnergy - buffer.buffE buffer.phase
    buffE := Function.update buffer.buffE buffer.phase 0
    buff := Function.update buffer.buff buffer.phase 0 }

variable [Field R] [LinearOrder R]

def matchPreamble (buffer : CircBuff bitCount) (syncWord : Preamble R bitCount) : Bool :=
  let corr := syncWord.dot buffer.buff buffer.phase
  if corr > earlyThreshold bitCount then false
  else
    let corr := corr.tdiv 4
    decide (((wrap32 (corr * corr) : Int) : R) >
      syncWord.threshold * ((buffer.windowEnergy.toNat : Nat) : R))

def calcMetric (buffer : CircBuff bitCount) (syncWord : Preamble R bitCount) : R :=
  let corr := syncWord.dot buffer.buff buffer.phase
  ((corr * corr : Int) : R) / (((16 * buffer.windowEnergy).toNat : Nat) : R)

end CircBuff

/-- Clearing the next slot makes no difference to a push, which overwrites it. -/
theorem CircBuff.push_clearNext (buffer : CircBuff bitCount) (symbol : Int16)
    (symbolEnergy : UInt32) :
    buffer.clearNext.push symbol symbolEnergy = buffer.push symbol symbolEnergy := by
  have energy : buffer.windowEnergy - buffer.buffE buffer.phase + (symbolEnergy.toUInt64 - 0) =
      buffer.windowEnergy + (symbolEnergy.toUInt64 - buffer.buffE buffer.phase) := by grind
  simp only [CircBuff.push, CircBuff.clearNext, Function.update_self, Function.update_idem, energy]

/-! ### The exact statistic -/

/-- The symbols of the buffer as integers. -/
def CircBuff.symbols (buffer : CircBuff bitCount) (i : Fin bitCount) : Int := (buffer.buff i).toInt

/-- The last symbols, oldest first. -/
def CircBuff.window (buffer : CircBuff bitCount) : List Int := inOrder buffer.symbols buffer.phase

/-- A push drops the oldest symbol, whatever its energy. -/
theorem CircBuff.window_push (buffer : CircBuff bitCount) (symbol : Int16)
    (symbolEnergy : UInt32) :
    (buffer.push symbol symbolEnergy).window =
      BoundedQueue.push bitCount buffer.window symbol.toInt := by
  have symbols : (buffer.push symbol symbolEnergy).symbols =
      Function.update buffer.symbols buffer.phase symbol.toInt :=
    funext fun i => Function.apply_update (fun _ => Int16.toInt) buffer.buff buffer.phase symbol i
  rw [window, symbols]
  exact inOrder_update buffer.symbols buffer.phase symbol.toInt

/-- The correlation of the last symbols with the word, in unbounded integers. -/
def exactCorrelation (buffer : CircBuff bitCount) (syncWord : Preamble R bitCount) : Int :=
  correlation (patternRow syncWord.preamble) buffer.symbols buffer.phase

/-- What the filter is to decide: the correlation is below the early threshold, and the square
of a quarter of it exceeds the share of the energy the word asks for. -/
def ExactMatch [Field R] [LinearOrder R] (buffer : CircBuff bitCount)
    (syncWord : Preamble R bitCount) : Prop :=
  exactCorrelation buffer syncWord ≤ CircBuff.earlyThreshold bitCount ∧
    syncWord.threshold * ((energy buffer.symbols : Int) : R) <
      (((exactCorrelation buffer syncWord).tdiv 4 ^ 2 : Int) : R)

/-- The square that the filter computes fits 32 bits. -/
def SquareFits (buffer : CircBuff bitCount) (syncWord : Preamble R bitCount) : Prop :=
  exactCorrelation buffer syncWord ≤ CircBuff.earlyThreshold bitCount →
    (exactCorrelation buffer syncWord).tdiv 4 ^ 2 < 2 ^ 31

/-- The filter decides as the exact statistic, and its 32-bit product is exact. -/
def DecidesExactly [Field R] [LinearOrder R] (buffer : CircBuff bitCount)
    (syncWord : Preamble R bitCount) : Prop :=
  SquareFits buffer syncWord ∧
    (buffer.matchPreamble syncWord = true ↔ ExactMatch buffer syncWord)

/-! ### Rows -/

theorem shiftedRow_apply (row : Fin bitCount → Int) (j : Fin bitCount) :
    shiftedRow row j = row (j - 1) := by
  obtain ⟨last, rfl⟩ : ∃ last, bitCount = last + 1 := Nat.exists_eq_succ_of_ne_zero (NeZero.ne _)
  unfold shiftedRow
  split
  · rename_i first
    exact congrArg row (Fin.ext (by rw [Fin.coe_sub_one, if_pos (Fin.ext first)]; rfl))
  · rename_i later
    refine congrArg row (Fin.ext ?_)
    rw [Fin.coe_sub_one, if_neg fun first => later (congrArg Fin.val first)]

/-- Row `phase` is the word, read from the slot of the phase on. -/
theorem pattern_apply (syncWord : Preamble R bitCount) (phase i : Fin bitCount) :
    syncWord.pattern phase i = patternRow syncWord.preamble (i - phase) := by
  have shifted : ∀ (count : Nat) (row : Fin bitCount → Int) (j : Fin bitCount),
      shiftedRow^[count] row j = row (j - Fin.ofNat bitCount count) := by
    intro count
    induction count with
    | zero => simp
    | succ count inductionHypothesis =>
      intro row j
      have next : Fin.ofNat bitCount (count + 1) = 1 + Fin.ofNat bitCount count := by
        rw [add_comm 1]
        exact Fin.ext (Nat.add_mod count 1 bitCount)
      rw [Function.iterate_succ_apply', shiftedRow_apply, inductionHypothesis, next,
        sub_add_eq_sub_sub]
  have here : Fin.ofNat bitCount phase.val = phase := Fin.ext (Nat.mod_eq_of_lt phase.isLt)
  rw [Preamble.pattern, shifted, here]

omit [NeZero bitCount] in
theorem patternRow_sq (preamble : BitVec bitCount) (i : Fin bitCount) :
    patternRow preamble i ^ 2 = 1 := by
  unfold patternRow
  split <;> rfl

/-! ### The accumulator -/

/-- A 32-bit accumulator of terms of 16 bits is exact as long as there are few. -/
theorem foldl_wrap32 {Item : Type} (term : Item → Int) (small : ∀ item, |term item| ≤ 2 ^ 15)
    (items : List Item) (acc : Int) (fits : |acc| + 2 ^ 15 * items.length < 2 ^ 31) :
    items.foldl (fun acc item => wrap32 (acc + term item)) acc = acc + (items.map term).sum := by
  induction items generalizing acc with
  | nil => simp
  | cons item rest inductionHypothesis =>
    have step := abs_add_le acc (term item)
    have bound := small item
    rw [List.length_cons, Nat.cast_add, Nat.cast_one] at fits
    have inside := abs_lt.mp (show |acc + term item| < 2 ^ 31 by omega)
    rw [List.foldl_cons, wrap32_of_fits (by omega) inside.2, inductionHypothesis, List.map_cons,
      List.sum_cons, add_assoc]
    omega

theorem dot_eq_exactCorrelation (buffer : CircBuff bitCount) (syncWord : Preamble R bitCount)
    (short : bitCount ≤ 64) :
    syncWord.dot buffer.buff buffer.phase = exactCorrelation buffer syncWord := by
  have small : ∀ i, |(buffer.buff i).toInt * syncWord.pattern buffer.phase i| ≤ 2 ^ 15 := by
    intro i
    have low := Int16.le_toInt (buffer.buff i)
    have high := Int16.toInt_lt (buffer.buff i)
    rw [pattern_apply, patternRow]
    split
    · rw [mul_one, abs_le]
      omega
    · rw [mul_neg_one, abs_neg, abs_le]
      omega
  rw [Preamble.dot, foldl_wrap32 _ small, zero_add, ← Fin.sum_univ_def, exactCorrelation,
    correlation_eq_sum]
  · exact Finset.sum_congr rfl fun i _ => by rw [pattern_apply]; rfl
  · rw [List.length_finRange, abs_zero]
    omega

/-! ### The energy -/

/-- The energy `process_baseband` pushes with a symbol. -/
def energyOf (symbol : Int16) : UInt32 := UInt32.ofInt (symbol.toInt * symbol.toInt)

/-- The buffer has energies of 32 bits and their sum. -/
structure CircBuff.Sums (buffer : CircBuff bitCount) : Prop where
  bounded : ∀ i, (buffer.buffE i).toNat < 2 ^ 32
  total : buffer.windowEnergy.toNat = ∑ i, (buffer.buffE i).toNat

/-- The buffer has the energy of each symbol and their sum. -/
structure CircBuff.Tracks (buffer : CircBuff bitCount) : Prop where
  energies : ∀ i, ((buffer.buffE i).toNat : Int) = buffer.symbols i ^ 2
  total : buffer.windowEnergy.toNat = ∑ i, (buffer.buffE i).toNat

theorem toNat_energyOf (symbol : Int16) : ((energyOf symbol).toNat : Int) = symbol.toInt ^ 2 := by
  have low := Int16.le_toInt symbol
  have high := Int16.toInt_lt symbol
  have bound : symbol.toInt * symbol.toInt < 2 ^ 32 := by nlinarith
  have word : (energyOf symbol).toNat = (symbol.toInt * symbol.toInt % 2 ^ 32).toNat % 2 ^ 32 := rfl
  have nonneg := mul_self_nonneg symbol.toInt
  rw [word, sq]
  omega

/-- A slot with a symbol and its energy. -/
theorem sq_symbol_le (symbol : Int16) : symbol.toInt ^ 2 ≤ 2 ^ 30 := by
  have low := Int16.le_toInt symbol
  have high := Int16.toInt_lt symbol
  nlinarith

namespace CircBuff.Sums

theorem initial : (CircBuff.initial : CircBuff bitCount).Sums where
  bounded := fun _ => Nat.two_pow_pos 32
  total := by simp [CircBuff.initial]

omit [NeZero bitCount] in
/-- The slot of the phase is overwritten with an energy of 32 bits. -/
theorem bounded_update {buffer : CircBuff bitCount} (sums : buffer.Sums) {symbolEnergy : UInt64}
    (fits : symbolEnergy.toNat < 2 ^ 32) (i : Fin bitCount) :
    (Function.update buffer.buffE buffer.phase symbolEnergy i).toNat < 2 ^ 32 := by
  by_cases here : i = buffer.phase
  · rwa [here, Function.update_self]
  · rw [Function.update_of_ne here]
    exact sums.bounded i

omit [NeZero bitCount] in
/-- The sum after the slot of the phase is overwritten, and what it was made of, far from the
end of its 64 bits. -/
theorem total_update {buffer : CircBuff bitCount} (sums : buffer.Sums) (short : bitCount ≤ 64)
    (symbolEnergy : UInt64) :
    ∑ i, (Function.update buffer.buffE buffer.phase symbolEnergy i).toNat +
        (buffer.buffE buffer.phase).toNat = buffer.windowEnergy.toNat + symbolEnergy.toNat ∧
      (buffer.buffE buffer.phase).toNat ≤ buffer.windowEnergy.toNat ∧
      buffer.windowEnergy.toNat ≤ 2 ^ 38 := by
  have summed := sum_update (fun i => (buffer.buffE i).toNat) buffer.phase symbolEnergy.toNat
  have pointwise : ∀ i, (Function.update buffer.buffE buffer.phase symbolEnergy i).toNat =
      Function.update (fun i => (buffer.buffE i).toNat) buffer.phase symbolEnergy.toNat i :=
    fun i => Function.apply_update (fun _ => UInt64.toNat) _ _ _ i
  have part := Finset.single_le_sum (f := fun i => (buffer.buffE i).toNat)
    (fun i _ => Nat.zero_le _) (Finset.mem_univ buffer.phase)
  have bound := Finset.sum_le_card_nsmul _ _ _ fun i (_ : i ∈ Finset.univ) => (sums.bounded i).le
  rw [Finset.card_univ, Fintype.card_fin, smul_eq_mul] at bound
  rw [Finset.sum_congr rfl fun i _ => pointwise i, sums.total]
  exact ⟨summed, part, bound.trans (Nat.mul_le_mul_right _ short)⟩

theorem push {buffer : CircBuff bitCount} (sums : buffer.Sums) (short : bitCount ≤ 64)
    (symbol : Int16) (symbolEnergy : UInt32) : (buffer.push symbol symbolEnergy).Sums where
  bounded := sums.bounded_update (by
    rw [UInt32.toNat_toUInt64]
    exact symbolEnergy.toNat_lt)
  total := by
    obtain ⟨summed, part, small⟩ := sums.total_update short symbolEnergy.toUInt64
    have fits := symbolEnergy.toNat_lt
    rw [UInt32.toNat_toUInt64] at summed
    -- the difference may wrap below zero, the sum wraps back
    show (buffer.windowEnergy + (symbolEnergy.toUInt64 - buffer.buffE buffer.phase)).toNat =
      ∑ i, (Function.update buffer.buffE buffer.phase symbolEnergy.toUInt64 i).toNat
    rw [UInt64.toNat_add, UInt64.toNat_sub, UInt32.toNat_toUInt64]
    omega

omit [NeZero bitCount] in
theorem clearNext {buffer : CircBuff bitCount} (sums : buffer.Sums) (short : bitCount ≤ 64) :
    buffer.clearNext.Sums where
  bounded := sums.bounded_update (Nat.two_pow_pos 32)
  total := by
    obtain ⟨summed, part, small⟩ := sums.total_update short 0
    show (buffer.windowEnergy - buffer.buffE buffer.phase).toNat =
      ∑ i, (Function.update buffer.buffE buffer.phase 0 i).toNat
    rw [UInt64.toNat_sub]
    have zero : (0 : UInt64).toNat = 0 := rfl
    omega

end CircBuff.Sums

namespace CircBuff.Tracks

theorem initial : (CircBuff.initial : CircBuff bitCount).Tracks where
  energies := fun _ => rfl
  total := CircBuff.Sums.initial.total

omit [NeZero bitCount] in
theorem sums {buffer : CircBuff bitCount} (tracks : buffer.Tracks) : buffer.Sums where
  bounded := fun i => by
    have square := sq_symbol_le (buffer.buff i)
    have slot := tracks.energies i
    rw [CircBuff.symbols] at slot
    omega
  total := tracks.total

omit [NeZero bitCount] in
/-- Overwriting the slot of the phase with a symbol and its energy. -/
theorem energies_update {buffer : CircBuff bitCount} (tracks : buffer.Tracks) {symbol : Int16}
    {symbolEnergy : UInt64} (square : (symbolEnergy.toNat : Int) = symbol.toInt ^ 2)
    (i : Fin bitCount) :
    ((Function.update buffer.buffE buffer.phase symbolEnergy i).toNat : Int) =
      (Function.update buffer.buff buffer.phase symbol i).toInt ^ 2 := by
  by_cases here : i = buffer.phase
  · rw [here, Function.update_self, Function.update_self, square]
  · rw [Function.update_of_ne here, Function.update_of_ne here]
    exact tracks.energies i

theorem push {buffer : CircBuff bitCount} (tracks : buffer.Tracks) (short : bitCount ≤ 64)
    (symbol : Int16) : (buffer.push symbol (energyOf symbol)).Tracks where
  energies := tracks.energies_update (toNat_energyOf symbol)
  total := (tracks.sums.push short symbol (energyOf symbol)).total

omit [NeZero bitCount] in
theorem clearNext {buffer : CircBuff bitCount} (tracks : buffer.Tracks) (short : bitCount ≤ 64) :
    buffer.clearNext.Tracks where
  energies := tracks.energies_update rfl
  total := (tracks.sums.clearNext short).total

omit [NeZero bitCount] in
theorem windowEnergy_eq {buffer : CircBuff bitCount} (tracks : buffer.Tracks) :
    (buffer.windowEnergy.toNat : Int) = energy buffer.symbols := by
  rw [tracks.total, energy, Nat.cast_sum]
  exact Finset.sum_congr rfl fun i _ => tracks.energies i

end CircBuff.Tracks

/-! ### The decision -/

/-- The quarter of a negative correlation, rounded to zero. -/
theorem tdiv_of_nonpos {corr : Int} (negative : corr ≤ 0) : corr.tdiv 4 = -(-corr / 4) := by
  rw [← Int.tdiv_eq_ediv_of_nonneg (by omega), Int.neg_tdiv, neg_neg]

/-- A quarter of a negative correlation, squared, fits 31 bits exactly above -185364. -/
theorem sq_tdiv_lt_iff {corr : Int} (negative : corr ≤ 0) :
    corr.tdiv 4 ^ 2 < 2 ^ 31 ↔ -185364 < corr := by
  rw [tdiv_of_nonpos negative, neg_sq]
  constructor
  · intro fits
    by_contra large
    have below : 46341 ≤ -corr / 4 := by omega
    nlinarith
  · intro small
    have above : -corr / 4 ≤ 46340 := by omega
    have nonneg : 0 ≤ -corr / 4 := by omega
    nlinarith

theorem sq_tdiv_le {corr : Int} (negative : corr ≤ 0) : 16 * corr.tdiv 4 ^ 2 ≤ corr ^ 2 := by
  rw [tdiv_of_nonpos negative]
  have below : 4 * (-corr / 4) ≤ -corr := by omega
  have nonneg : 0 ≤ -corr / 4 := by omega
  nlinarith

omit [NeZero bitCount] in
/-- The early threshold is negative and far above the point where the square overflows. -/
theorem earlyThreshold_bounds (short : bitCount ≤ 64) :
    CircBuff.earlyThreshold bitCount ≤ 0 ∧ -185364 < CircBuff.earlyThreshold bitCount := by
  unfold CircBuff.earlyThreshold
  omega

omit [NeZero bitCount] in
theorem squareFits_iff (buffer : CircBuff bitCount) (syncWord : Preamble R bitCount)
    (short : bitCount ≤ 64) :
    SquareFits buffer syncWord ↔ -185364 < exactCorrelation buffer syncWord := by
  obtain ⟨negative, above⟩ := earlyThreshold_bounds short
  unfold SquareFits
  by_cases early : exactCorrelation buffer syncWord ≤ CircBuff.earlyThreshold bitCount
  · rw [imp_iff_right early, sq_tdiv_lt_iff (early.trans negative)]
  · exact ⟨fun _ => above.trans (not_le.mp early), fun _ tested => absurd tested early⟩

section Decision

variable [Field R] [LinearOrder R] {buffer : CircBuff bitCount} (syncWord : Preamble R bitCount)

/-- The filter, with the sums read exactly: only the square is still of 32 bits. -/
theorem matchPreamble_eq (tracks : buffer.Tracks) (short : bitCount ≤ 64) :
    buffer.matchPreamble syncWord = true ↔
      exactCorrelation buffer syncWord ≤ CircBuff.earlyThreshold bitCount ∧
        syncWord.threshold * ((energy buffer.symbols : Int) : R) <
          ((wrap32 ((exactCorrelation buffer syncWord).tdiv 4 ^ 2) : Int) : R) := by
  have energies :
      ((buffer.windowEnergy.toNat : Nat) : R) = ((energy buffer.symbols : Int) : R) := by
    rw [← tracks.windowEnergy_eq, Int.cast_natCast]
  rw [CircBuff.matchPreamble, dot_eq_exactCorrelation _ _ short]
  dsimp only
  split
  · rename_i early
    exact ⟨nofun, fun both => absurd both.1 (not_le.mpr early)⟩
  · rename_i tested
    rw [decide_eq_true_eq, energies, ← sq, and_iff_right (not_lt.mp tested)]

/-- Where the square fits, the filter decides as the exact statistic. -/
theorem matchPreamble_of_fits (tracks : buffer.Tracks) (short : bitCount ≤ 64)
    (fits : SquareFits buffer syncWord) :
    buffer.matchPreamble syncWord = true ↔ ExactMatch buffer syncWord := by
  rw [matchPreamble_eq syncWord tracks short, ExactMatch]
  refine and_congr_right fun tested => ?_
  rw [wrap32_of_fits (by have := sq_nonneg ((exactCorrelation buffer syncWord).tdiv 4); omega)
    (fits tested)]

/-- The filter decides exactly where the correlation is above -185364, and nowhere else. -/
theorem decidesExactly_iff (tracks : buffer.Tracks) (short : bitCount ≤ 64) :
    DecidesExactly buffer syncWord ↔ -185364 < exactCorrelation buffer syncWord := by
  rw [← squareFits_iff _ _ short]
  exact ⟨fun decides => decides.1, fun fits =>
    ⟨fits, matchPreamble_of_fits syncWord tracks short fits⟩⟩

/-- Where the square overflows, what is left of it is no more than half of the energy, and
the filter finds nothing. -/
theorem matchPreamble_of_overflow [IsStrictOrderedRing R] (tracks : buffer.Tracks)
    (short : bitCount ≤ 16) (half : 1 ≤ 2 * syncWord.threshold)
    (overflows : exactCorrelation buffer syncWord ≤ -185364) :
    buffer.matchPreamble syncWord = false := by
  have negative : exactCorrelation buffer syncWord ≤ 0 := by omega
  have large : 2 ^ 31 ≤ (exactCorrelation buffer syncWord).tdiv 4 ^ 2 := by
    rw [← not_lt, sq_tdiv_lt_iff negative]
    omega
  have energyNonneg : 0 ≤ energy buffer.symbols := Finset.sum_nonneg fun i _ => sq_nonneg _
  have correlated := correlation_sq_le (patternRow_sq syncWord.preamble) buffer.symbols buffer.phase
  rw [← exactCorrelation] at correlated
  have quarter := sq_tdiv_le negative
  have half_energy : 2 * wrap32 ((exactCorrelation buffer syncWord).tdiv 4 ^ 2) ≤
      energy buffer.symbols := by
    have wrapped := two_mul_wrap32_le large
    have slots : (bitCount : Int) * energy buffer.symbols ≤ 16 * energy buffer.symbols :=
      mul_le_mul_of_nonneg_right (by exact_mod_cast short) energyNonneg
    linarith
  rw [← Bool.not_eq_true, matchPreamble_eq syncWord tracks (by omega), not_and, not_lt]
  intro _
  have cast : (2 : R) * ((wrap32 ((exactCorrelation buffer syncWord).tdiv 4 ^ 2) : Int) : R) ≤
      ((energy buffer.symbols : Int) : R) := by exact_mod_cast half_energy
  have castNonneg : (0 : R) ≤ ((energy buffer.symbols : Int) : R) := by exact_mod_cast energyNonneg
  have share := mul_le_mul_of_nonneg_right half castNonneg
  linarith

/-- What the filter accepts: what the exact statistic accepts, unless the square overflows. -/
theorem matchPreamble_iff [IsStrictOrderedRing R] (tracks : buffer.Tracks) (short : bitCount ≤ 16)
    (half : 1 ≤ 2 * syncWord.threshold) :
    buffer.matchPreamble syncWord = true ↔
      ExactMatch buffer syncWord ∧ -185364 < exactCorrelation buffer syncWord := by
  by_cases fits : -185364 < exactCorrelation buffer syncWord
  · rw [and_iff_left fits]
    exact matchPreamble_of_fits syncWord tracks (by omega)
      ((squareFits_iff _ _ (by omega)).mpr fits)
  · rw [matchPreamble_of_overflow syncWord tracks short half (not_lt.mp fits)]
    exact ⟨nofun, fun both => absurd both.2 fits⟩

end Decision

/-! ### A preamble without noise -/

/-- The last symbols are the word, without noise: a sign of the word that stands for a change
of the carrier comes as a negative symbol. -/
def NoiseFree (buffer : CircBuff bitCount) (syncWord : Preamble R bitCount) (amplitude : Int) :
    Prop :=
  ∀ age, buffer.symbols (buffer.phase + age) = -amplitude * patternRow syncWord.preamble age

omit [NeZero bitCount] in
theorem NoiseFree.correlation {buffer : CircBuff bitCount} {syncWord : Preamble R bitCount}
    {amplitude : Int} (noiseFree : NoiseFree buffer syncWord amplitude) :
    exactCorrelation buffer syncWord = -amplitude * bitCount := by
  have each : ∀ age ∈ Finset.univ, patternRow syncWord.preamble age *
      buffer.symbols (buffer.phase + age) = -amplitude := by
    intro age _
    rw [noiseFree age, mul_left_comm, ← sq, patternRow_sq, mul_one]
  rw [exactCorrelation, CyclicWindow.correlation, Finset.sum_congr rfl each, Finset.sum_const,
    Finset.card_univ, Fintype.card_fin, nsmul_eq_mul, mul_comm]

theorem NoiseFree.energy {buffer : CircBuff bitCount} {syncWord : Preamble R bitCount}
    {amplitude : Int} (noiseFree : NoiseFree buffer syncWord amplitude) :
    energy buffer.symbols = amplitude ^ 2 * bitCount := by
  have shifted := Equiv.sum_comp (Equiv.addLeft buffer.phase) fun slot => buffer.symbols slot ^ 2
  have each : ∀ age ∈ Finset.univ, buffer.symbols (Equiv.addLeft buffer.phase age) ^ 2 =
      amplitude ^ 2 := by
    intro age _
    rw [Equiv.coe_addLeft, noiseFree age, mul_pow, patternRow_sq, mul_one, neg_sq]
  rw [CyclicWindow.energy, ← shifted, Finset.sum_congr rfl each, Finset.sum_const,
    Finset.card_univ, Fintype.card_fin, nsmul_eq_mul, mul_comm]

/-- A 16-bit word without noise is found at the amplitudes from 3 to 11585, although it is
an exact match at every amplitude from 3 on. -/
theorem noiseFree_iff [Field R] [LinearOrder R] [IsStrictOrderedRing R] {buffer : CircBuff 16}
    (tracks : buffer.Tracks) {syncWord : Preamble R 16} (half : 1 ≤ 2 * syncWord.threshold)
    (share : syncWord.threshold < 1) {amplitude : Int}
    (noiseFree : NoiseFree buffer syncWord amplitude) :
    (ExactMatch buffer syncWord ↔ 3 ≤ amplitude) ∧
      (buffer.matchPreamble syncWord = true ↔ 3 ≤ amplitude ∧ amplitude ≤ 11585) := by
  have early : CircBuff.earlyThreshold 16 = -48 := rfl
  have quarter : (-amplitude * (16 : Nat)).tdiv 4 = -(4 * amplitude) := by
    rw [show -amplitude * ((16 : Nat) : Int) = 4 * -(4 * amplitude) by push_cast; ring]
    exact Int.mul_tdiv_cancel_left _ (by decide)
  have exact_ : ExactMatch buffer syncWord ↔ 3 ≤ amplitude := by
    rw [ExactMatch, noiseFree.correlation, noiseFree.energy, early, quarter]
    constructor
    · rintro ⟨tested, -⟩
      push_cast at tested
      omega
    · intro loud
      refine ⟨by push_cast; omega, ?_⟩
      have positive : (0 : R) < ((amplitude ^ 2 * (16 : Nat) : Int) : R) := by
        have square : 0 < amplitude ^ 2 := by positivity
        exact_mod_cast (by omega : 0 < amplitude ^ 2 * (16 : Nat))
      have same : (-(4 * amplitude)) ^ 2 = amplitude ^ 2 * (16 : Nat) := by push_cast; ring
      rw [same]
      exact mul_lt_of_lt_one_left positive share
  refine ⟨exact_, ?_⟩
  rw [matchPreamble_iff syncWord tracks le_rfl half, exact_, noiseFree.correlation]
  push_cast
  omega

end OpenStint
