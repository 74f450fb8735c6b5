/-
This file proves that the detector finds no frame as long as every symbol points in the
direction of the one before it. Every differential symbol is then zero or more. A preamble is
found by a negative correlation, and such a window can only be against its word where the
word is negative: in at most nine of sixteen places, which is too few for its energy.

A carrier that repeats one symbol is like that from its second symbol on.
-/

import OpenStint.FrameDetector

namespace OpenStint

open CyclicWindow

variable {R : Type} {samplesPerSymbol : Nat}

/-! ### Windows without a sign change -/

theorem syncWord_preamble [Field R] (protocol : TransponderProtocol) :
    (syncWord protocol : Preamble R 16).preamble = (transponderProps protocol).dpskPreamble := by
  cases protocol <;> rfl

/-- More energy is asked for than nine of sixteen places have. -/
theorem threshold_share [Field R] [LinearOrder R] [IsStrictOrderedRing R]
    (protocol : TransponderProtocol) :
    9 ≤ 16 * (syncWord protocol : Preamble R 16).threshold := by
  cases protocol <;>
    simp only [syncWord, pOpenstint, pRc3, pRc4, preambleThreshold, preamble15bitPenalty] <;>
    norm_num

/-- A word is negative in at most nine places. -/
theorem negatives_le (protocol : TransponderProtocol) :
    (Finset.univ.filter fun age : Fin 16 =>
      patternRow (transponderProps protocol).dpskPreamble age = -1).card ≤ 9 := by
  cases protocol <;> decide

theorem not_exactMatch_of_nonneg [Field R] [LinearOrder R] [IsStrictOrderedRing R]
    {buffer : CircBuff 16} (nonneg : ∀ i, 0 ≤ buffer.symbols i) (protocol : TransponderProtocol) :
    ¬ ExactMatch buffer (syncWord protocol : Preamble R 16) := by
  rintro ⟨early, exceeds⟩
  have against : exactCorrelation buffer (syncWord protocol : Preamble R 16) ≤ 0 :=
    early.trans (by decide)
  have bound := correlation_sq_le_of_nonneg
    (patternRow_sq (syncWord protocol : Preamble R 16).preamble) nonneg against
  rw [← exactCorrelation, syncWord_preamble] at bound
  generalize exactCorrelation buffer (syncWord protocol : Preamble R 16) = corr
    at early exceeds against bound
  have positive : 0 ≤ energy buffer.symbols := Finset.sum_nonneg fun slot _ => sq_nonneg _
  have few : ((Finset.univ.filter fun age : Fin 16 =>
      patternRow (transponderProps protocol).dpskPreamble age = -1).card : Int) ≤ 9 := by
    exact_mod_cast negatives_le protocol
  have quarter : 16 * corr.tdiv 4 ^ 2 ≤ 9 * energy buffer.symbols :=
    calc 16 * corr.tdiv 4 ^ 2
        ≤ corr ^ 2 := by
          rw [tdiv_of_nonpos against, neg_sq]
          nlinarith [Int.mul_ediv_self_le (x := -corr) (k := 4) (by decide),
            Int.ediv_nonneg (a := -corr) (b := 4) (by omega) (by decide)]
      _ ≤ _ := bound.trans (mul_le_mul_of_nonneg_right few positive)
  have share : 9 * ((energy buffer.symbols : Int) : R) ≤
      16 * (syncWord protocol : Preamble R 16).threshold * ((energy buffer.symbols : Int) : R) :=
    mul_le_mul_of_nonneg_right (threshold_share protocol) (Int.cast_nonneg positive)
  have quarterCast :
      16 * ((corr.tdiv 4 ^ 2 : Int) : R) ≤ 9 * ((energy buffer.symbols : Int) : R) := by
    exact_mod_cast quarter
  linarith

theorem not_matchPreamble_of_nonneg [Field R] [LinearOrder R] [IsStrictOrderedRing R]
    {buffer : CircBuff 16} (tracks : buffer.Tracks) (nonneg : ∀ i, 0 ≤ buffer.symbols i)
    (protocol : TransponderProtocol) :
    buffer.matchPreamble (syncWord protocol : Preamble R 16) = false := by
  rw [← Bool.not_eq_true, matchPreamble_iff _ tracks le_rfl (threshold_bounds protocol).1]
  exact fun both => not_exactMatch_of_nonneg nonneg protocol both.1

theorem symbols_push (buffer : CircBuff 16) (symbol : Int16) (symbolEnergy : UInt32)
    (i : Fin 16) : (buffer.push symbol symbolEnergy).symbols i =
      if i = buffer.phase then symbol.toInt else buffer.symbols i := by
  change (Function.update buffer.buff buffer.phase symbol i).toInt = _
  rw [Function.update_apply]
  split <;> rfl

theorem symbols_clearNext (buffer : CircBuff 16) (i : Fin 16) :
    buffer.clearNext.symbols i = if i = buffer.phase then 0 else buffer.symbols i := by
  change (Function.update buffer.buff buffer.phase 0 i).toInt = _
  rw [Function.update_apply]
  split <;> rfl

/-! ### Symbols in one direction -/

/-- The buffers hold no negative differential symbol. -/
structure Steady (detector : FrameDetector R samplesPerSymbol) : Prop where
  tracks : BuffersTrack detector
  nonneg : ∀ i j, 0 ≤ (detector.buffers i).symbols j

/-- Every sample points in the direction of the sample a symbol before it. -/
def Agrees (detector : FrameDetector R samplesPerSymbol) (samples : Symbol samplesPerSymbol) :
    Prop :=
  ∀ i, 0 ≤ (detector.centered samples i * (detector.lastSamples i).conj).re

theorem steady_initial [Zero R] : Steady (.initial : FrameDetector R samplesPerSymbol) where
  tracks := fun _ => CircBuff.Tracks.initial
  nonneg := fun _ _ => le_rfl

variable {detector : FrameDetector R samplesPerSymbol} {samples : Symbol samplesPerSymbol}

theorem Steady.clearNext (steady : Steady detector) (idx : Fin samplesPerSymbol) :
    Steady (detector.clearNext idx) where
  tracks := steady.tracks.clearNext idx
  nonneg := by
    intro i j
    change 0 ≤ (Function.update detector.buffers idx (detector.buffers idx).clearNext i).symbols j
    by_cases same : i = idx
    · rw [same, Function.update_self, symbols_clearNext]
      split
      · exact le_rfl
      · exact steady.nonneg idx j
    · rw [Function.update_of_ne same]
      exact steady.nonneg i j

theorem Steady.updateStatistics [Field R] (steady : Steady detector) :
    Steady detector.updateStatistics := by
  unfold FrameDetector.updateStatistics
  split
  · exact ⟨steady.tracks, steady.nonneg⟩
  · exact steady

variable [NeZero samplesPerSymbol]

theorem Steady.pushSymbol (steady : Steady detector) (agrees : Agrees detector samples) :
    Steady (detector.pushSymbol samples) where
  tracks := steady.tracks.pushSymbol samples
  nonneg := by
    intro i j
    change 0 ≤ ((detector.buffers i).push (.ofInt (detector.differential samples i)) _).symbols j
    have direction := agrees i
    have clamped : 0 ≤ detector.differential samples i ∧
        detector.differential samples i ≤ 2 ^ 15 - 1 := by
      unfold FrameDetector.differential
      omega
    rw [symbols_push]
    split
    · rw [Int16.toInt_ofInt_of_le (by omega) (by omega)]
      exact clamped.1
    · exact steady.nonneg i j

section Repeated

variable [Field R] [LinearOrder R] (detector : FrameDetector R samplesPerSymbol)
  (samples : Symbol samplesPerSymbol)

theorem processBaseband_offset : (detector.processBaseband samples).1.offset = detector.offset := by
  rcases processBaseband_state detector samples with same | same <;> rw [same] <;> rfl

theorem processBaseband_lastSamples :
    (detector.processBaseband samples).1.lastSamples = detector.centered samples := by
  rcases processBaseband_state detector samples with same | same <;> rw [same] <;> rfl

/-- A symbol points in the direction of itself. -/
theorem agrees_repeated : Agrees (detector.processBaseband samples).1 samples := by
  intro i
  have same : (detector.processBaseband samples).1.centered samples i =
      detector.centered samples i := by
    rw [FrameDetector.centered, processBaseband_offset]
    rfl
  rw [processBaseband_lastSamples, same]
  generalize detector.centered samples i = sample
  change 0 ≤ sample.re * sample.re - sample.im * -sample.im
  nlinarith [mul_self_nonneg sample.re, mul_self_nonneg sample.im]

end Repeated

section Exact

variable [Field R] [LinearOrder R] [IsStrictOrderedRing R]

/-- No frame is found at a symbol in the direction of the one before it. -/
theorem Steady.processBaseband (steady : Steady detector) (agrees : Agrees detector samples) :
    (detector.processBaseband samples).2 = none ∧ Steady (detector.processBaseband samples).1 := by
  have pushed := steady.pushSymbol agrees
  have cleared := pushed.clearNext (detector.pushSymbol samples).bestBuffer
  have silent {state : FrameDetector R samplesPerSymbol} (quiet : Steady state)
      (protocol : TransponderProtocol) (i : Fin samplesPerSymbol) :
      ¬ (state.buffers i).matchPreamble (syncWord protocol : Preamble R 16) = true := by
    rw [not_matchPreamble_of_nonneg (quiet.tracks i) (quiet.nonneg i)]
    exact Bool.false_ne_true
  have rc4 : ¬ ((detector.pushSymbol samples).buffers
      (detector.pushSymbol samples).bestBuffer).matchPreamble (pRc4 : Preamble R 16) = true :=
    silent pushed .rc4 _
  have openStint (i : Fin samplesPerSymbol) : ¬ (((detector.pushSymbol samples).clearNext
      (detector.pushSymbol samples).bestBuffer).buffers i).matchPreamble
        (pOpenstint : Preamble R 16) = true :=
    silent cleared .openStint i
  have rc3 (i : Fin samplesPerSymbol) : ¬ (((detector.pushSymbol samples).clearNext
      (detector.pushSymbol samples).bestBuffer).buffers i).matchPreamble
        (pRc3 : Preamble R 16) = true :=
    silent cleared .rc3 i
  unfold FrameDetector.processBaseband
  dsimp only
  rw [if_neg rc4, if_neg (openStint _), if_neg (rc3 _)]
  exact ⟨rfl, cleared⟩

end Exact

end OpenStint
