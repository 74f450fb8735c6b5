/-
This file models `FrameDetector` of `frame.cpp`: the preamble search on the differential
signal, with one `CircBuff` for each sample of a symbol, and the statistics of the signal.

The preamble test decides as the exact statistic at every point of every run where the
correlation is above -185364. A strong preamble has a lower one.
-/

import Mathlib.Algebra.Order.Field.Rat
import Mathlib.Tactic.NormNum
import OpenStint.Library.Machine
import OpenStint.Preamble
import OpenStint.Transponder

namespace OpenStint

open Machine CyclicWindow

variable {R : Type}

/-! ### The words -/

section Words

variable [Field R]

def preambleThreshold : R := ((78 : Nat) : R) / ((100 : Nat) : R)

def preamble15bitPenalty : R := ((15 : Nat) : R) / ((16 : Nat) : R)

def pOpenstint : Preamble R 16 where
  preamble := (transponderProps .openStint).dpskPreamble
  threshold := preambleThreshold * preamble15bitPenalty

def pRc3 : Preamble R 16 where
  preamble := (transponderProps .rc3).dpskPreamble
  threshold := preambleThreshold * preamble15bitPenalty

def pRc4 : Preamble R 16 where
  preamble := (transponderProps .rc4).dpskPreamble
  threshold := preambleThreshold

/-- The word of a protocol. -/
def syncWord : TransponderProtocol → Preamble R 16
  | .openStint => pOpenstint
  | .rc3 => pRc3
  | .rc4 => pRc4

end Words

/-! ### The detector -/

def statsUpdateThreshold : Nat := 1 <<< 12

abbrev DetectionResult (R : Type) := TransponderProtocol × R

structure FrameDetector (R : Type) (samplesPerSymbol : Nat) where
  lastSamples : Fin samplesPerSymbol → StdComplex Int
  buffers : Fin samplesPerSymbol → CircBuff 16
  /-- dc offset ~ sample mean -/
  offset : StdComplex Int
  offsetHires : StdComplex R
  /-- ~noise power -/
  variance : R
  /-- sum of samples -/
  s1 : StdComplex Int
  /-- sum of sample squared -/
  s2 : UInt32
  /-- number of samples measured -/
  n : Nat

namespace FrameDetector

variable {samplesPerSymbol : Nat}

def initial [Zero R] : FrameDetector R samplesPerSymbol where
  lastSamples := fun _ => ⟨0, 0⟩
  buffers := fun _ => .initial
  offset := ⟨0, 0⟩
  offsetHires := ⟨0, 0⟩
  variance := 0
  s1 := ⟨0, 0⟩
  s2 := 0
  n := 0

/-- The samples of a symbol without the dc offset. -/
def centered (detector : FrameDetector R samplesPerSymbol) (samples : Symbol samplesPerSymbol) :
    Fin samplesPerSymbol → StdComplex Int :=
  fun i => (samples i).toInt - detector.offset

/-- The differential symbol `zr`, clamped to 16 bits. -/
def differential (detector : FrameDetector R samplesPerSymbol) (samples : Symbol samplesPerSymbol)
    (i : Fin samplesPerSymbol) : Int :=
  max (-2 ^ 15) (min (2 ^ 15 - 1)
    (detector.centered samples i * (detector.lastSamples i).conj).re)

/-- The part of `process_baseband` that reads the samples. -/
def pushSymbol [NeZero samplesPerSymbol] (detector : FrameDetector R samplesPerSymbol)
    (samples : Symbol samplesPerSymbol) : FrameDetector R samplesPerSymbol :=
  { detector with
    buffers := fun i =>
      let zr := detector.differential samples i
      (detector.buffers i).push (.ofInt zr) (.ofInt (zr * zr))
    lastSamples := detector.centered samples
    s1 := detector.s1 + (samples 0).toInt
    s2 := detector.s2 + .ofInt (detector.centered samples 0).norm
    n := detector.n + 1 }

/-- `std::max_element` of the energies, each cut to 32 bits: the first of the largest. -/
def bestBuffer [NeZero samplesPerSymbol] (detector : FrameDetector R samplesPerSymbol) :
    Fin samplesPerSymbol :=
  let wes i := (detector.buffers i).windowEnergy.toUInt32
  (List.finRange samplesPerSymbol).foldl (fun best i => if wes best < wes i then i else best) 0

/-- `clear_next` on one of the buffers. -/
def clearNext (detector : FrameDetector R samplesPerSymbol) (idx : Fin samplesPerSymbol) :
    FrameDetector R samplesPerSymbol :=
  { detector with buffers := Function.update detector.buffers idx (detector.buffers idx).clearNext }

/-- `process_baseband`: only RC4 is matched on all 16 bits. -/
def processBaseband [Field R] [LinearOrder R] [NeZero samplesPerSymbol]
    (detector : FrameDetector R samplesPerSymbol) (samples : Symbol samplesPerSymbol) :
    FrameDetector R samplesPerSymbol × Option (DetectionResult R) :=
  let detector := detector.pushSymbol samples
  let idx := detector.bestBuffer
  if (detector.buffers idx).matchPreamble (pRc4 : Preamble R 16) then
    (detector, some (.rc4, (detector.buffers idx).calcMetric pRc4))
  else
    let detector := detector.clearNext idx
    if (detector.buffers idx).matchPreamble (pOpenstint : Preamble R 16) then
      (detector, some (.openStint, (detector.buffers idx).calcMetric pOpenstint))
    else if (detector.buffers idx).matchPreamble (pRc3 : Preamble R 16) then
      (detector, some (.rc3, (detector.buffers idx).calcMetric pRc3))
    else (detector, none)

/-- `complex_cast<int8_t>` of a quotient, as an integer again. -/
def castInt8 (value : Int) : Int := (Int8.ofInt value).toInt

def resetStatisticsCounters (detector : FrameDetector R samplesPerSymbol) :
    FrameDetector R samplesPerSymbol :=
  { detector with s1 := ⟨0, 0⟩, s2 := 0, n := 0 }

def updateStatistics [Field R] (detector : FrameDetector R samplesPerSymbol) :
    FrameDetector R samplesPerSymbol :=
  if statsUpdateThreshold < detector.n then
    { detector with
      offset := detector.s1.map fun sum : Int => castInt8 (sum.tdiv detector.n)
      offsetHires := detector.s1.map fun sum : Int => (sum : R) / ((detector.n : Nat) : R)
      variance := ((detector.s2.toNat : Nat) : R) / ((detector.n - 1 : Nat) : R)
    }.resetStatisticsCounters
  else detector

/-- `symbol_energy`. The largest energy so far is cut to 32 bits, the one compared with it is
not. The float that is returned is an element of a field here: the quotient is not rounded. -/
def symbolEnergy [Field R] [NeZero samplesPerSymbol] (detector : FrameDetector R samplesPerSymbol) :
    R :=
  let maxEnergy := (List.finRange samplesPerSymbol).tail.foldl
    (fun (maxEnergy : UInt32) i =>
      if (detector.buffers i).windowEnergy > maxEnergy.toUInt64 then
        (detector.buffers i).windowEnergy.toUInt32
      else maxEnergy)
    (detector.buffers 0).windowEnergy.toUInt32
  ((maxEnergy.toNat : Nat) : R) / ((16 : Nat) : R)

def noiseEnergy (detector : FrameDetector R samplesPerSymbol) : R := detector.variance

def dcOffset (detector : FrameDetector R samplesPerSymbol) : StdComplex R := detector.offsetHires

end FrameDetector

/-! ### Runs -/

/-- What the receiving thread does with the detector. -/
inductive BasebandInput (samplesPerSymbol : Nat)
  | processBaseband (samples : Symbol samplesPerSymbol)
  | updateStatistics
  | resetStatisticsCounters

section Runs

variable [Field R] [LinearOrder R] {samplesPerSymbol : Nat} [NeZero samplesPerSymbol]

def basebandStep (detector : FrameDetector R samplesPerSymbol) :
    BasebandInput samplesPerSymbol →
      FrameDetector R samplesPerSymbol × Option (DetectionResult R)
  | .processBaseband samples => detector.processBaseband samples
  | .updateStatistics => (detector.updateStatistics, none)
  | .resetStatisticsCounters => (detector.resetStatisticsCounters, none)

/-- A buffer as a preamble is matched against it, at the symbol after a run: as the symbol
leaves it, or with its next slot cleared. -/
def matchedBuffer (R : Type) [Field R] [LinearOrder R]
    (inputs : List (BasebandInput samplesPerSymbol)) (samples : Symbol samplesPerSymbol)
    (idx : Fin samplesPerSymbol) (cleared : Bool) : CircBuff 16 :=
  let detector := (exec basebandStep (.initial : FrameDetector R samplesPerSymbol)
    inputs).pushSymbol samples
  if cleared then ((detector.clearNext idx).buffers idx) else detector.buffers idx

end Runs

/-! ### The decision along a run -/

section Decision

variable [Field R] [LinearOrder R] {samplesPerSymbol : Nat}

/-- The energies of all buffers are in order. -/
def BuffersTrack (detector : FrameDetector R samplesPerSymbol) : Prop :=
  ∀ i, (detector.buffers i).Tracks

omit [Field R] [LinearOrder R] in
/-- The differential symbol fits 16 bits, and is pushed with its square. -/
theorem push_differential (detector : FrameDetector R samplesPerSymbol)
    (samples : Symbol samplesPerSymbol) (i : Fin samplesPerSymbol) (buffer : CircBuff 16) :
    buffer.push (.ofInt (detector.differential samples i))
        (.ofInt (detector.differential samples i * detector.differential samples i)) =
      buffer.push (.ofInt (detector.differential samples i))
        (energyOf (.ofInt (detector.differential samples i))) := by
  have fits : (Int16.ofInt (detector.differential samples i)).toInt =
      detector.differential samples i :=
    Int16.toInt_ofInt_of_le (by unfold FrameDetector.differential; omega)
      (by unfold FrameDetector.differential; omega)
  rw [energyOf, fits]

variable [NeZero samplesPerSymbol]

omit [Field R] [LinearOrder R] in
theorem BuffersTrack.pushSymbol {detector : FrameDetector R samplesPerSymbol}
    (tracks : BuffersTrack detector) (samples : Symbol samplesPerSymbol) :
    BuffersTrack (detector.pushSymbol samples) := by
  intro i
  show ((detector.buffers i).push _ _).Tracks
  rw [push_differential]
  exact (tracks i).push (by decide) _

omit [Field R] [LinearOrder R] [NeZero samplesPerSymbol] in
theorem BuffersTrack.clearNext {detector : FrameDetector R samplesPerSymbol}
    (tracks : BuffersTrack detector) (idx : Fin samplesPerSymbol) :
    BuffersTrack (detector.clearNext idx) := by
  intro i
  show (Function.update detector.buffers idx (detector.buffers idx).clearNext i).Tracks
  by_cases same : i = idx
  · rw [same, Function.update_self]
    exact (tracks idx).clearNext (by decide)
  · rw [Function.update_of_ne same]
    exact tracks i

/-- What a symbol leaves of the detector: its push, perhaps with one slot cleared. -/
theorem processBaseband_state
    (detector : FrameDetector R samplesPerSymbol) (samples : Symbol samplesPerSymbol) :
    (detector.processBaseband samples).1 = detector.pushSymbol samples ∨
      (detector.processBaseband samples).1 =
        (detector.pushSymbol samples).clearNext (detector.pushSymbol samples).bestBuffer := by
  unfold FrameDetector.processBaseband
  dsimp only
  split
  · exact Or.inl rfl
  · split
    · exact Or.inr rfl
    · split <;> exact Or.inr rfl

theorem BuffersTrack.processBaseband {detector : FrameDetector R samplesPerSymbol}
    (tracks : BuffersTrack detector) (samples : Symbol samplesPerSymbol) :
    BuffersTrack (detector.processBaseband samples).1 := by
  have pushed := tracks.pushSymbol samples
  rcases processBaseband_state detector samples with same | same
  · rw [same]
    exact pushed
  · rw [same]
    exact pushed.clearNext (detector.pushSymbol samples).bestBuffer

omit [LinearOrder R] [NeZero samplesPerSymbol] in
theorem BuffersTrack.updateStatistics {detector : FrameDetector R samplesPerSymbol}
    (tracks : BuffersTrack detector) : BuffersTrack detector.updateStatistics := by
  unfold FrameDetector.updateStatistics
  split
  · exact tracks
  · exact tracks

theorem buffersTrack_exec (inputs : List (BasebandInput samplesPerSymbol)) :
    BuffersTrack (exec basebandStep (.initial : FrameDetector R samplesPerSymbol) inputs) := by
  refine exec_invariant BuffersTrack (fun detector input tracks => ?_)
    (fun _ => CircBuff.Tracks.initial) inputs
  cases input with
  | processBaseband samples => exact tracks.processBaseband samples
  | updateStatistics => exact tracks.updateStatistics
  | resetStatisticsCounters => exact tracks

theorem matchedBuffer_tracks (inputs : List (BasebandInput samplesPerSymbol))
    (samples : Symbol samplesPerSymbol) (idx : Fin samplesPerSymbol) (cleared : Bool) :
    (matchedBuffer R inputs samples idx cleared).Tracks := by
  have pushed := (buffersTrack_exec (R := R) inputs).pushSymbol samples
  cases cleared with
  | false => exact pushed idx
  | true => exact pushed.clearNext idx idx

/-- At every symbol of every run, for every buffer with or without its next slot cleared and
for every protocol, the preamble test decides as the exact statistic, and squares without
overflow, exactly when the correlation is above -185364. -/
theorem preamble_decides_exactly_iff (inputs : List (BasebandInput samplesPerSymbol))
    (samples : Symbol samplesPerSymbol) (idx : Fin samplesPerSymbol) (cleared : Bool)
    (protocol : TransponderProtocol) :
    DecidesExactly (matchedBuffer R inputs samples idx cleared)
        (syncWord protocol : Preamble R 16) ↔
      -185364 < exactCorrelation (matchedBuffer R inputs samples idx cleared)
        (syncWord protocol : Preamble R 16) :=
  decidesExactly_iff _ (matchedBuffer_tracks inputs samples idx cleared) (by decide)

/-- A weak carrier that changes its sign once. -/
theorem preamble_decides_exactly_iff_weak :
    DecidesExactly (matchedBuffer ℚ [.processBaseband fun _ : Fin 2 => ⟨10, 0⟩]
        (fun _ => ⟨-10, 0⟩) 0 true) (syncWord .openStint : Preamble ℚ 16) ↔
      -185364 < exactCorrelation (matchedBuffer ℚ [.processBaseband fun _ : Fin 2 => ⟨10, 0⟩]
        (fun _ => ⟨-10, 0⟩) 0 true) (syncWord .openStint : Preamble ℚ 16) :=
  preamble_decides_exactly_iff _ _ _ _ _

variable [IsStrictOrderedRing R]

omit [NeZero samplesPerSymbol] in
theorem threshold_bounds (protocol : TransponderProtocol) :
    1 ≤ 2 * (syncWord protocol : Preamble R 16).threshold ∧
      (syncWord protocol : Preamble R 16).threshold < 1 := by
  cases protocol <;>
    simp only [syncWord, pOpenstint, pRc3, pRc4, preambleThreshold, preamble15bitPenalty] <;>
    norm_num

/-- What the preamble test accepts along a run. -/
theorem preamble_matches_iff (inputs : List (BasebandInput samplesPerSymbol))
    (samples : Symbol samplesPerSymbol) (idx : Fin samplesPerSymbol) (cleared : Bool)
    (protocol : TransponderProtocol) :
    (matchedBuffer R inputs samples idx cleared).matchPreamble (syncWord protocol : Preamble R 16) =
        true ↔
      ExactMatch (matchedBuffer R inputs samples idx cleared) (syncWord protocol : Preamble R 16) ∧
        -185364 < exactCorrelation (matchedBuffer R inputs samples idx cleared)
          (syncWord protocol : Preamble R 16) :=
  matchPreamble_iff _ (matchedBuffer_tracks inputs samples idx cleared) le_rfl
    (threshold_bounds protocol).1

/-- A preamble without noise is found along a run at the amplitudes from 3 to 11585. -/
theorem preamble_found_iff (inputs : List (BasebandInput samplesPerSymbol))
    (samples : Symbol samplesPerSymbol) (idx : Fin samplesPerSymbol) (cleared : Bool)
    (protocol : TransponderProtocol) {amplitude : Int}
    (noiseFree : NoiseFree (matchedBuffer R inputs samples idx cleared)
      (syncWord protocol : Preamble R 16) amplitude) :
    (matchedBuffer R inputs samples idx cleared).matchPreamble (syncWord protocol : Preamble R 16) =
        true ↔
      3 ≤ amplitude ∧ amplitude ≤ 11585 :=
  (noiseFree_iff (matchedBuffer_tracks inputs samples idx cleared) (threshold_bounds protocol).1
    (threshold_bounds protocol).2 noiseFree).2

end Decision

/-! ### A strong preamble -/

section Pushes

variable {samplesPerSymbol : Nat} [NeZero samplesPerSymbol]

theorem pushSymbol_clearNext (detector : FrameDetector R samplesPerSymbol)
    (idx : Fin samplesPerSymbol) (samples : Symbol samplesPerSymbol) :
    (detector.clearNext idx).pushSymbol samples = detector.pushSymbol samples := by
  have buffers : ((detector.clearNext idx).pushSymbol samples).buffers =
      (detector.pushSymbol samples).buffers := by
    funext i
    show (Function.update detector.buffers idx (detector.buffers idx).clearNext i).push _ _ =
      (detector.buffers i).push _ _
    by_cases same : i = idx
    · rw [same, Function.update_self, CircBuff.push_clearNext]
      rfl
    · rw [Function.update_of_ne same]
      rfl
  exact congrArg (fun buffers => { detector.pushSymbol samples with buffers }) buffers

/-- The next symbol finds the buffers as if nothing had been cleared. -/
theorem pushSymbol_processBaseband [Field R] [LinearOrder R]
    (detector : FrameDetector R samplesPerSymbol) (samples next : Symbol samplesPerSymbol) :
    (detector.processBaseband samples).1.pushSymbol next =
      (detector.pushSymbol samples).pushSymbol next := by
  rcases processBaseband_state detector samples with same | same
  · rw [same]
  · rw [same]
    exact pushSymbol_clearNext _ _ _

theorem pushSymbol_exec [Field R] [LinearOrder R] (detector : FrameDetector R samplesPerSymbol)
    (symbols : List (Symbol samplesPerSymbol)) (last : Symbol samplesPerSymbol) :
    (exec basebandStep detector (symbols.map .processBaseband)).pushSymbol last =
      (symbols.foldl FrameDetector.pushSymbol detector).pushSymbol last := by
  induction symbols using List.reverseRecOn generalizing last with
  | nil => rfl
  | append_singleton symbols symbol inductionHypothesis =>
    rw [List.map_append, List.map_singleton, exec_concat, List.foldl_append, List.foldl_cons,
      List.foldl_nil, basebandStep, pushSymbol_processBaseband, inductionHypothesis]

theorem matchedBuffer_symbols [Field R] [LinearOrder R]
    (symbols : List (Symbol samplesPerSymbol)) (last : Symbol samplesPerSymbol)
    (idx : Fin samplesPerSymbol) :
    matchedBuffer R (symbols.map .processBaseband) last idx false =
      ((symbols.foldl FrameDetector.pushSymbol (.initial : FrameDetector R _)).pushSymbol
        last).buffers idx := by
  rw [matchedBuffer, pushSymbol_exec, if_neg Bool.false_ne_true]

end Pushes

/-- A symbol of a strong carrier with a sign. -/
def strongSymbol (sign : Int) : Symbol 2 := fun _ => ⟨.ofInt (100 * sign), .ofInt (100 * sign)⟩

/-- All but the last symbol of a strong carrier that changes its sign as the RC4 word says. -/
def strongSymbols : List (Symbol 2) :=
  [1, -1, 1, 1, 1, 1, 1, 1, 1, -1, -1, 1, 1, -1, -1, 1].map strongSymbol

theorem strong_correlation :
    exactCorrelation (matchedBuffer ℚ (strongSymbols.map .processBaseband) (strongSymbol (-1)) 0
      false) (syncWord .rc4 : Preamble ℚ 16) = -320000 := by
  rw [matchedBuffer_symbols]
  decide +kernel

/-- The correlation of a strong RC4 preamble without noise is too low for its square. -/
theorem preamble_decides_exactly_fails :
    ¬ ∀ (inputs : List (BasebandInput 2)) (samples : Symbol 2) (idx : Fin 2) (cleared : Bool)
        (protocol : TransponderProtocol),
      DecidesExactly (matchedBuffer ℚ inputs samples idx cleared)
        (syncWord protocol : Preamble ℚ 16) := by
  intro always
  have decides := always (strongSymbols.map .processBaseband) (strongSymbol (-1)) 0 false .rc4
  rw [decidesExactly_iff _ (matchedBuffer_tracks _ _ _ _) (by decide),
    strong_correlation] at decides
  exact absurd decides (by decide)

end OpenStint
