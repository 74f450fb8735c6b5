/-
This file is about the statistics of the channel: the sum `s1` of the samples that were
counted, the sum `s2` of their squared distances from the offset, and their number `n`. The
counters are cleared at the end of a call only, by a detection or by an update that needs
more than 4096 symbols, so at most 4096 symbols come with a new buffer.

A detector that remembers what it has counted tells what the sums should be. `s1` and the
new offset always fit. A distance can be as large as the offset and the sample are apart,
130050 when they are at opposite ends, and `s2` has 32 bits: it is exact if and only if the
distances sum to less than 2^32. Buffers of 8 samples a symbol are too short to reach that;
with 2 samples a symbol a buffer of 131072 samples does.
-/

import OpenStint.DetectorRuns
import OpenStint.IdealPlatform
import OpenStint.SteadyCarrier
import OpenStint.Timecodes

namespace OpenStint

open Machine

variable {R : Type} {samplesPerSymbol : Nat} [NeZero samplesPerSymbol]

/-! ### A detector that remembers -/

/-- When the detector finds a frame: it may depend on all it has been given. -/
abbrev Outcomes (R : Type) (samplesPerSymbol : Nat) :=
  List (Symbol samplesPerSymbol) → FrameDetector R samplesPerSymbol → Symbol samplesPerSymbol →
    Option (DetectionResult R)

/-- The detector with the symbols it has been given, those it has counted since the counters
were cleared, and for each update of the estimates the detector before it and the symbols
counted. -/
structure CountingDetector (R : Type) (samplesPerSymbol : Nat) where
  detector : FrameDetector R samplesPerSymbol
  given : List (Symbol samplesPerSymbol)
  counted : List (Symbol samplesPerSymbol)
  updates : List (FrameDetector R samplesPerSymbol × List (Symbol samplesPerSymbol))

section Baseband

variable [Field R] [LinearOrder R]

namespace CountingDetector

def initial : CountingDetector R samplesPerSymbol where
  detector := .initial
  given := []
  counted := []
  updates := []

def countSymbol (counting : CountingDetector R samplesPerSymbol)
    (symbol : Symbol samplesPerSymbol) : CountingDetector R samplesPerSymbol :=
  { counting with
    detector := (counting.detector.processBaseband symbol).1
    given := counting.given ++ [symbol]
    counted := counting.counted ++ [symbol] }

theorem countSymbol_detector (counting : CountingDetector R samplesPerSymbol)
    (symbol : Symbol samplesPerSymbol) :
    (counting.countSymbol symbol).detector = (counting.detector.processBaseband symbol).1 := by
  rw [countSymbol]

theorem countSymbol_counted (counting : CountingDetector R samplesPerSymbol)
    (symbol : Symbol samplesPerSymbol) :
    (counting.countSymbol symbol).counted = counting.counted ++ [symbol] := by
  rw [countSymbol]

theorem countSymbol_updates (counting : CountingDetector R samplesPerSymbol)
    (symbol : Symbol samplesPerSymbol) :
    (counting.countSymbol symbol).updates = counting.updates := by
  rw [countSymbol]

def updateStatistics (counting : CountingDetector R samplesPerSymbol) :
    CountingDetector R samplesPerSymbol :=
  if statsUpdateThreshold < counting.detector.n then
    { counting with
      detector := counting.detector.updateStatistics
      counted := []
      updates := counting.updates ++ [(counting.detector, counting.counted)] }
  else counting

def resetStatisticsCounters (counting : CountingDetector R samplesPerSymbol) :
    CountingDetector R samplesPerSymbol :=
  { counting with detector := counting.detector.resetStatisticsCounters, counted := [] }

end CountingDetector

def countingBaseband (outcomes : Outcomes R samplesPerSymbol) : Baseband R samplesPerSymbol where
  Detector := CountingDetector R samplesPerSymbol
  initial := .initial
  processBaseband := fun counting symbol =>
    (counting.countSymbol symbol, outcomes counting.given counting.detector symbol)
  updateStatistics := CountingDetector.updateStatistics
  resetStatisticsCounters := CountingDetector.resetStatisticsCounters
  dcOffset := fun counting => counting.detector.dcOffset
  noiseEnergy := fun counting => counting.detector.noiseEnergy

theorem countingBaseband_processBaseband (outcomes : Outcomes R samplesPerSymbol)
    (counting : CountingDetector R samplesPerSymbol) (symbol : Symbol samplesPerSymbol) :
    (countingBaseband outcomes).processBaseband counting symbol =
      (counting.countSymbol symbol, outcomes counting.given counting.detector symbol) := rfl

/-- The outcomes of the detector itself. -/
def ownOutcomes : Outcomes R samplesPerSymbol := fun _ detector symbol =>
  (detector.processBaseband symbol).2

/-- With its own outcomes it is the detector of the receiver, when what it remembers is left
out. -/
theorem counting_simulates :
    (countingBaseband (ownOutcomes : Outcomes R samplesPerSymbol)).Simulates
      frameDetectorBaseband CountingDetector.detector where
  initial := rfl
  processBaseband := fun (counting : CountingDetector R samplesPerSymbol) symbol => by
    dsimp only [countingBaseband, frameDetectorBaseband, ownOutcomes, Prod.map, id,
      CountingDetector.countSymbol]
  updateStatistics := fun (counting : CountingDetector R samplesPerSymbol) => by
    change counting.detector.updateStatistics = counting.updateStatistics.detector
    rw [CountingDetector.updateStatistics]
    split
    · rfl
    · rename_i few
      exact if_neg few
  resetStatisticsCounters := fun _ => rfl
  dcOffset := fun _ => rfl
  noiseEnergy := fun _ => rfl

end Baseband

/-! ### Exact sums -/

/-- The sum of the first samples of the symbols. -/
def sumOf (counted : List (Symbol samplesPerSymbol)) : StdComplex Int :=
  ⟨(counted.map fun symbol => (symbol 0).toInt.re).sum,
    (counted.map fun symbol => (symbol 0).toInt.im).sum⟩

/-- The sum of the squared distances of the first samples from the offset. -/
def spread (offset : StdComplex Int) (counted : List (Symbol samplesPerSymbol)) : Int :=
  (counted.map fun symbol => ((symbol 0).toInt - offset).norm).sum

/-- Both parts lie in a range. -/
def Within (low high : Int) (value : StdComplex Int) : Prop :=
  (low ≤ value.re ∧ value.re ≤ high) ∧ low ≤ value.im ∧ value.im ≤ high

/-- The values of an `int8_t`. -/
abbrev FitsInt8 : StdComplex Int → Prop := Within (-128) 127

/-- The values of an `int32_t`. -/
abbrev FitsInt32 : StdComplex Int → Prop := Within (-2 ^ 31) (2 ^ 31 - 1)

/-- What an update of the estimates finds: no sum has wrapped, and nothing is lost when the
new offset is cut to 8 bits. -/
structure StatisticsExact (before : FrameDetector R samplesPerSymbol)
    (counted : List (Symbol samplesPerSymbol)) : Prop where
  partialSums : ∀ count, FitsInt32 (sumOf (counted.take count))
  s1 : before.s1 = sumOf counted
  s2 : (before.s2.toNat : Int) = spread before.offset counted
  n : before.n = counted.length
  divisor : statsUpdateThreshold < before.n
  offset : FitsInt8 (before.s1.map fun sum => sum.tdiv before.n)

/-- The counters of a detector and the symbols it has counted: `s2` has lost multiples of
2^32. -/
structure Counts (detector : FrameDetector R samplesPerSymbol)
    (counted : List (Symbol samplesPerSymbol)) : Prop where
  s1 : detector.s1 = sumOf counted
  s2 : (detector.s2.toNat : Int) = spread detector.offset counted % 2 ^ 32
  n : detector.n = counted.length
  offset : FitsInt8 detector.offset

theorem within_toInt (sample : Sample) : FitsInt8 sample.toInt :=
  ⟨⟨sample.re.le_toInt, Int.le_of_lt_add_one sample.re.toInt_lt⟩,
    sample.im.le_toInt, Int.le_of_lt_add_one sample.im.toInt_lt⟩

/-- A sum of parts in a range lies in the range as often. -/
theorem sum_within {Item : Type} (value : Item → Int) {low high : Int}
    (within : ∀ item, low ≤ value item ∧ value item ≤ high) (items : List Item) :
    low * items.length ≤ (items.map value).sum ∧ (items.map value).sum ≤ high * items.length := by
  induction items with
  | nil => simp
  | cons item rest inductionHypothesis =>
    have first := within item
    rw [List.map_cons, List.sum_cons, List.length_cons, Nat.cast_add, Nat.cast_one, mul_add,
      mul_add]
    omega

theorem sumOf_within (counted : List (Symbol samplesPerSymbol)) :
    Within (-128 * counted.length) (127 * counted.length) (sumOf counted) :=
  ⟨sum_within (fun symbol : Symbol samplesPerSymbol => (symbol 0).toInt.re)
      (fun symbol => (within_toInt (symbol 0)).1) counted,
    sum_within (fun symbol : Symbol samplesPerSymbol => (symbol 0).toInt.im)
      (fun symbol => (within_toInt (symbol 0)).2) counted⟩

/-- Two samples are at most 255 apart in each part. -/
theorem norm_sub_bounds {sample offset : StdComplex Int} (sampleFits : FitsInt8 sample)
    (offsetFits : FitsInt8 offset) :
    0 ≤ (sample - offset).norm ∧ (sample - offset).norm ≤ 130050 := by
  have part {a b : Int} (aFits : -128 ≤ a ∧ a ≤ 127) (bFits : -128 ≤ b ∧ b ≤ 127) :
      0 ≤ (a - b) * (a - b) ∧ (a - b) * (a - b) ≤ 65025 := by
    have apart : -255 ≤ a - b ∧ a - b ≤ 255 := by omega
    constructor <;> nlinarith
  have re := part sampleFits.1 offsetFits.1
  have im := part sampleFits.2 offsetFits.2
  change 0 ≤ (sample.re - offset.re) * (sample.re - offset.re) +
      (sample.im - offset.im) * (sample.im - offset.im) ∧
    (sample.re - offset.re) * (sample.re - offset.re) +
      (sample.im - offset.im) * (sample.im - offset.im) ≤ 130050
  omega

theorem spread_bounds {offset : StdComplex Int} (offsetFits : FitsInt8 offset)
    (counted : List (Symbol samplesPerSymbol)) :
    0 ≤ spread offset counted ∧ spread offset counted ≤ 130050 * counted.length := by
  have bounds := sum_within (fun symbol : Symbol samplesPerSymbol =>
    ((symbol 0).toInt - offset).norm)
    (fun symbol => norm_sub_bounds (within_toInt (symbol 0)) offsetFits) counted
  rwa [zero_mul] at bounds

/-- A quotient of a sum by its number of parts lies where the parts lie. -/
theorem tdiv_within {sum : Int} {n : Nat} (some_ : 0 < n)
    (within : -128 * n ≤ sum ∧ sum ≤ 127 * n) :
    -128 ≤ sum.tdiv n ∧ sum.tdiv n ≤ 127 := by
  have nonneg (value bound : Int) (positive : 0 ≤ value)
      (below : value ≤ bound * n) : 0 ≤ value.tdiv n ∧ value.tdiv n ≤ bound := by
    rw [Int.tdiv_eq_ediv_of_nonneg positive]
    exact ⟨Int.ediv_nonneg positive (Int.natCast_nonneg n),
      Int.ediv_le_of_le_mul (Int.natCast_pos.mpr some_) below⟩
  rcases le_total 0 sum with positive | negative
  · have bounds := nonneg sum 127 positive within.2
    omega
  · have bounds := nonneg (-sum) 128 (by omega) (by omega)
    rw [Int.neg_tdiv] at bounds
    omega

/-- Up to 65536 more symbols than an update needs, `s2` is the only sum that may wrap. -/
theorem Counts.exact_iff {detector : FrameDetector R samplesPerSymbol}
    {counted : List (Symbol samplesPerSymbol)} (counts : Counts detector counted)
    (enough : statsUpdateThreshold < detector.n)
    (few : detector.n ≤ statsUpdateThreshold + 65536) :
    StatisticsExact detector counted ↔ spread detector.offset counted < 2 ^ 32 := by
  have bounds := spread_bounds counts.offset counted
  have distances := counts.s2
  have size := counts.n
  have some_ : 0 < detector.n := Nat.zero_lt_of_lt enough
  change detector.n ≤ 4096 + 65536 at few
  constructor
  · intro exact_
    have below := detector.s2.toNat_lt
    have sums := exact_.s2
    omega
  · intro small
    refine ⟨fun count => ?_, counts.s1, ?_, size, enough, ?_⟩
    · have inside := sumOf_within (counted.take count)
      have shorter := (List.take_sublist count counted).length_le
      obtain ⟨⟨reLow, reHigh⟩, imLow, imHigh⟩ := inside
      refine ⟨⟨?_, ?_⟩, ?_, ?_⟩ <;> omega
    · rw [distances]
      exact Int.emod_eq_of_lt bounds.1 small
    · have inside := sumOf_within counted
      rw [← size] at inside
      rw [counts.s1]
      exact ⟨tdiv_within some_ inside.1, tdiv_within some_ inside.2⟩

/-! ### Steps -/

theorem Counts.initial [Zero R] :
    Counts (.initial : FrameDetector R samplesPerSymbol) [] where
  s1 := rfl
  s2 := rfl
  n := rfl
  offset := by
    change Within (-128) 127 ⟨0, 0⟩
    exact ⟨⟨by decide, by decide⟩, by decide, by decide⟩

section Steps

variable {detector : FrameDetector R samplesPerSymbol} {counted : List (Symbol samplesPerSymbol)}

theorem Counts.pushSymbol (counts : Counts detector counted) (symbol : Symbol samplesPerSymbol) :
    Counts (detector.pushSymbol symbol) (counted ++ [symbol]) where
  s1 := by
    change detector.s1 + (symbol 0).toInt = _
    simp only [counts.s1, sumOf, List.map_append, List.sum_append, List.map_singleton,
      List.sum_singleton]
    rfl
  s2 := by
    change ((detector.s2 + .ofInt (((symbol 0).toInt - detector.offset).norm)).toNat : Int) =
      spread detector.offset (counted ++ [symbol]) % 2 ^ 32
    have before := counts.s2
    have word (value : Int) : (UInt32.ofInt value).toNat = (value % 2 ^ 32).toNat % 2 ^ 32 := rfl
    rw [spread] at before ⊢
    rw [UInt32.toNat_add, word, List.map_append, List.sum_append, List.map_singleton,
      List.sum_singleton]
    omega
  n := by
    change detector.n + 1 = _
    rw [counts.n, List.length_append, List.length_singleton]
  offset := counts.offset

/-- Whether a preamble is found makes no difference to the statistics. -/
theorem Counts.processBaseband [Field R] [LinearOrder R] (counts : Counts detector counted)
    (symbol : Symbol samplesPerSymbol) :
    Counts (detector.processBaseband symbol).1 (counted ++ [symbol]) := by
  have pushed := counts.pushSymbol symbol
  rcases processBaseband_state detector symbol with same | same
  · rw [same]
    exact pushed
  · rw [same]
    exact ⟨pushed.s1, pushed.s2, pushed.n, pushed.offset⟩

theorem Counts.reset (counts : Counts detector counted) :
    Counts detector.resetStatisticsCounters [] :=
  ⟨rfl, rfl, rfl, counts.offset⟩

/-- The new offset is a quotient that was cut to 8 bits. -/
theorem Counts.update [Field R] (enough : statsUpdateThreshold < detector.n) :
    Counts detector.updateStatistics [] := by
  rw [FrameDetector.updateStatistics, if_pos enough]
  refine ⟨rfl, rfl, rfl, ?_⟩
  have cut (value : Int) : -128 ≤ FrameDetector.castInt8 value ∧
      FrameDetector.castInt8 value ≤ 127 :=
    ⟨Int8.le_toInt _, Int.le_of_lt_add_one (Int8.toInt_lt _)⟩
  exact ⟨cut _, cut _⟩

end Steps

/-! ### Runs -/

section Runs

variable [Field R] [LinearOrder R] {outcomes : Outcomes R samplesPerSymbol}

/-- What holds of the detector between two calls: at most 4096 symbols are counted, and each
update has found what was counted before it and at most `limit` symbols more. -/
structure Regular (limit : Nat) (counting : CountingDetector R samplesPerSymbol) : Prop where
  counts : Counts counting.detector counting.counted
  few : counting.detector.n ≤ statsUpdateThreshold
  updates : ∀ update ∈ counting.updates, Counts update.1 update.2 ∧
    statsUpdateThreshold < update.1.n ∧ update.1.n ≤ statsUpdateThreshold + limit

/-- The detector after some symbols. -/
structure Given (before after : CountingDetector R samplesPerSymbol)
    (symbols : List (Symbol samplesPerSymbol)) : Prop where
  counts : Counts after.detector after.counted
  counted : after.counted = before.counted ++ symbols
  updates : after.updates = before.updates
  offset : after.detector.offset = before.detector.offset

theorem countSymbols_given {counting : CountingDetector R samplesPerSymbol}
    (counts : Counts counting.detector counting.counted)
    (symbols : List (Symbol samplesPerSymbol)) :
    Given counting (symbols.foldl CountingDetector.countSymbol counting) symbols := by
  induction symbols using List.reverseRecOn with
  | nil => exact ⟨counts, (List.append_nil _).symm, rfl, rfl⟩
  | append_singleton symbols symbol inductionHypothesis =>
    rw [List.foldl_append, List.foldl_cons, List.foldl_nil]
    generalize symbols.foldl CountingDetector.countSymbol counting = after at inductionHypothesis ⊢
    refine ⟨?_, ?_, ?_, ?_⟩
    · rw [CountingDetector.countSymbol_detector, CountingDetector.countSymbol_counted]
      exact inductionHypothesis.counts.processBaseband symbol
    · rw [CountingDetector.countSymbol_counted, inductionHypothesis.counted, List.append_assoc]
    · rw [CountingDetector.countSymbol_updates, inductionHypothesis.updates]
    · rw [CountingDetector.countSymbol_detector, processBaseband_offset,
        inductionHypothesis.offset]

omit [LinearOrder R] in
theorem Regular.initial (limit : Nat) :
    Regular limit (.initial : CountingDetector R samplesPerSymbol) where
  counts := Counts.initial
  few := Nat.zero_le _
  updates := fun _ member => absurd member List.not_mem_nil

/-- A call clears the counters, or updates the estimates when there are enough symbols. -/
theorem Regular.call {limit : Nat} {counting : CountingDetector R samplesPerSymbol}
    (regular : Regular limit counting) {symbols : List (Symbol samplesPerSymbol)}
    (short : symbols.length ≤ limit) :
    Regular limit (symbols.foldl CountingDetector.countSymbol counting).resetStatisticsCounters ∧
      Regular limit (symbols.foldl CountingDetector.countSymbol counting).updateStatistics := by
  have given := countSymbols_given regular.counts symbols
  generalize symbols.foldl CountingDetector.countSymbol counting = after at given ⊢
  have updates := regular.updates
  rw [← given.updates] at updates
  have size := given.counts.n
  rw [given.counted, List.length_append, ← regular.counts.n] at size
  have few := regular.few
  refine ⟨⟨given.counts.reset, Nat.zero_le _, updates⟩, ?_⟩
  rw [CountingDetector.updateStatistics]
  split
  · rename_i enough
    have cleared : after.detector.updateStatistics.n = 0 := by
      rw [FrameDetector.updateStatistics, if_pos enough]
      rfl
    refine ⟨Counts.update enough, cleared.le.trans (Nat.zero_le _), fun update member => ?_⟩
    rcases List.mem_append.mp member with before | new
    · exact updates update before
    · rw [List.mem_singleton.mp new]
      have bound : after.detector.n ≤ statsUpdateThreshold + limit := by omega
      exact ⟨given.counts, enough, bound⟩
  · exact ⟨given.counts, by omega, updates⟩

theorem regular_run {limit : Nat} {calls : List (UInt64 × List Sample)}
    (short : ∀ call ∈ calls, call.2.length / samplesPerSymbol ≤ limit) {platform : Platform R}
    {receiver : Receiver platform (countingBaseband outcomes)}
    {reports : List (CallReport R samplesPerSymbol)}
    (ran : run Receiver.detectFrames .initial calls = some (receiver, reports)) :
    Regular limit receiver.frameDetector :=
  have preserved (counting : CountingDetector R samplesPerSymbol)
      (symbols : List (Symbol samplesPerSymbol)) (few : symbols.length ≤ limit)
      (regular : Regular limit counting) := regular.call few
  run_detector preserved (Regular.initial limit) short ran

/-- The distances of the samples that an update finds counted fit 32 bits. -/
def SpreadFits (update : FrameDetector R samplesPerSymbol × List (Symbol samplesPerSymbol)) :
    Prop :=
  spread update.1.offset update.2 < 2 ^ 32

omit [Field R] [LinearOrder R] in
/-- Up to 28929 symbols in a buffer the distances fit wherever the samples are. -/
theorem spreadFits_of_short {limit : Nat} (small : limit ≤ 28929)
    {counting : CountingDetector R samplesPerSymbol} (regular : Regular limit counting) :
    ∀ update ∈ counting.updates, SpreadFits update := by
  intro update member
  obtain ⟨counts, -, few⟩ := regular.updates update member
  have bounds := spread_bounds counts.offset update.2
  change update.1.n ≤ 4096 + limit at few
  rw [counts.n] at few
  rw [SpreadFits]
  omega

/-- Whatever the buffers hold and the detector finds, at most 4096 symbols are counted after a
call; and the updates of the estimates have found exact sums, divided by more than 4096, and
an offset of 8 bits, if and only if the distances of the samples they found counted sum to
less than 2^32. With 8 samples a symbol they always do. -/
theorem statistics_exact_iff (build : samplesPerSymbol = 2 ∨ samplesPerSymbol = 8)
    (platform : Platform R) (outcomes : Outcomes R samplesPerSymbol)
    (calls : List (UInt64 × List Sample)) (transfers : ∀ call ∈ calls, call.2.length ≤ 131072) :
    ∃ (receiver : Receiver platform (countingBaseband outcomes))
      (reports : List (CallReport R samplesPerSymbol)),
      run Receiver.detectFrames .initial calls = some (receiver, reports) ∧
        (outcomes = ownOutcomes →
          run Receiver.detectFrames (.initial : Receiver platform frameDetectorBaseband) calls =
            some (receiver.withDetector CountingDetector.detector, reports)) ∧
        receiver.frameDetector.detector.n ≤ statsUpdateThreshold ∧
        ((∀ update ∈ receiver.frameDetector.updates, StatisticsExact update.1 update.2) ↔
          ∀ update ∈ receiver.frameDetector.updates, SpreadFits update) ∧
        (samplesPerSymbol = 8 → ∀ update ∈ receiver.frameDetector.updates,
          StatisticsExact update.1 update.2) := by
  obtain ⟨receiver, reports, ran, -, -⟩ :=
    run_advances platform (countingBaseband outcomes) calls fun call member =>
      (transfers call member).trans_lt (by decide)
  have regular {limit : Nat} (short : ∀ call ∈ calls, call.2.length / samplesPerSymbol ≤ limit) :
      Regular limit receiver.frameDetector := regular_run short ran
  have symbols : ∀ call ∈ calls, call.2.length / samplesPerSymbol ≤ 65536 := by
    intro call member
    have size := transfers call member
    rcases build with rfl | rfl <;> omega
  have exact_ : ∀ update ∈ receiver.frameDetector.updates,
      (StatisticsExact update.1 update.2 ↔ SpreadFits update) := fun update member =>
    let ⟨counts, enough, few⟩ := (regular symbols).updates update member
    counts.exact_iff enough few
  refine ⟨receiver, reports, ran, ?_, (regular symbols).few, forall₂_congr exact_, ?_⟩
  · rintro rfl
    rw [run_withDetector counting_simulates, ran]
    rfl
  · rintro eight update member
    have short : ∀ call ∈ calls, call.2.length / samplesPerSymbol ≤ 16384 := by
      intro call member
      have size := transfers call member
      subst eight
      omega
    exact (exact_ update member).mpr (spreadFits_of_short (by decide) (regular short) update member)

/-- One buffer of the largest samples, with 8 samples a symbol. -/
theorem statistics_exact_largest :
    ∃ (receiver : Receiver idealPlatform (countingBaseband (ownOutcomes : Outcomes ℝ 8)))
      (reports : List (CallReport ℝ 8)),
      run Receiver.detectFrames .initial [(0, List.replicate 131072 ⟨127, 127⟩)] =
          some (receiver, reports) ∧
        receiver.frameDetector.detector.n ≤ statsUpdateThreshold ∧
        ∀ update ∈ receiver.frameDetector.updates, StatisticsExact update.1 update.2 := by
  have transfers : ∀ call ∈ [((0 : UInt64), List.replicate 131072 (⟨127, 127⟩ : Sample))],
      call.2.length ≤ 131072 := by
    intro call member
    rw [List.mem_singleton.mp member, List.length_replicate]
  obtain ⟨receiver, reports, ran, -, few, -, exact_⟩ :=
    statistics_exact_iff (Or.inr rfl) idealPlatform ownOutcomes _ transfers
  exact ⟨receiver, reports, ran, few, exact_ rfl⟩

end Runs

/-! ### A carrier that swings -/

section Carrier

omit [NeZero samplesPerSymbol] in
theorem symbolOf_replicate (sample : Sample) {length k : Nat}
    (inside : (k + 1) * samplesPerSymbol ≤ length) :
    symbolOf samplesPerSymbol (List.replicate length sample) k = fun _ => sample := by
  funext i
  have below : k * samplesPerSymbol + i < length := by
    have slot := i.isLt
    rw [Nat.succ_mul] at inside
    omega
  rw [symbolOf, sampleOf, List.getD_eq_getElem _ _ (by rwa [List.length_replicate]),
    List.getElem_replicate]

omit [NeZero samplesPerSymbol] in
/-- The symbols of a buffer with one sample all along. -/
theorem symbols_replicate (sample : Sample) (length : Nat) :
    (List.range (length / samplesPerSymbol)).map
        (symbolOf samplesPerSymbol (List.replicate length sample)) =
      List.replicate (length / samplesPerSymbol) fun _ => sample := by
  rw [List.eq_replicate_iff, List.length_map, List.length_range]
  refine ⟨rfl, fun symbol member => ?_⟩
  obtain ⟨k, below, rfl⟩ := List.mem_map.mp member
  exact symbolOf_replicate sample
    ((Nat.mul_le_mul_right _ (List.mem_range.mp below)).trans (Nat.div_mul_le_self _ _))

variable [Field R] [LinearOrder R] [IsStrictOrderedRing R] {platform : Platform R}

/-- A carrier is no preamble, and it goes on as it is. -/
theorem carrier_quiet {counting : CountingDetector R samplesPerSymbol} {sample : Sample}
    (steady : Steady counting.detector) (agrees : Agrees counting.detector fun _ => sample) :
    ((countingBaseband ownOutcomes).processBaseband counting fun _ => sample).2 = none ∧
      Steady (counting.countSymbol fun _ => sample).detector ∧
      Agrees (counting.countSymbol fun _ => sample).detector fun _ => sample := by
  have processed := steady.processBaseband agrees
  rw [countingBaseband_processBaseband, CountingDetector.countSymbol_detector, ownOutcomes]
  dsimp only
  exact ⟨processed.1, processed.2, agrees_repeated _ _⟩

theorem carrier_steady {counting : CountingDetector R samplesPerSymbol} {sample : Sample}
    (steady : Steady counting.detector) (agrees : Agrees counting.detector fun _ => sample)
    (count : Nat) :
    Steady ((List.replicate count fun _ => sample).foldl CountingDetector.countSymbol
        counting).detector ∧
      Agrees ((List.replicate count fun _ => sample).foldl CountingDetector.countSymbol
        counting).detector fun _ => sample := by
  induction count with
  | zero => exact ⟨steady, agrees⟩
  | succ count inductionHypothesis =>
    rw [List.replicate_succ', List.foldl_append, List.foldl_cons, List.foldl_nil]
    exact (carrier_quiet inductionHypothesis.1 inductionHypothesis.2).2

omit [IsStrictOrderedRing R] in
theorem carrier_lastSamples {counting : CountingDetector R samplesPerSymbol}
    (counts : Counts counting.detector counting.counted) (sample : Sample) {count : Nat}
    (positive : 0 < count) (i : Fin samplesPerSymbol) :
    ((List.replicate count fun _ => sample).foldl CountingDetector.countSymbol
      counting).detector.lastSamples i = sample.toInt - counting.detector.offset := by
  cases count with
  | zero => exact absurd positive (lt_irrefl 0)
  | succ count =>
    rw [List.replicate_succ', List.foldl_append, List.foldl_cons, List.foldl_nil,
      CountingDetector.countSymbol_detector, processBaseband_lastSamples, FrameDetector.centered,
      (countSymbols_given counts _).offset]

/-- A receiver that has seen a carrier only, between two calls. -/
structure Carried (receiver : Receiver platform
    (countingBaseband (ownOutcomes : Outcomes R samplesPerSymbol)))
    (last offset : StdComplex Int) (counted : List (Symbol samplesPerSymbol)) : Prop where
  mode : receiver.frameParseMode = .frameSeek
  counts : Counts receiver.frameDetector.detector receiver.frameDetector.counted
  steady : Steady receiver.frameDetector.detector
  lastSamples : ∀ i, receiver.frameDetector.detector.lastSamples i = last
  offset : receiver.frameDetector.detector.offset = offset
  counted : receiver.frameDetector.counted = counted

omit [IsStrictOrderedRing R] in
theorem Carried.initial :
    Carried (.initial : Receiver platform
      (countingBaseband (ownOutcomes : Outcomes R samplesPerSymbol))) ⟨0, 0⟩ ⟨0, 0⟩ [] where
  mode := rfl
  counts := Counts.initial
  steady := steady_initial
  lastSamples := fun _ => rfl
  offset := rfl
  counted := rfl

variable {receiver :
    Receiver platform (countingBaseband (ownOutcomes : Outcomes R samplesPerSymbol))}
  {last offset : StdComplex Int} {counted : List (Symbol samplesPerSymbol)}

/-- A call with one sample all along, in the direction of the sample before. -/
theorem Carried.call (carried : Carried receiver last offset counted) (sample : Sample)
    (agrees : 0 ≤ ((sample.toInt - offset) * last.conj).re) {length count : Nat}
    (enough : reserveBufferSize samplesPerSymbol ≤ length) (short : length < indexLimit)
    (brought : length / samplesPerSymbol = count) (timestamp : UInt64) :
    ∃ next report after,
      receiver.detectFrames (timestamp, List.replicate length sample) = some (next, report) ∧
      next.frameParseMode = .frameSeek ∧
      next.frameDetector = CountingDetector.updateStatistics after ∧
      Given receiver.frameDetector after (List.replicate count fun _ => sample) ∧
      after.detector.n = counted.length + count ∧
      Steady after.detector ∧ ∀ i, after.detector.lastSamples i = sample.toInt - offset := by
  have agreesFirst : Agrees receiver.frameDetector.detector fun _ => sample := by
    intro i
    rw [FrameDetector.centered, carried.lastSamples, carried.offset]
    exact agrees
  have quiet (k : Nat) (inside : (k + 1) * samplesPerSymbol ≤ (List.replicate length sample).length)
      (counting : CountingDetector R samplesPerSymbol)
      (before : Steady counting.detector ∧ Agrees counting.detector fun _ => sample) :
      ((countingBaseband ownOutcomes).processBaseband counting
          (symbolOf samplesPerSymbol (List.replicate length sample) k)).2 = none ∧
        Steady (counting.countSymbol
          (symbolOf samplesPerSymbol (List.replicate length sample) k)).detector ∧
        Agrees (counting.countSymbol
          (symbolOf samplesPerSymbol (List.replicate length sample) k)).detector
          fun _ => sample := by
    rw [List.length_replicate] at inside
    rw [symbolOf_replicate sample inside]
    exact carrier_quiet before.1 before.2
  obtain ⟨next, report, called, mode, detector⟩ :=
    detectFrames_quiet (by rwa [List.length_replicate]) (by rwa [List.length_replicate]) quiet
      carried.mode ⟨carried.steady, agreesFirst⟩ timestamp
  rw [List.length_replicate, symbols_replicate, brought] at detector
  have given := countSymbols_given carried.counts (List.replicate count fun _ => sample)
  have size := given.counts.n
  rw [given.counted, carried.counted, List.length_append, List.length_replicate] at size
  have positive : 0 < count := brought ▸
    Nat.div_pos ((Nat.le_mul_of_pos_left _ (by decide)).trans enough) (NeZero.pos _)
  have lastSamples := carrier_lastSamples carried.counts sample positive
  rw [carried.offset] at lastSamples
  exact ⟨next, report, _, called, mode, detector, given, size,
    (carrier_steady carried.steady agreesFirst _).1, lastSamples⟩

/-- A call that does not bring enough symbols for an update. -/
theorem Carried.few (carried : Carried receiver last offset counted) (sample : Sample)
    (agrees : 0 ≤ ((sample.toInt - offset) * last.conj).re) {length count : Nat}
    (enough : reserveBufferSize samplesPerSymbol ≤ length) (short : length < indexLimit)
    (brought : length / samplesPerSymbol = count)
    (few : counted.length + count ≤ statsUpdateThreshold) (timestamp : UInt64) :
    ∃ next report,
      receiver.detectFrames (timestamp, List.replicate length sample) = some (next, report) ∧
      Carried next (sample.toInt - offset) offset
        (counted ++ List.replicate count fun _ => sample) := by
  obtain ⟨next, report, after, called, mode, updated, given, size, steady, lastSamples⟩ :=
    carried.call sample agrees enough short brought timestamp
  rw [CountingDetector.updateStatistics, if_neg (by omega)] at updated
  refine ⟨next, report, called, mode, ?_, ?_, ?_, ?_, ?_⟩ <;> rw [updated]
  · exact given.counts
  · exact steady
  · exact lastSamples
  · exact given.offset.trans carried.offset
  · rw [given.counted, carried.counted]

/-- A call that brings enough symbols for an update. -/
theorem Carried.many (carried : Carried receiver last offset counted) (sample : Sample)
    (agrees : 0 ≤ ((sample.toInt - offset) * last.conj).re) {length count : Nat}
    (enough : reserveBufferSize samplesPerSymbol ≤ length) (short : length < indexLimit)
    (brought : length / samplesPerSymbol = count)
    (many : statsUpdateThreshold < counted.length + count) (timestamp : UInt64) :
    ∃ next report,
      receiver.detectFrames (timestamp, List.replicate length sample) = some (next, report) ∧
      Carried next (sample.toInt - offset)
        ((sumOf (counted ++ List.replicate count fun _ => sample)).map fun sum =>
          FrameDetector.castInt8 (sum.tdiv (counted.length + count : Nat))) [] ∧
      ∃ update ∈ next.frameDetector.updates,
        Counts update.1 update.2 ∧ update.1.n = counted.length + count ∧
          update.1.offset = offset ∧
          update.2 = counted ++ List.replicate count fun _ => sample := by
  obtain ⟨next, report, after, called, mode, updated, given, size, steady, lastSamples⟩ :=
    carried.call sample agrees enough short brought timestamp
  have all := given.counted
  rw [carried.counted] at all
  rw [← size] at many
  rw [CountingDetector.updateStatistics, if_pos many] at updated
  refine ⟨next, report, called, ⟨mode, ?_, ?_, ?_, ?_, ?_⟩, ?_⟩ <;> rw [updated]
  · exact Counts.update many
  · exact steady.updateStatistics
  · intro i
    rw [← lastSamples i, FrameDetector.updateStatistics, if_pos many]
    rfl
  · rw [FrameDetector.updateStatistics, if_pos many, FrameDetector.resetStatisticsCounters]
    dsimp only
    rw [given.counts.s1, all, size]
  · exact ⟨_, List.mem_append_right _ (List.mem_singleton_self _), given.counts, size,
      given.offset.trans carried.offset, all⟩

end Carrier

theorem sumOf_carrier (sample : Sample) (count : Nat) :
    sumOf (List.replicate count fun _ : Fin samplesPerSymbol => sample) =
      ⟨count * sample.toInt.re, count * sample.toInt.im⟩ := by
  rw [sumOf, List.map_replicate, List.map_replicate, List.sum_replicate, List.sum_replicate,
    nsmul_eq_mul, nsmul_eq_mul]

theorem spread_carrier (offset : StdComplex Int) (first second : Sample)
    (some_ more : Nat) :
    spread offset ((List.replicate some_ fun _ : Fin samplesPerSymbol => first) ++
        List.replicate more fun _ => second) =
      some_ * (first.toInt - offset).norm + more * (second.toInt - offset).norm := by
  rw [spread, List.map_append, List.sum_append, List.map_replicate, List.map_replicate,
    List.sum_replicate, List.sum_replicate, nsmul_eq_mul, nsmul_eq_mul]

/-- A carrier at one end that becomes the offset, and then a buffer at the other end. -/
def swingingCalls : List (UInt64 × List Sample) :=
  [(0, List.replicate 10000 ⟨127, 127⟩), (1, List.replicate 100 ⟨127, 127⟩),
    (2, List.replicate 131072 ⟨-128, -128⟩)]

/-- The third buffer brings 65536 symbols, each 255 from the offset in both parts. -/
theorem statistics_overflow :
    (∀ call ∈ swingingCalls, call.2.length ≤ 131072) ∧
      ∃ (receiver : Receiver idealPlatform (countingBaseband (ownOutcomes : Outcomes ℝ 2)))
        (reports : List (CallReport ℝ 2)),
        run Receiver.detectFrames .initial swingingCalls = some (receiver, reports) ∧
          ∃ update ∈ receiver.frameDetector.updates, ¬ StatisticsExact update.1 update.2 := by
  constructor
  · simp only [swingingCalls, List.forall_mem_cons, List.length_replicate]
    decide
  have start : Carried (.initial : Receiver idealPlatform
      (countingBaseband (ownOutcomes : Outcomes ℝ 2))) ⟨0, 0⟩ ⟨0, 0⟩ [] := Carried.initial
  obtain ⟨first, firstReport, firstCalled, carried, -⟩ :=
    start.many ⟨127, 127⟩ (by decide) (by decide) (by decide) (show 10000 / 2 = 5000 from rfl)
      (by decide) 0
  have offset : (StdComplex.mk ((5000 : Nat) * (Sample.toInt ⟨127, 127⟩).re)
      ((5000 : Nat) * (Sample.toInt ⟨127, 127⟩).im)).map
        (fun sum => FrameDetector.castInt8 (sum.tdiv (0 + 5000 : Nat))) = ⟨127, 127⟩ := by decide
  rw [List.nil_append, List.length_nil, sumOf_carrier, offset] at carried
  obtain ⟨second, secondReport, secondCalled, carried⟩ :=
    carried.few ⟨127, 127⟩ (by decide) (by decide) (by decide) (show 100 / 2 = 50 from rfl)
      (by decide) 1
  rw [List.nil_append] at carried
  obtain ⟨third, thirdReport, thirdCalled, -, update, member, counts, n, offset, counted⟩ :=
    carried.many ⟨-128, -128⟩ (by decide) (by decide) (by decide) (show 131072 / 2 = 65536 from rfl)
      (by rw [List.length_replicate]; decide) 2
  rw [List.length_replicate] at n
  have leads : Leads Receiver.detectFrames _ swingingCalls third :=
    .cons firstCalled (.cons secondCalled (.cons thirdCalled (.nil third)))
  obtain ⟨reports, ran⟩ := leads
  refine ⟨third, reports, ran, update, member, ?_⟩
  rw [counts.exact_iff (by rw [n]; decide) (by rw [n]; decide), offset, counted, spread_carrier]
  decide

end OpenStint
