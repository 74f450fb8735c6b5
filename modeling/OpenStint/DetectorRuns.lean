/-
This file is about what `detect_frames` does with its detector. A call hands it some symbols
of the buffer, in `FRAME_SEEK` only, and at the end either clears its counters or updates the
statistics; the rest of the receiver is not the detector's business.

So a detector can be exchanged for one that remembers more, as long as the two answer alike:
a run of the one is a run of the other, with the additional memory left out.
-/

import OpenStint.Receiver

namespace OpenStint

open Machine

variable {R : Type} {samplesPerSymbol : Nat} [Field R] {platform : Platform R}

/-! ### Two detectors -/

/-- A detector that does what another one does, seen through a map of the states. -/
structure Baseband.Simulates (first second : Baseband R samplesPerSymbol)
    (view : first.Detector → second.Detector) : Prop where
  initial : second.initial = view first.initial
  processBaseband : ∀ detector symbol, second.processBaseband (view detector) symbol =
    Prod.map view id (first.processBaseband detector symbol)
  updateStatistics : ∀ detector,
    second.updateStatistics (view detector) = view (first.updateStatistics detector)
  resetStatisticsCounters : ∀ detector,
    second.resetStatisticsCounters (view detector) = view (first.resetStatisticsCounters detector)
  dcOffset : ∀ detector, second.dcOffset (view detector) = first.dcOffset detector
  noiseEnergy : ∀ detector, second.noiseEnergy (view detector) = first.noiseEnergy detector

section Simulation

variable {first second : Baseband R samplesPerSymbol} {view : first.Detector → second.Detector}

/-- The receiver with the other detector. -/
def Receiver.withDetector (view : first.Detector → second.Detector)
    (receiver : Receiver platform first) : Receiver platform second where
  frameParseMode := receiver.frameParseMode
  pendingTrail := receiver.pendingTrail
  frameDetector := view receiver.frameDetector
  symbolReader := receiver.symbolReader
  frame := receiver.frame
  timecode := receiver.timecode

theorem receiveSymbol_withDetector (simulates : first.Simulates second view) (timestamp : UInt64)
    (samples : List Sample) (state : Receiver platform first × Bool) (k : Nat) :
    Receiver.receiveSymbol timestamp samples
        (Prod.map (Receiver.withDetector view) id state) k =
      (Receiver.receiveSymbol timestamp samples state k).map
        (Prod.map (Prod.map (Receiver.withDetector view) id) id) := by
  obtain ⟨receiver, flag⟩ := state
  have offset := simulates.dcOffset receiver.frameDetector
  cases mode : receiver.frameParseMode with
  | frameSeek =>
    simp only [Receiver.receiveSymbol, Prod.map, Receiver.withDetector, mode, id]
    cases read : readSymbolAt samplesPerSymbol samples (k * samplesPerSymbol : Nat) with
    | none => rfl
    | some symbol =>
      have answer := simulates.processBaseband receiver.frameDetector symbol
      simp only [Option.bind_eq_bind, Option.bind_some, answer]
      cases first.processBaseband receiver.frameDetector symbol with
      | mk frameDetector detection => cases detection <;> rfl
  | frameWait =>
    simp only [Receiver.receiveSymbol, Prod.map, Receiver.withDetector, mode, id, offset]
    split
    · cases receiver.symbolReader.trainPreamble samplesPerSymbol receiver.frame samples
          (k * samplesPerSymbol + samplesPerSymbol : Nat)
          (first.dcOffset receiver.frameDetector) with
      | none => rfl
      | some trained =>
        simp only [Option.bind_eq_bind, Option.bind_some]
        cases trained.1.readPreamble samplesPerSymbol trained.2 samples
            (k * samplesPerSymbol + samplesPerSymbol : Nat)
            (first.dcOffset receiver.frameDetector) <;> rfl
    · rfl
  | frameFound =>
    simp only [Receiver.receiveSymbol, Prod.map, Receiver.withDetector, mode, id, offset]
    cases receiver.symbolReader.readSymbol samplesPerSymbol receiver.frame samples
        (k * samplesPerSymbol : Nat) (first.dcOffset receiver.frameDetector) with
    | none => rfl
    | some fed =>
      simp only [Option.bind_eq_bind, Option.bind_some]
      split <;> rfl

theorem detectFrames_withDetector (simulates : first.Simulates second view)
    (receiver : Receiver platform first) (call : UInt64 × List Sample) :
    (receiver.withDetector view).detectFrames call =
      (receiver.detectFrames call).map (Prod.map (Receiver.withDetector view) id) := by
  obtain ⟨timestamp, samples⟩ := call
  by_cases dropped : samples.length < reserveBufferSize samplesPerSymbol
  · rw [Receiver.detectFrames, Receiver.detectFrames]
    dsimp only
    rw [if_pos dropped, if_pos dropped]
    rfl
  by_cases long : indexLimit ≤ samples.length
  · simp only [Receiver.detectFrames, if_neg dropped, if_pos long, Option.map_none]
  · have turn (state : Receiver platform first × Bool) (k : Nat) :=
      receiveSymbol_withDetector simulates timestamp samples state k
    have loop := run_map turn (receiver, false) (List.range (samples.length / samplesPerSymbol))
    rw [Prod.map_apply, id] at loop
    simp only [Receiver.detectFrames, if_neg dropped, if_neg long, loop]
    cases run (Receiver.receiveSymbol timestamp samples) (receiver, false)
        (List.range (samples.length / samplesPerSymbol)) with
    | none => rfl
    | some reached =>
      obtain ⟨⟨last, frameDetected⟩, events⟩ := reached
      simp only [Option.bind_eq_bind, Option.bind_some, Option.map_some, Prod.map_apply, id,
        Receiver.withDetector]
      cases last.symbolReader.updateReserveBuffer samplesPerSymbol samples samples.length with
      | none => rfl
      | some symbolReader =>
        cases frameDetected with
        | true =>
          simp only [simulates.resetStatisticsCounters]
          rfl
        | false =>
          simp only [simulates.updateStatistics, simulates.dcOffset, simulates.noiseEnergy]
          rfl

/-- A run of the one receiver is a run of the other, with the same reports. -/
theorem run_withDetector (simulates : first.Simulates second view)
    (calls : List (UInt64 × List Sample)) :
    run Receiver.detectFrames (.initial : Receiver platform second) calls =
      (run Receiver.detectFrames (.initial : Receiver platform first) calls).map
        (Prod.map (Receiver.withDetector view) id) := by
  have start : (.initial : Receiver platform second) =
      (Receiver.initial : Receiver platform first).withDetector view := by
    rw [Receiver.withDetector, Receiver.initial, Receiver.initial, simulates.initial]
  rw [start]
  exact run_map (detectFrames_withDetector simulates) _ calls

end Simulation

/-! ### What a call does -/

section Calls

variable {baseband : Baseband R samplesPerSymbol}

/-- The detector after some symbols. -/
def Baseband.processAll (baseband : Baseband R samplesPerSymbol) (detector : baseband.Detector)
    (symbols : List (Symbol samplesPerSymbol)) : baseband.Detector :=
  symbols.foldl (fun detector symbol => (baseband.processBaseband detector symbol).1) detector

omit [Field R] in
theorem Baseband.processAll_append (baseband : Baseband R samplesPerSymbol)
    (detector : baseband.Detector) (first second : List (Symbol samplesPerSymbol)) :
    baseband.processAll detector (first ++ second) =
      baseband.processAll (baseband.processAll detector first) second := List.foldl_append

/-- A turn hands the detector one symbol or none. -/
theorem receiveSymbol_detector {timestamp : UInt64} {samples : List Sample}
    {state next : Receiver platform baseband × Bool} {k : Nat}
    {events : List (FrameEvent R samplesPerSymbol)}
    (stepped : Receiver.receiveSymbol timestamp samples state k = some (next, events)) :
    ∃ symbols, symbols.length ≤ 1 ∧
      next.1.frameDetector = baseband.processAll state.1.frameDetector symbols := by
  obtain ⟨receiver, flag⟩ := state
  cases mode : receiver.frameParseMode with
  | frameSeek =>
    simp only [Receiver.receiveSymbol, mode, Option.bind_eq_bind] at stepped
    obtain ⟨symbol, -, stepped⟩ := Option.bind_eq_some_iff.mp stepped
    refine ⟨[symbol], le_rfl, ?_⟩
    rw [Baseband.processAll, List.foldl_cons, List.foldl_nil]
    cases outcome : baseband.processBaseband receiver.frameDetector symbol with
    | mk frameDetector detection =>
      rw [outcome] at stepped
      cases detection <;>
      · obtain ⟨rfl, -⟩ := Prod.mk.inj (Option.some.inj stepped)
        rfl
  | frameWait =>
    refine ⟨[], Nat.zero_le _, ?_⟩
    simp only [Receiver.receiveSymbol, mode, Option.bind_eq_bind] at stepped
    split at stepped
    · obtain ⟨trained, -, stepped⟩ := Option.bind_eq_some_iff.mp stepped
      obtain ⟨read, -, stepped⟩ := Option.bind_eq_some_iff.mp stepped
      obtain ⟨rfl, -⟩ := Prod.mk.inj (Option.some.inj stepped)
      rfl
    · obtain ⟨rfl, -⟩ := Prod.mk.inj (Option.some.inj stepped)
      rfl
  | frameFound =>
    refine ⟨[], Nat.zero_le _, ?_⟩
    simp only [Receiver.receiveSymbol, mode, Option.bind_eq_bind] at stepped
    obtain ⟨fed, -, stepped⟩ := Option.bind_eq_some_iff.mp stepped
    split at stepped <;>
    · obtain ⟨rfl, -⟩ := Prod.mk.inj (Option.some.inj stepped)
      rfl

theorem loop_detector {timestamp : UInt64} {samples : List Sample}
    {state last : Receiver platform baseband × Bool} {indices : List Nat}
    {answers : List (List (FrameEvent R samplesPerSymbol))}
    (ran : run (Receiver.receiveSymbol timestamp samples) state indices = some (last, answers)) :
    ∃ symbols, symbols.length ≤ indices.length ∧
      last.1.frameDetector = baseband.processAll state.1.frameDetector symbols := by
  induction indices generalizing state answers with
  | nil =>
    obtain ⟨rfl, -⟩ := Prod.mk.inj (Option.some.inj ran)
    exact ⟨[], le_rfl, rfl⟩
  | cons k rest inductionHypothesis =>
    rw [run] at ran
    obtain ⟨⟨next, events⟩, stepped, ran⟩ := Option.bind_eq_some_iff.mp ran
    obtain ⟨⟨reached, later⟩, ranRest, same⟩ := Option.map_eq_some_iff.mp ran
    obtain ⟨rfl, -⟩ := Prod.mk.inj same
    obtain ⟨first, short, firstDetector⟩ := receiveSymbol_detector stepped
    obtain ⟨more, moreShort, detector⟩ := inductionHypothesis ranRest
    refine ⟨first ++ more, ?_, ?_⟩
    · rw [List.length_append, List.length_cons]
      omega
    · rw [detector, firstDetector, Baseband.processAll_append]

/-- A call leaves the detector alone when the buffer is dropped. Otherwise it hands it some of
the symbols and clears the counters or updates the statistics. -/
theorem detectFrames_detector {receiver next : Receiver platform baseband}
    {call : UInt64 × List Sample} {report : CallReport R samplesPerSymbol}
    (called : receiver.detectFrames call = some (next, report)) :
    next.frameDetector = receiver.frameDetector ∨
      ∃ symbols, symbols.length ≤ call.2.length / samplesPerSymbol ∧
        (next.frameDetector = baseband.resetStatisticsCounters
            (baseband.processAll receiver.frameDetector symbols) ∨
          next.frameDetector = baseband.updateStatistics
            (baseband.processAll receiver.frameDetector symbols)) := by
  obtain ⟨timestamp, samples⟩ := call
  by_cases dropped : samples.length < reserveBufferSize samplesPerSymbol
  · rw [Receiver.detectFrames] at called
    dsimp only at called
    rw [if_pos dropped] at called
    obtain ⟨rfl, -⟩ := Prod.mk.inj (Option.some.inj called)
    exact Or.inl rfl
  by_cases long : indexLimit ≤ samples.length
  · simp only [Receiver.detectFrames, if_neg dropped, if_pos long, reduceCtorEq] at called
  · simp only [Receiver.detectFrames, if_neg dropped, if_neg long, Option.bind_eq_bind] at called
    obtain ⟨⟨⟨last, frameDetected⟩, events⟩, ran, called⟩ := Option.bind_eq_some_iff.mp called
    obtain ⟨symbolReader, -, called⟩ := Option.bind_eq_some_iff.mp called
    obtain ⟨symbols, short, detector⟩ := loop_detector ran
    rw [List.length_range] at short
    refine Or.inr ⟨symbols, short, ?_⟩
    rw [← detector]
    cases frameDetected with
    | true =>
      obtain ⟨rfl, -⟩ := Prod.mk.inj (Option.some.inj called)
      exact Or.inl rfl
    | false =>
      obtain ⟨rfl, -⟩ := Prod.mk.inj (Option.some.inj called)
      exact Or.inr rfl

/-- A property of the detector that calls keep, up to a number of symbols in a buffer, holds
after every run. -/
theorem run_detector {Invariant : baseband.Detector → Prop} {limit : Nat}
    (preserved : ∀ detector symbols, symbols.length ≤ limit → Invariant detector →
      Invariant (baseband.resetStatisticsCounters (baseband.processAll detector symbols)) ∧
        Invariant (baseband.updateStatistics (baseband.processAll detector symbols)))
    {receiver last : Receiver platform baseband} (initial : Invariant receiver.frameDetector)
    {calls : List (UInt64 × List Sample)} {reports : List (CallReport R samplesPerSymbol)}
    (short : ∀ call ∈ calls, call.2.length / samplesPerSymbol ≤ limit)
    (ran : run Receiver.detectFrames receiver calls = some (last, reports)) :
    Invariant last.frameDetector := by
  induction calls generalizing receiver reports with
  | nil =>
    obtain ⟨rfl, -⟩ := Prod.mk.inj (Option.some.inj ran)
    exact initial
  | cons call rest inductionHypothesis =>
    rw [List.forall_mem_cons] at short
    rw [run] at ran
    obtain ⟨⟨next, report⟩, called, ran⟩ := Option.bind_eq_some_iff.mp ran
    obtain ⟨⟨reached, later⟩, ranRest, same⟩ := Option.map_eq_some_iff.mp ran
    obtain ⟨rfl, -⟩ := Prod.mk.inj same
    refine inductionHypothesis ?_ short.2 ranRest
    rcases detectFrames_detector called with same | ⟨symbols, few, reset | updated⟩
    · exact same ▸ initial
    · rw [reset]
      exact (preserved _ _ (few.trans short.1) initial).1
    · rw [updated]
      exact (preserved _ _ (few.trans short.1) initial).2

/-! ### Calls without a detection -/

/-- Symbols on which the detector stays quiet leave the receiver in `FRAME_SEEK`. -/
theorem loop_quiet {Quiet : baseband.Detector → Prop} {samples : List Sample} {indices : List Nat}
    (quiet : ∀ k ∈ indices, ∀ detector, Quiet detector →
      (baseband.processBaseband detector (symbolOf samplesPerSymbol samples k)).2 = none ∧
        Quiet (baseband.processBaseband detector (symbolOf samplesPerSymbol samples k)).1)
    (inside : ∀ k ∈ indices, (k + 1) * samplesPerSymbol ≤ samples.length)
    {receiver : Receiver platform baseband} (mode : receiver.frameParseMode = .frameSeek)
    (before : Quiet receiver.frameDetector) (timestamp : UInt64) (flag : Bool) :
    ∃ answers, run (Receiver.receiveSymbol timestamp samples) (receiver, flag) indices =
      some (({ receiver with
        frameDetector := baseband.processAll receiver.frameDetector
          (indices.map (symbolOf samplesPerSymbol samples)) }, flag), answers) := by
  induction indices generalizing receiver with
  | nil => exact ⟨[], rfl⟩
  | cons k rest inductionHypothesis =>
    rw [List.forall_mem_cons] at quiet inside
    have within := inside.1
    rw [Nat.succ_mul] at within
    have read : readSymbolAt samplesPerSymbol samples (k * samplesPerSymbol : Nat) =
        some (symbolOf samplesPerSymbol samples k) := readSymbolAt_of_le within
    obtain ⟨silent, after⟩ := quiet.1 _ before
    have stepped := receiveSymbol_quiet mode read (Prod.ext rfl silent) timestamp flag
    let next : Receiver platform baseband := { receiver with
      frameDetector := (baseband.processBaseband receiver.frameDetector
        (symbolOf samplesPerSymbol samples k)).1 }
    have nextMode : next.frameParseMode = .frameSeek := mode
    obtain ⟨answers, ran⟩ := inductionHypothesis quiet.2 inside.2 nextMode after
    refine ⟨[] :: answers, ?_⟩
    rw [run, stepped, Option.bind_some]
    dsimp only
    rw [ran]
    rfl

theorem detectFrames_quiet {Quiet : baseband.Detector → Prop} {samples : List Sample}
    (enough : reserveBufferSize samplesPerSymbol ≤ samples.length)
    (short : samples.length < indexLimit)
    (quiet : ∀ k, (k + 1) * samplesPerSymbol ≤ samples.length → ∀ detector, Quiet detector →
      (baseband.processBaseband detector (symbolOf samplesPerSymbol samples k)).2 = none ∧
        Quiet (baseband.processBaseband detector (symbolOf samplesPerSymbol samples k)).1)
    {receiver : Receiver platform baseband} (mode : receiver.frameParseMode = .frameSeek)
    (before : Quiet receiver.frameDetector) (timestamp : UInt64) :
    ∃ next report, receiver.detectFrames (timestamp, samples) = some (next, report) ∧
      next.frameParseMode = .frameSeek ∧
      next.frameDetector = baseband.updateStatistics (baseband.processAll receiver.frameDetector
        ((List.range (samples.length / samplesPerSymbol)).map
          (symbolOf samplesPerSymbol samples))) := by
  have inside : ∀ k ∈ List.range (samples.length / samplesPerSymbol),
      (k + 1) * samplesPerSymbol ≤ samples.length := fun k member =>
    (Nat.mul_le_mul_right _ (List.mem_range.mp member)).trans (Nat.div_mul_le_self _ _)
  obtain ⟨answers, ran⟩ := loop_quiet (fun k member => quiet k (inside k member)) inside mode before
    timestamp false
  simp only [Receiver.detectFrames, if_neg (not_lt.mpr enough), if_neg (not_le.mpr short), ran,
    updateReserveBuffer_eq enough, Option.bind_eq_bind, Option.bind_some]
  exact ⟨_, _, rfl, mode, rfl⟩

end Calls

end OpenStint
