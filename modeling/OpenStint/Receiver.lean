/-
This file models `detect_frames` of `commons.cpp`: the state machine that looks for a
preamble, waits for the symbol behind it, and reads the frame, one receive buffer after
another. The detector is any machine with the interface of `FrameDetector`, so the results
hold for every pattern of detections.

`uint32_t idx` and `int end` are unbounded here, which is exact below 2^31 samples. A call
with more of them is undefined: `update_reserve_buffer` gets a negative `end` and reads in
front of the buffer, or `idx` wraps and the loop does not end. The receivers count the bytes
of a buffer in 32 bits, two for each sample, and stay below.
-/

import OpenStint.FrameDetector
import OpenStint.SymbolReader

namespace OpenStint

open Machine

variable {R : Type} {samplesPerSymbol : Nat}

/-! ### The receiver -/

/-- The detector, as `detect_frames` uses it. -/
structure Baseband (R : Type) (samplesPerSymbol : Nat) where
  Detector : Type
  initial : Detector
  processBaseband : Detector → Symbol samplesPerSymbol → Detector × Option (DetectionResult R)
  updateStatistics : Detector → Detector
  resetStatisticsCounters : Detector → Detector
  dcOffset : Detector → StdComplex R
  noiseEnergy : Detector → R

/-- The detector of the receiver. -/
def frameDetectorBaseband [Field R] [LinearOrder R] [NeZero samplesPerSymbol] :
    Baseband R samplesPerSymbol where
  Detector := FrameDetector R samplesPerSymbol
  initial := .initial
  processBaseband := FrameDetector.processBaseband
  updateStatistics := FrameDetector.updateStatistics
  resetStatisticsCounters := FrameDetector.resetStatisticsCounters
  dcOffset := FrameDetector.dcOffset
  noiseEnergy := FrameDetector.noiseEnergy

inductive FrameParseMode
  | frameSeek
  | frameWait
  | frameFound
  deriving DecidableEq, Repr

/-- The static variables of `detect_frames`. -/
structure Receiver (platform : Platform R) (baseband : Baseband R samplesPerSymbol) where
  frameParseMode : FrameParseMode
  pendingTrail : Int
  frameDetector : baseband.Detector
  symbolReader : SymbolReader platform
  frame : Frame R
  timecode : Nat

/-- What happens to frames: a detection, with the symbol the detector was given, and a call
of `process_frame`. -/
inductive FrameEvent (R : Type) (samplesPerSymbol : Nat)
  | detected (symbol : Symbol samplesPerSymbol) (frame : Frame R)
  | processed (frame : Frame R)

/-- What one call of `detect_frames` passes on: its frame events, and the characteristics of
the channel if it saves them. -/
structure CallReport (R : Type) (samplesPerSymbol : Nat) where
  events : List (FrameEvent R samplesPerSymbol)
  channel : Option (StdComplex R × R)

/-- The samples that `int end` can count. -/
def indexLimit : Nat := 2 ^ 31

/-- `SAMPLE_RATE` -/
def sampleRate (samplesPerSymbol : Nat) : UInt64 := 1250000 * .ofNat samplesPerSymbol

namespace Receiver

variable [Field R] {platform : Platform R} {baseband : Baseband R samplesPerSymbol}

def initial : Receiver platform baseband where
  frameParseMode := .frameSeek
  pendingTrail := 0
  frameDetector := baseband.initial
  symbolReader := .initial samplesPerSymbol
  frame := .empty
  timecode := 0

/-- One turn of the loop of `detect_frames`, at symbol `k` of the buffer. The flag is
`frame_detected`. Nothing reads a frame after `process_frame`, which may invert its softbits. -/
def receiveSymbol (timestamp : UInt64) (samples : List Sample)
    (state : Receiver platform baseband × Bool) (k : Nat) :
    Option ((Receiver platform baseband × Bool) × List (FrameEvent R samplesPerSymbol)) :=
  let receiver := state.1
  let frameDetected := state.2
  let idx := k * samplesPerSymbol
  let dcOffset := baseband.dcOffset receiver.frameDetector
  match receiver.frameParseMode with
  | .frameSeek => do
    let symbol ← readSymbolAt samplesPerSymbol samples idx
    match baseband.processBaseband receiver.frameDetector symbol with
    | (frameDetector, none) => return (({ receiver with frameDetector }, frameDetected), [])
    | (frameDetector, some (protocol, metric)) =>
      let frame := .detected protocol metric
        (timestamp + .ofNat idx * 1000000 / sampleRate samplesPerSymbol) (receiver.timecode + idx)
      return (({ receiver with
        frameDetector, frame, frameParseMode := .frameWait, pendingTrail := fseqHalflen }, true),
        [.detected symbol frame])
  | .frameWait =>
    let pendingTrail := receiver.pendingTrail - 1
    if pendingTrail = 0 then do
      let end_ : Nat := idx + samplesPerSymbol
      let (symbolReader, frame) ←
        receiver.symbolReader.trainPreamble samplesPerSymbol receiver.frame samples end_ dcOffset
      let (symbolReader, frame) ←
        symbolReader.readPreamble samplesPerSymbol frame samples end_ dcOffset
      return (({ receiver with
        symbolReader, frame, pendingTrail, frameParseMode := .frameFound }, frameDetected), [])
    else return (({ receiver with pendingTrail }, frameDetected), [])
  | .frameFound => do
    let (symbolReader, frame) ←
      receiver.symbolReader.readSymbol samplesPerSymbol receiver.frame samples idx dcOffset
    if isFrameComplete frame then
      return (({ receiver with symbolReader, frame, frameParseMode := .frameSeek }, frameDetected),
        [.processed frame])
    else return (({ receiver with symbolReader, frame }, frameDetected), [])

/-- One call of `detect_frames`, with the time it reads and the samples it is given. -/
def detectFrames (receiver : Receiver platform baseband) (call : UInt64 × List Sample) :
    Option (Receiver platform baseband × CallReport R samplesPerSymbol) :=
  let (timestamp, samples) := call
  if samples.length < reserveBufferSize samplesPerSymbol then
    some ({ receiver with timecode := receiver.timecode + samples.length }, ⟨[], none⟩)
  else if indexLimit ≤ samples.length then
    none
  else do
    let ((receiver, frameDetected), events) ←
      run (receiveSymbol timestamp samples) (receiver, false)
        (List.range (samples.length / samplesPerSymbol))
    let symbolReader ←
      receiver.symbolReader.updateReserveBuffer samplesPerSymbol samples samples.length
    let receiver := { receiver with timecode := receiver.timecode + samples.length, symbolReader }
    if frameDetected then
      return ({ receiver with
        frameDetector := baseband.resetStatisticsCounters receiver.frameDetector },
        ⟨events.flatten, none⟩)
    else
      let frameDetector := baseband.updateStatistics receiver.frameDetector
      let channel := (baseband.dcOffset frameDetector, baseband.noiseEnergy frameDetector)
      return ({ receiver with frameDetector }, ⟨events.flatten, some channel⟩)

end Receiver

/-! ### One turn of the loop -/

section Turn

variable [Field R] {platform : Platform R} {baseband : Baseband R samplesPerSymbol}
  {samples : List Sample} {k : Nat} {receiver : Receiver platform baseband}

/-- In `FRAME_SEEK` the detector is given the symbol. -/
theorem receiveSymbol_quiet (mode : receiver.frameParseMode = .frameSeek)
    {symbol : Symbol samplesPerSymbol}
    (read : readSymbolAt samplesPerSymbol samples (k * samplesPerSymbol : Nat) = some symbol)
    {frameDetector : baseband.Detector}
    (quiet : baseband.processBaseband receiver.frameDetector symbol = (frameDetector, none))
    (timestamp : UInt64) (flag : Bool) :
    Receiver.receiveSymbol timestamp samples (receiver, flag) k =
      some (({ receiver with frameDetector }, flag), []) := by
  simp only [Receiver.receiveSymbol, mode, read, Option.bind_eq_bind, Option.bind_some, quiet]
  rfl

/-- A frame that the detector finds is waited for. -/
theorem receiveSymbol_detects (mode : receiver.frameParseMode = .frameSeek)
    {symbol : Symbol samplesPerSymbol}
    (read : readSymbolAt samplesPerSymbol samples (k * samplesPerSymbol : Nat) = some symbol)
    {frameDetector : baseband.Detector} {result : DetectionResult R}
    (found : baseband.processBaseband receiver.frameDetector symbol = (frameDetector, some result))
    {timestamp : UInt64} {frame : Frame R}
    (stamped : frame = .detected result.1 result.2
      (timestamp + .ofNat (k * samplesPerSymbol) * 1000000 / sampleRate samplesPerSymbol)
      (receiver.timecode + k * samplesPerSymbol)) (flag : Bool) :
    Receiver.receiveSymbol timestamp samples (receiver, flag) k =
      some (({ receiver with
        frameDetector, frame, frameParseMode := .frameWait, pendingTrail := fseqHalflen }, true),
        [.detected symbol frame]) := by
  subst stamped
  simp only [Receiver.receiveSymbol, mode, read, Option.bind_eq_bind, Option.bind_some, found]
  rfl

/-- In `FRAME_WAIT` the reader is trained on the 18 symbols that end with this one, and fed
them. -/
theorem receiveSymbol_trains (mode : receiver.frameParseMode = .frameWait)
    (trail : receiver.pendingTrail = 1) {stream : List Sample} {first : Nat}
    (looksBack : LooksBack samplesPerSymbol receiver.symbolReader samples stream
      ((k + 1) * samplesPerSymbol) first) (timestamp : UInt64) (flag : Bool) :
    ∃ symbolReader frame, Receiver.receiveSymbol timestamp samples (receiver, flag) k =
        some (({ receiver with
          symbolReader, frame, pendingTrail := 0, frameParseMode := .frameFound }, flag), []) ∧
      Fed samplesPerSymbol stream first receiver.frame (symbolReader, frame)
        preambleSymbolCount ∧
      symbolReader.reserveBuffer = receiver.symbolReader.reserveBuffer := by
  let dcOffset := baseband.dcOffset receiver.frameDetector
  obtain ⟨⟨trainedReader, trainedFrame⟩, trains, trained, kept⟩ :=
    trainPreamble_fed looksBack receiver.frame dcOffset
  obtain ⟨⟨reader, frame⟩, reads, fed, same⟩ :=
    readPreamble_fed (looksBack.of_reserve kept) trained dcOffset
  have end_ : k * samplesPerSymbol + samplesPerSymbol = (k + 1) * samplesPerSymbol := by
    rw [Nat.succ_mul]
  refine ⟨reader, frame, ?_, fed, same.trans kept⟩
  simp only [Receiver.receiveSymbol, mode, trail]
  rw [if_pos (by rfl), end_, trains, Option.bind_eq_bind, Option.bind_some]
  dsimp only
  rw [reads, Option.bind_some]
  rfl

/-- In `FRAME_FOUND` the reader is fed the symbol, and a complete frame is processed. -/
theorem receiveSymbol_feeds (mode : receiver.frameParseMode = .frameFound)
    {fed : SymbolReader platform × Frame R}
    (reads : receiver.symbolReader.readSymbol samplesPerSymbol receiver.frame samples
      (k * samplesPerSymbol : Nat) (baseband.dcOffset receiver.frameDetector) = some fed)
    (timestamp : UInt64) (flag : Bool) :
    Receiver.receiveSymbol timestamp samples (receiver, flag) k =
      if isFrameComplete fed.2 then
        some (({ receiver with
          symbolReader := fed.1, frame := fed.2, frameParseMode := .frameSeek }, flag),
          [.processed fed.2])
      else some (({ receiver with symbolReader := fed.1, frame := fed.2 }, flag), []) := by
  simp only [Receiver.receiveSymbol, mode]
  rw [reads, Option.bind_eq_bind, Option.bind_some]
  split <;> rfl

end Turn

/-! ### Places in a buffer -/

theorem sampleOf_drop (stream : List Sample) (dropped index : Nat) :
    sampleOf (stream.drop dropped) index = sampleOf stream (dropped + index) := by
  rw [sampleOf, sampleOf, List.getD_eq_getElem?_getD, List.getD_eq_getElem?_getD,
    List.getElem?_drop]

theorem prefix_range {past : List Nat} {k turns : Nat} (inside : past ++ [k] <+: List.range turns) :
    k = past.length ∧ k < turns := by
  have long := inside.length_le
  rw [List.length_append, List.length_singleton, List.length_range] at long
  have turn := inside.getElem (i := past.length) (by simp)
  rw [List.getElem_concat_length rfl, List.getElem_range] at turn
  exact ⟨turn, turn ▸ long⟩

end OpenStint
