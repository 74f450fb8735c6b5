/-
This file puts the decoder of `commons.cpp` together. The receiving thread takes each
complete frame through `process_frame`, the main thread goes through `report_detections`
again and again; they share the passing detector, the trainer, the registry and the
counters, each behind a mutex of its own. A run is any order of the critical sections of
the two threads, and what the main thread publishes are the messages of the decoder.

The receiving thread decodes a frame on its own and then enters up to four critical
sections: a lookup in the registry, an entry for the passing detector, one for the trainer,
and the count of the frame. Left alone it does what `processFrame` says, and the parts that
are modelled one by one elsewhere are parts of this machine.
-/

import OpenStint.Counters
import OpenStint.DecoderProtocol
import OpenStint.Learning
import OpenStint.ProcessFrame

namespace OpenStint

open Machine

variable {R : Type}

/-! ### The decoder -/

/-- What the decoder is built on: the platform, the OpenStint codec, the estimate of a passing, how
`std::format` rounds a float to some decimals, and the `-t` flag. -/
structure DecoderConfig (R : Type) where
  platform : Platform R
  codec : OpenstintCodec
  computePassingPoint : List (Detection R) → PassingPoint R
  formatFloat : Nat → R → FixedFloat
  modeSysclk : Bool

/-- What the receiving thread has left to do for a frame. -/
inductive ReceiveStage (R : Type)
  | idle
  | lookup (frame : Frame R) (payload : UInt64)
  | append (frame : Frame R) (transponderId : UInt32) (payload : Option UInt64)
  | timesync (frame : Frame R) (transponderTimestamp : UInt32)
  | train (frame : Frame R) (transponderId : UInt32) (payload : UInt64)
  | register (processed : Bool)

/-- Where the main thread is: in `sleep`, in the status step of `report_detections`, or behind
that, where `LearningState` tells more. -/
inductive MainStage (R : Type)
  | waiting
  | due
  | formatted (report : StatusReport R)
  | detecting

/-- The static variables of `commons.cpp` that `process_frame` and `report_detections` share, and
where the two threads are. The main thread reads both clocks when it enters
`report_detections`. -/
structure Decoder (R : Type) where
  rxStats : RxStatistics R
  learning : LearningState R
  ambrcBlacklist : AmbRcBlacklist
  receiveStage : ReceiveStage R
  mainStage : MainStage R
  now : UInt64
  nowSysclk : UInt64

/-- `init_commons`: the registry is loaded from the storage directory. -/
def Decoder.start [Zero R] (directory : List DirEntry) : Decoder R where
  rxStats := .initial
  learning :=
    { LearningState.initial with
      directory
      rc4Registry := Rc4FileBasedRegistry.initial.resync directory }
  ambrcBlacklist := .initial
  receiveStage := .idle
  mainStage := .waiting
  now := 0
  nowSysclk := 0

/-- What can happen: `detect_frames` calls `process_frame` on a frame, the receiving thread
enters its next critical section or saves the characteristics of the channel, another process
changes the directory, or the main thread enters its next critical section, reading the clocks
if it is the first. -/
inductive DecoderInput (R : Type)
  | frame (frame : Frame R)
  | receive
  | saveChannelCharacteristics (dcOffset : StdComplex R) (noisePower : R)
  | directoryChange (directory : List DirEntry)
  | reportDetections (now nowSysclk : UInt64)

/-- What a critical section did. -/
inductive DecoderReport (R : Type)
  | quiet
  | accepted (frame : Frame R)
  | looked (rc4Payload : UInt64) (found : Option UInt32)
  | hit (frame : Frame R) (transponderId : UInt32)
  | timesync (frame : Frame R) (transponderTimestamp : UInt32)
  | trained (frame : Frame R) (transponderId : UInt32) (rc4Payload : UInt64)
  | registered (processed : Bool)
  | status (now nowSysclk : UInt64) (report : StatusReport R)
  | learning (now nowSysclk : UInt64) (report : LearningReport R)

/-! ### The receiving thread -/

/-- `process_frame` up to its first critical section. -/
def decodeFrame (codec : OpenstintCodec) (ambrcBlacklist : AmbRcBlacklist) (frame : Frame R) :
    AmbRcBlacklist × ReceiveStage R :=
  match frame.bits with
  | (_, none) => (ambrcBlacklist, .register false)
  | (frame, some offset) =>
    let softbits := fun i => frame.data (offset + i)
    match frame.transponderProtocol with
    | .openStint =>
      let decoded := decodeOpenstint codec softbits
      if decoded.ok then
        if decoded.transponderId < 10000000 then
          (ambrcBlacklist, .append frame decoded.transponderId none)
        else if decoded.transponderId &&& 0x00A00000 = 0x00A00000 then
          (ambrcBlacklist, .timesync frame (decoded.transponderId &&& 0x000FFFFF))
        else (ambrcBlacklist, .register true)
      else (ambrcBlacklist, .register false)
    | .rc3 =>
      let decoded := decodeRc3 softbits
      let transponderId := UInt32.ofBitVec decoded.transponderId
      let statusCode := UInt8.ofBitVec decoded.statusCode
      if decoded.ok then
        if transponderId ≥ 10000000 then (ambrcBlacklist, .register (statusCode &&& 0x07 = 0))
        else
          let ambrcBlacklist := ambrcBlacklist.process frame.timestamp statusCode transponderId
          if statusCode = 0xff ∧ ¬ ambrcBlacklist.checkBanned transponderId then
            (ambrcBlacklist, .append frame transponderId none)
          else if statusCode &&& 0x07 = 0 then (ambrcBlacklist, .append frame transponderId none)
          else (ambrcBlacklist, .register true)
      else (ambrcBlacklist, .register false)
    | .rc4 =>
      let msg := rc4Message softbits
      if ¬ msg.isValid then (ambrcBlacklist, .register false)
      else (ambrcBlacklist, .lookup frame (.ofBitVec msg.payload))

/-- The next critical section of the receiving thread. -/
def receiveStep [Field R] (platform : Platform R) (decoder : Decoder R) :
    Decoder R × DecoderReport R :=
  let learning := decoder.learning
  match decoder.receiveStage with
  | .idle => (decoder, .quiet)
  | .lookup frame payload =>
    let found := learning.rc4Registry.lookup payload
    let receiveStage :=
      match found with
      | some transponderId => .append frame transponderId (some payload)
      | none => .train frame 0 payload
    ({ decoder with receiveStage }, .looked payload found)
  | .append frame transponderId payload =>
    let passingDetector := learning.passingDetector.append platform frame transponderId
    let receiveStage :=
      match payload with
      | some payload => .train frame transponderId payload
      | none => .register true
    ({ decoder with learning := { learning with passingDetector }, receiveStage },
      .hit frame transponderId)
  | .timesync frame transponderTimestamp =>
    let passingDetector := learning.passingDetector.timesync frame transponderTimestamp
    ({ decoder with learning := { learning with passingDetector }, receiveStage := .register true },
      .timesync frame transponderTimestamp)
  | .train frame transponderId payload =>
    let rc4Trainer := learning.rc4Trainer.append frame.timestamp (frame.rssi platform)
      transponderId payload
    ({ decoder with learning := { learning with rc4Trainer }, receiveStage := .register true },
      .trained frame transponderId payload)
  | .register processed =>
    ({ decoder with rxStats := decoder.rxStats.registerFrame processed, receiveStage := .idle },
      .registered processed)

/-! ### The main thread -/

/-- The next critical section of `report_detections`. The resync at the end of it is one section
here, although the source takes the lock again for each file it stores and each id it removes;
`resyncTurn` has these sections. -/
def mainStep [Field R] [LinearOrder R] (config : DecoderConfig R) (decoder : Decoder R)
    (now nowSysclk : UInt64) : Option (Decoder R × DecoderReport R) :=
  match decoder.mainStage with
  | .waiting =>
    let mainStage := if decoder.rxStats.reportingDue now then .due else .detecting
    some ({ decoder with now, nowSysclk, mainStage }, .quiet)
  | .due =>
    some ({ decoder with mainStage := .formatted (decoder.rxStats.toReport config.platform) },
      .quiet)
  | .formatted report =>
    some ({ decoder with rxStats := decoder.rxStats.reset decoder.now, mainStage := .detecting },
      .status decoder.now decoder.nowSysclk report)
  | .detecting => do
    let (learning, report) ←
      reportDetectionsStep config.computePassingPoint decoder.learning decoder.now
    let mainStage :=
      match decoder.learning.stage with
      | .finished => .waiting
      | _ => .detecting
    some ({ decoder with learning, mainStage }, .learning decoder.now decoder.nowSysclk report)

/-- A frame is complete only when the receiving thread has processed the one before it. -/
def decoderStep [Field R] [LinearOrder R] (config : DecoderConfig R) (decoder : Decoder R) :
    DecoderInput R → Option (Decoder R × DecoderReport R)
  | .frame frame =>
    match decoder.receiveStage with
    | .idle =>
      let (ambrcBlacklist, receiveStage) := decodeFrame config.codec decoder.ambrcBlacklist frame
      some ({ decoder with ambrcBlacklist, receiveStage }, .accepted frame)
    | _ => some (decoder, .quiet)
  | .receive => some (receiveStep config.platform decoder)
  | .saveChannelCharacteristics dcOffset noisePower =>
    some ({ decoder with
      rxStats := decoder.rxStats.saveChannelCharacteristics dcOffset noisePower }, .quiet)
  | .directoryChange directory =>
    some ({ decoder with learning := { decoder.learning with directory } }, .quiet)
  | .reportDetections now nowSysclk => mainStep config decoder now nowSysclk

/-! ### What is published -/

/-- `reporting_timestamp`, in the unsigned arithmetic of the source. -/
def reportingTimestamp (modeSysclk : Bool) (timestampUs steadyNow sysclkNow : UInt64) : UInt64 :=
  if modeSysclk then (sysclkNow - (steadyNow - timestampUs)) / 1000 else timestampUs / 1000

section Messages

variable (config : DecoderConfig R) (now nowSysclk : UInt64)

def statusMessage (report : StatusReport R) : DecoderMessage :=
  .status (reportingTimestamp config.modeSysclk now now nowSysclk)
    (config.formatFloat 2 report.noiseFloor) (config.formatFloat 2 report.dcOffset)
    report.framesReceived report.framesProcessed

def timesyncMessage (timeSync : TimeSync) : DecoderMessage :=
  .timesync (reportingTimestamp config.modeSysclk timeSync.timestamp now nowSysclk)
    timeSync.transponderType timeSync.transponderId timeSync.transponderTimestamp

def passingMessage (passing : Passing R) : DecoderMessage :=
  .passing (reportingTimestamp config.modeSysclk passing.timestamp now nowSysclk)
    passing.transponderType passing.transponderId (config.formatFloat 2 passing.rssi)
    passing.hits passing.duration

/-- The messages of a critical section behind the status step. -/
def learningMessages (report : LearningReport R) : List DecoderMessage :=
  let statusTs := reportingTimestamp config.modeSysclk now now nowSysclk
  match report with
  | .quiet => []
  | .timesyncs list => list.map (timesyncMessage config now nowSysclk)
  | .passings list => list.map (passingMessage config now nowSysclk)
  | .start rssi => [.start statusTs (config.formatFloat 1 rssi)]
  | .interrupted => [.interrupted statusTs]
  | .done identity transponderId => [.done statusTs transponderId identity.payloads.length]
  | .reset => [.reset statusTs]

/-- What a critical section publishes. -/
def DecoderReport.messages : DecoderReport R → List DecoderMessage
  | .status now nowSysclk report => [statusMessage config now nowSysclk report]
  | .learning now nowSysclk report => learningMessages config now nowSysclk report
  | _ => []

end Messages

end OpenStint
