/-
This file models `process_frame` of `commons.cpp`: it decodes a complete frame by its
protocol and passes what it finds to the passing detector, to the RC4 trainer and to the
list of banned RC3 transponders. The Viterbi decoder and the checksum of the OpenStint
protocol are not in the repository and are parameters, gathered in `OpenstintCodec`.

A run interleaves frames with critical sections of the main thread. The answer to a frame
tells which calls were made for it.
-/

import OpenStint.AmbRcBlacklist
import OpenStint.IdealPlatform
import OpenStint.Passing
import OpenStint.Rc4Message
import OpenStint.Rc4Trainer

namespace OpenStint

open Machine

variable {R : Type}

/-! ### The OpenStint decoder -/

/-- What `decode_openstint` calls of libfec and of liquid. -/
structure OpenstintCodec where
  /-- the four bytes that `chainback_viterbi29` finds in 40 pairs of softbits -/
  viterbi29 : (Nat → UInt8) → Fin 4 → UInt8
  /-- `crc_validate_message` with `LIQUID_CRC_8`, on a message and a key -/
  crc8ValidateMessage : List UInt8 → UInt8 → Bool

/-- What `decode_openstint` returns and writes through its out parameter. -/
structure OpenstintResult where
  ok : Bool
  transponderId : UInt32
  deriving DecidableEq, Repr

def decodeOpenstint (codec : OpenstintCodec) (softbits : Nat → UInt8) : OpenstintResult :=
  let decoded := codec.viterbi29 softbits
  { ok := codec.crc8ValidateMessage [decoded 0, decoded 1, decoded 2] (decoded 3)
    transponderId :=
      (decoded 0).toUInt32 <<< 16 ||| (decoded 1).toUInt32 <<< 8 ||| (decoded 2).toUInt32 }

/-! ### The dispatch -/

/-- The static variables that `process_frame` changes. -/
structure FrameProcessor (R : Type) where
  passingDetector : PassingDetector R
  rc4Trainer : Rc4Trainer R
  ambrcBlacklist : AmbRcBlacklist

/-- The value of `process_frame`, and the arguments of its calls of `append` and of `timesync`. -/
structure FrameReport where
  processed : Bool
  hit : Option UInt32
  timesync : Option UInt32
  deriving DecidableEq, Repr

namespace FrameReport

def rejected : FrameReport where
  processed := false
  hit := none
  timesync := none

def ignored : FrameReport where
  processed := true
  hit := none
  timesync := none

def ofHit (transponderId : UInt32) : FrameReport where
  processed := true
  hit := some transponderId
  timesync := none

def ofTimesync (transponderTimestamp : UInt32) : FrameReport where
  processed := true
  hit := none
  timesync := some transponderTimestamp

/-- The detector after the calls of a report. -/
def recorded [Field R] (platform : Platform R) (frame : Frame R) (detector : PassingDetector R)
    (report : FrameReport) : PassingDetector R :=
  let detector :=
    match report.hit with
    | some transponderId => detector.append platform frame transponderId
    | none => detector
  match report.timesync with
  | some transponderTimestamp => detector.timesync frame transponderTimestamp
  | none => detector

end FrameReport

namespace FrameProcessor

def initial : FrameProcessor R where
  passingDetector := .initial
  rc4Trainer := .initial
  ambrcBlacklist := .initial

section Branches

variable [Field R] (platform : Platform R) (processor : FrameProcessor R) (frame : Frame R)

/-- The OpenStint branch of `process_frame`. -/
def processOpenstint (codec : OpenstintCodec) (softbits : Nat → UInt8) :
    FrameProcessor R × FrameReport :=
  let decoded := decodeOpenstint codec softbits
  if decoded.ok then
    if decoded.transponderId < 10000000 then
      ({ processor with passingDetector :=
          processor.passingDetector.append platform frame decoded.transponderId },
        .ofHit decoded.transponderId)
    else if decoded.transponderId &&& 0x00A00000 = 0x00A00000 then
      let transponderTimestamp := decoded.transponderId &&& 0x000FFFFF
      ({ processor with passingDetector :=
          processor.passingDetector.timesync frame transponderTimestamp },
        .ofTimesync transponderTimestamp)
    else (processor, .ignored)
  else (processor, .rejected)

/-- The RC3 branch of `process_frame`. -/
def processRc3 (softbits : Nat → UInt8) : FrameProcessor R × FrameReport :=
  let decoded := decodeRc3 softbits
  let transponderId := UInt32.ofBitVec decoded.transponderId
  let statusCode := UInt8.ofBitVec decoded.statusCode
  if decoded.ok then
    if transponderId ≥ 10000000 then
      (processor, if statusCode &&& 0x07 = 0 then .ignored else .rejected)
    else
      let ambrcBlacklist :=
        processor.ambrcBlacklist.process frame.timestamp statusCode transponderId
      let processor := { processor with ambrcBlacklist }
      if statusCode = 0xff ∧ ¬ ambrcBlacklist.checkBanned transponderId then
        ({ processor with passingDetector :=
            processor.passingDetector.append platform frame transponderId }, .ofHit transponderId)
      else if statusCode &&& 0x07 = 0 then
        ({ processor with passingDetector :=
            processor.passingDetector.append platform frame transponderId }, .ofHit transponderId)
      else (processor, .ignored)
  else (processor, .rejected)

/-- The RC4 branch of `process_frame`, with the lookup of the registry. -/
def processRc4 (lookup : UInt64 → Option UInt32) (softbits : Nat → UInt8) :
    FrameProcessor R × FrameReport :=
  let msg := rc4Message softbits
  let payload := UInt64.ofBitVec msg.payload
  if ¬ msg.isValid then (processor, .rejected)
  else
    match lookup payload with
    | some transponderId =>
      ({ processor with
          passingDetector := processor.passingDetector.append platform frame transponderId
          rc4Trainer := processor.rc4Trainer.append frame.timestamp (frame.rssi platform)
            transponderId payload },
        .ofHit transponderId)
    | none =>
      ({ processor with
          rc4Trainer :=
            processor.rc4Trainer.append frame.timestamp (frame.rssi platform) 0 payload },
        .ignored)

def processFrame (codec : OpenstintCodec) (lookup : UInt64 → Option UInt32) :
    FrameProcessor R × FrameReport :=
  match frame.bits with
  | (_, none) => (processor, .rejected)
  | (frame, some offset) =>
    let softbits := fun i => frame.data (offset + i)
    match frame.transponderProtocol with
    | .openStint => processor.processOpenstint platform frame codec softbits
    | .rc3 => processor.processRc3 platform frame softbits
    | .rc4 => processor.processRc4 platform frame lookup softbits

end Branches

end FrameProcessor

/-! ### Runs of the two threads -/

/-- The receiving thread processes a frame, during which the registry answers as it does then,
or the main thread passes through a critical section. What that leaves of the trainer does not
matter here. -/
inductive ProcessorInput (R : Type)
  | frame (lookup : UInt64 → Option UInt32) (frame : Frame R)
  | identifyTimesyncs (margin : UInt64)
  | identifyPassings (deadline : UInt64)
  | evaluate (rc4Trainer : Rc4Trainer R)

def processorStep [Field R] (platform : Platform R) (codec : OpenstintCodec)
    (computePassingPoint : List (Detection R) → PassingPoint R) (processor : FrameProcessor R) :
    ProcessorInput R → FrameProcessor R × Option FrameReport
  | .frame lookup frame =>
    let (processor, report) := processor.processFrame platform frame codec lookup
    (processor, some report)
  | .identifyTimesyncs margin =>
    ({ processor with
        passingDetector := (processor.passingDetector.identifyTimesyncs margin).1 }, none)
  | .identifyPassings deadline =>
    ({ processor with passingDetector :=
        (processor.passingDetector.identifyPassings computePassingPoint deadline).1 }, none)
  | .evaluate rc4Trainer => ({ processor with rc4Trainer }, none)

/-! ### What a frame is decoded from -/

/-- The softbits that `process_frame` decodes. -/
def Frame.payloadBits (frame : Frame R) : Option (Nat → UInt8) :=
  match frame.bits with
  | (_, none) => none
  | (frame, some offset) => some fun i => frame.data (offset + i)

theorem Frame.bits_fst (frame : Frame R) : ∃ softbits, frame.bits.1 = { frame with softbits } := by
  unfold Frame.bits
  split
  · exact ⟨frame.softbits, rfl⟩
  dsimp only
  cases preamblePos (concatBits32 frame.data)
      (transponderProps frame.transponderProtocol).preamble with
  | some position => exact ⟨frame.softbits, by dsimp only; split <;> rfl⟩
  | none =>
    cases preamblePos (~~~concatBits32 frame.data)
        (transponderProps frame.transponderProtocol).preamble with
    | none => exact ⟨frame.softbits, rfl⟩
    | some position =>
      exact ⟨frame.softbits.map fun x => 0xff - x, by dsimp only; split <;> rfl⟩

namespace FrameProcessor

variable [Field R] (platform : Platform R) (codec : OpenstintCodec)
  (lookup : UInt64 → Option UInt32) (processor : FrameProcessor R) (frame : Frame R)

/-- Inverting the softbits makes no difference to what is passed on of a frame. -/
theorem processFrame_eq :
    processor.processFrame platform frame codec lookup =
      match frame.payloadBits with
      | none => (processor, .rejected)
      | some softbits =>
        match frame.transponderProtocol with
        | .openStint => processor.processOpenstint platform frame codec softbits
        | .rc3 => processor.processRc3 platform frame softbits
        | .rc4 => processor.processRc4 platform frame lookup softbits := by
  obtain ⟨softbits, inverted⟩ := frame.bits_fst
  unfold processFrame Frame.payloadBits
  cases found : frame.bits with
  | mk searched offset =>
    rw [found] at inverted
    dsimp only at inverted
    subst inverted
    cases offset with
    | none => rfl
    | some offset => rfl

/-- The OpenStint branch changes the passing detector alone. -/
theorem processOpenstint_eq (softbits : Nat → UInt8) :
    ∃ report, processor.processOpenstint platform frame codec softbits =
      ({ processor with
          passingDetector := report.recorded platform frame processor.passingDetector },
        report) := by
  unfold processOpenstint
  dsimp only
  split_ifs
  · exact ⟨.ofHit _, rfl⟩
  · exact ⟨.ofTimesync _, rfl⟩
  · exact ⟨.ignored, rfl⟩
  · exact ⟨.rejected, rfl⟩

/-- The RC3 branch changes the passing detector and the list of banned transponders. -/
theorem processRc3_eq (softbits : Nat → UInt8) :
    ∃ report ambrcBlacklist, processor.processRc3 platform frame softbits =
      ({ processor with
          passingDetector := report.recorded platform frame processor.passingDetector
          ambrcBlacklist },
        report) := by
  unfold processRc3
  dsimp only
  split_ifs
  · exact ⟨.ignored, _, rfl⟩
  · exact ⟨.rejected, _, rfl⟩
  · exact ⟨.ofHit _, _, rfl⟩
  · exact ⟨.ofHit _, _, rfl⟩
  · exact ⟨.ignored, _, rfl⟩
  · exact ⟨.rejected, _, rfl⟩

/-- The RC4 branch changes the passing detector and the trainer. -/
theorem processRc4_eq (softbits : Nat → UInt8) :
    ∃ report rc4Trainer, processor.processRc4 platform frame lookup softbits =
      ({ processor with
          passingDetector := report.recorded platform frame processor.passingDetector
          rc4Trainer },
        report) := by
  unfold processRc4
  by_cases valid : (rc4Message softbits).isValid
  · rw [if_neg (not_not_intro valid)]
    cases lookup (.ofBitVec (rc4Message softbits).payload) with
    | none => exact ⟨.ignored, _, rfl⟩
    | some transponderId => exact ⟨.ofHit transponderId, _, rfl⟩
  · rw [if_pos valid]
    exact ⟨.rejected, _, rfl⟩

/-- The report of a frame tells all that is done to the passing detector for it. -/
theorem processFrame_recorded :
    (processor.processFrame platform frame codec lookup).1.passingDetector =
      (processor.processFrame platform frame codec lookup).2.recorded platform frame
        processor.passingDetector := by
  rw [processFrame_eq]
  cases frame.payloadBits with
  | none => rfl
  | some softbits =>
    dsimp only
    cases frame.transponderProtocol with
    | openStint =>
      obtain ⟨report, same⟩ := processOpenstint_eq platform codec processor frame softbits
      rw [same]
    | rc3 =>
      obtain ⟨report, ambrcBlacklist, same⟩ := processRc3_eq platform processor frame softbits
      rw [same]
    | rc4 =>
      obtain ⟨report, rc4Trainer, same⟩ := processRc4_eq platform lookup processor frame softbits
      rw [same]

end FrameProcessor

end OpenStint
