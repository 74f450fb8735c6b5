/-
This file proves which RC3 frames count as hits, in terms of the RC3 messages a run has
decoded: a frame counts unless its status tells otherwise, and a frame with status 0xff
counts unless one of the messages so far has banned its id.
-/

import OpenStint.OpenstintWords
import OpenStint.Rc3Frame

namespace OpenStint

open Machine

variable {R : Type}

/-- The message that is decoded from an RC3 frame. -/
def rc3Event (frame : Frame R) : Option Rc3Event :=
  match frame.transponderProtocol, frame.payloadBits with
  | .rc3, some softbits =>
    let decoded := decodeRc3 softbits
    if decoded.ok then
      some {
        timestamp := frame.timestamp
        statusCode := .ofBitVec decoded.statusCode
        transponderId := .ofBitVec decoded.transponderId }
    else none
  | _, _ => none

/-- The messages of a run. -/
def rc3History (inputs : List (ProcessorInput R)) : List Rc3Event :=
  inputs.filterMap fun
    | .frame _ frame => rc3Event frame
    | _ => none

/-- The last message of a history counts as a hit. -/
def Admitted (history : List Rc3Event) (event : Rc3Event) : Prop :=
  event.transponderId < 10000000 ∧ (event.statusCode &&& 0x07 = 0 ∨
    event.statusCode = 0xff ∧ ¬ Banned history event.transponderId)

/-- What `process_frame` does on a message that comes after a run, from the passing detector
before it. -/
structure AdmissionLaw [Field R] (platform : Platform R) (past : List (ProcessorInput R))
    (frame : Frame R) (event : Rc3Event) (before : PassingDetector R)
    (outcome : FrameProcessor R × FrameReport) : Prop where
  admitted : outcome.2.hit = some event.transponderId ↔
    Admitted (rc3History past ++ [event]) event
  refused : ¬ Admitted (rc3History past ++ [event]) event → outcome.2.hit = none
  recorded : outcome.1.passingDetector = outcome.2.recorded platform frame before
  /-- An id that was banned at any time has no more hits from status 0xff. -/
  permanent : ∀ earlier more, past = earlier ++ more →
    Banned (rc3History earlier) event.transponderId → event.statusCode = 0xff →
      outcome.2.hit = none

/-! ### One frame -/

section Steps

variable [Field R] (platform : Platform R) (codec : OpenstintCodec)
  (lookup : UInt64 → Option UInt32) (processor : FrameProcessor R) (frame : Frame R)

/-- A message counts as a hit, by the list behind it. -/
def Admits (blacklist : AmbRcBlacklist) (event : Rc3Event) : Prop :=
  event.transponderId < 10000000 ∧ (event.statusCode &&& 0x07 = 0 ∨
    event.statusCode = 0xff ∧ ¬ blacklist.checkBanned event.transponderId)

/-- The RC3 branch shows a message to the list and then asks it. -/
theorem processRc3_of_ok {softbits : Nat → UInt8} (ok : (decodeRc3 softbits).ok) {event : Rc3Event}
    (same : event = {
      timestamp := frame.timestamp
      statusCode := .ofBitVec (decodeRc3 softbits).statusCode
      transponderId := .ofBitVec (decodeRc3 softbits).transponderId }) :
    let (next, report) := processor.processRc3 platform frame softbits
    next.ambrcBlacklist = processor.ambrcBlacklist.observe event ∧
      (Admits next.ambrcBlacklist event ∧ report.hit = some event.transponderId ∨
        ¬ Admits next.ambrcBlacklist event ∧ report.hit = none) := by
  subst same
  unfold FrameProcessor.processRc3 Admits AmbRcBlacklist.observe
  dsimp only
  rw [if_pos ok]
  by_cases high : UInt32.ofBitVec (decodeRc3 softbits).transponderId ≥ 10000000
  · have outside := UInt32.not_lt.mpr high
    rw [if_pos high, if_neg outside]
    refine ⟨rfl, Or.inr ⟨fun admits => outside admits.1, ?_⟩⟩
    dsimp only
    split_ifs <;> rfl
  · have inside := UInt32.not_le.mp high
    rw [if_neg high, if_pos inside]
    split_ifs with full normal
    · exact ⟨rfl, Or.inl ⟨⟨inside, Or.inr full⟩, rfl⟩⟩
    · exact ⟨rfl, Or.inl ⟨⟨inside, Or.inl normal⟩, rfl⟩⟩
    · exact ⟨rfl, Or.inr ⟨fun admits => admits.2.elim normal full, rfl⟩⟩

/-- What a frame does to the list of banned transponders. -/
theorem processFrame_blacklist :
    (processor.processFrame platform frame codec lookup).1.ambrcBlacklist =
      match rc3Event frame with
      | some event => processor.ambrcBlacklist.observe event
      | none => processor.ambrcBlacklist := by
  rw [FrameProcessor.processFrame_eq]
  unfold rc3Event
  cases frame.payloadBits with
  | none => cases frame.transponderProtocol <;> rfl
  | some softbits =>
    cases frame.transponderProtocol with
    | openStint =>
      obtain ⟨report, same⟩ :=
        FrameProcessor.processOpenstint_eq platform codec processor frame softbits
      dsimp only
      rw [same]
    | rc4 =>
      obtain ⟨report, rc4Trainer, same⟩ :=
        FrameProcessor.processRc4_eq platform lookup processor frame softbits
      dsimp only
      rw [same]
    | rc3 =>
      dsimp only
      by_cases ok : (decodeRc3 softbits).ok
      · rw [if_pos ok]
        exact (processRc3_of_ok platform processor frame ok rfl).1
      · rw [if_neg ok, FrameProcessor.processRc3]
        dsimp only
        rw [if_neg ok]

/-- Whether a message counts as a hit, by the list behind it. -/
theorem processFrame_hit {event : Rc3Event} (decoded : rc3Event frame = some event) :
    Admits (processor.ambrcBlacklist.observe event) event ∧
        (processor.processFrame platform frame codec lookup).2.hit = some event.transponderId ∨
      ¬ Admits (processor.ambrcBlacklist.observe event) event ∧
        (processor.processFrame platform frame codec lookup).2.hit = none := by
  unfold rc3Event at decoded
  rw [FrameProcessor.processFrame_eq]
  split at decoded
  · rename_i softbits protocol found
    rw [protocol, found]
    dsimp only at decoded ⊢
    by_cases ok : (decodeRc3 softbits).ok
    · rw [if_pos ok] at decoded
      obtain ⟨observed, hit⟩ :=
        processRc3_of_ok platform processor frame ok (Option.some.inj decoded).symm
      rwa [observed] at hit
    · rw [if_neg ok] at decoded
      cases decoded
  · cases decoded

end Steps

/-! ### Whole runs -/

theorem rc3History_append (first second : List (ProcessorInput R)) :
    rc3History (first ++ second) = rc3History first ++ rc3History second :=
  List.filterMap_append

/-- After a run the list is the one of the messages of the run. -/
theorem exec_blacklist [Field R] (platform : Platform R) (codec : OpenstintCodec)
    (computePassingPoint : List (Detection R) → PassingPoint R) (inputs : List (ProcessorInput R)) :
    (exec (processorStep platform codec computePassingPoint) .initial inputs).ambrcBlacklist =
      .afterHistory (rc3History inputs) := by
  induction inputs using List.reverseRecOn with
  | nil => rfl
  | append_singleton past input inductionHypothesis =>
    rw [exec_concat, rc3History_append]
    cases input with
    | frame lookup frame =>
      refine (processFrame_blacklist platform codec lookup _ frame).trans ?_
      rw [inductionHypothesis]
      cases message : rc3Event frame with
      | none => simp [rc3History, message]
      | some event => simp [rc3History, message, AmbRcBlacklist.afterHistory_concat]
    | identifyTimesyncs margin =>
      exact inductionHypothesis.trans (congrArg _ (List.append_nil _).symm)
    | identifyPassings deadline =>
      exact inductionHypothesis.trans (congrArg _ (List.append_nil _).symm)
    | evaluate rc4Trainer =>
      exact inductionHypothesis.trans (congrArg _ (List.append_nil _).symm)

/-- What the list says of a message is what the messages say. -/
theorem admits_iff (history : List Rc3Event) (event : Rc3Event) :
    Admits ((AmbRcBlacklist.afterHistory history).observe event) event ↔
      Admitted (history ++ [event]) event := by
  refine and_congr_right fun fits => ?_
  rw [← AmbRcBlacklist.afterHistory_concat, AmbRcBlacklist.checkBanned_afterHistory _ fits]

/-- A decoded RC3 frame counts as a hit if and only if its id has seven digits and its status
marks a transponder, or may mark one and the messages so far have not banned the id. -/
theorem rc3_admission [Field R] (platform : Platform R) (codec : OpenstintCodec)
    (computePassingPoint : List (Detection R) → PassingPoint R) (past : List (ProcessorInput R))
    (lookup : UInt64 → Option UInt32) {frame : Frame R} {event : Rc3Event}
    (decoded : rc3Event frame = some event) :
    let processor := exec (processorStep platform codec computePassingPoint) .initial past
    AdmissionLaw platform past frame event processor.passingDetector
      (processor.processFrame platform frame codec lookup) := by
  intro processor
  have reported := processFrame_hit platform codec lookup processor frame decoded
  rw [exec_blacklist, admits_iff] at reported
  refine ⟨⟨fun hit => ?_, fun admitted => ?_⟩, fun refused => ?_,
    FrameProcessor.processFrame_recorded platform codec lookup processor frame, ?_⟩
  · rcases reported with ⟨admitted, -⟩ | ⟨-, none⟩
    · exact admitted
    · rw [none] at hit
      cases hit
  · exact (reported.resolve_right fun other => other.1 admitted).2
  · exact (reported.resolve_left fun other => refused other.1).2
  · rintro earlier more rfl banned full
    refine (reported.resolve_left fun other => ?_).2
    rcases other.1.2 with low | ⟨-, free⟩
    · rw [full] at low
      exact absurd low (by decide)
    · refine free ?_
      rw [rc3History_append, List.append_assoc]
      exact banned.append _

/-- The frame of an id and a status, received at startup. -/
noncomputable def rc3FrameHeard (id : BitVec 24) (status : BitVec 8) : Frame ℝ :=
  { Frame.detected .rc3 0 0 0 with softbits := (rc3FrameOf id status).softbits }

theorem rc3Event_1234567 : rc3Event (rc3FrameHeard 1234567#24 0xff#8) =
    some { timestamp := 0, statusCode := 0xff, transponderId := 1234567 } := by
  decide +kernel

/-- A message of 1234567 with status 0xff, after a validation with the same top bits. -/
theorem rc3_admission_1234567 :
    let past := [.frame (fun _ => none) (rc3FrameHeard 1234568#24 0xf9#8)]
    let processor := exec (processorStep idealPlatform errorFreeCodec fun _ => ⟨0, 0, 0⟩)
      .initial past
    AdmissionLaw idealPlatform past (rc3FrameHeard 1234567#24 0xff#8)
      { timestamp := 0, statusCode := 0xff, transponderId := 1234567 } processor.passingDetector
      (processor.processFrame idealPlatform (rc3FrameHeard 1234567#24 0xff#8) errorFreeCodec
        fun _ => none) :=
  rc3_admission idealPlatform errorFreeCodec (fun _ => ⟨0, 0, 0⟩) _ (fun _ => none)
    rc3Event_1234567

end OpenStint
