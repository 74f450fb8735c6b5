/-
This file is about what becomes of a frame in the decoder. `process_frame` is one function, but
other threads see it as up to four critical sections with anything in between.

What the receiving thread has still to do for a frame is told by its stage and by the answer of
the registry, and the sections of a frame are those that one call of `processFrame` makes. So
the receiving thread, whatever the main thread does meanwhile, has gone through the sections of
the frames it accepted, one frame after the other, up to those that its stage still holds.
-/

import OpenStint.DecoderRuns

namespace OpenStint

open Machine

variable {R : Type}

/-! ### The sections of a frame -/

/-- What a frame asks the registry for. -/
def Frame.rc4Payload (frame : Frame R) : Option UInt64 :=
  match frame.transponderProtocol with
  | .rc4 => frame.payloadBits.bind fun softbits =>
    let msg := rc4Message softbits
    if msg.isValid then some (.ofBitVec msg.payload) else none
  | _ => none

/-- The sections of one call of `process_frame`, and the count of its value. The preamble search
may invert the softbits before anything else is done with the frame. -/
def frameSections (frame : Frame R) (lookup : UInt64 → Option UInt32) (report : FrameReport) :
    List (DecoderReport R) :=
  let searched := frame.bits.1
  .accepted frame ::
    (frame.rc4Payload.toList.map fun payload => .looked payload (lookup payload)) ++
    (report.hit.toList.map fun transponderId => .hit searched transponderId) ++
    (report.timesync.toList.map fun transponderTimestamp =>
      .timesync searched transponderTimestamp) ++
    (frame.rc4Payload.toList.map fun payload =>
      .trained searched ((lookup payload).getD 0) payload) ++
    [.registered report.processed]

/-- The sections that the receiving thread has yet to enter. -/
def ReceiveStage.sections (lookup : UInt64 → Option UInt32) :
    ReceiveStage R → List (DecoderReport R)
  | .idle => []
  | .lookup frame payload =>
    .looked payload (lookup payload) ::
      ((lookup payload).toList.map fun transponderId => .hit frame transponderId) ++
      [.trained frame ((lookup payload).getD 0) payload, .registered true]
  | .append frame transponderId payload =>
    .hit frame transponderId ::
      (payload.toList.map fun payload => .trained frame transponderId payload) ++
      [.registered true]
  | .timesync frame transponderTimestamp =>
    [.timesync frame transponderTimestamp, .registered true]
  | .train frame transponderId payload =>
    [.trained frame transponderId payload, .registered true]
  | .register processed => [.registered processed]

/-- The sections of the receiving thread. -/
def DecoderReport.ofReceiver : DecoderReport R → Bool
  | .accepted _ | .looked _ _ | .hit _ _ | .timesync _ _ | .trained _ _ _ | .registered _ => true
  | _ => false

/-- The variables of `process_frame`. -/
def Decoder.processor (decoder : Decoder R) : FrameProcessor R where
  passingDetector := decoder.learning.passingDetector
  rc4Trainer := decoder.learning.rc4Trainer
  ambrcBlacklist := decoder.ambrcBlacklist

/-- The decoder after a call of `process_frame`, with its value counted. -/
def Decoder.afterCall (decoder : Decoder R) (processor : FrameProcessor R) (processed : Bool) :
    Decoder R :=
  { decoder with
    rxStats := decoder.rxStats.registerFrame processed
    learning := { decoder.learning with
      passingDetector := processor.passingDetector
      rc4Trainer := processor.rc4Trainer }
    ambrcBlacklist := processor.ambrcBlacklist }

section Decoding

variable [Field R] (platform : Platform R) (codec : OpenstintCodec)

/-- What a section of the receiving thread changes, but for its stage. -/
def Decoder.record (decoder : Decoder R) : DecoderReport R → Decoder R
  | .hit frame transponderId =>
    { decoder with learning := { decoder.learning with
        passingDetector := decoder.learning.passingDetector.append platform frame transponderId } }
  | .timesync frame transponderTimestamp =>
    { decoder with learning := { decoder.learning with
        passingDetector :=
          decoder.learning.passingDetector.timesync frame transponderTimestamp } }
  | .trained frame transponderId rc4Payload =>
    { decoder with learning := { decoder.learning with
        rc4Trainer := decoder.learning.rc4Trainer.append frame.timestamp (frame.rssi platform)
          transponderId rc4Payload } }
  | .registered processed =>
    { decoder with rxStats := decoder.rxStats.registerFrame processed }
  | _ => decoder

/-- A frame is decoded to the sections of its call, whatever the registry answers, and these
change what the call changes. -/
theorem decodeFrame_sections (processor : FrameProcessor R) (frame : Frame R)
    (lookup : UInt64 → Option UInt32) :
    frameSections frame lookup (processor.processFrame platform frame codec lookup).2 =
        .accepted frame ::
          (decodeFrame codec processor.ambrcBlacklist frame).2.sections lookup ∧
      (processor.processFrame platform frame codec lookup).1.ambrcBlacklist =
        (decodeFrame codec processor.ambrcBlacklist frame).1 ∧
      ∀ decoder : Decoder R, decoder.processor = processor →
        ((decodeFrame codec processor.ambrcBlacklist frame).2.sections lookup).foldl
            (Decoder.record platform)
            { decoder with
              ambrcBlacklist := (decodeFrame codec processor.ambrcBlacklist frame).1 } =
          decoder.afterCall (processor.processFrame platform frame codec lookup).1
            (processor.processFrame platform frame codec lookup).2.processed := by
  obtain ⟨softbits, inverted⟩ := frame.bits_fst
  unfold frameSections FrameProcessor.processFrame decodeFrame Frame.rc4Payload Frame.payloadBits
  cases found : frame.bits with
  | mk searched offset =>
    have sameProtocol : searched.transponderProtocol = frame.transponderProtocol := by
      rw [found] at inverted
      obtain rfl : searched = _ := inverted
      rfl
    cases offset with
    | none =>
      dsimp only
      cases frame.transponderProtocol <;> exact ⟨rfl, rfl, fun decoder same => same ▸ rfl⟩
    | some offset =>
      dsimp only
      rw [sameProtocol]
      cases frame.transponderProtocol with
      | openStint =>
        dsimp only [FrameProcessor.processOpenstint]
        split_ifs <;> exact ⟨rfl, rfl, fun decoder same => same ▸ rfl⟩
      | rc3 =>
        dsimp only [FrameProcessor.processRc3]
        split_ifs with decoded large status
        · rw [decide_eq_true status]
          exact ⟨rfl, rfl, fun decoder same => same ▸ rfl⟩
        · rw [decide_eq_false status]
          exact ⟨rfl, rfl, fun decoder same => same ▸ rfl⟩
        all_goals exact ⟨rfl, rfl, fun decoder same => same ▸ rfl⟩
      | rc4 =>
        dsimp only [FrameProcessor.processRc4, Option.bind_some]
        generalize rc4Message (fun i => searched.data (offset + i)) = msg
        by_cases valid : msg.isValid = true
        · rw [if_neg (not_not_intro valid), if_neg (not_not_intro valid), if_pos valid]
          simp only [ReceiveStage.sections, Option.toList_some, List.map_cons, List.map_nil]
          generalize lookup (.ofBitVec msg.payload) = answer
          cases answer <;> exact ⟨rfl, rfl, fun decoder same => same ▸ rfl⟩
        · rw [if_pos valid, if_pos valid, if_neg valid]
          exact ⟨rfl, rfl, fun decoder same => same ▸ rfl⟩

/-- A section of the receiving thread is the next one that its stage holds. What is left behind
it does not depend on the registry. -/
theorem receiveStep_sections {decoder : Decoder R} (busy : decoder.receiveStage ≠ .idle) :
    (receiveStep platform decoder).1 =
        { decoder.record platform (receiveStep platform decoder).2 with
          receiveStage := (receiveStep platform decoder).1.receiveStage } ∧
      (receiveStep platform decoder).2.ofReceiver = true ∧
      ∀ lookup, decoder.receiveStage.sections decoder.learning.rc4Registry.lookup =
        (receiveStep platform decoder).2 ::
          (receiveStep platform decoder).1.receiveStage.sections lookup := by
  obtain ⟨rxStats, learning, ambrcBlacklist, receiveStage, mainStage, now, nowSysclk⟩ := decoder
  cases receiveStage with
  | idle => exact absurd rfl busy
  | lookup frame payload =>
    simp only [receiveStep, ReceiveStage.sections]
    cases learning.rc4Registry.lookup payload <;> exact ⟨rfl, rfl, fun _ => rfl⟩
  | append frame transponderId payload => cases payload <;> exact ⟨rfl, rfl, fun _ => rfl⟩
  | timesync | train | register => exact ⟨rfl, rfl, fun _ => rfl⟩

end Decoding

/-! ### Left alone -/

section Alone

variable [Field R]

/-- What a section changes does not depend on the stage. -/
theorem foldl_record_receiveStage (platform : Platform R) (sections : List (DecoderReport R))
    (decoder : Decoder R) (receiveStage : ReceiveStage R) :
    sections.foldl (Decoder.record platform) { decoder with receiveStage } =
      { sections.foldl (Decoder.record platform) decoder with receiveStage } := by
  induction sections generalizing decoder with
  | nil => rfl
  | cons first rest inductionHypothesis =>
    have same : Decoder.record platform { decoder with receiveStage } first =
        { decoder.record platform first with receiveStage } := by
      cases first <;> rfl
    rw [List.foldl_cons, List.foldl_cons, same, inductionHypothesis]

variable [LinearOrder R] (config : DecoderConfig R)

/-- The receiving thread, left alone, goes through the sections it holds. -/
theorem run_sections (sections : List (DecoderReport R)) {decoder : Decoder R}
    (holds : decoder.receiveStage.sections decoder.learning.rc4Registry.lookup = sections) :
    run (decoderStep config) decoder (List.replicate sections.length .receive) =
      some ({ sections.foldl (Decoder.record config.platform) decoder with receiveStage := .idle },
        sections) := by
  induction sections generalizing decoder with
  | nil =>
    obtain ⟨rxStats, learning, ambrcBlacklist, receiveStage, mainStage, now, nowSysclk⟩ := decoder
    cases receiveStage with
    | idle => rfl
    | _ => cases holds
  | cons first rest inductionHypothesis =>
    have busy : decoder.receiveStage ≠ .idle := by
      intro idle
      rw [idle] at holds
      cases holds
    obtain ⟨changed, -, left⟩ := receiveStep_sections config.platform busy
    have stepped : decoderStep config decoder .receive =
      some (receiveStep config.platform decoder) := rfl
    rw [List.length_cons, List.replicate_succ, run, stepped, Option.bind_some]
    cases received : receiveStep config.platform decoder with
    | mk next report =>
      rw [received] at changed left
      dsimp only at changed left ⊢
      obtain ⟨rfl, behind⟩ := List.cons.inj
        ((left next.learning.rc4Registry.lookup).symm.trans holds)
      rw [inductionHypothesis behind, changed, foldl_record_receiveStage]
      rfl

/-- The decoder does for a frame what one call of `processFrame` does, with the registry as it
is, and counts its value. -/
def ProcessesAtOnce (decoder : Decoder R) (frame : Frame R) : Prop :=
  let lookup := decoder.learning.rc4Registry.lookup
  let called := decoder.processor.processFrame config.platform frame config.codec lookup
  let sections := frameSections frame lookup called.2
  run (decoderStep config) decoder
      (.frame frame :: List.replicate (sections.length - 1) .receive) =
    some (decoder.afterCall called.1 called.2.processed, sections)

/-- A frame that nothing interrupts is processed at once. -/
theorem frame_alone {decoder : Decoder R} (idle : decoder.receiveStage = .idle)
    (frame : Frame R) : ProcessesAtOnce config decoder frame := by
  obtain ⟨sections, -, effect⟩ := decodeFrame_sections config.platform config.codec
    decoder.processor frame decoder.learning.rc4Registry.lookup
  replace effect := effect decoder rfl
  have banned : decoder.processor.ambrcBlacklist = decoder.ambrcBlacklist := rfl
  rw [banned] at sections effect
  rw [ProcessesAtOnce, sections, List.length_cons, Nat.add_sub_cancel, run, decoderStep, idle]
  cases decoded : decodeFrame config.codec decoder.ambrcBlacklist frame with
  | mk ambrcBlacklist receiveStage =>
    rw [decoded] at effect
    dsimp only at effect
    have ran := run_sections config (receiveStage.sections decoder.learning.rc4Registry.lookup)
      (show ({ decoder with ambrcBlacklist, receiveStage } : Decoder R).receiveStage.sections _ = _
        from rfl)
    rw [foldl_record_receiveStage config.platform _ { decoder with ambrcBlacklist }, effect] at ran
    rw [Option.bind_some]
    dsimp only at ran ⊢
    rw [ran, Option.map_some, ← idle]
    rfl

end Alone

theorem frame_alone_reserved : ProcessesAtOnce idealConfig (.start []) reservedFrame :=
  frame_alone idealConfig rfl reservedFrame

/-! ### Interrupted -/

section Interrupted

variable [Field R]

/-- One call of `processFrame`, with what the registry answers to it. -/
def callStep (platform : Platform R) (codec : OpenstintCodec) (processor : FrameProcessor R)
    (call : Frame R × (UInt64 → Option UInt32)) : FrameProcessor R × List (DecoderReport R) :=
  let (processor, report) := processor.processFrame platform call.1 codec call.2
  (processor, frameSections call.1 call.2 report)

/-- The sections of the receiving thread so far, and those it holds, are the sections of some
calls, one behind the other. -/
def SectionsOfCalls (config : DecoderConfig R) (reports : List (DecoderReport R))
    (decoder : Decoder R) (lookup : UInt64 → Option UInt32) : Prop :=
  ∃ calls, (answers (callStep config.platform config.codec) .initial calls).flatten =
      reports.filter DecoderReport.ofReceiver ++ decoder.receiveStage.sections lookup ∧
    (exec (callStep config.platform config.codec) .initial calls).ambrcBlacklist =
      decoder.ambrcBlacklist

variable {config : DecoderConfig R}

/-- A section of another thread leaves the calls as they are. -/
theorem SectionsOfCalls.other {reports : List (DecoderReport R)} {decoder next : Decoder R}
    {lookup : UInt64 → Option UInt32}
    (sections : SectionsOfCalls config reports decoder lookup) {report : DecoderReport R}
    (foreign : report.ofReceiver = false) (receiveStage : next.receiveStage = decoder.receiveStage)
    (ambrcBlacklist : next.ambrcBlacklist = decoder.ambrcBlacklist) :
    SectionsOfCalls config (reports ++ [report]) next lookup := by
  obtain ⟨calls, told, banned⟩ := sections
  refine ⟨calls, ?_, banned.trans ambrcBlacklist.symm⟩
  rw [told, List.filter_append, List.filter_singleton, foreign, receiveStage]
  exact congrArg (· ++ _) (List.append_nil _).symm

/-- A frame that is accepted is another call. -/
theorem SectionsOfCalls.accept {reports : List (DecoderReport R)} {decoder : Decoder R}
    {lookup : UInt64 → Option UInt32}
    (sections : SectionsOfCalls config reports decoder lookup)
    (idle : decoder.receiveStage = .idle) (frame : Frame R) :
    SectionsOfCalls config (reports ++ [.accepted frame])
      { decoder with
        ambrcBlacklist := (decodeFrame config.codec decoder.ambrcBlacklist frame).1
        receiveStage := (decodeFrame config.codec decoder.ambrcBlacklist frame).2 } lookup := by
  obtain ⟨calls, told, banned⟩ := sections
  obtain ⟨called, leaves, -⟩ := decodeFrame_sections config.platform config.codec
    (exec (callStep config.platform config.codec) .initial calls) frame lookup
  rw [banned] at called leaves
  rw [idle, ReceiveStage.sections, List.append_nil] at told
  refine ⟨calls ++ [(frame, lookup)], ?_, ?_⟩
  · rw [answers_concat, List.flatten_append, told, List.flatten_singleton, List.filter_append,
      List.append_assoc]
    exact congrArg _ called
  · rw [exec_concat]
    exact leaves

variable [LinearOrder R]

/-- The sections of the receiving thread are those of calls, whatever the registry will answer
to the one that is waiting for it. -/
theorem sectionsOfCalls_step {reports : List (DecoderReport R)} {decoder next : Decoder R}
    (sections : ∀ lookup, SectionsOfCalls config reports decoder lookup) {input : DecoderInput R}
    {report : DecoderReport R} (stepped : decoderStep config decoder input = some (next, report))
    (lookup : UInt64 → Option UInt32) :
    SectionsOfCalls config (reports ++ [report]) next lookup := by
  cases input with
  | frame frame =>
    cases stage : decoder.receiveStage with
    | idle =>
      rw [decoderStep, stage] at stepped
      obtain ⟨rfl, rfl⟩ := Prod.mk.inj (Option.some.inj stepped)
      exact (sections lookup).accept stage frame
    | _ =>
      rw [decoderStep, stage] at stepped
      obtain ⟨rfl, rfl⟩ := Prod.mk.inj (Option.some.inj stepped)
      exact (sections lookup).other rfl rfl rfl
  | receive =>
    have received : receiveStep config.platform decoder = (next, report) :=
      Option.some.inj stepped
    by_cases idle : decoder.receiveStage = .idle
    · rw [receiveStep, idle] at received
      obtain ⟨rfl, rfl⟩ := Prod.mk.inj received
      exact (sections lookup).other rfl rfl rfl
    · obtain ⟨changed, own, left⟩ := receiveStep_sections config.platform idle
      obtain ⟨calls, told, banned⟩ := sections decoder.learning.rc4Registry.lookup
      rw [received] at changed own left
      refine ⟨calls, ?_, ?_⟩
      · rw [told, left lookup, List.filter_append, List.filter_singleton, own, List.append_assoc]
        rfl
      · refine banned.trans ((congrArg Decoder.ambrcBlacklist changed).trans ?_).symm
        cases report <;> rfl
  | saveChannelCharacteristics | directoryChange =>
    obtain ⟨rfl, rfl⟩ := Prod.mk.inj (Option.some.inj stepped)
    exact (sections lookup).other rfl rfl rfl
  | reportDetections now nowSysclk =>
    cases stage : decoder.mainStage with
    | detecting =>
      rw [decoderStep, mainStep, stage] at stepped
      obtain ⟨⟨learning, told⟩, -, stepped⟩ := Option.bind_eq_some_iff.mp stepped
      obtain ⟨rfl, rfl⟩ := Prod.mk.inj (Option.some.inj stepped)
      exact (sections lookup).other rfl rfl rfl
    | _ =>
      rw [decoderStep, mainStep, stage] at stepped
      obtain ⟨rfl, rfl⟩ := Prod.mk.inj (Option.some.inj stepped)
      exact (sections lookup).other rfl rfl rfl

/-- Whatever the main thread does, the receiving thread has gone through the sections of calls
of `processFrame`, one frame after the other, up to the sections it still holds: no frame is
lost, counted twice or mixed with another. -/
theorem frames_sequential [IsStrictOrderedRing R] (config : DecoderConfig R)
    (directory : List DirEntry) (inputs : List (DecoderInput R)) :
    ∃ last reports, run (decoderStep config) (.start directory) inputs = some (last, reports) ∧
      SectionsOfCalls config reports last last.learning.rc4Registry.lookup := by
  obtain ⟨last, reports, ran, -⟩ := decoder_run config directory inputs
  have kept := run_kept
    (fun reports decoder => ∀ lookup, SectionsOfCalls config reports decoder lookup)
    (fun _ _ _ _ _ sections stepped => sectionsOfCalls_step sections stepped)
    (fun _ => ⟨[], rfl, rfl⟩) ran
  exact ⟨last, reports, ran, kept _⟩

end Interrupted

theorem frames_sequential_meanwhile :
    ∃ last reports, run (decoderStep idealConfig) (.start []) reportMeanwhile =
        some (last, reports) ∧
      SectionsOfCalls idealConfig reports last last.learning.rc4Registry.lookup :=
  frames_sequential idealConfig [] reportMeanwhile

end OpenStint
