/-
This file proves that timecodes are places in the stream of samples. A frame is stamped with
the number of samples that were delivered before the symbol it was detected at, whatever
the sizes of the buffers, and the next frame is not detected before the payload of this one
has been read. So the hits in every queue of the passing detector come in the order of the
stream, and a passing is resampled without a division by zero.
-/

import OpenStint.OpenstintWords
import OpenStint.PassingPoint
import OpenStint.Receiver

namespace OpenStint

open Machine BoundedQueue

variable {R : Type} {samplesPerSymbol : Nat}

/-! ### What holds of every run -/

/-- The samples that the calls of `detect_frames` deliver, also in buffers that are dropped. -/
def delivered (calls : List (UInt64 × List Sample)) : Nat :=
  (calls.map fun call => call.2.length).sum

/-- The frames that were detected, in order. -/
def detectedFrames (events : List (FrameEvent R samplesPerSymbol)) : List (Frame R) :=
  events.filterMap fun
    | .detected _ frame => some frame
    | .processed _ => none

/-- The frames that were given to `process_frame`, in order. -/
def processedFrames (events : List (FrameEvent R samplesPerSymbol)) : List (Frame R) :=
  events.filterMap fun
    | .detected _ _ => none
    | .processed frame => some frame

/-- The frames that a run of the two threads processes. -/
def framesOf (inputs : List (ProcessorInput R)) : List (Frame R) :=
  inputs.filterMap fun
    | .frame _ frame => some frame
    | _ => none

/-- The second frame was not detected before the payload of the first one had been read. -/
def Spaced (samplesPerSymbol : Nat) (first second : Frame R) : Prop :=
  first.timecode + (first.payloadSize + 4) * samplesPerSymbol ≤ second.timecode

/-- What a call detects is stamped with the samples before the symbol it is detected at. -/
def Stamped (before : Nat) (samples : List Sample)
    (events : List (FrameEvent R samplesPerSymbol)) : Prop :=
  ∀ symbol frame, .detected symbol frame ∈ events →
    ∃ k < samples.length / samplesPerSymbol, symbol = symbolOf samplesPerSymbol samples k ∧
      frame.timecode = before + k * samplesPerSymbol

/-- Every call of a run stamps its frames on top of the samples of the calls before it. -/
def StampedCalls (calls : List (UInt64 × List Sample))
    (reports : List (CallReport R samplesPerSymbol)) : Prop :=
  ∀ past call rest, calls = past ++ call :: rest →
    ∃ report, reports[past.length]? = some report ∧
      Stamped (delivered past) call.2 report.events

section Law

variable [Field R] [LinearOrder R] (platform : Platform R) (codec : OpenstintCodec)
  (computePassingPoint : List (Detection R) → PassingPoint R)

/-- The timecodes of a run of `detect_frames`, whose processed frames the receiving thread
passes on while the main thread goes on with its own work. -/
structure TimecodeLaw (calls : List (UInt64 × List Sample))
    (reports : List (CallReport R samplesPerSymbol)) : Prop where
  stamped : StampedCalls calls reports
  spaced : (detectedFrames (reports.flatMap CallReport.events)).IsChain (Spaced samplesPerSymbol)
  processed : (processedFrames (reports.flatMap CallReport.events)).map Frame.timecode <+:
    (detectedFrames (reports.flatMap CallReport.events)).map Frame.timecode
  queued : ∀ inputs, framesOf inputs <+: processedFrames (reports.flatMap CallReport.events) →
    ∀ (key : TransponderKey) (detections : List (Detection R)),
      (exec (processorStep platform codec computePassingPoint) .initial
        inputs).passingDetector.detections[key]? = some detections →
      IncreasingTimecodes detections ∧ (16 ≤ detections.length → ResamplingLaw detections)

end Law

/-! ### Where the receiver is -/

/-- A frame as the constructor leaves it. -/
structure Fresh (frame : Frame R) : Prop where
  softbits : frame.softbits = []
  preambleSize : frame.preambleSize = 16

/-- What a mode of the receiver says of the frames when the next symbol starts at a position of
the stream. -/
def Stage (samplesPerSymbol position : Nat) (frame : Frame R) (pendingTrail : Int)
    (detected processed : List (Frame R)) : FrameParseMode → Prop
  | .frameSeek => processed.map Frame.timecode = detected.map Frame.timecode ∧
    ∀ last ∈ detected.getLast?,
      last.timecode + (last.payloadSize + 4) * samplesPerSymbol ≤ position
  | .frameWait => ∃ earlier, detected = earlier ++ [frame] ∧
    processed.map Frame.timecode = earlier.map Frame.timecode ∧ pendingTrail = 1 ∧ Fresh frame ∧
    frame.timecode + samplesPerSymbol ≤ position
  | .frameFound => ∃ earlier first count, detected = earlier ++ [first] ∧
    processed.map Frame.timecode = earlier.map Frame.timecode ∧ Fresh first ∧
    FedFrame first frame count ∧ count < first.payloadSize + 20 ∧
    first.timecode + count * samplesPerSymbol ≤ position + 16 * samplesPerSymbol

theorem detectedFrames_append (first second : List (FrameEvent R samplesPerSymbol)) :
    detectedFrames (first ++ second) = detectedFrames first ++ detectedFrames second :=
  List.filterMap_append

theorem processedFrames_append (first second : List (FrameEvent R samplesPerSymbol)) :
    processedFrames (first ++ second) = processedFrames first ++ processedFrames second :=
  List.filterMap_append

/-- What turn `k` of the loop detects is stamped with the samples before symbol `k`. -/
def StampedAt (before : Nat) (samples : List Sample) (k : Nat)
    (events : List (FrameEvent R samplesPerSymbol)) : Prop :=
  ∀ symbol frame, .detected symbol frame ∈ events →
    symbol = symbolOf samplesPerSymbol samples k ∧
      frame.timecode = before + k * samplesPerSymbol

theorem stampedAt_nil (before : Nat) (samples : List Sample) (k : Nat) :
    StampedAt before samples k ([] : List (FrameEvent R samplesPerSymbol)) := by
  intro symbol frame member
  cases member

/-- What the turns of a loop stamp, the call stamps. -/
theorem Stamped.of_turns {before : Nat} {samples : List Sample}
    {answers : List (List (FrameEvent R samplesPerSymbol))}
    (turns : List.Forall₂ (StampedAt before samples)
      (List.range (samples.length / samplesPerSymbol)) answers) :
    Stamped before samples answers.flatten := by
  intro symbol frame member
  obtain ⟨events, answered, detected⟩ := List.mem_flatten.mp member
  obtain ⟨k, inside, found⟩ := List.getElem_of_mem answered
  have below : k < samples.length / samplesPerSymbol := by
    rwa [← turns.length_eq, List.length_range] at inside
  have turn := turns.get (i := k) (by rwa [List.length_range]) inside
  rw [List.get_eq_getElem, List.getElem_range, List.get_eq_getElem, found] at turn
  exact ⟨k, below, turn symbol frame detected⟩

theorem StampedCalls.nil : StampedCalls [] ([] : List (CallReport R samplesPerSymbol)) := by
  rintro past call rest split
  exact absurd split (List.cons_ne_nil call rest ∘ (List.nil_eq_append_iff.mp · |>.2))

/-- A further call stamps its frames on top of all the samples delivered so far. -/
theorem StampedCalls.concat {calls : List (UInt64 × List Sample)}
    {reports : List (CallReport R samplesPerSymbol)} (stamped : StampedCalls calls reports)
    (answered : reports.length = calls.length) {call : UInt64 × List Sample}
    {report : CallReport R samplesPerSymbol}
    (last : Stamped (delivered calls) call.2 report.events) :
    StampedCalls (calls ++ [call]) (reports ++ [report]) := by
  intro past other rest split
  rcases List.eq_nil_or_concat rest with rfl | ⟨middle, final, rfl⟩
  · obtain ⟨rfl, same⟩ := List.append_inj' split rfl
    obtain rfl := List.singleton_inj.mp same
    exact ⟨report, by rw [← answered, List.getElem?_concat_length], last⟩
  · rw [List.concat_eq_append, ← List.cons_append, ← List.append_assoc] at split
    obtain ⟨earlier, -⟩ := List.append_inj' split rfl
    obtain ⟨known, found, kept⟩ := stamped past other middle earlier
    have inside := (List.getElem?_eq_some_iff.mp found).1
    exact ⟨known, by rw [List.getElem?_append_left inside, found], kept⟩

theorem Stage.later {position later : Nat} {frame : Frame R} {pendingTrail : Int}
    {detected processed : List (Frame R)} {mode : FrameParseMode}
    (stage : Stage samplesPerSymbol position frame pendingTrail detected processed mode)
    (after : position ≤ later) :
    Stage samplesPerSymbol later frame pendingTrail detected processed mode := by
  cases mode with
  | frameSeek =>
    obtain ⟨finished, behind⟩ := stage
    exact ⟨finished, fun last member => (behind last member).trans after⟩
  | frameWait =>
    obtain ⟨earlier, split, finished, trail, fresh, here⟩ := stage
    exact ⟨earlier, split, finished, trail, fresh, here.trans after⟩
  | frameFound =>
    obtain ⟨earlier, first, count, split, finished, fresh, facts, short, here⟩ := stage
    exact ⟨earlier, first, count, split, finished, fresh, facts, short,
      here.trans (Nat.add_le_add_right after _)⟩

theorem Stage.processed {position : Nat} {frame : Frame R} {pendingTrail : Int}
    {detected processed : List (Frame R)} {mode : FrameParseMode}
    (stage : Stage samplesPerSymbol position frame pendingTrail detected processed mode) :
    processed.map Frame.timecode <+: detected.map Frame.timecode := by
  cases mode with
  | frameSeek => exact stage.1 ▸ List.prefix_rfl
  | frameWait =>
    obtain ⟨earlier, rfl, finished, -⟩ := stage
    rw [finished, List.map_append]
    exact List.prefix_append _ _
  | frameFound =>
    obtain ⟨earlier, first, count, rfl, finished, -⟩ := stage
    rw [finished, List.map_append]
    exact List.prefix_append _ _

section Receiver

variable [Field R] {platform : Platform R} {baseband : Baseband R samplesPerSymbol}

/-- What is known of a receiver when the next symbol starts at a position of the stream. -/
structure At (position : Nat) (receiver : Receiver platform baseband)
    (events : List (FrameEvent R samplesPerSymbol)) : Prop where
  reserve : receiver.symbolReader.reserveBuffer.length = reserveBufferSize samplesPerSymbol
  spaced : (detectedFrames events).IsChain (Spaced samplesPerSymbol)
  stage : Stage samplesPerSymbol position receiver.frame receiver.pendingTrail
    (detectedFrames events) (processedFrames events) receiver.frameParseMode

/-- Turn `k` of the loop is defined, takes the receiver to the next symbol, and stamps what it
detects. -/
def Advances (timestamp : UInt64) (samples : List Sample) (receiver : Receiver platform baseband)
    (flag : Bool) (k : Nat) (events : List (FrameEvent R samplesPerSymbol)) : Prop :=
  ∃ next more, Receiver.receiveSymbol timestamp samples (receiver, flag) k = some (next, more) ∧
    next.1.timecode = receiver.timecode ∧
    At (receiver.timecode + (k + 1) * samplesPerSymbol) next.1 (events ++ more) ∧
    StampedAt receiver.timecode samples k more

/-- A symbol in `FRAME_SEEK`: a detection here lies behind the payload of the last frame. -/
theorem seek_advances {samples : List Sample} {k : Nat} {receiver : Receiver platform baseband}
    {events : List (FrameEvent R samplesPerSymbol)} (mode : receiver.frameParseMode = .frameSeek)
    (now : At (receiver.timecode + k * samplesPerSymbol) receiver events)
    (inside : (k + 1) * samplesPerSymbol ≤ samples.length) (timestamp : UInt64) (flag : Bool) :
    Advances timestamp samples receiver flag k events := by
  obtain ⟨reserve, spaced, stage⟩ := now
  rw [mode] at stage
  obtain ⟨finished, behind⟩ := stage
  rw [Nat.succ_mul] at inside
  have read : readSymbolAt samplesPerSymbol samples (k * samplesPerSymbol : Nat) =
      some (symbolOf samplesPerSymbol samples k) := readSymbolAt_of_le inside
  have next : receiver.timecode + k * samplesPerSymbol + samplesPerSymbol =
      receiver.timecode + (k + 1) * samplesPerSymbol := by rw [Nat.succ_mul, Nat.add_assoc]
  cases outcome : baseband.processBaseband receiver.frameDetector
      (symbolOf samplesPerSymbol samples k) with
  | mk frameDetector detection =>
    cases detection with
    | none =>
      refine ⟨_, _, receiveSymbol_quiet mode read outcome timestamp flag, rfl, ?_,
        stampedAt_nil _ _ _⟩
      rw [List.append_nil, ← next]
      refine ⟨reserve, spaced, ?_⟩
      dsimp only
      rw [mode]
      exact Stage.later ⟨finished, behind⟩ (Nat.le_add_right _ _)
    | some result =>
      obtain ⟨protocol, metric⟩ := result
      let frame : Frame R := .detected protocol metric
        (timestamp + .ofNat (k * samplesPerSymbol) * 1000000 / sampleRate samplesPerSymbol)
        (receiver.timecode + k * samplesPerSymbol)
      have stamped : frame = .detected protocol metric _ _ := rfl
      refine ⟨_, _, receiveSymbol_detects mode read outcome stamped flag, rfl, ?_, ?_⟩
      · have added : detectedFrames
            (events ++ [.detected (symbolOf samplesPerSymbol samples k) frame]) =
            detectedFrames events ++ [frame] := detectedFrames_append _ _
        have kept : processedFrames
            (events ++ [.detected (symbolOf samplesPerSymbol samples k) frame]) =
            processedFrames events := (processedFrames_append _ _).trans (List.append_nil _)
        refine ⟨reserve, ?_, ?_⟩
        · rw [added, List.isChain_append]
          refine ⟨spaced, List.isChain_singleton _, fun last member first same => ?_⟩
          obtain rfl := Option.some.inj same
          exact behind last member
        · rw [added, kept, ← next]
          exact ⟨_, rfl, finished, rfl, ⟨rfl, rfl⟩, le_rfl⟩
      · intro symbol other member
        cases List.mem_singleton.mp member
        exact ⟨rfl, rfl⟩

omit [Field R] in
/-- The reserve and the buffer in a row, as a stream that begins with the 18 symbols. -/
theorem looksBack_drop {reader : SymbolReader platform} {samples : List Sample} {k : Nat}
    (reserve : reader.reserveBuffer.length = reserveBufferSize samplesPerSymbol)
    (inside : (k + 1) * samplesPerSymbol ≤ samples.length) :
    LooksBack samplesPerSymbol reader samples
      ((reader.reserveBuffer ++ samples).drop ((k + 1) * samplesPerSymbol))
      ((k + 1) * samplesPerSymbol) 0 where
  reserved := reserve
  inside := inside
  aligned := Dvd.intro_left _ rfl
  samples := fun i _ => by rw [sampleOf_drop, Nat.zero_mul, Nat.zero_add]

/-- A symbol in `FRAME_WAIT`: the frame gets its first 18 softbits. -/
theorem wait_advances {samples : List Sample} {k : Nat} {receiver : Receiver platform baseband}
    {events : List (FrameEvent R samplesPerSymbol)} (mode : receiver.frameParseMode = .frameWait)
    (now : At (receiver.timecode + k * samplesPerSymbol) receiver events)
    (inside : (k + 1) * samplesPerSymbol ≤ samples.length) (timestamp : UInt64) (flag : Bool) :
    Advances timestamp samples receiver flag k events := by
  obtain ⟨reserve, spaced, stage⟩ := now
  rw [mode] at stage
  obtain ⟨earlier, split, finished, trail, fresh, here⟩ := stage
  obtain ⟨reader, frame, stepped, fed, same⟩ :=
    receiveSymbol_trains mode trail (looksBack_drop reserve inside) timestamp flag
  refine ⟨_, _, stepped, rfl, ?_, stampedAt_nil _ _ _⟩
  rw [List.append_nil]
  refine ⟨(congrArg List.length same).trans reserve, spaced, earlier, receiver.frame,
    preambleSymbolCount, split, finished, fresh, fed.frame, ?_, ?_⟩
  · rw [preambleSymbolCount_eq]
    omega
  · rw [preambleSymbolCount_eq, Nat.succ_mul k]
    omega

/-- A symbol in `FRAME_FOUND`: the frame gets one more softbit, and is processed when that is the
last one. -/
theorem found_advances {samples : List Sample} {k : Nat} {receiver : Receiver platform baseband}
    {events : List (FrameEvent R samplesPerSymbol)} (mode : receiver.frameParseMode = .frameFound)
    (now : At (receiver.timecode + k * samplesPerSymbol) receiver events)
    (inside : (k + 1) * samplesPerSymbol ≤ samples.length) (timestamp : UInt64) (flag : Bool) :
    Advances timestamp samples receiver flag k events := by
  obtain ⟨reserve, spaced, stage⟩ := now
  rw [mode] at stage
  obtain ⟨earlier, first, count, split, finished, fresh, facts, short, here⟩ := stage
  rw [Nat.succ_mul] at inside
  let dcOffset := baseband.dcOffset receiver.frameDetector
  let fed := receiver.symbolReader.feedSymbol samplesPerSymbol receiver.frame
    (symbolOf samplesPerSymbol samples k) dcOffset
  have reads : receiver.symbolReader.readSymbol samplesPerSymbol receiver.frame samples
      (k * samplesPerSymbol : Nat) dcOffset = some fed := by
    rw [SymbolReader.readSymbol, readSymbolAt_of_le inside]
    rfl
  have factsNext : FedFrame first fed.2 (count + 1) := facts.feed _ _ dcOffset
  have complete := factsNext.complete_iff fresh.softbits fresh.preambleSize short
  have hereNext : first.timecode + (count + 1) * samplesPerSymbol ≤
      receiver.timecode + (k + 1) * samplesPerSymbol + 16 * samplesPerSymbol := by
    rw [Nat.succ_mul, Nat.succ_mul]
    omega
  have stepped := receiveSymbol_feeds mode reads timestamp flag
  by_cases last : count + 1 = first.payloadSize + 20
  · have same : detectedFrames (events ++ [.processed fed.2]) = detectedFrames events :=
      (detectedFrames_append _ _).trans (List.append_nil _)
    have added : processedFrames (events ++ [.processed fed.2]) =
        processedFrames events ++ [fed.2] := processedFrames_append _ _
    refine ⟨_, _, stepped.trans (if_pos (complete.mpr last)), rfl, ⟨reserve, ?_, ?_⟩, ?_⟩
    · rw [same]
      exact spaced
    · rw [same, added, split]
      refine ⟨?_, fun other member => ?_⟩
      · rw [List.map_append, List.map_append, finished, List.map_singleton, List.map_singleton,
          factsNext.timecode]
      · rw [List.getLast?_concat] at member
        obtain rfl := Option.some.inj member
        rw [last, Nat.add_mul] at hereNext
        rw [Nat.add_mul]
        omega
    · intro symbol frame member
      cases List.mem_singleton.mp member
  · refine ⟨_, _, stepped.trans (if_neg fun done => last (complete.mp done)), rfl, ?_,
      stampedAt_nil _ _ _⟩
    rw [List.append_nil]
    refine ⟨reserve, spaced, ?_⟩
    dsimp only
    rw [mode]
    exact ⟨earlier, first, count + 1, split, finished, fresh, factsNext,
      Nat.lt_of_le_of_ne short last, hereNext⟩

theorem receiveSymbol_advances {samples : List Sample} {k : Nat}
    {receiver : Receiver platform baseband} {events : List (FrameEvent R samplesPerSymbol)}
    (now : At (receiver.timecode + k * samplesPerSymbol) receiver events)
    (inside : (k + 1) * samplesPerSymbol ≤ samples.length) (timestamp : UInt64) (flag : Bool) :
    Advances timestamp samples receiver flag k events := by
  cases mode : receiver.frameParseMode with
  | frameSeek => exact seek_advances mode now inside timestamp flag
  | frameWait => exact wait_advances mode now inside timestamp flag
  | frameFound => exact found_advances mode now inside timestamp flag

/-- The whole loop of a call. -/
theorem loop_advances (samples : List Sample) {receiver : Receiver platform baseband}
    {events : List (FrameEvent R samplesPerSymbol)} (now : At receiver.timecode receiver events)
    (timestamp : UInt64) :
    ∃ last answers, run (Receiver.receiveSymbol timestamp samples) (receiver, false)
        (List.range (samples.length / samplesPerSymbol)) = some (last, answers) ∧
      last.1.timecode = receiver.timecode ∧
      At (receiver.timecode + samples.length / samplesPerSymbol * samplesPerSymbol) last.1
        (events ++ answers.flatten) ∧
      List.Forall₂ (StampedAt receiver.timecode samples)
        (List.range (samples.length / samplesPerSymbol)) answers := by
  have loop : ∃ last answers, run (Receiver.receiveSymbol timestamp samples) (receiver, false)
        (List.range (samples.length / samplesPerSymbol)) = some (last, answers) ∧
      last.1.timecode = receiver.timecode ∧
      At (receiver.timecode +
          (List.range (samples.length / samplesPerSymbol)).length * samplesPerSymbol) last.1
        (events ++ answers.flatten) ∧
      List.Forall₂ (StampedAt receiver.timecode samples)
        (List.range (samples.length / samplesPerSymbol)) answers := by
    refine run_inputs (fun past answers (state : Receiver platform baseband × Bool) =>
      state.1.timecode = receiver.timecode ∧
      At (receiver.timecode + past.length * samplesPerSymbol) state.1
        (events ++ answers.flatten) ∧
      List.Forall₂ (StampedAt receiver.timecode samples) past answers) _ ?_ ?_
    · rintro past answers ⟨current, flag⟩ k inside ⟨same, at_, stamped⟩
      obtain ⟨rfl, below⟩ := prefix_range inside
      have inBuffer : (past.length + 1) * samplesPerSymbol ≤ samples.length :=
        (Nat.mul_le_mul_right samplesPerSymbol below).trans (Nat.div_mul_le_self _ _)
      dsimp only at same at_
      rw [← same] at at_ stamped ⊢
      obtain ⟨next, more, stepped, kept, atNext, stampedNext⟩ :=
        receiveSymbol_advances at_ inBuffer timestamp flag
      refine ⟨next, more, stepped, kept, ?_,
        List.rel_append stamped (List.Forall₂.cons stampedNext List.Forall₂.nil)⟩
      rwa [List.length_append, List.length_singleton, List.flatten_append, List.flatten_singleton,
        ← List.append_assoc]
    · refine ⟨rfl, ?_, List.Forall₂.nil⟩
      rwa [List.length_nil, Nat.zero_mul, Nat.add_zero, List.flatten_nil, List.append_nil]
  rwa [List.length_range] at loop

/-- A call of `detect_frames`, whether or not its buffer is dropped, and whether or not it holds
whole symbols. -/
theorem detectFrames_advances {receiver : Receiver platform baseband}
    {events : List (FrameEvent R samplesPerSymbol)} (now : At receiver.timecode receiver events)
    (call : UInt64 × List Sample) (short : call.2.length < indexLimit) :
    ∃ next report, receiver.detectFrames call = some (next, report) ∧
      next.timecode = receiver.timecode + call.2.length ∧
      At next.timecode next (events ++ report.events) ∧
      Stamped receiver.timecode call.2 report.events := by
  obtain ⟨timestamp, samples⟩ := call
  dsimp only at short ⊢
  by_cases dropped : samples.length < reserveBufferSize samplesPerSymbol
  · refine ⟨_, _, if_pos dropped, rfl, ?_, fun symbol frame member => by cases member⟩
    rw [List.append_nil]
    exact ⟨now.reserve, now.spaced, now.stage.later (Nat.le_add_right _ _)⟩
  have enough := Nat.not_lt.mp dropped
  obtain ⟨⟨last, frameDetected⟩, answers, ran, same, kept, turns⟩ :=
    loop_advances samples now timestamp
  have stamped := Stamped.of_turns turns
  dsimp only at same kept
  have saved : last.symbolReader.updateReserveBuffer samplesPerSymbol samples samples.length =
      some _ := updateReserveBuffer_eq enough
  have tail : (samples.drop (samples.length - reserveBufferSize samplesPerSymbol)).length =
      reserveBufferSize samplesPerSymbol := by
    rw [List.length_drop, Nat.sub_sub_self enough]
  have timecode : last.timecode + samples.length = receiver.timecode + samples.length := by
    rw [same]
  -- the rest of the buffer, less than a symbol, is skipped
  have stage : Stage samplesPerSymbol (receiver.timecode + samples.length) _ _ _ _ _ :=
    kept.stage.later (Nat.add_le_add_left (Nat.div_mul_le_self _ _) _)
  simp only [Receiver.detectFrames, if_neg dropped, if_neg (Nat.not_le.mpr short), ran, saved,
    Option.bind_eq_bind, Option.bind_some]
  cases frameDetected with
  | true => exact ⟨_, _, rfl, timecode, ⟨tail, kept.spaced, timecode ▸ stage⟩, stamped⟩
  | false => exact ⟨_, _, rfl, timecode, ⟨tail, kept.spaced, timecode ▸ stage⟩, stamped⟩

theorem at_initial : At 0 (Receiver.initial : Receiver platform baseband) [] where
  reserve := List.length_replicate
  spaced := List.isChain_nil
  stage := ⟨rfl, by rintro last ⟨⟩⟩

theorem delivered_concat (calls : List (UInt64 × List Sample)) (call : UInt64 × List Sample) :
    delivered (calls ++ [call]) = delivered calls + call.2.length := by
  rw [delivered, delivered, List.map_append, List.sum_append, List.map_singleton,
    List.sum_singleton]

variable (platform baseband) in
/-- Every run of calls is defined, counts the samples that were delivered, and stamps its frames
with them. -/
theorem run_advances (calls : List (UInt64 × List Sample))
    (short : ∀ call ∈ calls, call.2.length < indexLimit) :
    ∃ (receiver : Receiver platform baseband) (reports : List (CallReport R samplesPerSymbol)),
      run Receiver.detectFrames .initial calls = some (receiver, reports) ∧
        At receiver.timecode receiver (reports.flatMap CallReport.events) ∧
        StampedCalls calls reports := by
  have counted : ∃ (receiver : Receiver platform baseband)
      (reports : List (CallReport R samplesPerSymbol)),
      run Receiver.detectFrames .initial calls = some (receiver, reports) ∧
        reports.length = calls.length ∧ receiver.timecode = delivered calls ∧
        At receiver.timecode receiver (reports.flatMap CallReport.events) ∧
        StampedCalls calls reports := by
    refine run_inputs (fun past reports (receiver : Receiver platform baseband) =>
      reports.length = past.length ∧ receiver.timecode = delivered past ∧
        At receiver.timecode receiver (reports.flatMap CallReport.events) ∧
        StampedCalls past reports) calls ?_ ⟨rfl, rfl, at_initial, .nil⟩
    rintro past reports receiver call inside ⟨answered, count, now, stamped⟩
    have known : call ∈ calls := inside.subset (List.mem_append_right _ (.head _))
    obtain ⟨next, report, stepped, timecode, kept, last⟩ :=
      detectFrames_advances now call (short call known)
    refine ⟨next, report, stepped, ?_, ?_, ?_, stamped.concat answered (count ▸ last)⟩
    · rw [List.length_append, List.length_append, answered]
      rfl
    · rw [timecode, count, delivered_concat]
    · rwa [List.flatMap_append, List.flatMap_singleton]
  obtain ⟨receiver, reports, ran, -, -, now, stamped⟩ := counted
  exact ⟨receiver, reports, ran, now, stamped⟩

end Receiver

/-! ### The queues of the passing detector -/

section Queues

/-- Every queue holds increasing timecodes of the given frames. -/
def QueuesFrom (frames : List (Frame R)) (detector : PassingDetector R) : Prop :=
  ∀ (key : TransponderKey) (detections : List (Detection R)),
    detector.detections[key]? = some detections →
    IncreasingTimecodes detections ∧
      ∀ detection ∈ detections, detection.timecode ∈ frames.map Frame.timecode

theorem QueuesFrom.initial : QueuesFrom ([] : List (Frame R)) .initial := by
  rintro key detections ⟨⟩

theorem QueuesFrom.concat {frames : List (Frame R)} {detector : PassingDetector R}
    (queues : QueuesFrom frames detector) (frame : Frame R) :
    QueuesFrom (frames ++ [frame]) detector := by
  intro key detections held
  obtain ⟨increasing, members⟩ := queues key detections held
  refine ⟨increasing, fun detection member => ?_⟩
  rw [List.map_append]
  exact List.mem_append_left _ (members detection member)

variable [Field R] (platform : Platform R)

/-- A hit of a later frame goes to the end of its queue. -/
theorem QueuesFrom.append {frames : List (Frame R)} {detector : PassingDetector R}
    (queues : QueuesFrom frames detector) {frame : Frame R}
    (later : ∀ earlier ∈ frames, earlier.timecode < frame.timecode) (transponderId : UInt32) :
    QueuesFrom (frames ++ [frame]) (detector.append platform frame transponderId) := by
  intro key detections held
  rw [PassingDetector.append, Std.TreeMap.getElem?_insert] at held
  split at held
  · let queue := detector.detections.getD (PassingDetector.keyOf frame transponderId) []
    let hit := PassingDetector.detectionOf platform frame
    obtain rfl : push transponderDetectionMsgLimit queue hit = detections := Option.some.inj held
    obtain ⟨increasing, members⟩ : IncreasingTimecodes queue ∧
        ∀ detection ∈ queue, detection.timecode ∈ frames.map Frame.timecode := by
      dsimp only [queue]
      rw [Std.TreeMap.getD_eq_getD_getElem?]
      cases present : detector.detections[PassingDetector.keyOf frame transponderId]? with
      | none => exact ⟨List.Pairwise.nil, by rintro detection ⟨⟩⟩
      | some detections => exact queues _ detections present
    have grown : IncreasingTimecodes (queue ++ [hit]) := by
      refine List.pairwise_append.mpr ⟨increasing, List.pairwise_singleton _ _, ?_⟩
      intro detection member other last
      obtain ⟨earlier, known, same⟩ := List.mem_map.mp (members detection member)
      rw [List.mem_singleton.mp last, ← same]
      exact later earlier known
    have pushed : push transponderDetectionMsgLimit queue hit <:+ queue ++ [hit] :=
      push_suffix List.suffix_rfl hit
    refine ⟨grown.sublist pushed.sublist, fun detection member => ?_⟩
    rw [List.map_append]
    rcases List.mem_append.mp (pushed.subset member) with before | last
    · exact List.mem_append_left _ (members detection before)
    · rw [List.mem_singleton.mp last]
      exact List.mem_append_right _ (List.mem_singleton_self _)
  · exact queues.concat frame key detections held

/-- Whatever is reported of a later frame, its hit goes to the end of a queue. -/
theorem QueuesFrom.recorded {frames : List (Frame R)} {detector : PassingDetector R}
    (queues : QueuesFrom frames detector) {frame : Frame R}
    (later : ∀ earlier ∈ frames, earlier.timecode < frame.timecode) (report : FrameReport) :
    QueuesFrom (frames ++ [frame]) (report.recorded platform frame detector) := by
  obtain ⟨processed, hit, timesync⟩ := report
  cases hit with
  | none =>
    cases timesync with
    | none => exact queues.concat frame
    | some transponderTimestamp => exact queues.concat frame
  | some transponderId =>
    cases timesync with
    | none => exact queues.append platform later transponderId
    | some transponderTimestamp => exact queues.append platform later transponderId

omit [Field R] in
theorem QueuesFrom.identifyPassings {frames : List (Frame R)} {detector : PassingDetector R}
    (queues : QueuesFrom frames detector)
    (computePassingPoint : List (Detection R) → PassingPoint R) (deadline : UInt64) :
    QueuesFrom frames (detector.identifyPassings computePassingPoint deadline).1 := by
  intro key detections held
  rw [getElem?_identifyPassings] at held
  exact queues key detections (Option.eq_some_of_filter_eq_some held)

omit [Field R] in
theorem framesOf_append (first second : List (ProcessorInput R)) :
    framesOf (first ++ second) = framesOf first ++ framesOf second :=
  List.filterMap_append

/-- Frames in the order of the stream leave increasing queues. -/
theorem queuesFrom_run (codec : OpenstintCodec)
    (computePassingPoint : List (Detection R) → PassingPoint R) (inputs : List (ProcessorInput R))
    (ordered : (framesOf inputs).Pairwise fun first second => first.timecode < second.timecode) :
    QueuesFrom (framesOf inputs) (exec (processorStep platform codec computePassingPoint) .initial
      inputs).passingDetector := by
  induction inputs using List.reverseRecOn with
  | nil => exact .initial
  | append_singleton past input inductionHypothesis =>
    rw [framesOf_append] at ordered ⊢
    obtain ⟨before, -, later⟩ := List.pairwise_append.mp ordered
    have queues := inductionHypothesis before
    rw [exec_concat]
    cases input with
    | frame lookup frame =>
      dsimp only [processorStep]
      rw [FrameProcessor.processFrame_recorded]
      exact queues.recorded platform
        (fun earlier member => later earlier member frame List.mem_cons_self) _
    | identifyTimesyncs margin =>
      exact (List.append_nil (framesOf past)).symm ▸ queues
    | identifyPassings deadline =>
      exact (List.append_nil (framesOf past)).symm ▸ queues.identifyPassings _ deadline
    | evaluate rc4Trainer =>
      exact (List.append_nil (framesOf past)).symm ▸ queues

end Queues

/-! ### The law -/

/-- Spaced frames are in the order of the stream. -/
theorem pairwise_of_spaced [NeZero samplesPerSymbol] {frames : List (Frame R)}
    (spaced : frames.IsChain (Spaced samplesPerSymbol)) :
    (frames.map Frame.timecode).Pairwise (· < ·) := by
  refine List.isChain_iff_pairwise.mp ((List.isChain_map _).mpr (spaced.imp ?_))
  intro first second gap
  have positive : 0 < (first.payloadSize + 4) * samplesPerSymbol :=
    Nat.mul_pos (Nat.succ_pos _) (Nat.pos_of_neZero samplesPerSymbol)
  unfold Spaced at gap
  omega

/-- For every sequence of buffers that an `int` can index and every pattern of detections the
timecodes are places in the stream, consecutive frames are a payload apart, and the hits of every
transponder come in the order of the stream. -/
theorem timecode_law [Field R] [LinearOrder R] [IsStrictOrderedRing R] [NeZero samplesPerSymbol]
    (platform : Platform R) (baseband : Baseband R samplesPerSymbol) (codec : OpenstintCodec)
    (computePassingPoint : List (Detection R) → PassingPoint R)
    (calls : List (UInt64 × List Sample)) (short : ∀ call ∈ calls, call.2.length < indexLimit) :
    ∃ (receiver : Receiver platform baseband) (reports : List (CallReport R samplesPerSymbol)),
      run Receiver.detectFrames .initial calls = some (receiver, reports) ∧
        TimecodeLaw platform codec computePassingPoint calls reports := by
  obtain ⟨receiver, reports, ran, now, stamped⟩ := run_advances platform baseband calls short
  refine ⟨receiver, reports, ran, stamped, now.spaced, now.stage.processed, ?_⟩
  intro inputs processed key detections held
  have ordered : (framesOf inputs).Pairwise fun first second =>
      first.timecode < second.timecode := by
    refine List.pairwise_map.mp ?_
    exact (pairwise_of_spaced now.spaced).sublist
      (((processed.map Frame.timecode).trans now.stage.processed).sublist)
  obtain ⟨increasing, -⟩ :=
    queuesFrom_run platform codec computePassingPoint inputs ordered key detections held
  exact ⟨increasing, fun several => resampling_law increasing (by omega)⟩

/-- A buffer that is dropped, and two whose sizes are not divisible by 8. -/
def unalignedCalls : List (UInt64 × List Sample) :=
  [(0, List.replicate 5 0), (1000, List.replicate 203 0), (2000, List.replicate 1021 0)]

theorem unalignedCalls_short : ∀ call ∈ unalignedCalls, call.2.length < indexLimit := by
  intro call member
  simp only [unalignedCalls, List.mem_cons, List.not_mem_nil, or_false] at member
  rcases member with rfl | rfl | rfl <;>
  · rw [List.length_replicate]
    decide

theorem timecode_law_unaligned :
    ∃ (receiver : Receiver idealPlatform frameDetectorBaseband) (reports : List (CallReport ℝ 8)),
      run Receiver.detectFrames .initial unalignedCalls = some (receiver, reports) ∧
        TimecodeLaw idealPlatform errorFreeCodec (fun _ => ⟨0, 0, 0⟩) unalignedCalls reports :=
  timecode_law idealPlatform frameDetectorBaseband errorFreeCodec (fun _ => ⟨0, 0, 0⟩)
    unalignedCalls unalignedCalls_short

end OpenStint
