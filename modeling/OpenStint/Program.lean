/-
This file puts the two halves of the program together: `detect_frames`, which makes frames of
the samples, and the decoder, which makes messages of the frames. The radio hands a buffer to
the receiving thread, which reads the frames of it and takes each of them through its critical
sections, while the main thread reports and other processes change the directory.

Whatever the order of all this, the program does what its halves do: no frame that the receiver
completes gets lost on the way to the decoder, none is processed twice or out of turn, and the
decoder never meets a frame while it still has one.
-/

import OpenStint.DecoderFrames
import OpenStint.Timecodes

namespace OpenStint

open Machine

variable {R : Type} {samplesPerSymbol : Nat}

/-! ### The program -/

/-- The state of the program: of `detect_frames`, of the decoder, and what the call of
`detect_frames` under way has still to do for the decoder. -/
structure Program (config : DecoderConfig R) (baseband : Baseband R samplesPerSymbol) where
  receiver : Receiver config.platform baseband
  decoder : Decoder R
  remaining : List (DecoderInput R)

def Program.start [Field R] (config : DecoderConfig R) (baseband : Baseband R samplesPerSymbol)
    (directory : List DirEntry) : Program config baseband where
  receiver := .initial
  decoder := .start directory
  remaining := []

/-- What can happen: the radio delivers a buffer, at a time; the receiving thread or the main
thread goes on; another process changes the directory. -/
inductive ProgramInput
  | buffer (timestamp : UInt64) (samples : List Sample)
  | receive
  | directoryChange (directory : List DirEntry)
  | reportDetections (now nowSysclk : UInt64)

/-- A buffer is one that an `int` can index: the drivers count its bytes in 32 bits. -/
def ProgramInput.Short : ProgramInput → Prop
  | .buffer _ samples => samples.length < indexLimit
  | _ => True

/-- What happened: nothing, as the receiving thread is still in the call before; a call of
`detect_frames`, with all the frames that it will complete; or a critical section. -/
inductive ProgramReport (R : Type) (samplesPerSymbol : Nat)
  | quiet
  | called (call : UInt64 × List Sample) (report : CallReport R samplesPerSymbol)
  | decoded (input : DecoderInput R) (report : DecoderReport R)

/-- What a call of `detect_frames` does for the decoder: it processes its frames, and it may save
the characteristics of the channel at the end. -/
def CallReport.inputs (report : CallReport R samplesPerSymbol) : List (DecoderInput R) :=
  (processedFrames report.events).map .frame ++
    report.channel.toList.map fun channel => .saveChannelCharacteristics channel.1 channel.2

def ReceiveStage.isIdle : ReceiveStage R → Bool
  | .idle => true
  | _ => false

section Step

variable [Field R] [LinearOrder R] (config : DecoderConfig R)
  {baseband : Baseband R samplesPerSymbol}

/-- A step of the decoder. -/
def Program.decode (program : Program config baseband) (input : DecoderInput R) :
    Option (Program config baseband × ProgramReport R samplesPerSymbol) := do
  let (decoder, report) ← decoderStep config program.decoder input
  return ({ program with decoder }, .decoded input report)

/-- The receiving thread finishes with a frame before it turns to the next thing to do. -/
def programStep (program : Program config baseband) :
    ProgramInput → Option (Program config baseband × ProgramReport R samplesPerSymbol)
  | .buffer timestamp samples =>
    if program.decoder.receiveStage.isIdle && program.remaining.isEmpty then do
      let (receiver, report) ← program.receiver.detectFrames (timestamp, samples)
      return ({ program with receiver, remaining := report.inputs },
        .called (timestamp, samples) report)
    else some (program, .quiet)
  | .receive =>
    match program.remaining with
    | [] => program.decode config .receive
    | input :: rest =>
      if program.decoder.receiveStage.isIdle then
        { program with remaining := rest }.decode config input
      else program.decode config .receive
  | .directoryChange directory => program.decode config (.directoryChange directory)
  | .reportDetections now nowSysclk => program.decode config (.reportDetections now nowSysclk)

end Step

/-! ### What a run is made of -/

/-- The calls of `detect_frames`. -/
def callsOf (reports : List (ProgramReport R samplesPerSymbol)) : List (UInt64 × List Sample) :=
  reports.filterMap fun
    | .called call _ => some call
    | _ => none

def callReportsOf (reports : List (ProgramReport R samplesPerSymbol)) :
    List (CallReport R samplesPerSymbol) :=
  reports.filterMap fun
    | .called _ report => some report
    | _ => none

/-- What the decoder was given. -/
def decoderInputsOf (reports : List (ProgramReport R samplesPerSymbol)) : List (DecoderInput R) :=
  reports.filterMap fun
    | .decoded input _ => some input
    | _ => none

def sectionsOf (reports : List (ProgramReport R samplesPerSymbol)) : List (DecoderReport R) :=
  reports.filterMap fun
    | .decoded _ report => some report
    | _ => none

/-- The frames that were accepted. -/
def acceptedFrames (sections : List (DecoderReport R)) : List (Frame R) :=
  sections.filterMap fun
    | .accepted frame => some frame
    | _ => none

def framesIn (inputs : List (DecoderInput R)) : List (Frame R) :=
  inputs.filterMap fun
    | .frame frame => some frame
    | _ => none

/-- A run of the program is a run of the receiver on the buffers and a run of the decoder on what
the receiver has for it, and the frames pass from the one to the other. -/
structure ProgramLaw [Field R] [LinearOrder R] (config : DecoderConfig R)
    (baseband : Baseband R samplesPerSymbol) (directory : List DirEntry)
    (reports : List (ProgramReport R samplesPerSymbol)) (program : Program config baseband) :
    Prop where
  receives : run Receiver.detectFrames .initial (callsOf reports) =
    some (program.receiver, callReportsOf reports)
  decodes : run (decoderStep config) (.start directory) (decoderInputsOf reports) =
    some (program.decoder, sectionsOf reports)
  /-- The sections of the receiving thread are those of calls of `process_frame` on the frames
  that the receiver has completed, in the order in which it has completed them, up to the frames
  that it has yet to hand over. -/
  processes : ∃ calls : List (Frame R × (UInt64 → Option UInt32)),
    calls.map Prod.fst ++ framesIn program.remaining =
        processedFrames ((callReportsOf reports).flatMap CallReport.events) ∧
      (answers (callStep config.platform config.codec) .initial calls).flatten =
        (sectionsOf reports).filter DecoderReport.ofReceiver ++
          program.decoder.receiveStage.sections program.decoder.learning.rc4Registry.lookup

/-! ### The frames on their way -/

theorem acceptedFrames_concat (sections : List (DecoderReport R)) (report : DecoderReport R) :
    acceptedFrames (sections ++ [report]) = acceptedFrames sections ++ acceptedFrames [report] :=
  List.filterMap_append

section Accepted

variable [Field R] [LinearOrder R] {config : DecoderConfig R}

omit [LinearOrder R] in
theorem acceptedFrames_receiveStep (platform : Platform R) (decoder : Decoder R) :
    acceptedFrames [(receiveStep platform decoder).2] = [] := by
  rw [receiveStep]
  split <;> rfl

theorem acceptedFrames_mainStep {decoder next : Decoder R} {now nowSysclk : UInt64}
    {report : DecoderReport R}
    (stepped : mainStep config decoder now nowSysclk = some (next, report)) :
    acceptedFrames [report] = [] := by
  cases stage : decoder.mainStage with
  | detecting =>
    rw [mainStep, stage] at stepped
    obtain ⟨_, -, stepped⟩ := Option.bind_eq_some_iff.mp stepped
    obtain ⟨-, rfl⟩ := Prod.mk.inj (Option.some.inj stepped)
    rfl
  | _ =>
    rw [mainStep, stage] at stepped
    obtain ⟨-, rfl⟩ := Prod.mk.inj (Option.some.inj stepped)
    rfl

/-- The decoder accepts the frames it is given when it has none. -/
theorem acceptedFrames_step {decoder next : Decoder R} {input : DecoderInput R}
    {report : DecoderReport R} (stepped : decoderStep config decoder input = some (next, report)) :
    acceptedFrames [report] = if decoder.receiveStage.isIdle then framesIn [input] else [] := by
  cases input with
  | frame frame =>
    cases stage : decoder.receiveStage with
    | idle =>
      rw [decoderStep, stage] at stepped
      obtain ⟨-, rfl⟩ := Prod.mk.inj (Option.some.inj stepped)
      rfl
    | _ =>
      rw [decoderStep, stage] at stepped
      obtain ⟨-, rfl⟩ := Prod.mk.inj (Option.some.inj stepped)
      rfl
  | receive =>
    have received : receiveStep config.platform decoder = (next, report) :=
      Option.some.inj stepped
    have none_ := acceptedFrames_receiveStep config.platform decoder
    rw [received] at none_
    exact none_.trans (ite_self _).symm
  | reportDetections now nowSysclk =>
    exact (acceptedFrames_mainStep stepped).trans (ite_self _).symm
  | saveChannelCharacteristics | directoryChange =>
    obtain ⟨-, rfl⟩ := Prod.mk.inj (Option.some.inj stepped)
    exact (ite_self _).symm

omit [Field R] [LinearOrder R] in
theorem acceptedFrames_frameSections (frame : Frame R) (lookup : UInt64 → Option UInt32)
    (report : FrameReport) : acceptedFrames (frameSections frame lookup report) = [frame] := by
  rw [frameSections]
  cases frame.rc4Payload <;> cases report.hit <;> cases report.timesync <;> rfl

omit [LinearOrder R] in
/-- The frames that calls of `process_frame` accept are those they are given. -/
theorem acceptedFrames_calls (platform : Platform R) (codec : OpenstintCodec)
    (processor : FrameProcessor R) (calls : List (Frame R × (UInt64 → Option UInt32))) :
    acceptedFrames (answers (callStep platform codec) processor calls).flatten =
      calls.map Prod.fst := by
  induction calls generalizing processor with
  | nil => rfl
  | cons call rest inductionHypothesis =>
    rw [answers_cons, List.flatten_cons, acceptedFrames, List.filterMap_append, List.map_cons]
    exact congrArg₂ (· ++ ·) (acceptedFrames_frameSections _ _ _) (inductionHypothesis _)

omit [Field R] [LinearOrder R] in
theorem acceptedFrames_filter (sections : List (DecoderReport R)) :
    acceptedFrames (sections.filter DecoderReport.ofReceiver) = acceptedFrames sections := by
  rw [acceptedFrames, List.filterMap_filter]
  refine List.filterMap_congr fun report _ => ?_
  cases report <;> rfl

omit [Field R] [LinearOrder R] in
theorem acceptedFrames_stage (stage : ReceiveStage R) (lookup : UInt64 → Option UInt32) :
    acceptedFrames (stage.sections lookup) = [] := by
  cases stage with
  | lookup frame payload =>
    rw [ReceiveStage.sections]
    cases lookup payload <;> rfl
  | append frame transponderId payload => cases payload <;> rfl
  | _ => rfl

end Accepted

/-! ### Along a run -/

theorem parts_quiet (reports : List (ProgramReport R samplesPerSymbol)) :
    callsOf (reports ++ [.quiet]) = callsOf reports ∧
      callReportsOf (reports ++ [.quiet]) = callReportsOf reports ∧
      decoderInputsOf (reports ++ [.quiet]) = decoderInputsOf reports ∧
      sectionsOf (reports ++ [.quiet]) = sectionsOf reports := by
  simp [callsOf, callReportsOf, decoderInputsOf, sectionsOf]

theorem parts_called (reports : List (ProgramReport R samplesPerSymbol))
    (call : UInt64 × List Sample) (report : CallReport R samplesPerSymbol) :
    callsOf (reports ++ [.called call report]) = callsOf reports ++ [call] ∧
      callReportsOf (reports ++ [.called call report]) = callReportsOf reports ++ [report] ∧
      decoderInputsOf (reports ++ [.called call report]) = decoderInputsOf reports ∧
      sectionsOf (reports ++ [.called call report]) = sectionsOf reports := by
  simp [callsOf, callReportsOf, decoderInputsOf, sectionsOf]

theorem parts_decoded (reports : List (ProgramReport R samplesPerSymbol)) (input : DecoderInput R)
    (report : DecoderReport R) :
    callsOf (reports ++ [.decoded input report]) = callsOf reports ∧
      callReportsOf (reports ++ [.decoded input report]) = callReportsOf reports ∧
      decoderInputsOf (reports ++ [.decoded input report]) = decoderInputsOf reports ++ [input] ∧
      sectionsOf (reports ++ [.decoded input report]) = sectionsOf reports ++ [report] := by
  simp [callsOf, callReportsOf, decoderInputsOf, sectionsOf]

theorem framesIn_inputs (report : CallReport R samplesPerSymbol) :
    framesIn report.inputs = processedFrames report.events := by
  rw [CallReport.inputs, framesIn, List.filterMap_append, List.filterMap_map,
    List.filterMap_map]
  refine (congrArg₂ (· ++ ·) ?_ ?_).trans (List.append_nil _)
  · exact List.filterMap_some
  · exact List.filterMap_none _

/-- What ties the halves of the program together. -/
structure ProgramInvariant [Field R] [LinearOrder R] (config : DecoderConfig R)
    (baseband : Baseband R samplesPerSymbol) (directory : List DirEntry)
    (reports : List (ProgramReport R samplesPerSymbol)) (program : Program config baseband) :
    Prop where
  receives : run Receiver.detectFrames .initial (callsOf reports) =
    some (program.receiver, callReportsOf reports)
  decodes : run (decoderStep config) (.start directory) (decoderInputsOf reports) =
    some (program.decoder, sectionsOf reports)
  handed : acceptedFrames (sectionsOf reports) ++ framesIn program.remaining =
    processedFrames ((callReportsOf reports).flatMap CallReport.events)
  short : ∀ call ∈ callsOf reports, call.2.length < indexLimit

namespace ProgramInvariant

variable [Field R] [LinearOrder R] {config : DecoderConfig R}
  {baseband : Baseband R samplesPerSymbol} {directory : List DirEntry}
  {reports : List (ProgramReport R samplesPerSymbol)} {program : Program config baseband}

theorem start : ProgramInvariant config baseband directory [] (.start config baseband directory) :=
  ⟨rfl, rfl, rfl, List.forall_mem_nil _⟩

theorem quiet (invariant : ProgramInvariant config baseband directory reports program) :
    ProgramInvariant config baseband directory (reports ++ [.quiet]) program := by
  obtain ⟨calls, callReports, inputs, sections⟩ := parts_quiet reports
  refine ⟨?_, ?_, ?_, calls ▸ invariant.short⟩
  · rw [calls, callReports]
    exact invariant.receives
  · rw [inputs, sections]
    exact invariant.decodes
  · rw [callReports, sections]
    exact invariant.handed

/-- A call of `detect_frames`, when nothing is left of the call before. -/
theorem called (invariant : ProgramInvariant config baseband directory reports program)
    (free : program.remaining = []) {call : UInt64 × List Sample}
    {receiver : Receiver config.platform baseband} {report : CallReport R samplesPerSymbol}
    (stepped : program.receiver.detectFrames call = some (receiver, report))
    (short : call.2.length < indexLimit) :
    ProgramInvariant config baseband directory (reports ++ [.called call report])
      { program with receiver, remaining := report.inputs } := by
  obtain ⟨calls, callReports, inputs, sections⟩ := parts_called reports call report
  have handed := invariant.handed
  rw [free] at handed
  refine ⟨?_, ?_, ?_, ?_⟩
  · rw [calls, callReports]
    exact run_next invariant.receives stepped
  · rw [inputs, sections]
    exact invariant.decodes
  · rw [callReports, sections, List.flatMap_append, List.flatMap_singleton,
      processedFrames_append, ← handed, framesIn_inputs]
    exact congrArg (· ++ _) (List.append_nil _).symm
  · rw [calls, List.forall_mem_append]
    exact ⟨invariant.short, List.forall_mem_singleton.mpr short⟩

/-- A section of the decoder, with what then remains of the call. -/
theorem decoded (invariant : ProgramInvariant config baseband directory reports program)
    {input : DecoderInput R} {decoder : Decoder R} {report : DecoderReport R}
    {remaining : List (DecoderInput R)}
    (stepped : decoderStep config program.decoder input = some (decoder, report))
    (handed : acceptedFrames [report] ++ framesIn remaining = framesIn program.remaining) :
    ProgramInvariant config baseband directory (reports ++ [.decoded input report])
      { program with decoder, remaining } := by
  obtain ⟨calls, callReports, inputs, sections⟩ := parts_decoded reports input report
  refine ⟨?_, ?_, ?_, calls ▸ invariant.short⟩
  · rw [calls, callReports]
    exact invariant.receives
  · rw [inputs, sections]
    exact run_next invariant.decodes stepped
  · rw [callReports, sections, acceptedFrames_concat, List.append_assoc, handed]
    exact invariant.handed

/-- A section of the receiving thread, the main thread or another process, whoever it is that
goes on while the receiving thread keeps what it has. -/
theorem decode (invariant : ProgramInvariant config baseband directory reports program)
    {input : DecoderInput R} {decoder : Decoder R} {report : DecoderReport R}
    (stepped : decoderStep config program.decoder input = some (decoder, report))
    (foreign : framesIn [input] = []) :
    ∃ next answer, program.decode config input = some (next, answer) ∧
      ProgramInvariant config baseband directory (reports ++ [answer]) next := by
  have none_ := acceptedFrames_step stepped
  rw [foreign, ite_self] at none_
  refine ⟨_, _, by rw [Program.decode, stepped]; rfl, invariant.decoded stepped ?_⟩
  rw [none_, List.nil_append]

variable [IsStrictOrderedRing R]

theorem decoderStep_defined (invariant : ProgramInvariant config baseband directory reports program)
    (input : DecoderInput R) :
    ∃ next report, decoderStep config program.decoder input = some (next, report) := by
  obtain ⟨last, later, longer, -⟩ :=
    decoder_run config directory (decoderInputsOf reports ++ [input])
  exact step_of_run invariant.decodes ⟨last, later, longer⟩

omit [IsStrictOrderedRing R] in
theorem detectFrames_defined [NeZero samplesPerSymbol]
    (invariant : ProgramInvariant config baseband directory reports program)
    (call : UInt64 × List Sample) (short : call.2.length < indexLimit) :
    ∃ receiver report, program.receiver.detectFrames call = some (receiver, report) := by
  obtain ⟨last, later, longer, -⟩ :=
    run_advances config.platform baseband (callsOf reports ++ [call])
      (List.forall_mem_append.mpr ⟨invariant.short, List.forall_mem_singleton.mpr short⟩)
  exact step_of_run invariant.receives ⟨last, later, longer⟩

/-- Every step keeps the halves together. -/
theorem step [NeZero samplesPerSymbol]
    (invariant : ProgramInvariant config baseband directory reports program)
    (input : ProgramInput) (short : input.Short) :
    ∃ next answer, programStep config program input = some (next, answer) ∧
      ProgramInvariant config baseband directory (reports ++ [answer]) next := by
  cases input with
  | buffer timestamp samples =>
    rw [programStep]
    by_cases free : (program.decoder.receiveStage.isIdle && program.remaining.isEmpty) = true
    · obtain ⟨receiver, report, stepped⟩ :=
        invariant.detectFrames_defined (timestamp, samples) short
      obtain ⟨-, nothing⟩ := Bool.and_eq_true_iff.mp free
      refine ⟨_, _, by rw [if_pos free, stepped]; rfl, invariant.called ?_ stepped short⟩
      exact List.isEmpty_iff.mp nothing
    · exact ⟨_, _, if_neg free, invariant.quiet⟩
  | receive =>
    rw [programStep]
    cases remaining : program.remaining with
    | nil =>
      obtain ⟨decoder, report, stepped⟩ := invariant.decoderStep_defined .receive
      exact invariant.decode stepped rfl
    | cons input rest =>
      dsimp only
      by_cases idle : program.decoder.receiveStage.isIdle = true
      · obtain ⟨decoder, report, stepped⟩ := invariant.decoderStep_defined input
        have accepted := acceptedFrames_step stepped
        rw [if_pos idle] at accepted
        refine ⟨_, _, by rw [if_pos idle, Program.decode, stepped]; rfl,
          invariant.decoded stepped ?_⟩
        rw [accepted, remaining]
        exact (List.filterMap_append (l := [input])).symm
      · obtain ⟨decoder, report, stepped⟩ := invariant.decoderStep_defined .receive
        rw [if_neg idle]
        exact invariant.decode stepped rfl
  | directoryChange directory =>
    obtain ⟨decoder, report, stepped⟩ := invariant.decoderStep_defined (.directoryChange directory)
    exact invariant.decode stepped rfl
  | reportDetections now nowSysclk =>
    obtain ⟨decoder, report, stepped⟩ :=
      invariant.decoderStep_defined (.reportDetections now nowSysclk)
    exact invariant.decode stepped rfl

theorem law (invariant : ProgramInvariant config baseband directory reports program) :
    ProgramLaw config baseband directory reports program := by
  refine ⟨invariant.receives, invariant.decodes, ?_⟩
  obtain ⟨last, sections, ran, calls, told, -⟩ :=
    frames_sequential config directory (decoderInputsOf reports)
  obtain ⟨rfl, rfl⟩ := Prod.mk.inj (Option.some.inj (ran.symm.trans invariant.decodes))
  refine ⟨calls, ?_, told⟩
  have accepted := congrArg acceptedFrames told
  rw [acceptedFrames_calls, acceptedFrames, List.filterMap_append] at accepted
  rw [accepted, ← invariant.handed]
  refine congrArg (· ++ _) ((congrArg₂ (· ++ ·) (acceptedFrames_filter _)
    (acceptedFrames_stage _ _)).trans (List.append_nil _))

end ProgramInvariant

end OpenStint
