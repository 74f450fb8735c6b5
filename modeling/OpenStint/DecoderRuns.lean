/-
This file is about what the decoder publishes over its runs, whatever the order of the critical
sections of its two threads.

First every run is defined: when the main thread reads the buffer of the trainer, a session is
open and the buffer has entries. The results it reports are those of the trainer, one section
after the other, so the messages about learning are sessions. The hits of a transponder fall
into groups, each closed by a look of the main thread, and the passings that are published are
those of the groups. And the counters of a status report are those of the frames since the last
one, which is at least five seconds old.
-/

import Mathlib.Algebra.Order.Round
import Mathlib.Data.List.Chain
import OpenStint.Decoder
import OpenStint.OpenstintWords

namespace OpenStint

open Machine BoundedQueue

variable {R : Type}

/-! ### The messages about learning -/

def LearningReport.result : LearningReport R → Option EvaluationResult
  | .start _ => some .start
  | .interrupted => some .interruped
  | .done _ _ => some .done
  | .reset => some .reset
  | _ => none

def DecoderReport.result : DecoderReport R → Option EvaluationResult
  | .learning _ _ report => report.result
  | _ => none

/-- The result that a message about learning tells. -/
def DecoderMessage.result : DecoderMessage → Option EvaluationResult
  | .start _ _ => some .start
  | .interrupted _ => some .interruped
  | .done _ _ _ => some .done
  | .reset _ => some .reset
  | _ => none

/-- What the main thread has evaluated and not yet reported. -/
def LearningStage.pending : LearningStage R → List EvaluationResult
  | .started => [.start]
  | .done _ | .preferred _ _ | .collected _ _ _ | .timed _ _ _ _ | .detected _ => [.done]
  | _ => []

/-- The main thread reads the buffer of the trainer here or in a later section. -/
def LearningStage.reads : LearningStage R → Bool
  | .started | .done _ | .preferred _ _ | .collected _ _ _ => true
  | _ => false

/-- The reports so far are those of the trainer, and a buffer that is yet to be read belongs to
an open session. -/
structure ReportsSessions (reports : List (DecoderReport R)) (learning : LearningState R) :
    Prop where
  evaluated : ∃ trace, TrainerInvariant trace learning.rc4Trainer ∧
    resultsOf trace = reports.filterMap DecoderReport.result ++ learning.stage.pending
  reading : learning.stage.reads = true → learning.rc4Trainer.state ≠ .idle

theorem result_messages (config : DecoderConfig R) (reports : List (DecoderReport R)) :
    (reports.flatMap (DecoderReport.messages config)).filterMap DecoderMessage.result =
      reports.filterMap DecoderReport.result := by
  induction reports with
  | nil => rfl
  | cons report rest inductionHypothesis =>
    have first : (report.messages config).filterMap DecoderMessage.result =
        report.result.toList := by
      cases report with
      | learning now nowSysclk report =>
        cases report with
        | timesyncs list | passings list =>
          refine List.filterMap_eq_nil_iff.mpr fun message member => ?_
          obtain ⟨reported, -, rfl⟩ := List.mem_map.mp member
          rfl
        | _ => rfl
      | _ => rfl
    rw [List.flatMap_cons, List.filterMap_append, first, inductionHypothesis, List.filterMap_cons]
    cases report.result <;> rfl

theorem ReportsSessions.warm {reports : List (DecoderReport R)} {learning : LearningState R}
    (sessions : ReportsSessions reports learning) :
    learning.rc4Trainer.state ≠ .idle → learning.rc4Trainer.buffer ≠ [] := by
  obtain ⟨trace, invariant, -⟩ := sessions.evaluated
  intro busy empty
  have long := invariant.warm busy
  rw [empty, List.length_nil] at long
  omega

/-- A section in which nothing is evaluated and what is reported was pending. -/
theorem ReportsSessions.move {reports : List (DecoderReport R)} {learning next : LearningState R}
    (sessions : ReportsSessions reports learning) (trainer : next.rc4Trainer = learning.rc4Trainer)
    {report : DecoderReport R}
    (told : report.result.toList ++ next.stage.pending = learning.stage.pending)
    (reads : next.stage.reads = true → learning.stage.reads = true) :
    ReportsSessions (reports ++ [report]) next := by
  obtain ⟨trace, invariant, results⟩ := sessions.evaluated
  refine ⟨⟨trace, trainer ▸ invariant, ?_⟩,
    fun reading => trainer ▸ sessions.reading (reads reading)⟩
  rw [results, ← told, List.filterMap_append, List.append_assoc, List.filterMap_cons]
  cases report.result <;> rfl

/-- A section that leaves the trainer and the stage of the main thread as they are. -/
theorem ReportsSessions.silent {reports : List (DecoderReport R)} {learning : LearningState R}
    (sessions : ReportsSessions reports learning) {report : DecoderReport R}
    (silent : report.result = none) (passingDetector : PassingDetector R)
    (directory : List DirEntry) :
    ReportsSessions (reports ++ [report]) { learning with passingDetector, directory } :=
  sessions.move (by rfl) (by rw [silent]; rfl) (by exact id)

theorem ReportsSessions.trained {reports : List (DecoderReport R)} {learning : LearningState R}
    (sessions : ReportsSessions reports learning) {report : DecoderReport R}
    (silent : report.result = none) (timestamp : UInt64) (rssi : R) (transponderId : UInt32)
    (rc4Payload : UInt64) :
    ReportsSessions (reports ++ [report]) { learning with
      rc4Trainer := learning.rc4Trainer.append timestamp rssi transponderId rc4Payload } := by
  obtain ⟨trace, invariant, results⟩ := sessions.evaluated
  refine ⟨⟨_, invariant.append ⟨timestamp, rc4Payload, rssi, transponderId⟩, ?_⟩, sessions.reading⟩
  rw [resultsOf_concat_appended, results, List.filterMap_append, List.filterMap_cons, silent,
    List.filterMap_nil, List.append_nil]

section Stages

variable [Field R] [LinearOrder R]

theorem trainerStep_evaluate {trainer next : Rc4Trainer R} {result : EvaluationResult}
    {timestamp : UInt64} (evaluated : trainer.evaluate timestamp = some (next, result)) :
    trainerStep trainer (.evaluate timestamp) = some (next, .evaluated timestamp result) := by
  rw [trainerStep, evaluated, Option.map_some]

variable (computePassingPoint : List (Detection R) → PassingPoint R) {learning : LearningState R}
  (now : UInt64)

theorem reportDetectionsStep_reported {entered : UInt64}
    (stage : learning.stage = .reported entered) {rc4Trainer : Rc4Trainer R}
    {result : EvaluationResult}
    (evaluated : learning.rc4Trainer.evaluate entered = some (rc4Trainer, result)) :
    reportDetectionsStep computePassingPoint learning now =
      some ({ learning with rc4Trainer, stage := (afterEvaluation rc4Trainer result).1 },
        (afterEvaluation rc4Trainer result).2) := by
  simp only [reportDetectionsStep, stage, evaluated]
  rfl

theorem reportDetectionsStep_started (stage : learning.stage = .started) {rssi : R}
    (read : learning.rc4Trainer.lastRssi = some rssi) :
    reportDetectionsStep computePassingPoint learning now =
      some ({ learning with stage := .finished }, .start rssi) := by
  simp only [reportDetectionsStep, stage, read]
  rfl

theorem reportDetectionsStep_collected {judged : Rc4Trainer R} {transponderId : UInt32}
    {payloads : List UInt64} (stage : learning.stage = .collected judged transponderId payloads)
    {timerange : UInt64 × UInt64} (read : learning.rc4Trainer.bufferTimerange = some timerange) :
    reportDetectionsStep computePassingPoint learning now =
      some ({ learning with stage := .timed judged transponderId payloads timerange }, .quiet) := by
  simp only [reportDetectionsStep, stage, read]
  rfl

end Stages

/-! ### A parked car in the decoder -/

/-- A decoder on exact arithmetic, with a codec for lines without errors. -/
noncomputable def idealConfig : DecoderConfig ℝ where
  platform := idealPlatform
  codec := errorFreeCodec
  computePassingPoint := fun _ => ⟨0, 0, 0⟩
  formatFloat := fun decimals value =>
    .finite (value < 0) (round (|value| * ((10 ^ decimals : Nat) : ℝ))).toNat
  modeSysclk := false

/-- A frame of the parked car at full scale: the preamble and the symbols of payload 1. -/
noncomputable def parkedFrame : Frame ℝ :=
  { Frame.detected .rc4 0 0 0 with
    softbits := ((List.range 16).map (0x80cd#16).getMsbD ++ rc4Symbols 1).map
      fun symbol => if symbol then 255 else 0
    symbolScale := 1 / adcFullScale }

theorem rssi_parkedFrame : parkedFrame.rssi idealPlatform = parked.rssi := by
  have magnitude : parkedFrame.symbolMagnitude = adcFullScale := one_div_one_div adcFullScale
  rw [Frame.rssi, magnitude]
  exact sub_self _

theorem bits_parkedFrame : parkedFrame.bits = (parkedFrame, some 16) := by
  have located : preamblePos (concatBits32 parkedFrame.data)
      (transponderProps parkedFrame.transponderProtocol).preamble = some 0 := by
    decide +kernel
  have long : ¬ parkedFrame.softbits.length < 32 ∧
      ¬ parkedFrame.softbits.length < 0 + parkedFrame.preambleSize + parkedFrame.payloadSize := by
    decide +kernel
  rw [Frame.bits, if_neg long.1]
  dsimp only
  rw [located]
  exact if_neg long.2

theorem decodeFrame_parkedFrame :
    decodeFrame errorFreeCodec .initial parkedFrame = (.initial, .lookup parkedFrame 1) := by
  have message : rc4Message (fun i => parkedFrame.data (16 + i)) = ⟨1, true⟩ := by
    decide +kernel
  have protocol : parkedFrame.transponderProtocol = .rc4 := rfl
  rw [decodeFrame, bits_parkedFrame]
  dsimp only
  rw [protocol]
  dsimp only
  rw [message]
  rfl

/-- The decoder with nothing but a trainer and counters. -/
def decoderWith (rxStats : RxStatistics ℝ) (rc4Trainer : Rc4Trainer ℝ) : Decoder ℝ where
  rxStats := rxStats
  learning := withTrainer rc4Trainer .idle
  ambrcBlacklist := .initial
  receiveStage := .idle
  mainStage := .waiting
  now := 0
  nowSysclk := 0

/-- A frame of the parked car and the sections of the receiving thread for it. -/
noncomputable def hearsParked : List (DecoderInput ℝ) :=
  [.frame parkedFrame, .receive, .receive, .receive]

/-- Calls of `report_detections`, one section after the other. -/
def reportsParked (sections : Nat) : List (DecoderInput ℝ) :=
  List.replicate sections (.reportDetections 0 0)

theorem run_hearsParked (rxStats : RxStatistics ℝ) (state : TrainerState) {count : Nat}
    (fits : count < bufferMaxSize) :
    run (decoderStep idealConfig) (decoderWith rxStats ⟨state, List.replicate count parked⟩)
        hearsParked =
      some (decoderWith (rxStats.registerFrame true) ⟨state, List.replicate (count + 1) parked⟩,
        [.accepted parkedFrame, .looked 1 none, .trained parkedFrame 0 1, .registered true]) := by
  have trained : (⟨state, List.replicate count parked⟩ : Rc4Trainer ℝ).append
      parkedFrame.timestamp (parkedFrame.rssi idealPlatform) 0 1 =
        ⟨state, List.replicate (count + 1) parked⟩ := by
    rw [rssi_parkedFrame, ← push_replicate parked fits]
    rfl
  have unknown : (Rc4FileBasedRegistry.initial).lookup 1 = none := rfl
  simp only [hearsParked, run, decoderStep, decoderWith, idealConfig, decodeFrame_parkedFrame,
    receiveStep, withTrainer, unknown, trained, Option.bind_some, Option.map_some]

/-- The receiving thread hears the parked car again and again, and nothing is told. -/
theorem run_replicate_hearsParked (state : TrainerState) (more : Nat) {count : Nat}
    (fits : count + more ≤ bufferMaxSize) {rxStats : RxStatistics ℝ}
    (early : rxStats.reportingDue 0 = false) :
    ∃ heard reports, run (decoderStep idealConfig)
        (decoderWith rxStats ⟨state, List.replicate count parked⟩)
        (List.replicate more hearsParked).flatten =
          some (decoderWith heard ⟨state, List.replicate (count + more) parked⟩, reports) ∧
      heard.reportingDue 0 = false ∧ reports.filterMap DecoderReport.result = [] := by
  induction more generalizing count rxStats with
  | zero => exact ⟨rxStats, [], rfl, early, rfl⟩
  | succ more inductionHypothesis =>
    have below : count < bufferMaxSize := by omega
    have counted : (rxStats.registerFrame true).reportingDue 0 = false := early
    have fitsNext : (count + 1) + more ≤ bufferMaxSize := by omega
    obtain ⟨heard, reports, ran, stillEarly, quiet⟩ := inductionHypothesis fitsNext counted
    rw [Nat.succ_add_eq_add_succ] at ran
    exact ⟨heard, _, run_of_append (run_hearsParked rxStats state below) ran, stillEarly, quiet⟩

/-- The reports of a call of `report_detections` in which a session starts. -/
def startReports (rssi : ℝ) : List (DecoderReport ℝ) :=
  .quiet :: [.timesyncs [], .passings [], .quiet, .start rssi, .quiet].map (.learning 0 0)

/-- The reports of a call of `report_detections` in which a transponder is stored. -/
def doneReports (identity : LearnedIdentity ℝ) (transponderId : UInt32) :
    List (DecoderReport ℝ) :=
  .quiet :: [.timesyncs [], .passings [], .quiet, .quiet, .quiet, .quiet, .quiet,
    .done identity transponderId, .quiet].map (.learning 0 0)

theorem identifyTimesyncs_initial :
    (PassingDetector.initial : PassingDetector ℝ).identifyTimesyncs 500000 = (.initial, []) := rfl

theorem identifyPassings_initial :
    (PassingDetector.initial : PassingDetector ℝ).identifyPassings idealConfig.computePassingPoint
      (passingDeadline 0) = (.initial, []) := rfl

theorem run_reportsParked_start {rxStats : RxStatistics ℝ} {rc4Trainer next : Rc4Trainer ℝ}
    {rssi : ℝ} (early : rxStats.reportingDue 0 = false)
    (evaluated : rc4Trainer.evaluate 0 = some (next, .start)) (read : next.lastRssi = some rssi) :
    run (decoderStep idealConfig) (decoderWith rxStats rc4Trainer) (reportsParked 6) =
      some (decoderWith rxStats next, startReports rssi) := by
  have resynced : Rc4FileBasedRegistry.initial.resync [] = .initial := rfl
  simp only [reportsParked, List.replicate, run, decoderStep, mainStep, decoderWith, early,
    reportDetectionsStep, withTrainer, evaluated, read, afterEvaluation, Option.bind_some,
    Option.map_some, Bool.false_eq_true, if_false, identifyTimesyncs_initial,
    identifyPassings_initial, resynced, Option.bind_eq_bind]
  rfl

/-- What is stored when nothing has passed by and nothing is known. -/
def identityOf (rc4Trainer : Rc4Trainer ℝ) (timerange : UInt64 × UInt64) : LearnedIdentity ℝ where
  judged := rc4Trainer
  preferred := rc4Trainer.preferredTransponderId
  payloads := rc4Trainer.registryPayloads
  timerange := timerange
  transponders := []

theorem run_reportsParked_done {rxStats : RxStatistics ℝ} {rc4Trainer next : Rc4Trainer ℝ}
    {timerange : UInt64 × UInt64} (early : rxStats.reportingDue 0 = false)
    (evaluated : rc4Trainer.evaluate 0 = some (next, .done))
    (read : next.bufferTimerange = some timerange) :
    ∃ last transponderId,
      run (decoderStep idealConfig) (decoderWith rxStats rc4Trainer) (reportsParked 10) =
        some (last, doneReports (identityOf next timerange) transponderId) ∧
      last.receiveStage = .idle ∧ last.ambrcBlacklist = .initial := by
  have alone : (PassingDetector.initial : PassingDetector ℝ).passingsBetween .amb timerange.1
    timerange.2 = [] := rfl
  generalize stored : Rc4FileBasedRegistry.initial.store []
    (idToStore next.preferredTransponderId []) next.registryPayloads = outcome
  obtain ⟨rc4Registry, directory, transponderId⟩ := outcome
  refine ⟨{ decoderWith rxStats next with learning := { withTrainer next .idle with
    rc4Registry := rc4Registry.resync directory, directory } }, transponderId, ?_, rfl, rfl⟩
  simp only [reportsParked, List.replicate, run, decoderStep, mainStep, decoderWith, early,
    reportDetectionsStep, withTrainer, evaluated, read, afterEvaluation, Option.bind_some,
    Option.map_some, Bool.false_eq_true, if_false, identifyTimesyncs_initial,
    identifyPassings_initial, alone, stored, Option.bind_eq_bind]
  rfl

/-- A parked car is learned. -/
noncomputable def learnsParked : List (DecoderInput ℝ) :=
  (List.replicate 128 hearsParked).flatten ++ (reportsParked 6 ++
    ((List.replicate 8068 hearsParked).flatten ++ reportsParked 10))

/-- The session of the parked car is told, and its payload is stored. -/
theorem run_learnsParked :
    ∃ last reports identity transponderId,
      run (decoderStep idealConfig) (.start []) learnsParked = some (last, reports) ∧
      reports.filterMap DecoderReport.result = [.start, .done] ∧
      .learning 0 0 (.done identity transponderId) ∈ reports ∧ 1 ∈ identity.payloads ∧
      last.receiveStage = .idle ∧ last.ambrcBlacklist = .initial := by
  have early : (RxStatistics.initial : RxStatistics ℝ).reportingDue 0 = false := by decide
  have filled : 128 + 8068 = bufferMaxSize := by decide
  obtain ⟨heard, first, ranFirst, earlyHeard, quietFirst⟩ :=
    run_replicate_hearsParked .idle 128 (by decide : 0 + 128 ≤ bufferMaxSize) early
  have started := run_reportsParked_start earlyHeard (evaluate_parked_idle le_rfl)
    (congrArg (Option.map Entry.rssi) (getLast?_replicate parked (by decide)))
  obtain ⟨full, second, ranSecond, earlyFull, quietSecond⟩ :=
    run_replicate_hearsParked .training 8068 filled.le earlyHeard
  rw [filled] at ranSecond
  obtain ⟨judged, same⟩ : ∃ judged : Rc4Trainer ℝ,
    judged = ⟨.finalizing, List.replicate bufferMaxSize parked⟩ := ⟨_, rfl⟩
  have evaluated := evaluate_parked_training (le_refl bufferMaxSize)
  rw [← same] at evaluated
  have warm : judged.buffer ≠ [] := by
    rw [same]
    exact fun empty => absurd ((List.replicate_eq_nil_iff parked).mp empty) (by decide)
  have twice : 1 ∈ judged.registryPayloads := by
    have payload : parked.rc4Payload = 1 := rfl
    rw [mem_registryPayloads, same, List.map_replicate, payload, List.count_replicate_self]
    decide
  obtain ⟨timerange, read⟩ := Option.isSome_iff_exists.mp (isSome_of_warm warm).2
  obtain ⟨last, transponderId, stored, idle, free⟩ :=
    run_reportsParked_done earlyFull evaluated read
  have ran := run_of_append ranFirst (run_of_append started (run_of_append ranSecond stored))
  refine ⟨last, _, identityOf judged timerange, transponderId, ran, ?_, ?_, twice, idle, free⟩
  · rw [List.filterMap_append, List.filterMap_append, List.filterMap_append, quietFirst,
      quietSecond]
    rfl
  · simp [doneReports]

/-! ### Sessions -/

section Sessions

variable [Field R] [LinearOrder R] [IsStrictOrderedRing R]

/-- An evaluation is reported in one of the sections behind it. -/
theorem ReportsSessions.evaluate {reports : List (DecoderReport R)} {learning : LearningState R}
    (sessions : ReportsSessions reports learning) (quiet : learning.stage.pending = [])
    (entered now nowSysclk : UInt64) :
    ∃ rc4Trainer result, learning.rc4Trainer.evaluate entered = some (rc4Trainer, result) ∧
      ReportsSessions
        (reports ++ [.learning now nowSysclk (afterEvaluation rc4Trainer result).2])
        { learning with rc4Trainer, stage := (afterEvaluation rc4Trainer result).1 } := by
  obtain ⟨rc4Trainer, result, evaluated, -, opened⟩ :=
    evaluate_defined entered sessions.warm
  obtain ⟨trace, invariant, results⟩ := sessions.evaluated
  obtain ⟨next, event, stepped, kept, -⟩ := trainerStep_invariant invariant (.evaluate entered)
  obtain ⟨rfl, rfl⟩ := Prod.mk.inj (Option.some.inj
    ((trainerStep_evaluate evaluated).symm.trans stepped))
  rw [quiet, List.append_nil] at results
  refine ⟨rc4Trainer, result, evaluated, ⟨⟨_, kept, ?_⟩, ?_⟩⟩
  · rw [List.filterMap_append]
    by_cases silent : result = .noAction
    · rw [silent, resultsOf_concat_noAction, results]
      exact ((List.append_nil _).trans (List.append_nil _)).symm
    · rw [resultsOf_concat_evaluated _ _ silent, results]
      cases result with
      | noAction => exact absurd rfl silent
      | start | done => exact congrArg (· ++ _) (List.append_nil _).symm
      | interruped | reset => exact (List.append_nil _).symm
  · cases result with
    | start => exact fun _ => opened (Or.inl rfl)
    | done => exact fun _ => opened (Or.inr rfl)
    | _ => nofun

/-- The next section of the main thread behind the status step is defined, and its report is
the next one of the sessions. -/
theorem ReportsSessions.reportDetections {reports : List (DecoderReport R)}
    {learning : LearningState R} (sessions : ReportsSessions reports learning)
    (computePassingPoint : List (Detection R) → PassingPoint R) (now nowSysclk : UInt64) :
    ∃ next report, reportDetectionsStep computePassingPoint learning now = some (next, report) ∧
      ReportsSessions (reports ++ [.learning now nowSysclk report]) next := by
  obtain ⟨rc4Trainer, passingDetector, rc4Registry, directory, stage⟩ := learning
  cases stage with
  | idle =>
    refine ⟨_, _, rfl, ?_⟩
    exact sessions.move (by rfl) (by rfl) (by nofun)
  | timesynced =>
    refine ⟨_, _, rfl, ?_⟩
    exact sessions.move (by rfl) (by rfl) (by nofun)
  | reported entered =>
    obtain ⟨next, result, evaluated, kept⟩ := sessions.evaluate rfl entered now nowSysclk
    exact ⟨_, _, reportDetectionsStep_reported _ now rfl evaluated, kept⟩
  | started =>
    have busy := sessions.reading rfl
    obtain ⟨rssi, read⟩ := Option.isSome_iff_exists.mp (isSome_of_warm (sessions.warm busy)).1
    refine ⟨_, _, reportDetectionsStep_started _ now rfl read, ?_⟩
    exact sessions.move (by rfl) (by rfl) (by nofun)
  | done judged =>
    refine ⟨_, _, rfl, ?_⟩
    exact sessions.move (by rfl) (by rfl) fun _ => rfl
  | preferred judged transponderId =>
    refine ⟨_, _, rfl, ?_⟩
    exact sessions.move (by rfl) (by rfl) fun _ => rfl
  | collected judged transponderId payloads =>
    have busy := sessions.reading rfl
    obtain ⟨timerange, read⟩ := Option.isSome_iff_exists.mp (isSome_of_warm (sessions.warm busy)).2
    refine ⟨_, _, reportDetectionsStep_collected _ now rfl read, ?_⟩
    exact sessions.move (by rfl) (by rfl) (by nofun)
  | timed judged transponderId payloads timerange =>
    refine ⟨_, _, rfl, ?_⟩
    exact sessions.move (by rfl) (by rfl) (by nofun)
  | detected identity =>
    refine ⟨_, _, rfl, ?_⟩
    exact sessions.move (by rfl) (by rfl) (by nofun)
  | finished =>
    refine ⟨_, _, rfl, ?_⟩
    exact sessions.move (by rfl) (by rfl) (by nofun)

/-- A section of either thread is defined. -/
theorem decoderStep_sessions (config : DecoderConfig R) {reports : List (DecoderReport R)}
    {decoder : Decoder R} (sessions : ReportsSessions reports decoder.learning)
    (input : DecoderInput R) :
    ∃ next report, decoderStep config decoder input = some (next, report) ∧
      ReportsSessions (reports ++ [report]) next.learning := by
  obtain ⟨rxStats, learning, ambrcBlacklist, receiveStage, mainStage, now, nowSysclk⟩ := decoder
  cases input with
  | frame frame =>
    cases receiveStage <;> exact ⟨_, _, rfl, sessions.silent rfl _ _⟩
  | receive =>
    cases receiveStage with
    | train => exact ⟨_, _, rfl, sessions.trained rfl _ _ _ _⟩
    | _ => exact ⟨_, _, rfl, sessions.silent rfl _ _⟩
  | saveChannelCharacteristics | directoryChange => exact ⟨_, _, rfl, sessions.silent rfl _ _⟩
  | reportDetections entered enteredSysclk =>
    cases mainStage with
    | detecting =>
      obtain ⟨next, report, stepped, kept⟩ :=
        sessions.reportDetections config.computePassingPoint now nowSysclk
      dsimp only at stepped
      exact ⟨_, _, by simp only [decoderStep, mainStep, stepped]; rfl, kept⟩
    | _ => exact ⟨_, _, rfl, sessions.silent rfl _ _⟩

omit [LinearOrder R] [IsStrictOrderedRing R] in
theorem ReportsSessions.start (directory : List DirEntry) :
    ReportsSessions [] (Decoder.start directory : Decoder R).learning where
  evaluated := ⟨[], .initial, rfl⟩
  reading := nofun

/-- Every run of the decoder is defined. -/
theorem decoder_run (config : DecoderConfig R) (directory : List DirEntry)
    (inputs : List (DecoderInput R)) :
    ∃ last reports, run (decoderStep config) (.start directory) inputs = some (last, reports) ∧
      ReportsSessions reports last.learning :=
  run_history (fun reports (decoder : Decoder R) => ReportsSessions reports decoder.learning)
    (fun _ _ input sessions => decoderStep_sessions config sessions input) (.start directory) inputs

/-- Whatever the order of the critical sections, the decoder does not read an empty buffer, and
the messages it publishes about learning are sessions: each starts, and is interrupted or is
done and reset, as far as it has come. -/
theorem learning_messages_sessions (config : DecoderConfig R) (directory : List DirEntry)
    (inputs : List (DecoderInput R)) :
    ∃ last reports, run (decoderStep config) (.start directory) inputs = some (last, reports) ∧
      ∃ word, Sessions word ∧
        (reports.flatMap (DecoderReport.messages config)).filterMap DecoderMessage.result <+:
          word := by
  obtain ⟨last, reports, ran, sessions⟩ := decoder_run config directory inputs
  obtain ⟨trace, invariant, results⟩ := sessions.evaluated
  obtain ⟨word, whole, inside⟩ := invariant.sessions.completes
  refine ⟨last, reports, ran, word, whole, ?_⟩
  rw [result_messages]
  exact (List.prefix_append _ _).trans (results ▸ inside)

end Sessions

/-- The decoder tells that it has started on a parked car and that it is done. -/
theorem learning_messages_sessions_parked :
    ∃ last reports, run (decoderStep idealConfig) (.start []) learnsParked =
        some (last, reports) ∧
      (reports.flatMap (DecoderReport.messages idealConfig)).filterMap DecoderMessage.result =
        [.start, .done] ∧
      ∃ word, Sessions word ∧
        (reports.flatMap (DecoderReport.messages idealConfig)).filterMap DecoderMessage.result <+:
          word := by
  obtain ⟨last, reports, ran, sessions⟩ := learning_messages_sessions idealConfig [] learnsParked
  obtain ⟨_, _, _, _, learned, results, -⟩ := run_learnsParked
  obtain ⟨rfl, rfl⟩ := Prod.mk.inj (Option.some.inj (ran.symm.trans learned))
  exact ⟨_, _, ran, (result_messages idealConfig _).trans results, sessions⟩

/-! ### The passings of a transponder -/

/-- The hits of a transponder, in the order they were appended. -/
def hitsFor [Field R] (platform : Platform R) (key : TransponderKey)
    (reports : List (DecoderReport R)) : List (Detection R) :=
  reports.filterMap fun
    | .hit frame transponderId =>
      if PassingDetector.keyOf frame transponderId = key then
        some (PassingDetector.detectionOf platform frame)
      else none
    | _ => none

/-- The transponder of a passing. -/
def DecoderMessage.passingKey : DecoderMessage → Option TransponderKey
  | .passing _ transponderType transponderId _ _ _ => some (transponderType, transponderId)
  | _ => none

def passingsFor (key : TransponderKey) (messages : List DecoderMessage) : List DecoderMessage :=
  messages.filter fun message => message.passingKey = some key

/-- A group of hits, with the two clocks of the look that closed it. -/
structure ClosedGroup (R : Type) where
  hits : List (Detection R)
  now : UInt64
  nowSysclk : UInt64

/-- The messages of a closed group: one, unless the group is a single hit. -/
def ClosedGroup.messages (config : DecoderConfig R) (key : TransponderKey)
    (group : ClosedGroup R) : List DecoderMessage :=
  if reportHitLimit ≤ group.hits.length then
    [passingMessage config group.now group.nowSysclk (PassingDetector.createPassing
      config.computePassingPoint key (group.hits.rtake transponderDetectionMsgLimit))]
  else []

/-- A look for passings closes a group: it comes behind the hits of the group and ahead of the
next hit, on a clock that the main thread has read, and publishes the messages of the group. -/
structure ClosedByLook [Field R] (config : DecoderConfig R) (key : TransponderKey)
    (inputs : List (DecoderInput R)) (reports : List (DecoderReport R))
    (earlier : List (ClosedGroup R)) (group : ClosedGroup R) : Prop where
  /-- The test of the source. -/
  isOver : PassingDetector.pastDeadline (passingDeadline group.now) group.hits = true
  /-- The last hit is a quarter of a second old, or is stamped with the start of the clock. -/
  late : ∀ back ∈ group.hits.getLast?,
    back.timestamp = 0 ∨ back.timestamp.toNat + 250000 ≤ group.now.toNat
  look : ∃ past list future,
    reports = past ++ .learning group.now group.nowSysclk (.passings list) :: future ∧
    hitsFor config.platform key past = (earlier ++ [group]).flatMap ClosedGroup.hits ∧
    .reportDetections group.now group.nowSysclk ∈ inputs.take past.length ∧
    passingsFor key (DecoderReport.messages config
      (.learning group.now group.nowSysclk (.passings list))) = group.messages config key

/-- The hits of a transponder fall into groups, each closed by a look of the run, and the passing
messages are those of the groups. -/
structure PublishesGroups [Field R] (config : DecoderConfig R) (key : TransponderKey)
    (inputs : List (DecoderInput R)) (reports : List (DecoderReport R)) (decoder : Decoder R)
    (groups : List (ClosedGroup R)) (opened : List (Detection R)) : Prop where
  hits : hitsFor config.platform key reports = groups.flatMap ClosedGroup.hits ++ opened
  nonempty : ∀ group ∈ groups, group.hits ≠ []
  closed : ∀ earlier group later, groups = earlier ++ group :: later →
    ClosedByLook config key inputs reports earlier group
  published : passingsFor key (reports.flatMap (DecoderReport.messages config)) =
    groups.flatMap (ClosedGroup.messages config key)
  held : HoldsGroup decoder.learning.passingDetector key opened

/-- Between the first section of `report_detections` and the look for passings the clock that
was read is kept. -/
structure KeepsClock (decoder : Decoder R) : Prop where
  waiting : decoder.mainStage ≠ .detecting → decoder.learning.stage = .idle
  entered : ∀ now, decoder.learning.stage = .timesynced now → now = decoder.now

/-- The clocks of the decoder are read when the main thread enters `report_detections`. -/
def ReadsClock (inputs : List (DecoderInput R)) (decoder : Decoder R) : Prop :=
  decoder.mainStage ≠ .waiting → .reportDetections decoder.now decoder.nowSysclk ∈ inputs

section Passings

variable [Field R] [LinearOrder R] {config : DecoderConfig R}

omit [Field R] [LinearOrder R] in
/-- Only a look for passings has messages about passings. -/
theorem passingKey_learningMessages {report : LearningReport R}
    (other : ∀ list, report ≠ .passings list) (now nowSysclk : UInt64) :
    ∀ message ∈ learningMessages config now nowSysclk report, message.passingKey = none := by
  cases report with
  | timesyncs list =>
    intro message member
    obtain ⟨timeSync, -, rfl⟩ := List.mem_map.mp member
    rfl
  | passings list => exact absurd rfl (other list)
  | quiet => exact fun _ => nofun
  | start | interrupted | done | reset => exact fun _ member => List.mem_singleton.mp member ▸ rfl

/-- What the main thread does to the hits and to the clock it keeps. -/
theorem reportDetectionsStep_detections
    {computePassingPoint : List (Detection R) → PassingPoint R} {state next : LearningState R}
    {now : UInt64} {report : LearningReport R}
    (stepped : reportDetectionsStep computePassingPoint state now = some (next, report)) :
    ((∃ entered, state.stage = .timesynced entered ∧
        report = .passings
          (state.passingDetector.identifyPassings computePassingPoint (passingDeadline entered)).2 ∧
        next.passingDetector =
          (state.passingDetector.identifyPassings computePassingPoint
            (passingDeadline entered)).1) ∨
      ((∀ list, report ≠ .passings list) ∧
        next.passingDetector.detections = state.passingDetector.detections)) ∧
    (∀ entered, next.stage = .timesynced entered → entered = now) ∧
    (state.stage = .finished → next.stage = .idle) := by
  obtain ⟨rc4Trainer, passingDetector, rc4Registry, directory, stage⟩ := state
  cases stage with
  | idle =>
    obtain ⟨rfl, rfl⟩ := Prod.mk.inj (Option.some.inj stepped)
    exact ⟨Or.inr ⟨fun _ => nofun, rfl⟩, fun _ same => (LearningStage.timesynced.inj same).symm,
      nofun⟩
  | timesynced entered =>
    obtain ⟨rfl, rfl⟩ := Prod.mk.inj (Option.some.inj stepped)
    exact ⟨Or.inl ⟨entered, rfl, rfl, rfl⟩, nofun, nofun⟩
  | reported entered =>
    obtain ⟨⟨rc4Trainer, result⟩, -, stepped⟩ := Option.bind_eq_some_iff.mp stepped
    obtain ⟨rfl, rfl⟩ := Prod.mk.inj (Option.some.inj stepped)
    exact ⟨Or.inr ⟨fun _ => by cases result <;> nofun, rfl⟩,
      fun _ => by cases result <;> nofun, nofun⟩
  | started =>
    obtain ⟨rssi, -, stepped⟩ := Option.bind_eq_some_iff.mp stepped
    obtain ⟨rfl, rfl⟩ := Prod.mk.inj (Option.some.inj stepped)
    exact ⟨Or.inr ⟨fun _ => nofun, rfl⟩, nofun, nofun⟩
  | collected judged transponderId payloads =>
    obtain ⟨timerange, -, stepped⟩ := Option.bind_eq_some_iff.mp stepped
    obtain ⟨rfl, rfl⟩ := Prod.mk.inj (Option.some.inj stepped)
    exact ⟨Or.inr ⟨fun _ => nofun, rfl⟩, nofun, nofun⟩
  | finished =>
    obtain ⟨rfl, rfl⟩ := Prod.mk.inj (Option.some.inj stepped)
    exact ⟨Or.inr ⟨fun _ => nofun, rfl⟩, nofun, fun _ => rfl⟩
  | done | preferred | timed | detected =>
    obtain ⟨rfl, rfl⟩ := Prod.mk.inj (Option.some.inj stepped)
    exact ⟨Or.inr ⟨fun _ => nofun, rfl⟩, nofun, nofun⟩

/-- What a section does to the hits that are collected, and that it keeps the clock. -/
theorem decoderStep_detections {decoder next : Decoder R} {input : DecoderInput R}
    {report : DecoderReport R} (keeps : KeepsClock decoder)
    (stepped : decoderStep config decoder input = some (next, report)) :
    KeepsClock next ∧
    ((∃ frame transponderId, report = .hit frame transponderId ∧
      next.learning.passingDetector =
        decoder.learning.passingDetector.append config.platform frame transponderId) ∨
    (report = .learning decoder.now decoder.nowSysclk
        (.passings (decoder.learning.passingDetector.identifyPassings config.computePassingPoint
          (passingDeadline decoder.now)).2) ∧
      next.learning.passingDetector =
        (decoder.learning.passingDetector.identifyPassings config.computePassingPoint
          (passingDeadline decoder.now)).1) ∨
    ((∀ frame transponderId, report ≠ .hit frame transponderId) ∧
      (∀ message ∈ report.messages config, message.passingKey = none) ∧
      next.learning.passingDetector.detections = decoder.learning.passingDetector.detections)) := by
  obtain ⟨rxStats, learning, ambrcBlacklist, receiveStage, mainStage, now, nowSysclk⟩ := decoder
  obtain ⟨waiting, entered⟩ := keeps
  cases input with
  | frame frame =>
    cases receiveStage <;>
    · obtain ⟨rfl, rfl⟩ := Prod.mk.inj (Option.some.inj stepped)
      exact ⟨⟨waiting, entered⟩, Or.inr (Or.inr ⟨fun _ _ => nofun, fun _ => nofun, rfl⟩)⟩
  | receive =>
    obtain ⟨rfl, rfl⟩ := Prod.mk.inj (Option.some.inj stepped)
    cases receiveStage with
    | append frame transponderId payload =>
      exact ⟨⟨waiting, entered⟩, Or.inl ⟨frame, transponderId, rfl, rfl⟩⟩
    | _ => exact ⟨⟨waiting, entered⟩, Or.inr (Or.inr ⟨fun _ _ => nofun, fun _ => nofun, rfl⟩)⟩
  | saveChannelCharacteristics | directoryChange =>
    obtain ⟨rfl, rfl⟩ := Prod.mk.inj (Option.some.inj stepped)
    exact ⟨⟨waiting, entered⟩, Or.inr (Or.inr ⟨fun _ _ => nofun, fun _ => nofun, rfl⟩)⟩
  | reportDetections steady sysclk =>
    cases mainStage with
    | waiting =>
      obtain ⟨rfl, rfl⟩ := Prod.mk.inj (Option.some.inj stepped)
      have idle : learning.stage = .idle := waiting nofun
      exact ⟨⟨fun _ => idle, fun _ same => absurd (idle.symm.trans same) nofun⟩,
        Or.inr (Or.inr ⟨fun _ _ => nofun, fun _ => nofun, rfl⟩)⟩
    | due =>
      obtain ⟨rfl, rfl⟩ := Prod.mk.inj (Option.some.inj stepped)
      exact ⟨⟨fun _ => waiting nofun, entered⟩,
        Or.inr (Or.inr ⟨fun _ _ => nofun, fun _ => nofun, rfl⟩)⟩
    | formatted report =>
      obtain ⟨rfl, rfl⟩ := Prod.mk.inj (Option.some.inj stepped)
      exact ⟨⟨fun _ => waiting nofun, entered⟩, Or.inr (Or.inr ⟨fun _ _ => nofun,
        fun _ member => List.mem_singleton.mp member ▸ rfl, rfl⟩)⟩
    | detecting =>
      obtain ⟨⟨reached, told⟩, detected, stepped⟩ := Option.bind_eq_some_iff.mp stepped
      obtain ⟨rfl, rfl⟩ := Prod.mk.inj (Option.some.inj stepped)
      obtain ⟨detections, clock, finished⟩ := reportDetectionsStep_detections detected
      refine ⟨⟨fun waits => ?_, clock⟩, Or.inr ?_⟩
      · refine finished ?_
        cases stage : learning.stage with
        | finished => rfl
        | _ => exact absurd (by simp only [stage]) waits
      · rcases detections with ⟨since, stage, rfl, collected⟩ | ⟨other, same⟩
        · obtain rfl : since = now := entered since stage
          exact Or.inl ⟨rfl, collected⟩
        · exact Or.inr ⟨fun _ _ => nofun, passingKey_learningMessages other _ _, same⟩

omit [Field R] [LinearOrder R] in
theorem passingsFor_concat (key : TransponderKey) (reports : List (DecoderReport R))
    (report : DecoderReport R) :
    passingsFor key ((reports ++ [report]).flatMap (DecoderReport.messages config)) =
      passingsFor key (reports.flatMap (DecoderReport.messages config)) ++
        passingsFor key (report.messages config) := by
  rw [List.flatMap_append, List.flatMap_singleton, passingsFor, List.filter_append]
  rfl

omit [Field R] [LinearOrder R] in
/-- The messages of a look about one transponder are those of its own passings. -/
theorem passingsFor_passings (key : TransponderKey) (now nowSysclk : UInt64)
    (list : List (Passing R)) :
    passingsFor key (DecoderReport.messages config (.learning now nowSysclk (.passings list))) =
      (list.filter fun passing => passing.key = key).map
        (passingMessage config now nowSysclk) := by
  rw [passingsFor, DecoderReport.messages, learningMessages, List.filter_map]
  congr 1
  refine List.filter_congr fun passing _ => ?_
  exact decide_eq_decide.mpr Option.some_inj

/-- What a section does to the clocks that were read, and the clocks it reports. -/
theorem decoderStep_clock {inputs : List (DecoderInput R)} {decoder next : Decoder R}
    {input : DecoderInput R} {report : DecoderReport R} (reads : ReadsClock inputs decoder)
    (stepped : decoderStep config decoder input = some (next, report)) :
    ReadsClock (inputs ++ [input]) next ∧
      ∀ now nowSysclk told, report = .learning now nowSysclk told →
        .reportDetections now nowSysclk ∈ inputs := by
  obtain ⟨rxStats, learning, ambrcBlacklist, receiveStage, mainStage, now, nowSysclk⟩ := decoder
  have kept : ∀ other, other ∈ inputs → other ∈ inputs ++ [input] :=
    fun _ => List.mem_append_left _
  cases input with
  | frame frame =>
    cases receiveStage <;>
    · obtain ⟨rfl, rfl⟩ := Prod.mk.inj (Option.some.inj stepped)
      exact ⟨fun busy => kept _ (reads busy), fun _ _ _ => nofun⟩
  | receive =>
    obtain ⟨rfl, rfl⟩ := Prod.mk.inj (Option.some.inj stepped)
    cases receiveStage <;> exact ⟨fun busy => kept _ (reads busy), fun _ _ _ => nofun⟩
  | saveChannelCharacteristics | directoryChange =>
    obtain ⟨rfl, rfl⟩ := Prod.mk.inj (Option.some.inj stepped)
    exact ⟨fun busy => kept _ (reads busy), fun _ _ _ => nofun⟩
  | reportDetections steady sysclk =>
    cases mainStage with
    | waiting =>
      obtain ⟨rfl, rfl⟩ := Prod.mk.inj (Option.some.inj stepped)
      exact ⟨fun _ => List.mem_append_right _ List.mem_cons_self, fun _ _ _ => nofun⟩
    | due | formatted =>
      obtain ⟨rfl, rfl⟩ := Prod.mk.inj (Option.some.inj stepped)
      exact ⟨fun _ => kept _ (reads nofun), fun _ _ _ => nofun⟩
    | detecting =>
      obtain ⟨⟨reached, told⟩, -, stepped⟩ := Option.bind_eq_some_iff.mp stepped
      obtain ⟨rfl, rfl⟩ := Prod.mk.inj (Option.some.inj stepped)
      refine ⟨fun _ => kept _ (reads nofun), ?_⟩
      rintro _ _ _ ⟨⟩
      exact reads nofun

omit [LinearOrder R] in
/-- What closed a group closed it, however long the run goes on. -/
theorem ClosedByLook.concat {key : TransponderKey} {inputs : List (DecoderInput R)}
    {reports : List (DecoderReport R)} {earlier : List (ClosedGroup R)} {group : ClosedGroup R}
    (closed : ClosedByLook config key inputs reports earlier group)
    (long : reports.length = inputs.length) (input : DecoderInput R) (report : DecoderReport R) :
    ClosedByLook config key (inputs ++ [input]) (reports ++ [report]) earlier group := by
  obtain ⟨past, list, future, rfl, hits, read, messages⟩ := closed.look
  refine ⟨closed.isOver, closed.late, past, list, future ++ [report], ?_, hits, ?_, messages⟩
  · rw [List.append_assoc, List.cons_append]
  · rw [List.length_append] at long
    rwa [List.take_append_of_le_length (by omega)]

omit [LinearOrder R] in
/-- A section that is neither a hit nor a look leaves the groups as they are. -/
theorem PublishesGroups.other {key : TransponderKey} {inputs : List (DecoderInput R)}
    {reports : List (DecoderReport R)} {decoder next : Decoder R} {groups : List (ClosedGroup R)}
    {opened : List (Detection R)}
    (publishes : PublishesGroups config key inputs reports decoder groups opened)
    (long : reports.length = inputs.length) (input : DecoderInput R) {report : DecoderReport R}
    (noHit : hitsFor config.platform key [report] = [])
    (noMessage : passingsFor key (report.messages config) = [])
    (held : HoldsGroup next.learning.passingDetector key opened) :
    PublishesGroups config key (inputs ++ [input]) (reports ++ [report]) next groups opened where
  hits := by
    rw [hitsFor, List.filterMap_append, ← hitsFor, ← hitsFor, noHit, List.append_nil,
      publishes.hits]
  nonempty := publishes.nonempty
  closed := fun earlier group later split =>
    (publishes.closed earlier group later split).concat long input report
  published := by
    rw [passingsFor_concat, noMessage, List.append_nil, publishes.published]
  held := held

omit [Field R] [LinearOrder R] in
theorem late_of_pastDeadline {now : UInt64} {group : List (Detection R)}
    (isOver : PassingDetector.pastDeadline (passingDeadline now) group = true) :
    ∀ back ∈ group.getLast?, back.timestamp = 0 ∨ back.timestamp.toNat + 250000 ≤ now.toNat := by
  intro back isBack
  rw [PassingDetector.pastDeadline, Option.mem_def.mp isBack] at isOver
  have old := UInt64.le_iff_toNat_le.mp (of_decide_eq_true isOver)
  rw [toNat_passingDeadline] at old
  rcases Nat.eq_zero_or_pos back.timestamp.toNat with zero | positive
  · exact Or.inl (UInt64.toNat_inj.mp zero)
  · exact Or.inr (by omega)

omit [LinearOrder R] in
/-- The open group is closed. -/
theorem PublishesGroups.close {key : TransponderKey} {inputs : List (DecoderInput R)}
    {reports : List (DecoderReport R)} {decoder next : Decoder R} {groups : List (ClosedGroup R)}
    {group : ClosedGroup R} {list : List (Passing R)}
    (publishes : PublishesGroups config key inputs reports decoder groups group.hits)
    (long : reports.length = inputs.length) (input : DecoderInput R)
    (read : .reportDetections group.now group.nowSysclk ∈ inputs)
    (isOver : PassingDetector.pastDeadline (passingDeadline group.now) group.hits = true)
    (messages : passingsFor key (DecoderReport.messages config
      (.learning group.now group.nowSysclk (.passings list))) = group.messages config key)
    (held : HoldsGroup next.learning.passingDetector key []) :
    PublishesGroups config key (inputs ++ [input])
      (reports ++ [.learning group.now group.nowSysclk (.passings list)]) next (groups ++ [group])
      [] := by
  have hits : hitsFor config.platform key reports =
      (groups ++ [group]).flatMap ClosedGroup.hits := by
    rw [publishes.hits, List.flatMap_append, List.flatMap_singleton]
  refine ⟨?_, ?_, ?_, ?_, held⟩
  · rw [hitsFor, List.filterMap_append, ← hitsFor, hits]
    rfl
  · rw [List.forall_mem_append, List.forall_mem_singleton]
    refine ⟨publishes.nonempty, fun empty => ?_⟩
    rw [empty] at isOver
    cases isOver
  · intro earlier other later split
    induction later using List.reverseRecOn with
    | nil =>
      obtain ⟨rfl, same⟩ := List.append_inj' split rfl
      obtain rfl := List.singleton_inj.mp same
      refine ⟨isOver, late_of_pastDeadline isOver, reports, list, [], rfl, hits, ?_, messages⟩
      rwa [long, List.take_left]
    | append_singleton later last _ =>
      rw [← List.cons_append, ← List.append_assoc] at split
      obtain ⟨same, -⟩ := List.append_inj' split rfl
      exact (publishes.closed earlier other later same).concat long input _
  · rw [passingsFor_concat, messages, publishes.published, List.flatMap_append,
      List.flatMap_singleton]

omit [LinearOrder R] in
/-- A look closes the open group when its last hit is old enough, and publishes it. -/
theorem PublishesGroups.look {key : TransponderKey} {inputs : List (DecoderInput R)}
    {reports : List (DecoderReport R)} {decoder next : Decoder R} {groups : List (ClosedGroup R)}
    {opened : List (Detection R)}
    (publishes : PublishesGroups config key inputs reports decoder groups opened)
    (long : reports.length = inputs.length) (input : DecoderInput R)
    (read : .reportDetections decoder.now decoder.nowSysclk ∈ inputs)
    (collected : next.learning.passingDetector =
      (decoder.learning.passingDetector.identifyPassings config.computePassingPoint
        (passingDeadline decoder.now)).1) :
    ∃ groups opened, PublishesGroups config key (inputs ++ [input]) (reports ++ [.learning
        decoder.now decoder.nowSysclk (.passings (decoder.learning.passingDetector.identifyPassings
          config.computePassingPoint (passingDeadline decoder.now)).2)]) next groups opened := by
  obtain ⟨held, list⟩ := publishes.held.identify config.computePassingPoint key
    (passingDeadline decoder.now)
  rw [← collected] at held
  by_cases isOver : PassingDetector.pastDeadline (passingDeadline decoder.now) opened = true
  · rw [if_pos isOver] at held list
    let group : ClosedGroup R := ⟨opened, decoder.now, decoder.nowSysclk⟩
    have here : PublishesGroups config key inputs reports decoder groups group.hits := publishes
    refine ⟨groups ++ [group], [], here.close long input read isOver ?_ held⟩
    rw [passingsFor_passings, list, groupReport, ClosedGroup.messages]
    split <;> rfl
  · rw [if_neg isOver] at held list
    refine ⟨groups, opened, publishes.other long input rfl ?_ held⟩
    rw [passingsFor_passings, list, List.map_nil]

theorem PublishesGroups.step {key : TransponderKey} {inputs : List (DecoderInput R)}
    {reports : List (DecoderReport R)} {decoder next : Decoder R} {groups : List (ClosedGroup R)}
    {opened : List (Detection R)}
    (publishes : PublishesGroups config key inputs reports decoder groups opened)
    (long : reports.length = inputs.length) (keeps : KeepsClock decoder)
    (reads : ReadsClock inputs decoder) {input : DecoderInput R} {report : DecoderReport R}
    (stepped : decoderStep config decoder input = some (next, report)) :
    ∃ groups opened, PublishesGroups config key (inputs ++ [input]) (reports ++ [report]) next
      groups opened := by
  have clock := (decoderStep_clock reads stepped).2
  rcases (decoderStep_detections keeps stepped).2 with
    ⟨frame, transponderId, rfl, appended⟩ | ⟨rfl, collected⟩ | ⟨noHit, noMessage, same⟩
  · by_cases own : PassingDetector.keyOf frame transponderId = key
    · refine ⟨groups, opened ++ [PassingDetector.detectionOf config.platform frame], ?_,
        publishes.nonempty, ?_, ?_, ?_⟩
      · rw [hitsFor, List.filterMap_append, ← hitsFor, publishes.hits, List.append_assoc]
        simp [own]
      · exact fun earlier group later split =>
          (publishes.closed earlier group later split).concat long input _
      · rw [passingsFor_concat, publishes.published]
        exact List.append_nil _
      · rw [appended]
        exact publishes.held.hit config.platform key own
    · refine ⟨groups, opened, publishes.other long input (by simp [hitsFor, own]) rfl ?_⟩
      rw [appended]
      exact publishes.held.other config.platform key own
  · exact publishes.look long input (clock _ _ _ rfl) collected
  · refine ⟨groups, opened, publishes.other long input ?_ ?_ ?_⟩
    · cases report with
      | hit frame transponderId => exact absurd rfl (noHit frame transponderId)
      | _ => rfl
    · exact List.filter_eq_nil_iff.mpr fun message member => by simp [noMessage message member]
    · rw [HoldsGroup, same]
      exact publishes.held

omit [LinearOrder R] in
theorem KeepsClock.start (directory : List DirEntry) :
    KeepsClock (Decoder.start directory : Decoder R) where
  waiting := fun _ => rfl
  entered := nofun

omit [LinearOrder R] in
theorem PublishesGroups.start (key : TransponderKey) (directory : List DirEntry) :
    PublishesGroups config key [] [] (.start directory) [] [] where
  hits := rfl
  nonempty := nofun
  closed := fun earlier _ _ split => by simp at split
  published := rfl
  held := rfl

/-- After every run, the groups of a transponder and the hits of the group that is still open. -/
theorem publishesGroups_of_run (key : TransponderKey) {directory : List DirEntry}
    {inputs : List (DecoderInput R)} {last : Decoder R} {reports : List (DecoderReport R)}
    (ran : run (decoderStep config) (.start directory) inputs = some (last, reports)) :
    ∃ groups opened, PublishesGroups config key inputs reports last groups opened := by
  have kept := run_kept_inputs (fun inputs reports decoder => KeepsClock decoder ∧
    ReadsClock inputs decoder ∧
    ∃ groups opened, PublishesGroups config key inputs reports decoder groups opened)
    (fun past reports decoder input next report long holds stepped => by
      obtain ⟨keeps, reads, groups, opened, publishes⟩ := holds
      exact ⟨(decoderStep_detections keeps stepped).1, (decoderStep_clock reads stepped).1,
        publishes.step long keeps reads stepped⟩)
    ⟨KeepsClock.start directory, fun busy => absurd rfl busy, [], [],
      PublishesGroups.start key directory⟩ ran
  exact kept.2.2

/-- Whatever the order of the critical sections, each hit of a transponder is in one group, the
groups follow each other, and each group is closed by a look a quarter of a second behind its
last hit, which publishes one passing message when the group has at least two hits. -/
theorem passings_published [IsStrictOrderedRing R] (config : DecoderConfig R)
    (key : TransponderKey) (directory : List DirEntry) (inputs : List (DecoderInput R)) :
    ∃ last reports, run (decoderStep config) (.start directory) inputs = some (last, reports) ∧
      ∃ groups opened, PublishesGroups config key inputs reports last groups opened := by
  obtain ⟨last, reports, ran, -⟩ := decoder_run config directory inputs
  exact ⟨last, reports, ran, publishesGroups_of_run key ran⟩

end Passings

/-- Transponder 1 is heard twice while the main thread looks for passings, and once more half a
second later. -/
noncomputable def passesMeanwhile : List (DecoderInput ℝ) :=
  [.frame (openstintFrame 0x000001ba00 1000), .receive, .reportDetections 200000 0, .receive,
    .reportDetections 0 0, .frame (openstintFrame 0x000001ba00 2000), .receive,
    .reportDetections 0 0, .receive, .reportDetections 0 0, .reportDetections 0 0,
    .reportDetections 500000 0, .reportDetections 0 0, .reportDetections 0 0,
    .frame (openstintFrame 0x000001ba00 500000), .receive]

/-- The second look publishes a passing, and the third hit is left in an open group. -/
theorem passings_published_twice :
    ∃ last reports, run (decoderStep idealConfig) (.start []) passesMeanwhile =
        some (last, reports) ∧
      (hitsFor idealPlatform (.openStint, 1) reports).length = 3 ∧
      (passingsFor (.openStint, 1)
        (reports.flatMap (DecoderReport.messages idealConfig))).length = 1 ∧
      ∃ groups opened, PublishesGroups idealConfig (.openStint, 1) passesMeanwhile reports last
        groups opened := by
  obtain ⟨last, reports, ran, publishes⟩ :=
    passings_published idealConfig (.openStint, 1) [] passesMeanwhile
  have counted : (run (decoderStep idealConfig) (.start []) passesMeanwhile).map (fun outcome =>
      ((hitsFor idealPlatform (.openStint, 1) outcome.2).length,
        (passingsFor (.openStint, 1)
          (outcome.2.flatMap (DecoderReport.messages idealConfig))).length)) = some (3, 1) := by
    decide +kernel
  rw [ran] at counted
  obtain ⟨hits, passings⟩ := Prod.mk.inj (Option.some.inj counted)
  exact ⟨last, reports, ran, hits, passings, publishes⟩

/-! ### The status reports -/

/-- A status report with the clock it was made at. -/
def DecoderReport.statusReport : DecoderReport R → Option (UInt64 × StatusReport R)
  | .status now _ report => some (now, report)
  | _ => none

def statusReports (reports : List (DecoderReport R)) : List (UInt64 × StatusReport R) :=
  reports.filterMap DecoderReport.statusReport

/-- The frames that a section counts. -/
def DecoderReport.counted (counter : FrameCounter) : DecoderReport R → Nat
  | .registered processed => counter.registered (.registerFrame processed : StatusInput R)
  | _ => 0

/-- The second clock is five seconds behind the first, unless the first is about to wrap. -/
def PeriodApart (first second : UInt64) : Prop :=
  first.toNat + reportingPeriodUs.toNat < 2 ^ 64 →
    first.toNat + reportingPeriodUs.toNat ≤ second.toNat

/-- The status reports of a run and the clocks they were made at. -/
structure StatusAccount (reports : List (DecoderReport R)) (rxStats : RxStatistics R) : Prop where
  /-- No more frames are processed than received. -/
  consistent : ∀ published ∈ statusReports reports,
    published.2.framesProcessed ≤ published.2.framesReceived
  /-- No frame is in two reports, or in one and still in the counters. -/
  once : ∀ counter : FrameCounter,
    ((statusReports reports).map fun published => counter.reported published.2).sum +
      counter.current rxStats ≤ (reports.map (DecoderReport.counted counter)).sum
  /-- The first report comes after five seconds, and each other one five seconds after the one
  before it. -/
  apart : (0 :: (statusReports reports).map Prod.fst).IsChain PeriodApart

/-- What the main thread holds in the status step. -/
structure StatusHeld (rxStats : RxStatistics R) (now : UInt64) (mainStage : MainStage R) :
    Prop where
  due : mainStage = .due → PeriodApart rxStats.lastResetTimestamp now
  formatted : ∀ report, mainStage = .formatted report →
    PeriodApart rxStats.lastResetTimestamp now ∧
      report.framesProcessed ≤ report.framesReceived ∧
      ∀ counter : FrameCounter, counter.reported report ≤ counter.current rxStats

structure StatusInvariant (reports : List (DecoderReport R)) (decoder : Decoder R) : Prop where
  account : StatusAccount reports decoder.rxStats
  counted : decoder.rxStats.framesProcessed ≤ decoder.rxStats.framesReceived
  lastReset : (0 :: (statusReports reports).map Prod.fst).getLast? =
    some decoder.rxStats.lastResetTimestamp
  held : StatusHeld decoder.rxStats decoder.now decoder.mainStage

theorem periodApart_of_reportingDue {rxStats : RxStatistics R} {now : UInt64}
    (due : rxStats.reportingDue now = true) : PeriodApart rxStats.lastResetTimestamp now := by
  intro fits
  have late := UInt64.le_iff_toNat_le.mp (of_decide_eq_true due)
  rwa [UInt64.toNat_add, Nat.mod_eq_of_lt fits] at late

theorem statusHeld_entered (rxStats : RxStatistics R) (now : UInt64) :
    StatusHeld rxStats now (if rxStats.reportingDue now then .due else .detecting) := by
  cases due : rxStats.reportingDue now with
  | true => exact ⟨fun _ => periodApart_of_reportingDue due, nofun⟩
  | false => exact ⟨nofun, nofun⟩

theorem statusReports_concat (reports : List (DecoderReport R)) (report : DecoderReport R) :
    statusReports (reports ++ [report]) =
      statusReports reports ++ report.statusReport.toList := by
  rw [statusReports, List.filterMap_append, List.filterMap_cons]
  cases report.statusReport <;> rfl

/-- A section that publishes no status keeps what is held, when it counts what it reports. -/
theorem StatusInvariant.silent {reports : List (DecoderReport R)} {decoder next : Decoder R}
    (invariant : StatusInvariant reports decoder) {report : DecoderReport R}
    (noStatus : report.statusReport = none)
    (counts : ∀ counter : FrameCounter,
      counter.current next.rxStats = counter.current decoder.rxStats + report.counted counter)
    (counted : next.rxStats.framesProcessed ≤ next.rxStats.framesReceived)
    (lastReset : next.rxStats.lastResetTimestamp = decoder.rxStats.lastResetTimestamp)
    (held : StatusHeld next.rxStats next.now next.mainStage) :
    StatusInvariant (reports ++ [report]) next := by
  have same : statusReports (reports ++ [report]) = statusReports reports := by
    rw [statusReports_concat, noStatus, Option.toList_none, List.append_nil]
  refine ⟨⟨?_, fun counter => ?_, ?_⟩, counted, ?_, held⟩
  · rw [same]
    exact invariant.account.consistent
  · rw [same, counts, List.map_append, List.sum_append, List.map_singleton, List.sum_singleton,
      ← Nat.add_assoc]
    exact Nat.add_le_add_right (invariant.account.once counter) _
  · rw [same]
    exact invariant.account.apart
  · rw [same, lastReset]
    exact invariant.lastReset

/-- A section of the main thread that leaves the counters alone. -/
theorem StatusInvariant.keep {reports : List (DecoderReport R)} {decoder next : Decoder R}
    (invariant : StatusInvariant reports decoder) {report : DecoderReport R}
    (noStatus : report.statusReport = none)
    (noCount : ∀ counter : FrameCounter, report.counted counter = 0)
    (rxStats : next.rxStats = decoder.rxStats)
    (held : StatusHeld decoder.rxStats next.now next.mainStage) :
    StatusInvariant (reports ++ [report]) next :=
  invariant.silent noStatus (fun counter => by rw [rxStats, noCount, Nat.add_zero])
    (rxStats ▸ invariant.counted) (by rw [rxStats]) (rxStats ▸ held)

/-- A frame is counted, whatever the main thread holds. -/
theorem StatusInvariant.register {reports : List (DecoderReport R)} {decoder : Decoder R}
    (invariant : StatusInvariant reports decoder) (processed : Bool)
    (receiveStage : ReceiveStage R) :
    StatusInvariant (reports ++ [.registered processed])
      { decoder with rxStats := decoder.rxStats.registerFrame processed, receiveStage } := by
  have grows : ∀ counter : FrameCounter,
      counter.current (decoder.rxStats.registerFrame processed) =
        counter.current decoder.rxStats + DecoderReport.counted counter
          (.registered processed : DecoderReport R) := by
    intro counter
    cases counter <;> cases processed <;> rfl
  have lastReset : (decoder.rxStats.registerFrame processed).lastResetTimestamp =
      decoder.rxStats.lastResetTimestamp := by
    cases processed <;> rfl
  refine invariant.silent rfl grows ?_ lastReset ?_
  · have counted := invariant.counted
    cases processed
    · exact Nat.le_succ_of_le counted
    · exact Nat.succ_le_succ counted
  · refine ⟨fun due => ?_, fun report formatted => ?_⟩
    · rw [lastReset]
      exact invariant.held.due due
    · obtain ⟨apart, consistent, counters⟩ := invariant.held.formatted report formatted
      refine ⟨lastReset ▸ apart, consistent, fun counter => ?_⟩
      rw [grows]
      exact Nat.le_add_right_of_le (counters counter)

/-- The report that was formatted is published, and the counters start again. -/
theorem StatusInvariant.publish {reports : List (DecoderReport R)} {decoder : Decoder R}
    (invariant : StatusInvariant reports decoder) {report : StatusReport R}
    (formatted : decoder.mainStage = .formatted report) :
    StatusInvariant (reports ++ [.status decoder.now decoder.nowSysclk report])
      { decoder with
        rxStats := decoder.rxStats.reset decoder.now, mainStage := .detecting } := by
  obtain ⟨apart, consistent, counters⟩ := invariant.held.formatted report formatted
  have grown : statusReports (reports ++ [.status decoder.now decoder.nowSysclk report]) =
      statusReports reports ++ [(decoder.now, report)] := statusReports_concat _ _
  refine ⟨⟨?_, fun counter => ?_, ?_⟩, le_rfl, ?_, ⟨nofun, nofun⟩⟩
  · rw [grown, List.forall_mem_append, List.forall_mem_singleton]
    exact ⟨invariant.account.consistent, consistent⟩
  · have before := invariant.account.once counter
    have published := counters counter
    have cleared : counter.current (decoder.rxStats.reset decoder.now) = 0 := by
      cases counter <;> rfl
    have uncounted : DecoderReport.counted counter
        (.status decoder.now decoder.nowSysclk report : DecoderReport R) = 0 := rfl
    rw [grown, List.map_append, List.sum_append, List.map_append, List.sum_append,
      List.map_singleton, List.sum_singleton, List.map_singleton, List.sum_singleton, cleared,
      uncounted]
    dsimp only
    omega
  · rw [grown, List.map_append, ← List.cons_append]
    refine invariant.account.apart.append (List.isChain_singleton _) fun last isLast now isNow => ?_
    obtain rfl := Option.some.inj (invariant.lastReset.symm.trans isLast)
    obtain rfl : decoder.now = now := Option.some.inj isNow
    exact apart
  · rw [grown, List.map_append, ← List.cons_append]
    exact List.getLast?_concat

section Status

variable [Field R] [LinearOrder R] {config : DecoderConfig R}

theorem StatusInvariant.step {reports : List (DecoderReport R)} {decoder next : Decoder R}
    (invariant : StatusInvariant reports decoder) {input : DecoderInput R}
    {report : DecoderReport R} (stepped : decoderStep config decoder input = some (next, report)) :
    StatusInvariant (reports ++ [report]) next := by
  obtain ⟨rxStats, learning, ambrcBlacklist, receiveStage, mainStage, now, nowSysclk⟩ := decoder
  cases input with
  | frame frame =>
    cases receiveStage <;>
    · obtain ⟨rfl, rfl⟩ := Prod.mk.inj (Option.some.inj stepped)
      exact invariant.keep rfl (fun _ => rfl) rfl invariant.held
  | receive =>
    obtain ⟨rfl, rfl⟩ := Prod.mk.inj (Option.some.inj stepped)
    cases receiveStage with
    | register processed => exact invariant.register processed .idle
    | _ => exact invariant.keep rfl (fun _ => rfl) rfl invariant.held
  | saveChannelCharacteristics dcOffset noisePower =>
    obtain ⟨rfl, rfl⟩ := Prod.mk.inj (Option.some.inj stepped)
    refine invariant.silent rfl (fun counter => ?_) invariant.counted rfl ?_
    · cases counter <;> rfl
    · refine ⟨invariant.held.due, fun report formatted => ?_⟩
      obtain ⟨apart, consistent, counters⟩ := invariant.held.formatted report formatted
      refine ⟨apart, consistent, fun counter => ?_⟩
      have counters := counters counter
      cases counter <;> exact counters
  | directoryChange directory =>
    obtain ⟨rfl, rfl⟩ := Prod.mk.inj (Option.some.inj stepped)
    exact invariant.keep rfl (fun _ => rfl) rfl invariant.held
  | reportDetections steady sysclk =>
    cases mainStage with
    | waiting =>
      obtain ⟨rfl, rfl⟩ := Prod.mk.inj (Option.some.inj stepped)
      refine invariant.keep rfl (fun _ => rfl) ?_ ?_
      · rfl
      · dsimp only
        exact statusHeld_entered rxStats steady
    | due =>
      obtain ⟨rfl, rfl⟩ := Prod.mk.inj (Option.some.inj stepped)
      refine invariant.keep rfl (fun _ => rfl) (by rfl) ⟨nofun, ?_⟩
      rintro _ ⟨rfl⟩
      exact ⟨invariant.held.due rfl, invariant.counted,
        fun counter => by cases counter <;> exact le_rfl⟩
    | formatted report =>
      obtain ⟨rfl, rfl⟩ := Prod.mk.inj (Option.some.inj stepped)
      exact invariant.publish rfl
    | detecting =>
      obtain ⟨⟨reached, told⟩, -, stepped⟩ := Option.bind_eq_some_iff.mp stepped
      obtain ⟨rfl, rfl⟩ := Prod.mk.inj (Option.some.inj stepped)
      refine invariant.keep rfl (fun _ => rfl) (by rfl) ⟨fun due => ?_, fun _ formatted => ?_⟩
      · cases stage : learning.stage <;> simp [stage] at due
      · cases stage : learning.stage <;> simp [stage] at formatted

omit [LinearOrder R] in
theorem StatusInvariant.start (directory : List DirEntry) :
    StatusInvariant [] (Decoder.start directory : Decoder R) where
  account := ⟨nofun, fun counter => by cases counter <;> exact le_rfl, List.isChain_singleton _⟩
  counted := le_rfl
  lastReset := rfl
  held := ⟨nofun, nofun⟩

/-- Whatever the order of the critical sections, the status reports are consistent, they are at
least five seconds apart, and together they do not count a frame twice. -/
theorem status_accounts [IsStrictOrderedRing R] (config : DecoderConfig R)
    (directory : List DirEntry) (inputs : List (DecoderInput R)) :
    ∃ last reports, run (decoderStep config) (.start directory) inputs = some (last, reports) ∧
      StatusAccount reports last.rxStats := by
  obtain ⟨last, reports, ran, -⟩ := decoder_run config directory inputs
  have kept := run_kept StatusInvariant
    (fun _ _ _ _ _ invariant stepped => invariant.step stepped) (.start directory) ran
  exact ⟨last, reports, ran, kept.account⟩

end Status

/-- A frame that is received while the main thread makes its first report. -/
noncomputable def reportMeanwhile : List (DecoderInput ℝ) :=
  [.frame reservedFrame, .reportDetections 5000000 0, .receive, .reportDetections 0 0, .receive,
    .reportDetections 0 0]

theorem status_accounts_meanwhile :
    ∃ last reports, run (decoderStep idealConfig) (.start []) reportMeanwhile =
        some (last, reports) ∧
      StatusAccount reports last.rxStats :=
  status_accounts idealConfig [] reportMeanwhile

end OpenStint
