/-
This file models the part of `report_detections` of `commons.cpp` that follows the status
report: time syncs, passings, and the learning of an RC4 transponder. The receiving thread
appends to the trainer and to the passing detector between any two critical sections of
the main thread.

When the trainer is done, the main thread reads the buffer in three further critical
sections. As long as no entry is appended before the last of them, what is stored is what
was judged.
-/

import OpenStint.IdealPlatform
import OpenStint.Passing
import OpenStint.Rc4Registry
import OpenStint.Rc4Trainer

namespace OpenStint

open Machine BoundedQueue OrderedMap

variable {R : Type}

/-- What the main thread has gathered about a transponder when it stores it, and the
trainer as it was when the evaluation was done. The code does not keep the latter. -/
structure LearnedIdentity (R : Type) where
  judged : Rc4Trainer R
  preferred : UInt32
  payloads : List UInt64
  timerange : UInt64 × UInt64
  transponders : List UInt32

/-- Where the main thread is in `report_detections`. -/
inductive LearningStage (R : Type)
  | idle
  | timesynced (now : UInt64)
  | reported (now : UInt64)
  | started
  | done (judged : Rc4Trainer R)
  | preferred (judged : Rc4Trainer R) (transponderId : UInt32)
  | collected (judged : Rc4Trainer R) (transponderId : UInt32) (payloads : List UInt64)
  | timed (judged : Rc4Trainer R) (transponderId : UInt32) (payloads : List UInt64)
      (timerange : UInt64 × UInt64)
  | detected (identity : LearnedIdentity R)
  | finished

structure LearningState (R : Type) where
  rc4Trainer : Rc4Trainer R
  passingDetector : PassingDetector R
  rc4Registry : Rc4FileBasedRegistry
  directory : List DirEntry
  stage : LearningStage R

def LearningState.initial : LearningState R where
  rc4Trainer := .initial
  passingDetector := .initial
  rc4Registry := .initial
  directory := []
  stage := .idle

/-- One critical section: of the receiving thread, of another process that changes the
directory, or the next one of the main thread, which reads the clock when it enters. -/
inductive LearningInput (R : Type)
  | trainerAppend (timestamp : UInt64) (rssi : R) (transponderId : UInt32) (rc4Payload : UInt64)
  | detectorAppend (frame : Frame R) (transponderId : UInt32)
  | detectorTimesync (frame : Frame R) (transponderTimestamp : UInt32)
  | directoryChange (directory : List DirEntry)
  | reportDetections (now : UInt64)

/-- What a critical section reports. -/
inductive LearningReport (R : Type)
  | quiet
  | timesyncs (list : List TimeSync)
  | passings (list : List (Passing R))
  | start (rssi : R)
  | interrupted
  | done (identity : LearnedIdentity R) (transponderId : UInt32)
  | reset

/-- The deadline of `identify_passings`: a quarter of a second ago. -/
def passingDeadline (now : UInt64) : UInt64 := if now > 250000 then now - 250000 else 0

theorem toNat_passingDeadline (now : UInt64) :
    (passingDeadline now).toNat = now.toNat - 250000 := by
  have quarter : (250000 : UInt64).toNat = 250000 := rfl
  rw [passingDeadline]
  split
  · rename_i later
    have below := UInt64.lt_iff_toNat_lt.mp later
    rw [UInt64.toNat_sub_of_le _ _ (UInt64.le_iff_toNat_le.mpr below.le), quarter]
  · rename_i early
    have above := UInt64.le_iff_toNat_le.mp (UInt64.not_lt.mp early)
    rw [quarter] at above
    exact (Nat.sub_eq_zero_of_le above).symm

/-- The id the payloads are stored under, before the registry assigns one: a sole AMB
transponder stands in for an unknown id. -/
def idToStore (transponderId : UInt32) (detectedTransponders : List UInt32) : UInt32 :=
  match detectedTransponders with
  | [front] => if transponderId = 0 then front else transponderId
  | _ => transponderId

/-- The `switch` on the result of the evaluation. -/
def afterEvaluation (trainer : Rc4Trainer R) :
    EvaluationResult → LearningStage R × LearningReport R
  | .start => (.started, .quiet)
  | .interruped => (.finished, .interrupted)
  | .done => (.done trainer, .quiet)
  | .reset => (.finished, .reset)
  | .noAction => (.finished, .quiet)

/-- The next critical section of the main thread. -/
def reportDetectionsStep [Field R] [LinearOrder R]
    (computePassingPoint : List (Detection R) → PassingPoint R) (state : LearningState R)
    (now : UInt64) : Option (LearningState R × LearningReport R) :=
  match state.stage with
  | .idle =>
    let (passingDetector, list) := state.passingDetector.identifyTimesyncs 500000
    some ({ state with passingDetector, stage := .timesynced now }, .timesyncs list)
  | .timesynced now =>
    let (passingDetector, list) :=
      state.passingDetector.identifyPassings computePassingPoint (passingDeadline now)
    some ({ state with passingDetector, stage := .reported now }, .passings list)
  | .reported now => do
    let (rc4Trainer, result) ← state.rc4Trainer.evaluate now
    let (stage, report) := afterEvaluation rc4Trainer result
    some ({ state with rc4Trainer, stage }, report)
  | .started => do
    let rssi ← state.rc4Trainer.lastRssi
    some ({ state with stage := .finished }, .start rssi)
  | .done judged =>
    some ({ state with
      stage := .preferred judged state.rc4Trainer.preferredTransponderId }, .quiet)
  | .preferred judged transponderId =>
    some ({ state with
      stage := .collected judged transponderId state.rc4Trainer.registryPayloads }, .quiet)
  | .collected judged transponderId payloads => do
    let timerange ← state.rc4Trainer.bufferTimerange
    some ({ state with stage := .timed judged transponderId payloads timerange }, .quiet)
  | .timed judged preferred payloads timerange =>
    let transponders := state.passingDetector.passingsBetween .amb timerange.1 timerange.2
    some ({ state with
      stage := .detected { judged, preferred, payloads, timerange, transponders } }, .quiet)
  | .detected identity =>
    let (rc4Registry, directory, transponderId) :=
      state.rc4Registry.store state.directory
        (idToStore identity.preferred identity.transponders) identity.payloads
    some ({ state with rc4Registry, directory, stage := .finished }, .done identity transponderId)
  | .finished =>
    some ({ state with rc4Registry := state.rc4Registry.resync state.directory, stage := .idle },
      .quiet)

def learningStep [Field R] [LinearOrder R] (platform : Platform R)
    (computePassingPoint : List (Detection R) → PassingPoint R) (state : LearningState R) :
    LearningInput R → Option (LearningState R × LearningReport R)
  | .trainerAppend timestamp rssi transponderId rc4Payload =>
    some ({ state with
      rc4Trainer := state.rc4Trainer.append timestamp rssi transponderId rc4Payload }, .quiet)
  | .detectorAppend frame transponderId =>
    some ({ state with
      passingDetector := state.passingDetector.append platform frame transponderId }, .quiet)
  | .detectorTimesync frame transponderTimestamp =>
    some ({ state with
      passingDetector := state.passingDetector.timesync frame transponderTimestamp }, .quiet)
  | .directoryChange directory => some ({ state with directory }, .quiet)
  | .reportDetections now => reportDetectionsStep computePassingPoint state now

/-! ### What is stored and what was judged -/

/-- What a store does when all it is given comes from the buffer that was judged. -/
structure FromJudged (before after : LearningState R) (identity : LearnedIdentity R)
    (transponderId : UInt32) : Prop where
  preferred : identity.preferred = identity.judged.preferredTransponderId
  payloads : ∀ p, p ∈ identity.payloads ↔
    2 ≤ (identity.judged.buffer.map Entry.rc4Payload).count p
  timerange : identity.judged.bufferTimerange = some identity.timerange
  known : identity.preferred ≠ 0 → transponderId = identity.preferred
  stored : ∀ p, after.rc4Registry.lookup p =
    if p ∈ identity.payloads then some transponderId else before.rc4Registry.lookup p
  filed : after.directory = appendFile before.directory (fileName transponderId)
    (identity.payloads.flatMap fun p => hexLine p ++ ['\n'])

section Judged

variable [Field R] [LinearOrder R] (platform : Platform R)
  (computePassingPoint : List (Detection R) → PassingPoint R)

/-- A critical section is defined, and a store is of what was judged. -/
def LearnsJudged (state : LearningState R) (input : LearningInput R) : Prop :=
  ∃ next report, learningStep platform computePassingPoint state input = some (next, report) ∧
    ∀ identity transponderId, report = .done identity transponderId →
      FromJudged state next identity transponderId

end Judged

/-- The buffer is judged and has yet to be read. -/
def LearningStage.reading : LearningStage R → Bool
  | .done _ | .preferred _ _ | .collected _ _ _ => true
  | _ => false

/-- No entry is appended to the trainer between the evaluation and the last read. -/
def QuietWhileReading (state : LearningState R) (input : LearningInput R) : Prop :=
  state.stage.reading = true → ∀ timestamp rssi transponderId rc4Payload,
    input ≠ .trainerAppend timestamp rssi transponderId rc4Payload

/-! ### One critical section -/

/-- What the main thread holds in each stage, when nothing is appended while it reads. -/
def Gathered (rc4Trainer : Rc4Trainer R) : LearningStage R → Prop
  | .idle | .timesynced _ | .reported _ | .finished => True
  | .started => rc4Trainer.state ≠ .idle
  | .done judged => rc4Trainer.state ≠ .idle ∧ judged = rc4Trainer
  | .preferred judged transponderId =>
    rc4Trainer.state ≠ .idle ∧ judged = rc4Trainer ∧ transponderId = judged.preferredTransponderId
  | .collected judged transponderId payloads =>
    rc4Trainer.state ≠ .idle ∧ judged = rc4Trainer ∧
      transponderId = judged.preferredTransponderId ∧ payloads = judged.registryPayloads
  | .timed judged transponderId payloads timerange =>
    transponderId = judged.preferredTransponderId ∧ payloads = judged.registryPayloads ∧
      judged.bufferTimerange = some timerange
  | .detected identity =>
    identity.preferred = identity.judged.preferredTransponderId ∧
      identity.payloads = identity.judged.registryPayloads ∧
      identity.judged.bufferTimerange = some identity.timerange

structure LearningInvariant (state : LearningState R) : Prop where
  warm : state.rc4Trainer.state ≠ .idle → state.rc4Trainer.buffer ≠ []
  gathered : Gathered state.rc4Trainer state.stage

theorem LearningInvariant.initial : LearningInvariant (.initial : LearningState R) where
  warm := absurd rfl
  gathered := trivial

theorem idToStore_known {transponderId : UInt32} (known : transponderId ≠ 0)
    (detectedTransponders : List UInt32) :
    idToStore transponderId detectedTransponders = transponderId := by
  unfold idToStore
  split
  · exact if_neg known
  · rfl

/-- What the main thread has gathered stays so when the trainer only gets another entry,
unless it is reading the buffer. -/
theorem Gathered.append {rc4Trainer : Rc4Trainer R} {stage : LearningStage R}
    (gathered : Gathered rc4Trainer stage) (unread : stage.reading = false) (timestamp : UInt64)
    (rssi : R) (transponderId : UInt32) (rc4Payload : UInt64) :
    Gathered (rc4Trainer.append timestamp rssi transponderId rc4Payload) stage := by
  cases stage with
  | done | preferred | collected => cases unread
  | _ => exact gathered

section Steps

variable [Field R] [LinearOrder R] [IsStrictOrderedRing R]

/-- An evaluation is defined, and leaves a session open only on a buffer with entries. -/
theorem evaluate_defined {trainer : Rc4Trainer R} (timestamp : UInt64)
    (warm : trainer.state ≠ .idle → trainer.buffer ≠ []) :
    ∃ next result, trainer.evaluate timestamp = some (next, result) ∧
      (next.state ≠ .idle → next.buffer ≠ []) ∧
      (result = .start ∨ result = .done → next.state ≠ .idle) := by
  rcases evaluate_cases trainer timestamp warm with
    same | ⟨-, long, started⟩ | ⟨-, stopped⟩ | ⟨state, -, -, finished⟩ | ⟨-, reset⟩
  · exact ⟨trainer, .noAction, same, warm, fun opened => absurd opened (by decide)⟩
  · have length := length_rtake 128 trainer.buffer
    generalize trainer.buffer.rtake 128 = tail at started length
    exact ⟨_, .start, started, fun _ => List.length_pos_iff.mp (by dsimp only; omega),
      fun _ => nofun⟩
  · exact ⟨_, .interruped, stopped, absurd rfl, fun opened => absurd opened (by decide)⟩
  · exact ⟨_, .done, finished, fun _ => warm (by rw [state]; decide), fun _ => nofun⟩
  · exact ⟨_, .reset, reset, absurd rfl, fun opened => absurd opened (by decide)⟩

/-- The next critical section of the main thread is defined and keeps the invariant, and a
store is of what was judged. -/
theorem reportDetectionsStep_invariant (computePassingPoint : List (Detection R) → PassingPoint R)
    {state : LearningState R} (invariant : LearningInvariant state) (now : UInt64) :
    ∃ next report, reportDetectionsStep computePassingPoint state now = some (next, report) ∧
      LearningInvariant next ∧
      ∀ identity transponderId, report = .done identity transponderId →
        FromJudged state next identity transponderId := by
  obtain ⟨rc4Trainer, passingDetector, rc4Registry, directory, stage⟩ := state
  obtain ⟨warm, gathered⟩ := invariant
  dsimp only at warm gathered
  cases stage with
  | idle => exact ⟨_, _, rfl, ⟨warm, trivial⟩, nofun⟩
  | timesynced => exact ⟨_, _, rfl, ⟨warm, trivial⟩, nofun⟩
  | reported entered =>
    obtain ⟨next, result, evaluated, warmNext, opened⟩ := evaluate_defined entered warm
    refine ⟨⟨next, passingDetector, rc4Registry, directory, (afterEvaluation next result).1⟩,
      (afterEvaluation next result).2, by simp only [reportDetectionsStep, evaluated]; rfl,
      ⟨warmNext, ?_⟩, ?_⟩
    · cases result with
      | start => exact opened (Or.inl rfl)
      | done => exact ⟨opened (Or.inr rfl), rfl⟩
      | _ => trivial
    · cases result <;> nofun
  | started =>
    obtain ⟨rssi, read⟩ := Option.isSome_iff_exists.mp (isSome_of_warm (warm gathered)).1
    have stepped : reportDetectionsStep computePassingPoint
        ⟨rc4Trainer, passingDetector, rc4Registry, directory, .started⟩ now =
        some (⟨rc4Trainer, passingDetector, rc4Registry, directory, .finished⟩, .start rssi) := by
      simp only [reportDetectionsStep, read, Option.bind_eq_bind, Option.bind_some]
    exact ⟨_, _, stepped, ⟨warm, trivial⟩, nofun⟩
  | done judged =>
    obtain ⟨busy, rfl⟩ := gathered
    exact ⟨_, _, rfl, ⟨warm, busy, rfl, rfl⟩, nofun⟩
  | preferred judged transponderId =>
    obtain ⟨busy, rfl, known⟩ := gathered
    exact ⟨_, _, rfl, ⟨warm, busy, rfl, known, rfl⟩, nofun⟩
  | collected judged transponderId payloads =>
    obtain ⟨busy, rfl, known, listed⟩ := gathered
    obtain ⟨timerange, read⟩ := Option.isSome_iff_exists.mp (isSome_of_warm (warm busy)).2
    have stepped : reportDetectionsStep computePassingPoint
        ⟨judged, passingDetector, rc4Registry, directory,
          .collected judged transponderId payloads⟩ now =
        some (⟨judged, passingDetector, rc4Registry, directory,
          .timed judged transponderId payloads timerange⟩, .quiet) := by
      simp only [reportDetectionsStep, read, Option.bind_eq_bind, Option.bind_some]
    exact ⟨_, _, stepped, ⟨warm, known, listed, read⟩, nofun⟩
  | timed judged transponderId payloads timerange =>
    exact ⟨_, _, rfl, ⟨warm, gathered⟩, nofun⟩
  | detected identity =>
    refine ⟨_, _, rfl, ⟨warm, trivial⟩, ?_⟩
    rintro _ _ ⟨rfl, rfl⟩
    obtain ⟨preferred, payloads, timerange⟩ := gathered
    refine ⟨preferred, fun p => ?_, timerange, fun known => ?_, fun p => ?_, rfl⟩
    · rw [payloads, mem_registryPayloads]
    · show (rc4Registry.base.store (idToStore identity.preferred identity.transponders)
        identity.payloads).2 = identity.preferred
      rw [idToStore_known known, store_known _ known]
    · exact lookup_store_returned _ _ _ _
  | finished => exact ⟨_, _, rfl, ⟨warm, trivial⟩, nofun⟩

/-- One critical section of either thread, when none appends to a buffer that is being read. -/
theorem learningStep_invariant (platform : Platform R)
    (computePassingPoint : List (Detection R) → PassingPoint R) {state : LearningState R}
    (invariant : LearningInvariant state) {input : LearningInput R}
    (quiet : QuietWhileReading state input) :
    ∃ next report, learningStep platform computePassingPoint state input = some (next, report) ∧
      LearningInvariant next ∧
      ∀ identity transponderId, report = .done identity transponderId →
        FromJudged state next identity transponderId := by
  cases input with
  | trainerAppend timestamp rssi transponderId rc4Payload =>
    have unread : state.stage.reading = false :=
      Bool.eq_false_iff.mpr fun reading => quiet reading _ _ _ _ rfl
    exact ⟨_, _, rfl, ⟨fun _ => push_ne_nil (by decide) _ _,
      invariant.gathered.append unread timestamp rssi transponderId rc4Payload⟩, nofun⟩
  | detectorAppend frame transponderId =>
    exact ⟨_, _, rfl, ⟨invariant.warm, invariant.gathered⟩, nofun⟩
  | detectorTimesync frame transponderTimestamp =>
    exact ⟨_, _, rfl, ⟨invariant.warm, invariant.gathered⟩, nofun⟩
  | directoryChange directory =>
    exact ⟨_, _, rfl, ⟨invariant.warm, invariant.gathered⟩, nofun⟩
  | reportDetections now => exact reportDetectionsStep_invariant _ invariant now

end Steps

/-! ### A parked car -/

/-- An entry of a parked car. -/
noncomputable def parked : Entry ℝ := ⟨0, 1, 0, 0⟩

/-- An entry of a car that passes by. -/
noncomputable def passingBy : Entry ℝ := ⟨0, 2, 0, 0⟩

/-- The receiving thread appends an entry. -/
def receive (entry : Entry R) : LearningInput R :=
  .trainerAppend entry.timestamp entry.rssi entry.transponderId entry.rc4Payload

/-- The parked car starts a session. -/
noncomputable def untilStarted : List (LearningInput ℝ) :=
  List.replicate 128 (receive parked) ++
    (List.replicate 3 (.reportDetections 0) ++ List.replicate 2 (.reportDetections 0))

/-- The parked car fills the buffer, and the evaluation is done. -/
noncomputable def untilDone : List (LearningInput ℝ) :=
  List.replicate 8068 (receive parked) ++ List.replicate 3 (.reportDetections 0)

/-- The state with nothing but a trainer. -/
def withTrainer (rc4Trainer : Rc4Trainer R) (stage : LearningStage R) : LearningState R where
  rc4Trainer := rc4Trainer
  passingDetector := .initial
  rc4Registry := .initial
  directory := []
  stage := stage

theorem push_replicate {count : Nat} (entry : Entry R) (fits : count < bufferMaxSize) :
    push bufferMaxSize (List.replicate count entry) entry = List.replicate (count + 1) entry := by
  rw [push, ← List.replicate_succ', if_neg]
  rw [List.length_replicate]
  omega

theorem rtake_replicate {count kept : Nat} (entry : Entry R) (long : kept ≤ count) :
    (List.replicate count entry).rtake kept = List.replicate kept entry := by
  rw [List.rtake, List.drop_replicate, List.length_replicate, Nat.sub_sub_self long]

theorem getLast?_replicate {count : Nat} (entry : Entry R) (some_ : 0 < count) :
    (List.replicate count entry).getLast? = some entry := by
  rw [List.getLast?_replicate, if_neg (by omega)]

theorem rssiSpan_replicate [Field R] [LinearOrder R] {count : Nat} (entry : Entry R)
    (some_ : 0 < count) : Rc4Trainer.rssiSpan (List.replicate count entry) = some 0 := by
  rw [Rc4Trainer.rssiSpan, List.map_replicate, List.min?_replicate_of_pos some_,
    List.max?_replicate_of_pos some_]
  exact congrArg some (sub_self entry.rssi)

/-- An entry that is appended twice is in the buffer twice. -/
theorem push_twice {queue : List (Entry R)} (bounded : queue.length ≤ bufferMaxSize)
    (entry : Entry R) :
    push bufferMaxSize (push bufferMaxSize queue entry) entry =
      queue.rtake (bufferMaxSize - 2) ++ [entry, entry] := by
  have fits : [entry, entry].length ≤ bufferMaxSize := Nat.le_of_ble_eq_true rfl
  conv_lhs => rw [← rtake_of_length_le bounded]
  rw [push_rtake, push_rtake, List.append_assoc, List.singleton_append, rtake_append,
    rtake_of_length_le fits]
  rfl

theorem evaluate_parked_idle {count : Nat} (long : 128 ≤ count) :
    (⟨.idle, List.replicate count parked⟩ : Rc4Trainer ℝ).evaluate 0 =
      some (⟨.training, List.replicate 128 parked⟩, .start) := by
  have short : ¬ (List.replicate count parked).length < 128 := by
    rw [List.length_replicate]
    omega
  have first : (List.replicate 128 parked).head? = some parked := rfl
  have weak : ¬ (Rc4Trainer.elapsed parked.timestamp 0 > 100000 ∨ parked.rssi ≤ -20) := by
    rintro (late | weak)
    · exact absurd late (by decide)
    · exact absurd weak (by norm_num [parked])
  have settled : Rc4Trainer.elapsed parked.timestamp parked.timestamp ≤ 1000000 ∧ (0 : ℝ) ≤ 2 :=
    ⟨by decide, by norm_num⟩
  simp only [Rc4Trainer.evaluate, if_neg short, getLast?_replicate parked (by omega : 0 < count),
    rtake_replicate parked long, first, rssiSpan_replicate parked (by decide : 0 < 128),
    Option.bind_eq_bind, Option.bind_some, if_neg weak, if_pos settled]

theorem evaluate_parked_training {count : Nat} (full : bufferMaxSize ≤ count) :
    (⟨.training, List.replicate count parked⟩ : Rc4Trainer ℝ).evaluate 0 =
      some (⟨.finalizing, List.replicate count parked⟩, .done) := by
  have some_ : 0 < count := Nat.lt_of_lt_of_le (by decide) full
  have recent : ¬ Rc4Trainer.elapsed parked.timestamp 0 > 500000 := by decide
  have stable : ¬ ¬ (0 : ℝ) ≤ 3 := not_not.mpr (by norm_num)
  simp only [Rc4Trainer.evaluate, getLast?_replicate parked some_, rssiSpan_replicate parked some_,
    Option.bind_eq_bind, Option.bind_some, if_neg recent, if_neg stable, List.length_replicate,
    if_pos full]

section Runs

variable [Field R] [LinearOrder R] (platform : Platform R)
  (computePassingPoint : List (Detection R) → PassingPoint R)

theorem leads_receive (entry : Entry R) (state : TrainerState) (stage : LearningStage R)
    {count more total : Nat} (sum : count + more = total) (fits : total ≤ bufferMaxSize) :
    Leads (learningStep platform computePassingPoint)
      (withTrainer ⟨state, List.replicate count entry⟩ stage)
      (List.replicate more (receive entry))
      (withTrainer ⟨state, List.replicate total entry⟩ stage) := by
  induction more generalizing count with
  | zero =>
    subst sum
    exact .nil _
  | succ more inductionHypothesis =>
    have stepped : learningStep platform computePassingPoint
        (withTrainer ⟨state, List.replicate count entry⟩ stage) (receive entry) =
        some (withTrainer ⟨state, List.replicate (count + 1) entry⟩ stage, .quiet) := by
      rw [← push_replicate entry (by omega)]
      rfl
    exact .cons stepped (inductionHypothesis (by omega))

/-- The main thread from its idle stage through the evaluation. -/
theorem leads_evaluated {rc4Trainer next : Rc4Trainer R} {result : EvaluationResult}
    (evaluated : rc4Trainer.evaluate 0 = some (next, result)) :
    Leads (learningStep platform computePassingPoint) (withTrainer rc4Trainer .idle)
      (List.replicate 3 (.reportDetections 0))
      (withTrainer next (afterEvaluation next result).1) := by
  have timesynced : learningStep platform computePassingPoint (withTrainer rc4Trainer .idle)
      (.reportDetections 0) = some (withTrainer rc4Trainer (.timesynced 0), .timesyncs []) := rfl
  have reported : learningStep platform computePassingPoint
      (withTrainer rc4Trainer (.timesynced 0)) (.reportDetections 0) =
      some (withTrainer rc4Trainer (.reported 0), .passings []) := rfl
  have stepped : learningStep platform computePassingPoint (withTrainer rc4Trainer (.reported 0))
      (.reportDetections 0) = some (withTrainer next (afterEvaluation next result).1,
        (afterEvaluation next result).2) := by
    simp only [learningStep, reportDetectionsStep, withTrainer, evaluated]
    rfl
  exact .cons timesynced (.cons reported (.cons stepped (.nil _)))

/-- The main thread from a start to its idle stage. -/
theorem leads_started {rc4Trainer : Rc4Trainer R} {rssi : R}
    (read : rc4Trainer.lastRssi = some rssi) :
    Leads (learningStep platform computePassingPoint) (withTrainer rc4Trainer .started)
      (List.replicate 2 (.reportDetections 0)) (withTrainer rc4Trainer .idle) := by
  have stepped : learningStep platform computePassingPoint (withTrainer rc4Trainer .started)
      (.reportDetections 0) = some (withTrainer rc4Trainer .finished, .start rssi) := by
    simp only [learningStep, reportDetectionsStep, withTrainer, read]
    rfl
  have resynced : learningStep platform computePassingPoint (withTrainer rc4Trainer .finished)
      (.reportDetections 0) = some (withTrainer rc4Trainer .idle, .quiet) := rfl
  exact .cons stepped (.cons resynced (.nil _))

end Runs

theorem leads_untilStarted (computePassingPoint : List (Detection ℝ) → PassingPoint ℝ) :
    Leads (learningStep idealPlatform computePassingPoint) .initial untilStarted
      (withTrainer ⟨.training, List.replicate 128 parked⟩ .idle) := by
  have start : LearningState.initial =
      withTrainer ⟨.idle, List.replicate 0 parked⟩ .idle := rfl
  rw [start, untilStarted]
  exact (leads_receive _ _ parked .idle .idle (Nat.zero_add 128) (by decide)).append
    ((leads_evaluated _ _ (evaluate_parked_idle le_rfl)).append
      (leads_started _ _ (congrArg _ (getLast?_replicate parked (by decide : 0 < 128)))))

theorem leads_untilDone (computePassingPoint : List (Detection ℝ) → PassingPoint ℝ) :
    Leads (learningStep idealPlatform computePassingPoint)
      (withTrainer ⟨.training, List.replicate 128 parked⟩ .idle) untilDone
      (withTrainer ⟨.finalizing, List.replicate bufferMaxSize parked⟩
        (.done ⟨.finalizing, List.replicate bufferMaxSize parked⟩)) := by
  have filled : 128 + 8068 = bufferMaxSize := by decide
  rw [untilDone]
  exact (leads_receive _ _ parked .training .idle filled le_rfl).append
    (leads_evaluated _ _ (evaluate_parked_training le_rfl))

/-- Appending is quiet as long as the main thread does not read. -/
theorem quiet_receive [Field R] [LinearOrder R] (platform : Platform R)
    (computePassingPoint : List (Detection R) → PassingPoint R) (entry : Entry R)
    (state : LearningState R) (unread : state.stage.reading = false) (count : Nat) :
    RunAlong (learningStep platform computePassingPoint) QuietWhileReading state
      (List.replicate count (receive entry)) := by
  induction count generalizing state with
  | zero => trivial
  | succ count inductionHypothesis =>
    refine ⟨fun reading => absurd (unread.symm.trans reading) (by decide),
      fun next answer stepped => ?_⟩
    obtain ⟨rfl, -⟩ := Prod.mk.inj (Option.some.inj stepped)
    exact inductionHypothesis _ unread

/-- The main thread alone is quiet. -/
theorem quiet_reportDetections [Field R] [LinearOrder R] (platform : Platform R)
    (computePassingPoint : List (Detection R) → PassingPoint R) (state : LearningState R)
    (count : Nat) :
    RunAlong (learningStep platform computePassingPoint) QuietWhileReading state
      (List.replicate count (.reportDetections 0)) := by
  refine runAlong_of_forall (fun input member state _ => ?_) state
  rw [List.eq_of_mem_replicate member]
  exact fun _ _ _ _ => nofun

/-! ### Every interleaving -/

section Interleavings

variable [Field R] [LinearOrder R]
variable (platform : Platform R) (computePassingPoint : List (Detection R) → PassingPoint R)

/-- In every interleaving in which no entry is appended while the main thread reads the
judged buffer, what is stored is what was judged. -/
theorem learns_judged_of_quiet [IsStrictOrderedRing R] {inputs : List (LearningInput R)}
    (quiet : RunAlong (learningStep platform computePassingPoint) QuietWhileReading .initial
      inputs) :
    RunAlong (learningStep platform computePassingPoint)
      (LearnsJudged platform computePassingPoint) .initial inputs := by
  refine runAlong_of_invariant LearningInvariant (fun state input invariant good => ?_)
    .initial quiet
  obtain ⟨next, report, stepped, kept, learned⟩ :=
    learningStep_invariant platform computePassingPoint invariant good
  refine ⟨⟨next, report, stepped, learned⟩, fun reached answer same => ?_⟩
  obtain ⟨rfl, -⟩ := Prod.mk.inj (Option.some.inj (stepped.symm.trans same))
  exact kept

theorem quiet_parked :
    RunAlong (learningStep idealPlatform fun _ => ⟨0, 0, 0⟩) QuietWhileReading .initial
      (untilStarted ++ (untilDone ++ List.replicate 5 (.reportDetections 0))) := by
  have started : RunAlong (learningStep idealPlatform fun _ => ⟨0, 0, 0⟩) QuietWhileReading
      .initial untilStarted := by
    have start : LearningState.initial =
        withTrainer ⟨.idle, List.replicate 0 parked⟩ .idle := rfl
    rw [start, untilStarted, ← List.replicate_add]
    exact (quiet_receive _ _ parked _ rfl 128).of_append
      (leads_receive _ _ parked .idle .idle (Nat.zero_add 128) (by decide))
      (quiet_reportDetections _ _ _ _)
  have filled : 128 + 8068 = bufferMaxSize := by decide
  have finished := (quiet_receive idealPlatform (fun _ => ⟨0, 0, 0⟩) parked
    (withTrainer ⟨.training, List.replicate 128 parked⟩ .idle) rfl 8068).of_append
      (leads_receive _ _ parked .training .idle filled le_rfl)
      (quiet_reportDetections _ _ _ 3)
  exact started.of_append (leads_untilStarted _)
    (finished.of_append (leads_untilDone _) (quiet_reportDetections _ _ _ 5))

/-- The parked car is learned with no other car near. -/
theorem learns_judged_of_quiet_parked :
    RunAlong (learningStep idealPlatform fun _ => ⟨0, 0, 0⟩)
      (LearnsJudged idealPlatform fun _ => ⟨0, 0, 0⟩) .initial
      (untilStarted ++ (untilDone ++ List.replicate 5 (.reportDetections 0))) :=
  learns_judged_of_quiet _ _ quiet_parked

/-- When what is read and stored is what was judged, the trainer that was read and the one
that was judged have the same repeated payloads. -/
theorem payloads_of_learns {rc4Trainer judged : Rc4Trainer R} (nonempty : rc4Trainer.buffer ≠ [])
    (along : RunAlong (learningStep platform computePassingPoint)
      (LearnsJudged platform computePassingPoint) (withTrainer rc4Trainer (.done judged))
      (List.replicate 5 (.reportDetections 0))) (p : UInt64) :
    2 ≤ (rc4Trainer.buffer.map Entry.rc4Payload).count p ↔
      2 ≤ (judged.buffer.map Entry.rc4Payload).count p := by
  obtain ⟨timerange, read⟩ := Option.isSome_iff_exists.mp (isSome_of_warm nonempty).2
  have timed : learningStep platform computePassingPoint
      (withTrainer rc4Trainer (.collected judged rc4Trainer.preferredTransponderId
        rc4Trainer.registryPayloads)) (.reportDetections 0) =
      some (withTrainer rc4Trainer (.timed judged rc4Trainer.preferredTransponderId
        rc4Trainer.registryPayloads timerange), .quiet) := by
    simp only [learningStep, reportDetectionsStep, withTrainer, read]
    rfl
  -- three reads and the look at the passings, then the store
  have along := (((along.cons rfl).cons rfl).cons timed).cons rfl
  obtain ⟨⟨next, report, stored, learned⟩, -⟩ := along
  obtain ⟨rfl, rfl⟩ := Prod.mk.inj (Option.some.inj stored)
  have payloads := (learned _ _ rfl).payloads p
  rwa [mem_registryPayloads] at payloads

theorem payloads_of_late {judged : Rc4Trainer R} (entry : Entry R)
    (along : RunAlong (learningStep platform computePassingPoint)
      (LearnsJudged platform computePassingPoint) (withTrainer judged (.done judged))
      ([receive entry, receive entry] ++ List.replicate 5 (.reportDetections 0))) (p : UInt64) :
    2 ≤ ((push bufferMaxSize (push bufferMaxSize judged.buffer entry) entry).map
        Entry.rc4Payload).count p ↔
      2 ≤ (judged.buffer.map Entry.rc4Payload).count p := by
  have along := (along.cons rfl).cons rfl
  exact payloads_of_learns platform computePassingPoint (push_ne_nil (by decide) _ _) along p

/-- Two messages of a passing car arrive between the evaluation and the reads: its payload
is stored, although it is not in the buffer that was judged. -/
theorem learns_judged_fails :
    ¬ ∀ inputs, RunAlong (learningStep idealPlatform fun _ => ⟨0, 0, 0⟩)
      (LearnsJudged idealPlatform fun _ => ⟨0, 0, 0⟩) .initial inputs := by
  intro always
  have along := always (untilStarted ++ (untilDone ++
    ([receive passingBy, receive passingBy] ++ List.replicate 5 (.reportDetections 0))))
  have along := (along.append (leads_untilStarted _)).append (leads_untilDone _)
  have same := payloads_of_late _ _ passingBy along 2
  rw [push_twice (by rw [List.length_replicate]), List.map_append, List.count_append] at same
  have twice := same.mp (Nat.le_add_left_of_le le_rfl)
  rw [List.map_replicate, List.count_replicate, if_neg (by decide)] at twice
  exact absurd twice (by decide)

end Interleavings

end OpenStint
