/-
This file proves when the time sync messages are attributed to OpenStint transponders.
Only OpenStint transponders send them, but `identify_timesyncs` counts the cars of both
systems in the loop. It names an OpenStint transponder, and the one it would name without
the AMB cars, exactly when at each call every message has no AMB car around it, or at
least two OpenStint cars, or no OpenStint car and at least two AMB cars.
-/

import OpenStint.IdealPlatform
import OpenStint.Passing

namespace OpenStint

open Machine BoundedQueue OrderedMap

variable {R : Type}

/-! ### One message -/

/-- The cars around a message at a call. -/
def carsAround (detector : PassingDetector R) (margin : UInt64) (message : TimeSyncMsg) :
    List (TransponderKey × List (Detection R)) :=
  detector.detections.toList.filter fun entry => PassingDetector.overlaps margin message entry.2

def ofSystem (tsys : TransponderSystem) (entry : TransponderKey × List (Detection R)) : Bool :=
  entry.1.1 = tsys

/-- The AMB cars around a message do not change who it is attributed to. -/
def AmbNeutral (detector : PassingDetector R) (margin : UInt64) (message : TimeSyncMsg) : Prop :=
  let amb := (carsAround detector margin message).countP (ofSystem .amb)
  let opn := (carsAround detector margin message).countP (ofSystem .openStint)
  amb = 0 ∨ 2 ≤ opn ∨ (opn = 0 ∧ 2 ≤ amb)

/-- The report of a message when one car is around it. -/
def soleReport (message : TimeSyncMsg) :
    List (TransponderKey × List (Detection R)) → Option TimeSync
  | [entry] => some {
      timestamp := message.decoderTimestamp
      transponderType := entry.1.1
      transponderId := entry.1.2
      transponderTimestamp := message.transponderTimestamp }
  | _ => none

theorem foldl_countMatch (margin : UInt64) (message : TimeSyncMsg)
    (entries : List (TransponderKey × List (Detection R))) (found : TransponderKey × Nat) :
    entries.foldl (PassingDetector.countMatch margin message) found =
      (entries.filter fun entry => PassingDetector.overlaps margin message entry.2).foldl
        (fun found entry => (entry.1, found.2 + 1)) found := by
  rw [List.foldl_filter]
  rfl

/-- A message is attributed when exactly one car is around it. -/
theorem attributeTimesync_eq (detector : PassingDetector R) (margin : UInt64)
    (message : TimeSyncMsg) :
    detector.attributeTimesync margin message =
      soleReport message (carsAround detector margin message) := by
  have counted : ∀ (cars : List (TransponderKey × List (Detection R)))
      (found : TransponderKey × Nat),
      (cars.foldl (fun found entry => (entry.1, found.2 + 1)) found).2 = found.2 + cars.length := by
    intro cars
    induction cars with
    | nil => intro found; rfl
    | cons car rest inductionHypothesis =>
      intro found
      rw [List.foldl_cons, inductionHypothesis, List.length_cons]
      omega
  rw [PassingDetector.attributeTimesync, foldl_countMatch, ← carsAround, counted, Nat.zero_add]
  match carsAround detector margin message with
  | [] => rfl
  | [car] => rfl
  | _ :: _ :: rest => exact if_neg (by simp)

theorem soleReport_eq_none_iff (message : TimeSyncMsg)
    (cars : List (TransponderKey × List (Detection R))) :
    soleReport message cars = none ↔ cars.length ≠ 1 := by
  match cars with
  | [] => simp [soleReport]
  | [car] => simp [soleReport]
  | _ :: _ :: rest => simp [soleReport]

/-- Leaving cars out makes no difference to a message when none is left out, when two or more
stay, or when none stays and two or more are left out, and in no other case. -/
theorem soleReport_filter_iff (message : TimeSyncMsg)
    (cars : List (TransponderKey × List (Detection R)))
    (stays : TransponderKey × List (Detection R) → Bool) :
    soleReport message cars = soleReport message (cars.filter stays) ↔
      (cars.countP (fun car => !stays car) = 0 ∨ 2 ≤ cars.countP stays ∨
        (cars.countP stays = 0 ∧ 2 ≤ cars.countP fun car => !stays car)) := by
  match cars with
  | [] => simp [soleReport]
  | [car] =>
    cases kept : stays car with
    | true => simp [kept]
    | false => simp [soleReport, kept]
  | first :: second :: rest =>
    have length := List.length_eq_countP_add_countP stays (l := first :: second :: rest)
    have none : soleReport message (first :: second :: rest) = none := rfl
    rw [List.length_cons, List.length_cons] at length
    rw [none, eq_comm, soleReport_eq_none_iff, ← List.countP_eq_length_filter]
    simp only [Bool.not_eq_true, Bool.decide_eq_false] at length
    omega

/-- The AMB cars make no difference to a message in the cases of `AmbNeutral`, and in no
other. -/
theorem soleReport_neutral_iff (message : TimeSyncMsg)
    (cars : List (TransponderKey × List (Detection R))) :
    ((∀ sync, soleReport message cars = some sync → sync.transponderType = .openStint) ∧
        soleReport message cars = soleReport message (cars.filter (ofSystem .openStint))) ↔
      (cars.countP (ofSystem .amb) = 0 ∨ 2 ≤ cars.countP (ofSystem .openStint) ∨
        (cars.countP (ofSystem .openStint) = 0 ∧ 2 ≤ cars.countP (ofSystem .amb))) := by
  have amb : (fun car : TransponderKey × List (Detection R) => !ofSystem .openStint car) =
      ofSystem .amb := by
    funext car
    obtain ⟨⟨tsys, id⟩, detections⟩ := car
    cases tsys <;> rfl
  have named : soleReport message cars = soleReport message (cars.filter (ofSystem .openStint)) →
      ∀ sync, soleReport message cars = some sync → sync.transponderType = .openStint := by
    intro same sync reported
    rw [same] at reported
    match kept : cars.filter (ofSystem .openStint) with
    | [] => rw [kept] at reported; cases reported
    | [car] =>
      rw [kept] at reported
      have member : car ∈ cars.filter (ofSystem .openStint) := by
        rw [kept]
        exact List.mem_singleton_self car
      obtain rfl := Option.some.inj reported
      exact of_decide_eq_true (List.mem_filter.mp member).2
    | _ :: _ :: rest => rw [kept] at reported; cases reported
  rw [and_iff_right_of_imp named, soleReport_filter_iff, amb]

/-! ### One call -/

/-- Two partial maps whose outputs tell their inputs agree on a list they map alike. -/
theorem filterMap_eq_iff {Input Output : Type} {first second : Input → Option Output}
    {tag : Output → Input} (firstTag : ∀ input output, first input = some output →
      tag output = input) (secondTag : ∀ input output, second input = some output →
      tag output = input) (inputs : List Input) :
    inputs.filterMap first = inputs.filterMap second ↔
      ∀ input ∈ inputs, first input = second input := by
  have told {maps other : Input → Option Output}
      (mapsTag : ∀ input output, maps input = some output → tag output = input)
      (otherTag : ∀ input output, other input = some output → tag output = input)
      (same : inputs.filterMap maps = inputs.filterMap other) :
      ∀ input ∈ inputs, ∀ output, maps input = some output → other input = some output := by
    intro input member output mapped
    have there : output ∈ inputs.filterMap other :=
      same ▸ List.mem_filterMap.mpr ⟨input, member, mapped⟩
    obtain ⟨source, -, mappedToo⟩ := List.mem_filterMap.mp there
    rwa [← otherTag source output mappedToo, mapsTag input output mapped] at mappedToo
  constructor
  · intro same input member
    refine Option.ext fun output => ⟨told firstTag secondTag same input member output, ?_⟩
    exact told secondTag firstTag same.symm input member output
  · exact fun same => List.filterMap_congr same

/-- The message a report is about. -/
def TimeSync.message (sync : TimeSync) : TimeSyncMsg := ⟨sync.timestamp, sync.transponderTimestamp⟩

theorem soleReport_message (message : TimeSyncMsg)
    (cars : List (TransponderKey × List (Detection R))) (sync : TimeSync)
    (reported : soleReport message cars = some sync) : sync.message = message := by
  match cars with
  | [] => cases reported
  | [car] =>
    obtain rfl := Option.some.inj reported
    rfl
  | _ :: _ :: rest => cases reported

theorem attributeTimesync_message (detector : PassingDetector R) (margin : UInt64)
    (message : TimeSyncMsg) (sync : TimeSync)
    (attributed : detector.attributeTimesync margin message = some sync) :
    sync.message = message :=
  soleReport_message message _ sync (attributeTimesync_eq detector margin message ▸ attributed)

/-- A call of `identify_timesyncs` reports as if there were no AMB cars. -/
theorem timesyncs_neutral_iff {detector withoutAmb : PassingDetector R}
    (margin : UInt64) (messages : withoutAmb.timesyncMessages = detector.timesyncMessages)
    (cars : withoutAmb.detections.toList =
      detector.detections.toList.filter (ofSystem .openStint)) :
    ((∀ sync ∈ (detector.identifyTimesyncs margin).2, sync.transponderType = .openStint) ∧
        (detector.identifyTimesyncs margin).2 = (withoutAmb.identifyTimesyncs margin).2) ↔
      ∀ message ∈ detector.timesyncMessages, AmbNeutral detector margin message := by
  have around : ∀ message, carsAround withoutAmb margin message =
      (carsAround detector margin message).filter (ofSystem .openStint) := by
    intro message
    rw [carsAround, cars, carsAround, List.filter_filter, List.filter_filter]
    simp only [Bool.and_comm]
  have each : ∀ message, AmbNeutral detector margin message ↔
      (∀ sync, detector.attributeTimesync margin message = some sync →
          sync.transponderType = .openStint) ∧
        detector.attributeTimesync margin message =
          withoutAmb.attributeTimesync margin message := by
    intro message
    rw [attributeTimesync_eq, attributeTimesync_eq, around, soleReport_neutral_iff]
    rfl
  rw [PassingDetector.identifyTimesyncs, PassingDetector.identifyTimesyncs, messages]
  dsimp only
  rw [filterMap_eq_iff (attributeTimesync_message detector margin)
    (attributeTimesync_message withoutAmb margin)]
  simp only [each, List.mem_filterMap]
  constructor
  · rintro ⟨openStint, same⟩ message member
    exact ⟨fun sync attributed => openStint sync ⟨message, member, attributed⟩, same message member⟩
  · intro neutral
    refine ⟨?_, fun message member => (neutral message member).2⟩
    rintro sync ⟨message, member, attributed⟩
    exact (neutral message member).1 sync attributed

/-! ### Every run -/

section Runs

/-- The hits of AMB transponders. -/
def isAmbAppend : DetectorInput R → Bool
  | .append frame _ => transponderSystem frame.transponderProtocol = .amb
  | _ => false

/-- The run without the hits of AMB transponders. -/
def withoutAmbAppends (inputs : List (DetectorInput R)) : List (DetectorInput R) :=
  inputs.filter fun input => !isAmbAppend input

/-- What each call of `identify_timesyncs` returned. -/
def timesyncReports (answered : List (DetectorAnswer R)) : List (List TimeSync) :=
  answered.filterMap fun
    | .timesyncs list => some list
    | _ => none

/-- At a call of `identify_timesyncs`, every waiting message is neutral. -/
def NeutralCall (detector : PassingDetector R) (input : DetectorInput R) : Prop :=
  ∀ margin, input = .identifyTimesyncs margin →
    ∀ message ∈ detector.timesyncMessages, AmbNeutral detector margin message

variable [Field R] (platform : Platform R)
  (computePassingPoint : List (Detection R) → PassingPoint R)

/-- Every time sync of a run names an OpenStint transponder, and the reports are those of
the run without the hits of AMB transponders. -/
def TimesyncsFromOpenStint (inputs : List (DetectorInput R)) : Prop :=
  (∀ list ∈ timesyncReports (answers (detectorStep platform computePassingPoint) .initial inputs),
      ∀ sync ∈ list, sync.transponderType = .openStint) ∧
    timesyncReports (answers (detectorStep platform computePassingPoint) .initial inputs) =
      timesyncReports (answers (detectorStep platform computePassingPoint) .initial
        (withoutAmbAppends inputs))

/-- The second detector is the first one without the AMB transponders. -/
structure WithoutAmb (detector withoutAmb : PassingDetector R) : Prop where
  messages : withoutAmb.timesyncMessages = detector.timesyncMessages
  openStint : ∀ key : TransponderKey, key.1 = .openStint →
    withoutAmb.detections[key]? = detector.detections[key]?
  amb : ∀ key : TransponderKey, key.1 = .amb → withoutAmb.detections[key]? = none

omit [Field R] in
theorem WithoutAmb.toList {detector withoutAmb : PassingDetector R}
    (related : WithoutAmb detector withoutAmb) :
    withoutAmb.detections.toList =
      detector.detections.toList.filter (ofSystem .openStint) := by
  have filtered : (detector.detections.filter fun key _ => key.1 = .openStint).toList =
      detector.detections.toList.filter (ofSystem .openStint) := Std.TreeMap.toList_filter
  rw [← filtered]
  refine toList_eq_of_getElem? fun key => ?_
  rw [Std.TreeMap.getElem?_filter']
  obtain ⟨tsys, id⟩ := key
  cases tsys with
  | openStint =>
    rw [related.openStint _ rfl]
    cases detector.detections[(TransponderSystem.openStint, id)]? <;> rfl
  | amb =>
    rw [related.amb _ rfl]
    cases detector.detections[(TransponderSystem.amb, id)]? <;> rfl

theorem WithoutAmb.append {detector withoutAmb : PassingDetector R}
    (related : WithoutAmb detector withoutAmb) (frame : Frame R) (transponderId : UInt32)
    (own : transponderSystem frame.transponderProtocol = .openStint) :
    WithoutAmb (detector.append platform frame transponderId)
      (withoutAmb.append platform frame transponderId) where
  messages := related.messages
  openStint := fun key openStint => by
    have queue : withoutAmb.detections.getD (PassingDetector.keyOf frame transponderId) [] =
        detector.detections.getD (PassingDetector.keyOf frame transponderId) [] := by
      rw [Std.TreeMap.getD_eq_getD_getElem?, Std.TreeMap.getD_eq_getD_getElem?,
        related.openStint _ own]
    rw [PassingDetector.append, PassingDetector.append, queue, Std.TreeMap.getElem?_insert,
      Std.TreeMap.getElem?_insert, related.openStint key openStint]
  amb := fun key amb => by
    have other : PassingDetector.keyOf frame transponderId ≠ key := by
      rintro rfl
      exact absurd (own.symm.trans amb) (by decide)
    rw [PassingDetector.append, Std.TreeMap.getElem?_insert,
      if_neg (by rwa [Std.LawfulEqCmp.compare_eq_iff_eq]), related.amb key amb]

theorem WithoutAmb.append_amb {detector withoutAmb : PassingDetector R}
    (related : WithoutAmb detector withoutAmb) (frame : Frame R) (transponderId : UInt32)
    (own : transponderSystem frame.transponderProtocol = .amb) :
    WithoutAmb (detector.append platform frame transponderId) withoutAmb where
  messages := related.messages
  openStint := fun key openStint => by
    have other : PassingDetector.keyOf frame transponderId ≠ key := by
      rintro rfl
      exact absurd (own.symm.trans openStint) (by decide)
    rw [PassingDetector.append, Std.TreeMap.getElem?_insert,
      if_neg (by rwa [Std.LawfulEqCmp.compare_eq_iff_eq]), related.openStint key openStint]
  amb := related.amb

omit [Field R] in
theorem WithoutAmb.identifyPassings {detector withoutAmb : PassingDetector R}
    (related : WithoutAmb detector withoutAmb) (deadline : UInt64) :
    WithoutAmb (detector.identifyPassings computePassingPoint deadline).1
      (withoutAmb.identifyPassings computePassingPoint deadline).1 where
  messages := related.messages
  openStint := fun key openStint => by
    rw [getElem?_identifyPassings, getElem?_identifyPassings, related.openStint key openStint]
  amb := fun key amb => by
    rw [getElem?_identifyPassings, related.amb key amb]
    rfl

omit [Field R] in
/-- Only `identify_timesyncs` considers messages. -/
theorem neutralCall_of_ne {detector : PassingDetector R} {input : DetectorInput R}
    (other : ∀ margin, input ≠ .identifyTimesyncs margin) : NeutralCall detector input :=
  fun margin same => absurd same (other margin)

omit [Field R] in
theorem neutralCall_identifyTimesyncs (detector : PassingDetector R) (margin : UInt64) :
    NeutralCall detector (.identifyTimesyncs margin) ↔
      ∀ message ∈ detector.timesyncMessages, AmbNeutral detector margin message := by
  constructor
  · exact fun neutral => neutral margin rfl
  · intro neutral other same
    cases same
    exact neutral

theorem timesyncReports_identifyTimesyncs (detector : PassingDetector R) (margin : UInt64)
    (rest : List (DetectorInput R)) :
    timesyncReports (answers (detectorStep platform computePassingPoint) detector
        (.identifyTimesyncs margin :: rest)) =
      (detector.identifyTimesyncs margin).2 ::
        timesyncReports (answers (detectorStep platform computePassingPoint)
          (detector.identifyTimesyncs margin).1 rest) := rfl

/-- The reports of a run from two related states, in step. -/
theorem timesyncReports_neutral_iff (inputs : List (DetectorInput R))
    {detector withoutAmb : PassingDetector R} (related : WithoutAmb detector withoutAmb) :
    ((∀ list ∈
            timesyncReports (answers (detectorStep platform computePassingPoint) detector inputs),
          ∀ sync ∈ list, sync.transponderType = .openStint) ∧
        timesyncReports (answers (detectorStep platform computePassingPoint) detector inputs) =
          timesyncReports (answers (detectorStep platform computePassingPoint) withoutAmb
            (withoutAmbAppends inputs))) ↔
      Along (detectorStep platform computePassingPoint) NeutralCall detector inputs := by
  induction inputs generalizing detector withoutAmb with
  | nil => simp [timesyncReports, withoutAmbAppends, Along]
  | cons input rest inductionHypothesis =>
    rw [Along]
    cases input with
    | append frame transponderId =>
      rw [and_iff_right (neutralCall_of_ne (by rintro _ ⟨⟩))]
      cases own : transponderSystem frame.transponderProtocol with
      | openStint =>
        have kept : withoutAmbAppends (.append frame transponderId :: rest) =
            .append frame transponderId :: withoutAmbAppends rest :=
          List.filter_cons_of_pos (by simp [isAmbAppend, own])
        rw [kept]
        exact inductionHypothesis (related.append platform frame transponderId own)
      | amb =>
        have dropped : withoutAmbAppends (.append frame transponderId :: rest) =
            withoutAmbAppends rest := List.filter_cons_of_neg (by simp [isAmbAppend, own])
        rw [dropped]
        exact inductionHypothesis (related.append_amb platform frame transponderId own)
    | timesync frame transponderTimestamp =>
      rw [and_iff_right (neutralCall_of_ne (by rintro _ ⟨⟩))]
      exact inductionHypothesis ⟨by simp [detectorStep, PassingDetector.timesync, related.messages],
        related.openStint, related.amb⟩
    | passingsBetween tsys from_ until_ =>
      rw [and_iff_right (neutralCall_of_ne (by rintro _ ⟨⟩))]
      exact inductionHypothesis related
    | identifyPassings deadline =>
      rw [and_iff_right (neutralCall_of_ne (by rintro _ ⟨⟩))]
      exact inductionHypothesis (related.identifyPassings computePassingPoint deadline)
    | identifyTimesyncs margin =>
      have after : WithoutAmb (detector.identifyTimesyncs margin).1
          (withoutAmb.identifyTimesyncs margin).1 := ⟨rfl, related.openStint, related.amb⟩
      have next := inductionHypothesis after
      have kept : withoutAmbAppends (.identifyTimesyncs margin :: rest) =
          (.identifyTimesyncs margin :: withoutAmbAppends rest : List (DetectorInput R)) := rfl
      rw [neutralCall_identifyTimesyncs,
        ← timesyncs_neutral_iff margin related.messages related.toList, kept,
        timesyncReports_identifyTimesyncs, timesyncReports_identifyTimesyncs, List.cons.injEq,
        List.forall_mem_cons]
      constructor
      · rintro ⟨⟨firstSyncs, laterSyncs⟩, same, laterSame⟩
        exact ⟨⟨firstSyncs, same⟩, next.mp ⟨laterSyncs, laterSame⟩⟩
      · rintro ⟨⟨firstSyncs, same⟩, later⟩
        obtain ⟨laterSyncs, laterSame⟩ := next.mpr later
        exact ⟨⟨firstSyncs, laterSyncs⟩, same, laterSame⟩

/-- The time syncs of a run come from OpenStint transponders and do not depend on the AMB
cars, exactly when every message is neutral at the call that considers it. -/
theorem timesyncs_from_openStint_iff (inputs : List (DetectorInput R)) :
    TimesyncsFromOpenStint platform computePassingPoint inputs ↔
      Along (detectorStep platform computePassingPoint) NeutralCall .initial inputs :=
  timesyncReports_neutral_iff platform computePassingPoint inputs
    ⟨rfl, fun _ _ => rfl, fun _ _ => rfl⟩

end Runs

/-- One AMB car in the loop, one time sync message, and no hit of the OpenStint transponder
that sent it: the message is attributed to the AMB car. -/
theorem timesyncs_from_openStint_fails :
    ¬ ∀ inputs, TimesyncsFromOpenStint idealPlatform (fun _ => ⟨0, 0, 0⟩) inputs := by
  intro always
  obtain ⟨openStint, -⟩ := always [.append (.detected .rc3 0 1000000 0) 42,
    .timesync (.detected .openStint 0 1000100 0) 7, .identifyTimesyncs 500000]
  exact absurd (openStint [⟨1000100, .amb, 42, 7⟩] (by decide +kernel) ⟨1000100, .amb, 42, 7⟩
    List.mem_cons_self) nofun

end OpenStint
