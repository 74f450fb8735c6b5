/-
This file proves when `identify_timesyncs` attributes the messages exactly. A message
belongs to a transponder that was seen less than the margin before it or after it. The
source tests this in unsigned arithmetic: right after startup `front.timestamp - margin` is
below zero and wraps, and so does `back.timestamp + margin` for an enormous margin. A
wrapped bound never lets a transponder in, it can only leave one out. The attribution is
exact, in every run with timestamps below 2^63, exactly when this makes no difference to
any message: none of the transponders around it is left out, or two or more stay, or two or
more are left out and none stays.
-/

import OpenStint.TimeSync

namespace OpenStint

open Machine BoundedQueue OrderedMap

variable {R : Type}

/-! ### The window over the integers -/

/-- A transponder with hits is around a message. -/
def Around (detector : PassingDetector R) (margin : UInt64) (message : TimeSyncMsg)
    (key : TransponderKey) : Prop :=
  ∃ detections front back, detector.detections[key]? = some detections ∧
    detections.head? = some front ∧ detections.getLast? = some back ∧
    (front.timestamp.toNat : Int) - margin.toNat < message.decoderTimestamp.toNat ∧
    (message.decoderTimestamp.toNat : Int) < back.timestamp.toNat + margin.toNat

/-- The report of a message: it names the one transponder around it. -/
def IsReport (detector : PassingDetector R) (margin : UInt64) (message : TimeSyncMsg)
    (sync : TimeSync) : Prop :=
  ∃ key, Around detector margin message key ∧
    (∀ other, Around detector margin message other → other = key) ∧
    sync = {
      timestamp := message.decoderTimestamp
      transponderType := key.1
      transponderId := key.2
      transponderTimestamp := message.transponderTimestamp }

/-- At a call of `identify_timesyncs` the waiting messages are reported in their order, each
as it should be. -/
def ExactCall (detector : PassingDetector R) (input : DetectorInput R) : Prop :=
  ∀ margin, input = .identifyTimesyncs margin →
    ∃ report : TimeSyncMsg → Option TimeSync,
      (detector.identifyTimesyncs margin).2 = detector.timesyncMessages.filterMap report ∧
      ∀ message ∈ detector.timesyncMessages, ∀ sync,
        report message = some sync ↔ IsReport detector margin message sync

/-- The messages queued in a run, in order. -/
def queued (inputs : List (DetectorInput R)) : List TimeSyncMsg :=
  inputs.filterMap fun
    | .timesync frame transponderTimestamp => some ⟨frame.timestamp, transponderTimestamp⟩
    | _ => none

def inWindow (margin : UInt64) (message : TimeSyncMsg) (detections : List (Detection R)) : Bool :=
  match detections.head?, detections.getLast? with
  | some front, some back =>
    (front.timestamp.toNat : Int) - margin.toNat < message.decoderTimestamp.toNat &&
      (message.decoderTimestamp.toNat : Int) < back.timestamp.toNat + margin.toNat
  | _, _ => false

/-- A bound of the window wraps, and to the wrong side of the message. -/
def wraps (margin : UInt64) (message : TimeSyncMsg) (detections : List (Detection R)) : Bool :=
  match detections.head?, detections.getLast? with
  | some front, some back =>
    (front.timestamp < margin &&
        message.decoderTimestamp.toNat + margin.toNat ≤ front.timestamp.toNat + 2 ^ 64) ||
      (2 ^ 64 ≤ back.timestamp.toNat + margin.toNat &&
        back.timestamp.toNat + margin.toNat ≤ message.decoderTimestamp.toNat + 2 ^ 64)
  | _, _ => false

/-- The transponders around a message, with their hits. -/
def carsInWindow (detector : PassingDetector R) (margin : UInt64) (message : TimeSyncMsg) :
    List (TransponderKey × List (Detection R)) :=
  detector.detections.toList.filter fun entry => inWindow margin message entry.2

/-- The wrapped bounds do not change who a message is attributed to. -/
def WrapNeutral (detector : PassingDetector R) (margin : UInt64) (message : TimeSyncMsg) : Prop :=
  let stay := (carsInWindow detector margin message).countP fun car => !wraps margin message car.2
  let leftOut := (carsInWindow detector margin message).countP fun car => wraps margin message car.2
  leftOut = 0 ∨ 2 ≤ stay ∨ (stay = 0 ∧ 2 ≤ leftOut)

instance (detector : PassingDetector R) (margin : UInt64) (message : TimeSyncMsg) :
    Decidable (WrapNeutral detector margin message) :=
  inferInstanceAs (Decidable (_ ∨ _ ∨ _))

/-- At a call of `identify_timesyncs`, no wrapped bound matters to a waiting message. -/
def WrapNeutralCall (detector : PassingDetector R) (input : DetectorInput R) : Prop :=
  ∀ margin, input = .identifyTimesyncs margin →
    ∀ message ∈ detector.timesyncMessages, WrapNeutral detector margin message

/-! ### Early timestamps -/

/-- The timestamp of a hit or of a message is below 2^63. -/
def Early : DetectorInput R → Prop
  | .append frame _ => frame.timestamp.toNat < 2 ^ 63
  | .timesync frame _ => frame.timestamp.toNat < 2 ^ 63
  | _ => True

structure EarlyStore (detector : PassingDetector R) : Prop where
  hits : ∀ key : TransponderKey, ∀ detections, detector.detections[key]? = some detections →
    ∀ detection ∈ detections, detection.timestamp.toNat < 2 ^ 63
  messages : ∀ message ∈ detector.timesyncMessages, message.decoderTimestamp.toNat < 2 ^ 63

theorem EarlyStore.initial : EarlyStore (R := R) .initial where
  hits := fun key detections held => by
    rw [PassingDetector.initial, Std.TreeMap.getElem?_emptyc] at held
    cases held
  messages := fun message member => absurd member List.not_mem_nil

/-! ### One message -/

theorem mem_carsInWindow {detector : PassingDetector R} {margin : UInt64} {message : TimeSyncMsg}
    {entry : TransponderKey × List (Detection R)} :
    entry ∈ carsInWindow detector margin message ↔
      detector.detections[entry.1]? = some entry.2 ∧ inWindow margin message entry.2 := by
  rw [carsInWindow, List.mem_filter, Std.TreeMap.mem_toList_iff_getElem?_eq_some]

theorem inWindow_iff {margin : UInt64} {message : TimeSyncMsg} {detections : List (Detection R)} :
    inWindow margin message detections ↔
      ∃ front back, detections.head? = some front ∧ detections.getLast? = some back ∧
        (front.timestamp.toNat : Int) - margin.toNat < message.decoderTimestamp.toNat ∧
        (message.decoderTimestamp.toNat : Int) < back.timestamp.toNat + margin.toNat := by
  rw [inWindow]
  cases first : detections.head? with
  | none => simp
  | some front =>
    cases last : detections.getLast? with
    | none => simp
    | some back => simp

theorem around_iff {detector : PassingDetector R} {margin : UInt64} {message : TimeSyncMsg}
    {key : TransponderKey} :
    Around detector margin message key ↔
      ∃ detections, (key, detections) ∈ carsInWindow detector margin message := by
  refine exists_congr fun detections => ?_
  rw [mem_carsInWindow, inWindow_iff]
  simp only [exists_and_left]

/-- No transponder is in the list twice. -/
theorem nodup_carsInWindow (detector : PassingDetector R) (margin : UInt64)
    (message : TimeSyncMsg) :
    (carsInWindow detector margin message).Pairwise fun first second => first.1 ≠ second.1 := by
  refine List.Pairwise.filter _ (Std.TreeMap.distinct_keys_toList.imp ?_)
  intro first second distinct same
  exact distinct (Std.LawfulEqCmp.compare_eq_iff_eq.mpr same)

/-- The report of the one transponder around the message is the report of the list. -/
theorem soleReport_eq_some_iff (detector : PassingDetector R) (margin : UInt64)
    (message : TimeSyncMsg) (sync : TimeSync) :
    soleReport message (carsInWindow detector margin message) = some sync ↔
      IsReport detector margin message sync := by
  have distinct := nodup_carsInWindow detector margin message
  simp only [IsReport, around_iff]
  generalize carsInWindow detector margin message = cars at distinct
  match cars, distinct with
  | [], _ => simp [soleReport]
  | [car], _ =>
    obtain ⟨key, detections⟩ := car
    simp [soleReport, eq_comm]
  | first :: second :: rest, distinct =>
    rw [soleReport, eq_comm]
    · refine ⟨fun reported => absurd reported (by simp), ?_⟩
      rintro ⟨key, -, only, -⟩
      have firstKey := only first.1 ⟨first.2, List.mem_cons_self⟩
      have secondKey := only second.1 ⟨second.2, List.mem_cons_of_mem _ List.mem_cons_self⟩
      exact absurd (firstKey.trans secondKey.symm)
        ((List.pairwise_cons.mp distinct).1 second List.mem_cons_self)
    · simp

/-- The source sees the transponders in the window, but for those with a wrapped bound. -/
theorem overlaps_eq (margin : UInt64) {message : TimeSyncMsg} {detections : List (Detection R)}
    (early : ∀ detection ∈ detections, detection.timestamp.toNat < 2 ^ 63)
    (messageEarly : message.decoderTimestamp.toNat < 2 ^ 63) :
    PassingDetector.overlaps margin message detections =
      (inWindow margin message detections && !wraps margin message detections) := by
  rw [PassingDetector.overlaps, inWindow, wraps]
  cases first : detections.head? with
  | none => rfl
  | some front =>
    cases last : detections.getLast? with
    | none => rfl
    | some back =>
      have frontEarly := early front (List.mem_of_mem_head? first)
      have backEarly := early back (List.mem_of_getLast? last)
      have marginBound := margin.toNat_lt
      rw [Bool.eq_iff_iff]
      simp only [Bool.and_eq_true, Bool.not_eq_true', Bool.or_eq_false_iff,
        Bool.and_eq_false_iff, decide_eq_true_eq, decide_eq_false_iff_not, gt_iff_lt,
        UInt64.lt_iff_toNat_lt, UInt64.toNat_sub, UInt64.toNat_add]
      omega

/-- What the source reports of a message is what it should, exactly when the wrapped bounds
make no difference to it. -/
theorem attributeTimesync_exact_iff {detector : PassingDetector R} (early : EarlyStore detector)
    (margin : UInt64) {message : TimeSyncMsg} (waits : message ∈ detector.timesyncMessages) :
    detector.attributeTimesync margin message =
        soleReport message (carsInWindow detector margin message) ↔
      WrapNeutral detector margin message := by
  have seen : carsAround detector margin message =
      (carsInWindow detector margin message).filter fun car => !wraps margin message car.2 := by
    rw [carsAround, carsInWindow, List.filter_filter]
    refine List.filter_congr fun entry member => ?_
    rw [overlaps_eq margin (early.hits entry.1 entry.2
      (Std.TreeMap.mem_toList_iff_getElem?_eq_some.mp member)) (early.messages message waits),
      Bool.and_comm]
  rw [attributeTimesync_eq, seen, eq_comm, soleReport_filter_iff]
  simp only [Bool.not_not]
  rfl

/-! ### One call -/

theorem exactCall_iff {detector : PassingDetector R} (early : EarlyStore detector)
    (input : DetectorInput R) : ExactCall detector input ↔ WrapNeutralCall detector input := by
  refine forall_congr' fun margin => imp_congr_right fun _ => ?_
  have each : ∀ message ∈ detector.timesyncMessages,
      (detector.attributeTimesync margin message =
          soleReport message (carsInWindow detector margin message) ↔
        WrapNeutral detector margin message) :=
    fun message member => attributeTimesync_exact_iff early margin member
  rw [← forall₂_congr each, PassingDetector.identifyTimesyncs, ← filterMap_eq_iff
    (attributeTimesync_message detector margin) fun message => soleReport_message message _]
  constructor
  · rintro ⟨report, reported, exact⟩
    refine reported.trans (List.filterMap_congr fun message member => Option.ext fun sync => ?_)
    rw [exact message member, soleReport_eq_some_iff]
  · exact fun reported => ⟨_, reported, fun message _ =>
      soleReport_eq_some_iff detector margin message⟩

/-! ### Every run -/

section Runs

variable [Field R] (platform : Platform R)
  (computePassingPoint : List (Detection R) → PassingPoint R)

/-- The messages that each call of `identify_timesyncs` in a run looks at. -/
def considered : PassingDetector R → List (DetectorInput R) → List (List TimeSyncMsg)
  | _, [] => []
  | detector, .identifyTimesyncs margin :: rest =>
    detector.timesyncMessages ::
      considered (detectorStep platform computePassingPoint detector (.identifyTimesyncs margin)).1
        rest
  | detector, input :: rest =>
    considered (detectorStep platform computePassingPoint detector input).1 rest

/-- The attribution of the messages of a run is exact. -/
structure TimesyncLaw (inputs : List (DetectorInput R)) : Prop where
  /-- Every message is considered by one call, or still waits for it. -/
  conserved : queued inputs =
    (considered platform computePassingPoint .initial inputs).flatten ++
      (exec (detectorStep platform computePassingPoint) .initial inputs).timesyncMessages
  exact : Along (detectorStep platform computePassingPoint) ExactCall .initial inputs

theorem queued_eq (inputs : List (DetectorInput R)) (detector : PassingDetector R) :
    detector.timesyncMessages ++ queued inputs =
      (considered platform computePassingPoint detector inputs).flatten ++
        (exec (detectorStep platform computePassingPoint) detector inputs).timesyncMessages := by
  induction inputs generalizing detector with
  | nil => simp [queued, considered]
  | cons input rest inductionHypothesis =>
    have next := inductionHypothesis (detectorStep platform computePassingPoint detector input).1
    rw [exec_cons]
    cases input with
    | append frame transponderId => exact next
    | timesync frame transponderTimestamp =>
      rw [considered, ← next]
      · simp [queued, detectorStep, PassingDetector.timesync]
      · intro margin same
        cases same
    | passingsBetween tsys from_ until_ => exact next
    | identifyPassings deadline => exact next
    | identifyTimesyncs margin =>
      rw [considered, List.flatten_cons, List.append_assoc, ← next]
      rfl

theorem EarlyStore.step {detector : PassingDetector R} (early : EarlyStore detector)
    (input : DetectorInput R) (inputEarly : Early input) :
    EarlyStore (detectorStep platform computePassingPoint detector input).1 := by
  cases input with
  | append frame transponderId =>
    refine ⟨fun key detections held detection member => ?_, early.messages⟩
    rw [detectorStep, PassingDetector.append, Std.TreeMap.getElem?_insert] at held
    split at held
    · obtain rfl := Option.some.inj held
      rcases List.mem_append.mp ((push_suffix List.suffix_rfl _).subset member) with old | new
      · rw [Std.TreeMap.getD_eq_getD_getElem?] at old
        cases queue : detector.detections[PassingDetector.keyOf frame transponderId]? with
        | none => simp [queue] at old
        | some held => exact early.hits _ held queue detection (by simpa [queue] using old)
      · obtain rfl := List.mem_singleton.mp new
        exact inputEarly
    · exact early.hits key detections held detection member
  | timesync frame transponderTimestamp =>
    refine ⟨early.hits, fun message member => ?_⟩
    rcases List.mem_append.mp member with old | new
    · exact early.messages message old
    · obtain rfl := List.mem_singleton.mp new
      exact inputEarly
  | passingsBetween tsys from_ until_ => exact early
  | identifyPassings deadline =>
    refine ⟨fun key detections held => ?_, early.messages⟩
    rw [detectorStep, getElem?_identifyPassings] at held
    exact early.hits key detections (Option.eq_some_of_filter_eq_some held)
  | identifyTimesyncs margin =>
    exact ⟨early.hits, fun message member => absurd member List.not_mem_nil⟩

/-- The attribution is exact in a run exactly when no wrapped bound matters at any call. -/
theorem timesync_windows_iff (inputs : List (DetectorInput R))
    (early : ∀ input ∈ inputs, Early input) :
    TimesyncLaw platform computePassingPoint inputs ↔
      Along (detectorStep platform computePassingPoint) WrapNeutralCall .initial inputs := by
  have same : Along (detectorStep platform computePassingPoint) ExactCall .initial inputs ↔
      Along (detectorStep platform computePassingPoint) WrapNeutralCall .initial inputs :=
    along_iff_of_invariant EarlyStore (fun detector input holds inputEarly =>
      ⟨exactCall_iff holds input, holds.step platform computePassingPoint input inputEarly⟩)
      .initial early
  rw [← same]
  exact ⟨fun law => law.exact, fun exact =>
    ⟨queued_eq platform computePassingPoint inputs .initial, exact⟩⟩

end Runs

/-- A tenth of a second after startup, with a margin of half a second: the message of the only
transponder in the loop is attributed to nobody. -/
theorem timesync_windows_fails :
    ¬ ∀ inputs, (∀ input ∈ inputs, Early input) →
      TimesyncLaw idealPlatform (fun _ => ⟨0, 0, 0⟩) inputs := by
  intro always
  have firstEarly : Early (R := ℝ) (.append (.detected .openStint 0 100000 0) 42) := by
    show (100000 : UInt64).toNat < 2 ^ 63
    decide
  have secondEarly : Early (R := ℝ) (.timesync (.detected .openStint 0 100100 0) 7) := by
    show (100100 : UInt64).toNat < 2 ^ 63
    decide
  have law := always [.append (.detected .openStint 0 100000 0) 42,
    .timesync (.detected .openStint 0 100100 0) 7, .identifyTimesyncs 500000]
    (by simpa using ⟨firstEarly, secondEarly, trivial⟩)
  have store := (EarlyStore.initial.step idealPlatform (fun _ => ⟨0, 0, 0⟩) _ firstEarly).step
    idealPlatform (fun _ => ⟨0, 0, 0⟩) _ secondEarly
  have neutral := (exactCall_iff store _).mp law.exact.2.2.1 500000 rfl ⟨100100, 7⟩
    (List.mem_singleton_self _)
  revert neutral
  decide +kernel

/-- The same transponder a minute later. -/
theorem timesync_windows_iff_minute :
    TimesyncLaw idealPlatform (fun _ => ⟨0, 0, 0⟩)
      [.append (.detected .openStint 0 60100000 0) 42,
        .timesync (.detected .openStint 0 60100100 0) 7, .identifyTimesyncs 500000] := by
  refine (timesync_windows_iff _ _ _ ?_).mpr ⟨nofun, nofun, ?_, trivial⟩
  · simp [Early, Frame.detected]
  · rintro margin ⟨⟩ message member
    obtain rfl := List.mem_singleton.mp member
    decide +kernel

end OpenStint
