/-
This file models the passing detector of `passing.cpp`: the hits of every transponder in
one ordered map of bounded queues, the time sync messages that wait for attribution, and
the calls of the receiving thread and of the main thread, each a critical section of its
own. How a passing is estimated from its hits does not matter here: the estimate is a
function `computePassingPoint` of the hits.

Over any interleaving the hits of a transponder fall into consecutive groups, and every
group of two hits or more gives one passing, whatever the other transponders do.
-/

import OpenStint.Frame
import OpenStint.Library.BoundedQueue
import OpenStint.Library.Machine
import OpenStint.Library.OrderedMap

namespace OpenStint

open Machine BoundedQueue OrderedMap

variable {R : Type}

inductive TransponderSystem
  | openStint
  | amb
  deriving DecidableEq, Repr, Ord

def transponderSystem : TransponderProtocol → TransponderSystem
  | .openStint => .openStint
  | .rc3 => .amb
  | .rc4 => .amb

/-- A hit. The sample counter `timecode` is unbounded, as it is in a frame. -/
structure Detection (R : Type) where
  timestamp : UInt64
  timecode : Nat
  rssi : R
  deriving DecidableEq, Repr

structure TimeSyncMsg where
  decoderTimestamp : UInt64
  transponderTimestamp : UInt32
  deriving DecidableEq, Repr

structure Passing (R : Type) where
  timestamp : UInt64
  transponderType : TransponderSystem
  transponderId : UInt32
  rssi : R
  hits : Nat
  duration : UInt64
  deriving DecidableEq, Repr

structure TimeSync where
  timestamp : UInt64
  transponderType : TransponderSystem
  transponderId : UInt32
  transponderTimestamp : UInt32
  deriving DecidableEq, Repr

/-- What the estimate of a passing tells. -/
structure PassingPoint (R : Type) where
  weightedTimestamp : UInt64
  maxRssi : R
  duration : UInt64

abbrev TransponderKey := TransponderSystem × UInt32

/-- The order of `std::pair`: OpenStint transponders first, then by id. -/
def transponderKeyOrder : TransponderKey → TransponderKey → Ordering :=
  compareLex (compareOn Prod.fst) (compareOn Prod.snd)

instance : Std.TransOrd TransponderSystem where
  eq_swap := by intro a b; cases a <;> cases b <;> rfl
  isLE_trans := by intro a b c; cases a <;> cases b <;> cases c <;> decide

instance : Std.LawfulEqOrd TransponderSystem where
  eq_of_compare := by intro a b; cases a <;> cases b <;> decide

instance : Std.TransCmp transponderKeyOrder :=
  inferInstanceAs (Std.TransCmp (compareLex (compareOn Prod.fst) (compareOn Prod.snd)))

instance : Std.LawfulEqCmp transponderKeyOrder where
  eq_of_compare := by
    intro first second same
    obtain ⟨systems, ids⟩ := Ordering.then_eq_eq.mp same
    exact Prod.ext (Std.LawfulEqOrd.compare_eq_iff_eq.mp systems)
      (Std.LawfulEqOrd.compare_eq_iff_eq.mp ids)

def reportHitLimit : Nat := 2

def transponderDetectionMsgLimit : Nat := 1 <<< 12

structure PassingDetector (R : Type) where
  detections : Std.TreeMap TransponderKey (List (Detection R)) transponderKeyOrder
  timesyncMessages : List TimeSyncMsg

namespace PassingDetector

def initial : PassingDetector R where
  detections := ∅
  timesyncMessages := []

/-- The detection `append` makes of a frame. -/
def detectionOf [Field R] (platform : Platform R) (frame : Frame R) : Detection R where
  timestamp := frame.timestamp
  timecode := frame.timecode
  rssi := frame.rssi platform

def keyOf (frame : Frame R) (transponderId : UInt32) : TransponderKey :=
  (transponderSystem frame.transponderProtocol, transponderId)

def append [Field R] (platform : Platform R) (detector : PassingDetector R) (frame : Frame R)
    (transponderId : UInt32) : PassingDetector R :=
  let key := keyOf frame transponderId
  { detector with
    detections := detector.detections.insert key
      (push transponderDetectionMsgLimit (detector.detections.getD key [])
        (detectionOf platform frame)) }

def timesync (detector : PassingDetector R) (frame : Frame R) (transponderTimestamp : UInt32) :
    PassingDetector R :=
  { detector with
    timesyncMessages := detector.timesyncMessages ++ [⟨frame.timestamp, transponderTimestamp⟩] }

def createPassing (computePassingPoint : List (Detection R) → PassingPoint R)
    (key : TransponderKey) (detections : List (Detection R)) : Passing R :=
  let stats := computePassingPoint detections
  { timestamp := stats.weightedTimestamp
    transponderType := key.1
    transponderId := key.2
    rssi := stats.maxRssi
    hits := detections.length
    duration := stats.duration }

/-- A queue is over when it has hits and the last one is not after the deadline. -/
def pastDeadline (deadline : UInt64) (detections : List (Detection R)) : Bool :=
  match detections.getLast? with
  | none => false
  | some back => back.timestamp ≤ deadline

/-- One turn of the collecting loop of `identify_passings`. -/
def collectPassing (computePassingPoint : List (Detection R) → PassingPoint R)
    (deadline : UInt64) (collected : List (Passing R) × List TransponderKey)
    (entry : TransponderKey × List (Detection R)) : List (Passing R) × List TransponderKey :=
  if pastDeadline deadline entry.2 then
    let p := createPassing computePassingPoint entry.1 entry.2
    (if reportHitLimit ≤ p.hits then collected.1 ++ [p] else collected.1, collected.2 ++ [entry.1])
  else collected

def identifyPassings (computePassingPoint : List (Detection R) → PassingPoint R)
    (detector : PassingDetector R) (deadline : UInt64) : PassingDetector R × List (Passing R) :=
  let collected :=
    detector.detections.toList.foldl (collectPassing computePassingPoint deadline) ([], [])
  ({ detector with detections := eraseAll detector.detections collected.2 }, collected.1)

/-- The window test of `identify_timesyncs`, in the unsigned arithmetic of the source. -/
def overlaps (margin : UInt64) (message : TimeSyncMsg) (detections : List (Detection R)) : Bool :=
  match detections.head?, detections.getLast? with
  | some front, some back =>
    front.timestamp - margin < message.decoderTimestamp &&
      back.timestamp + margin > message.decoderTimestamp
  | _, _ => false

/-- One turn of the inner loop of `identify_timesyncs`: the last match and the count. -/
def countMatch (margin : UInt64) (message : TimeSyncMsg) (found : TransponderKey × Nat)
    (entry : TransponderKey × List (Detection R)) : TransponderKey × Nat :=
  if overlaps margin message entry.2 then (entry.1, found.2 + 1) else found

/-- One turn of the outer loop of `identify_timesyncs`. -/
def attributeTimesync (detector : PassingDetector R) (margin : UInt64) (message : TimeSyncMsg) :
    Option TimeSync :=
  let found :=
    detector.detections.toList.foldl (countMatch margin message) ((.openStint, 0), 0)
  if found.2 = 1 then
    some {
      timestamp := message.decoderTimestamp
      transponderType := found.1.1
      transponderId := found.1.2
      transponderTimestamp := message.transponderTimestamp }
  else none

def identifyTimesyncs (detector : PassingDetector R) (margin : UInt64) :
    PassingDetector R × List TimeSync :=
  ({ detector with timesyncMessages := [] },
    detector.timesyncMessages.filterMap (attributeTimesync detector margin))

def passingsBetween (detector : PassingDetector R) (tsys : TransponderSystem)
    (from_ until_ : UInt64) : List UInt32 :=
  detector.detections.toList.filterMap fun (key, detections) =>
    match detections.head?, detections.getLast? with
    | some front, some back =>
      if key.1 = tsys ∧ front.timestamp ≤ until_ ∧ back.timestamp ≥ from_ then some key.2 else none
    | _, _ => none

end PassingDetector

/-! ### Runs of the two threads -/

/-- One critical section of the passing detector. -/
inductive DetectorInput (R : Type)
  | append (frame : Frame R) (transponderId : UInt32)
  | timesync (frame : Frame R) (transponderTimestamp : UInt32)
  | identifyPassings (deadline : UInt64)
  | identifyTimesyncs (margin : UInt64)
  | passingsBetween (tsys : TransponderSystem) (from_ until_ : UInt64)

inductive DetectorAnswer (R : Type)
  | done
  | passings (list : List (Passing R))
  | timesyncs (list : List TimeSync)
  | transponders (list : List UInt32)

def detectorStep [Field R] (platform : Platform R)
    (computePassingPoint : List (Detection R) → PassingPoint R) (detector : PassingDetector R) :
    DetectorInput R → PassingDetector R × DetectorAnswer R
  | .append frame transponderId => (detector.append platform frame transponderId, .done)
  | .timesync frame transponderTimestamp => (detector.timesync frame transponderTimestamp, .done)
  | .identifyPassings deadline =>
    let (detector, list) := detector.identifyPassings computePassingPoint deadline
    (detector, .passings list)
  | .identifyTimesyncs margin =>
    let (detector, list) := detector.identifyTimesyncs margin
    (detector, .timesyncs list)
  | .passingsBetween tsys from_ until_ =>
    (detector, .transponders (detector.passingsBetween tsys from_ until_))

/-! ### The groups of one transponder -/

/-- What the run does to one transponder: a hit, or a look for passings that are over. -/
inductive KeyEvent (R : Type)
  | hit (detection : Detection R)
  | identify (deadline : UInt64)
  deriving DecidableEq, Repr

/-- The events of one transponder in a run, in order. -/
def keyEvents [Field R] (platform : Platform R) (key : TransponderKey)
    (inputs : List (DetectorInput R)) : List (KeyEvent R) :=
  inputs.filterMap fun
    | .append frame transponderId =>
      if PassingDetector.keyOf frame transponderId = key then
        some (.hit (PassingDetector.detectionOf platform frame))
      else none
    | .identifyPassings deadline => some (.identify deadline)
    | _ => none

/-- The hits since the last group closed. -/
def openGroup : List (Detection R) → List (KeyEvent R) → List (Detection R)
  | group, [] => group
  | group, .hit detection :: rest => openGroup (group ++ [detection]) rest
  | group, .identify deadline :: rest =>
    if PassingDetector.pastDeadline deadline group then openGroup [] rest else openGroup group rest

/-- For every look, the group that closes there: all hits since the last group closed, when
the last one of them is not after the deadline. -/
def closings : List (Detection R) → List (KeyEvent R) → List (Option (List (Detection R)))
  | _, [] => []
  | group, .hit detection :: rest => closings (group ++ [detection]) rest
  | group, .identify deadline :: rest =>
    if PassingDetector.pastDeadline deadline group then some group :: closings [] rest
    else none :: closings group rest

/-- The hits of one transponder, in order. -/
def keyHits (events : List (KeyEvent R)) : List (Detection R) :=
  events.filterMap fun
    | .hit detection => some detection
    | .identify _ => none

/-- The report of a closed group: one passing, computed from the last hits of it, when
there are at least two. -/
def groupReport (computePassingPoint : List (Detection R) → PassingPoint R)
    (key : TransponderKey) (group : List (Detection R)) : List (Passing R) :=
  if reportHitLimit ≤ group.length then
    [PassingDetector.createPassing computePassingPoint key
      (group.rtake transponderDetectionMsgLimit)]
  else []

def Passing.key (passing : Passing R) : TransponderKey :=
  (passing.transponderType, passing.transponderId)

/-- For every call of `identify_passings` in a run, the passings of one transponder. -/
def reportsFor (key : TransponderKey) (answered : List (DetectorAnswer R)) :
    List (List (Passing R)) :=
  answered.filterMap fun
    | .passings list => some (list.filter fun passing => passing.key = key)
    | _ => none

/-- The bookkeeping of one transponder over a run. -/
structure PassingLaw [Field R] (platform : Platform R)
    (computePassingPoint : List (Detection R) → PassingPoint R) (key : TransponderKey)
    (inputs : List (DetectorInput R)) : Prop where
  /-- Every call of `identify_passings` returns the report of the group that closes there. -/
  reported : reportsFor key
      (answers (detectorStep platform computePassingPoint) .initial inputs) =
    (closings [] (keyEvents platform key inputs)).map fun closed =>
      closed.toList.flatMap (groupReport computePassingPoint key)
  /-- Every hit is in exactly one group, and the groups follow each other. -/
  conserved : keyHits (keyEvents platform key inputs) =
    ((closings [] (keyEvents platform key inputs)).flatMap Option.toList).flatten ++
      openGroup [] (keyEvents platform key inputs)
  /-- A closed group is one passing, or none when it is a single hit. -/
  counted : ∀ group, some group ∈ closings [] (keyEvents platform key inputs) →
    group ≠ [] ∧
      (groupReport computePassingPoint key group).length = (if group.length = 1 then 0 else 1) ∧
      ∀ passing ∈ groupReport computePassingPoint key group,
        passing.hits = min 4096 group.length
  /-- What is appended for other transponders makes no difference. -/
  undisturbed : ∀ other, keyEvents platform key other = keyEvents platform key inputs →
    reportsFor key (answers (detectorStep platform computePassingPoint) .initial other) =
      reportsFor key (answers (detectorStep platform computePassingPoint) .initial inputs)

/-! ### One look for passings -/

section Look

variable (computePassingPoint : List (Detection R) → PassingPoint R) (deadline : UInt64)

/-- The report of one entry of the map. -/
def entryReport (entry : TransponderKey × List (Detection R)) : List (Passing R) :=
  if PassingDetector.pastDeadline deadline entry.2 ∧ reportHitLimit ≤ entry.2.length then
    [PassingDetector.createPassing computePassingPoint entry.1 entry.2]
  else []

theorem foldl_collectPassing (entries : List (TransponderKey × List (Detection R)))
    (collected : List (Passing R) × List TransponderKey) :
    entries.foldl (PassingDetector.collectPassing computePassingPoint deadline) collected =
      (collected.1 ++ entries.flatMap (entryReport computePassingPoint deadline),
        collected.2 ++
          (entries.filter fun entry =>
            PassingDetector.pastDeadline deadline entry.2).map Prod.fst) := by
  induction entries generalizing collected with
  | nil => simp
  | cons entry rest inductionHypothesis =>
    rw [List.foldl_cons, inductionHypothesis, List.flatMap_cons, PassingDetector.collectPassing,
      entryReport]
    by_cases isOver : PassingDetector.pastDeadline deadline entry.2
    · by_cases enough : reportHitLimit ≤ entry.2.length
      · simp [isOver, enough, PassingDetector.createPassing]
      · simp [isOver, enough, PassingDetector.createPassing]
    · simp [isOver]

theorem filter_key_entryReport (key : TransponderKey)
    (entry : TransponderKey × List (Detection R)) :
    (entryReport computePassingPoint deadline entry).filter (fun passing => passing.key = key) =
      if entry.1 = key then entryReport computePassingPoint deadline entry else [] := by
  have own :
      (PassingDetector.createPassing computePassingPoint entry.1 entry.2).key = entry.1 := rfl
  unfold entryReport
  by_cases same : entry.1 = key
  · rw [if_pos same]
    split
    · refine List.filter_eq_self.mpr fun passing member => ?_
      rw [List.mem_singleton.mp member]
      exact decide_eq_true (own.trans same)
    · rfl
  · rw [if_neg same]
    split
    · simp [own, same]
    · rfl

/-- Of one transponder a look returns the report of its own queue. -/
theorem filter_identifyPassings (detector : PassingDetector R) (key : TransponderKey) :
    (detector.identifyPassings computePassingPoint deadline).2.filter
        (fun passing => passing.key = key) =
      detector.detections[key]?.toList.flatMap fun detections =>
        entryReport computePassingPoint deadline (key, detections) := by
  have own : ∀ entries : List (TransponderKey × List (Detection R)),
      (entries.flatMap (entryReport computePassingPoint deadline)).filter
          (fun passing => passing.key = key) =
        (entries.filter fun entry => entry.1 = key).flatMap
          (entryReport computePassingPoint deadline) := by
    intro entries
    induction entries with
    | nil => rfl
    | cons entry rest inductionHypothesis =>
      rw [List.flatMap_cons, List.filter_append, filter_key_entryReport, inductionHypothesis]
      by_cases same : entry.1 = key
      · simp [same]
      · simp [same]
  rw [PassingDetector.identifyPassings, foldl_collectPassing, List.nil_append, own,
    filter_key_toList]
  cases detector.detections[key]? <;> simp

/-- A look erases the queues that are over, and no other. -/
theorem getElem?_identifyPassings (detector : PassingDetector R) (key : TransponderKey) :
    (detector.identifyPassings computePassingPoint deadline).1.detections[key]? =
      detector.detections[key]?.filter fun detections =>
        !PassingDetector.pastDeadline deadline detections := by
  have erased : key ∈ (detector.detections.toList.filter fun entry =>
      PassingDetector.pastDeadline deadline entry.2).map Prod.fst ↔
      ∃ detections, detector.detections[key]? = some detections ∧
        PassingDetector.pastDeadline deadline detections := by
    simp only [List.mem_map, List.mem_filter, Prod.exists, exists_and_right, exists_eq_right,
      Std.TreeMap.mem_toList_iff_getElem?_eq_some]
  rw [PassingDetector.identifyPassings, foldl_collectPassing, getElem?_eraseAll]
  dsimp only
  rw [List.nil_append]
  cases held : detector.detections[key]? with
  | none => simp
  | some detections =>
    rw [held] at erased
    by_cases isOver : PassingDetector.pastDeadline deadline detections
    · rw [if_pos (erased.mpr ⟨detections, rfl, isOver⟩), Option.filter_some_neg (by simp [isOver])]
    · rw [if_neg, Option.filter_some_pos (by simp [isOver])]
      intro member
      obtain ⟨_, ⟨⟩, late⟩ := erased.mp member
      exact isOver late

end Look

/-! ### One transponder in the run -/

section Key

/-- The queue of a transponder holds the last hits of its open group. -/
def HoldsGroup (detector : PassingDetector R) (key : TransponderKey)
    (group : List (Detection R)) : Prop :=
  detector.detections[key]? =
    if group = [] then none else some (group.rtake transponderDetectionMsgLimit)

theorem getLast?_rtake {group : List (Detection R)} {count : Nat} (positive : 0 < count) :
    (group.rtake count).getLast? = group.getLast? := by
  rw [List.rtake_eq_reverse_take_reverse, List.getLast?_reverse, List.head?_take,
    if_neg positive.ne', List.head?_reverse]

/-- Eviction does not change when a queue is over. -/
theorem pastDeadline_rtake (deadline : UInt64) (group : List (Detection R)) :
    PassingDetector.pastDeadline deadline (group.rtake transponderDetectionMsgLimit) =
      PassingDetector.pastDeadline deadline group := by
  rw [PassingDetector.pastDeadline, getLast?_rtake (by decide), ← PassingDetector.pastDeadline]

theorem pastDeadline_nil (deadline : UInt64) :
    PassingDetector.pastDeadline deadline ([] : List (Detection R)) = false := rfl

/-- The report of a full queue is the report of its group. -/
theorem entryReport_rtake (computePassingPoint : List (Detection R) → PassingPoint R)
    {deadline : UInt64} (key : TransponderKey) {group : List (Detection R)}
    (isOver : PassingDetector.pastDeadline deadline group) :
    entryReport computePassingPoint deadline (key, group.rtake transponderDetectionMsgLimit) =
      groupReport computePassingPoint key group := by
  rw [entryReport, groupReport, pastDeadline_rtake, length_rtake]
  have enough : reportHitLimit ≤ min transponderDetectionMsgLimit group.length ↔
      reportHitLimit ≤ group.length := by
    rw [le_min_iff, and_iff_right (by decide)]
  simp [isOver, enough]

/-- A look closes the open group when it is over, and reports it. -/
theorem HoldsGroup.identify (computePassingPoint : List (Detection R) → PassingPoint R)
    (key : TransponderKey) {detector : PassingDetector R} {group : List (Detection R)}
    (holds : HoldsGroup detector key group) (deadline : UInt64) :
    HoldsGroup (detector.identifyPassings computePassingPoint deadline).1 key
        (if PassingDetector.pastDeadline deadline group then [] else group) ∧
      (detector.identifyPassings computePassingPoint deadline).2.filter
          (fun passing => passing.key = key) =
        if PassingDetector.pastDeadline deadline group then
          groupReport computePassingPoint key group
        else [] := by
  rw [HoldsGroup, getElem?_identifyPassings, filter_identifyPassings, holds]
  by_cases empty : group = []
  · subst empty
    simp [pastDeadline_nil]
  · rw [if_neg empty]
    by_cases isOver : PassingDetector.pastDeadline deadline group
    · simp [isOver, pastDeadline_rtake, entryReport_rtake]
    · simp [isOver, empty, pastDeadline_rtake, entryReport]

variable [Field R] (platform : Platform R)
  (computePassingPoint : List (Detection R) → PassingPoint R) (key : TransponderKey)

theorem HoldsGroup.hit {detector : PassingDetector R} {group : List (Detection R)}
    {frame : Frame R} {transponderId : UInt32} (holds : HoldsGroup detector key group)
    (same : PassingDetector.keyOf frame transponderId = key) :
    HoldsGroup (detector.append platform frame transponderId) key
      (group ++ [PassingDetector.detectionOf platform frame]) := by
  have queue : detector.detections.getD key [] = group.rtake transponderDetectionMsgLimit := by
    rw [Std.TreeMap.getD_eq_getD_getElem?, holds]
    by_cases empty : group = []
    · rw [if_pos empty, empty, List.rtake_nil, Option.getD_none]
    · rw [if_neg empty, Option.getD_some]
  rw [HoldsGroup, PassingDetector.append, same, Std.TreeMap.getElem?_insert_self, queue, push_rtake,
    if_neg (by simp)]

theorem HoldsGroup.other {detector : PassingDetector R} {group : List (Detection R)}
    {frame : Frame R} {transponderId : UInt32} (holds : HoldsGroup detector key group)
    (other : PassingDetector.keyOf frame transponderId ≠ key) :
    HoldsGroup (detector.append platform frame transponderId) key group := by
  rw [HoldsGroup, PassingDetector.append, Std.TreeMap.getElem?_insert,
    if_neg (by rwa [Std.LawfulEqCmp.compare_eq_iff_eq])]
  exact holds

/-- The passings returned for one transponder over a run from any state. -/
theorem reportsFor_answers (inputs : List (DetectorInput R)) {detector : PassingDetector R}
    {group : List (Detection R)} (holds : HoldsGroup detector key group) :
    reportsFor key (answers (detectorStep platform computePassingPoint) detector inputs) =
      (closings group (keyEvents platform key inputs)).map fun closed =>
        closed.toList.flatMap (groupReport computePassingPoint key) := by
  induction inputs generalizing detector group with
  | nil => rfl
  | cons input rest inductionHypothesis =>
    rw [answers_cons]
    cases input with
    | append frame transponderId =>
      by_cases same : PassingDetector.keyOf frame transponderId = key
      · have next := inductionHypothesis (holds.hit platform key same)
        simpa [reportsFor, keyEvents, detectorStep, same, closings] using next
      · have next := inductionHypothesis (holds.other platform key same)
        simpa [reportsFor, keyEvents, detectorStep, same] using next
    | timesync frame transponderTimestamp => exact inductionHypothesis holds
    | identifyTimesyncs margin => exact inductionHypothesis holds
    | passingsBetween tsys from_ until_ => exact inductionHypothesis holds
    | identifyPassings deadline =>
      obtain ⟨kept, report⟩ := holds.identify computePassingPoint key deadline
      have next := inductionHypothesis kept
      have answered : reportsFor key ((detectorStep platform computePassingPoint detector
          (.identifyPassings deadline)).2 :: answers (detectorStep platform computePassingPoint)
            (detector.identifyPassings computePassingPoint deadline).1 rest) =
          ((detector.identifyPassings computePassingPoint deadline).2.filter
              fun passing => passing.key = key) ::
            reportsFor key (answers (detectorStep platform computePassingPoint)
              (detector.identifyPassings computePassingPoint deadline).1 rest) := rfl
      have event : keyEvents platform key (.identifyPassings deadline :: rest) =
          .identify deadline :: keyEvents platform key rest := rfl
      refine answered.trans ?_
      rw [report, next, event, closings]
      by_cases isOver : PassingDetector.pastDeadline deadline group
      · simp [isOver]
      · simp [isOver]

end Key

/-! ### The groups of a transponder -/

theorem keyHits_eq (events : List (KeyEvent R)) (group : List (Detection R)) :
    group ++ keyHits events =
      ((closings group events).flatMap Option.toList).flatten ++ openGroup group events := by
  induction events generalizing group with
  | nil => simp [keyHits, closings, openGroup]
  | cons event rest inductionHypothesis =>
    cases event with
    | hit detection =>
      have next := inductionHypothesis (group ++ [detection])
      simpa [keyHits, closings, openGroup] using next
    | identify deadline =>
      rw [closings, openGroup]
      by_cases isOver : PassingDetector.pastDeadline deadline group
      · have next := inductionHypothesis []
        rw [List.nil_append] at next
        simpa [isOver, keyHits] using next
      · simpa [isOver, keyHits] using inductionHypothesis group

theorem ne_nil_of_mem_closings {events : List (KeyEvent R)} {opened group : List (Detection R)}
    (closed : some group ∈ closings opened events) : group ≠ [] := by
  induction events generalizing opened with
  | nil => cases closed
  | cons event rest inductionHypothesis =>
    cases event with
    | hit detection => exact inductionHypothesis closed
    | identify deadline =>
      rw [closings] at closed
      by_cases isOver : PassingDetector.pastDeadline deadline opened
      · rw [if_pos isOver] at closed
        rcases List.mem_cons.mp closed with same | later
        · rintro rfl
          injection same with same
          rw [← same] at isOver
          exact absurd isOver Bool.false_ne_true
        · exact inductionHypothesis later
      · rw [if_neg isOver] at closed
        rcases List.mem_cons.mp closed with same | later
        · cases same
        · exact inductionHypothesis later

/-- The bookkeeping of every transponder over every interleaving of the two threads. -/
theorem passing_bookkeeping [Field R] (platform : Platform R)
    (computePassingPoint : List (Detection R) → PassingPoint R) (key : TransponderKey)
    (inputs : List (DetectorInput R)) :
    PassingLaw platform computePassingPoint key inputs := by
  have start : HoldsGroup (.initial : PassingDetector R) key [] := rfl
  have reported := fun inputs => reportsFor_answers platform computePassingPoint key inputs start
  refine ⟨reported inputs, keyHits_eq _ [], fun group closed => ?_, fun other same => ?_⟩
  · have nonempty := ne_nil_of_mem_closings closed
    have positive := List.length_pos_of_ne_nil nonempty
    refine ⟨nonempty, ?_, fun passing member => ?_⟩
    · unfold groupReport reportHitLimit
      by_cases single : group.length = 1
      · rw [if_neg (by omega), if_pos single, List.length_nil]
      · rw [if_pos (by omega), if_neg single, List.length_singleton]
    · rw [groupReport] at member
      split at member
      · rw [List.mem_singleton.mp member, PassingDetector.createPassing, length_rtake]
        rfl
      · cases member
  · rw [reported other, reported inputs, same]

end OpenStint
