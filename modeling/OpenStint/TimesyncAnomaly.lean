/-
This file models the detector of `timesync_anomaly.py`. Between two time sync messages of a
transponder the decoder's clock and the transponder's clock should advance alike; a message
where they disagree is printed with the ten messages before it and the ten behind it.

What is printed is some of the records, in order and each of them once: every record within ten
of an anomaly, but for those where the decoder's clock went backwards. And a record is an anomaly
when the disagreement stays away from every multiple of the time in which the transponder's
clock wraps around.
-/

import OpenStint.Library.BoundedQueue
import OpenStint.Subscribers

namespace OpenStint

open BoundedQueue Machine

variable {R : Type}

def contextBefore : Nat := 10

def contextAfter : Nat := 10

/-- `ANOMALY_MS`. -/
def anomalyMs [NatCast R] : R := ((200 : Nat) : R)

/-- The increments of the three clocks, and how far apart those of the decoder and of the
transponder are. -/
structure AnomalyDeltas (R : Type) where
  dLoc : R
  dDec : R
  dTc : R
  spread : R

/-- The record of a message. -/
structure AnomalyRecord (R : Type) where
  idx : Nat
  raw : TimesyncReading R
  deltas : Option (AnomalyDeltas R)
  anomaly : Bool

structure AnomalyDetector (R : Type) where
  lockedId : Option Int
  history : List (AnomalyRecord R)
  idx : Nat
  prev : Option (R × TimesyncReading R)
  lastPrintedIdx : Int
  printUntilIdx : Int
  nAnomalies : Nat

/-- What comes of a message: nothing when it is of another transponder, the note of a restart,
or its record with the records that are printed, the number in the headline of a new context,
and whether the line that ends a context is printed. -/
inductive AnomalyOutput (R : Type)
  | ignored
  | restarted (record : AnomalyRecord R)
  | recorded (record : AnomalyRecord R) (printed : List (AnomalyRecord R)) (headline : Option Nat)
      (ended : Bool)

namespace AnomalyOutput

def record : AnomalyOutput R → Option (AnomalyRecord R)
  | .ignored => none
  | .restarted record => some record
  | .recorded record _ _ _ => some record

/-- The record of a message that is no restart. -/
def compared : AnomalyOutput R → Option (AnomalyRecord R)
  | .recorded record _ _ _ => some record
  | _ => none

def printed : AnomalyOutput R → List (AnomalyRecord R)
  | .recorded _ printed _ _ => printed
  | _ => []

end AnomalyOutput

/-- `unwrap_tc_delta`: the increment of the timecode, with the rollover closest to the decoder. -/
def unwrapTcDelta [Field R] [LinearOrder R] [FloorRing R] (rawDelta : Int) (decoderDeltaMs : R) :
    R :=
  let expectedTicks := decoderDeltaMs * ((10 : Nat) : R)
  let rollover := roundHalfEven ((expectedTicks - (rawDelta : R)) / (timecodeWrap : R))
  ((rawDelta + rollover * timecodeWrap : Int) : R) / ((10 : Nat) : R)

namespace AnomalyDetector

/-- The detector at the start, with the transponder of the command line if there is one. -/
def initial (lockedId : Option Int) : AnomalyDetector R where
  lockedId := lockedId
  history := []
  idx := 0
  prev := none
  lastPrintedIdx := -1
  printUntilIdx := -1
  nAnomalies := 0

/-- What the main loop does with the record of a message that is no restart. -/
def process (detector : AnomalyDetector R) (current : R × TimesyncReading R)
    (record : AnomalyRecord R) : AnomalyDetector R × AnomalyOutput R :=
  let detector := { detector with
    history := push (contextBefore + 1) detector.history record
    idx := detector.idx + 1
    prev := some current }
  if record.anomaly then
    let nAnomalies := detector.nAnomalies + 1
    let moved := { detector with
      nAnomalies
      lastPrintedIdx := record.idx
      printUntilIdx := record.idx + contextAfter }
    if detector.printUntilIdx < (record.idx : Int) then
      let start := max (detector.lastPrintedIdx + 1) ((record.idx : Int) - contextBefore)
      (moved, .recorded record
        (detector.history.filter fun r => start ≤ (r.idx : Int) ∧ r.idx ≤ record.idx)
        (some nAnomalies) false)
    else (moved, .recorded record [record] none false)
  else if (record.idx : Int) ≤ detector.printUntilIdx then
    ({ detector with lastPrintedIdx := record.idx },
      .recorded record [record] none (decide ((record.idx : Int) = detector.printUntilIdx)))
  else (detector, .recorded record [] none false)

/-- The main loop on a message that could be read, and the local time in milliseconds. -/
def receive [Field R] [LinearOrder R] [FloorRing R] (detector : AnomalyDetector R)
    (current : R × TimesyncReading R) : AnomalyDetector R × AnomalyOutput R :=
  let (localMs, reading) := current
  let lockedId := detector.lockedId.getD reading.transponderId
  let detector := { detector with lockedId := some lockedId }
  if reading.transponderId ≠ lockedId then (detector, .ignored)
  else
    match detector.prev with
    | none =>
      detector.process current
        { idx := detector.idx, raw := reading, deltas := none, anomaly := false }
    | some (prevMs, prevReading) =>
      let dLoc := localMs - prevMs
      let dDec := reading.decoderMs - prevReading.decoderMs
      if dDec < 0 then
        let record : AnomalyRecord R :=
          { idx := detector.idx, raw := reading, deltas := none, anomaly := false }
        ({ detector with
            prev := some current
            history := push (contextBefore + 1) detector.history record
            idx := detector.idx + 1 },
          .restarted record)
      else
        let dTc := unwrapTcDelta (reading.rawTicks - prevReading.rawTicks) dDec
        let spread := |dDec - dTc|
        detector.process current
          { idx := detector.idx
            raw := reading
            deltas := some { dLoc, dDec, dTc, spread }
            anomaly := anomalyMs < spread }

end AnomalyDetector

/-! ### What is printed -/

/-- The records of a run, those of restarts included. -/
def recordsOf (outputs : List (AnomalyOutput R)) : List (AnomalyRecord R) :=
  outputs.filterMap AnomalyOutput.record

/-- The records of a run that are no restarts. -/
def comparedOf (outputs : List (AnomalyOutput R)) : List (AnomalyRecord R) :=
  outputs.filterMap AnomalyOutput.compared

def printedOf (outputs : List (AnomalyOutput R)) : List (AnomalyRecord R) :=
  outputs.flatMap AnomalyOutput.printed

/-- A record is among the ten before an anomaly, the anomaly, or among the ten behind it. -/
def InContext (record anomaly : AnomalyRecord R) : Prop :=
  anomaly.anomaly = true ∧ anomaly.idx ≤ record.idx + contextBefore ∧
    record.idx ≤ anomaly.idx + contextAfter

/-- Records that are numbered from some number on. -/
def NumberedFrom (first : Nat) (records : List (AnomalyRecord R)) : Prop :=
  ∀ i record, records[i]? = some record → record.idx = first + i

/-- What a run prints, given its records, those of them that are no restarts, and what it has
printed. -/
structure PrintsContexts (records compared printed : List (AnomalyRecord R)) : Prop where
  /-- A record carries its number in the run. -/
  numbered : NumberedFrom 0 records
  among : compared.Sublist records
  /-- The records are printed in order, and none of them twice. -/
  inOrder : printed.Sublist records
  /-- A record that is no restart is printed if and only if it is in the context of an anomaly. -/
  complete : ∀ record ∈ compared,
    (record ∈ printed ↔ ∃ anomaly ∈ compared, InContext record anomaly)
  /-- A restart is only printed in the context before an anomaly. -/
  restarted : ∀ record ∈ printed, record ∈ compared ∨
    ∃ anomaly ∈ compared, InContext record anomaly ∧ record.idx < anomaly.idx

/-- Whatever number of rollovers is taken for the transponder's clock, it disagrees with the
decoder's about the time between two messages. -/
def ClocksDisagree [Field R] [LinearOrder R] (before now : TimesyncReading R) : Prop :=
  ∀ rollovers : Int, anomalyMs <
    |now.decoderMs - before.decoderMs -
      ((now.rawTicks - before.rawTicks + rollovers * timecodeWrap : Int) : R) / ((10 : Nat) : R)|

/-- What becomes of a record that stands behind another one: it is compared with it, unless the
decoder's clock went backwards, and it is an anomaly if the clocks disagree. -/
def JudgesPair [Field R] [LinearOrder R] (compared : List (AnomalyRecord R))
    (before record : AnomalyRecord R) : Prop :=
  (record ∈ compared ↔ before.raw.decoderMs ≤ record.raw.decoderMs) ∧
    (record.anomaly = true ↔
      before.raw.decoderMs ≤ record.raw.decoderMs ∧ ClocksDisagree before.raw record.raw)

/-- The messages of the transponder that the detector is locked onto. -/
def ownMessages (lockedId : Option Int) (messages : List (R × TimesyncReading R)) :
    List (TimesyncReading R) :=
  ownReadings lockedId (messages.map Prod.snd)

/-- What the records of a run say about the messages of the transponder. -/
structure JudgesMessages [Field R] [LinearOrder R] (own : List (TimesyncReading R))
    (records compared : List (AnomalyRecord R)) : Prop where
  recorded : records.map AnomalyRecord.raw = own
  first : ∀ record, records[0]? = some record → record ∈ compared ∧ record.anomaly = false
  later : ∀ i before record, records[i]? = some before → records[i + 1]? = some record →
    JudgesPair compared before record

/-! ### Numbered records -/

theorem NumberedFrom.tail {first : Nat} {head : AnomalyRecord R} {rest : List (AnomalyRecord R)}
    (numbered : NumberedFrom first (head :: rest)) : NumberedFrom (first + 1) rest := by
  intro i record found
  rw [numbered (i + 1) record (by rwa [List.getElem?_cons_succ])]
  omega

theorem NumberedFrom.drop {records : List (AnomalyRecord R)} (numbered : NumberedFrom 0 records)
    (count : Nat) : NumberedFrom count (records.drop count) := by
  intro i record found
  rw [List.getElem?_drop] at found
  rw [numbered _ record found, Nat.zero_add]

/-- The records from a number on. -/
theorem NumberedFrom.filter {first : Nat} {records : List (AnomalyRecord R)}
    (numbered : NumberedFrom first records) (start : Nat) :
    records.filter (fun record : AnomalyRecord R => decide (start ≤ record.idx)) =
      records.drop (start - first) := by
  induction records generalizing first with
  | nil => rw [List.filter_nil, List.drop_nil]
  | cons head rest inductionHypothesis =>
    have headNumber : head.idx = first := numbered 0 head rfl
    rw [List.filter_cons, inductionHypothesis numbered.tail, headNumber]
    by_cases within : start ≤ first
    · rw [if_pos (decide_eq_true within), Nat.sub_eq_zero_of_le within,
        Nat.sub_eq_zero_of_le (Nat.le_succ_of_le within), List.drop_zero, List.drop_zero]
    · rw [if_neg (by simpa using within)]
      obtain ⟨gap, enough⟩ : ∃ gap, start - first = gap + 1 := ⟨start - first - 1, by omega⟩
      rw [enough, List.drop_succ_cons]
      congr 1
      omega

theorem NumberedFrom.mem_drop {records : List (AnomalyRecord R)}
    (numbered : NumberedFrom 0 records) (start : Nat) (record : AnomalyRecord R) :
    record ∈ records.drop start ↔ record ∈ records ∧ start ≤ record.idx := by
  rw [← Nat.sub_zero start, ← numbered.filter start, List.mem_filter, decide_eq_true_iff]
  rfl

theorem NumberedFrom.concat {records : List (AnomalyRecord R)}
    (numbered : NumberedFrom 0 records) {record : AnomalyRecord R}
    (number : record.idx = records.length) : NumberedFrom 0 (records ++ [record]) := by
  intro i other found
  rcases Nat.lt_trichotomy i records.length with below | same | above
  · rw [List.getElem?_append_left below] at found
    exact numbered i other found
  · rw [List.getElem?_append_right same.ge, same, Nat.sub_self, List.getElem?_cons_zero] at found
    rw [← Option.some.inj found, number, same, Nat.zero_add]
  · rw [List.getElem?_eq_none (by rw [List.length_append, List.length_singleton]; omega)] at found
    cases found

theorem NumberedFrom.lt {records : List (AnomalyRecord R)} (numbered : NumberedFrom 0 records)
    {record : AnomalyRecord R} (member : record ∈ records) : record.idx < records.length := by
  obtain ⟨i, inside, rfl⟩ := List.mem_iff_getElem.mp member
  rw [numbered i _ (List.getElem?_eq_getElem inside), Nat.zero_add]
  exact inside

/-! ### Along a run -/

theorem recordsOf_concat (outputs : List (AnomalyOutput R)) (output : AnomalyOutput R) :
    recordsOf (outputs ++ [output]) = recordsOf outputs ++ output.record.toList := by
  rw [recordsOf, List.filterMap_append, recordsOf]
  cases found : output.record <;> simp [found]

theorem comparedOf_concat (outputs : List (AnomalyOutput R)) (output : AnomalyOutput R) :
    comparedOf (outputs ++ [output]) = comparedOf outputs ++ output.compared.toList := by
  rw [comparedOf, List.filterMap_append, comparedOf]
  cases found : output.compared <;> simp [found]

theorem printedOf_concat (outputs : List (AnomalyOutput R)) (output : AnomalyOutput R) :
    printedOf (outputs ++ [output]) = printedOf outputs ++ output.printed := by
  rw [printedOf, List.flatMap_append, printedOf, List.flatMap_singleton]

/-- The window in which records are printed: there was no anomaly so far, or the window is the
one behind the last of them. -/
def PrintWindow (compared : List (AnomalyRecord R)) (lastPrintedIdx printUntilIdx : Int) : Prop :=
  (∀ record ∈ compared, record.anomaly = false) ∧ lastPrintedIdx = -1 ∧ printUntilIdx = -1 ∨
    ∃ latest ∈ compared, latest.anomaly = true ∧
      (∀ record ∈ compared, record.anomaly = true → record.idx ≤ latest.idx) ∧
      (latest.idx : Int) ≤ lastPrintedIdx ∧ lastPrintedIdx ≤ printUntilIdx ∧
      printUntilIdx = latest.idx + contextAfter

theorem PrintWindow.ordinary {compared : List (AnomalyRecord R)}
    {lastPrintedIdx lastPrintedIdx' printUntilIdx : Int} {record : AnomalyRecord R}
    (window : PrintWindow compared lastPrintedIdx printUntilIdx)
    (ordinary : record.anomaly = false) (forward : lastPrintedIdx ≤ lastPrintedIdx')
    (within : lastPrintedIdx' ≤ printUntilIdx) :
    PrintWindow (compared ++ [record]) lastPrintedIdx' printUntilIdx := by
  obtain ⟨noAnomaly, last, closed⟩ | ⟨latest, inside, flagged, newest, behind, _, ends⟩ := window
  · refine Or.inl ⟨fun older member => ?_, by omega, closed⟩
    obtain member | rfl := List.mem_append.mp member |>.imp_right List.mem_singleton.mp
    · exact noAnomaly older member
    · exact ordinary
  · refine Or.inr ⟨latest, List.mem_append_left _ inside, flagged, fun older member anomaly => ?_,
      by omega, within, ends⟩
    obtain member | rfl := List.mem_append.mp member |>.imp_right List.mem_singleton.mp
    · exact newest older member anomaly
    · rw [ordinary] at anomaly
      cases anomaly

theorem PrintWindow.anomaly {compared : List (AnomalyRecord R)} {record : AnomalyRecord R}
    (anomaly : record.anomaly = true) (newest : ∀ older ∈ compared, older.idx ≤ record.idx) :
    PrintWindow (compared ++ [record]) record.idx (record.idx + contextAfter) := by
  refine Or.inr ⟨record, List.mem_append_right _ (List.mem_singleton_self _), anomaly,
    fun older member _ => ?_, le_rfl, by omega, rfl⟩
  obtain member | rfl := List.mem_append.mp member |>.imp_right List.mem_singleton.mp
  · exact newest older member
  · exact le_rfl

/-- A record that is no anomaly opens no context. -/
theorem context_concat {compared : List (AnomalyRecord R)} {record older : AnomalyRecord R}
    (ordinary : record.anomaly = false) :
    (∃ anomaly ∈ compared ++ [record], InContext older anomaly) ↔
      ∃ anomaly ∈ compared, InContext older anomaly := by
  refine ⟨?_, fun ⟨anomaly, found, context⟩ => ⟨anomaly, List.mem_append_left _ found, context⟩⟩
  rintro ⟨anomaly, found, context⟩
  obtain found | rfl := List.mem_append.mp found |>.imp_right List.mem_singleton.mp
  · exact ⟨anomaly, found, context⟩
  · rw [context.1] at ordinary
    cases ordinary

/-- What ties the detector to its records and to what it has printed. -/
structure AnomalyInvariant (records compared printed : List (AnomalyRecord R))
    (detector : AnomalyDetector R) : Prop where
  prints : PrintsContexts records compared printed
  counted : records.length = detector.idx
  recent : detector.history = records.rtake (contextBefore + 1)
  started : -1 ≤ detector.lastPrintedIdx
  behind : detector.lastPrintedIdx < detector.idx
  printedUntil : printed.Sublist (records.take (detector.lastPrintedIdx + 1).toNat)
  window : PrintWindow compared detector.lastPrintedIdx detector.printUntilIdx

namespace AnomalyInvariant

variable {records compared printed : List (AnomalyRecord R)} {detector : AnomalyDetector R}
  {record : AnomalyRecord R}

theorem number_lt (invariant : AnomalyInvariant records compared printed detector)
    {older : AnomalyRecord R} (member : older ∈ records) : older.idx < detector.idx :=
  invariant.counted ▸ invariant.prints.numbered.lt member

theorem numbered_concat (invariant : AnomalyInvariant records compared printed detector)
    (number : record.idx = detector.idx) : NumberedFrom 0 (records ++ [record]) :=
  invariant.prints.numbered.concat (number.trans invariant.counted.symm)

/-- What is printed along with a record: the records from some number on, all of them behind
those that are printed already. -/
theorem printed_concat (invariant : AnomalyInvariant records compared printed detector)
    (record : AnomalyRecord R) {start : Nat} (later : detector.lastPrintedIdx < start)
    (inside : start ≤ detector.idx) :
    (printed ++ (records ++ [record]).drop start).Sublist (records ++ [record]) := by
  have started := invariant.started
  have counted := invariant.counted
  have before : printed.Sublist ((records ++ [record]).take start) := by
    refine invariant.printedUntil.trans ?_
    rw [List.take_append_of_le_length (by omega)]
    exact (List.take_prefix_take_left (by omega)).sublist
  have joined := before.append_right ((records ++ [record]).drop start)
  rwa [List.take_append_drop] at joined

/-- The records that are printed at an anomaly outside a window. -/
theorem history_filter (invariant : AnomalyInvariant records compared printed detector)
    (number : record.idx = detector.idx) {start : Nat}
    (recent : detector.idx ≤ start + contextBefore) :
    (push (contextBefore + 1) detector.history record).filter
        (fun r : AnomalyRecord R => decide ((start : Int) ≤ (r.idx : Int) ∧ r.idx ≤ record.idx)) =
      (records ++ [record]).drop start := by
  have numbered := invariant.numbered_concat number
  have length : (records ++ [record]).length = detector.idx + 1 := by
    rw [List.length_append, List.length_singleton, invariant.counted]
  rw [invariant.recent, push_rtake, List.rtake]
  have upTo : ∀ r ∈ (records ++ [record]).drop ((records ++ [record]).length - (contextBefore + 1)),
      decide ((start : Int) ≤ (r.idx : Int) ∧ r.idx ≤ record.idx) = decide (start ≤ r.idx) := by
    intro r member
    have below := numbered.lt (List.mem_of_mem_drop member)
    refine decide_eq_decide.mpr ⟨fun both => by omega, fun single => by omega⟩
  rw [List.filter_congr upTo, (numbered.drop _).filter, List.drop_drop]
  congr 1
  omega

theorem last_le_until (invariant : AnomalyInvariant records compared printed detector) :
    detector.lastPrintedIdx ≤ detector.printUntilIdx := by
  obtain ⟨_, last, until_⟩ | ⟨_, _, _, _, _, within, _⟩ := invariant.window
  · rw [last, until_]
  · exact within

/-- Of the records before a new anomaly, the ones up to the end of the window are printed
already. -/
theorem covered (invariant : AnomalyInvariant records compared printed detector)
    (number : record.idx = detector.idx) {older : AnomalyRecord R} (member : older ∈ compared)
    (context : InContext older record) :
    older ∈ printed ∨ detector.printUntilIdx < older.idx := by
  obtain ⟨_, _, closed⟩ | ⟨latest, inside, anomaly, _, _, _, ends⟩ := invariant.window
  · exact Or.inr (by omega)
  · have behind := invariant.number_lt (invariant.prints.among.subset inside)
    have close := context.2.1
    by_cases within : (older.idx : Int) ≤ detector.printUntilIdx
    · refine Or.inl ((invariant.prints.complete older member).mpr ⟨latest, inside, anomaly, ?_, ?_⟩)
      · omega
      · omega
    · exact Or.inr (by omega)

/-- A step that prints the records from some number on, its own among them. -/
theorem printing (invariant : AnomalyInvariant records compared printed detector)
    (number : record.idx = detector.idx) {start : Nat} {next : AnomalyDetector R}
    (history : next.history = push (contextBefore + 1) detector.history record)
    (counted : next.idx = detector.idx + 1) (last : next.lastPrintedIdx = record.idx)
    (later : detector.lastPrintedIdx < start) (inside : start ≤ detector.idx)
    (own : ∃ anomaly ∈ compared ++ [record], InContext record anomaly)
    (earlier : ∀ older ∈ records, start ≤ older.idx → InContext older record)
    (covered : ∀ older ∈ compared, InContext older record → older ∈ printed ∨ start ≤ older.idx)
    (window : PrintWindow (compared ++ [record]) record.idx next.printUntilIdx) :
    AnomalyInvariant (records ++ [record]) (compared ++ [record])
      (printed ++ (records ++ [record]).drop start) next := by
  have numbered := invariant.numbered_concat number
  have inOrder := invariant.printed_concat record later inside
  have length : (records ++ [record]).length = detector.idx + 1 := by
    rw [List.length_append, List.length_singleton, invariant.counted]
  refine ⟨⟨numbered, invariant.prints.among.append_right _, inOrder, ?_, ?_⟩, ?_, ?_, ?_, ?_, ?_,
    last ▸ window⟩
  · intro older member
    rw [List.mem_append, numbered.mem_drop]
    obtain earlierOne | rfl := List.mem_append.mp member |>.imp_right List.mem_singleton.mp
    · have known := invariant.prints.among.subset earlierOne
      constructor
      · rintro (already | ⟨-, fromStart⟩)
        · obtain ⟨anomaly, found, context⟩ :=
            (invariant.prints.complete older earlierOne).mp already
          exact ⟨anomaly, List.mem_append_left _ found, context⟩
        · exact ⟨record, List.mem_append_right _ (List.mem_singleton_self _),
            earlier older known fromStart⟩
      · rintro ⟨anomaly, found, context⟩
        obtain found | rfl := List.mem_append.mp found |>.imp_right List.mem_singleton.mp
        · exact Or.inl ((invariant.prints.complete older earlierOne).mpr ⟨anomaly, found, context⟩)
        · exact (covered older earlierOne context).imp_right
            fun fromStart => ⟨List.mem_append_left _ known, fromStart⟩
    · exact ⟨fun _ => own, fun _ => Or.inr
        ⟨List.mem_append_right _ (List.mem_singleton_self _), number ▸ inside⟩⟩
  · intro older member
    obtain already | fromStart := List.mem_append.mp member
    · obtain compared | ⟨anomaly, found, context⟩ := invariant.prints.restarted older already
      · exact Or.inl (List.mem_append_left _ compared)
      · exact Or.inr ⟨anomaly, List.mem_append_left _ found, context⟩
    · obtain ⟨known, fromStart⟩ := (numbered.mem_drop start older).mp fromStart
      obtain known | rfl := List.mem_append.mp known |>.imp_right List.mem_singleton.mp
      · exact Or.inr ⟨record, List.mem_append_right _ (List.mem_singleton_self _),
          earlier older known fromStart, number ▸ invariant.number_lt known⟩
      · exact Or.inl (List.mem_append_right _ (List.mem_singleton_self _))
  · rw [length, counted]
  · rw [history, invariant.recent, push_rtake]
  · omega
  · omega
  · rwa [List.take_of_length_le (by omega)]

/-- A step that prints its own record and no other. -/
theorem printingOwn (invariant : AnomalyInvariant records compared printed detector)
    (number : record.idx = detector.idx) {next : AnomalyDetector R}
    (history : next.history = push (contextBefore + 1) detector.history record)
    (counted : next.idx = detector.idx + 1) (last : next.lastPrintedIdx = record.idx)
    (own : ∃ anomaly ∈ compared ++ [record], InContext record anomaly)
    (covered : ∀ older ∈ compared, InContext older record → older ∈ printed)
    (window : PrintWindow (compared ++ [record]) record.idx next.printUntilIdx) :
    AnomalyInvariant (records ++ [record]) (compared ++ [record]) (printed ++ [record]) next := by
  have all := invariant.printing number history counted last invariant.behind le_rfl own
    (fun older member fromStart => absurd (invariant.number_lt member) (by omega))
    (fun older member context => Or.inl (covered older member context)) window
  rwa [← invariant.counted, List.drop_left] at all

/-- A step that prints nothing and compares nothing, or compares a record outside the window. -/
theorem silent (invariant : AnomalyInvariant records compared printed detector)
    (number : record.idx = detector.idx) {next : AnomalyDetector R}
    (history : next.history = push (contextBefore + 1) detector.history record)
    (counted : next.idx = detector.idx + 1)
    (last : next.lastPrintedIdx = detector.lastPrintedIdx)
    (until_ : next.printUntilIdx = detector.printUntilIdx) :
    AnomalyInvariant (records ++ [record]) compared printed next := by
  have behind := invariant.behind
  refine ⟨⟨invariant.numbered_concat number,
    invariant.prints.among.trans (List.sublist_append_left _ _),
    invariant.prints.inOrder.trans (List.sublist_append_left _ _),
    invariant.prints.complete, invariant.prints.restarted⟩, ?_, ?_, ?_, ?_, ?_, ?_⟩
  · rw [List.length_append, List.length_singleton, invariant.counted, counted]
  · rw [history, invariant.recent, push_rtake]
  · exact last ▸ invariant.started
  · omega
  · rw [last, List.take_append_of_le_length (by rw [invariant.counted]; omega)]
    exact invariant.printedUntil
  · rw [last, until_]
    exact invariant.window

/-- A record outside the window that is no anomaly. -/
theorem outside (invariant : AnomalyInvariant records compared printed detector)
    (number : record.idx = detector.idx) {next : AnomalyDetector R}
    (history : next.history = push (contextBefore + 1) detector.history record)
    (counted : next.idx = detector.idx + 1)
    (last : next.lastPrintedIdx = detector.lastPrintedIdx)
    (until_ : next.printUntilIdx = detector.printUntilIdx) (ordinary : record.anomaly = false)
    (closed : detector.printUntilIdx < record.idx) :
    AnomalyInvariant (records ++ [record]) (compared ++ [record]) printed next := by
  have quiet := invariant.silent number history counted last until_
  refine ⟨⟨quiet.prints.numbered, invariant.prints.among.append_right _, quiet.prints.inOrder,
    ?_, ?_⟩, quiet.counted, quiet.recent, quiet.started, quiet.behind, quiet.printedUntil, ?_⟩
  · intro older member
    rw [context_concat ordinary]
    obtain earlierOne | rfl := List.mem_append.mp member |>.imp_right List.mem_singleton.mp
    · exact invariant.prints.complete older earlierOne
    · refine ⟨fun already => ?_, ?_⟩
      · have below := invariant.number_lt (invariant.prints.inOrder.subset already)
        omega
      · rintro ⟨anomaly, found, flagged, -, near⟩
        obtain ⟨noAnomaly, -⟩ | ⟨latest, -, -, newest, -, -, ends⟩ := invariant.window
        · rw [noAnomaly anomaly found] at flagged
          cases flagged
        · have notNewer := newest anomaly found flagged
          omega
  · intro older member
    obtain compared | ⟨anomaly, found, context⟩ := invariant.prints.restarted older member
    · exact Or.inl (List.mem_append_left _ compared)
    · exact Or.inr ⟨anomaly, List.mem_append_left _ found, context⟩
  · rw [last, until_]
    exact invariant.window.ordinary ordinary le_rfl invariant.last_le_until

/-- What the main loop does with a record keeps the invariant. -/
theorem process (invariant : AnomalyInvariant records compared printed detector)
    (number : record.idx = detector.idx) (current : R × TimesyncReading R) :
    AnomalyInvariant (records ++ [record]) (compared ++ [record])
      (printed ++ (detector.process current record).2.printed)
      (detector.process current record).1 := by
  rw [AnomalyDetector.process]
  by_cases anomaly : record.anomaly = true
  · have own : ∃ anomaly ∈ compared ++ [record], InContext record anomaly :=
      ⟨record, List.mem_append_right _ (List.mem_singleton_self _), anomaly, by omega, by omega⟩
    have window : PrintWindow (compared ++ [record]) record.idx (record.idx + contextAfter) :=
      PrintWindow.anomaly anomaly fun older member =>
        (number ▸ invariant.number_lt (invariant.prints.among.subset member)).le
    rw [if_pos anomaly]
    by_cases fresh : detector.printUntilIdx < (record.idx : Int)
    · have last := invariant.last_le_until
      have started := invariant.started
      have behind := invariant.behind
      obtain ⟨start, isStart⟩ : ∃ start : Nat,
          max (detector.lastPrintedIdx + 1) ((record.idx : Int) - contextBefore) = start :=
        ⟨_, (Int.toNat_of_nonneg (by omega)).symm⟩
      rw [if_pos fresh]
      dsimp only [AnomalyOutput.printed]
      rw [isStart, invariant.history_filter number (by omega)]
      refine invariant.printing number rfl rfl rfl (by omega) (by omega) own ?_ ?_ window
      · intro older member fromStart
        have below := invariant.number_lt member
        exact ⟨anomaly, by omega, by omega⟩
      · intro older member context
        have close := context.2.1
        exact (invariant.covered number member context).imp_right fun afterwards => by omega
    · rw [if_neg fresh]
      refine invariant.printingOwn number rfl rfl rfl own ?_ window
      intro older member context
      have below := invariant.number_lt (invariant.prints.among.subset member)
      exact (invariant.covered number member context).resolve_right fun afterwards => by omega
  · have ordinary : record.anomaly = false := Bool.eq_false_iff.mpr anomaly
    rw [if_neg anomaly]
    by_cases within : (record.idx : Int) ≤ detector.printUntilIdx
    · rw [if_pos within]
      refine invariant.printingOwn number rfl rfl rfl ?_ ?_ ?_
      · obtain ⟨_, _, closed⟩ | ⟨latest, inside, flagged, _, _, _, ends⟩ := invariant.window
        · omega
        · have below := invariant.number_lt (invariant.prints.among.subset inside)
          exact ⟨latest, List.mem_append_left _ inside, flagged, by omega, by omega⟩
      · rintro older - ⟨flagged, -⟩
        exact absurd flagged anomaly
      · have behind := invariant.behind
        exact invariant.window.ordinary ordinary (by omega) within
    · rw [if_neg within]
      dsimp only [AnomalyOutput.printed]
      rw [List.append_nil]
      exact invariant.outside number rfl rfl rfl rfl ordinary (by omega)

theorem relock (invariant : AnomalyInvariant records compared printed detector)
    (lockedId : Option Int) :
    AnomalyInvariant records compared printed { detector with lockedId } :=
  ⟨invariant.prints, invariant.counted, invariant.recent, invariant.started, invariant.behind,
    invariant.printedUntil, invariant.window⟩

end AnomalyInvariant

/-- The main loop answers with the record it was given. -/
theorem AnomalyDetector.process_answer (detector : AnomalyDetector R)
    (current : R × TimesyncReading R) (record : AnomalyRecord R) :
    ∃ printed headline ended,
      (detector.process current record).2 = .recorded record printed headline ended := by
  rw [AnomalyDetector.process]
  split
  · split
    · exact ⟨_, _, _, rfl⟩
    · exact ⟨_, _, _, rfl⟩
  · split
    · exact ⟨_, _, _, rfl⟩
    · exact ⟨_, _, _, rfl⟩

theorem AnomalyDetector.process_kept (detector : AnomalyDetector R)
    (current : R × TimesyncReading R) (record : AnomalyRecord R) :
    (detector.process current record).1.lockedId = detector.lockedId ∧
      (detector.process current record).1.prev = some current := by
  rw [AnomalyDetector.process]
  split
  · split
    · exact ⟨rfl, rfl⟩
    · exact ⟨rfl, rfl⟩
  · split
    · exact ⟨rfl, rfl⟩
    · exact ⟨rfl, rfl⟩

/-- `AnomalyInvariant` for the outputs of a run. -/
def AnomalyHistory (outputs : List (AnomalyOutput R)) (detector : AnomalyDetector R) : Prop :=
  AnomalyInvariant (recordsOf outputs) (comparedOf outputs) (printedOf outputs) detector

theorem AnomalyHistory.process {outputs : List (AnomalyOutput R)} {detector : AnomalyDetector R}
    (history : AnomalyHistory outputs detector) {record : AnomalyRecord R}
    (number : record.idx = detector.idx) (current : R × TimesyncReading R) :
    AnomalyHistory (outputs ++ [(detector.process current record).2])
      (detector.process current record).1 := by
  obtain ⟨printed, headline, ended, answer⟩ := detector.process_answer current record
  have kept := AnomalyInvariant.process history number current
  rw [AnomalyHistory, recordsOf_concat, comparedOf_concat, printedOf_concat]
  rw [answer] at kept ⊢
  exact kept

theorem AnomalyHistory.receive [Field R] [LinearOrder R] [FloorRing R]
    {outputs : List (AnomalyOutput R)} {detector : AnomalyDetector R}
    (history : AnomalyHistory outputs detector) (current : R × TimesyncReading R) :
    AnomalyHistory (outputs ++ [(detector.receive current).2]) (detector.receive current).1 := by
  obtain ⟨localMs, reading⟩ := current
  have locked : AnomalyHistory outputs
      { detector with lockedId := some (detector.lockedId.getD reading.transponderId) } :=
    AnomalyInvariant.relock history _
  rw [AnomalyDetector.receive]
  dsimp only
  split
  · rw [AnomalyHistory, recordsOf_concat, comparedOf_concat, printedOf_concat]
    dsimp only [AnomalyOutput.record, AnomalyOutput.compared, AnomalyOutput.printed, Option.toList]
    rw [List.append_nil, List.append_nil, List.append_nil]
    exact locked
  · split
    · exact locked.process rfl _
    · split
      · rw [AnomalyHistory, recordsOf_concat, comparedOf_concat, printedOf_concat]
        dsimp only [AnomalyOutput.record, AnomalyOutput.compared, AnomalyOutput.printed,
          Option.toList]
        rw [List.append_nil, List.append_nil]
        exact AnomalyInvariant.silent locked rfl rfl rfl rfl rfl
      · exact locked.process rfl _

theorem AnomalyHistory.initial (lockedId : Option Int) :
    AnomalyHistory [] (AnomalyDetector.initial lockedId : AnomalyDetector R) := by
  refine ⟨⟨fun _ _ found => ?_, List.Sublist.refl _, List.Sublist.refl _,
    fun _ member => ?_, fun _ member => ?_⟩, rfl, rfl, le_rfl, ?_, List.nil_sublist _,
    Or.inl ⟨fun _ member => ?_, rfl, rfl⟩⟩
  · cases found
  · cases member
  · cases member
  · exact neg_one_lt_zero
  · cases member

/-- The detector prints the contexts of the anomalies and nothing else. -/
theorem anomaly_contexts [Field R] [LinearOrder R] [FloorRing R] (lockedId : Option Int)
    (messages : List (R × TimesyncReading R)) :
    let outputs := answers AnomalyDetector.receive (AnomalyDetector.initial lockedId) messages
    PrintsContexts (recordsOf outputs) (comparedOf outputs) (printedOf outputs) := by
  have history : AnomalyHistory
      (answers AnomalyDetector.receive (AnomalyDetector.initial lockedId) messages)
      (exec AnomalyDetector.receive (AnomalyDetector.initial lockedId) messages) :=
    answers_invariant (fun _ => AnomalyHistory)
      (fun _ outputs detector current history => history.receive current)
      (AnomalyHistory.initial lockedId) messages
  exact AnomalyInvariant.prints history

/-! ### The closest rollover -/

section Rollover

variable [Field R] [LinearOrder R] [IsStrictOrderedRing R] [FloorRing R]

theorem abs_sub_roundHalfEven (x : R) : |x - (roundHalfEven x : R)| ≤ 1 / 2 := by
  have half : (0.5 : R) = 1 / 2 := by norm_num
  have below := Int.floor_le x
  have above := Int.lt_floor_add_one x
  rw [roundHalfEven, half, abs_le]
  split
  · constructor <;> linarith
  · split
    · push_cast
      constructor <;> linarith
    · split
      · constructor <;> linarith
      · push_cast
        constructor <;> linarith

/-- No integer is closer than the rounded number. -/
theorem roundHalfEven_closest (x : R) (other : Int) :
    |x - (roundHalfEven x : R)| ≤ |x - (other : R)| := by
  obtain same | apart := eq_or_ne (roundHalfEven x) other
  · rw [same]
  · have near := abs_sub_roundHalfEven x
    have gap : (1 : R) ≤ |(roundHalfEven x : R) - (other : R)| := by
      have positive : 1 ≤ |roundHalfEven x - other| := Int.one_le_abs (sub_ne_zero.mpr apart)
      exact_mod_cast positive
    have triangle := abs_sub_le (roundHalfEven x : R) x (other : R)
    rw [abs_sub_comm (roundHalfEven x : R) x] at triangle
    linarith

/-- The increment that `unwrap_tc_delta` finds disagrees the least with the decoder. -/
theorem unwrapTcDelta_closest (rawDelta rollovers : Int) (decoderDeltaMs : R) :
    |decoderDeltaMs - unwrapTcDelta rawDelta decoderDeltaMs| ≤
      |decoderDeltaMs - ((rawDelta + rollovers * timecodeWrap : Int) : R) / ((10 : Nat) : R)| := by
  have wrapPositive : (0 : R) < (timecodeWrap : R) := by
    rw [timecodeWrap_eq]
    norm_num
  have apart : ∀ k : Int,
      decoderDeltaMs - ((rawDelta + k * timecodeWrap : Int) : R) / ((10 : Nat) : R) =
        (timecodeWrap : R) / 10 *
          ((decoderDeltaMs * ((10 : Nat) : R) - (rawDelta : R)) / (timecodeWrap : R) -
            (k : R)) := by
    intro k
    push_cast
    field_simp
    ring
  rw [unwrapTcDelta, apart, apart, abs_mul, abs_mul]
  exact mul_le_mul_of_nonneg_left (roundHalfEven_closest _ _) (abs_nonneg _)

/-- An increment counts as an anomaly exactly if the clocks disagree. -/
theorem disagree_iff (before now : TimesyncReading R) :
    anomalyMs < |now.decoderMs - before.decoderMs -
        unwrapTcDelta (now.rawTicks - before.rawTicks) (now.decoderMs - before.decoderMs)| ↔
      ClocksDisagree before now := by
  refine ⟨fun beyond rollovers => ?_, fun disagree => disagree _⟩
  exact beyond.trans_le (unwrapTcDelta_closest _ rollovers _)

end Rollover

/-! ### Which records are anomalies -/

theorem ownMessages_concat (lockedId : Option Int) (messages : List (R × TimesyncReading R))
    (message : R × TimesyncReading R) :
    ownMessages lockedId (messages ++ [message]) =
      ownMessages lockedId messages ++
        if message.2.transponderId =
            (lockedTo lockedId (messages.map Prod.snd)).getD message.2.transponderId
        then [message.2] else [] := by
  rw [ownMessages, List.map_append, List.map_singleton, ownReadings_concat, ownMessages]

namespace JudgesMessages

variable [Field R] [LinearOrder R] {own : List (TimesyncReading R)}
  {records compared : List (AnomalyRecord R)} {record : AnomalyRecord R}

/-- One more record, which is behind the last one. -/
theorem concat (judges : JudgesMessages own records compared) {compared' : List (AnomalyRecord R)}
    (kept : ∀ older ∈ records, (older ∈ compared' ↔ older ∈ compared))
    (first : records = [] → record ∈ compared' ∧ record.anomaly = false)
    (later : ∀ before, records.getLast? = some before → JudgesPair compared' before record) :
    JudgesMessages (own ++ [record.raw]) (records ++ [record]) compared' := by
  refine ⟨by rw [List.map_append, judges.recorded]; rfl, ?_, ?_⟩
  · intro other found
    cases records with
    | nil =>
      obtain rfl := Option.some.inj found
      exact first rfl
    | cons head rest =>
      obtain rfl := Option.some.inj found
      obtain ⟨isCompared, ordinary⟩ := judges.first head rfl
      exact ⟨(kept head List.mem_cons_self).mpr isCompared, ordinary⟩
  · intro i before other foundBefore found
    have inside : i + 1 < records.length + 1 := by
      have bound := (List.getElem?_eq_some_iff.mp found).1
      rwa [List.length_append, List.length_singleton] at bound
    rw [List.getElem?_append_left (by omega)] at foundBefore
    rcases Nat.lt_or_ge (i + 1) records.length with old | new
    · rw [List.getElem?_append_left old] at found
      obtain ⟨isCompared, anomaly⟩ := judges.later i before other foundBefore found
      exact ⟨(kept other (List.mem_of_getElem? found)).trans isCompared, anomaly⟩
    · rw [List.getElem?_append_right new, show i + 1 - records.length = 0 by omega] at found
      obtain rfl := Option.some.inj found
      refine later before ?_
      rw [List.getLast?_eq_getElem?, ← foundBefore]
      congr 1
      omega

end JudgesMessages

/-- What ties the detector to the messages it was given. -/
structure AnomalyJudgement [Field R] [LinearOrder R] [FloorRing R] (lockedId : Option Int)
    (messages : List (R × TimesyncReading R)) (outputs : List (AnomalyOutput R))
    (detector : AnomalyDetector R) : Prop where
  history : AnomalyHistory outputs detector
  locked : detector.lockedId = lockedTo lockedId (messages.map Prod.snd)
  previous : detector.prev.map Prod.snd = (recordsOf outputs).getLast?.map AnomalyRecord.raw
  judges : JudgesMessages (ownMessages lockedId messages) (recordsOf outputs) (comparedOf outputs)

namespace AnomalyJudgement

variable [Field R] [LinearOrder R] [FloorRing R] {lockedId : Option Int}
  {messages : List (R × TimesyncReading R)} {outputs : List (AnomalyOutput R)}
  {detector next : AnomalyDetector R} {record : AnomalyRecord R} {output : AnomalyOutput R}
  {message : R × TimesyncReading R}

/-- A message of the transponder, whose record is compared or marks a restart. -/
theorem own (judgement : AnomalyJudgement lockedId messages outputs detector)
    (kept : AnomalyHistory (outputs ++ [output]) next)
    (isOwn : message.2.transponderId =
      (lockedTo lockedId (messages.map Prod.snd)).getD message.2.transponderId)
    (locked : next.lockedId = lockedTo lockedId ((messages ++ [message]).map Prod.snd))
    (previous : next.prev = some message) (recorded : output.record = some record)
    (raw : record.raw = message.2) (number : record.idx = detector.idx)
    (isCompared : output.compared = none ∨ output.compared = some record)
    (first : detector.prev = none → output.compared = some record ∧ record.anomaly = false)
    (later : ∀ before, detector.prev.map Prod.snd = some before →
      (output.compared = some record ↔ before.decoderMs ≤ record.raw.decoderMs) ∧
      (record.anomaly = true ↔
        before.decoderMs ≤ record.raw.decoderMs ∧ ClocksDisagree before record.raw)) :
    AnomalyJudgement lockedId (messages ++ [message]) (outputs ++ [output]) next := by
  have older : ∀ other ∈ recordsOf outputs, other ≠ record := by
    rintro other member rfl
    have below := judgement.history.number_lt member
    omega
  have isMember : record ∈ comparedOf (outputs ++ [output]) ↔ output.compared = some record := by
    rw [comparedOf_concat, List.mem_append, Option.mem_toList, or_iff_right]
    exact fun member => older record (judgement.history.prints.among.subset member) rfl
  refine ⟨kept, locked, ?_, ?_⟩
  · rw [previous, recordsOf_concat, recorded, Option.toList_some, List.getLast?_concat,
      Option.map_some, Option.map_some, raw]
  · rw [ownMessages_concat, if_pos isOwn, ← raw, recordsOf_concat, recorded, Option.toList_some]
    refine judgement.judges.concat ?_ ?_ ?_
    · intro other member
      rw [comparedOf_concat, List.mem_append, Option.mem_toList, or_iff_left]
      obtain none_ | some_ := isCompared
      · rw [none_]
        nofun
      · rw [some_]
        exact fun same => older other member (Option.some.inj same).symm
    · intro empty
      have previous := judgement.previous
      rw [empty] at previous
      rw [isMember]
      exact first (Option.map_eq_none_iff.mp previous)
    · intro before last
      have previous := judgement.previous
      rw [last] at previous
      rw [JudgesPair, isMember]
      exact later before.raw previous

/-- A message whose record goes through the main loop. -/
theorem processed (judgement : AnomalyJudgement lockedId messages outputs detector)
    (isOwn : message.2.transponderId =
      (lockedTo lockedId (messages.map Prod.snd)).getD message.2.transponderId)
    (raw : record.raw = message.2) (number : record.idx = detector.idx)
    (first : detector.prev = none → record.anomaly = false)
    (later : ∀ before, detector.prev.map Prod.snd = some before →
      before.decoderMs ≤ record.raw.decoderMs ∧
      (record.anomaly = true ↔ ClocksDisagree before record.raw)) :
    AnomalyJudgement lockedId (messages ++ [message])
      (outputs ++ [(AnomalyDetector.process
        { detector with lockedId := lockedTo lockedId ((messages ++ [message]).map Prod.snd) }
        message record).2])
      (AnomalyDetector.process
        { detector with lockedId := lockedTo lockedId ((messages ++ [message]).map Prod.snd) }
        message record).1 := by
  have relocked : AnomalyHistory outputs
      { detector with lockedId := lockedTo lockedId ((messages ++ [message]).map Prod.snd) } :=
    AnomalyInvariant.relock judgement.history _
  obtain ⟨locked, previous⟩ := AnomalyDetector.process_kept
    { detector with lockedId := lockedTo lockedId ((messages ++ [message]).map Prod.snd) }
    message record
  obtain ⟨printed, headline, ended, answer⟩ := AnomalyDetector.process_answer
    { detector with lockedId := lockedTo lockedId ((messages ++ [message]).map Prod.snd) }
    message record
  have compared := congrArg AnomalyOutput.compared answer
  refine judgement.own (relocked.process number message) isOwn locked previous
    (congrArg AnomalyOutput.record answer) raw number (Or.inr compared)
    (fun none_ => ⟨compared, first none_⟩) ?_
  intro before found
  obtain ⟨ordered, anomaly⟩ := later before found
  exact ⟨iff_of_true compared ordered,
    anomaly.trans (and_iff_right_of_imp fun _ => ordered).symm⟩

theorem receive [IsStrictOrderedRing R]
    (judgement : AnomalyJudgement lockedId messages outputs detector)
    (message : R × TimesyncReading R) :
    AnomalyJudgement lockedId (messages ++ [message]) (outputs ++ [(detector.receive message).2])
      (detector.receive message).1 := by
  have kept := judgement.history.receive message
  obtain ⟨localMs, reading⟩ := message
  have locked : some (detector.lockedId.getD reading.transponderId) =
      lockedTo lockedId ((messages ++ [(localMs, reading)]).map Prod.snd) := by
    rw [List.map_append, List.map_singleton, lockedTo_concat, judgement.locked]
  rw [AnomalyDetector.receive] at kept ⊢
  dsimp only at kept ⊢
  rw [locked] at kept ⊢
  by_cases isOwn : reading.transponderId = detector.lockedId.getD reading.transponderId
  · rw [if_neg (not_not_intro isOwn)] at kept ⊢
    rw [judgement.locked] at isOwn
    cases previous : detector.prev with
    | none =>
      exact judgement.processed isOwn rfl rfl (fun _ => rfl) (fun _ found => by
        rw [previous] at found
        cases found)
    | some before =>
      obtain ⟨prevMs, prevReading⟩ := before
      rw [previous] at kept
      dsimp only at kept ⊢
      by_cases backwards : reading.decoderMs - prevReading.decoderMs < 0
      · rw [if_pos backwards] at kept ⊢
        refine judgement.own kept isOwn rfl rfl rfl rfl rfl (Or.inl rfl) (fun none_ => ?_) ?_
        · rw [previous] at none_
          cases none_
        · intro other found
          rw [previous] at found
          obtain rfl := Option.some.inj found
          have disordered : ¬prevReading.decoderMs ≤ reading.decoderMs :=
            not_le.mpr (sub_neg.mp backwards)
          exact ⟨iff_of_false nofun disordered, iff_of_false nofun fun both => disordered both.1⟩
      · rw [if_neg backwards]
        refine judgement.processed isOwn rfl rfl (fun none_ => ?_) fun other found => ?_
        · rw [previous] at none_
          cases none_
        · rw [previous] at found
          obtain rfl := Option.some.inj found
          exact ⟨sub_nonneg.mp (not_lt.mp backwards),
            decide_eq_true_iff.trans (disagree_iff prevReading reading)⟩
  · rw [if_pos isOwn] at kept ⊢
    rw [judgement.locked] at isOwn
    refine ⟨kept, rfl, ?_, ?_⟩
    · rw [recordsOf_concat]
      dsimp only [AnomalyOutput.record, Option.toList]
      rw [List.append_nil]
      exact judgement.previous
    · rw [ownMessages_concat, if_neg isOwn, recordsOf_concat, comparedOf_concat]
      dsimp only [AnomalyOutput.record, AnomalyOutput.compared, Option.toList]
      rw [List.append_nil, List.append_nil, List.append_nil]
      exact judgement.judges

theorem initial (lockedId : Option Int) :
    AnomalyJudgement lockedId [] [] (AnomalyDetector.initial lockedId : AnomalyDetector R) :=
  ⟨AnomalyHistory.initial lockedId, (Option.or_none).symm, rfl, ⟨rfl, nofun, nofun⟩⟩

end AnomalyJudgement

/-- The detector records the messages of its transponder, compares those where the decoder's
clock did not go backwards, and finds an anomaly where the clocks disagree. -/
theorem anomaly_disagreements [Field R] [LinearOrder R] [IsStrictOrderedRing R] [FloorRing R]
    (lockedId : Option Int) (messages : List (R × TimesyncReading R)) :
    let outputs := answers AnomalyDetector.receive (AnomalyDetector.initial lockedId) messages
    JudgesMessages (ownMessages lockedId messages) (recordsOf outputs) (comparedOf outputs) := by
  have judgement : AnomalyJudgement lockedId messages
      (answers AnomalyDetector.receive (AnomalyDetector.initial lockedId) messages)
      (exec AnomalyDetector.receive (AnomalyDetector.initial lockedId) messages) :=
    answers_invariant (AnomalyJudgement lockedId)
      (fun _ _ _ message judgement => judgement.receive message)
      (AnomalyJudgement.initial lockedId) messages
  exact judgement.judges

/-- At three messages, the second of another transponder, and the clock of the third a second
behind. -/
theorem anomaly_disagreements_three :
    let outputs := answers AnomalyDetector.receive
      (AnomalyDetector.initial none : AnomalyDetector ℚ)
      [(0, ⟨1000, 5, 1048570⟩), (100, ⟨1100, 6, 7⟩), (2000, ⟨3000, 5, 9994⟩)]
    JudgesMessages
      (ownMessages none
        [(0, ⟨1000, 5, 1048570⟩), (100, ⟨1100, 6, 7⟩), ((2000 : ℚ), ⟨3000, 5, 9994⟩)])
      (recordsOf outputs) (comparedOf outputs) :=
  anomaly_disagreements none
    [(0, ⟨1000, 5, 1048570⟩), (100, ⟨1100, 6, 7⟩), (2000, ⟨3000, 5, 9994⟩)]

end OpenStint
