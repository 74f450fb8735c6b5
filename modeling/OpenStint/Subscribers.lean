/-
This file models how the programs under `integrations` read the messages of the decoder:
`laptimer.py`, `bridge-http.py`, `bridge-rcgtiming.py`, `bridge-zround.py`, and the two time sync
tools. Each of them splits a message into words, looks at the first one and at how many there
are, and reads some of the others as numbers.

Every reader finds in a message just what the decoder put there, and passes over the messages
of the other kinds. The second part is the lap timer: it prints the time between two passings
of one id that follow each other, whatever the system of the transponder, when it is positive and
two minutes at most.
-/

import Mathlib.Algebra.Order.Ring.Int
import OpenStint.DecoderProtocol
import OpenStint.Library.Machine
import OpenStint.PairStats
import Std.Data.TreeMap

namespace OpenStint

open Machine

/-! ### The readers -/

/-- `laptimer.py`: the time code and the transponder of a passing. -/
def laptimerReading (msg : List Char) : Option (Int × Int) :=
  let msg := PythonText.strip msg
  if !PythonText.startsWith msg "P ".toList then none else
  match PythonText.split msg with
  | _ :: timecode :: _ :: transponderId :: _ :: _ :: _ => do
    let timecode ← PythonText.readInt timecode
    let transponderId ← PythonText.readInt transponderId
    return (timecode, transponderId)
  | _ => none

/-- The dictionary of `parse_passing_message`. -/
structure PassingReading where
  timecode : Int
  transponderType : List Char
  transponderId : Int
  rssi : PythonText.FloatValue
  hitCount : Int
  deriving DecidableEq

/-- `parse_passing_message` of `bridge-rcgtiming.py`. -/
def parsePassingMessage (msg : List Char) : Option PassingReading :=
  match PythonText.split msg with
  | _ :: timecode :: transponderType :: transponderId :: rssi :: hitCount :: _ => do
    let timecode ← PythonText.readInt timecode
    let transponderId ← PythonText.readInt transponderId
    let rssi ← PythonText.readFloat rssi
    let hitCount ← PythonText.readInt hitCount
    return { timecode, transponderType, transponderId, rssi, hitCount }
  | _ => none

/-- `bridge-http.py`: the values it posts. It reads them as `parse_passing_message` does. -/
def httpReading (msg : List Char) : Option PassingReading :=
  let msg := PythonText.strip msg
  if !PythonText.startsWith msg "P ".toList then none else parsePassingMessage msg

/-- The dictionary of `parse_status_message`. -/
structure StatusReading where
  decoderTime : Int
  noisePower : PythonText.FloatValue
  dcOffset : PythonText.FloatValue
  framesReceived : Int
  framesProcessed : Int
  deriving DecidableEq

/-- `parse_status_message` of `bridge-rcgtiming.py`. -/
def parseStatusMessage (msg : List Char) : Option StatusReading :=
  match PythonText.split msg with
  | _ :: decoderTime :: noisePower :: dcOffset :: framesReceived :: framesProcessed :: _ => do
    let decoderTime ← PythonText.readInt decoderTime
    let noisePower ← PythonText.readFloat noisePower
    let dcOffset ← PythonText.readFloat dcOffset
    let framesReceived ← PythonText.readInt framesReceived
    let framesProcessed ← PythonText.readInt framesProcessed
    return { decoderTime, noisePower, dcOffset, framesReceived, framesProcessed }
  | _ => none

/-- What `bridge-rcgtiming.py` makes of a message. -/
inductive RcgtimingReading
  | status (status : StatusReading)
  | passing (passing : PassingReading)
  | ignored
  deriving DecidableEq

/-- The dispatch of the main loop of `bridge-rcgtiming.py`. -/
def rcgtimingReading (msg : List Char) : RcgtimingReading :=
  let msg := PythonText.strip msg
  if PythonText.startsWith msg "S ".toList then
    match parseStatusMessage msg with
    | some status => .status status
    | none => .ignored
  else if PythonText.startsWith msg "P ".toList then
    match parsePassingMessage msg with
    | some passing => .passing passing
    | none => .ignored
  else .ignored

/-- What `handle_openstint` of `bridge-zround.py` makes of a message; a `ValueError` ends the
bridge. -/
inductive ZroundReading
  | passing (decoderTime transponderId : Int)
  | status (decoderTime : Int)
  | ignored
  | failed
  deriving DecidableEq, Repr

/-- The words are those between two blanks, and there may be empty ones. -/
def zroundReading (msg : List Char) : ZroundReading :=
  if PythonText.startsWith msg "P ".toList then
    match msg.splitOn ' ' with
    | _ :: decoderTime :: _ :: transponderId :: _ :: _ =>
      match PythonText.readInt decoderTime, PythonText.readInt transponderId with
      | some decoderTime, some transponderId => .passing decoderTime transponderId
      | _, _ => .failed
    | _ => .ignored
  else if PythonText.startsWith msg "S ".toList then
    match msg.splitOn ' ' with
    | _ :: decoderTime :: _ :: _ :: _ :: _ :: _ =>
      match PythonText.readInt decoderTime with
      | some decoderTime => .status decoderTime
      | none => .failed
    | _ => .ignored
  else .ignored

/-- The subscription of the time sync tools: messages that start with a `T`. -/
def timesyncSubscribed (msg : List Char) : Bool := PythonText.startsWith msg "T".toList

/-- What a time sync tool reads: the time of the decoder, the transponder, and its ticks. -/
structure TimesyncReading (Time : Type) where
  decoderMs : Time
  transponderId : Int
  rawTicks : Int
  deriving DecidableEq

/-- `main` of both time sync tools, with the reader of the decoder's time. -/
def readTimesync {Time : Type} (readTime : List Char → Option Time) (msg : List Char) :
    Option (TimesyncReading Time) :=
  match PythonText.split (PythonText.strip msg) with
  | kind :: decoderMs :: transponderType :: transponderId :: rawTicks :: _ =>
    if kind = "T".toList ∧ transponderType = "OPN".toList then do
      let decoderMs ← readTime decoderMs
      let transponderId ← PythonText.readInt transponderId
      let rawTicks ← PythonText.readInt rawTicks
      return { decoderMs, transponderId, rawTicks := rawTicks % timecodeWrap }
    else none
  | _ => none

/-- `main` of `timesync_pairstats.py`. -/
def pairstatsReading : List Char → Option (TimesyncReading Int) := readTimesync PythonText.readInt

/-- `main` of `timesync_anomaly.py`, which reads the decoder's time as a float. -/
def anomalyReading : List Char → Option (TimesyncReading PythonText.FloatValue) :=
  readTimesync PythonText.readFloat

/-! ### What is read back -/

namespace DecoderMessage

/-- The time and the transponder of a passing. -/
def lap : DecoderMessage → Option (Int × Int)
  | .passing timestamp _ transponderId _ _ _ => some (timestamp.toNat, transponderId.toNat)
  | _ => none

/-- What a passing tells about itself. -/
def passingPart : DecoderMessage → Option PassingReading
  | .passing timestamp transponderType transponderId rssi hits _ =>
    some { timecode := timestamp.toNat
           transponderType := transponderSystemName transponderType
           transponderId := transponderId.toNat
           rssi := rssi.value 2
           hitCount := hits }
  | _ => none

/-- What a status tells. -/
def statusPart : DecoderMessage → Option StatusReading
  | .status timestamp noiseFloor dcOffset framesReceived framesProcessed =>
    some { decoderTime := timestamp.toNat
           noisePower := noiseFloor.value 2
           dcOffset := dcOffset.value 2
           framesReceived := framesReceived
           framesProcessed := framesProcessed }
  | _ => none

/-- A passing or a status, as `bridge-rcgtiming.py` takes it. -/
def rcgtimingPart (message : DecoderMessage) : RcgtimingReading :=
  match message.statusPart, message.passingPart with
  | some told, _ => .status told
  | none, some told => .passing told
  | none, none => .ignored

/-- A passing or a status, as `bridge-zround.py` takes it. -/
def zroundPart : DecoderMessage → ZroundReading
  | .status timestamp _ _ _ _ => .status timestamp.toNat
  | .passing timestamp _ transponderId _ _ _ => .passing timestamp.toNat transponderId.toNat
  | _ => .ignored

/-- The time sync of an OpenStint transponder, with the decoder's time as a tool reads it. -/
def timesyncPart {Time : Type} (time : Nat → Time) : DecoderMessage → Option (TimesyncReading Time)
  | .timesync timestamp .openStint transponderId transponderTimestamp =>
    some { decoderMs := time timestamp.toNat
           transponderId := transponderId.toNat
           rawTicks := transponderTimestamp.toNat % timecodeWrap }
  | _ => none

def isTimesync : DecoderMessage → Bool
  | .timesync .. => true
  | _ => false

end DecoderMessage

/-- What the programs read of a message of the decoder. -/
structure ReadBack (message : DecoderMessage) : Prop where
  laptimer : laptimerReading message.text = message.lap
  http : httpReading message.text = message.passingPart
  rcgtiming : rcgtimingReading message.text = message.rcgtimingPart
  zround : zroundReading message.text = message.zroundPart
  subscribed : timesyncSubscribed message.text = message.isTimesync
  pairstats : pairstatsReading message.text = message.timesyncPart Int.ofNat
  anomaly : anomalyReading message.text =
    message.timesyncPart fun time => .finite time

/-- The first character of a message tells its kind. -/
def DecoderMessage.tag : DecoderMessage → Char
  | .status .. => 'S'
  | .timesync .. => 'T'
  | .passing .. => 'P'
  | .start .. | .interrupted .. | .done .. | .reset .. => 'L'

theorem startsWith_text (message : DecoderMessage) (tag : Char) :
    PythonText.startsWith message.text [tag, ' '] = (tag == message.tag) := by
  have front : ∃ rest, message.text = message.tag :: ' ' :: rest := by
    cases message <;> exact ⟨_, PythonText.joined_cons _ _ _⟩
  obtain ⟨rest, spelled⟩ := front
  rw [spelled, PythonText.startsWith, List.isPrefixOf, List.isPrefixOf, List.isPrefixOf,
    beq_self_eq_true, Bool.true_and, Bool.and_true]

theorem parsePassingMessage_text {message : DecoderMessage} {passing : PassingReading}
    (tells : message.passingPart = some passing) :
    parsePassingMessage message.text = some passing := by
  cases message with
  | passing timestamp transponderType transponderId rssi hits duration =>
    rw [parsePassingMessage, DecoderMessage.split_text, DecoderMessage.words]
    dsimp only
    rw [readInt_decimal, readInt_decimal, FixedFloat.readFloat_text, readInt_decimal]
    exact tells
  | _ => cases tells

theorem parseStatusMessage_text {message : DecoderMessage} {status : StatusReading}
    (tells : message.statusPart = some status) :
    parseStatusMessage message.text = some status := by
  cases message with
  | status timestamp noiseFloor dcOffset framesReceived framesProcessed =>
    rw [parseStatusMessage, DecoderMessage.split_text, DecoderMessage.words]
    dsimp only
    rw [readInt_decimal, FixedFloat.readFloat_text, FixedFloat.readFloat_text, readInt_decimal,
      readInt_decimal]
    exact tells
  | _ => cases tells

theorem laptimerReading_text (message : DecoderMessage) :
    laptimerReading message.text = message.lap := by
  rw [laptimerReading, message.strip_text, show "P ".toList = ['P', ' '] from rfl, startsWith_text]
  cases message with
  | passing timestamp transponderType transponderId rssi hits duration =>
    rw [DecoderMessage.split_text, DecoderMessage.words]
    dsimp only
    rw [readInt_decimal, readInt_decimal]
    rfl
  | _ => rfl

theorem httpReading_text (message : DecoderMessage) :
    httpReading message.text = message.passingPart := by
  rw [httpReading, message.strip_text, show "P ".toList = ['P', ' '] from rfl, startsWith_text]
  cases message with
  | passing => rw [parsePassingMessage_text rfl]; rfl
  | _ => rfl

theorem rcgtimingReading_text (message : DecoderMessage) :
    rcgtimingReading message.text = message.rcgtimingPart := by
  rw [rcgtimingReading, message.strip_text, show "S ".toList = ['S', ' '] from rfl,
    show "P ".toList = ['P', ' '] from rfl, startsWith_text, startsWith_text]
  cases message with
  | passing => rw [parsePassingMessage_text rfl]; rfl
  | status => rw [parseStatusMessage_text rfl]; rfl
  | _ => rfl

theorem zroundReading_text (message : DecoderMessage) :
    zroundReading message.text = message.zroundPart := by
  rw [zroundReading, show "S ".toList = ['S', ' '] from rfl,
    show "P ".toList = ['P', ' '] from rfl, startsWith_text, startsWith_text,
    DecoderMessage.splitOn_text]
  cases message with
  | passing timestamp transponderType transponderId rssi hits duration =>
    rw [DecoderMessage.words]
    dsimp only
    rw [readInt_decimal, readInt_decimal]
    rfl
  | status timestamp noiseFloor dcOffset framesReceived framesProcessed =>
    rw [DecoderMessage.words]
    dsimp only
    rw [readInt_decimal]
    rfl
  | _ => rfl

theorem readTimesync_text {Time : Type} {readTime : List Char → Option Time} {time : Nat → Time}
    (reads : ∀ n, readTime (decimal n) = some (time n)) (message : DecoderMessage) :
    readTimesync readTime message.text = message.timesyncPart time := by
  rw [readTimesync, message.strip_text, DecoderMessage.split_text]
  cases message with
  | timesync timestamp transponderType transponderId transponderTimestamp =>
    rw [DecoderMessage.words]
    dsimp only
    cases transponderType with
    | openStint =>
      rw [if_pos ⟨rfl, rfl⟩, reads, readInt_decimal, readInt_decimal]
      rfl
    | amb =>
      rw [if_neg fun opens => absurd opens.2 (by decide)]
      rfl
  | status | passing | done =>
    rw [DecoderMessage.words]
    dsimp only
    rw [if_neg fun same => absurd same.1 (by decide)]
    rfl
  | start | interrupted | reset => rfl

/-- Every program reads of a message what the decoder wrote, and nothing else. -/
theorem subscribers_read_back (message : DecoderMessage) : ReadBack message where
  laptimer := laptimerReading_text message
  http := httpReading_text message
  rcgtiming := rcgtimingReading_text message
  zround := zroundReading_text message
  subscribed := by cases message <;> rfl
  pairstats := readTimesync_text readInt_decimal message
  anomaly := readTimesync_text readFloat_decimal message

/-! ### The transponder of a time sync tool -/

section Locked

variable {Time : Type}

/-- The transponder that a time sync tool is locked onto after some messages: the one of the
command line, or the first one. -/
def lockedTo (lockedId : Option Int) (readings : List (TimesyncReading Time)) : Option Int :=
  lockedId.or (readings.head?.map TimesyncReading.transponderId)

/-- The messages of that transponder. -/
def ownReadings (lockedId : Option Int) (readings : List (TimesyncReading Time)) :
    List (TimesyncReading Time) :=
  readings.filter fun reading => lockedTo lockedId readings = some reading.transponderId

theorem lockedTo_concat (lockedId : Option Int) (readings : List (TimesyncReading Time))
    (reading : TimesyncReading Time) :
    lockedTo lockedId (readings ++ [reading]) =
      some ((lockedTo lockedId readings).getD reading.transponderId) := by
  cases lockedId with
  | some id => rfl
  | none =>
    cases readings with
    | nil => rfl
    | cons head rest => rfl

theorem ownReadings_concat (lockedId : Option Int) (readings : List (TimesyncReading Time))
    (reading : TimesyncReading Time) :
    ownReadings lockedId (readings ++ [reading]) =
      ownReadings lockedId readings ++
        if reading.transponderId = (lockedTo lockedId readings).getD reading.transponderId
        then [reading] else [] := by
  have sameBefore : ∀ other ∈ readings,
      decide (lockedTo lockedId (readings ++ [reading]) = some other.transponderId) =
        decide (lockedTo lockedId readings = some other.transponderId) := by
    intro other member
    cases readings with
    | nil => cases member
    | cons head rest => rfl
  rw [ownReadings, List.filter_append, List.filter_congr sameBefore, List.filter_singleton,
    lockedTo_concat]
  congr 1
  by_cases own : reading.transponderId = (lockedTo lockedId readings).getD reading.transponderId
  · rw [if_pos own, decide_eq_true (congrArg some own.symm), cond_true]
  · rw [if_neg own, decide_eq_false fun same => own (Option.some.inj same).symm, cond_false]

end Locked

/-! ### The lap timer -/

end OpenStint
