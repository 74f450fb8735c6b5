/-
This file proves that no sample is lost or read twice between the receive buffers. The
detector is given the symbols of the stream one after another until it finds a frame; the
frame takes the symbols behind the one it was found at, to the end of its payload, and the
detector goes on with the next. A frame is read from 16 symbols before its detection on, in
order, wherever the buffers end.

The detector is any machine, so all of this holds for every pattern of its answers. What it
is given and what it answers is put on record, which changes nothing else.
-/

import OpenStint.DetectorRuns

namespace OpenStint

open Machine

variable {R : Type} {samplesPerSymbol : Nat}

/-! ### What holds of every run -/

/-- A receive buffer: whole symbols, enough of them for the reserve, and no more samples than
an `int` counts. -/
structure ReceiveBuffer (samplesPerSymbol : Nat) where
  samples : List Sample
  whole : samplesPerSymbol ∣ samples.length
  enough : reserveBufferSize samplesPerSymbol ≤ samples.length
  short : samples.length < indexLimit

/-- A call of `detect_frames`: the time it reads, and the buffer. -/
abbrev Call (samplesPerSymbol : Nat) := UInt64 × ReceiveBuffer samplesPerSymbol

def Receiver.receive [Field R] {platform : Platform R} {baseband : Baseband R samplesPerSymbol}
    (receiver : Receiver platform baseband) (call : Call samplesPerSymbol) :
    Option (Receiver platform baseband × CallReport R samplesPerSymbol) :=
  receiver.detectFrames (call.1, call.2.samples)

/-- The stream is what the buffers hold in a row. -/
def streamOf (calls : List (Call samplesPerSymbol)) : List Sample :=
  calls.flatMap fun call => call.2.samples

/-- A symbol of the stream that the detector was given, and its answer. -/
structure Search (R : Type) where
  place : Nat
  answer : Option (DetectionResult R)

/-- The symbols that are used up by a search: those of the frame, when it found one. -/
def Search.symbols (search : Search R) : List Nat :=
  match search.answer with
  | none => [search.place]
  | some result => List.range' search.place ((transponderProps result.1).payloadSize + 4)

/-- The detector, with a record of the symbols it was given and of its answers. -/
def Baseband.recorded (baseband : Baseband R samplesPerSymbol) : Baseband R samplesPerSymbol where
  Detector := baseband.Detector × List (Symbol samplesPerSymbol × Option (DetectionResult R))
  initial := (baseband.initial, [])
  processBaseband := fun detector symbol =>
    let answer := baseband.processBaseband detector.1 symbol
    ((answer.1, detector.2 ++ [(symbol, answer.2)]), answer.2)
  updateStatistics := Prod.map baseband.updateStatistics id
  resetStatisticsCounters := Prod.map baseband.resetStatisticsCounters id
  dcOffset := fun detector => baseband.dcOffset detector.1
  noiseEnergy := fun detector => baseband.noiseEnergy detector.1

/-- A frame that the detector found at a symbol of the stream. -/
structure Finding (R : Type) where
  place : Nat
  result : DetectionResult R
  timestamp : UInt64

namespace Finding

def search (finding : Finding R) : Search R := ⟨finding.place, some finding.result⟩

def payloadSize (finding : Finding R) : Nat := (transponderProps finding.result.1).payloadSize

/-- The symbol behind the frame. -/
def behind (finding : Finding R) : Nat := finding.place + finding.payloadSize + 4

/-- The frame as `detect_frames` makes it. -/
def frame [Zero R] (samplesPerSymbol : Nat) (finding : Finding R) : Frame R :=
  .detected finding.result.1 finding.result.2 finding.timestamp (finding.place * samplesPerSymbol)

def event [Zero R] (stream : List Sample) (finding : Finding R) : FrameEvent R samplesPerSymbol :=
  .detected (symbolOf samplesPerSymbol stream finding.place) (finding.frame samplesPerSymbol)

end Finding

/-- A frame from its detection to its processing. -/
structure Reception (R : Type) where
  finding : Finding R
  frame : Frame R

def Reception.events [Zero R] (stream : List Sample) (reception : Reception R) :
    List (FrameEvent R samplesPerSymbol) :=
  [reception.finding.event stream, .processed reception.frame]

/-- The detector was given each symbol in front of `next`, in order, that is not behind the
detection of a frame and in its span, and answered with the findings. -/
def Searched (stream : List Sample) (next : Nat)
    (record : List (Symbol samplesPerSymbol × Option (DetectionResult R)))
    (findings : List (Finding R)) : Prop :=
  ∃ searches : List (Search R),
    record = searches.map (fun search =>
      (symbolOf samplesPerSymbol stream search.place, search.answer)) ∧
    searches.flatMap Search.symbols = List.range next ∧
    (searches.filter fun search => search.answer.isSome) = findings.map Finding.search

section Law

variable [Field R] {platform : Platform R} {baseband : Baseband R samplesPerSymbol}

/-- A frame that was detected at symbol `d` and processed: it has been trained on the 18
symbols from d - 16 on, has been fed the symbols from d - 16 to d + payload_size + 3, and has
one softbit for each. -/
structure Received (samplesPerSymbol : Nat) (platform : Platform R) (stream : List Sample)
    (reception : Reception R) : Prop where
  inside : reception.finding.behind * samplesPerSymbol ≤ stream.length
  fed : 16 ≤ reception.finding.place → ∃ reader : SymbolReader platform,
    Fed samplesPerSymbol stream (reception.finding.place - 16)
      (reception.finding.frame samplesPerSymbol) (reader, reception.frame)
      (reception.finding.payloadSize + 20)
  softbits : reception.frame.softbits.length = reception.frame.payloadSize + 20

/-- The frame the receiver is at when the stream ends, and the symbol that the detector is given
next. -/
def Receiving (stream : List Sample) (receiver : Receiver platform baseband)
    (pending : List (Finding R)) (next : Nat) : Prop :=
  match receiver.frameParseMode with
  | .frameSeek => pending = [] ∧ stream.length = next * samplesPerSymbol
  | .frameWait => ∃ finding, pending = [finding] ∧ next = finding.behind ∧
    receiver.frame = finding.frame samplesPerSymbol ∧
    stream.length = (finding.place + 1) * samplesPerSymbol
  | .frameFound => ∃ finding count, pending = [finding] ∧ next = finding.behind ∧
    stream.length + 16 * samplesPerSymbol = (finding.place + count) * samplesPerSymbol ∧
    18 ≤ count ∧ count < finding.payloadSize + 20 ∧
    (16 ≤ finding.place → Fed samplesPerSymbol stream (finding.place - 16)
      (finding.frame samplesPerSymbol) (receiver.symbolReader, receiver.frame) count)

/-- The detector was given every symbol that belongs to no frame, and what it found are the
frames that were received, one after another, and the one the receiver is at. -/
def ReceiverLaw (stream : List Sample) (receiver : Receiver platform baseband.recorded)
    (events : List (FrameEvent R samplesPerSymbol)) : Prop :=
  ∃ (receptions : List (Reception R)) (pending : List (Finding R)) (next : Nat),
    events = receptions.flatMap (Reception.events stream) ++ pending.map (Finding.event stream) ∧
      Searched stream next receiver.frameDetector.2
        (receptions.map Reception.finding ++ pending) ∧
      (∀ reception ∈ receptions, Received samplesPerSymbol platform stream reception) ∧
      Receiving stream receiver pending next

end Law

/-! ### The record -/

section Record

variable {stream : List Sample} {next : Nat}
  {record : List (Symbol samplesPerSymbol × Option (DetectionResult R))}
  {findings : List (Finding R)}

theorem Baseband.recorded_simulates (baseband : Baseband R samplesPerSymbol) :
    baseband.recorded.Simulates baseband Prod.fst where
  initial := rfl
  processBaseband := fun _ _ => rfl
  updateStatistics := fun _ => rfl
  resetStatisticsCounters := fun _ => rfl
  dcOffset := fun _ => rfl
  noiseEnergy := fun _ => rfl

theorem searched_nil (stream : List Sample) :
    Searched stream 0 ([] : List (Symbol samplesPerSymbol × Option (DetectionResult R))) [] :=
  ⟨[], rfl, rfl, rfl⟩

/-- A search behind the others goes to the end of the record. -/
theorem Searched.concat (searched : Searched stream next record findings)
    (answer : Option (DetectionResult R)) {found : List (Finding R)} {used : Nat}
    (finds : ([⟨next, answer⟩].filter fun search : Search R => search.answer.isSome) =
      found.map Finding.search)
    (uses : Search.symbols ⟨next, answer⟩ = List.range' next used) :
    Searched stream (next + used)
      (record ++ [(symbolOf samplesPerSymbol stream next, answer)]) (findings ++ found) := by
  obtain ⟨searches, rfl, parts, found⟩ := searched
  refine ⟨searches ++ [⟨next, answer⟩], ?_, ?_, ?_⟩
  · rw [List.map_append, List.map_singleton]
  · have behind : List.range' 0 next ++ List.range' (0 + next) used = List.range' 0 (next + used) :=
      List.range'_append_1
    rw [Nat.zero_add] at behind
    rw [List.flatMap_append, List.flatMap_singleton, parts, uses, List.range_eq_range',
      List.range_eq_range', behind]
  · rw [List.filter_append, found, finds, List.map_append]

/-- A symbol at which the detector finds nothing. -/
theorem Searched.quiet (searched : Searched stream next record findings) :
    Searched stream (next + 1) (record ++ [(symbolOf samplesPerSymbol stream next, none)])
      findings := by
  have uses : Search.symbols (R := R) ⟨next, none⟩ = List.range' next 1 := rfl
  have ended := searched.concat none (List.map_nil (f := Finding.search)).symm uses
  rwa [List.append_nil] at ended

/-- A symbol at which the detector finds a frame: the next search is behind the frame. -/
theorem Searched.found (searched : Searched stream next record findings)
    (result : DetectionResult R) (timestamp : UInt64) :
    Searched stream (Finding.behind ⟨next, result, timestamp⟩)
      (record ++ [(symbolOf samplesPerSymbol stream next, some result)])
      (findings ++ [⟨next, result, timestamp⟩]) := by
  have finds : ([⟨next, some result⟩].filter fun search : Search R => search.answer.isSome) =
      [Finding.mk next result timestamp].map Finding.search := rfl
  exact searched.concat (some result) finds rfl

end Record

/-! ### Inside a call -/

/-- The stream behind the zeros that the first reserve holds. -/
def padded (samplesPerSymbol : Nat) (stream : List Sample) : List Sample :=
  List.replicate (reserveBufferSize samplesPerSymbol) 0 ++ stream

theorem sampleOf_padded (stream : List Sample) (index : Nat) :
    sampleOf (padded samplesPerSymbol stream) (reserveBufferSize samplesPerSymbol + index) =
      sampleOf stream index := by
  have zeros :=
    sampleOf_append_right (List.replicate (reserveBufferSize samplesPerSymbol) 0) stream index
  rwa [List.length_replicate] at zeros

/-- A buffer in the stream, behind `symbols` whole symbols, with the reserve of a receiver
that has read these. -/
structure InCall (stream samples reserve : List Sample) (samplesPerSymbol symbols : Nat) : Prop
    where
  context : ∃ before after, stream = before ++ samples ++ after ∧
    before.length = symbols * samplesPerSymbol ∧
    reserve = (padded samplesPerSymbol before).drop before.length

namespace InCall

variable {stream samples reserve : List Sample} {symbols : Nat}

theorem reserved (inCall : InCall stream samples reserve samplesPerSymbol symbols) :
    reserve.length = reserveBufferSize samplesPerSymbol := by
  obtain ⟨before, after, -, -, rfl⟩ := inCall.context
  rw [padded, List.length_drop, List.length_append, List.length_replicate, Nat.add_sub_cancel]

/-- The reserve and the buffer in a row are a part of the padded stream. -/
theorem lookback (inCall : InCall stream samples reserve samplesPerSymbol symbols) {index : Nat}
    (inside : index < reserve.length + samples.length) :
    sampleOf (reserve ++ samples) index =
      sampleOf (padded samplesPerSymbol stream) (symbols * samplesPerSymbol + index) := by
  obtain ⟨before, after, rfl, length, rfl⟩ := inCall.context
  have long : before.length ≤ (padded samplesPerSymbol before).length := by
    rw [padded, List.length_append]
    exact Nat.le_add_left _ _
  have row : padded samplesPerSymbol (before ++ samples ++ after) =
      padded samplesPerSymbol before ++ (samples ++ after) := by
    simp only [padded, List.append_assoc]
  have tail : (padded samplesPerSymbol (before ++ samples ++ after)).drop before.length =
      (padded samplesPerSymbol before).drop before.length ++ (samples ++ after) := by
    rw [row, List.drop_append_of_le_length long]
  have inner : index < ((padded samplesPerSymbol before).drop before.length ++ samples).length := by
    rwa [List.length_append]
  rw [← sampleOf_append_left inner, List.append_assoc, ← tail, sampleOf_drop, length]

/-- The samples of the buffer are those of the stream. -/
theorem sample (inCall : InCall stream samples reserve samplesPerSymbol symbols) {index : Nat}
    (inside : index < samples.length) :
    sampleOf samples index = sampleOf stream (symbols * samplesPerSymbol + index) := by
  have shifted := inCall.lookback (Nat.add_lt_add_left inside reserve.length)
  rwa [sampleOf_append_right, inCall.reserved, Nat.add_left_comm, sampleOf_padded] at shifted

theorem sample_padded (inCall : InCall stream samples reserve samplesPerSymbol symbols) {k t : Nat}
    (inside : k * samplesPerSymbol + t < samples.length) :
    sampleOf samples (k * samplesPerSymbol + t) =
      sampleOf (padded samplesPerSymbol stream)
        ((preambleSymbolCount + (symbols + k)) * samplesPerSymbol + t) := by
  rw [inCall.sample inside, ← sampleOf_padded, reserveBufferSize, preambleBufferSize, add_mul,
    add_mul, add_assoc, add_assoc]

/-- Reading a symbol of the buffer reads the symbol of the stream. -/
theorem readSymbolAt_eq (inCall : InCall stream samples reserve samplesPerSymbol symbols) {k : Nat}
    (inside : (k + 1) * samplesPerSymbol ≤ samples.length) :
    readSymbolAt samplesPerSymbol samples (k * samplesPerSymbol : Nat) =
      some (symbolOf samplesPerSymbol stream (symbols + k)) := by
  rw [Nat.succ_mul] at inside
  rw [readSymbolAt_of_le inside]
  refine congrArg some (funext fun t => ?_)
  rw [inCall.sample (by have := t.isLt; omega), symbolOf, add_mul, add_assoc]

theorem looksBack [Field R] {platform : Platform R} {reader : SymbolReader platform}
    (inCall : InCall stream samples reader.reserveBuffer samplesPerSymbol symbols) {k : Nat}
    (inside : (k + 1) * samplesPerSymbol ≤ samples.length) :
    LooksBack samplesPerSymbol reader samples (padded samplesPerSymbol stream)
      ((k + 1) * samplesPerSymbol) (symbols + k + 1) where
  reserved := inCall.reserved
  inside := inside
  aligned := Dvd.intro_left _ rfl
  samples := fun i window => by
    have size : reader.reserveBuffer.length = preambleBufferSize samplesPerSymbol := inCall.reserved
    rw [inCall.lookback (by omega), ← add_assoc, ← add_mul, ← add_assoc]

end InCall

section Progress

variable [Field R] {platform : Platform R} {baseband : Baseband R samplesPerSymbol}

/-- `Received` after `consumed` symbols, with the zeros in front of the stream. -/
structure ReceivedBy (samplesPerSymbol : Nat) (platform : Platform R) (stream : List Sample)
    (consumed : Nat) (reception : Reception R) : Prop where
  inside : reception.finding.behind ≤ consumed
  fed : ∃ reader : SymbolReader platform,
    Fed samplesPerSymbol (padded samplesPerSymbol stream) (reception.finding.place + 2)
      (reception.finding.frame samplesPerSymbol) (reader, reception.frame)
      (reception.finding.payloadSize + 20)

/-- `Receiving` after `consumed` symbols, with the zeros in front of the stream. -/
def ReceivingAt (stream : List Sample) (consumed : Nat) (receiver : Receiver platform baseband)
    (pending : List (Finding R)) (next : Nat) : Prop :=
  match receiver.frameParseMode with
  | .frameSeek => pending = [] ∧ consumed = next
  | .frameWait => ∃ finding, pending = [finding] ∧ next = finding.behind ∧
    receiver.frame = finding.frame samplesPerSymbol ∧ receiver.pendingTrail = 1 ∧
    consumed = finding.place + 1
  | .frameFound => ∃ finding count, pending = [finding] ∧ next = finding.behind ∧
    consumed + 16 = finding.place + count ∧ 18 ≤ count ∧ count < finding.payloadSize + 20 ∧
    Fed samplesPerSymbol (padded samplesPerSymbol stream) (finding.place + 2)
      (finding.frame samplesPerSymbol) (receiver.symbolReader, receiver.frame) count

/-- What is known of the frames after `consumed` symbols. -/
def Progress (stream : List Sample) (consumed : Nat)
    (receiver : Receiver platform baseband.recorded)
    (events : List (FrameEvent R samplesPerSymbol)) : Prop :=
  ∃ (receptions : List (Reception R)) (pending : List (Finding R)) (next : Nat),
    events = receptions.flatMap (Reception.events stream) ++ pending.map (Finding.event stream) ∧
      Searched stream next receiver.frameDetector.2
        (receptions.map Reception.finding ++ pending) ∧
      (∀ reception ∈ receptions, ReceivedBy samplesPerSymbol platform stream consumed reception) ∧
      ReceivingAt stream consumed receiver pending next

theorem ReceivedBy.succ {stream : List Sample} {consumed : Nat} {receptions : List (Reception R)}
    (received : ∀ reception ∈ receptions,
      ReceivedBy samplesPerSymbol platform stream consumed reception) :
    ∀ reception ∈ receptions,
      ReceivedBy samplesPerSymbol platform stream (consumed + 1) reception := by
  intro reception member
  obtain ⟨inside, fed⟩ := received reception member
  exact ⟨Nat.le_succ_of_le inside, fed⟩

/-- Inside a call that began behind `symbols` symbols of the stream, with `k` symbols of its
buffer read. -/
structure Midway (stream samples : List Sample) (symbols k : Nat)
    (receiver : Receiver platform baseband.recorded)
    (events : List (FrameEvent R samplesPerSymbol)) : Prop where
  inCall : InCall stream samples receiver.symbolReader.reserveBuffer samplesPerSymbol symbols
  timecode : receiver.timecode = symbols * samplesPerSymbol
  progress : Progress stream (symbols + k) receiver events

/-- Turn `k` of the loop is defined and keeps the invariant. -/
def Proceeds (stream samples : List Sample) (symbols k : Nat)
    (receiver : Receiver platform baseband.recorded)
    (events : List (FrameEvent R samplesPerSymbol)) (timestamp : UInt64) (flag : Bool) : Prop :=
  ∃ next more, Receiver.receiveSymbol timestamp samples (receiver, flag) k = some (next, more) ∧
    Midway stream samples symbols (k + 1) next.1 (events ++ more)

section Turns

variable {stream samples : List Sample} {symbols k : Nat}
  {receiver : Receiver platform baseband.recorded} {events : List (FrameEvent R samplesPerSymbol)}

/-- A symbol in `FRAME_SEEK`: the detector is given the symbol of the stream. -/
theorem seek_progress (mode : receiver.frameParseMode = .frameSeek)
    (midway : Midway stream samples symbols k receiver events)
    (inside : (k + 1) * samplesPerSymbol ≤ samples.length) (timestamp : UInt64) (flag : Bool) :
    Proceeds stream samples symbols k receiver events timestamp flag := by
  obtain ⟨inCall, timecode, receptions, pending, next, rfl, searched, received, now⟩ := midway
  rw [ReceivingAt, mode] at now
  obtain ⟨rfl, rfl⟩ := now
  rw [List.append_nil] at searched
  have read := inCall.readSymbolAt_eq inside
  cases answer : baseband.processBaseband receiver.frameDetector.1
      (symbolOf samplesPerSymbol stream (symbols + k)) with
  | mk frameDetector detection =>
    have outcome : baseband.recorded.processBaseband receiver.frameDetector
        (symbolOf samplesPerSymbol stream (symbols + k)) =
        ((frameDetector, receiver.frameDetector.2 ++
          [(symbolOf samplesPerSymbol stream (symbols + k), detection)]), detection) := by
      simp only [Baseband.recorded, answer]
    cases detection with
    | none =>
      refine ⟨_, _, receiveSymbol_quiet mode read outcome timestamp flag, inCall, timecode,
        receptions, [], symbols + k + 1, List.append_nil _, ?_, ReceivedBy.succ received, ?_⟩
      · rw [List.append_nil]
        exact searched.quiet
      · simp only [ReceivingAt, mode]
        exact ⟨trivial, rfl⟩
    | some result =>
      have position : receiver.timecode + k * samplesPerSymbol =
          (symbols + k) * samplesPerSymbol := by rw [timecode, add_mul]
      let finding : Finding R := ⟨symbols + k, result,
        timestamp + .ofNat (k * samplesPerSymbol) * 1000000 / sampleRate samplesPerSymbol⟩
      have stamped : finding.frame samplesPerSymbol = .detected result.1 result.2 _
          (receiver.timecode + k * samplesPerSymbol) :=
        congrArg (Frame.detected result.1 result.2 _) position.symm
      refine ⟨_, _, receiveSymbol_detects mode read outcome stamped flag, inCall, timecode,
        receptions, [finding], finding.behind, ?_, searched.found result _,
        ReceivedBy.succ received, finding, rfl, rfl, rfl, rfl, rfl⟩
      rw [List.map_nil, List.append_nil]
      rfl

/-- A symbol in `FRAME_WAIT`: the reader is trained on the 18 symbols that end with it, and fed
them. -/
theorem wait_progress (mode : receiver.frameParseMode = .frameWait)
    (midway : Midway stream samples symbols k receiver events)
    (inside : (k + 1) * samplesPerSymbol ≤ samples.length) (timestamp : UInt64) (flag : Bool) :
    Proceeds stream samples symbols k receiver events timestamp flag := by
  obtain ⟨inCall, timecode, receptions, pending, next, rfl, searched, received, now⟩ := midway
  simp only [ReceivingAt, mode] at now
  obtain ⟨finding, rfl, rfl, found, trail, here⟩ := now
  have first : symbols + k + 1 = finding.place + 2 := by rw [here]
  obtain ⟨reader, frame, stepped, fed, same⟩ :=
    receiveSymbol_trains mode trail (inCall.looksBack inside) timestamp flag
  refine ⟨_, _, stepped, same.symm ▸ inCall, timecode, receptions, [finding], finding.behind,
    List.append_nil _, searched, ReceivedBy.succ received, finding, preambleSymbolCount, rfl, rfl,
    ?_, le_rfl, ?_, ?_⟩
  · rw [preambleSymbolCount_eq]
    omega
  · rw [preambleSymbolCount_eq]
    omega
  · rwa [first, found] at fed

/-- A symbol in `FRAME_FOUND`: the reader is fed it, and it completes the frame when it is the
last one. -/
theorem found_progress (mode : receiver.frameParseMode = .frameFound)
    (midway : Midway stream samples symbols k receiver events)
    (inside : (k + 1) * samplesPerSymbol ≤ samples.length) (timestamp : UInt64) (flag : Bool) :
    Proceeds stream samples symbols k receiver events timestamp flag := by
  obtain ⟨inCall, timecode, receptions, pending, next, rfl, searched, received, now⟩ := midway
  simp only [ReceivingAt, mode] at now
  obtain ⟨finding, count, rfl, rfl, here, waited, short, fed⟩ := now
  have whole : k * samplesPerSymbol + samplesPerSymbol ≤ samples.length := by
    rwa [← Nat.succ_mul]
  -- the symbol the reader needs next is the current one
  have needed : finding.place + 2 + count = preambleSymbolCount + (symbols + k) := by
    rw [preambleSymbolCount_eq]
    omega
  obtain ⟨⟨reader, frame⟩, reads, fedNext, same⟩ := readSymbol_fed fed whole
    (fun t within => by rw [needed, inCall.sample_padded (by omega)])
    (baseband.recorded.dcOffset receiver.frameDetector)
  have complete : isFrameComplete frame ↔ count + 1 = finding.payloadSize + 20 :=
    fedNext.frame.complete_iff rfl rfl short
  have stepped := receiveSymbol_feeds mode reads timestamp flag
  by_cases last : count + 1 = finding.payloadSize + 20
  · have behind : finding.behind = symbols + k + 1 := by
      rw [Finding.behind]
      omega
    have receivedNow :
        ReceivedBy samplesPerSymbol platform stream (symbols + k + 1) ⟨finding, frame⟩ :=
      ⟨behind.le, reader, last ▸ fedNext⟩
    refine ⟨_, _, stepped.trans (if_pos (complete.mpr last)), same.symm ▸ inCall, timecode,
      receptions ++ [⟨finding, frame⟩], [], finding.behind, ?_, ?_, ?_, rfl, behind.symm⟩
    · rw [List.flatMap_append, List.map_nil, List.append_nil, List.append_assoc]
      rfl
    · rwa [List.map_append, List.append_nil]
    · intro other member
      rcases List.mem_append.mp member with before | now
      · exact ReceivedBy.succ received other before
      · rw [List.mem_singleton.mp now]
        exact receivedNow
  · refine ⟨_, _, stepped.trans (if_neg fun done => last (complete.mp done)), same.symm ▸ inCall,
      timecode, receptions, [finding], finding.behind, List.append_nil _, searched,
      ReceivedBy.succ received, ?_⟩
    simp only [ReceivingAt, mode]
    exact ⟨finding, count + 1, rfl, rfl, by omega, by omega, Nat.lt_of_le_of_ne short last,
      fedNext⟩

/-- One turn of the loop keeps the invariant. -/
theorem receiveSymbol_progress (midway : Midway stream samples symbols k receiver events)
    (inside : (k + 1) * samplesPerSymbol ≤ samples.length) (timestamp : UInt64) (flag : Bool) :
    Proceeds stream samples symbols k receiver events timestamp flag := by
  cases mode : receiver.frameParseMode with
  | frameSeek => exact seek_progress mode midway inside timestamp flag
  | frameWait => exact wait_progress mode midway inside timestamp flag
  | frameFound => exact found_progress mode midway inside timestamp flag

/-- The whole loop of a call. -/
theorem loop_progress (midway : Midway stream samples symbols 0 receiver events)
    (timestamp : UInt64) :
    ∃ last answers, run (Receiver.receiveSymbol timestamp samples) (receiver, false)
        (List.range (samples.length / samplesPerSymbol)) = some (last, answers) ∧
      Midway stream samples symbols (samples.length / samplesPerSymbol) last.1
        (events ++ answers.flatten) := by
  have loop : ∃ last answers, run (Receiver.receiveSymbol timestamp samples) (receiver, false)
        (List.range (samples.length / samplesPerSymbol)) = some (last, answers) ∧
      Midway stream samples symbols (List.range (samples.length / samplesPerSymbol)).length last.1
        (events ++ answers.flatten) := by
    refine run_inputs (fun past answers (state : Receiver platform baseband.recorded × Bool) =>
      Midway stream samples symbols past.length state.1 (events ++ answers.flatten)) _ ?_ ?_
    · intro past answers state k inside now
      obtain ⟨rfl, below⟩ := prefix_range inside
      have inBuffer : (past.length + 1) * samplesPerSymbol ≤ samples.length :=
        (Nat.mul_le_mul_right samplesPerSymbol below).trans (Nat.div_mul_le_self _ _)
      obtain ⟨next, more, stepped, kept⟩ := receiveSymbol_progress now inBuffer timestamp state.2
      refine ⟨next, more, stepped, ?_⟩
      rwa [List.length_append, List.length_singleton, List.flatten_append, List.flatten_singleton,
        ← List.append_assoc]
    · rwa [List.flatten_nil, List.append_nil]
  rwa [List.length_range] at loop

end Turns

/-! ### From call to call -/

/-- Between two calls, with `before` received. -/
structure Between (stream before : List Sample) (receiver : Receiver platform baseband.recorded)
    (events : List (FrameEvent R samplesPerSymbol)) : Prop where
  reserve : receiver.symbolReader.reserveBuffer =
    (padded samplesPerSymbol before).drop before.length
  timecode : receiver.timecode = before.length
  progress : ∃ symbols, before.length = symbols * samplesPerSymbol ∧
    Progress stream symbols receiver events

/-- The tail of a buffer that is long enough is what the next reserve must be. -/
theorem tail_eq {before samples : List Sample}
    (enough : reserveBufferSize samplesPerSymbol ≤ samples.length) :
    samples.drop (samples.length - reserveBufferSize samplesPerSymbol) =
      (padded samplesPerSymbol (before ++ samples)).drop (before ++ samples).length := by
  have front : (padded samplesPerSymbol before).length =
      reserveBufferSize samplesPerSymbol + before.length := by
    rw [padded, List.length_append, List.length_replicate]
  have row : padded samplesPerSymbol (before ++ samples) =
      padded samplesPerSymbol before ++ samples := (List.append_assoc ..).symm
  have length : (before ++ samples).length =
      (padded samplesPerSymbol before).length +
        (samples.length - reserveBufferSize samplesPerSymbol) := by
    rw [front, List.length_append]
    omega
  rw [row, length, List.drop_length_add_append]

/-- What a call does behind its loop is not about the frames. -/
theorem Progress.saved {stream : List Sample} {consumed : Nat}
    {receiver : Receiver platform baseband.recorded}
    {events : List (FrameEvent R samplesPerSymbol)}
    (progress : Progress stream consumed receiver events)
    {frameDetector : baseband.recorded.Detector}
    (same : frameDetector.2 = receiver.frameDetector.2)
    (reserveBuffer : List Sample) (timecode : Nat) :
    Progress stream consumed { receiver with
      frameDetector, timecode, symbolReader := { receiver.symbolReader with reserveBuffer } }
      events := by
  obtain ⟨receptions, pending, next, spelled, searched, received, now⟩ := progress
  refine ⟨receptions, pending, next, spelled, same ▸ searched, received, ?_⟩
  cases mode : receiver.frameParseMode with
  | frameSeek =>
    simp only [ReceivingAt, mode] at now ⊢
    exact now
  | frameWait =>
    simp only [ReceivingAt, mode] at now ⊢
    exact now
  | frameFound =>
    simp only [ReceivingAt, mode] at now ⊢
    obtain ⟨finding, count, alone, behind, here, waited, short, fed⟩ := now
    exact ⟨finding, count, alone, behind, here, waited, short, .saved reserveBuffer fed⟩

theorem detectFrames_progress {stream before after : List Sample}
    {receiver : Receiver platform baseband.recorded}
    {events : List (FrameEvent R samplesPerSymbol)}
    (between : Between stream before receiver events) (call : Call samplesPerSymbol)
    (inside : stream = before ++ call.2.samples ++ after) :
    ∃ next report, receiver.receive call = some (next, report) ∧
      Between stream (before ++ call.2.samples) next (events ++ report.events) := by
  obtain ⟨timestamp, samples, ⟨turns, whole⟩, enough, short⟩ := call
  obtain ⟨reserve, timecode, symbols, length, progress⟩ := between
  have midway : Midway stream samples symbols 0 receiver events :=
    ⟨⟨before, after, inside, length, reserve⟩, timecode.trans length, progress⟩
  obtain ⟨⟨last, frameDetected⟩, answers, ran, -, lastTimecode, kept⟩ :=
    loop_progress midway timestamp
  have saved : last.symbolReader.updateReserveBuffer samplesPerSymbol samples samples.length =
      some { last.symbolReader with
        reserveBuffer := (padded samplesPerSymbol (before ++ samples)).drop
          (before ++ samples).length } := by
    rw [updateReserveBuffer_eq enough, tail_eq enough]
  have consumed : (before ++ samples).length =
      (symbols + samples.length / samplesPerSymbol) * samplesPerSymbol := by
    rw [List.length_append, length, add_mul, Nat.div_mul_cancel ⟨turns, whole⟩]
  have timecodeNext : last.timecode + samples.length = (before ++ samples).length := by
    rw [lastTimecode, ← length, List.length_append]
  have between {frameDetector : baseband.recorded.Detector}
      (same : frameDetector.2 = last.frameDetector.2) := kept.saved same
    ((padded samplesPerSymbol (before ++ samples)).drop (before ++ samples).length)
    (last.timecode + samples.length)
  simp only [Receiver.receive, Receiver.detectFrames, if_neg (Nat.not_lt.mpr enough),
    if_neg (Nat.not_le.mpr short), ran, saved, Option.bind_eq_bind, Option.bind_some]
  cases frameDetected with
  | true => exact ⟨_, _, rfl, rfl, timecodeNext, _, consumed, between rfl⟩
  | false => exact ⟨_, _, rfl, rfl, timecodeNext, _, consumed, between rfl⟩

theorem between_initial (stream : List Sample) :
    Between stream [] (Receiver.initial : Receiver platform baseband.recorded) [] where
  reserve := by rw [padded, List.append_nil, List.length_nil, List.drop_zero]; rfl
  timecode := rfl
  progress := ⟨0, (Nat.zero_mul _).symm, [], [], 0, rfl, searched_nil stream, nofun, rfl, rfl⟩

/-! ### The law -/

/-- From symbol 16 on, the 16 symbols before a detection are in the stream. -/
theorem fed_of_padded {stream : List Sample} {d : Nat} (late : 16 ≤ d) {detected : Frame R}
    {state : SymbolReader platform × Frame R} {count : Nat}
    (fed : Fed samplesPerSymbol (padded samplesPerSymbol stream) (d + 2) detected state count) :
    Fed samplesPerSymbol stream (d - 16) detected state count := by
  refine fed.congr fun index => ?_
  have shift : d + 2 = preambleSymbolCount + (d - 16) := by
    rw [preambleSymbolCount_eq]
    omega
  rw [shift, add_mul, add_assoc]
  exact sampleOf_padded stream _

theorem ReceivedBy.received {stream : List Sample} {consumed : Nat}
    (length : stream.length = consumed * samplesPerSymbol) {reception : Reception R}
    (by_ : ReceivedBy samplesPerSymbol platform stream consumed reception) :
    Received samplesPerSymbol platform stream reception := by
  obtain ⟨inside, reader, fed⟩ := by_
  refine ⟨?_, fun late => ⟨reader, fed_of_padded late fed⟩, ?_⟩
  · rw [length]
    exact Nat.mul_le_mul_right samplesPerSymbol inside
  · have fresh : (reception.finding.frame samplesPerSymbol).softbits = [] := rfl
    have payload : (reception.finding.frame samplesPerSymbol).payloadSize =
        reception.finding.payloadSize := rfl
    rw [fed.frame.softbits, fed.frame.payloadSize, fresh, payload, List.length_nil, Nat.zero_add]

theorem ReceivingAt.receiving {stream : List Sample} {consumed : Nat}
    (length : stream.length = consumed * samplesPerSymbol) {receiver : Receiver platform baseband}
    {pending : List (Finding R)} {next : Nat}
    (now : ReceivingAt stream consumed receiver pending next) :
    Receiving stream receiver pending next := by
  cases mode : receiver.frameParseMode with
  | frameSeek =>
    simp only [ReceivingAt, Receiving, mode] at now ⊢
    obtain ⟨none, rfl⟩ := now
    exact ⟨none, length⟩
  | frameWait =>
    simp only [ReceivingAt, Receiving, mode] at now ⊢
    obtain ⟨finding, alone, behind, found, -, here⟩ := now
    exact ⟨finding, alone, behind, found, by rw [length, here]⟩
  | frameFound =>
    simp only [ReceivingAt, Receiving, mode] at now ⊢
    obtain ⟨finding, count, alone, behind, here, waited, short, fed⟩ := now
    exact ⟨finding, count, alone, behind, by rw [length, ← add_mul, here], waited, short,
      fun late => fed_of_padded late fed⟩

theorem streamOf_append (first second : List (Call samplesPerSymbol)) :
    streamOf (first ++ second) = streamOf first ++ streamOf second := List.flatMap_append

theorem streamOf_singleton (call : Call samplesPerSymbol) : streamOf [call] = call.2.samples :=
  List.flatMap_singleton ..

variable (platform baseband) in
/-- Every run of calls is defined and keeps the invariant between its calls. -/
theorem run_between (calls : List (Call samplesPerSymbol)) :
    ∃ (receiver : Receiver platform baseband.recorded)
      (reports : List (CallReport R samplesPerSymbol)),
      run Receiver.receive .initial calls = some (receiver, reports) ∧
        Between (streamOf calls) (streamOf calls) receiver
          (reports.flatMap CallReport.events) := by
  refine run_inputs (fun past reports receiver =>
    Between (streamOf calls) (streamOf past) receiver (reports.flatMap CallReport.events))
    calls ?_ (between_initial _)
  intro past reports receiver call inside between
  obtain ⟨rest, split⟩ := inside
  have row : streamOf calls = streamOf past ++ call.2.samples ++ streamOf rest := by
    rw [← split, streamOf_append, streamOf_append, streamOf_singleton]
  obtain ⟨next, report, stepped, kept⟩ := detectFrames_progress between call row
  refine ⟨next, report, stepped, ?_⟩
  rwa [streamOf_append, streamOf_singleton, List.flatMap_append, List.flatMap_singleton]

/-- The record changes nothing else. -/
theorem run_recorded (calls : List (Call samplesPerSymbol)) :
    run Receiver.receive (.initial : Receiver platform baseband) calls =
      (run Receiver.receive (.initial : Receiver platform baseband.recorded) calls).map
        (Prod.map (Receiver.withDetector Prod.fst) id) := by
  have alike (receiver : Receiver platform baseband.recorded) (call : Call samplesPerSymbol) :
      (receiver.withDetector Prod.fst).receive call =
        (receiver.receive call).map (Prod.map (Receiver.withDetector Prod.fst) id) :=
    detectFrames_withDetector baseband.recorded_simulates receiver (call.1, call.2.samples)
  exact run_map alike .initial calls

/-- Whatever the detector answers and wherever the buffers end, every read is inside the reserve
or the buffer, the detector is given every symbol of the stream that belongs to no frame, and
each frame it finds is fed the symbols that belong to it, each once and in order. -/
theorem receiver_law (calls : List (Call samplesPerSymbol)) :
    ∃ (receiver : Receiver platform baseband.recorded)
      (reports : List (CallReport R samplesPerSymbol)),
      run Receiver.receive .initial calls = some (receiver, reports) ∧
        run Receiver.receive (.initial : Receiver platform baseband) calls =
          some (receiver.withDetector Prod.fst, reports) ∧
        ReceiverLaw (streamOf calls) receiver (reports.flatMap CallReport.events) := by
  obtain ⟨receiver, reports, ran, -, -, symbols, length, receptions, pending, next, spelled,
    searched, received, now⟩ := run_between platform baseband calls
  refine ⟨receiver, reports, ran, ?_, receptions, pending, next, spelled, searched,
    fun reception member => (received reception member).received length, now.receiving length⟩
  rw [run_recorded, ran, Option.map_some, Prod.map_apply, id]

end Progress

end OpenStint
