/-
This file models `replay_capture` of `capture.cpp` with the callbacks of the two receivers: the
program reads recorded samples instead of those of a radio, a chunk at a time, and reports
behind every chunk and half a second behind every file. There is only one thread.

What is replayed are the samples of the files that can be opened, in a row and none of them
lost, and every frame that is found in them goes through the decoder. Half a second is enough
for the last passings: at the end of a replay no hit is left that was not published.
-/

import OpenStint.Program

namespace OpenStint

open Machine

variable {R : Type} {samplesPerSymbol : Nat}

/-! ### The samples of a file -/

/-- `CHUNK_BYTES` -/
def chunkBytes : Nat := 32768

/-- A byte as `rx_callback` of `main_rtlsdr.cpp` reads it: 128 is zero. -/
def rtlsdrByte (byte : UInt8) : Int8 := .ofInt (byte.toNat - 128)

/-- A byte as `file_rx_callback` of `main_hackrf.cpp` reads it. -/
def hackrfByte (byte : UInt8) : Int8 := byte.toInt8

/-- The samples of a chunk: two bytes each. -/
def samplesOf (readByte : UInt8 → Int8) : List UInt8 → List Sample
  | i :: q :: rest => ⟨readByte i, readByte q⟩ :: samplesOf readByte rest
  | _ => []

/-- The reading loop of `replay_capture`. A trailing odd byte is dropped; the loop ends when
nothing else is left. -/
def readChunks : Nat → List UInt8 → List (List UInt8)
  | 0, _ => []
  | fuel + 1, bytes =>
    let readBuf := bytes.take chunkBytes
    let byteCount := readBuf.length / 2 * 2
    if byteCount = 0 then []
    else readBuf.take byteCount :: readChunks fuel (bytes.drop chunkBytes)

def captureChunks (bytes : List UInt8) : List (List UInt8) := readChunks bytes.length bytes

/-- What `replay_capture` does next: it hands a chunk to the receiver and reports, or it reports
at the end of a file. -/
inductive ReplayTurn
  | chunk (samples : List Sample)
  | flush
  deriving DecidableEq

/-- `replay_capture`; a file that cannot be opened is passed over. -/
def replayTurns (readByte : UInt8 → Int8) (sources : List (Option (List UInt8))) :
    List ReplayTurn :=
  sources.reduceOption.flatMap fun bytes =>
    (captureChunks bytes).map (fun chunk => .chunk (samplesOf readByte chunk)) ++ [.flush]

/-! ### The replay -/

/-- A turn of `replay_capture`, with the clocks that `detect_frames` and `report_detections`
read. -/
inductive ReplayInput
  | chunk (samples : List Sample) (timestamp now nowSysclk : UInt64)
  | flush (now nowSysclk : UInt64)

def ReplayInput.turn : ReplayInput → ReplayTurn
  | .chunk samples _ _ _ => .chunk samples
  | .flush _ _ => .flush

/-- The call of `detect_frames`. -/
def ReplayInput.call : ReplayInput → Option (UInt64 × List Sample)
  | .chunk samples timestamp _ _ => some (timestamp, samples)
  | .flush _ _ => none

section Replay

variable [Field R] [LinearOrder R] (config : DecoderConfig R)
  {baseband : Baseband R samplesPerSymbol}

/-- What `detect_frames` does for the decoder, with no other thread about: a call of
`process_frame`, or the characteristics of the channel. -/
def Decoder.callInput (decoder : Decoder R) (input : DecoderInput R) :
    Decoder R × List (DecoderInput R × DecoderReport R) :=
  match input with
  | .frame frame =>
    let lookup := decoder.learning.rc4Registry.lookup
    let called := decoder.processor.processFrame config.platform frame config.codec lookup
    let sections := frameSections frame lookup called.2
    (decoder.afterCall called.1 called.2.processed,
      (.frame frame :: List.replicate (sections.length - 1) .receive).zip sections)
  | .saveChannelCharacteristics dcOffset noisePower =>
    ({ decoder with rxStats := decoder.rxStats.saveChannelCharacteristics dcOffset noisePower },
      [(input, .quiet)])
  | _ => (decoder, [])

/-- The critical sections of `report_detections`, one behind the other. -/
def reportSections (now nowSysclk : UInt64) :
    Nat → Decoder R → Option (Decoder R × List (DecoderReport R))
  | 0, decoder => some (decoder, [])
  | fuel + 1, decoder => do
    let (decoder, report) ← mainStep config decoder now nowSysclk
    match decoder.mainStage with
    | .waiting => return (decoder, [report])
    | _ =>
      let (decoder, reports) ← reportSections now nowSysclk fuel decoder
      return (decoder, report :: reports)

/-- A call of `report_detections`: it has at most twelve critical sections. -/
def Decoder.reportDetections (decoder : Decoder R) (now nowSysclk : UInt64) :
    Option (Decoder R × List (DecoderInput R × DecoderReport R)) := do
  let (decoder, sections) ← reportSections config now nowSysclk 12 decoder
  return (decoder, sections.map (.reportDetections now nowSysclk, ·))

/-- The sections of the decoder as a part of what the program does. -/
def decodedReports (sections : List (DecoderInput R × DecoderReport R)) :
    List (ProgramReport R samplesPerSymbol) :=
  sections.map fun section_ => .decoded section_.1 section_.2

/-- One turn of `replay_capture`. -/
def replayStep (program : Program config baseband) :
    ReplayInput → Option (Program config baseband × List (ProgramReport R samplesPerSymbol))
  | .chunk samples timestamp now nowSysclk => do
    let (receiver, report) ← program.receiver.detectFrames (timestamp, samples)
    let decoder := exec (Decoder.callInput config) program.decoder report.inputs
    let processed := answers (Decoder.callInput config) program.decoder report.inputs
    let (decoder, reported) ← decoder.reportDetections config now nowSysclk
    return ({ program with receiver, decoder },
      .called (timestamp, samples) report ::
        (decodedReports processed.flatten ++ decodedReports reported))
  | .flush now nowSysclk => do
    let (decoder, reported) ← program.decoder.reportDetections config now nowSysclk
    return ({ program with decoder }, decodedReports reported)

end Replay

/-! ### The samples -/

@[simp] theorem samplesOf_nil (readByte : UInt8 → Int8) : samplesOf readByte [] = [] := by
  rw [samplesOf]
  exact fun _ _ _ => nofun

@[simp] theorem samplesOf_singleton (readByte : UInt8 → Int8) (byte : UInt8) :
    samplesOf readByte [byte] = [] := by
  rw [samplesOf]
  exact fun _ _ _ => nofun

@[simp] theorem samplesOf_cons (readByte : UInt8 → Int8) (i q : UInt8) (rest : List UInt8) :
    samplesOf readByte (i :: q :: rest) = ⟨readByte i, readByte q⟩ :: samplesOf readByte rest := by
  rw [samplesOf]

theorem samplesOf_append (readByte : UInt8 → Int8) (first second : List UInt8)
    (even : 2 ∣ first.length) :
    samplesOf readByte (first ++ second) =
      samplesOf readByte first ++ samplesOf readByte second := by
  match first with
  | [] => rw [samplesOf_nil, List.nil_append, List.nil_append]
  | [byte] =>
    rw [List.length_singleton] at even
    omega
  | i :: q :: rest =>
    rw [List.length_cons, List.length_cons] at even
    rw [List.cons_append, List.cons_append, samplesOf_cons, samplesOf_cons,
      samplesOf_append readByte rest second (by omega), List.cons_append]

/-- A trailing odd byte makes no sample. -/
theorem samplesOf_take (readByte : UInt8 → Int8) (bytes : List UInt8) :
    samplesOf readByte (bytes.take (bytes.length / 2 * 2)) = samplesOf readByte bytes := by
  match bytes with
  | [] => rfl
  | [byte] =>
    rw [List.length_singleton, Nat.div_eq_of_lt Nat.one_lt_two, Nat.zero_mul, List.take_zero,
      samplesOf_nil, samplesOf_singleton]
  | i :: q :: rest =>
    have count : (i :: q :: rest).length / 2 * 2 = rest.length / 2 * 2 + 2 := by
      rw [List.length_cons, List.length_cons]
      omega
    rw [count, List.take_succ_cons, List.take_succ_cons, samplesOf_cons, samplesOf_cons,
      samplesOf_take readByte rest]

theorem length_samplesOf (readByte : UInt8 → Int8) (bytes : List UInt8) :
    (samplesOf readByte bytes).length = bytes.length / 2 := by
  match bytes with
  | [] => rw [samplesOf_nil, List.length_nil, List.length_nil]
  | [byte] => rw [samplesOf_singleton, List.length_nil, List.length_singleton]
  | i :: q :: rest =>
    rw [samplesOf_cons, List.length_cons, length_samplesOf readByte rest, List.length_cons,
      List.length_cons]
    omega

/-- The chunks of a file hold its samples, in order. -/
theorem samplesOf_readChunks (readByte : UInt8 → Int8) {fuel : Nat} {bytes : List UInt8}
    (enough : bytes.length ≤ fuel) :
    (readChunks fuel bytes).flatMap (samplesOf readByte) = samplesOf readByte bytes := by
  induction fuel generalizing bytes with
  | zero =>
    obtain rfl := List.length_eq_zero_iff.mp (Nat.le_zero.mp enough)
    rw [readChunks, List.flatMap_nil, samplesOf_nil]
  | succ fuel inductionHypothesis =>
    have whole : bytes = bytes.take chunkBytes ++ bytes.drop chunkBytes :=
      (List.take_append_drop chunkBytes bytes).symm
    have length : (bytes.take chunkBytes).length = min chunkBytes bytes.length :=
      List.length_take
    rw [readChunks]
    by_cases nothing : (bytes.take chunkBytes).length / 2 * 2 = 0
    · have short : bytes.length ≤ 1 := by
        rw [length, chunkBytes] at nothing
        omega
      rw [if_pos nothing, List.flatMap_nil]
      match bytes with
      | [] => rw [samplesOf_nil]
      | [byte] => rw [samplesOf_singleton]
      | _ :: _ :: _ => simp at short
    · rw [if_neg nothing, List.flatMap_cons, samplesOf_take, inductionHypothesis]
      · rcases Nat.le_total chunkBytes bytes.length with long | short
        · rw [← samplesOf_append _ _ _ (by rw [length, Nat.min_eq_left long]; decide), ← whole]
        · rw [List.drop_eq_nil_of_le short, samplesOf_nil, List.append_nil,
            List.take_of_length_le short]
      · rw [List.length_drop]
        have positive : 0 < chunkBytes := by decide
        omega

/-- A chunk has at most 32768 bytes. -/
theorem length_readChunks {fuel : Nat} {bytes chunk : List UInt8}
    (member : chunk ∈ readChunks fuel bytes) : chunk.length ≤ chunkBytes := by
  induction fuel generalizing bytes with
  | zero => cases member
  | succ fuel inductionHypothesis =>
    rw [readChunks] at member
    split at member
    · cases member
    · obtain rfl | later := List.mem_cons.mp member
      · rw [List.length_take, List.length_take]
        omega
      · exact inductionHypothesis later

/-- A chunk has at most 16384 samples. -/
theorem length_of_chunk {readByte : UInt8 → Int8} {sources : List (Option (List UInt8))}
    {samples : List Sample} (member : .chunk samples ∈ replayTurns readByte sources) :
    samples.length ≤ 16384 := by
  obtain ⟨bytes, -, inside⟩ := List.mem_flatMap.mp member
  obtain inside | last := List.mem_append.mp inside
  · obtain ⟨chunk, read, same⟩ := List.mem_map.mp inside
    obtain rfl := ReplayTurn.chunk.inj same
    have few := length_readChunks read
    rw [chunkBytes] at few
    rw [length_samplesOf]
    omega
  · cases List.mem_singleton.mp last

/-- What `detect_frames` is called with in a replay. -/
theorem replayed_short {readByte : UInt8 → Int8} {sources : List (Option (List UInt8))}
    {inputs : List ReplayInput}
    (timed : inputs.map ReplayInput.turn = replayTurns readByte sources) :
    ∀ input ∈ inputs, ∀ call ∈ input.call, call.2.length ≤ 16384 := by
  intro input member call called
  cases input with
  | flush => cases called
  | chunk samples timestamp now nowSysclk =>
    obtain rfl := Option.some.inj called
    exact length_of_chunk (timed ▸ List.mem_map_of_mem member)

/-- The samples of a replay. -/
def replayedSamples (turns : List ReplayTurn) : List Sample :=
  turns.flatMap fun
    | .chunk samples => samples
    | .flush => []

theorem replayedSamples_replayTurns (readByte : UInt8 → Int8)
    (sources : List (Option (List UInt8))) :
    replayedSamples (replayTurns readByte sources) =
      sources.reduceOption.flatMap (samplesOf readByte) := by
  rw [replayedSamples, replayTurns, List.flatMap_assoc]
  refine List.flatMap_congr fun bytes _ => ?_
  rw [List.flatMap_append, List.flatMap_map, List.flatMap_singleton, List.append_nil,
    ← samplesOf_readChunks readByte (le_refl bytes.length)]
  rfl

/-! ### One thread -/

section Replaying

variable [Field R] [LinearOrder R] {config : DecoderConfig R}

omit [LinearOrder R] in
/-- Neither thread is left in the middle of anything. -/
theorem callInput_kept (config : DecoderConfig R) (decoder : Decoder R) (input : DecoderInput R) :
    (decoder.callInput config input).1.receiveStage = decoder.receiveStage ∧
      (decoder.callInput config input).1.mainStage = decoder.mainStage ∧
      (KeepsClock decoder → KeepsClock (decoder.callInput config input).1) := by
  cases input <;> exact ⟨rfl, rfl, fun keeps => ⟨keeps.waiting, keeps.entered⟩⟩

omit [LinearOrder R] in
theorem acceptedFrames_callInput (decoder : Decoder R) (input : DecoderInput R) :
    acceptedFrames ((decoder.callInput config input).2.map Prod.snd) = framesIn [input] := by
  cases input with
  | frame frame =>
    rw [Decoder.callInput]
    dsimp only
    rw [List.map_snd_zip, acceptedFrames_frameSections]
    · rfl
    · rw [List.length_cons, List.length_replicate]
      omega
  | _ => rfl

/-- What `detect_frames` does for the decoder is a run of the decoder. -/
theorem run_callInput {decoder : Decoder R} (idle : decoder.receiveStage = .idle)
    (input : DecoderInput R) :
    run (decoderStep config) decoder ((decoder.callInput config input).2.map Prod.fst) =
      some ((decoder.callInput config input).1,
        (decoder.callInput config input).2.map Prod.snd) := by
  cases input with
  | frame frame =>
    have alone := frame_alone config idle frame
    rw [Decoder.callInput]
    dsimp only
    rw [List.map_fst_zip, List.map_snd_zip]
    · exact alone
    · rw [List.length_cons, List.length_replicate]
      omega
    · rw [List.length_cons, List.length_replicate, frameSections]
      simp
  | _ => rfl

theorem run_callInputs {decoder : Decoder R} (idle : decoder.receiveStage = .idle)
    (inputs : List (DecoderInput R)) :
    run (decoderStep config) decoder
        ((answers (Decoder.callInput config) decoder inputs).flatten.map Prod.fst) =
      some (exec (Decoder.callInput config) decoder inputs,
        (answers (Decoder.callInput config) decoder inputs).flatten.map Prod.snd) ∧
    acceptedFrames ((answers (Decoder.callInput config) decoder inputs).flatten.map Prod.snd) =
      framesIn inputs ∧
    (exec (Decoder.callInput config) decoder inputs).receiveStage = .idle ∧
    (exec (Decoder.callInput config) decoder inputs).mainStage = decoder.mainStage ∧
    (KeepsClock decoder → KeepsClock (exec (Decoder.callInput config) decoder inputs)) := by
  induction inputs generalizing decoder with
  | nil => exact ⟨rfl, rfl, idle, rfl, id⟩
  | cons input rest inductionHypothesis =>
    obtain ⟨stage, main, keeps⟩ := callInput_kept config decoder input
    obtain ⟨ran, accepted, idleAfter, mainAfter, keepsAfter⟩ :=
      inductionHypothesis (stage.trans idle)
    rw [answers_cons, List.flatten_cons, List.map_append, List.map_append, exec_cons, run_append,
      run_callInput idle, Option.bind_some]
    dsimp only
    refine ⟨by rw [ran, Option.map_some], ?_, idleAfter, mainAfter.trans main,
      fun kept => keepsAfter (keeps kept)⟩
    rw [acceptedFrames, List.filterMap_append, framesIn, ← List.singleton_append,
      List.filterMap_append]
    exact congrArg₂ (· ++ ·) (acceptedFrames_callInput decoder input) accepted

/-- The sections of `report_detections` are a run of the decoder. -/
theorem run_reportSections {now nowSysclk : UInt64} {fuel : Nat} {decoder next : Decoder R}
    {sections : List (DecoderReport R)}
    (reported : reportSections config now nowSysclk fuel decoder = some (next, sections)) :
    run (decoderStep config) decoder
        (List.replicate sections.length (.reportDetections now nowSysclk)) =
      some (next, sections) := by
  induction fuel generalizing decoder sections with
  | zero =>
    obtain ⟨rfl, rfl⟩ := Prod.mk.inj (Option.some.inj reported)
    rfl
  | succ fuel inductionHypothesis =>
    rw [reportSections] at reported
    obtain ⟨⟨middle, report⟩, stepped, reported⟩ := Option.bind_eq_some_iff.mp reported
    have first : decoderStep config decoder (.reportDetections now nowSysclk) =
      some (middle, report) := stepped
    dsimp only at reported
    split at reported
    · obtain ⟨rfl, rfl⟩ := Prod.mk.inj (Option.some.inj reported)
      rw [List.length_singleton, List.replicate_one, run, first]
      rfl
    · obtain ⟨⟨last, later⟩, rest, reported⟩ := Option.bind_eq_some_iff.mp reported
      obtain ⟨rfl, rfl⟩ := Prod.mk.inj (Option.some.inj reported)
      rw [List.length_cons, List.replicate_succ, run, first, Option.bind_some]
      dsimp only
      rw [inductionHypothesis rest, Option.map_some]

/-- How many critical sections a call of `report_detections` has left, at most. -/
def sectionsLeft (decoder : Decoder R) : Nat :=
  match decoder.mainStage with
  | .waiting => 0
  | .due => 11
  | .formatted _ => 10
  | .detecting =>
    match decoder.learning.stage with
    | .idle => 9
    | .timesynced _ => 8
    | .reported _ => 7
    | .done _ => 6
    | .preferred _ _ => 5
    | .collected _ _ _ => 4
    | .timed _ _ _ _ => 3
    | .detected _ => 2
    | .started => 2
    | .finished => 1

/-- The look for passings is ahead in the call of `report_detections`. -/
def looksAhead (decoder : Decoder R) : Bool :=
  match decoder.mainStage with
  | .waiting => false
  | .due => true
  | .formatted _ => true
  | .detecting =>
    match decoder.learning.stage with
    | .idle => true
    | .timesynced _ => true
    | _ => false

/-- All hits of a transponder are so old that the next look takes them. -/
def HitsOver (key : TransponderKey) (now : UInt64) (decoder : Decoder R) : Prop :=
  ∀ queue, decoder.learning.passingDetector.detections[key]? = some queue →
    PassingDetector.pastDeadline (passingDeadline now) queue = true

/-- Within a call of `report_detections`: the hits are over until the look for passings, and gone
behind it. -/
structure LooksOver (key : TransponderKey) (now : UInt64) (decoder : Decoder R) : Prop where
  clock : decoder.now = now
  keeps : KeepsClock decoder
  ahead : looksAhead decoder = true → HitsOver key now decoder
  behind : looksAhead decoder = false →
    decoder.learning.passingDetector.detections[key]? = none

omit [Field R] [LinearOrder R] in
theorem sectionsLeft_le (decoder : Decoder R) : sectionsLeft decoder ≤ 11 := by
  rw [sectionsLeft]
  split
  · decide
  · decide
  · decide
  · split <;> decide

omit [Field R] [LinearOrder R] in
theorem sectionsLeft_pos {decoder : Decoder R} (busy : decoder.mainStage ≠ .waiting) :
    0 < sectionsLeft decoder := by
  rw [sectionsLeft]
  split
  · exact absurd ‹_› busy
  · decide
  · decide
  · split <;> decide

/-- A critical section of `report_detections` leaves fewer of them. -/
theorem mainStep_left {decoder next : Decoder R} {now nowSysclk : UInt64}
    {report : DecoderReport R} (busy : decoder.mainStage ≠ .waiting)
    (stepped : mainStep config decoder now nowSysclk = some (next, report)) :
    sectionsLeft next < sectionsLeft decoder := by
  obtain ⟨rxStats, learning, ambrcBlacklist, receiveStage, mainStage, entered, enteredSysclk⟩ :=
    decoder
  cases mainStage with
  | waiting => exact absurd rfl busy
  | due =>
    obtain ⟨rfl, -⟩ := Prod.mk.inj (Option.some.inj stepped)
    exact Nat.le_of_ble_eq_true rfl
  | formatted status =>
    obtain ⟨rfl, -⟩ := Prod.mk.inj (Option.some.inj stepped)
    dsimp only [sectionsLeft]
    cases learning.stage <;> exact Nat.le_of_ble_eq_true rfl
  | detecting =>
    obtain ⟨⟨reached, told⟩, detected, stepped⟩ := Option.bind_eq_some_iff.mp stepped
    obtain ⟨rfl, -⟩ := Prod.mk.inj (Option.some.inj stepped)
    obtain ⟨rc4Trainer, passingDetector, rc4Registry, directory, stage⟩ := learning
    cases stage with
    | reported since =>
      obtain ⟨⟨trainer, result⟩, -, detected⟩ := Option.bind_eq_some_iff.mp detected
      obtain ⟨rfl, -⟩ := Prod.mk.inj (Option.some.inj detected)
      cases result <;> exact Nat.le_of_ble_eq_true rfl
    | started =>
      obtain ⟨rssi, -, detected⟩ := Option.bind_eq_some_iff.mp detected
      obtain ⟨rfl, -⟩ := Prod.mk.inj (Option.some.inj detected)
      exact Nat.le_of_ble_eq_true rfl
    | collected judged transponderId payloads =>
      obtain ⟨timerange, -, detected⟩ := Option.bind_eq_some_iff.mp detected
      obtain ⟨rfl, -⟩ := Prod.mk.inj (Option.some.inj detected)
      exact Nat.le_of_ble_eq_true rfl
    | _ =>
      obtain ⟨rfl, -⟩ := Prod.mk.inj (Option.some.inj detected)
      exact Nat.le_of_ble_eq_true rfl

theorem mainStep_receiveStage {decoder next : Decoder R} {now nowSysclk : UInt64}
    {report : DecoderReport R}
    (stepped : mainStep config decoder now nowSysclk = some (next, report)) :
    next.receiveStage = decoder.receiveStage := by
  obtain ⟨rxStats, learning, ambrcBlacklist, receiveStage, mainStage, entered, enteredSysclk⟩ :=
    decoder
  cases mainStage with
  | detecting =>
    obtain ⟨_, -, stepped⟩ := Option.bind_eq_some_iff.mp stepped
    obtain ⟨rfl, -⟩ := Prod.mk.inj (Option.some.inj stepped)
    rfl
  | _ =>
    obtain ⟨rfl, -⟩ := Prod.mk.inj (Option.some.inj stepped)
    rfl

omit [Field R] [LinearOrder R] in
theorem LooksOver.of_gone {key : TransponderKey} {now : UInt64} {decoder : Decoder R}
    (clock : decoder.now = now) (keeps : KeepsClock decoder)
    (gone : decoder.learning.passingDetector.detections[key]? = none) :
    LooksOver key now decoder :=
  ⟨clock, keeps, fun _ _ found => (nomatch gone.symm.trans found), fun _ => gone⟩

theorem mainStep_enters {decoder next : Decoder R} {now nowSysclk : UInt64}
    {report : DecoderReport R} (waiting : decoder.mainStage = .waiting)
    (stepped : mainStep config decoder now nowSysclk = some (next, report)) :
    next.mainStage ≠ .waiting := by
  rw [mainStep, waiting] at stepped
  obtain ⟨rfl, -⟩ := Prod.mk.inj (Option.some.inj stepped)
  dsimp only
  split
  · exact fun same => by cases same
  · exact fun same => by cases same

/-- The first critical section reads the clock. -/
theorem LooksOver.enter {key : TransponderKey} {now nowSysclk : UInt64} {decoder next : Decoder R}
    {report : DecoderReport R} (waiting : decoder.mainStage = .waiting) (keeps : KeepsClock decoder)
    (allOver : HitsOver key now decoder)
    (stepped : mainStep config decoder now nowSysclk = some (next, report)) :
    LooksOver key now next := by
  have idle : decoder.learning.stage = .idle := keeps.waiting (by rw [waiting]; nofun)
  have kept : KeepsClock next := (decoderStep_detections keeps
    (show decoderStep config decoder (.reportDetections now nowSysclk) = _ from stepped)).1
  obtain ⟨rxStats, learning, ambrcBlacklist, receiveStage, mainStage, entered, enteredSysclk⟩ :=
    decoder
  obtain rfl : mainStage = .waiting := waiting
  obtain ⟨rfl, -⟩ := Prod.mk.inj (Option.some.inj stepped)
  by_cases due : rxStats.reportingDue now = true
  · rw [if_pos due] at kept ⊢
    exact ⟨rfl, kept, fun _ queue found => allOver queue found, fun passed => nomatch passed⟩
  · rw [if_neg due] at kept ⊢
    refine ⟨rfl, kept, fun _ queue found => allOver queue found, fun passed => ?_⟩
    dsimp only [looksAhead] at passed idle
    rw [idle] at passed
    exact absurd passed nofun

/-- Every further section leaves the hits or takes all of them. -/
theorem LooksOver.step {key : TransponderKey} {now later nowSysclk : UInt64}
    {decoder next : Decoder R} {report : DecoderReport R} (looks : LooksOver key now decoder)
    (busy : decoder.mainStage ≠ .waiting)
    (stepped : mainStep config decoder later nowSysclk = some (next, report)) :
    LooksOver key now next := by
  have kept : KeepsClock next := (decoderStep_detections looks.keeps
    (show decoderStep config decoder (.reportDetections later nowSysclk) = _ from stepped)).1
  obtain ⟨clock, keeps, ahead, behind⟩ := looks
  obtain ⟨rxStats, learning, ambrcBlacklist, receiveStage, mainStage, entered, enteredSysclk⟩ :=
    decoder
  obtain rfl : entered = now := clock
  cases mainStage with
  | waiting => exact absurd rfl busy
  | due =>
    obtain ⟨rfl, -⟩ := Prod.mk.inj (Option.some.inj stepped)
    exact ⟨rfl, kept, fun _ queue found => ahead rfl queue found, fun passed => nomatch passed⟩
  | formatted status =>
    have idle : learning.stage = .idle := keeps.waiting nofun
    obtain ⟨rfl, -⟩ := Prod.mk.inj (Option.some.inj stepped)
    refine ⟨rfl, kept, fun _ queue found => ahead rfl queue found, fun passed => ?_⟩
    dsimp only [looksAhead] at passed
    rw [idle] at passed
    cases passed
  | detecting =>
    obtain ⟨⟨reached, told⟩, detected, stepped⟩ := Option.bind_eq_some_iff.mp stepped
    obtain ⟨rfl, -⟩ := Prod.mk.inj (Option.some.inj stepped)
    obtain ⟨rc4Trainer, passingDetector, rc4Registry, directory, stage⟩ := learning
    cases stage with
    | idle =>
      obtain ⟨rfl, -⟩ := Prod.mk.inj (Option.some.inj detected)
      exact ⟨rfl, kept, fun _ queue found => ahead rfl queue found,
        fun passed => absurd passed.symm Bool.false_ne_true⟩
    | timesynced since =>
      obtain rfl : since = entered := keeps.entered since rfl
      obtain ⟨rfl, -⟩ := Prod.mk.inj (Option.some.inj detected)
      have taken := getElem?_identifyPassings config.computePassingPoint (passingDeadline since)
        passingDetector key
      refine .of_gone rfl kept (taken.trans ?_)
      cases held : passingDetector.detections[key]? with
      | none => rfl
      | some queue => rw [Option.filter_some_neg (by simp [ahead rfl queue held])]
    | reported since =>
      obtain ⟨⟨trainer, result⟩, -, detected⟩ := Option.bind_eq_some_iff.mp detected
      obtain ⟨rfl, -⟩ := Prod.mk.inj (Option.some.inj detected)
      exact .of_gone rfl kept (behind rfl)
    | started =>
      obtain ⟨rssi, -, detected⟩ := Option.bind_eq_some_iff.mp detected
      obtain ⟨rfl, -⟩ := Prod.mk.inj (Option.some.inj detected)
      exact .of_gone rfl kept (behind rfl)
    | collected judged transponderId payloads =>
      obtain ⟨timerange, -, detected⟩ := Option.bind_eq_some_iff.mp detected
      obtain ⟨rfl, -⟩ := Prod.mk.inj (Option.some.inj detected)
      exact .of_gone rfl kept (behind rfl)
    | _ =>
      obtain ⟨rfl, -⟩ := Prod.mk.inj (Option.some.inj detected)
      exact .of_gone rfl kept (behind rfl)

/-- The sections of a call are defined, the call comes to its end, and it keeps what each of its
sections keeps. -/
theorem reportSections_ends [IsStrictOrderedRing R] (Kept : Decoder R → Prop)
    {now nowSysclk : UInt64}
    (kept : ∀ decoder next report, Kept decoder → decoder.mainStage ≠ .waiting →
      mainStep config decoder now nowSysclk = some (next, report) → Kept next)
    {fuel : Nat} {decoder : Decoder R} {past : List (DecoderReport R)}
    (sessions : ReportsSessions past decoder.learning) (busy : decoder.mainStage ≠ .waiting)
    (enough : sectionsLeft decoder ≤ fuel) (holds : Kept decoder) :
    ∃ next sections, reportSections config now nowSysclk fuel decoder = some (next, sections) ∧
      next.mainStage = .waiting ∧ Kept next := by
  induction fuel generalizing decoder past with
  | zero => exact absurd (sectionsLeft_pos busy) (by omega)
  | succ fuel inductionHypothesis =>
    obtain ⟨next, report, stepped, sessionsAfter⟩ :=
      decoderStep_sessions config sessions (.reportDetections now nowSysclk)
    replace stepped : mainStep config decoder now nowSysclk = some (next, report) := stepped
    have fewer := mainStep_left busy stepped
    have keptNext := kept decoder next report holds busy stepped
    rw [reportSections, stepped]
    by_cases waits : next.mainStage = .waiting
    · refine ⟨next, [report], ?_, waits, keptNext⟩
      rw [Option.bind_eq_bind, Option.bind_some]
      dsimp only
      rw [waits]
      rfl
    · obtain ⟨last, sections, rest, ends, keptLast⟩ :=
        inductionHypothesis sessionsAfter waits (by omega) keptNext
      refine ⟨last, report :: sections, ?_, ends, keptLast⟩
      rw [Option.bind_eq_bind, Option.bind_some]
      dsimp only
      rw [rest]
      cases stage : next.mainStage with
      | waiting => exact absurd stage waits
      | _ => rfl

/-- A call of `report_detections`: it comes to its end, and takes the hits that are over. -/
theorem reportDetections_ends [IsStrictOrderedRing R] {decoder : Decoder R}
    {past : List (DecoderReport R)} (sessions : ReportsSessions past decoder.learning)
    (waiting : decoder.mainStage = .waiting) (keeps : KeepsClock decoder)
    (now nowSysclk : UInt64) :
    ∃ next sections,
      decoder.reportDetections config now nowSysclk =
          some (next, sections.map (.reportDetections now nowSysclk, ·)) ∧
        run (decoderStep config) decoder
            (List.replicate sections.length (.reportDetections now nowSysclk)) =
          some (next, sections) ∧
        next.mainStage = .waiting ∧ next.receiveStage = decoder.receiveStage ∧ KeepsClock next ∧
        ∀ key, HitsOver key now decoder →
          next.learning.passingDetector.detections[key]? = none := by
  obtain ⟨entered, report, stepped, sessionsAfter⟩ :=
    decoderStep_sessions config sessions (.reportDetections now nowSysclk)
  replace stepped : mainStep config decoder now nowSysclk = some (entered, report) := stepped
  have busy := mainStep_enters waiting stepped
  have keepsEntered : KeepsClock entered := (decoderStep_detections keeps
    (show decoderStep config decoder (.reportDetections now nowSysclk) = _ from stepped)).1
  obtain ⟨next, sections, rest, ends, idle, keepsNext, looks⟩ :=
    reportSections_ends (fun reached => reached.receiveStage = decoder.receiveStage ∧
        KeepsClock reached ∧ ∀ key, HitsOver key now decoder → LooksOver key now reached)
      (fun reached after told kept busy stepped => ⟨(mainStep_receiveStage stepped).trans kept.1,
        (decoderStep_detections kept.2.1
          (show decoderStep config reached (.reportDetections now nowSysclk) = _ from stepped)).1,
        fun key allOver => (kept.2.2 key allOver).step busy stepped⟩)
      sessionsAfter busy (sectionsLeft_le entered)
      ⟨mainStep_receiveStage stepped, keepsEntered, fun key allOver =>
        .enter waiting keeps allOver stepped⟩
  have whole : reportSections config now nowSysclk 12 decoder =
      some (next, report :: sections) := by
    rw [reportSections, stepped, Option.bind_eq_bind, Option.bind_some]
    dsimp only
    rw [rest]
    cases stage : entered.mainStage with
    | waiting => exact absurd stage busy
    | _ => rfl
  refine ⟨next, report :: sections, ?_, run_reportSections whole, ends, idle, keepsNext,
    fun key allOver => (looks key allOver).behind ?_⟩
  · rw [Decoder.reportDetections, whole]
    rfl
  · rw [looksAhead, ends]

end Replaying

/-! ### A replay as a run of the program -/

theorem parts_decodedReports (reports : List (ProgramReport R samplesPerSymbol))
    (sections : List (DecoderInput R × DecoderReport R)) :
    callsOf (reports ++ decodedReports sections) = callsOf reports ∧
      callReportsOf (reports ++ decodedReports sections) = callReportsOf reports ∧
      decoderInputsOf (reports ++ decodedReports sections) =
        decoderInputsOf reports ++ sections.map Prod.fst ∧
      sectionsOf (reports ++ decodedReports sections) =
        sectionsOf reports ++ sections.map Prod.snd := by
  induction sections generalizing reports with
  | nil => simp [decodedReports]
  | cons section_ rest inductionHypothesis =>
    obtain ⟨calls, callReports, inputs, sections⟩ :=
      inductionHypothesis (reports ++ [.decoded section_.1 section_.2])
    obtain ⟨firstCalls, firstCallReports, firstInputs, firstSections⟩ :=
      parts_decoded reports section_.1 section_.2
    have split : reports ++ decodedReports (section_ :: rest) =
        reports ++ [.decoded section_.1 section_.2] ++ decodedReports rest := by
      rw [List.append_assoc]
      rfl
    rw [split, calls, callReports, inputs, sections, firstCalls, firstCallReports, firstInputs,
      firstSections, List.append_assoc, List.append_assoc]
    exact ⟨rfl, rfl, rfl, rfl⟩

section Law

variable [Field R] [LinearOrder R] {config : DecoderConfig R}
  {baseband : Baseband R samplesPerSymbol} {directory : List DirEntry}
  {reports : List (ProgramReport R samplesPerSymbol)} {program : Program config baseband}

/-- Several sections of the decoder, with what then remains of the call. -/
theorem ProgramInvariant.decodedAll
    (invariant : ProgramInvariant config baseband directory reports program)
    {sections : List (DecoderInput R × DecoderReport R)} {decoder : Decoder R}
    {remaining : List (DecoderInput R)}
    (ran : run (decoderStep config) program.decoder (sections.map Prod.fst) =
      some (decoder, sections.map Prod.snd))
    (handed : acceptedFrames (sections.map Prod.snd) ++ framesIn remaining =
      framesIn program.remaining) :
    ProgramInvariant config baseband directory (reports ++ decodedReports sections)
      { program with decoder, remaining } := by
  obtain ⟨calls, callReports, inputs, told⟩ := parts_decodedReports reports sections
  refine ⟨?_, ?_, ?_, calls ▸ invariant.short⟩
  · rw [calls, callReports]
    exact invariant.receives
  · rw [inputs, told, run_append, invariant.decodes, Option.bind_some]
    dsimp only
    rw [ran, Option.map_some]
  · rw [callReports, told, acceptedFrames, List.filterMap_append, List.append_assoc]
    exact (congrArg _ handed).trans invariant.handed

/-- What a replay comes to: `detect_frames` has read the samples, in order and each of them once,
and all of its frames went through the decoder. -/
structure ReplayLaw (config : DecoderConfig R) (baseband : Baseband R samplesPerSymbol)
    (directory : List DirEntry) (samples : List Sample)
    (reports : List (ProgramReport R samplesPerSymbol)) (program : Program config baseband) :
    Prop where
  halves : ProgramLaw config baseband directory reports program
  replayed : (callsOf reports).flatMap Prod.snd = samples
  handed : program.remaining = []
  received : program.decoder.receiveStage = .idle
  reported : program.decoder.mainStage = .waiting

/-- The program between two turns of a replay: there is nothing under way. -/
structure ReplayInvariant (config : DecoderConfig R) (baseband : Baseband R samplesPerSymbol)
    (directory : List DirEntry) (reports : List (ProgramReport R samplesPerSymbol))
    (program : Program config baseband) : Prop where
  halves : ProgramInvariant config baseband directory reports program
  nothing : program.remaining = []
  idle : program.decoder.receiveStage = .idle
  waiting : program.decoder.mainStage = .waiting
  keeps : KeepsClock program.decoder

theorem acceptedFrames_run {decoder next : Decoder R} {inputs : List (DecoderInput R)}
    {sections : List (DecoderReport R)}
    (ran : run (decoderStep config) decoder inputs = some (next, sections))
    (foreign : ∀ input ∈ inputs, framesIn [input] = []) : acceptedFrames sections = [] := by
  induction inputs generalizing decoder sections with
  | nil =>
    obtain ⟨-, rfl⟩ := Prod.mk.inj (Option.some.inj ran)
    rfl
  | cons input rest inductionHypothesis =>
    rw [run] at ran
    obtain ⟨⟨middle, report⟩, stepped, ran⟩ := Option.bind_eq_some_iff.mp ran
    obtain ⟨⟨last, later⟩, ranLater, same⟩ := Option.map_eq_some_iff.mp ran
    obtain ⟨rfl, rfl⟩ := Prod.mk.inj same
    obtain ⟨here, behind⟩ := List.forall_mem_cons.mp foreign
    have first := acceptedFrames_step stepped
    rw [here, ite_self] at first
    rw [acceptedFrames, ← List.singleton_append, List.filterMap_append]
    exact (congrArg₂ (· ++ ·) first (inductionHypothesis ranLater behind)).trans rfl

omit [Field R] [LinearOrder R] in
theorem map_pairs (input : DecoderInput R) (sections : List (DecoderReport R)) :
    (sections.map (input, ·)).map Prod.fst = List.replicate sections.length input ∧
      (sections.map (input, ·)).map Prod.snd = sections := by
  rw [List.map_map, List.map_map]
  exact ⟨List.map_const, List.map_id _⟩

namespace ReplayInvariant

variable [IsStrictOrderedRing R]

/-- A call of `report_detections` between two turns. -/
theorem report (invariant : ReplayInvariant config baseband directory reports program)
    (now nowSysclk : UInt64) :
    ∃ decoder sections,
      program.decoder.reportDetections config now nowSysclk = some (decoder, sections) ∧
        ReplayInvariant config baseband directory (reports ++ decodedReports sections)
          { program with decoder } ∧
        ∀ key, HitsOver key now program.decoder →
          decoder.learning.passingDetector.detections[key]? = none := by
  obtain ⟨last, past, ran, sessions⟩ := decoder_run config directory (decoderInputsOf reports)
  obtain ⟨rfl, rfl⟩ := Prod.mk.inj
    (Option.some.inj (ran.symm.trans invariant.halves.decodes))
  obtain ⟨next, sections, reported, ranReport, ends, idle, keeps, gone⟩ :=
    reportDetections_ends sessions invariant.waiting invariant.keeps now nowSysclk
  obtain ⟨inputs, told⟩ := map_pairs (DecoderInput.reportDetections now nowSysclk) sections
  have foreign : acceptedFrames sections = [] :=
    acceptedFrames_run ranReport fun input member => by
      rw [List.eq_of_mem_replicate member]
      rfl
  refine ⟨next, _, reported, ⟨invariant.halves.decodedAll ?_ ?_, invariant.nothing,
    idle.trans invariant.idle, ends, keeps⟩, gone⟩
  · rw [inputs, told]
    exact ranReport
  · rw [told, foreign, List.nil_append]

omit [IsStrictOrderedRing R] in
/-- A chunk that is handed to the receiver. -/
theorem chunk [NeZero samplesPerSymbol]
    (invariant : ReplayInvariant config baseband directory reports program)
    (call : UInt64 × List Sample) (short : call.2.length ≤ 16384) :
    ∃ receiver report, program.receiver.detectFrames call = some (receiver, report) ∧
      ReplayInvariant config baseband directory
        (reports ++ .called call report :: decodedReports
          (answers (Decoder.callInput config) program.decoder report.inputs).flatten)
        { program with
          receiver
          decoder := exec (Decoder.callInput config) program.decoder report.inputs } := by
  have indexable : call.2.length < indexLimit := short.trans_lt (by decide)
  obtain ⟨receiver, report, stepped⟩ := invariant.halves.detectFrames_defined call indexable
  obtain ⟨ran, accepted, idle, main, keeps⟩ := run_callInputs invariant.idle report.inputs
  have called : ProgramInvariant config baseband directory
      (reports ++ [.called call report] ++ decodedReports
        (answers (Decoder.callInput config) program.decoder report.inputs).flatten)
      { receiver
        decoder := exec (Decoder.callInput config) program.decoder report.inputs
        remaining := [] } :=
    (invariant.halves.called invariant.nothing stepped indexable).decodedAll ran
      (by rw [accepted]; exact List.append_nil _)
  refine ⟨receiver, report, stepped, ?_, invariant.nothing, idle, main.trans invariant.waiting,
    keeps invariant.keeps⟩
  rw [List.append_cons, invariant.nothing]
  exact called

theorem turn [NeZero samplesPerSymbol]
    (invariant : ReplayInvariant config baseband directory reports program)
    (input : ReplayInput) (short : ∀ call ∈ input.call, call.2.length ≤ 16384) :
    ∃ next more, replayStep config program input = some (next, more) ∧
      ReplayInvariant config baseband directory (reports ++ more) next ∧
      callsOf (reports ++ more) = callsOf reports ++ input.call.toList := by
  cases input with
  | chunk samples timestamp now nowSysclk =>
    obtain ⟨receiver, report, stepped, received⟩ :=
      invariant.chunk (timestamp, samples) (short _ rfl)
    obtain ⟨decoder, sections, reported, ended, -⟩ := received.report now nowSysclk
    refine ⟨_, _, by
      rw [replayStep, stepped, Option.bind_eq_bind, Option.bind_some]
      dsimp only at reported ⊢
      rw [reported]
      rfl, ?_, ?_⟩
    · rw [← List.cons_append, ← List.append_assoc]
      exact ended
    · rw [← List.cons_append, ← List.append_assoc, (parts_decodedReports _ _).1, List.append_cons,
        (parts_decodedReports _ _).1, (parts_called _ _ _).1]
      rfl
  | flush now nowSysclk =>
    obtain ⟨decoder, sections, reported, ended, -⟩ := invariant.report now nowSysclk
    refine ⟨_, _, by rw [replayStep, reported]; rfl, ended, ?_⟩
    rw [(parts_decodedReports _ _).1]
    exact (List.append_nil _).symm

omit [IsStrictOrderedRing R] in
theorem start :
    ReplayInvariant config baseband directory [] (.start config baseband directory) :=
  ⟨.start, rfl, rfl, rfl, .start directory⟩

/-- A replay is defined, and its calls are those of its turns. -/
theorem run_turns [NeZero samplesPerSymbol] (config : DecoderConfig R)
    (baseband : Baseband R samplesPerSymbol) (directory : List DirEntry)
    (inputs : List ReplayInput)
    (short : ∀ input ∈ inputs, ∀ call ∈ input.call, call.2.length ≤ 16384) :
    ∃ last reports, run (replayStep config) (.start config baseband directory) inputs =
        some (last, reports) ∧
      ReplayInvariant config baseband directory reports.flatten last ∧
      callsOf reports.flatten = inputs.filterMap ReplayInput.call := by
  refine run_inputs (fun past answers program =>
    ReplayInvariant config baseband directory answers.flatten program ∧
      callsOf answers.flatten = past.filterMap ReplayInput.call) inputs ?_ ⟨start, rfl⟩
  rintro past answers program input inside ⟨invariant, calls⟩
  have known : input ∈ inputs := inside.subset (List.mem_append_right _ (.head _))
  obtain ⟨next, more, stepped, kept, called⟩ := invariant.turn input (short input known)
  refine ⟨next, more, stepped, ?_, ?_⟩
  · rwa [List.flatten_append, List.flatten_singleton]
  · rw [List.flatten_append, List.flatten_singleton, called, calls, List.filterMap_append]
    cases input <;> rfl

end ReplayInvariant

theorem samples_of_turns (inputs : List ReplayInput) :
    (inputs.filterMap ReplayInput.call).flatMap Prod.snd =
      replayedSamples (inputs.map ReplayInput.turn) := by
  induction inputs with
  | nil => rfl
  | cons input rest inductionHypothesis =>
    rw [List.map_cons, replayedSamples, List.flatMap_cons, ← replayedSamples,
      ← inductionHypothesis]
    cases input <;> rfl

/-- Whatever the files and the clocks, a replay hands the samples of the files that can be opened
to the receiver, and every frame that is found in them goes through the decoder. -/
theorem replay_law [IsStrictOrderedRing R] [NeZero samplesPerSymbol] (config : DecoderConfig R)
    (baseband : Baseband R samplesPerSymbol) (directory : List DirEntry)
    (readByte : UInt8 → Int8) (sources : List (Option (List UInt8))) {inputs : List ReplayInput}
    (timed : inputs.map ReplayInput.turn = replayTurns readByte sources) :
    ∃ last reports, run (replayStep config) (.start config baseband directory) inputs =
        some (last, reports) ∧
      ReplayLaw config baseband directory (sources.reduceOption.flatMap (samplesOf readByte))
        reports.flatten last := by
  obtain ⟨last, reports, ran, invariant, calls⟩ :=
    ReplayInvariant.run_turns config baseband directory inputs (replayed_short timed)
  refine ⟨last, reports, ran, invariant.halves.law, ?_, invariant.nothing, invariant.idle,
    invariant.waiting⟩
  rw [calls, samples_of_turns, timed, replayedSamples_replayTurns]

end Law

/-- Three files: a sample and an odd byte, one that cannot be opened, and an empty one. -/
def shortSources : List (Option (List UInt8)) := [some [127, 129, 128], none, some []]

def shortReplay : List ReplayInput :=
  [.chunk [⟨-1, 1⟩] 1000 2000 0, .flush 502000 0, .flush 1002000 0]

theorem replay_law_short :
    ∃ last reports, run (replayStep idealConfig)
        (.start idealConfig (frameDetectorBaseband : Baseband ℝ 2) []) shortReplay =
          some (last, reports) ∧
      ReplayLaw idealConfig frameDetectorBaseband []
        (shortSources.reduceOption.flatMap (samplesOf rtlsdrByte)) reports.flatten last :=
  replay_law idealConfig frameDetectorBaseband [] rtlsdrByte shortSources (by decide)

/-! ### The timestamps of frames -/

section Timestamps

variable [Field R] {platform : Platform R} {baseband : Baseband R samplesPerSymbol}

theorem readSymbol_timestamp {reader next : SymbolReader platform} {frame fed : Frame R}
    {src : List Sample} {index : Int} {dcOffset : StdComplex R}
    (reads : reader.readSymbol samplesPerSymbol frame src index dcOffset = some (next, fed)) :
    fed.timestamp = frame.timestamp := by
  obtain ⟨samples, -, reads⟩ := Option.bind_eq_some_iff.mp reads
  obtain ⟨-, rfl⟩ := Prod.mk.inj (Option.some.inj reads)
  rfl

theorem readPreambleSymbol_timestamp {src : List Sample} {end_ : Int} {dcOffset : StdComplex R}
    {state next : SymbolReader platform × Frame R} {i : Nat}
    (reads : SymbolReader.readPreambleSymbol samplesPerSymbol src end_ dcOffset state i =
      some next) : next.2.timestamp = state.2.timestamp := by
  rw [SymbolReader.readPreambleSymbol] at reads
  split at reads
  · exact readSymbol_timestamp reads
  · exact readSymbol_timestamp reads

theorem readPreamble_timestamp {reader next : SymbolReader platform} {frame fed : Frame R}
    {src : List Sample} {end_ : Int} {dcOffset : StdComplex R}
    (reads : reader.readPreamble samplesPerSymbol frame src end_ dcOffset = some (next, fed)) :
    fed.timestamp = frame.timestamp := by
  rw [SymbolReader.readPreamble] at reads
  generalize List.range preambleSymbolCount = turns at reads
  induction turns generalizing reader frame with
  | nil =>
    obtain ⟨-, rfl⟩ := Prod.mk.inj (Option.some.inj reads)
    rfl
  | cons i rest inductionHypothesis =>
    rw [List.foldlM_cons] at reads
    obtain ⟨⟨middle, between⟩, first, reads⟩ := Option.bind_eq_some_iff.mp reads
    exact (inductionHypothesis reads).trans (readPreambleSymbol_timestamp first)

theorem trainPreamble_timestamp {reader next : SymbolReader platform} {frame trained : Frame R}
    {src : List Sample} {end_ : Int} {dcOffset : StdComplex R}
    (trains : reader.trainPreamble samplesPerSymbol frame src end_ dcOffset =
      some (next, trained)) : trained.timestamp = frame.timestamp := by
  obtain ⟨loaded, -, trains⟩ := Option.bind_eq_some_iff.mp trains
  obtain ⟨-, rfl⟩ := Prod.mk.inj (Option.some.inj trains)
  rfl

/-- The frame under way, if there is one, is stamped with no later time. -/
def StampedBy (latest : Nat) (receiver : Receiver platform baseband) : Prop :=
  receiver.frameParseMode ≠ .frameSeek → receiver.frame.timestamp.toNat ≤ latest

/-- A turn of the loop of `detect_frames` passes the timestamps on. -/
theorem receiveSymbol_timestamp {latest : Nat} {timestamp : UInt64} {samples : List Sample}
    {receiver : Receiver platform baseband} {flag : Bool} {k : Nat}
    {next : Receiver platform baseband × Bool} {events : List (FrameEvent R samplesPerSymbol)}
    (stamped : StampedBy latest receiver)
    (inside : (timestamp + .ofNat (k * samplesPerSymbol) * 1000000 /
      sampleRate samplesPerSymbol).toNat ≤ latest)
    (stepped : Receiver.receiveSymbol timestamp samples (receiver, flag) k = some (next, events)) :
    StampedBy latest next.1 ∧
      ∀ frame ∈ processedFrames events, frame.timestamp.toNat ≤ latest := by
  rw [Receiver.receiveSymbol] at stepped
  dsimp only at stepped
  cases mode : receiver.frameParseMode with
  | frameSeek =>
    rw [mode] at stepped
    obtain ⟨symbol, -, stepped⟩ := Option.bind_eq_some_iff.mp stepped
    cases found : baseband.processBaseband receiver.frameDetector symbol with
    | mk frameDetector result =>
      rw [found] at stepped
      cases result with
      | none =>
        obtain ⟨rfl, rfl⟩ := Prod.mk.inj (Option.some.inj stepped)
        exact ⟨fun busy => absurd rfl busy, List.forall_mem_nil _⟩
      | some detection =>
        obtain ⟨rfl, rfl⟩ := Prod.mk.inj (Option.some.inj stepped)
        exact ⟨fun _ => inside, List.forall_mem_nil _⟩
  | frameWait =>
    rw [mode] at stepped
    have before := stamped (by rw [mode]; decide)
    dsimp only at stepped
    split at stepped
    · obtain ⟨⟨trainedReader, trained⟩, trains, stepped⟩ := Option.bind_eq_some_iff.mp stepped
      obtain ⟨⟨reader, fed⟩, reads, stepped⟩ := Option.bind_eq_some_iff.mp stepped
      obtain ⟨rfl, rfl⟩ := Prod.mk.inj (Option.some.inj stepped)
      refine ⟨fun _ => ?_, List.forall_mem_nil _⟩
      dsimp only
      rw [readPreamble_timestamp reads, trainPreamble_timestamp trains]
      exact before
    · obtain ⟨rfl, rfl⟩ := Prod.mk.inj (Option.some.inj stepped)
      exact ⟨fun _ => before, List.forall_mem_nil _⟩
  | frameFound =>
    rw [mode] at stepped
    have before := stamped (by rw [mode]; decide)
    obtain ⟨⟨reader, fed⟩, reads, stepped⟩ := Option.bind_eq_some_iff.mp stepped
    have fedBefore : fed.timestamp.toNat ≤ latest := by
      rw [readSymbol_timestamp reads]
      exact before
    dsimp only at stepped
    split at stepped
    · obtain ⟨rfl, rfl⟩ := Prod.mk.inj (Option.some.inj stepped)
      refine ⟨fun busy => absurd rfl busy, fun frame member => ?_⟩
      rw [List.mem_singleton.mp member]
      exact fedBefore
    · obtain ⟨rfl, rfl⟩ := Prod.mk.inj (Option.some.inj stepped)
      exact ⟨fun _ => fedBefore, List.forall_mem_nil _⟩

/-- A chunk of samples takes some 13 milliseconds. -/
theorem elapsed_le [NeZero samplesPerSymbol] {samples : List Sample}
    (short : samples.length ≤ 16384) {k : Nat} (inside : k < samples.length / samplesPerSymbol)
    (timestamp : UInt64) :
    (timestamp + .ofNat (k * samplesPerSymbol) * 1000000 / sampleRate samplesPerSymbol).toNat ≤
      timestamp.toNat + 13107 := by
  have positive := Nat.pos_of_neZero samplesPerSymbol
  have index : k * samplesPerSymbol < 16384 := by
    have whole := Nat.div_mul_le_self samples.length samplesPerSymbol
    have below := Nat.mul_lt_mul_of_pos_right inside positive
    omega
  have elapsed : (UInt64.ofNat (k * samplesPerSymbol) * 1000000 /
      sampleRate samplesPerSymbol).toNat ≤ 13107 := by
    have product : (UInt64.ofNat (k * samplesPerSymbol) * 1000000).toNat =
        k * samplesPerSymbol * 1000000 := by
      rw [UInt64.toNat_mul, UInt64.toNat_ofNat', show (1000000 : UInt64).toNat = 1000000 from rfl]
      omega
    rw [UInt64.toNat_div, product]
    rcases Nat.eq_zero_or_pos k with rfl | later
    · rw [Nat.zero_mul, Nat.zero_mul, Nat.zero_div]
      exact Nat.zero_le _
    · have few : samplesPerSymbol < 16384 := (Nat.le_mul_of_pos_left _ later).trans_lt index
      have rate : 1250000 ≤ (sampleRate samplesPerSymbol).toNat := by
        rw [sampleRate, UInt64.toNat_mul, UInt64.toNat_ofNat',
          show (1250000 : UInt64).toNat = 1250000 from rfl, Nat.mod_eq_of_lt (a := samplesPerSymbol)
            (by omega), Nat.mod_eq_of_lt (by omega)]
        omega
      refine (Nat.div_le_div_left rate (by decide)).trans ?_
      omega
  rw [UInt64.toNat_add]
  exact (Nat.mod_le _ _).trans (Nat.add_le_add_left elapsed _)

theorem loop_timestamp {latest : Nat} {timestamp : UInt64} {samples : List Sample} {ks : List Nat}
    (inside : ∀ k ∈ ks, (timestamp + .ofNat (k * samplesPerSymbol) * 1000000 /
      sampleRate samplesPerSymbol).toNat ≤ latest)
    {state next : Receiver platform baseband × Bool}
    {events : List (List (FrameEvent R samplesPerSymbol))} (stamped : StampedBy latest state.1)
    (looped : run (Receiver.receiveSymbol timestamp samples) state ks = some (next, events)) :
    StampedBy latest next.1 ∧
      ∀ frame ∈ processedFrames events.flatten, frame.timestamp.toNat ≤ latest := by
  induction ks generalizing state events with
  | nil =>
    obtain ⟨rfl, rfl⟩ := Prod.mk.inj (Option.some.inj looped)
    exact ⟨stamped, nofun⟩
  | cons k rest inductionHypothesis =>
    obtain ⟨here, behind⟩ := List.forall_mem_cons.mp inside
    rw [run] at looped
    obtain ⟨⟨middle, first⟩, stepped, looped⟩ := Option.bind_eq_some_iff.mp looped
    obtain ⟨⟨last, later⟩, rest, same⟩ := Option.map_eq_some_iff.mp looped
    obtain ⟨rfl, rfl⟩ := Prod.mk.inj same
    obtain ⟨stampedNext, processed⟩ := receiveSymbol_timestamp stamped here stepped
    obtain ⟨stampedLast, processedLater⟩ := inductionHypothesis behind stampedNext rest
    refine ⟨stampedLast, ?_⟩
    rw [List.flatten_cons, processedFrames_append]
    exact List.forall_mem_append.mpr ⟨processed, processedLater⟩

theorem detectFrames_timestamp [NeZero samplesPerSymbol] {latest : Nat}
    {receiver next : Receiver platform baseband} {call : UInt64 × List Sample}
    {report : CallReport R samplesPerSymbol} (stamped : StampedBy latest receiver)
    (short : call.2.length ≤ 16384) (before : call.1.toNat + 13107 ≤ latest)
    (stepped : receiver.detectFrames call = some (next, report)) :
    StampedBy latest next ∧
      ∀ frame ∈ processedFrames report.events, frame.timestamp.toNat ≤ latest := by
  obtain ⟨timestamp, samples⟩ := call
  rw [Receiver.detectFrames] at stepped
  dsimp only at stepped
  rw [if_neg (Nat.not_le.mpr (short.trans_lt (by decide)))] at stepped
  split at stepped
  · obtain ⟨rfl, rfl⟩ := Prod.mk.inj (Option.some.inj stepped)
    exact ⟨stamped, List.forall_mem_nil _⟩
  · obtain ⟨⟨⟨reached, flag⟩, events⟩, looped, stepped⟩ := Option.bind_eq_some_iff.mp stepped
    obtain ⟨symbolReader, -, stepped⟩ := Option.bind_eq_some_iff.mp stepped
    obtain ⟨stampedNext, processed⟩ := loop_timestamp (fun k member =>
      (elapsed_le short (List.mem_range.mp member) timestamp).trans before)
      (show StampedBy latest (receiver, false).1 from stamped) looped
    dsimp only at stepped
    split at stepped
    · obtain ⟨rfl, rfl⟩ := Prod.mk.inj (Option.some.inj stepped)
      exact ⟨stampedNext, processed⟩
    · obtain ⟨rfl, rfl⟩ := Prod.mk.inj (Option.some.inj stepped)
      exact ⟨stampedNext, processed⟩

/-- The frames of a run are stamped no later than a little behind the last call. -/
theorem run_timestamp [NeZero samplesPerSymbol] {latest : Nat} {calls : List (UInt64 × List Sample)}
    (short : ∀ call ∈ calls, call.2.length ≤ 16384)
    (before : ∀ call ∈ calls, call.1.toNat + 13107 ≤ latest)
    {receiver next : Receiver platform baseband} {reports : List (CallReport R samplesPerSymbol)}
    (stamped : StampedBy latest receiver)
    (ran : run Receiver.detectFrames receiver calls = some (next, reports)) :
    ∀ frame ∈ processedFrames (reports.flatMap CallReport.events),
      frame.timestamp.toNat ≤ latest := by
  induction calls generalizing receiver reports with
  | nil =>
    obtain ⟨rfl, rfl⟩ := Prod.mk.inj (Option.some.inj ran)
    nofun
  | cons call rest inductionHypothesis =>
    obtain ⟨shortHere, shortBehind⟩ := List.forall_mem_cons.mp short
    obtain ⟨here, behind⟩ := List.forall_mem_cons.mp before
    rw [run] at ran
    obtain ⟨⟨middle, first⟩, stepped, ran⟩ := Option.bind_eq_some_iff.mp ran
    obtain ⟨⟨last, later⟩, ranLater, same⟩ := Option.map_eq_some_iff.mp ran
    obtain ⟨rfl, rfl⟩ := Prod.mk.inj same
    obtain ⟨stampedNext, processed⟩ := detectFrames_timestamp stamped shortHere here stepped
    rw [List.flatMap_cons, processedFrames_append]
    exact List.forall_mem_append.mpr
      ⟨processed, inductionHypothesis shortBehind behind stampedNext ranLater⟩

end Timestamps

/-! ### The last passings -/

section Flush

variable [Field R]

omit [Field R] in
theorem frame_of_hit {frame searched : Frame R} {lookup : UInt64 → Option UInt32}
    {report : FrameReport} {transponderId : UInt32}
    (member : DecoderReport.hit searched transponderId ∈ frameSections frame lookup report) :
    searched = frame.bits.1 := by
  rw [frameSections] at member
  simp only [List.mem_append, List.mem_cons, List.mem_map, List.not_mem_nil, reduceCtorEq,
    and_false, exists_false, or_false, false_or, DecoderReport.hit.injEq] at member
  obtain ⟨_, _, same, _⟩ := member
  exact same.symm

/-- The hits of calls of `process_frame` are stamped as the frames of the calls. -/
theorem hit_timestamp {platform : Platform R} {codec : OpenstintCodec}
    {processor : FrameProcessor R} {calls : List (Frame R × (UInt64 → Option UInt32))}
    {frame : Frame R} {transponderId : UInt32}
    (member : DecoderReport.hit frame transponderId ∈
      (answers (callStep platform codec) processor calls).flatten) :
    ∃ call ∈ calls, frame.timestamp = call.1.timestamp := by
  induction calls generalizing processor with
  | nil => cases member
  | cons call rest inductionHypothesis =>
    rw [answers_cons, List.flatten_cons] at member
    obtain here | behind := List.mem_append.mp member
    · refine ⟨call, List.mem_cons_self, ?_⟩
      obtain ⟨softbits, searched⟩ := call.1.bits_fst
      rw [frame_of_hit here, searched]
    · obtain ⟨other, inside, same⟩ := inductionHypothesis behind
      exact ⟨other, List.mem_cons_of_mem _ inside, same⟩

variable [LinearOrder R] {config : DecoderConfig R} {baseband : Baseband R samplesPerSymbol}
  {directory : List DirEntry} {reports : List (ProgramReport R samplesPerSymbol)}
  {program : Program config baseband}

/-- The hits of a transponder are stamped no later than the frames of the receiver. -/
theorem hitsFor_timestamp (law : ProgramLaw config baseband directory reports program)
    {latest : Nat} (stamped : ∀ frame ∈
      processedFrames ((callReportsOf reports).flatMap CallReport.events),
      frame.timestamp.toNat ≤ latest) (key : TransponderKey) :
    ∀ hit ∈ hitsFor config.platform key (sectionsOf reports), hit.timestamp.toNat ≤ latest := by
  intro hit member
  obtain ⟨report, inside, made⟩ := List.mem_filterMap.mp member
  obtain ⟨calls, frames, told⟩ := law.processes
  cases report with
  | hit frame transponderId =>
    have received : DecoderReport.hit frame transponderId ∈
        (answers (callStep config.platform config.codec) .initial calls).flatten := by
      rw [told]
      exact List.mem_append_left _ (List.mem_filter.mpr ⟨inside, rfl⟩)
    obtain ⟨call, given, same⟩ := hit_timestamp received
    have processed : call.1 ∈
        processedFrames ((callReportsOf reports).flatMap CallReport.events) := by
      rw [← frames]
      exact List.mem_append_left _ (List.mem_map_of_mem given)
    dsimp only at made
    split at made
    · obtain rfl := Option.some.inj made
      rw [PassingDetector.detectionOf, same]
      exact stamped call.1 processed
    · cases made
  | _ => cases made

/-- The hits of every transponder are over a quarter of a second later. -/
theorem hitsOver_of_law [IsStrictOrderedRing R]
    (law : ProgramLaw config baseband directory reports program) {latest : Nat}
    (stamped : ∀ frame ∈ processedFrames ((callReportsOf reports).flatMap CallReport.events),
      frame.timestamp.toNat ≤ latest) {now : UInt64} (later : latest ≤ now.toNat - 250000)
    (key : TransponderKey) : HitsOver key now program.decoder := by
  intro queue found
  obtain ⟨groups, opened, publishes⟩ := publishesGroups_of_run key law.decodes
  have held := publishes.held
  rw [HoldsGroup, found] at held
  by_cases empty : opened = []
  · rw [if_pos empty] at held
    cases held
  · rw [if_neg empty] at held
    have backHit : opened.getLast empty ∈ hitsFor config.platform key (sectionsOf reports) := by
      rw [publishes.hits]
      exact List.mem_append_right _ (List.getLast_mem empty)
    have old := hitsFor_timestamp law stamped key _ backHit
    rw [Option.some.inj held, pastDeadline_rtake, PassingDetector.pastDeadline,
      List.getLast?_eq_some_getLast empty]
    dsimp only
    rw [decide_eq_true_iff, UInt64.le_iff_toNat_le, toNat_passingDeadline]
    omega

/-- The clock at the end of a file is half a second behind a call of `detect_frames`. -/
def PacedPair : ReplayInput → ReplayInput → Prop
  | .chunk _ timestamp _ _, .flush now _ => timestamp.toNat + 500000 ≤ now.toNat
  | _, _ => True

/-- The program sleeps for half a second at the end of a file. -/
def Paced (inputs : List ReplayInput) : Prop := inputs.Pairwise PacedPair

omit [Field R] [LinearOrder R] in
/-- A replay ends with a flush, unless no file can be opened. -/
theorem replayTurns_last (readByte : UInt8 → Int8) (sources : List (Option (List UInt8))) :
    replayTurns readByte sources = [] ∨
      ∃ earlier, replayTurns readByte sources = earlier ++ [.flush] := by
  rw [replayTurns]
  induction sources.reduceOption using List.reverseRecOn with
  | nil => exact Or.inl rfl
  | append_singleton files bytes _ =>
    rw [List.flatMap_append, List.flatMap_singleton, ← List.append_assoc]
    exact Or.inr ⟨_, rfl⟩

/-- The flush at the end of a file takes all hits. -/
theorem flush_takes [IsStrictOrderedRing R] [NeZero samplesPerSymbol]
    (invariant : ReplayInvariant config baseband directory reports program)
    {calls : List (UInt64 × List Sample)} (made : callsOf reports = calls)
    (short : ∀ call ∈ calls, call.2.length ≤ 16384) {now nowSysclk : UInt64}
    (paced : ∀ call ∈ calls, call.1.toNat + 500000 ≤ now.toNat)
    {next : Program config baseband} {more : List (ProgramReport R samplesPerSymbol)}
    (stepped : replayStep config program (.flush now nowSysclk) = some (next, more))
    (key : TransponderKey) : next.decoder.learning.passingDetector.detections[key]? = none := by
  obtain ⟨decoder, sections, reported, -, gone⟩ := invariant.report now nowSysclk
  rw [replayStep, reported] at stepped
  obtain ⟨rfl, -⟩ := Prod.mk.inj (Option.some.inj stepped)
  refine gone key (hitsOver_of_law invariant.halves.law ?_ le_rfl key)
  have receives := invariant.halves.receives
  rw [made] at receives
  refine run_timestamp short (fun call member => ?_) (fun busy => absurd rfl busy) receives
  have late := paced call member
  omega

/-- Whatever the files and the clocks of a replay are, as long as the program sleeps for half a
second at the end of a file, all hits of a transponder are in groups when the replay is over,
and each group of at least two is published. -/
theorem replay_publishes [IsStrictOrderedRing R] [NeZero samplesPerSymbol]
    (config : DecoderConfig R) (baseband : Baseband R samplesPerSymbol)
    (directory : List DirEntry) (readByte : UInt8 → Int8) (sources : List (Option (List UInt8)))
    {inputs : List ReplayInput}
    (timed : inputs.map ReplayInput.turn = replayTurns readByte sources) (paced : Paced inputs) :
    ∃ last reports, run (replayStep config) (.start config baseband directory) inputs =
        some (last, reports) ∧
      ∀ key, ∃ groups,
        PublishesGroups config key (decoderInputsOf reports.flatten) (sectionsOf reports.flatten)
          last.decoder groups [] := by
  obtain ⟨last, reports, ran, invariant, -⟩ :=
    ReplayInvariant.run_turns config baseband directory inputs (replayed_short timed)
  refine ⟨last, reports, ran, fun key => ?_⟩
  obtain ⟨groups, opened, publishes⟩ := publishesGroups_of_run key invariant.halves.decodes
  have gone : last.decoder.learning.passingDetector.detections[key]? = none := by
    obtain rfl | ⟨earlier, input, rfl⟩ := inputs.eq_nil_or_concat
    · obtain ⟨rfl, -⟩ := Prod.mk.inj (Option.some.inj ran)
      exact Std.TreeMap.getElem?_emptyc
    · have shortBefore : ∀ input ∈ earlier, ∀ call ∈ input.call, call.2.length ≤ 16384 :=
        fun input member => replayed_short timed input
          (by rw [List.concat_eq_append]; exact List.mem_append_left _ member)
      have short : ∀ call ∈ earlier.filterMap ReplayInput.call, call.2.length ≤ 16384 := by
        intro call member
        obtain ⟨turn, inside, found⟩ := List.mem_filterMap.mp member
        exact shortBefore turn inside call found
      obtain ⟨before, past, ranBefore, kept, calls⟩ :=
        ReplayInvariant.run_turns config baseband directory earlier shortBefore
      rw [List.concat_eq_append, run_concat, ranBefore, Option.bind_some] at ran
      obtain ⟨⟨next, more⟩, stepped, same⟩ := Option.map_eq_some_iff.mp ran
      obtain ⟨rfl, -⟩ := Prod.mk.inj same
      cases input with
      | chunk samples timestamp now nowSysclk =>
        rw [List.concat_eq_append, List.map_append, List.map_singleton] at timed
        obtain nothing | ⟨others, ends⟩ := replayTurns_last readByte sources
        · rw [nothing] at timed
          cases List.append_eq_nil_iff.mp timed |>.2
        · rw [ends] at timed
          cases List.cons.inj (List.append_inj_right' timed rfl) |>.1
      | flush now nowSysclk =>
        rw [Paced, List.concat_eq_append, List.pairwise_append] at paced
        refine flush_takes kept calls short (fun call member => ?_) stepped key
        obtain ⟨turn, inside, found⟩ := List.mem_filterMap.mp member
        cases turn with
        | flush => cases found
        | chunk samples timestamp _ _ =>
          obtain rfl := Option.some.inj found
          exact paced.2.2 _ inside _ (List.mem_singleton_self _)
  have held := publishes.held
  rw [HoldsGroup, gone] at held
  by_cases empty : opened = []
  · exact ⟨groups, empty ▸ publishes⟩
  · rw [if_neg empty] at held
    cases held

end Flush

theorem replay_publishes_short :
    ∃ last reports, run (replayStep idealConfig)
        (.start idealConfig (frameDetectorBaseband : Baseband ℝ 2) []) shortReplay =
          some (last, reports) ∧
      ∀ key, ∃ groups, PublishesGroups idealConfig key (decoderInputsOf reports.flatten)
        (sectionsOf reports.flatten) last.decoder groups [] := by
  refine replay_publishes idealConfig frameDetectorBaseband [] rtlsdrByte shortSources
    (by decide) ?_
  rw [Paced, shortReplay]
  simp [PacedPair]

end OpenStint
