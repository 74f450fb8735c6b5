/-
This file models `SymbolReader` of `frame.cpp`: it trains the equalizer on the preamble of
a detected frame and reads the symbols of the frame. The samples it needs may lie in the
current receive buffer or in the reserve, the tail of the previous one. A read outside of
either is undefined and is `none` here.

A receive buffer holds less than 2^31 samples where `detect_frames` is defined, so indices
do not overflow an `int` and are unbounded integers here.
-/

import OpenStint.Frame
import OpenStint.Library.CheckedLoop

namespace OpenStint

variable {R : Type}

/-! ### Sizes -/

def fseqHalflen : Nat := 1

def fseqSyms : Nat := 2 * fseqHalflen + 1

def preambleLength : Nat := 16

def preambleSymbolCount : Nat := preambleLength + 2 * fseqHalflen

theorem preambleSymbolCount_eq : preambleSymbolCount = 18 := rfl

def preambleBufferSize (samplesPerSymbol : Nat) : Nat := preambleSymbolCount * samplesPerSymbol

def reserveBufferSize (samplesPerSymbol : Nat) : Nat := preambleBufferSize samplesPerSymbol

section Rates

variable [Field R]

def eqMuTrain (samplesPerSymbol : Nat) : R :=
  ((5 : Nat) : R) / ((100 : Nat) : R) * (samplesPerSymbol : R)

def eqMuTrack (samplesPerSymbol : Nat) : R := eqMuTrain samplesPerSymbol * ((2 : Nat) : R)

def costasP : R := ((20 : Nat) : R) / ((1000 : Nat) : R)

def costasI : R := ((2 : Nat) : R) / ((1000 : Nat) : R)

end Rates

/-! ### Reads -/

/-- One sample of a buffer. -/
def readSample (src : List Sample) (index : Int) : Option Sample :=
  if 0 ≤ index then src[index.toNat]? else none

/-- The samples of the symbol at `src + index`. -/
def readSymbolAt (samplesPerSymbol : Nat) (src : List Sample) (index : Int) :
    Option (Symbol samplesPerSymbol) :=
  if 0 ≤ index ∧ index + samplesPerSymbol ≤ src.length then
    some fun i => src.getD (index.toNat + i) 0
  else none

/-! ### The reader -/

structure SymbolReader (platform : Platform R) where
  symEq : platform.Equalizer
  bpskModem : platform.Modem
  reserveBuffer : List Sample
  preambleBuffer : List (StdComplex R)

namespace SymbolReader

variable [Field R] {platform : Platform R} (samplesPerSymbol : Nat)

def initial : SymbolReader platform where
  symEq := platform.eqlmsCreate (List.replicate (fseqSyms * samplesPerSymbol) 0)
  bpskModem := platform.modemCreate
  reserveBuffer := List.replicate (reserveBufferSize samplesPerSymbol) 0
  preambleBuffer := List.replicate (preambleBufferSize samplesPerSymbol) 0

/-- One sample that `load_preamble_buffer` reads: the samples before the current buffer are in
the reserve. -/
def preambleSample (reader : SymbolReader platform) (src : List Sample) (end_ : Int) (i : Nat) :
    Option Sample :=
  let sampleIdx := end_ - preambleBufferSize samplesPerSymbol + i
  if sampleIdx < 0 then
    readSample reader.reserveBuffer (sampleIdx + reserveBufferSize samplesPerSymbol)
  else readSample src sampleIdx

/-- `load_preamble_buffer`: the samples that end at `end_`. -/
def loadPreambleBuffer (reader : SymbolReader platform) (src : List Sample) (end_ : Int)
    (dcOffset : StdComplex R) : Option (SymbolReader platform) := do
  let preambleBuffer ← (List.range (preambleBufferSize samplesPerSymbol)).mapM fun i : Nat =>
    (reader.preambleSample samplesPerSymbol src end_ i).map fun sample => sample.toFloat - dcOffset
  return { reader with preambleBuffer }

/-- `window_energy` -/
def windowEnergy (x : List (StdComplex R)) : R := x.foldl (fun acc z => acc + z.norm) 0

/-- `estimate_phase_freq`: the phase at the start of the preamble and the phase per symbol. -/
def estimatePhaseFreq (reader : SymbolReader platform) (frame : Frame R) (shift : Nat) : R × R :=
  let n := preambleLength * samplesPerSymbol
  let start := fseqHalflen * samplesPerSymbol
  let preambleUp :=
    preambleUpsampled samplesPerSymbol (transponderProps frame.transponderProtocol).preamble
  let y (i : Nat) : StdComplex R :=
    (reader.preambleBuffer.getD (start + i) 0).scale ((preambleUp.getD i 0 : Int) : R)
  let lag := samplesPerSymbol * shift
  let acc := (List.range' lag (n - lag)).foldl (fun acc i => acc + y i * (y (i - lag)).conj) 0
  let dphi := platform.arg acc / (shift : R)
  let psum := (List.range n).foldl
    (fun psum i => psum + y i * platform.polar 1 (-((i : R) / (samplesPerSymbol : R)) * dphi)) 0
  (platform.arg psum, dphi)

/-- `train_fseq`: one pass of the equalizer over the preamble. -/
def trainFseq (reader : SymbolReader platform) (frame : Frame R) (mu : R) :
    SymbolReader platform :=
  let preambleSyms := preambleSymbols (transponderProps frame.transponderProtocol).preamble
  let pushAt (symEq : platform.Equalizer) (idx : Nat) :=
    platform.eqlmsPush symEq (reader.preambleBuffer.getD idx 0)
  let symEq := platform.eqlmsSetBw reader.symEq mu
  let symEq := (List.range (fseqSyms * samplesPerSymbol)).foldl pushAt symEq
  let symEq := (List.range preambleLength).foldl (fun symEq s =>
    let symEq :=
      if 0 < s then
        (List.range' ((fseqSyms + s - 1) * samplesPerSymbol) samplesPerSymbol).foldl pushAt symEq
      else symEq
    let (symEq, dHat) := platform.eqlmsExecute symEq
    platform.eqlmsStep symEq ⟨((preambleSyms.getD s 0 : Int) : R), 0⟩ dHat) symEq
  { reader with symEq }

/-- `train_preamble` behind the loading of the preamble buffer. -/
def trainLoaded (reader : SymbolReader platform) (frame : Frame R) :
    SymbolReader platform × Frame R :=
  let symbolScale := ((141 : Nat) : R) / ((100 : Nat) : R) /
    platform.sqrt (windowEnergy reader.preambleBuffer / (preambleSymbolCount : R))
  let frame := { frame with symbolScale }
  let (phase0, phasePerSymbol) := reader.estimatePhaseFreq samplesPerSymbol frame 2
  let frame := { frame with phase := phase0 - phasePerSymbol * (fseqHalflen : R), phasePerSymbol }
  let preambleBuffer := reader.preambleBuffer.mapIdx fun i z =>
    let k := (i : R) / (samplesPerSymbol : R) - (fseqHalflen : R)
    z * platform.polar frame.symbolScale (-k * phasePerSymbol - phase0)
  let reader := { reader with preambleBuffer, symEq := platform.eqlmsReset reader.symEq }
  let reader := reader.trainFseq samplesPerSymbol frame
    (eqMuTrain samplesPerSymbol * ((3 : Nat) : R))
  let reader := reader.trainFseq samplesPerSymbol frame (eqMuTrain samplesPerSymbol)
  let reader := reader.trainFseq samplesPerSymbol frame (eqMuTrain samplesPerSymbol)
  ({ reader with symEq := platform.eqlmsSetBw reader.symEq (eqMuTrack samplesPerSymbol) }, frame)

def trainPreamble (reader : SymbolReader platform) (frame : Frame R) (src : List Sample)
    (end_ : Int) (dcOffset : StdComplex R) : Option (SymbolReader platform × Frame R) := do
  let reader ← reader.loadPreambleBuffer samplesPerSymbol src end_ dcOffset
  return reader.trainLoaded samplesPerSymbol frame

/-- `costas_tune_correction` -/
def costasTuneCorrection (platform : Platform R) (frame : Frame R) (symbol : StdComplex R) :
    Frame R :=
  let error := platform.arg (symbol * symbol) / ((2 : Nat) : R)
  let phasePerSymbol := frame.phasePerSymbol + costasI * error
  { frame with phasePerSymbol, phase := frame.phase + (phasePerSymbol + costasP * error) }

/-- `read_symbol` on the samples it reads. -/
def feedSymbol (reader : SymbolReader platform) (frame : Frame R)
    (samples : Symbol samplesPerSymbol) (dcOffset : StdComplex R) :
    SymbolReader platform × Frame R :=
  let phaseStep := frame.phasePerSymbol / (samplesPerSymbol : R)
  let symEq := (List.finRange samplesPerSymbol).foldl (fun symEq (i : Fin samplesPerSymbol) =>
    let correction := platform.polar frame.symbolScale (-(frame.phase + (i.val : R) * phaseStep))
    platform.eqlmsPush symEq (((samples i).toFloat - dcOffset) * correction)) reader.symEq
  let (symEq, symbol) := platform.eqlmsExecute symEq
  let frame := costasTuneCorrection platform frame symbol
  let (bpskModem, softBit) := platform.modemDemodulateSoft reader.bpskModem symbol
  let frame := { frame with
    softbits := frame.softbits ++ [softBit]
    symbols := frame.symbols ++ [symbol]
    evmSum := frame.evmSum + platform.modemGetDemodulatorEvm bpskModem }
  let symEq := platform.eqlmsStep symEq (platform.modemGetDemodulatorSample bpskModem) symbol
  ({ reader with symEq, bpskModem }, frame)

def readSymbol (reader : SymbolReader platform) (frame : Frame R) (src : List Sample)
    (index : Int) (dcOffset : StdComplex R) : Option (SymbolReader platform × Frame R) := do
  let samples ← readSymbolAt samplesPerSymbol src index
  return reader.feedSymbol samplesPerSymbol frame samples dcOffset

/-- One turn of the loop of `read_preamble`. -/
def readPreambleSymbol (src : List Sample) (end_ : Int) (dcOffset : StdComplex R)
    (state : SymbolReader platform × Frame R) (i : Nat) :
    Option (SymbolReader platform × Frame R) :=
  let sampleCount := preambleSymbolCount * samplesPerSymbol
  let sampleIdx := end_ - sampleCount + i * samplesPerSymbol
  if sampleIdx < 0 then
    state.1.readSymbol samplesPerSymbol state.2 state.1.reserveBuffer
      (sampleIdx + reserveBufferSize samplesPerSymbol) dcOffset
  else state.1.readSymbol samplesPerSymbol state.2 src sampleIdx dcOffset

/-- `read_preamble`: the preamble as regular symbols. -/
def readPreamble (reader : SymbolReader platform) (frame : Frame R) (src : List Sample)
    (end_ : Int) (dcOffset : StdComplex R) : Option (SymbolReader platform × Frame R) :=
  (List.range preambleSymbolCount).foldlM
    (readPreambleSymbol samplesPerSymbol src end_ dcOffset) (reader, frame)

/-- `update_reserve_buffer`: the last samples before `end_`. -/
def updateReserveBuffer (reader : SymbolReader platform) (src : List Sample) (end_ : Int) :
    Option (SymbolReader platform) := do
  let reserveBuffer ← (List.range (reserveBufferSize samplesPerSymbol)).mapM fun i : Nat =>
    readSample src (end_ - reserveBufferSize samplesPerSymbol + i)
  return { reader with reserveBuffer }

end SymbolReader

/-- `is_frame_complete` -/
def isFrameComplete (frame : Frame R) : Bool :=
  frame.preambleSize + frame.payloadSize + fseqSyms < frame.softbits.length

/-! ### Streams -/

/-- A sample of a stream. -/
def sampleOf (stream : List Sample) (index : Nat) : Sample := stream.getD index 0

/-- A symbol of a stream. -/
def symbolOf (samplesPerSymbol : Nat) (stream : List Sample) (index : Nat) :
    Symbol samplesPerSymbol :=
  fun i => sampleOf stream (index * samplesPerSymbol + i)

section Feeding

variable [Field R] {platform : Platform R} (samplesPerSymbol : Nat)

/-- The samples of 18 symbols, as `load_preamble_buffer` stores them. -/
def windowOf (stream : List Sample) (first : Nat) (dcOffset : StdComplex R) :
    List (StdComplex R) :=
  (List.range (preambleBufferSize samplesPerSymbol)).map fun i =>
    (sampleOf stream (first * samplesPerSymbol + i)).toFloat - dcOffset

/-- The reader and the frame after they were trained on the samples of the 18 symbols from
`first` on and then fed symbols from `first` on, each once and in order. Saving a reserve
does not count. -/
inductive Fed (stream : List Sample) (first : Nat) (detected : Frame R) :
    SymbolReader platform × Frame R → Nat → Prop
  | trained (reader : SymbolReader platform) (dcOffset : StdComplex R) :
      Fed stream first detected
        (({ reader with preambleBuffer := windowOf samplesPerSymbol stream first dcOffset } :
          SymbolReader platform).trainLoaded samplesPerSymbol detected) 0
  | symbol {reader : SymbolReader platform} {frame : Frame R} {count : Nat}
      (dcOffset : StdComplex R) : Fed stream first detected (reader, frame) count →
      Fed stream first detected (reader.feedSymbol samplesPerSymbol frame
        (symbolOf samplesPerSymbol stream (first + count)) dcOffset) (count + 1)
  | saved {reader : SymbolReader platform} {frame : Frame R} {count : Nat}
      (reserveBuffer : List Sample) : Fed stream first detected (reader, frame) count →
      Fed stream first detected ({ reader with reserveBuffer }, frame) count

/-- What a frame keeps of its detection, and how many softbits it has been fed. -/
structure FedFrame (detected frame : Frame R) (count : Nat) : Prop where
  transponderProtocol : frame.transponderProtocol = detected.transponderProtocol
  preambleSize : frame.preambleSize = detected.preambleSize
  payloadSize : frame.payloadSize = detected.payloadSize
  preambleMetric : frame.preambleMetric = detected.preambleMetric
  timestamp : frame.timestamp = detected.timestamp
  timecode : frame.timecode = detected.timecode
  softbits : frame.softbits.length = detected.softbits.length + count

omit [Field R] in
/-- A frame is complete at 20 softbits more than its payload has. -/
theorem FedFrame.complete_iff {detected frame : Frame R} {count : Nat}
    (facts : FedFrame detected frame count) (fresh : detected.softbits = [])
    (preamble : detected.preambleSize = 16) (within : count ≤ detected.payloadSize + 20) :
    isFrameComplete frame ↔ count = detected.payloadSize + 20 := by
  rw [isFrameComplete, facts.softbits, facts.payloadSize, facts.preambleSize, fresh, preamble,
    decide_eq_true_iff, fseqSyms, fseqHalflen, List.length_nil]
  omega

variable {samplesPerSymbol}

/-- A symbol adds one softbit to a frame and leaves what is known from its detection. -/
theorem FedFrame.feed {detected frame : Frame R} {count : Nat}
    (facts : FedFrame detected frame count) (reader : SymbolReader platform)
    (samples : Symbol samplesPerSymbol) (dcOffset : StdComplex R) :
    FedFrame detected (reader.feedSymbol samplesPerSymbol frame samples dcOffset).2
      (count + 1) := by
  obtain ⟨protocol, preamble, payload, metric, timestamp, timecode, softbits⟩ := facts
  refine ⟨protocol, preamble, payload, metric, timestamp, timecode, ?_⟩
  show (_ ++ [_] : List UInt8).length = _
  rw [List.length_append, List.length_singleton, ← add_assoc]
  exact congrArg (· + 1) softbits

theorem Fed.frame {stream : List Sample} {first : Nat} {detected : Frame R}
    {state : SymbolReader platform × Frame R} {count : Nat}
    (fed : Fed samplesPerSymbol stream first detected state count) :
    FedFrame detected state.2 count := by
  induction fed with
  | trained => exact ⟨rfl, rfl, rfl, rfl, rfl, rfl, rfl⟩
  | symbol dcOffset _ inductionHypothesis => exact inductionHypothesis.feed _ _ dcOffset
  | saved _ _ inductionHypothesis => exact inductionHypothesis

/-- Only the samples that are fed matter. -/
theorem Fed.congr {stream other : List Sample} {first start : Nat} {detected : Frame R}
    {state : SymbolReader platform × Frame R} {count : Nat}
    (same : ∀ index, sampleOf stream (first * samplesPerSymbol + index) =
      sampleOf other (start * samplesPerSymbol + index))
    (fed : Fed samplesPerSymbol stream first detected state count) :
    Fed samplesPerSymbol other start detected state count := by
  induction fed with
  | trained reader dcOffset =>
    have window : windowOf samplesPerSymbol stream first dcOffset =
        windowOf samplesPerSymbol other start dcOffset :=
      List.map_congr_left fun i _ => by rw [same]
    rw [window]
    exact .trained reader dcOffset
  | @symbol reader frame count dcOffset _ inductionHypothesis =>
    have symbol : symbolOf samplesPerSymbol stream (first + count) =
        symbolOf samplesPerSymbol other (start + count) := by
      funext i
      rw [symbolOf, symbolOf, add_mul, add_assoc, same, add_mul, add_assoc]
    rw [symbol]
    exact .symbol dcOffset inductionHypothesis
  | saved reserveBuffer _ inductionHypothesis => exact .saved reserveBuffer inductionHypothesis

end Feeding

/-! ### Looking back -/

theorem readSymbolAt_of_le {samplesPerSymbol : Nat} {src : List Sample} {index : Nat}
    (inside : index + samplesPerSymbol ≤ src.length) :
    readSymbolAt samplesPerSymbol src index =
      some fun i : Fin samplesPerSymbol => sampleOf src (index + i) := by
  unfold readSymbolAt
  rw [if_pos (by omega), Int.toNat_natCast]
  rfl

theorem readSample_of_lt {src : List Sample} {index : Nat} (inside : index < src.length) :
    readSample src index = some (sampleOf src index) := by
  rw [readSample, if_pos (Int.natCast_nonneg index), Int.toNat_natCast, sampleOf,
    List.getD_eq_getElem?_getD, List.getElem?_eq_getElem inside, Option.getD_some]

/-- The reserve and the buffer in a row. -/
theorem sampleOf_append_left {reserve src : List Sample} {index : Nat}
    (inside : index < reserve.length) : sampleOf (reserve ++ src) index = sampleOf reserve index :=
  List.getD_append _ _ _ _ inside

theorem sampleOf_append_right (reserve src : List Sample) (index : Nat) :
    sampleOf (reserve ++ src) (reserve.length + index) = sampleOf src index := by
  rw [sampleOf, List.getD_append_right _ _ _ _ (Nat.le_add_right _ _), Nat.add_sub_cancel_left]
  rfl

theorem readSymbolAt_reserve {samplesPerSymbol : Nat} {reserve : List Sample} (src : List Sample)
    {index : Nat} (inside : index + samplesPerSymbol ≤ reserve.length) :
    readSymbolAt samplesPerSymbol reserve index =
      some fun t : Fin samplesPerSymbol => sampleOf (reserve ++ src) (index + t) := by
  rw [readSymbolAt_of_le inside]
  refine congrArg some (funext fun t => ?_)
  have within : index + t < reserve.length :=
    Nat.lt_of_lt_of_le (Nat.add_lt_add_left t.isLt index) inside
  rw [sampleOf_append_left within]

theorem readSymbolAt_src {samplesPerSymbol : Nat} (reserve : List Sample) {src : List Sample}
    {index : Nat} (inside : index + samplesPerSymbol ≤ src.length) :
    readSymbolAt samplesPerSymbol src index =
      some fun t : Fin samplesPerSymbol =>
        sampleOf (reserve ++ src) (reserve.length + index + t) := by
  rw [readSymbolAt_of_le inside]
  refine congrArg some (funext fun t => ?_)
  rw [add_assoc, sampleOf_append_right]

section Lookback

variable [Field R] {platform : Platform R} (samplesPerSymbol : Nat)

/-- The 18 symbols that end at `end_` of the current buffer, with the reserve in front of it,
are those of a stream from `first` on. -/
structure LooksBack (reader : SymbolReader platform) (src stream : List Sample)
    (end_ first : Nat) : Prop where
  reserved : reader.reserveBuffer.length = reserveBufferSize samplesPerSymbol
  inside : end_ ≤ src.length
  aligned : samplesPerSymbol ∣ end_
  samples : ∀ i < preambleBufferSize samplesPerSymbol,
    sampleOf (reader.reserveBuffer ++ src) (end_ + i) =
      sampleOf stream (first * samplesPerSymbol + i)

variable {samplesPerSymbol} {reader : SymbolReader platform} {src stream : List Sample}
  {end_ first : Nat}

omit [Field R] in
/-- Only the reserve of the reader matters. -/
theorem LooksBack.of_reserve (looksBack : LooksBack samplesPerSymbol reader src stream end_ first)
    {other : SymbolReader platform} (same : other.reserveBuffer = reader.reserveBuffer) :
    LooksBack samplesPerSymbol other src stream end_ first where
  reserved := (congrArg List.length same).trans looksBack.reserved
  inside := looksBack.inside
  aligned := looksBack.aligned
  samples := same.symm ▸ looksBack.samples

omit [Field R] in
theorem preambleSample_eq (looksBack : LooksBack samplesPerSymbol reader src stream end_ first)
    {i : Nat} (window : i < preambleBufferSize samplesPerSymbol) :
    reader.preambleSample samplesPerSymbol src end_ i =
      some (sampleOf stream (first * samplesPerSymbol + i)) := by
  obtain ⟨reserved, inside, -, samples⟩ := looksBack
  have size : reserveBufferSize samplesPerSymbol = preambleBufferSize samplesPerSymbol := rfl
  rw [← samples i window, SymbolReader.preambleSample]
  split
  · have index : (end_ : Int) - preambleBufferSize samplesPerSymbol + i +
        reserveBufferSize samplesPerSymbol = ((end_ + i : Nat) : Int) := by omega
    rw [index, sampleOf_append_left (by omega), readSample_of_lt (by omega)]
  · have index : (end_ : Int) - preambleBufferSize samplesPerSymbol + i =
        ((end_ + i - preambleBufferSize samplesPerSymbol : Nat) : Int) := by omega
    have behind : end_ + i = reader.reserveBuffer.length +
        (end_ + i - preambleBufferSize samplesPerSymbol) := by omega
    rw [index, readSample_of_lt (by omega), behind, sampleOf_append_right, ← behind]

/-- Training sees exactly the samples of the 18 symbols. -/
theorem trainPreamble_fed (looksBack : LooksBack samplesPerSymbol reader src stream end_ first)
    (frame : Frame R) (dcOffset : StdComplex R) :
    ∃ state, reader.trainPreamble samplesPerSymbol frame src end_ dcOffset = some state ∧
      Fed samplesPerSymbol stream first frame state 0 ∧
      state.1.reserveBuffer = reader.reserveBuffer := by
  have loaded : reader.loadPreambleBuffer samplesPerSymbol src end_ dcOffset =
      some { reader with preambleBuffer := windowOf samplesPerSymbol stream first dcOffset } := by
    rw [SymbolReader.loadPreambleBuffer, CheckedLoop.mapM_eq_some fun i member => ?_]
    · rfl
    · rw [preambleSample_eq looksBack (List.mem_range.mp member)]
      rfl
  refine ⟨_, ?_, .trained reader dcOffset, rfl⟩
  rw [SymbolReader.trainPreamble, loaded]
  rfl

/-- Each turn of `read_preamble` reads the next of the 18 symbols. -/
theorem readPreambleSymbol_eq (looksBack : LooksBack samplesPerSymbol reader src stream end_ first)
    (frame : Frame R) (dcOffset : StdComplex R) {i : Nat} (window : i < preambleSymbolCount) :
    SymbolReader.readPreambleSymbol samplesPerSymbol src end_ dcOffset (reader, frame) i =
      some (reader.feedSymbol samplesPerSymbol frame
        (symbolOf samplesPerSymbol stream (first + i)) dcOffset) := by
  obtain ⟨reserved, inside, ⟨symbols, rfl⟩, samples⟩ := looksBack
  have count : reserveBufferSize samplesPerSymbol = preambleSymbolCount * samplesPerSymbol := rfl
  have turns : (i + 1) * samplesPerSymbol ≤ preambleSymbolCount * samplesPerSymbol :=
    Nat.mul_le_mul_right _ window
  rw [Nat.add_mul, one_mul] at turns
  -- the samples of the symbol, as the reserve and the buffer in a row have them
  have symbol : (fun t : Fin samplesPerSymbol => sampleOf (reader.reserveBuffer ++ src)
      (samplesPerSymbol * symbols + i * samplesPerSymbol + t)) =
      symbolOf samplesPerSymbol stream (first + i) := by
    funext t
    rw [add_assoc, samples _ (by have := t.isLt; unfold preambleBufferSize; omega), symbolOf,
      add_mul, add_assoc]
  have cast : (i : Int) * samplesPerSymbol = ((i * samplesPerSymbol : Nat) : Int) :=
    (Nat.cast_mul _ _).symm
  rw [← symbol, SymbolReader.readPreambleSymbol, cast]
  dsimp only
  split
  · rename_i before
    have whole : samplesPerSymbol * symbols + i * samplesPerSymbol + samplesPerSymbol ≤
        preambleSymbolCount * samplesPerSymbol := by
      have below : (symbols + i) * samplesPerSymbol < preambleSymbolCount * samplesPerSymbol := by
        rw [add_mul, mul_comm symbols]
        omega
      have next := Nat.mul_le_mul_right samplesPerSymbol (Nat.lt_of_mul_lt_mul_right below)
      rwa [Nat.succ_mul, add_mul, mul_comm symbols] at next
    have index : ((samplesPerSymbol * symbols : Nat) : Int) -
        (preambleSymbolCount * samplesPerSymbol : Nat) + (i * samplesPerSymbol : Nat) +
        reserveBufferSize samplesPerSymbol =
        ((samplesPerSymbol * symbols + i * samplesPerSymbol : Nat) : Int) := by omega
    rw [index, SymbolReader.readSymbol, readSymbolAt_reserve src (by omega)]
    rfl
  · rename_i inBuffer
    have index : ((samplesPerSymbol * symbols : Nat) : Int) -
        (preambleSymbolCount * samplesPerSymbol : Nat) + (i * samplesPerSymbol : Nat) =
        ((samplesPerSymbol * symbols + i * samplesPerSymbol -
          preambleSymbolCount * samplesPerSymbol : Nat) : Int) := by omega
    have behind : reader.reserveBuffer.length + (samplesPerSymbol * symbols +
        i * samplesPerSymbol - preambleSymbolCount * samplesPerSymbol) =
        samplesPerSymbol * symbols + i * samplesPerSymbol := by omega
    rw [index, SymbolReader.readSymbol, readSymbolAt_src reader.reserveBuffer (by omega), behind]
    rfl

/-- `read_preamble` reads the 18 symbols in order. -/
theorem readPreamble_fed (looksBack : LooksBack samplesPerSymbol reader src stream end_ first)
    {detected frame : Frame R} (fed : Fed samplesPerSymbol stream first detected (reader, frame) 0)
    (dcOffset : StdComplex R) :
    ∃ state, reader.readPreamble samplesPerSymbol frame src end_ dcOffset = some state ∧
      Fed samplesPerSymbol stream first detected state preambleSymbolCount ∧
      state.1.reserveBuffer = reader.reserveBuffer := by
  have turns : ∀ count ≤ preambleSymbolCount, ∃ state : SymbolReader platform × Frame R,
      (List.range count).foldlM (SymbolReader.readPreambleSymbol samplesPerSymbol src end_ dcOffset)
        (reader, frame) = some state ∧
      Fed samplesPerSymbol stream first detected state count ∧
      state.1.reserveBuffer = reader.reserveBuffer := by
    intro count
    induction count with
    | zero => exact fun _ => ⟨(reader, frame), rfl, fed, rfl⟩
    | succ count inductionHypothesis =>
      intro window
      obtain ⟨⟨now, _⟩, folded, soFar, same⟩ := inductionHypothesis (Nat.le_of_succ_le window)
      have looksBack : LooksBack samplesPerSymbol now src stream end_ first :=
        looksBack.of_reserve same
      refine ⟨_, ?_, .symbol dcOffset soFar, same⟩
      rw [List.range_succ, List.foldlM_append, folded, Option.bind_eq_bind, Option.bind_some,
        List.foldlM_cons, readPreambleSymbol_eq looksBack _ _ window]
      rfl
  exact turns preambleSymbolCount le_rfl

/-- One more symbol, read from the current buffer. -/
theorem readSymbol_fed {detected frame : Frame R} {count index : Nat}
    (fed : Fed samplesPerSymbol stream first detected (reader, frame) count)
    (inside : index + samplesPerSymbol ≤ src.length)
    (samples : ∀ t < samplesPerSymbol, sampleOf src (index + t) =
      sampleOf stream ((first + count) * samplesPerSymbol + t)) (dcOffset : StdComplex R) :
    ∃ state, reader.readSymbol samplesPerSymbol frame src index dcOffset = some state ∧
      Fed samplesPerSymbol stream first detected state (count + 1) ∧
      state.1.reserveBuffer = reader.reserveBuffer := by
  have symbol : (fun t : Fin samplesPerSymbol => sampleOf src (index + t)) =
      symbolOf samplesPerSymbol stream (first + count) := funext fun t => samples t t.isLt
  refine ⟨_, ?_, .symbol dcOffset fed, rfl⟩
  rw [SymbolReader.readSymbol, readSymbolAt_of_le inside, symbol]
  rfl

omit [Field R] in
/-- The reserve is the tail of the buffer. -/
theorem updateReserveBuffer_eq (long : reserveBufferSize samplesPerSymbol ≤ src.length) :
    reader.updateReserveBuffer samplesPerSymbol src src.length =
      some { reader with
        reserveBuffer := src.drop (src.length - reserveBufferSize samplesPerSymbol) } := by
  have tail : (List.range (reserveBufferSize samplesPerSymbol)).map
      (fun i => sampleOf src (src.length - reserveBufferSize samplesPerSymbol + i)) =
      src.drop (src.length - reserveBufferSize samplesPerSymbol) := by
    refine List.ext_getElem (by rw [List.length_map, List.length_range, List.length_drop]; omega)
      fun i _ inside => ?_
    rw [List.length_drop] at inside
    rw [List.getElem_map, List.getElem_range, List.getElem_drop, sampleOf,
      List.getD_eq_getElem _ _ (by omega)]
  rw [SymbolReader.updateReserveBuffer, CheckedLoop.mapM_eq_some fun i member => ?_, tail]
  · rfl
  · have window := List.mem_range.mp member
    have index : (src.length : Int) - reserveBufferSize samplesPerSymbol + i =
        ((src.length - reserveBufferSize samplesPerSymbol + i : Nat) : Int) := by omega
    rw [index, readSample_of_lt (by omega)]

end Lookback

end OpenStint
