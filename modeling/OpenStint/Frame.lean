/-
This file models the frame of `frame.hpp` and the preamble search of `frame.cpp`. A frame
collects the soft decisions of one transmission; `Frame::bits` looks for the protocol's
16-bit preamble among the first 32 of them, in either polarity, and hands the payload
behind it to the decoder.

The search is specified by the bit errors of each window: `preamblePos` returns the latest
window with at most two.
-/

import OpenStint.Signal
import OpenStint.Transponder

namespace OpenStint

open Gf2

def preambleMaxBitErrors : Nat := 2

/-- One turn of the loop of `concat_bits32`. -/
def concatStep (softBits : Nat → UInt8) (v : BitVec 32) (i : Nat) : BitVec 32 :=
  let v := v <<< 1
  if softBits i &&& 0x80 ≠ 0 then v ||| 1#32 else v

/-- `concat_bits32`: the first 32 hard decisions, the first one in the highest bit. -/
def concatBits32 (softBits : Nat → UInt8) : BitVec 32 :=
  (List.range 32).foldl (concatStep softBits) 0

/-- `preamble_pos`: the windows are tried from the latest one back; `none` is -1. -/
def preamblePos (sof : BitVec 32) (preamble : BitVec 16) : Option Nat :=
  let mask : BitVec 32 := 1#32 <<< 16 - 1#32
  let pp := preamble.setWidth 32
  ((List.range 17).find? fun i =>
      popcount (((sof >>> i) &&& mask) ^^^ pp) ≤ preambleMaxBitErrors).map fun i => 32 - 16 - i

/-- A received frame. The sample counter `timecode` is unbounded: 64 bits last for
thousands of years at any sample rate. -/
structure Frame (R : Type) where
  transponderProtocol : TransponderProtocol
  preambleSize : Nat
  payloadSize : Nat
  preambleMetric : R
  softbits : List UInt8
  symbols : List (StdComplex R)
  evmSum : R
  timestamp : UInt64
  timecode : Nat
  symbolScale : R
  phase : R
  phasePerSymbol : R

namespace Frame

variable {R : Type}

/-- The frame of a static object, before the first detection. -/
def empty [Zero R] : Frame R where
  transponderProtocol := .openStint
  preambleSize := 0
  payloadSize := 0
  preambleMetric := 0
  softbits := []
  symbols := []
  evmSum := 0
  timestamp := 0
  timecode := 0
  symbolScale := 0
  phase := 0
  phasePerSymbol := 0

/-- The constructor `detect_frames` calls on a detection. -/
def detected [Zero R] (protocol : TransponderProtocol) (metric : R) (timestamp : UInt64)
    (timecode : Nat) : Frame R where
  transponderProtocol := protocol
  preambleSize := 16
  payloadSize := (transponderProps protocol).payloadSize
  preambleMetric := metric
  softbits := []
  symbols := []
  evmSum := 0
  timestamp
  timecode
  symbolScale := 0
  phase := 0
  phasePerSymbol := 0

/-- The softbit at an offset from `softbits.data()`. -/
def data (frame : Frame R) (offset : Nat) : UInt8 := frame.softbits.getD offset 0

/-- `Frame::bits`: the frame, inverted when only the inverted preamble was found, and the
offset of the payload; `none` is a null pointer. -/
def bits (frame : Frame R) : Frame R × Option Nat :=
  if frame.softbits.length < 32 then (frame, none) else
  let preamble := (transponderProps frame.transponderProtocol).preamble
  let sof := concatBits32 frame.data
  let located : Frame R × Option Nat :=
    match preamblePos sof preamble with
    | some pos => (frame, some pos)
    | none =>
      -- BPSK does not know the carrier phase: try the other polarity
      match preamblePos (~~~sof) preamble with
      | none => (frame, none)
      | some pos => ({ frame with softbits := frame.softbits.map fun x => 0xff - x }, some pos)
  match located with
  | (frame, none) => (frame, none)
  | (frame, some pos) =>
    if frame.softbits.length < pos + frame.preambleSize + frame.payloadSize then (frame, none)
    else (frame, some (pos + frame.preambleSize))

def symbolMagnitude [Div R] [One R] (frame : Frame R) : R := 1 / frame.symbolScale

/-- `Frame::rssi`, in decibels below the full scale of 179. -/
def rssi [Field R] (platform : Platform R) (frame : Frame R) : R :=
  ((20 : Nat) : R) * platform.log10 frame.symbolMagnitude -
    ((20 : Nat) : R) * platform.log10 adcFullScale

end Frame

/-! ### The preamble search, window by window -/

/-- The bit errors of the 16 hard decisions from `position` on against the preamble. -/
def errorsAt (hard : Nat → Bool) (preamble : BitVec 16) (position : Nat) : Nat :=
  (List.range 16).countP fun j => hard (position + j) != preamble.getMsbD j

/-- What holds of all 256 values holds of every softbit. -/
theorem forall_softbit {Holds : UInt8 → Prop}
    (each : ∀ value : Fin 256, Holds (UInt8.ofFin value)) (softbit : UInt8) : Holds softbit :=
  each softbit.toFin

/-- The hard decision `concat_bits32` takes is the one the decoders take. -/
theorem and_sign_ne_zero_iff (softbit : UInt8) :
    softbit &&& 0x80 ≠ 0 ↔ hardDecision softbit = true := by
  revert softbit
  exact forall_softbit (by decide +kernel)

theorem getLsbD_concatStep (softBits : Nat → UInt8) (v : BitVec 32) (i index : Nat) :
    (concatStep softBits v i).getLsbD index =
      (decide (index < 32) &&
        if index = 0 then hardDecision (softBits i) else v.getLsbD (index - 1)) := by
  have shifted : (v <<< 1).getLsbD index =
      (decide (index < 32) && !decide (index < 1) && v.getLsbD (index - 1)) :=
    BitVec.getLsbD_shiftLeft ..
  by_cases one : hardDecision (softBits i) = true
  · rw [concatStep, if_pos ((and_sign_ne_zero_iff _).mpr one), BitVec.getLsbD_or, shifted, one]
    by_cases first : index = 0
    · simp [first]
    · simp [first]
  · rw [concatStep, if_neg (fun sign => one ((and_sign_ne_zero_iff _).mp sign)), shifted]
    by_cases first : index = 0
    · simp [first, one]
    · simp [first]

theorem getLsbD_concat_prefix (softBits : Nat → UInt8) (count : Nat) (within : count ≤ 32)
    (index : Nat) :
    ((List.range count).foldl (concatStep softBits) 0).getLsbD index =
      (decide (index < count) && hardDecision (softBits (count - 1 - index))) := by
  induction count generalizing index with
  | zero => simp
  | succ count inductionHypothesis =>
    rw [List.range_succ, List.foldl_append, List.foldl_cons, List.foldl_nil, getLsbD_concatStep,
      inductionHypothesis (by omega)]
    cases index with
    | zero => simp
    | succ index =>
      rw [if_neg (Nat.succ_ne_zero index),
        show count - 1 - (index + 1 - 1) = count + 1 - 1 - (index + 1) by omega]
      by_cases below : index < count
      · simp [below, show index + 1 < 32 by omega]
      · simp [below]

theorem getLsbD_concatBits32 (softBits : Nat → UInt8) (index : Nat) :
    (concatBits32 softBits).getLsbD index =
      (decide (index < 32) && hardDecision (softBits (31 - index))) :=
  getLsbD_concat_prefix softBits 32 le_rfl index

theorem getLsbD_mask (index : Nat) :
    (1#32 <<< 16 - 1#32 : BitVec 32).getLsbD index = decide (index < 16) := by
  by_cases below : index < 32
  · have each : ∀ index : Fin 32,
        (1#32 <<< 16 - 1#32 : BitVec 32).getLsbD index = decide (index.val < 16) := by decide
    exact each ⟨index, below⟩
  · rw [BitVec.getLsbD_of_ge _ _ (by omega)]
    exact (decide_eq_false (by omega)).symm

/-- The popcount the search computes for window `i` is the number of bit errors there. -/
theorem popcount_window (hard : Nat → Bool) (sof : BitVec 32) (preamble : BitVec 16)
    (spelled : ∀ index < 32, sof.getLsbD index = hard (31 - index)) (i : Nat) (within : i ≤ 16) :
    popcount (((sof >>> i) &&& (1#32 <<< 16 - 1#32)) ^^^ preamble.setWidth 32) =
      errorsAt hard preamble (16 - i) := by
  have bit : (((sof >>> i) &&& (1#32 <<< 16 - 1#32)) ^^^ preamble.setWidth 32).getLsbD =
      fun j => decide (j < 16) && (hard (31 - i - j) != preamble.getLsbD j) := by
    funext j
    rw [BitVec.getLsbD_xor, BitVec.getLsbD_and, BitVec.getLsbD_ushiftRight, getLsbD_mask,
      BitVec.getLsbD_setWidth]
    by_cases below : j < 16
    · rw [spelled (i + j) (by omega), show 31 - (i + j) = 31 - i - j by omega]
      simp [below, show j < 32 by omega]
    · simp [below, preamble.getLsbD_of_ge j (by omega)]
  -- the high half of the word is masked away; the low half is the window read backwards
  have halves : List.range 32 = List.range 16 ++ (List.range 16).map (16 + ·) := by decide
  have backwards : List.range 16 = ((List.range 16).map (15 - ·)).reverse := by decide
  rw [popcount, bit, halves, List.countP_append, List.countP_map]
  have high : (List.range 16).countP
      ((fun j => decide (j < 16) && (hard (31 - i - j) != preamble.getLsbD j)) ∘ (16 + ·)) = 0 :=
    List.countP_eq_zero.mpr fun j _ => by simp
  rw [high, Nat.add_zero, errorsAt]
  conv_lhs => rw [backwards, List.countP_reverse, List.countP_map]
  refine List.countP_congr fun j member => ?_
  have below : j < 16 := List.mem_range.mp member
  rw [Function.comp, BitVec.getMsbD, decide_eq_true below,
    show 31 - i - (15 - j) = 16 - i + j by omega]
  simp [show 15 - j < 16 by omega]

theorem preamblePos_eq_some_iff (hard : Nat → Bool) (sof : BitVec 32) (preamble : BitVec 16)
    (spelled : ∀ index < 32, sof.getLsbD index = hard (31 - index)) (position : Nat) :
    preamblePos sof preamble = some position ↔
      position ≤ 16 ∧ errorsAt hard preamble position ≤ preambleMaxBitErrors ∧
        ∀ later, position < later → later ≤ 16 →
          preambleMaxBitErrors < errorsAt hard preamble later := by
  have window := popcount_window hard sof preamble spelled
  simp only [preamblePos, Option.map_eq_some_iff, List.find?_range_eq_some, List.mem_range,
    decide_eq_true_eq, Bool.not_eq_true', decide_eq_false_iff_not, not_le]
  constructor
  · rintro ⟨i, ⟨match_, below, earlier⟩, rfl⟩
    rw [window i (by omega)] at match_
    refine ⟨by omega, by simpa using match_, fun later after within => ?_⟩
    have skipped := earlier (16 - later) (by omega)
    rwa [window _ (by omega), show 16 - (16 - later) = later by omega] at skipped
  · rintro ⟨within, match_, latest⟩
    refine ⟨16 - position, ⟨?_, by omega, fun j before => ?_⟩, by omega⟩
    · rwa [window _ (by omega), show 16 - (16 - position) = position by omega]
    · rw [window _ (by omega)]
      exact latest _ (by omega) (by omega)

theorem errorsAt_congr (first second : Nat → Bool) (preamble : BitVec 16) (start other : Nat)
    (same : ∀ j < 16, first (start + j) = second (other + j)) :
    errorsAt first preamble start = errorsAt second preamble other :=
  List.countP_congr fun j member => by rw [same j (List.mem_range.mp member)]

theorem errorsAt_eq_zero {hard : Nat → Bool} {preamble : BitVec 16} {position : Nat}
    (exact_ : ∀ j < 16, hard (position + j) = preamble.getMsbD j) :
    errorsAt hard preamble position = 0 :=
  List.countP_eq_zero.mpr fun j member => by simp [exact_ j (List.mem_range.mp member)]

/-- The hard decisions of a frame. -/
def Frame.hard {R : Type} (frame : Frame R) (offset : Nat) : Bool :=
  hardDecision (frame.data offset)

/-- The word the search runs on spells the first 32 hard decisions. -/
theorem Frame.spelled {R : Type} (frame : Frame R) :
    ∀ index < 32, (concatBits32 frame.data).getLsbD index = frame.hard (31 - index) := by
  intro index below
  rw [getLsbD_concatBits32, decide_eq_true below, Bool.true_and, Frame.hard]

/-- When the preamble is found upright and the payload behind it was received, the payload
is returned and no softbit changes. -/
theorem Frame.bits_of_found {R : Type} (frame : Frame R) {position : Nat}
    (long : 32 ≤ frame.softbits.length)
    (found : preamblePos (concatBits32 frame.data)
      (transponderProps frame.transponderProtocol).preamble = some position)
    (received : position + frame.preambleSize + frame.payloadSize ≤ frame.softbits.length) :
    frame.bits = (frame, some (position + frame.preambleSize)) := by
  rw [Frame.bits, if_neg (by omega)]
  simp only [found]
  rw [if_neg (by omega)]

end OpenStint
