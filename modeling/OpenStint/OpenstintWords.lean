/-
This file proves when the 24-bit words of OpenStint frames are classified as the protocol
says: ids are below ten million, the prefix 1010 marks the 20 bits of a timecode, and every
other word is reserved. The prefix is tested under a mask, which three reserved prefixes
also pass.
-/

import OpenStint.ProcessFrame

namespace OpenStint

open Gf2 Machine

variable {R : Type}

/-- The word that is decoded from an OpenStint frame. -/
def openstintWord (codec : OpenstintCodec) (frame : Frame R) : Option UInt32 :=
  match frame.transponderProtocol, frame.payloadBits with
  | .openStint, some softbits =>
    let decoded := decodeOpenstint codec softbits
    if decoded.ok then some decoded.transponderId else none
  | _, _ => none

/-- What the protocol says of a word. -/
structure WordLaw (word : UInt32) (report : FrameReport) : Prop where
  hit : report.hit = if word < 10000000 then some word else none
  timesync : report.timesync = if word >>> 20 = 0b1010 then some (word &&& 0x000FFFFF) else none
  exclusive : report.hit = none ∨ report.timesync = none

/-- The report of a frame is what the protocol says of its word, and tells what is done to the
passing detector. -/
def FollowsProtocol [Field R] (platform : Platform R) (codec : OpenstintCodec)
    (processor : FrameProcessor R) : ProcessorInput R → Prop
  | .frame lookup frame => ∀ word, openstintWord codec frame = some word →
    let (next, report) := processor.processFrame platform frame codec lookup
    WordLaw word report ∧
      next.passingDetector = report.recorded platform frame processor.passingDetector
  | _ => True

/-- The word of a frame has none of the prefixes 1011, 1110 and 1111. -/
def AvoidsPrefixes (codec : OpenstintCodec) : ProcessorInput R → Prop
  | .frame _ frame => ∀ word, openstintWord codec frame = some word →
    word >>> 20 ≠ 0b1011 ∧ word >>> 20 ≠ 0b1110 ∧ word >>> 20 ≠ 0b1111
  | _ => True

/-! ### One word -/

/-- The report on a decoded word. -/
def wordReport (word : UInt32) : FrameReport :=
  if word < 10000000 then .ofHit word
  else if word &&& 0x00A00000 = 0x00A00000 then .ofTimesync (word &&& 0x000FFFFF)
  else .ignored

theorem and_eq_right_iff {width : Nat} (word mask : BitVec width) :
    word &&& mask = mask ↔ ∀ i < width, mask.getLsbD i = true → word.getLsbD i = true := by
  constructor
  · intro covered i _ set
    rw [← covered, BitVec.getLsbD_and, Bool.and_eq_true] at set
    exact set.1
  · intro covered
    refine BitVec.eq_of_getLsbD_eq fun i within => ?_
    rw [BitVec.getLsbD_and]
    cases set : mask.getLsbD i with
    | false => rw [Bool.and_false]
    | true => rw [covered i within set, Bool.and_true]

/-- The mask asks for the first and the third bit of the prefix. -/
theorem mask_iff (word : UInt32) :
    word &&& 0x00A00000 = 0x00A00000 ↔ (word >>> 20) &&& 0b1010 = 0b1010 := by
  have maskBits : ∀ i < 32, (0x00A00000#32).getLsbD i = true ↔ i = 21 ∨ i = 23 := by decide
  have prefixBits : ∀ i < 32, (0b1010#32).getLsbD i = true ↔ i = 1 ∨ i = 3 := by decide
  have shifted (i : Nat) : (word.toBitVec >>> 20).getLsbD i = word.toBitVec.getLsbD (20 + i) :=
    BitVec.getLsbD_ushiftRight ..
  rw [← UInt32.toBitVec_inj, ← UInt32.toBitVec_inj]
  refine (and_eq_right_iff word.toBitVec 0x00A00000#32).trans
    (Iff.trans ?_ (and_eq_right_iff (word.toBitVec >>> 20) 0b1010#32).symm)
  constructor
  · intro covered i within set
    rw [shifted]
    rcases (prefixBits i within).mp set with rfl | rfl
    · exact covered 21 (by decide) (by decide)
    · exact covered 23 (by decide) (by decide)
  · intro covered i within set
    rcases (maskBits i within).mp set with rfl | rfl
    · exact (shifted 1).symm.trans (covered 1 (by decide) (by decide))
    · exact (shifted 3).symm.trans (covered 3 (by decide) (by decide))

/-- Three bytes make a word of 24 bits. -/
theorem decodeOpenstint_lt (codec : OpenstintCodec) (softbits : Nat → UInt8) :
    (decodeOpenstint codec softbits).transponderId < 0x01000000 := by
  have byteWord (byte : UInt8) : byte.toUInt32.toNat < 2 ^ 8 := byte.toNat_lt
  have shifted (byte : UInt8) (shift : UInt32) (within : shift.toNat ≤ 16) :
      (byte.toUInt32 <<< shift).toNat < 2 ^ 24 := by
    have scaled : byte.toUInt32.toNat * 2 ^ shift.toNat ≤ 255 * 2 ^ 16 :=
      Nat.mul_le_mul (Nat.le_of_lt_succ (byteWord byte)) (Nat.pow_le_pow_right (by decide) within)
    rw [UInt32.toNat_shiftLeft, Nat.mod_eq_of_lt (within.trans_lt (by decide)), Nat.shiftLeft_eq]
    exact (Nat.mod_le _ _).trans_lt (scaled.trans_lt (by decide))
  rw [UInt32.lt_iff_toNat_lt, decodeOpenstint, UInt32.toNat_or, UInt32.toNat_or]
  exact Nat.or_lt_two_pow (Nat.or_lt_two_pow (shifted _ 16 (by decide)) (shifted _ 8 (by decide)))
    ((byteWord _).trans (by decide))

theorem prefix_toNat (word : UInt32) : (word >>> 20).toNat = word.toNat / 2 ^ 20 :=
  (UInt32.toNat_shiftRight ..).trans (Nat.shiftRight_eq_div_pow ..)

/-- The prefixes that pass the mask. -/
theorem mask_iff_prefixes {word : UInt32} (fits : word < 0x01000000) :
    word &&& 0x00A00000 = 0x00A00000 ↔
      word >>> 20 = 0b1010 ∨ word >>> 20 = 0b1011 ∨ word >>> 20 = 0b1110 ∨
        word >>> 20 = 0b1111 := by
  have each : ∀ nibble : Fin 16, UInt32.ofNat nibble &&& 0b1010 = 0b1010 ↔
      UInt32.ofNat nibble = 0b1010 ∨ UInt32.ofNat nibble = 0b1011 ∨
        UInt32.ofNat nibble = 0b1110 ∨ UInt32.ofNat nibble = 0b1111 := by decide
  have small : (word >>> 20).toNat < 16 := by
    simp only [UInt32.lt_iff_toNat_lt, UInt32.reduceToNat] at fits
    rw [prefix_toNat]
    omega
  have nibble := each ⟨_, small⟩
  rwa [UInt32.ofNat_toNat, ← mask_iff] at nibble

/-- Ids lie below the prefixes of timecodes. -/
theorem prefix_of_id {word : UInt32} (id : word < 10000000) : word >>> 20 < 0b1010 := by
  simp only [UInt32.lt_iff_toNat_lt, UInt32.reduceToNat] at id ⊢
  rw [prefix_toNat]
  omega

/-- The report on a word is lawful unless the word has one of three reserved prefixes. -/
theorem wordLaw_iff {word : UInt32} (fits : word < 0x01000000) :
    WordLaw word (wordReport word) ↔
      word >>> 20 ≠ 0b1011 ∧ word >>> 20 ≠ 0b1110 ∧ word >>> 20 ≠ 0b1111 := by
  have prefixes := mask_iff_prefixes fits
  unfold wordReport
  by_cases id : word < 10000000
  · have low := prefix_of_id id
    have above (nibble : UInt32) (high : 0b1010 ≤ nibble) : word >>> 20 ≠ nibble :=
      UInt32.ne_of_lt (UInt32.lt_of_lt_of_le low high)
    rw [if_pos id]
    refine iff_of_true ⟨(if_pos id).symm, ?_, Or.inr rfl⟩
      ⟨above _ (by decide), above _ (by decide), above _ (by decide)⟩
    exact (if_neg (above 0b1010 (by decide))).symm
  · rw [if_neg id]
    by_cases masked : word &&& 0x00A00000 = 0x00A00000
    · rw [if_pos masked]
      constructor
      · intro law
        have sync : word >>> 20 = 0b1010 := by
          by_contra other
          have none := law.timesync
          rw [if_neg other] at none
          cases none
        rw [sync]
        decide
      · rintro ⟨first, second, third⟩
        have sync : word >>> 20 = 0b1010 := by
          simpa [first, second, third] using prefixes.mp masked
        exact ⟨(if_neg id).symm, (if_pos sync).symm, Or.inl rfl⟩
    · rw [if_neg masked]
      have others : ¬ (word >>> 20 = 0b1010 ∨ word >>> 20 = 0b1011 ∨ word >>> 20 = 0b1110 ∨
          word >>> 20 = 0b1111) := mt prefixes.mpr masked
      push Not at others
      exact iff_of_true ⟨(if_neg id).symm, (if_neg others.1).symm, Or.inl rfl⟩ others.2

/-! ### One frame -/

/-- A frame with a word is reported by its word. -/
theorem report_of_word [Field R] (platform : Platform R) (codec : OpenstintCodec)
    (lookup : UInt64 → Option UInt32) (processor : FrameProcessor R) {frame : Frame R}
    {word : UInt32} (decoded : openstintWord codec frame = some word) :
    (processor.processFrame platform frame codec lookup).2 = wordReport word ∧
      word < 0x01000000 := by
  unfold openstintWord at decoded
  rw [FrameProcessor.processFrame_eq]
  split at decoded
  · rename_i softbits protocol found
    rw [protocol, found]
    dsimp only at decoded ⊢
    by_cases ok : (decodeOpenstint codec softbits).ok
    · rw [if_pos ok] at decoded
      obtain rfl := Option.some.inj decoded
      refine ⟨?_, decodeOpenstint_lt codec softbits⟩
      unfold FrameProcessor.processOpenstint wordReport
      rw [if_pos ok]
      split_ifs <;> rfl
    · rw [if_neg ok] at decoded
      cases decoded
  · cases decoded

theorem followsProtocol_iff [Field R] (platform : Platform R) (codec : OpenstintCodec)
    (processor : FrameProcessor R) (input : ProcessorInput R) :
    FollowsProtocol platform codec processor input ↔ AvoidsPrefixes codec input := by
  cases input with
  | frame lookup frame =>
    refine forall₂_congr fun word decoded => ?_
    obtain ⟨report, fits⟩ := report_of_word platform codec lookup processor decoded
    rw [← wordLaw_iff fits, ← report]
    exact and_iff_left (FrameProcessor.processFrame_recorded platform codec lookup processor frame)
  | identifyTimesyncs margin => exact Iff.rfl
  | identifyPassings deadline => exact Iff.rfl
  | evaluate rc4Trainer => exact Iff.rfl

/-- In a run every word is classified as the protocol says if and only if no word has one of
the prefixes 1011, 1110 and 1111. -/
theorem openstint_words_iff [Field R] (platform : Platform R) (codec : OpenstintCodec)
    (computePassingPoint : List (Detection R) → PassingPoint R) (inputs : List (ProcessorInput R)) :
    Along (processorStep platform codec computePassingPoint) (FollowsProtocol platform codec)
        .initial inputs ↔
      ∀ input ∈ inputs, AvoidsPrefixes codec input :=
  along_iff_inputs (followsProtocol_iff platform codec) .initial inputs

/-! ### A reserved word -/

/-- The symbols of the K=9 code with the polynomials 0x1af and 0x11d. -/
def convEncode : BitVec 9 → List Bool → List Bool
  | _, [] => []
  | register, bit :: rest =>
    let register := register <<< 1 ||| bitWord 9 bit
    parity (register &&& 0x1af#9) :: parity (register &&& 0x11d#9) :: convEncode register rest

/-- The message a line without errors carries: every first symbol of a pair tells a bit. -/
def errorFreeMessage (softbits : Nat → UInt8) : BitVec 32 :=
  (List.range 32).foldl (fun message i =>
    let message := message <<< 1
    let bit := hardDecision (softbits (2 * i)) ^^ parity (message &&& 0x1af#32)
    message ||| bitWord 32 bit) 0

/-- One byte of a reflected CRC-8 with polynomial 0x07. -/
def crc8Byte (key byte : UInt8) : UInt8 :=
  (List.range 8).foldl
    (fun key _ => if key &&& 1 = 1 then key >>> 1 ^^^ 0xe0 else key >>> 1) (key ^^^ byte)

/-- A codec that agrees with libfec on lines without errors. -/
def errorFreeCodec : OpenstintCodec where
  viterbi29 := fun softbits k =>
    .ofBitVec ((errorFreeMessage softbits >>> (24 - 8 * k.val)).setWidth 8)
  crc8ValidateMessage := fun message key => ~~~ message.foldl crc8Byte 0xff == key

/-- A frame received at full level: the preamble, the symbols of a word with its checksum, and the
tail of the transmission. -/
noncomputable def openstintFrame (word : BitVec 40) (timestamp : UInt64) : Frame ℝ :=
  { Frame.detected .openStint 0 timestamp 0 with
    softbits := ((List.range 16).map (0xf9a8#16).getMsbD ++
      convEncode 0 ((List.range 40).map word.getMsbD) ++
      [true, false, true, false]).map fun symbol => if symbol then 255 else 0 }

/-- The frame of the word 0xb00000. -/
noncomputable def reservedFrame : Frame ℝ := openstintFrame 0xb00000a200 0

theorem openstintWord_reserved : openstintWord errorFreeCodec reservedFrame = some 0xb00000 := by
  decide +kernel

/-- The reserved word 0xb00000 is taken for a timecode. -/
theorem openstint_reserved_word :
    ¬ Along (processorStep idealPlatform errorFreeCodec fun _ => ⟨0, 0, 0⟩)
      (FollowsProtocol idealPlatform errorFreeCodec) .initial
      [.frame (fun _ => none) reservedFrame] := by
  intro along
  rw [Along] at along
  obtain ⟨follows, -⟩ := along
  rw [followsProtocol_iff] at follows
  exact (follows 0xb00000 openstintWord_reserved).1 (by decide)

end OpenStint
