/-
This file states the RC3 code and proves that the receiver reads it. A transponder sends
its 24-bit id and its 8-bit status code, interleaved, through a rate-1/2 convolutional
encoder of 24 stages and then differentially; the decoder of `transponder.cpp` undoes this
with a shift register of its own.

The decoder is first rewritten to a machine on code bits, `advance`, whose register holds
the message bits read so far. On undisturbed code bits the register is exactly the
encoder's, one place further.
-/

import OpenStint.Transponder

namespace OpenStint

open Gf2

/-! ### The encoder -/

/-- Bit `i` of the interleaved message: every fourth bit is a status bit, the others are
the id, both most significant bit first. -/
def interleavedBit (id : BitVec 24) (status : BitVec 8) (i : Nat) : Bool :=
  if i % 4 ≠ 0 then id.getLsbD (23 - (3 * (i / 4) + (i % 4 - 1)))
  else status.getLsbD (7 - i / 4)

/-- The message as it enters the encoder: bit 31 first, then the zero tail. -/
def rc3Message (id : BitVec 24) (status : BitVec 8) : List Bool :=
  ((List.range 32).map fun t => interleavedBit id status (31 - t)) ++ List.replicate 8 false

/-- The convolutional encoder: two parities of the last 24 message bits for each bit. -/
def rc3EncodeFrom (register : BitVec 24) : List Bool → List Bool
  | [] => []
  | bit :: rest =>
    let register := register <<< 1 ||| bitWord 24 bit
    parity (register &&& 0xEEC20F#24) :: parity (register &&& 0xEEC20D#24) ::
      rc3EncodeFrom register rest

def rc3CodeBits (id : BitVec 24) (status : BitVec 8) : List Bool :=
  rc3EncodeFrom 0 (rc3Message id status)

/-- The symbols on air, from previous symbol 0. -/
def rc3Symbols (id : BitVec 24) (status : BitVec 8) : List Bool :=
  differentialEncode false (rc3CodeBits id status)

@[simp] theorem length_rc3Message (id : BitVec 24) (status : BitVec 8) :
    (rc3Message id status).length = 40 := by
  simp [rc3Message]

@[simp] theorem length_rc3EncodeFrom (register : BitVec 24) (message : List Bool) :
    (rc3EncodeFrom register message).length = 2 * message.length := by
  induction message generalizing register with
  | nil => rfl
  | cons bit rest inductionHypothesis =>
    simp only [rc3EncodeFrom, List.length_cons, inductionHypothesis]
    omega

@[simp] theorem length_rc3Symbols (id : BitVec 24) (status : BitVec 8) :
    (rc3Symbols id status).length = 80 := by
  simp [rc3Symbols, rc3CodeBits]

/-! ### The decoder on code bits -/

/-- One turn of the decoding loop on the two code bits it recovers. -/
def advance (register : BitVec 64 × Bool) (b0 b1 : Bool) : BitVec 64 × Bool :=
  let p := parity (register.1 &&& 0xEEC20C#64)
  let shreg0p0 := (p ^^ register.1.getLsbD 1) ^^ b0
  let shreg0p1 := p ^^ b1
  if register.2 then
    let lastOk := shreg0p0 == shreg0p1
    ((if lastOk then register.1 ||| bitWord 64 shreg0p0 else register.1) <<< 1, lastOk)
  else ((register.1 ||| (bitWord 64 (b0 ^^ b1) <<< 1 ||| bitWord 64 shreg0p1)) <<< 1, true)

/-- The code bit the differential decoder reads at an offset. -/
def codeBit (softbits : Nat → UInt8) : Nat → Bool
  | 0 => hardDecision (softbits 0)
  | t + 1 => hardDecision (softbits (t + 1)) ^^ hardDecision (softbits t)

/-- The register after the first `steps` turns. -/
def advanceAll (bits : Nat → Bool) (steps : Nat) : BitVec 64 × Bool :=
  (List.range steps).foldl (fun register k => advance register (bits (2 * k)) (bits (2 * k + 1)))
    (0, true)

@[simp] theorem advanceAll_zero (bits : Nat → Bool) : advanceAll bits 0 = (0#64, true) := rfl

theorem advanceAll_succ (bits : Nat → Bool) (steps : Nat) :
    advanceAll bits (steps + 1) =
      advance (advanceAll bits steps) (bits (2 * steps)) (bits (2 * steps + 1)) := by
  rw [advanceAll, List.range_succ, List.foldl_append]
  rfl

theorem advanceAll_congr {first second : Nat → Bool} {steps : Nat}
    (same : ∀ t < 2 * steps, first t = second t) :
    advanceAll first steps = advanceAll second steps := by
  induction steps with
  | zero => rfl
  | succ steps inductionHypothesis =>
    rw [advanceAll_succ, advanceAll_succ, inductionHypothesis fun t below => same t (by omega),
      same (2 * steps) (by omega), same (2 * steps + 1) (by omega)]

theorem popcount_odd {width : Nat} (word : BitVec width) :
    (popcount word % 2 == 1) = parity word := by
  rw [popcount_mod_two]
  cases parity word <;> rfl

theorem and_two_ne_zero (word : BitVec 64) : ((word &&& 2#64) != 0#64) = word.getLsbD 1 := by
  rw [show (2#64 : BitVec 64) = BitVec.twoPow 64 1 by decide, BitVec.and_twoPow]
  cases word.getLsbD 1 <;> decide

theorem decodeRc3Step_eq (softbits : Nat → UInt8) (state : Rc3State) (i : Nat) :
    decodeRc3Step softbits state i =
      let register := advance (state.shreg, state.lastOk)
        (hardDecision (softbits i) ^^ state.prevSym)
        (hardDecision (softbits (i + 1)) ^^ hardDecision (softbits i))
      { shreg := register.1, lastOk := register.2,
        prevSym := hardDecision (softbits (i + 1)) } := by
  simp only [decodeRc3Step, advance, popcount_odd, and_two_ne_zero, Nat.add_zero]
  cases state.lastOk <;> rfl

/-- The symbol before an offset; the decoder starts from symbol 0. -/
def symbolBefore (softbits : Nat → UInt8) : Nat → Bool
  | 0 => false
  | t + 1 => hardDecision (softbits t)

theorem codeBit_eq (softbits : Nat → UInt8) (t : Nat) :
    codeBit softbits t = (hardDecision (softbits t) ^^ symbolBefore softbits t) := by
  cases t with
  | zero => rw [codeBit, symbolBefore, Bool.xor_false]
  | succ t => rfl

theorem decodeRc3_prefix (softbits : Nat → UInt8) (steps : Nat) :
    (List.range steps).foldl (fun state step => decodeRc3Step softbits state (2 * step))
        { shreg := 0, lastOk := true, prevSym := false } =
      { shreg := (advanceAll (codeBit softbits) steps).1
        lastOk := (advanceAll (codeBit softbits) steps).2
        prevSym := symbolBefore softbits (2 * steps) } := by
  induction steps with
  | zero => rfl
  | succ steps inductionHypothesis =>
    rw [List.range_succ, List.foldl_append, inductionHypothesis, advanceAll_succ, codeBit_eq]
    exact decodeRc3Step_eq _ _ _

/-- The decoding loop is the machine on the differentially decoded bits. -/
theorem decodeRc3Loop_shreg (softbits : Nat → UInt8) :
    (decodeRc3Loop softbits).shreg = (advanceAll (codeBit softbits) 40).1 := by
  rw [decodeRc3Loop, decodeRc3_prefix]

/-! ### Undisturbed code bits -/

/-- The register after reading `past`: its bits, shifted for the next one. -/
def cleanRegister (past : List Bool) : BitVec 64 := BitVec.ofNat 64 (2 * wordOfBits past)

/-- The encoder's register after `past`. -/
def encoderRegister (past : List Bool) : BitVec 24 := BitVec.ofNat 24 (wordOfBits past)

/-- The two parities of a register differ from the decoder's only by its two lowest bits. -/
theorem parity_generators (register : BitVec 24) :
    parity (register &&& 0xEEC20F#24) =
        (parity (register &&& 0xEEC20C#24) ^^ (register.getLsbD 1 ^^ register.getLsbD 0)) ∧
      parity (register &&& 0xEEC20D#24) =
        (parity (register &&& 0xEEC20C#24) ^^ register.getLsbD 0) := by
  constructor
  · rw [show (0xEEC20F#24) = 0xEEC20C#24 ^^^ (BitVec.twoPow 24 1 ^^^ BitVec.twoPow 24 0) by decide,
      parity_and_xor, parity_and_xor, parity_and_twoPow _ (by decide),
      parity_and_twoPow _ (by decide)]
  · rw [show (0xEEC20D#24) = 0xEEC20C#24 ^^^ BitVec.twoPow 24 0 by decide, parity_and_xor,
      parity_and_twoPow _ (by decide)]

theorem two_mul_or_toNat (value : Nat) (bit : Bool) :
    2 * value ||| bit.toNat = 2 * value + bit.toNat := by
  have small : bit.toNat < 2 ^ 1 := by cases bit <;> decide
  rw [Nat.mul_comm, ← Nat.pow_one 2, ← Nat.shiftLeft_eq, Nat.shiftLeft_add_eq_or_of_lt small]

theorem bitWord_eq_ofNat (width : Nat) (bit : Bool) :
    bitWord width bit = BitVec.ofNat width bit.toNat := by
  apply BitVec.eq_of_toNat_eq
  rw [bitWord, BitVec.toNat_setWidth, BitVec.toNat_ofBool, BitVec.toNat_ofNat]

theorem ofNat_shiftLeft_one (width value : Nat) :
    BitVec.ofNat width value <<< 1 = BitVec.ofNat width (2 * value) := by
  apply BitVec.eq_of_toNat_eq
  rw [BitVec.toNat_shiftLeft, BitVec.toNat_ofNat, BitVec.toNat_ofNat, Nat.shiftLeft_eq,
    Nat.mod_mul_mod, Nat.pow_one, Nat.mul_comm]

theorem encoderRegister_concat (past : List Bool) (bit : Bool) :
    encoderRegister past <<< 1 ||| bitWord 24 bit = encoderRegister (past ++ [bit]) := by
  rw [encoderRegister, encoderRegister, ofNat_shiftLeft_one, bitWord_eq_ofNat, ← BitVec.ofNat_or,
    two_mul_or_toNat, wordOfBits_concat]

theorem cleanRegister_concat (past : List Bool) (bit : Bool) :
    (cleanRegister past ||| bitWord 64 bit) <<< 1 = cleanRegister (past ++ [bit]) := by
  rw [cleanRegister, cleanRegister, bitWord_eq_ofNat, ← BitVec.ofNat_or, two_mul_or_toNat,
    ofNat_shiftLeft_one, wordOfBits_concat]

/-- Above its lowest bit the encoder's register is the decoder's. -/
theorem getLsbD_cleanRegister (past : List Bool) (bit : Bool) (index : Nat)
    (below : index + 1 < 24) :
    (cleanRegister past).getLsbD (index + 1) =
      (encoderRegister (past ++ [bit])).getLsbD (index + 1) := by
  have halves : (2 * wordOfBits past + bit.toNat) / 2 = 2 * wordOfBits past / 2 := by
    have small := Bool.toNat_le bit
    omega
  rw [cleanRegister, encoderRegister, BitVec.getLsbD_ofNat, BitVec.getLsbD_ofNat,
    wordOfBits_concat, Nat.testBit_succ, Nat.testBit_succ, halves, decide_eq_true below,
    decide_eq_true (show index + 1 < 64 by omega)]

/-- The decoder's parity of the past is the encoder's parity once the next bit is in. -/
theorem parity_cleanRegister (past : List Bool) (bit : Bool) :
    parity (cleanRegister past &&& 0xEEC20C#64) =
      parity (encoderRegister (past ++ [bit]) &&& 0xEEC20C#24) := by
  have blind : (0xEEC20C#24).getLsbD 0 = false := by decide
  rw [show (0xEEC20C#64) = (0xEEC20C#24).setWidth 64 by decide,
    parity_and_setWidth (by decide)]
  refine congrArg parity (BitVec.eq_of_getLsbD_eq fun index below => ?_)
  rw [BitVec.getLsbD_and, BitVec.getLsbD_and, BitVec.getLsbD_setWidth]
  -- the mask does not look at bit 0, the only one in which the two words differ
  cases index with
  | zero => rw [blind, Bool.and_false, Bool.and_false]
  | succ index =>
    rw [getLsbD_cleanRegister past bit index below, decide_eq_true below, Bool.true_and]

theorem getLsbD_encoderRegister (past : List Bool) (bit : Bool) :
    (encoderRegister (past ++ [bit])).getLsbD 0 = bit := by
  rw [encoderRegister, BitVec.getLsbD_ofNat, wordOfBits_concat]
  cases bit <;> simp

/-- The two code bits the encoder sends for `bit` after `past`, in the decoder's terms. -/
theorem encoder_parities (past : List Bool) (bit : Bool) :
    parity (encoderRegister (past ++ [bit]) &&& 0xEEC20F#24) =
        (parity (cleanRegister past &&& 0xEEC20C#64) ^^ ((cleanRegister past).getLsbD 1 ^^ bit)) ∧
      parity (encoderRegister (past ++ [bit]) &&& 0xEEC20D#24) =
        (parity (cleanRegister past &&& 0xEEC20C#64) ^^ bit) := by
  rw [(parity_generators _).1, (parity_generators _).2, ← parity_cleanRegister,
    ← getLsbD_cleanRegister past bit 0 (by decide), getLsbD_encoderRegister]
  exact ⟨rfl, rfl⟩

/-- On its own code bits a clean register takes in the next message bit. -/
theorem advance_clean (past : List Bool) (bit : Bool) :
    advance (cleanRegister past, true)
        (parity (encoderRegister (past ++ [bit]) &&& 0xEEC20F#24))
        (parity (encoderRegister (past ++ [bit]) &&& 0xEEC20D#24)) =
      (cleanRegister (past ++ [bit]), true) := by
  rw [(encoder_parities past bit).1, (encoder_parities past bit).2, ← cleanRegister_concat]
  simp only [advance]
  cases parity (cleanRegister past &&& 0xEEC20C#64) <;>
    cases (cleanRegister past).getLsbD 1 <;> cases bit <;> rfl

theorem getD_rc3EncodeFrom (past message : List Bool) {k : Nat} (below : k < message.length) :
    (rc3EncodeFrom (encoderRegister past) message).getD (2 * k) false =
        parity (encoderRegister (past ++ message.take (k + 1)) &&& 0xEEC20F#24) ∧
      (rc3EncodeFrom (encoderRegister past) message).getD (2 * k + 1) false =
        parity (encoderRegister (past ++ message.take (k + 1)) &&& 0xEEC20D#24) := by
  induction message generalizing past k with
  | nil => simp at below
  | cons bit rest inductionHypothesis =>
    rw [rc3EncodeFrom, encoderRegister_concat]
    cases k with
    | zero => exact ⟨rfl, rfl⟩
    | succ k =>
      have step := inductionHypothesis (past ++ [bit]) (Nat.lt_of_succ_lt_succ below)
      rw [List.append_assoc, List.singleton_append, ← List.take_succ_cons] at step
      exact step

/-- On the encoder's output the machine's register is clean at every step. -/
theorem advanceAll_encoded (message : List Bool) {steps : Nat} (within : steps ≤ message.length) :
    advanceAll (fun t => (rc3EncodeFrom 0 message).getD t false) steps =
      (cleanRegister (message.take steps), true) := by
  induction steps with
  | zero => rfl
  | succ steps inductionHypothesis =>
    have bits := getD_rc3EncodeFrom [] message within
    rw [List.nil_append, List.take_succ_eq_append_getElem within] at bits
    rw [advanceAll_succ, inductionHypothesis (Nat.le_of_lt within),
      List.take_succ_eq_append_getElem within, ← advance_clean, ← bits.1, ← bits.2]
    rfl

/-! ### The tail and the de-interleaving -/

theorem wordOfBits_append_zeros (bits : List Bool) (count : Nat) :
    wordOfBits (bits ++ List.replicate count false) = wordOfBits bits * 2 ^ count := by
  induction count with
  | zero => simp
  | succ count inductionHypothesis =>
    rw [List.replicate_succ', ← List.append_assoc, wordOfBits_concat, inductionHypothesis,
      Nat.pow_succ]
    simp only [Bool.toNat_false, Nat.add_zero]
    ring

/-- The message word the interleaver makes. -/
def interleave (id : BitVec 24) (status : BitVec 8) : BitVec 32 :=
  BitVec.ofNat 32 (wordOfBits ((List.range 32).map fun t => interleavedBit id status (31 - t)))

theorem getLsbD_interleave (id : BitVec 24) (status : BitVec 8) {i : Nat} (below : i < 32) :
    (interleave id status).getLsbD i = interleavedBit id status i := by
  rw [interleave, BitVec.getLsbD_ofNat, decide_eq_true below, Bool.true_and,
    testBit_wordOfBits_of_lt _ (by simpa using below), List.length_map, List.length_range,
    List.getD_eq_getElem _ _ (by simp; omega), List.getElem_map, List.getElem_range]
  congr 1
  omega

theorem getLsbD_bitWord (width : Nat) (bit : Bool) (index : Nat) :
    (bitWord width bit).getLsbD index =
      (decide (index < width) && (decide (index = 0) && bit)) := by
  rw [bitWord, BitVec.getLsbD_setWidth, BitVec.getLsbD_ofBool]

theorem shiftRight_take_bit {width : Nat} (word : BitVec width) (k : Nat) :
    (word >>> (k + 1)) <<< 1 ||| bitWord width (word.getLsbD k) = word >>> k := by
  refine BitVec.eq_of_getLsbD_eq fun index below => ?_
  rw [BitVec.getLsbD_or, BitVec.getLsbD_shiftLeft, BitVec.getLsbD_ushiftRight, getLsbD_bitWord,
    BitVec.getLsbD_ushiftRight]
  cases index with
  | zero => simp [below]
  | succ index =>
    rw [show k + 1 + (index + 1 - 1) = k + (index + 1) by omega]
    simp [below]

/-- What the de-interleaving loop has taken in after `count` message bits: the highest bits
of the id and of the status code. -/
theorem deinterleave_prefix (id : BitVec 24) (status : BitVec 8) {count : Nat}
    (within : count ≤ 32) :
    (List.range count).foldl (deinterleaveStep (interleave id status)) (0, 0) =
      (id.setWidth 32 >>> (24 - (count - (count + 3) / 4)), status >>> (8 - (count + 3) / 4)) := by
  induction count with
  | zero =>
    refine Prod.ext (BitVec.eq_of_getLsbD_eq fun index _ => ?_)
      (BitVec.eq_of_getLsbD_eq fun index _ => ?_)
    · simp
    · simp
  | succ count inductionHypothesis =>
    rw [List.range_succ, List.foldl_append, inductionHypothesis (by omega), List.foldl_cons,
      List.foldl_nil, deinterleaveStep, getLsbD_interleave id status within, interleavedBit]
    by_cases statusBit : count % 4 = 0
    · rw [if_neg (not_not.mpr statusBit), if_neg (not_not.mpr statusBit),
        show 8 - (count + 3) / 4 = 7 - count / 4 + 1 by omega, shiftRight_take_bit,
        show 8 - (count + 1 + 3) / 4 = 7 - count / 4 by omega,
        show count + 1 - (count + 1 + 3) / 4 = count - (count + 3) / 4 by omega]
    · have place : (id.setWidth 32).getLsbD (23 - (3 * (count / 4) + (count % 4 - 1))) =
          id.getLsbD (23 - (3 * (count / 4) + (count % 4 - 1))) := by
        rw [BitVec.getLsbD_setWidth, decide_eq_true (by omega), Bool.true_and]
      rw [if_pos statusBit, if_pos statusBit, ← place,
        show 24 - (count - (count + 3) / 4) =
          23 - (3 * (count / 4) + (count % 4 - 1)) + 1 by omega, shiftRight_take_bit,
        show 24 - (count + 1 - (count + 1 + 3) / 4) =
          23 - (3 * (count / 4) + (count % 4 - 1)) by omega,
        show (count + 1 + 3) / 4 = (count + 3) / 4 by omega]

theorem deinterleave_interleave (id : BitVec 24) (status : BitVec 8) :
    deinterleave (interleave id status) = (id.setWidth 32, status) := by
  rw [deinterleave, deinterleave_prefix id status le_rfl]
  rfl

/-! ### The round trip -/

/-- The register after the whole message holds the message word above a zero tail. -/
theorem cleanRegister_message (id : BitVec 24) (status : BitVec 8) :
    (cleanRegister (rc3Message id status) >>> 1) &&& 0xff#64 = 0#64 ∧
      ((cleanRegister (rc3Message id status) >>> 1) >>> 8).setWidth 32 = interleave id status := by
  have size := wordOfBits_lt ((List.range 32).map fun t => interleavedBit id status (31 - t))
  rw [List.length_map, List.length_range] at size
  rw [cleanRegister, rc3Message, wordOfBits_append_zeros, interleave]
  generalize wordOfBits ((List.range 32).map fun t => interleavedBit id status (31 - t)) = word
    at size ⊢
  have register : (BitVec.ofNat 64 (2 * (word * 2 ^ 8)) >>> 1).toNat = word * 2 ^ 8 := by
    rw [BitVec.toNat_ushiftRight, BitVec.toNat_ofNat, Nat.mod_eq_of_lt (by omega),
      Nat.shiftRight_eq_div_pow]
    omega
  constructor
  · apply BitVec.eq_of_toNat_eq
    rw [BitVec.toNat_and, register, show (0xff#64).toNat = 2 ^ 8 - 1 by decide,
      Nat.and_two_pow_sub_one_eq_mod, Nat.mul_mod_left]
    rfl
  · apply BitVec.eq_of_toNat_eq
    rw [BitVec.toNat_setWidth, BitVec.toNat_ushiftRight, register, Nat.shiftRight_eq_div_pow,
      Nat.mul_div_cancel _ (by decide), BitVec.toNat_ofNat]

/-- A clean register at the end is the id and the status code. -/
theorem decodeRc3_of_register (softbits : Nat → UInt8) (id : BitVec 24) (status : BitVec 8)
    (register : (decodeRc3Loop softbits).shreg = cleanRegister (rc3Message id status)) :
    decodeRc3 softbits =
      { ok := true, transponderId := id.setWidth 32, statusCode := status } := by
  have word := cleanRegister_message id status
  rw [decodeRc3, register, word.1, word.2, deinterleave_interleave]
  rfl

/-- Code bits that are the encoder's decode to the id and the status code. -/
theorem decodeRc3_of_codeBits (softbits : Nat → UInt8) (id : BitVec 24) (status : BitVec 8)
    (sent : ∀ t < 80, codeBit softbits t = (rc3CodeBits id status).getD t false) :
    decodeRc3 softbits =
      { ok := true, transponderId := id.setWidth 32, statusCode := status } := by
  refine decodeRc3_of_register softbits id status ?_
  rw [decodeRc3Loop_shreg, advanceAll_congr sent, rc3CodeBits,
    advanceAll_encoded _ (length_rc3Message id status).ge,
    List.take_of_length_le (length_rc3Message id status).le]

/-- Softbits whose hard decisions are the symbols on air decode to what was sent. -/
theorem decodeRc3_of_symbols (softbits : Nat → UInt8) (id : BitVec 24) (status : BitVec 8)
    (sent : ∀ t < 80, hardDecision (softbits t) = (rc3Symbols id status).getD t false) :
    decodeRc3 softbits =
      { ok := true, transponderId := id.setWidth 32, statusCode := status } := by
  refine decodeRc3_of_codeBits softbits id status fun t below => ?_
  have code := getD_differentialEncode false (rc3CodeBits id status) t
    (by simpa [rc3CodeBits] using below)
  have here := sent t below
  rw [rc3Symbols] at here
  cases t with
  | zero =>
    rw [codeBit, here, code, Bool.xor_false]
  | succ t =>
    have before := sent t (by omega)
    rw [rc3Symbols] at before
    rw [codeBit, here, before, code]
    simp

end OpenStint
