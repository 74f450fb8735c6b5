/-
This file is about the RC3 decoder on a disturbed line. The decoder feeds its decisions back
into its own parity, so one wrong code bit acts for many steps; but exclusive or carries
through every one of them. Run on the flips alone, as if they were code bits, the decoder
computes what the flips do to its register, whatever message was sent.

Flips that stay apart are repaired: the step that sees one leaves its bit open and the next
step tells it. A wrong symbol flips two neighbouring code bits, which the zero tail notices.
-/

import OpenStint.Rc3Code

namespace OpenStint

open Gf2

/-! ### The decoder on flips -/

/-- A register that read a disturbed line against the error the flips alone leave. While a
bit is open it is zero in both, whatever was sent. -/
structure Disturbed (past : List Bool) (error register : BitVec 64 × Bool) : Prop where
  mode : register.2 = error.2
  word : register.1 =
    if error.2 then cleanRegister past ^^^ error.1
    else (cleanRegister past ^^^ error.1) &&& ~~~BitVec.twoPow 64 1
  low : error.1.getLsbD 0 = false
  openBit : error.2 = false → error.1.getLsbD 1 = false

theorem cleanRegister_getLsbD_zero (past : List Bool) :
    (cleanRegister past).getLsbD 0 = false := by
  rw [cleanRegister, BitVec.getLsbD_ofNat]
  simp

theorem getLsbD_shiftLeft_one (word : BitVec 64) : (word <<< 1).getLsbD 0 = false := by simp

theorem getLsbD_bitWord_shiftLeft (bit : Bool) (index : Nat) :
    (bitWord 64 bit <<< 1).getLsbD index =
      (decide (index < 64) && (decide (index = 1) && bit)) := by
  rw [BitVec.getLsbD_shiftLeft, getLsbD_bitWord]
  rcases index with _ | _ | index
  · rfl
  · rfl
  · simp

/-- The parity of the past does not see the open bit. -/
theorem parity_open (word : BitVec 64) :
    parity (word &&& ~~~BitVec.twoPow 64 1 &&& 0xEEC20C#64) = parity (word &&& 0xEEC20C#64) := by
  rw [BitVec.and_assoc, show ~~~BitVec.twoPow 64 1 &&& 0xEEC20C#64 = 0xEEC20C#64 by decide]

/-- Writing a disturbed bit is writing the bit and the error side by side. -/
theorem xor_write (past : List Bool) (error : BitVec 64) (low : error.getLsbD 0 = false)
    (bit wrong : Bool) :
    (cleanRegister past ^^^ error) ||| bitWord 64 (bit ^^ wrong) =
      (cleanRegister past ||| bitWord 64 bit) ^^^ (error ||| bitWord 64 wrong) := by
  refine BitVec.eq_of_getLsbD_eq fun index below => ?_
  simp only [BitVec.getLsbD_or, BitVec.getLsbD_xor, getLsbD_bitWord]
  cases index with
  | zero =>
    rw [low, cleanRegister_getLsbD_zero]
    simp
  | succ index => simp

/-- Closing an open bit reads the bit sent, wrong where the flips make it so. -/
theorem xor_close (past : List Bool) (error : BitVec 64) (low : error.getLsbD 0 = false)
    (openBit : error.getLsbD 1 = false) (bit wrong closing : Bool) :
    ((cleanRegister past ^^^ error) &&& ~~~BitVec.twoPow 64 1) |||
        (bitWord 64 ((cleanRegister past).getLsbD 1 ^^ closing) <<< 1 |||
          bitWord 64 (bit ^^ wrong)) =
      (cleanRegister past ||| bitWord 64 bit) ^^^
        (error ||| (bitWord 64 closing <<< 1 ||| bitWord 64 wrong)) := by
  refine BitVec.eq_of_getLsbD_eq fun index below => ?_
  simp only [BitVec.getLsbD_or, BitVec.getLsbD_xor, BitVec.getLsbD_and, BitVec.getLsbD_not,
    BitVec.getLsbD_twoPow, getLsbD_bitWord, getLsbD_bitWord_shiftLeft]
  rcases index with _ | _ | index
  · rw [low, cleanRegister_getLsbD_zero]
    simp
  · rw [Nat.zero_add, openBit]
    simp
  · simp [below]

/-- A step that leaves its bit open: the open bit is cleared, not the one sent. -/
theorem shift_open (past : List Bool) (error : BitVec 64) (low : error.getLsbD 0 = false)
    (bit : Bool) :
    (cleanRegister past ^^^ error) <<< 1 =
      ((cleanRegister past ||| bitWord 64 bit) <<< 1 ^^^ error <<< 1) &&&
        ~~~BitVec.twoPow 64 1 := by
  refine BitVec.eq_of_getLsbD_eq fun index below => ?_
  simp only [BitVec.getLsbD_or, BitVec.getLsbD_xor, BitVec.getLsbD_and, BitVec.getLsbD_not,
    BitVec.getLsbD_twoPow, BitVec.getLsbD_shiftLeft, getLsbD_bitWord]
  rcases index with _ | _ | index
  · simp
  · rw [Nat.zero_add, Nat.sub_self, low, cleanRegister_getLsbD_zero]
    simp
  · simp [below]

/-- The two estimates of the next bit: the bit sent, wrong by what the flips alone would
decode to. -/
theorem estimates_disturbed (p parityError last lastError bit flip0 flip1 : Bool) :
    (((p ^^ parityError) ^^ (last ^^ lastError)) ^^ ((p ^^ (last ^^ bit)) ^^ flip0)) =
        (bit ^^ ((parityError ^^ lastError) ^^ flip0)) ∧
      ((p ^^ parityError) ^^ ((p ^^ bit) ^^ flip1)) = (bit ^^ (parityError ^^ flip1)) := by
  cases p <;> cases last <;> simp [Bool.xor_left_comm, Bool.xor_comm]

/-- One step on a disturbed line, against one step on the flips. -/
theorem advance_disturbed {past : List Bool} {error register : BitVec 64 × Bool}
    (disturbed : Disturbed past error register) (bit flip0 flip1 : Bool) :
    Disturbed (past ++ [bit]) (advance error flip0 flip1)
      (advance register (parity (encoderRegister (past ++ [bit]) &&& 0xEEC20F#24) ^^ flip0)
        (parity (encoderRegister (past ++ [bit]) &&& 0xEEC20D#24) ^^ flip1)) := by
  obtain ⟨error, errorMode⟩ := error
  obtain ⟨register, registerMode⟩ := register
  obtain ⟨mode, word, low, openBit⟩ := disturbed
  simp only at mode word low openBit
  subst mode word
  rw [(encoder_parities past bit).1, (encoder_parities past bit).2]
  cases registerMode with
  | true =>
    have estimates := estimates_disturbed (parity (cleanRegister past &&& 0xEEC20C#64))
      (parity (error &&& 0xEEC20C#64)) ((cleanRegister past).getLsbD 1) (error.getLsbD 1) bit
      flip0 flip1
    simp only [advance, if_true, parity_xor_and, BitVec.getLsbD_xor, estimates.1, estimates.2]
    generalize ((parity (error &&& 0xEEC20C#64) ^^ error.getLsbD 1) ^^ flip0) = wrong0
    generalize (parity (error &&& 0xEEC20C#64) ^^ flip1) = wrong1
    have agree : ((bit ^^ wrong0) == (bit ^^ wrong1)) = (wrong0 == wrong1) := by
      cases bit <;> cases wrong0 <;> cases wrong1 <;> rfl
    rw [agree]
    cases wrong0 == wrong1 with
    | true =>
      exact
        { mode := rfl
          word := by
            simp only [if_true]
            rw [xor_write past error low, ← cleanRegister_concat, BitVec.shiftLeft_xor_distrib]
          low := getLsbD_shiftLeft_one _
          openBit := by rintro ⟨⟩ }
    | false =>
      exact
        { mode := rfl
          word := by
            simp only [Bool.false_eq_true, if_false]
            rw [shift_open past error low bit, cleanRegister_concat]
          low := getLsbD_shiftLeft_one _
          openBit := fun _ => by
            simp only [Bool.false_eq_true, if_false]
            rw [BitVec.getLsbD_shiftLeft]
            simpa using low }
  | false =>
    have estimates := estimates_disturbed (parity (cleanRegister past &&& 0xEEC20C#64))
      (parity (error &&& 0xEEC20C#64)) ((cleanRegister past).getLsbD 1) false bit flip0 flip1
    have closing : (((parity (cleanRegister past &&& 0xEEC20C#64) ^^
          ((cleanRegister past).getLsbD 1 ^^ bit)) ^^ flip0) ^^
        ((parity (cleanRegister past &&& 0xEEC20C#64) ^^ bit) ^^ flip1)) =
          ((cleanRegister past).getLsbD 1 ^^ (flip0 ^^ flip1)) := by
      cases parity (cleanRegister past &&& 0xEEC20C#64) <;> cases bit <;>
        simp [Bool.xor_left_comm, Bool.xor_comm]
    exact
      { mode := rfl
        word := by
          simp only [advance, Bool.false_eq_true, if_false, if_true, parity_open, parity_xor_and,
            estimates.2, closing]
          rw [xor_close past error low (openBit rfl), ← cleanRegister_concat,
            BitVec.shiftLeft_xor_distrib]
        low := getLsbD_shiftLeft_one _
        openBit := by rintro ⟨⟩ }

/-- The decoder on a disturbed line, against the decoder on the flips, after any number of
steps. -/
theorem advanceAll_disturbed (message : List Bool) (flips : Nat → Bool) {steps : Nat}
    (within : steps ≤ message.length) :
    Disturbed (message.take steps) (advanceAll flips steps)
      (advanceAll (fun t => (rc3EncodeFrom 0 message).getD t false ^^ flips t) steps) := by
  induction steps with
  | zero =>
    exact
      { mode := rfl
        word := by simp [cleanRegister]
        low := BitVec.getLsbD_zero
        openBit := by rintro ⟨⟩ }
  | succ steps inductionHypothesis =>
    have bits := getD_rc3EncodeFrom [] message within
    rw [List.nil_append, List.take_succ_eq_append_getElem within] at bits
    have step := advance_disturbed (inductionHypothesis (Nat.le_of_lt within)) message[steps]
      (flips (2 * steps)) (flips (2 * steps + 1))
    rw [← bits.1, ← bits.2, ← List.take_succ_eq_append_getElem within] at step
    rw [advanceAll_succ, advanceAll_succ]
    exact step

/-! ### What a disturbed frame decodes to -/

/-- The message ends in a zero, so its last bit may stay open. -/
theorem cleanRegister_message_getLsbD_one (id : BitVec 24) (status : BitVec 8) :
    (cleanRegister (rc3Message id status)).getLsbD 1 = false := by
  rw [cleanRegister, rc3Message, show (8 : Nat) = 7 + 1 from rfl, List.replicate_succ',
    ← List.append_assoc, wordOfBits_concat, BitVec.getLsbD_ofNat, Nat.testBit_succ]
  simp

theorem decodeRc3Loop_disturbed (softbits : Nat → UInt8) (id : BitVec 24) (status : BitVec 8)
    (flips : Nat → Bool)
    (received : ∀ t < 80, codeBit softbits t = ((rc3CodeBits id status).getD t false ^^ flips t)) :
    (decodeRc3Loop softbits).shreg =
      cleanRegister (rc3Message id status) ^^^ (advanceAll flips 40).1 := by
  have disturbed := advanceAll_disturbed (rc3Message id status) flips
    (length_rc3Message id status).ge
  rw [List.take_of_length_le (length_rc3Message id status).le] at disturbed
  rw [decodeRc3Loop_shreg, advanceAll_congr received, rc3CodeBits, disturbed.word]
  cases mode : (advanceAll flips 40).2 with
  | true => rw [if_pos rfl]
  | false =>
    have message := cleanRegister_message_getLsbD_one id status
    rw [if_neg Bool.false_ne_true]
    refine BitVec.eq_of_getLsbD_eq fun index below => ?_
    rw [BitVec.getLsbD_and, BitVec.getLsbD_not, BitVec.getLsbD_twoPow, BitVec.getLsbD_xor]
    by_cases last : index = 1
    · rw [last, message, disturbed.openBit mode]
      rfl
    · simp [below, Ne.symm last]

/-- A nonzero tail. -/
def noticed (register : BitVec 64 × Bool) : Bool := register.1 >>> 1 &&& 0xff#64 != 0#64

/-- The decoder accepts exactly when the flips alone leave a zero tail. -/
theorem decodeRc3_ok_disturbed (softbits : Nat → UInt8) (id : BitVec 24) (status : BitVec 8)
    (flips : Nat → Bool)
    (received : ∀ t < 80, codeBit softbits t = ((rc3CodeBits id status).getD t false ^^ flips t)) :
    (decodeRc3 softbits).ok = !noticed (advanceAll flips 40) := by
  rw [noticed, bne, Bool.not_not, decodeRc3,
    decodeRc3Loop_disturbed softbits id status flips received, BitVec.ushiftRight_xor_distrib,
    xor_and, (cleanRegister_message id status).1, BitVec.zero_xor]
  rfl

/-- Flips that cancel in the register do no harm. -/
theorem decodeRc3_of_cancelled (softbits : Nat → UInt8) (id : BitVec 24) (status : BitVec 8)
    (flips : Nat → Bool)
    (received : ∀ t < 80, codeBit softbits t = ((rc3CodeBits id status).getD t false ^^ flips t))
    (cancelled : (advanceAll flips 40).1 = 0#64) :
    decodeRc3 softbits =
      { ok := true, transponderId := id.setWidth 32, statusCode := status } := by
  apply decodeRc3_of_register
  rw [decodeRc3Loop_disturbed softbits id status flips received, cancelled, BitVec.xor_zero]

/-! ### Slips and wrong symbols -/

/-- The code bits a wrong decision on each of some symbols flips: differential decoding
compares every symbol with the one before. -/
def flipsOf (wrong : Nat → Bool) : Nat → Bool
  | 0 => wrong 0
  | t + 1 => wrong (t + 1) ^^ wrong t

theorem codeBit_of_wrong (softbits : Nat → UInt8) (id : BitVec 24) (status : BitVec 8)
    (wrong : Nat → Bool)
    (received : ∀ t < 80,
      hardDecision (softbits t) = ((rc3Symbols id status).getD t false ^^ wrong t)) :
    ∀ t < 80, codeBit softbits t = ((rc3CodeBits id status).getD t false ^^ flipsOf wrong t) := by
  intro t below
  have code := getD_differentialEncode false (rc3CodeBits id status) t
    (by simpa [rc3CodeBits] using below)
  have here := received t below
  rw [rc3Symbols] at here
  cases t with
  | zero =>
    rw [codeBit, here, code, Bool.xor_false, flipsOf]
  | succ t =>
    have before := received t (by omega)
    rw [rc3Symbols] at before
    rw [codeBit, here, before, code, flipsOf]
    simp [Bool.xor_left_comm, Bool.xor_comm]

/-- A flipped code bit is a carrier slip: it complements every symbol from its own on. -/
theorem codeBit_flips_iff (softbits : Nat → UInt8) (id : BitVec 24) (status : BitVec 8)
    (flips : Nat → Bool) :
    (∀ t < 80, codeBit softbits t = ((rc3CodeBits id status).getD t false ^^ flips t)) ↔
      ∀ t < 80, hardDecision (softbits t) =
        ((rc3Symbols id status).getD t false ^^ parityOf flips (t + 1)) := by
  constructor
  · intro received t below
    have code := getD_differentialEncode false (rc3CodeBits id status) t
      (by simpa [rc3CodeBits] using below)
    induction t with
    | zero =>
      have here := received 0 below
      rw [codeBit] at here
      rw [here, rc3Symbols, code]
      simp [parityOf]
    | succ t inductionHypothesis =>
      have before := inductionHypothesis (by omega) (getD_differentialEncode false
        (rc3CodeBits id status) t (by simpa [rc3CodeBits] using Nat.lt_of_succ_lt below))
      have here := received (t + 1) below
      rw [codeBit, before, rc3Symbols] at here
      rw [rc3Symbols, code, parityOf, ← Bool.xor_false (hardDecision (softbits (t + 1))),
        ← Bool.xor_self ((differentialEncode false (rc3CodeBits id status)).getD t false ^^
          parityOf flips (t + 1)), ← Bool.xor_assoc, here]
      simp [Bool.xor_left_comm, Bool.xor_comm]
  · intro received t below
    rw [codeBit_of_wrong softbits id status _ received t below]
    cases t with
    | zero => simp [flipsOf, parityOf]
    | succ t => simp [flipsOf, parityOf]

/-! ### Flips that stay apart -/

/-- No step has both its code bits flipped, and no two steps in a row have a flip. -/
structure Correctable (flips : Nat → Bool) : Prop where
  single : ∀ step < 40, flips (2 * step) = true → flips (2 * step + 1) = false
  apart : ∀ step < 39, (flips (2 * step) || flips (2 * step + 1)) = true →
    (flips (2 * (step + 1)) || flips (2 * (step + 1) + 1)) = false

theorem advance_quiet (mode : Bool) : advance (0#64, mode) false false = (0#64, true) := by
  cases mode <;> decide +kernel

theorem advance_flip (first : Bool) : advance (0#64, true) first (!first) = (0#64, false) := by
  cases first <;> decide +kernel

/-- The register never takes in an error: a step either reads its bit or, at a flip, leaves
it open, and the step after a flip is clean and closes it. -/
theorem advanceAll_correctable {flips : Nat → Bool} (correctable : Correctable flips)
    {steps : Nat} (within : steps ≤ 40) :
    (advanceAll flips steps).1 = 0#64 ∧
      ((advanceAll flips steps).2 = false →
        ∃ last, steps = last + 1 ∧ (flips (2 * last) || flips (2 * last + 1)) = true) := by
  induction steps with
  | zero => exact ⟨rfl, by rintro ⟨⟩⟩
  | succ steps inductionHypothesis =>
    obtain ⟨clean, flipped⟩ := inductionHypothesis (Nat.le_of_lt within)
    have single := correctable.single steps within
    rw [advanceAll_succ]
    generalize advanceAll flips steps = register at clean flipped ⊢
    obtain ⟨register, mode⟩ := register
    simp only at clean flipped
    subst clean
    cases mode with
    | true =>
      by_cases flip : flips (2 * steps + 1) = !flips (2 * steps)
      · rw [flip, advance_flip]
        exact ⟨rfl, fun _ => ⟨steps, rfl, by rw [flip, Bool.or_not_self]⟩⟩
      · have quiet : flips (2 * steps) = false ∧ flips (2 * steps + 1) = false := by
          cases first : flips (2 * steps) with
          | true => exact absurd (by rw [single first, first]; rfl) flip
          | false => exact ⟨rfl, by simpa [first] using flip⟩
        rw [quiet.1, quiet.2, advance_quiet]
        exact ⟨rfl, by rintro ⟨⟩⟩
    | false =>
      obtain ⟨last, rfl, flip⟩ := flipped rfl
      have quiet := correctable.apart last (by omega) flip
      rw [Bool.or_eq_false_iff] at quiet
      rw [quiet.1, quiet.2, advance_quiet]
      exact ⟨rfl, by rintro ⟨⟩⟩

/-- A frame whose flipped code bits stay apart decodes to the id and the status code sent.
In terms of the symbols, the line is complemented from every flipped code bit on. -/
theorem rc3_corrects_flips (id : BitVec 24) (status : BitVec 8) (flips : Nat → Bool)
    (correctable : Correctable flips) (softbits : Nat → UInt8) :
    ((∀ t < 80, codeBit softbits t = ((rc3CodeBits id status).getD t false ^^ flips t)) ↔
        ∀ t < 80, hardDecision (softbits t) =
          ((rc3Symbols id status).getD t false ^^ parityOf flips (t + 1))) ∧
      ((∀ t < 80, codeBit softbits t = ((rc3CodeBits id status).getD t false ^^ flips t)) →
        decodeRc3 softbits =
          { ok := true, transponderId := id.setWidth 32, statusCode := status }) :=
  ⟨codeBit_flips_iff softbits id status flips, fun received =>
    decodeRc3_of_cancelled softbits id status flips received
      (advanceAll_correctable correctable le_rfl).1⟩

/-- Slips at code bits 3, 8 and 79, the last one in the last step. -/
theorem rc3_corrects_flips_1234567 :
    decodeRc3 (fun t => if ((rc3Symbols 1234567#24 0xa0#8).getD t false ^^
        parityOf (fun t => t == 3 || t == 8 || t == 79) (t + 1)) then 255 else 0) =
      { ok := true, transponderId := 1234567#32, statusCode := 0xa0#8 } :=
  (rc3_corrects_flips 1234567#24 0xa0#8 (fun t => t == 3 || t == 8 || t == 79)
    { single := by decide, apart := by decide } _).2 (by decide +kernel)

/-! ### One wrong symbol -/

/-- The code bits one wrong symbol flips. -/
def symbolFlips (position : Nat) : Nat → Bool := flipsOf fun t => t == position

/-- A step that sees no flip. -/
def quietStep (register : BitVec 64 × Bool) : BitVec 64 × Bool := advance register false false

theorem advanceAll_quiet (flips : Nat → Bool) (start steps : Nat)
    (quiet : ∀ t, 2 * start ≤ t → t < 2 * (start + steps) → flips t = false) :
    advanceAll flips (start + steps) = quietStep^[steps] (advanceAll flips start) := by
  induction steps with
  | zero => rfl
  | succ steps inductionHypothesis =>
    rw [← Nat.add_assoc, advanceAll_succ, inductionHypothesis fun t above below =>
        quiet t above (by omega), quiet _ (by omega) (by omega), quiet _ (by omega) (by omega),
      Function.iterate_succ_apply', quietStep]

/-- Before the first flip the register is empty. -/
theorem advanceAll_quiet_start (flips : Nat → Bool) (steps : Nat)
    (quiet : ∀ t < 2 * steps, flips t = false) : advanceAll flips steps = (0#64, true) := by
  have idle := advanceAll_quiet flips 0 steps fun t _ below => quiet t (by omega)
  rw [Nat.zero_add, advanceAll_zero] at idle
  rw [idle]
  have fixed : quietStep (0#64, true) = (0#64, true) := advance_quiet true
  exact Function.iterate_fixed fixed steps

/-- The tail is not zero, nor after any of some quiet steps more. -/
def keepsNoticed : Nat → BitVec 64 × Bool → Bool
  | 0, register => noticed register
  | steps + 1, register => noticed register && keepsNoticed steps (quietStep register)

theorem noticed_of_keepsNoticed {bound : Nat} {register : BitVec 64 × Bool}
    (keeps : keepsNoticed bound register = true) {steps : Nat} (within : steps ≤ bound) :
    noticed (quietStep^[steps] register) = true := by
  induction steps generalizing bound register with
  | zero =>
    cases bound with
    | zero => exact keeps
    | succ bound =>
      rw [keepsNoticed, Bool.and_eq_true] at keeps
      exact keeps.1
  | succ steps inductionHypothesis =>
    cases bound with
    | zero => omega
    | succ bound =>
      rw [keepsNoticed, Bool.and_eq_true] at keeps
      exact inductionHypothesis keeps.2 (Nat.le_of_succ_le_succ within)

/-- What the first symbol of a step leaves when it is wrong is noticed in the tail until
the end of the frame, and so is what the second one leaves. -/
theorem keepsNoticed_symbol : keepsNoticed 39 (advance (0#64, true) true true) = true ∧
    keepsNoticed 38 (advance (advance (0#64, true) false true) true false) = true := by
  decide +kernel

theorem symbolFlips_eq_false {position t : Nat} (here : t ≠ position) (next : t ≠ position + 1) :
    symbolFlips position t = false := by
  cases t with
  | zero => simpa [symbolFlips, flipsOf] using here
  | succ t => simp [symbolFlips, flipsOf, here, show t ≠ position by omega]

theorem symbolFlips_self (position : Nat) : symbolFlips position position = true := by
  cases position <;> simp [symbolFlips, flipsOf]

theorem symbolFlips_next (position : Nat) : symbolFlips position (position + 1) = true := by
  simp [symbolFlips, flipsOf]

/-- Wherever the wrong symbol is, it is noticed in the tail or gone from the register. -/
theorem advanceAll_symbolFlips {position : Nat} (inside : position < 80) :
    noticed (advanceAll (symbolFlips position) 40) = true ∨
      (advanceAll (symbolFlips position) 40).1 = 0#64 := by
  have idle : advanceAll (symbolFlips position) (position / 2) = (0#64, true) :=
    advanceAll_quiet_start _ _ fun t below => symbolFlips_eq_false (by omega) (by omega)
  rcases Nat.even_or_odd' position with ⟨step, rfl | rfl⟩
  · have first : advanceAll (symbolFlips (2 * step)) (step + 1) =
        advance (0#64, true) true true := by
      rw [advanceAll_succ, symbolFlips_self, symbolFlips_next, ← idle]
      congr 2
      omega
    have rest := advanceAll_quiet (symbolFlips (2 * step)) (step + 1) (39 - step)
      fun t above _ => symbolFlips_eq_false (by omega) (by omega)
    rw [show step + 1 + (39 - step) = 40 by omega, first] at rest
    rw [rest]
    exact .inl (noticed_of_keepsNoticed keepsNoticed_symbol.1 (by omega))
  · have second : advanceAll (symbolFlips (2 * step + 1)) (step + 1) =
        advance (0#64, true) false true := by
      rw [advanceAll_succ, symbolFlips_self, ← idle,
        symbolFlips_eq_false (by omega) (by omega : 2 * step ≠ 2 * step + 1 + 1)]
      congr 2
      omega
    by_cases last : step = 39
    · rw [last] at second ⊢
      refine .inr ?_
      rw [second, show advance (0#64, true) false true = (0#64, false) from advance_flip false]
    · have third : advanceAll (symbolFlips (2 * step + 1)) (step + 2) =
          advance (advance (0#64, true) false true) true false := by
        rw [advanceAll_succ, second, show 2 * (step + 1) = 2 * step + 1 + 1 by omega,
          symbolFlips_next, symbolFlips_eq_false (by omega) (by omega)]
      have rest := advanceAll_quiet (symbolFlips (2 * step + 1)) (step + 2) (38 - step)
        fun t above _ => symbolFlips_eq_false (by omega) (by omega)
      rw [show step + 2 + (38 - step) = 40 by omega, third] at rest
      rw [rest]
      exact .inl (noticed_of_keepsNoticed keepsNoticed_symbol.2 (by omega))

/-- A frame with one wrong symbol is rejected, or decodes to the id and the status code sent. -/
theorem rc3_wrong_symbol (id : BitVec 24) (status : BitVec 8) (position : Nat)
    (inside : position < 80) (softbits : Nat → UInt8)
    (received : ∀ t < 80, hardDecision (softbits t) =
      ((rc3Symbols id status).getD t false ^^ t == position)) :
    (decodeRc3 softbits).ok = false ∨
      decodeRc3 softbits =
        { ok := true, transponderId := id.setWidth 32, statusCode := status } := by
  have code := codeBit_of_wrong softbits id status (fun t => t == position) received
  rcases advanceAll_symbolFlips inside with tail | cancelled
  · refine .inl ?_
    rw [decodeRc3_ok_disturbed softbits id status _ code]
    exact congrArg not tail
  · exact .inr (decodeRc3_of_cancelled softbits id status _ code cancelled)

theorem rc3_wrong_symbol_17 :
    (decodeRc3 fun t => if ((rc3Symbols 1234567#24 0xa0#8).getD t false ^^ t == 17)
        then 255 else 0).ok = false ∨
      decodeRc3 (fun t => if ((rc3Symbols 1234567#24 0xa0#8).getD t false ^^ t == 17)
        then 255 else 0) =
        { ok := true, transponderId := 1234567#32, statusCode := 0xa0#8 } :=
  rc3_wrong_symbol 1234567#24 0xa0#8 17 (by decide) _ (by decide +kernel)

end OpenStint
