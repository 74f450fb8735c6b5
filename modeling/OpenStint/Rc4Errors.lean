/-
This file is about the RC4 code on a disturbed line. Two frames of the code differ as a
frame without the constants of the checks does, whatever their payloads are; so what a wrong
symbol flips would have to be such a difference for the frame to pass. A wrong symbol flips
two neighbouring bits. Either one of them is the fourth or the fifth bit of a block without
the other, or the payload bits among them break a check, or no payload bit is flipped and a
check is.
-/

import OpenStint.Rc3Errors
import OpenStint.Rc4Message

namespace OpenStint

open Gf2

/-- The information bits are linear in the payload, but for the constants of the checks. -/
theorem rc4Nibble_xor (first second : BitVec 64) (block bit : Nat) :
    rc4Nibble (first ^^^ second) block bit =
      (rc4Nibble first block bit ^^ (rc4Nibble second block bit ^^ rc4Nibble 0 block bit)) := by
  by_cases low : block < 16
  · rw [rc4Nibble, rc4Nibble, rc4Nibble, rc4Nibble, if_pos low, if_pos low, if_pos low, if_pos low,
      BitVec.getLsbD_xor]
    simp
  · have clear (mask : BitVec 64) : parity (0 &&& mask) = false := by
      rw [show (0 : BitVec 64) &&& mask = 0 from BitVec.zero_and]
      decide +kernel
    rw [rc4Nibble, rc4Nibble, rc4Nibble, rc4Nibble, if_neg low, if_neg low, if_neg low, if_neg low,
      parity_xor_and, clear]
    simp [Bool.xor_comm]

theorem rc4CodeBit_xor (first second : BitVec 64) (i : Nat) :
    rc4CodeBit (first ^^^ second) i =
      (rc4CodeBit first i ^^ (rc4CodeBit second i ^^ rc4CodeBit 0 i)) := by
  rw [rc4CodeBit, rc4CodeBit, rc4CodeBit, rc4CodeBit]
  split
  · exact rc4Nibble_xor first second (i / 5) (i % 5)
  · rw [rc4Nibble_xor]
    simp

/-- Two frames whose symbols differ in some places differ in the code bits these flip. -/
theorem rc4CodeBit_of_wrong (payload sent : BitVec 64) (wrong : Nat → Bool)
    (received : ∀ t < 100, (rc4Symbols payload).getD t false =
      ((rc4Symbols sent).getD t false ^^ wrong t)) :
    ∀ t < 100, rc4CodeBit payload t = (rc4CodeBit sent t ^^ flipsOf wrong t) := by
  have coded (payload : BitVec 64) (t : Nat) (below : t < 100) :=
    getD_differentialEncode true ((List.range 100).map (rc4CodeBit payload)) t
      (by simpa using below)
  have bit (payload : BitVec 64) (t : Nat) (below : t < 100) :
      ((List.range 100).map (rc4CodeBit payload)).getD t false = rc4CodeBit payload t := by
    rw [List.getD_eq_getElem _ _ (by simpa using below), List.getElem_map, List.getElem_range]
  intro t below
  have here := received t below
  rw [rc4Symbols, rc4Symbols, coded payload t below, coded sent t below, bit payload t below,
    bit sent t below] at here
  cases t with
  | zero => simpa [flipsOf] using here
  | succ t =>
    have before := received t (by omega)
    rw [rc4Symbols, rc4Symbols] at before
    simp only [before] at here
    rw [flipsOf]
    generalize (differentialEncode true ((List.range 100).map (rc4CodeBit sent))).getD t false =
      symbol at here
    revert here
    cases symbol <;> cases wrong t <;> cases wrong (t + 1) <;> cases rc4CodeBit payload (t + 1) <;>
      cases rc4CodeBit sent (t + 1) <;> decide

/-- What the wrong symbol at any place flips is no difference of two frames of the code. -/
theorem symbolFlips_breaks_check : ∀ position < 100, ∃ i < 100,
    (rc4CodeBit (extractPayload (symbolFlips position)) i ^^ rc4CodeBit 0 i) ≠
      symbolFlips position i := by
  -- the last four blocks carry most of the checks
  have late : ∀ position < 100, ∃ k < 20,
      (rc4CodeBit (extractPayload (symbolFlips position)) (80 + k) ^^ rc4CodeBit 0 (80 + k)) ≠
        symbolFlips position (80 + k) := by
    decide +kernel
  intro position inside
  obtain ⟨k, below, broken⟩ := late position inside
  exact ⟨80 + k, by omega, broken⟩

/-- A frame of the code with one wrong symbol is not a frame of the code. -/
theorem rc4Symbols_apart (payload sent : BitVec 64) {position : Nat} (inside : position < 100) :
    ¬ ∀ t < 100, (rc4Symbols payload).getD t false =
      ((rc4Symbols sent).getD t false ^^ t == position) := by
  intro received
  have flipped : ∀ i < 100, (rc4CodeBit (payload ^^^ sent) i ^^ rc4CodeBit 0 i) =
      symbolFlips position i := by
    intro i below
    rw [rc4CodeBit_xor, rc4CodeBit_of_wrong payload sent _ received i below, symbolFlips]
    simp [Bool.xor_left_comm, Bool.xor_comm]
  have difference : extractPayload (symbolFlips position) = payload ^^^ sent := by
    refine (extractPayload_eq_iff _ _).mpr fun block blockBelow bit bitBelow => ?_
    have here := flipped (block * 5 + bit) (by omega)
    rw [rc4CodeBit_block _ block bitBelow, rc4CodeBit_block _ block bitBelow,
      rc4Nibble.eq_1 0, if_pos blockBelow] at here
    rw [← here]
    simp
  obtain ⟨i, below, broken⟩ := symbolFlips_breaks_check position inside
  rw [difference] at broken
  exact broken (flipped i below)

/-- A frame with one wrong symbol is rejected. -/
theorem rc4_wrong_symbol (payload : BitVec 64) (position : Nat) (inside : position < 100)
    (softbits : Nat → UInt8)
    (received : ∀ t < 100, hardDecision (softbits t) =
      ((rc4Symbols payload).getD t false ^^ t == position)) :
    (rc4Message softbits).isValid = false := by
  by_contra accepted
  have valid : rc4Message softbits =
      { payload := (rc4Message softbits).payload, isValid := true } := by
    rw [← Bool.not_eq_false _ |>.mp accepted]
  have symbols := (rc4Message_valid_iff softbits _).mp valid
  refine rc4Symbols_apart (rc4Message softbits).payload payload inside fun t below => ?_
  rw [← received t below, ← symbols, List.getD_eq_getElem _ _ (by simpa using below),
    List.getElem_map, List.getElem_range]

/-- The fourth bit of a block and the fifth are flipped together, and the block still passes
its own check. -/
theorem rc4_wrong_symbol_13 :
    (rc4Message fun t => if ((rc4Symbols 0x0123456789abcdef#64).getD t false ^^ t == 13)
      then 255 else 0).isValid = false :=
  rc4_wrong_symbol 0x0123456789abcdef#64 13 (by decide) _ (by decide +kernel)

end OpenStint
