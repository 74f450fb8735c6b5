/-
This file models `RC4Message` of `rc4.cpp` and proves that it accepts exactly one code.

An RC4 frame is 20 blocks of five bits, sent differentially from previous symbol 1. The
fifth bit of a block is the inverse of its fourth; the first 16 blocks carry the 64 payload
bits, the last four the parities of the payload under 16 check polynomials. `rc4CodeBit`
states the code; a frame is accepted with a payload if and only if its hard decisions are
the symbols of that payload.
-/

import Mathlib.Tactic.IntervalCases
import OpenStint.Transponder

namespace OpenStint

open Gf2

/-! ### The constructor -/

structure Rc4Message where
  payload : BitVec 64
  isValid : Bool
  deriving DecidableEq, Repr

def checkPolys : List (BitVec 64) := [
  -- block 17
  0xc2cd82058e2c0c88#64,
  0xe166c102c7160644#64,
  0xf0b36081638b0322#64,
  0xf859b040b1c58191#64,
  -- block 18
  0xbee15a25d6cecc40#64,
  0xdf70ad12eb676620#64,
  0x6fb8568975b3b310#64,
  0xb7dc2b44bad9d988#64,
  -- block 19
  0xdbee15a25d6cecc4#64,
  0x6df70ad12eb67662#64,
  0x36fb8568975b3b31#64,
  0x59b040b1c5819110#64,
  -- block 20
  0x2cd82058e2c0c888#64,
  0x166c102c71606444#64,
  0x0b36081638b03222#64,
  0x859b040b1c581911#64]

def checkConstants : List Nat := [0, 0, 1, 1, 0, 0, 0, 1, 0, 0, 1, 1, 1, 1, 1, 0]

def parityPos : List Nat := [80, 81, 82, 83, 85, 86, 87, 88, 90, 91, 92, 93, 95, 96, 97, 98]

/-- The differentially decoded bits of the 100 softbits; the preamble ends with symbol 1. -/
def rc4Bits (softbits : Nat → UInt8) : List Bool :=
  differentialDecode true ((List.range 100).map fun i => hardDecision (softbits i))

/-- The parity check of the blocks. -/
def blocksValid (bits : Nat → Bool) : Bool :=
  (List.range 20).all fun block => bits (block * 5 + 3) != bits (block * 5 + 4)

/-- One turn of the extraction loop. -/
def extractStep (bits : Nat → Bool) (block : Nat) (payload : BitVec 64) (bit : Nat) : BitVec 64 :=
  if bits (block * 5 + bit) then payload ||| 1#64 <<< (63 - (block * 4 + bit)) else payload

def extractBlock (bits : Nat → Bool) (payload : BitVec 64) (block : Nat) : BitVec 64 :=
  (List.range 4).foldl (extractStep bits block) payload

def extractPayload (bits : Nat → Bool) : BitVec 64 :=
  (List.range 16).foldl (extractBlock bits) 0

/-- The verification code of check `v`. -/
def checkParity (payload : BitVec 64) (v : Nat) : Nat :=
  (popcount (payload &&& checkPolys.getD v 0) + checkConstants.getD v 0) % 2

def checksValid (bits : Nat → Bool) (payload : BitVec 64) : Bool :=
  (List.range 16).all fun v => checkParity payload v == (bits (parityPos.getD v 0)).toNat

/-- `RC4Message::RC4Message`. -/
def rc4Message (softbits : Nat → UInt8) : Rc4Message :=
  let bits := fun i => (rc4Bits softbits).getD i false
  let isValid := blocksValid bits
  let payload := extractPayload bits
  { payload, isValid := if isValid then checksValid bits payload else isValid }

/-! ### The code -/

/-- The four information bits of a block: payload bits, or parities for the last four. -/
def rc4Nibble (payload : BitVec 64) (block bit : Nat) : Bool :=
  if block < 16 then payload.getLsbD (63 - (block * 4 + bit))
  else parity (payload &&& checkPolys.getD ((block - 16) * 4 + bit) 0) ^^
    (checkConstants.getD ((block - 16) * 4 + bit) 0 == 1)

/-- Bit `i` of the frame of a payload: four bits of a block and the inverse of the fourth. -/
def rc4CodeBit (payload : BitVec 64) (i : Nat) : Bool :=
  if i % 5 < 4 then rc4Nibble payload (i / 5) (i % 5) else !rc4Nibble payload (i / 5) 3

/-- The symbols on air, from previous symbol 1. -/
def rc4Symbols (payload : BitVec 64) : List Bool :=
  differentialEncode true ((List.range 100).map (rc4CodeBit payload))

theorem rc4CodeBit_block (payload : BitVec 64) (block : Nat) {bit : Nat} (below : bit < 4) :
    rc4CodeBit payload (block * 5 + bit) = rc4Nibble payload block bit := by
  rw [rc4CodeBit, show (block * 5 + bit) % 5 = bit by omega,
    show (block * 5 + bit) / 5 = block by omega, if_pos below]

theorem rc4CodeBit_inverse (payload : BitVec 64) (block : Nat) :
    rc4CodeBit payload (block * 5 + 4) = !rc4Nibble payload block 3 := by
  rw [rc4CodeBit, show (block * 5 + 4) % 5 = 4 by omega,
    show (block * 5 + 4) / 5 = block by omega, if_neg (by decide)]

/-! ### The payload extraction -/

theorem getLsbD_extractStep (bits : Nat → Bool) (block : Nat) (payload : BitVec 64) (bit : Nat)
    (inside : block * 4 + bit < 64) (index : Nat) :
    (extractStep bits block payload bit).getLsbD index =
      (payload.getLsbD index ||
        (decide (index = 63 - (block * 4 + bit)) && bits (block * 5 + bit))) := by
  cases here : bits (block * 5 + bit) with
  | false => rw [extractStep, here, if_neg Bool.false_ne_true, Bool.and_false, Bool.or_false]
  | true =>
    have single : (1#64 <<< (63 - (block * 4 + bit))).getLsbD index =
        decide (index = 63 - (block * 4 + bit)) := by
      rw [BitVec.getLsbD_shiftLeft, BitVec.getLsbD_one]
      by_cases same : index = 63 - (block * 4 + bit)
      · simp [same]
        omega
      · simp [same]
        omega
    rw [extractStep, here, if_pos rfl, BitVec.getLsbD_or, single, Bool.and_true]

theorem getLsbD_extractSteps (bits : Nat → Bool) (block : Nat) (payload : BitVec 64)
    (turns : List Nat) (inside : ∀ bit ∈ turns, block * 4 + bit < 64) (index : Nat) :
    (turns.foldl (extractStep bits block) payload).getLsbD index =
      (payload.getLsbD index ||
        turns.any fun bit =>
          decide (index = 63 - (block * 4 + bit)) && bits (block * 5 + bit)) := by
  induction turns generalizing payload with
  | nil => simp
  | cons bit rest inductionHypothesis =>
    rw [List.foldl_cons,
      inductionHypothesis _ fun other member => inside other (List.mem_cons_of_mem _ member),
      getLsbD_extractStep bits block payload bit (inside bit List.mem_cons_self), List.any_cons,
      Bool.or_assoc]

theorem getLsbD_extractBlocks (bits : Nat → Bool) (payload : BitVec 64) (turns : List Nat)
    (inside : ∀ block ∈ turns, block < 16) (index : Nat) :
    (turns.foldl (extractBlock bits) payload).getLsbD index =
      (payload.getLsbD index || turns.any fun block => (List.range 4).any fun bit =>
        decide (index = 63 - (block * 4 + bit)) && bits (block * 5 + bit)) := by
  induction turns generalizing payload with
  | nil => simp
  | cons block rest inductionHypothesis =>
    have here : block < 16 := inside block List.mem_cons_self
    rw [List.foldl_cons,
      inductionHypothesis _ fun other member => inside other (List.mem_cons_of_mem _ member),
      extractBlock, getLsbD_extractSteps bits block payload _ fun bit member => by
        have below := List.mem_range.mp member
        omega,
      List.any_cons, Bool.or_assoc]

/-- Payload bit `63 - (4 * block + bit)` is bit `bit` of block `block`. -/
theorem getLsbD_extractPayload (bits : Nat → Bool) (block bit : Nat) (blockBelow : block < 16)
    (bitBelow : bit < 4) :
    (extractPayload bits).getLsbD (63 - (block * 4 + bit)) = bits (block * 5 + bit) := by
  rw [extractPayload, getLsbD_extractBlocks bits 0 _ fun _ member => List.mem_range.mp member,
    Bool.eq_iff_iff]
  simp only [BitVec.ofNat_eq_ofNat, BitVec.getLsbD_zero, Bool.false_or, List.any_eq_true,
    List.mem_range, Bool.and_eq_true, decide_eq_true_eq]
  constructor
  · rintro ⟨block', blockBelow', bit', bitBelow', same, one⟩
    rwa [show block' = block by omega, show bit' = bit by omega] at one
  · intro one
    exact ⟨block, blockBelow, bit, bitBelow, rfl, one⟩

/-- The extraction is the only payload whose bits the blocks hold. -/
theorem extractPayload_eq_iff (bits : Nat → Bool) (payload : BitVec 64) :
    extractPayload bits = payload ↔ ∀ block < 16, ∀ bit < 4,
      bits (block * 5 + bit) = rc4Nibble payload block bit := by
  constructor
  · rintro rfl block blockBelow bit bitBelow
    rw [rc4Nibble, if_pos blockBelow, getLsbD_extractPayload bits block bit blockBelow bitBelow]
  · intro held
    refine BitVec.eq_of_getLsbD_eq fun index below => ?_
    have here := held ((63 - index) / 4) (by omega) ((63 - index) % 4) (Nat.mod_lt _ (by decide))
    rw [rc4Nibble, if_pos (by omega)] at here
    have place : 63 - ((63 - index) / 4 * 4 + (63 - index) % 4) = index := by omega
    have extracted := getLsbD_extractPayload bits ((63 - index) / 4)
      ((63 - index) % 4) (by omega) (Nat.mod_lt _ (by decide))
    rw [place] at here extracted
    rw [extracted, here]

/-! ### The checks -/

theorem blocksValid_iff (bits : Nat → Bool) :
    blocksValid bits = true ↔ ∀ block < 20, bits (block * 5 + 4) = !bits (block * 5 + 3) := by
  simp only [blocksValid, List.all_eq_true, List.mem_range, bne_iff_ne, ne_eq]
  refine forall₂_congr fun block _ => ?_
  cases bits (block * 5 + 3) <;> cases bits (block * 5 + 4) <;> decide

/-- The check positions are the information bits of the last four blocks. -/
theorem parityPos_eq : ∀ v < 16, parityPos.getD v 0 = (16 + v / 4) * 5 + v % 4 := by decide

theorem checkConstants_lt : ∀ v < 16, checkConstants.getD v 0 < 2 := by decide

theorem checkParity_eq (payload : BitVec 64) {v : Nat} (below : v < 16) :
    checkParity payload v = (rc4Nibble payload (16 + v / 4) (v % 4)).toNat := by
  have constant := checkConstants_lt v below
  rw [checkParity, rc4Nibble, if_neg (by omega), show (16 + v / 4 - 16) * 4 + v % 4 = v by omega,
    Nat.add_mod, popcount_mod_two]
  generalize checkConstants.getD v 0 = value at constant ⊢
  interval_cases value <;> cases parity (payload &&& checkPolys.getD v 0) <;> rfl

theorem checksValid_iff (bits : Nat → Bool) (payload : BitVec 64) :
    checksValid bits payload = true ↔ ∀ block, 16 ≤ block → block < 20 → ∀ bit < 4,
      bits (block * 5 + bit) = rc4Nibble payload block bit := by
  simp only [checksValid, List.all_eq_true, List.mem_range, beq_iff_eq]
  constructor
  · intro checks block above below bit bitBelow
    have here := checks ((block - 16) * 4 + bit) (by omega)
    rw [checkParity_eq payload (by omega), parityPos_eq _ (by omega),
      show 16 + ((block - 16) * 4 + bit) / 4 = block by omega,
      show ((block - 16) * 4 + bit) % 4 = bit by omega] at here
    generalize bits (block * 5 + bit) = received at here ⊢
    generalize rc4Nibble payload block bit = sent at here ⊢
    revert here
    cases received <;> cases sent <;> decide
  · intro held v below
    rw [checkParity_eq payload below, parityPos_eq v below,
      held (16 + v / 4) (by omega) (by omega) (v % 4) (Nat.mod_lt _ (by decide))]

/-! ### Acceptance -/

/-- A frame is accepted with a payload if and only if its bits are those of the payload. -/
theorem accepted_iff_bits (bits : Nat → Bool) (payload : BitVec 64) :
    (extractPayload bits = payload ∧ blocksValid bits = true ∧ checksValid bits payload = true) ↔
      ∀ i < 100, bits i = rc4CodeBit payload i := by
  rw [extractPayload_eq_iff, blocksValid_iff, checksValid_iff]
  constructor
  · rintro ⟨low, inverse, high⟩ i below
    have nibble : ∀ block < 20, ∀ bit < 4,
        bits (block * 5 + bit) = rc4Nibble payload block bit := by
      intro block blockBelow bit bitBelow
      by_cases payloadBlock : block < 16
      · exact low block payloadBlock bit bitBelow
      · exact high block (by omega) blockBelow bit bitBelow
    have split : i = i / 5 * 5 + i % 5 := by omega
    by_cases information : i % 5 < 4
    · rw [rc4CodeBit, if_pos information, ← nibble (i / 5) (by omega) (i % 5) information, ← split]
    · rw [rc4CodeBit, if_neg information, ← nibble (i / 5) (by omega) 3 (by decide),
        ← inverse (i / 5) (by omega), show i / 5 * 5 + 4 = i by omega]
  · intro code
    have nibble : ∀ block < 20, ∀ bit < 4,
        bits (block * 5 + bit) = rc4Nibble payload block bit := by
      intro block blockBelow bit bitBelow
      rw [code _ (by omega), rc4CodeBit_block payload block bitBelow]
    refine ⟨fun block below => nibble block (by omega), fun block below => ?_,
      fun block _ below => nibble block below⟩
    rw [code _ (by omega), rc4CodeBit_inverse, nibble block below 3 (by decide)]

/-- The constructor accepts a frame with a payload if and only if the frame's hard decisions
are the symbols of that payload. -/
theorem rc4Message_valid_iff (softbits : Nat → UInt8) (payload : BitVec 64) :
    rc4Message softbits = { payload, isValid := true } ↔
      (List.range 100).map (fun i => hardDecision (softbits i)) = rc4Symbols payload := by
  have bits : rc4Bits softbits = (List.range 100).map (rc4CodeBit payload) ↔
      ∀ i < 100, (rc4Bits softbits).getD i false = rc4CodeBit payload i := by
    have size : (rc4Bits softbits).length = 100 := by simp [rc4Bits]
    constructor
    · rintro equal i below
      rw [equal, List.getD_eq_getElem _ _ (by simpa using below), List.getElem_map,
        List.getElem_range]
    · intro each
      refine List.ext_getElem (by simp [size]) fun i below _ => ?_
      rw [← List.getD_eq_getElem _ false below, each i (by omega), List.getElem_map,
        List.getElem_range]
  rw [rc4Symbols, ← differentialDecode_eq_iff]
  change _ ↔ rc4Bits softbits = _
  rw [bits, ← accepted_iff_bits]
  simp only [rc4Message, Rc4Message.mk.injEq]
  constructor
  · rintro ⟨rfl, valid⟩
    by_cases blocks : blocksValid (fun i => (rc4Bits softbits).getD i false) = true
    · rw [if_pos blocks] at valid
      exact ⟨rfl, blocks, valid⟩
    · rw [if_neg blocks] at valid
      exact absurd valid blocks
  · rintro ⟨rfl, blocks, checks⟩
    exact ⟨rfl, by rw [if_pos blocks]; exact checks⟩

/-- The accepted frames are exactly the encoded payloads: every encoding is accepted with its
payload, every accepted frame is the encoding of its payload, and two frames accepted with
one payload have the same hard decisions. -/
theorem rc4_accepts_exactly_code (softbits : Nat → UInt8) :
    (∀ payload, (List.range 100).map (fun i => hardDecision (softbits i)) = rc4Symbols payload →
      rc4Message softbits = { payload, isValid := true }) ∧
    ((rc4Message softbits).isValid = true →
      (List.range 100).map (fun i => hardDecision (softbits i)) =
        rc4Symbols (rc4Message softbits).payload) ∧
    ∀ other : Nat → UInt8, (rc4Message softbits).isValid = true →
      (rc4Message other).isValid = true →
      (rc4Message softbits).payload = (rc4Message other).payload →
      (List.range 100).map (fun i => hardDecision (softbits i)) =
        (List.range 100).map fun i => hardDecision (other i) := by
  have sound : ∀ received : Nat → UInt8, (rc4Message received).isValid = true →
      (List.range 100).map (fun i => hardDecision (received i)) =
        rc4Symbols (rc4Message received).payload := by
    intro received valid
    rw [← rc4Message_valid_iff, ← valid]
  refine ⟨fun payload => (rc4Message_valid_iff softbits payload).mpr, sound softbits, ?_⟩
  intro other valid otherValid same
  rw [sound softbits valid, sound other otherValid, same]

end OpenStint
