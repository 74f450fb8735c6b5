/-
This file settles which frames the preamble search hides from the decoder. `Frame::bits`
takes the latest window within two bit errors of the preamble. A frame that carries the
exact preamble is read in place when no later window passes; when one does, the payload is
read from a wrong place or, where too few softbits follow it, not at all. Valid payloads of
the RC4 code begin so.
-/

import OpenStint.Frame
import OpenStint.Rc3Frame
import OpenStint.Rc4Message

namespace OpenStint

open Gf2

/-- Once some window passes, the search finds the latest one that does. -/
theorem preamblePos_of_window (hard : Nat → Bool) (sof : BitVec 32) (preamble : BitVec 16)
    (spelled : ∀ index < 32, sof.getLsbD index = hard (31 - index)) {position : Nat}
    (within : position ≤ 16) (passes : errorsAt hard preamble position ≤ preambleMaxBitErrors) :
    ∃ latest, preamblePos sof preamble = some latest ∧ position ≤ latest ∧ latest ≤ 16 ∧
      errorsAt hard preamble latest ≤ preambleMaxBitErrors := by
  let resembles := fun window => errorsAt hard preamble window ≤ preambleMaxBitErrors
  have found : resembles (Nat.findGreatest resembles 16) :=
    Nat.findGreatest_spec (P := resembles) within passes
  refine ⟨_, (preamblePos_eq_some_iff hard sof preamble spelled _).mpr
    ⟨Nat.findGreatest_le 16, found, fun later after bound => ?_⟩,
    Nat.le_findGreatest (P := resembles) within passes, Nat.findGreatest_le 16, found⟩
  exact not_le.mp (Nat.findGreatest_is_greatest (P := resembles) after bound)

/-- A frame with an upright window is not inverted, and its payload is looked for behind
the latest one. -/
theorem Frame.bits_of_latest {R : Type} (frame : Frame R) (long : 32 ≤ frame.softbits.length)
    {latest : Nat}
    (found : preamblePos (concatBits32 frame.data)
      (transponderProps frame.transponderProtocol).preamble = some latest) :
    frame.bits = (frame,
      if frame.softbits.length < latest + frame.preambleSize + frame.payloadSize then none
      else some (latest + frame.preambleSize)) := by
  by_cases short : frame.softbits.length < latest + frame.preambleSize + frame.payloadSize
  · rw [Frame.bits, if_neg (by omega)]
    simp only [found]
    rw [if_pos short, if_pos short]
  · rw [Frame.bits_of_found frame long found (by omega), if_neg short]

/-- A frame of the size the receiver delivers that carries the exact preamble is read in
place if and only if no later window is within two bit errors of the preamble. -/
theorem bits_reads_preamble_iff {R : Type} (frame : Frame R) (position : Nat)
    (preambleSize : frame.preambleSize = 16)
    (payloadSize : frame.payloadSize = (transponderProps frame.transponderProtocol).payloadSize)
    (size : frame.softbits.length = frame.payloadSize + 20)
    (within : position + 16 + frame.payloadSize ≤ frame.softbits.length)
    (preamble : ∀ j < 16, frame.hard (position + j) =
      (transponderProps frame.transponderProtocol).preamble.getMsbD j) :
    frame.bits.2 = some (position + 16) ↔
      ∀ later, position < later → later ≤ 16 → preambleMaxBitErrors <
        errorsAt frame.hard (transponderProps frame.transponderProtocol).preamble later := by
  have long : 32 ≤ frame.softbits.length := by
    have columns : 80 ≤ (transponderProps frame.transponderProtocol).payloadSize := by
      cases frame.transponderProtocol <;> decide
    omega
  have passes : errorsAt frame.hard (transponderProps frame.transponderProtocol).preamble
      position ≤ preambleMaxBitErrors := by
    rw [errorsAt_eq_zero preamble]
    exact Nat.zero_le _
  obtain ⟨latest, found, after, bound, latestPasses⟩ := preamblePos_of_window frame.hard _ _
    frame.spelled (show position ≤ 16 by omega) passes
  rw [Frame.bits_of_latest frame long found, preambleSize]
  constructor
  · intro read later above below
    have inPlace : latest = position := by
      by_cases short : frame.softbits.length < latest + 16 + frame.payloadSize
      · rw [if_pos short] at read
        contradiction
      · rw [if_neg short, Option.some_inj] at read
        omega
    rw [inPlace] at found
    exact ((preamblePos_eq_some_iff _ _ _ frame.spelled _).mp found).2.2 later above below
  · intro clear
    have inPlace : latest = position := by
      by_contra elsewhere
      have far := clear latest (by omega) bound
      omega
    rw [inPlace, if_neg (by omega)]

theorem bits_reads_preamble_iff_1234567 :
    (rc3FrameOf 1234567#24 0xa0#8).bits.2 = some (0 + 16) ↔
      ∀ later, 0 < later → later ≤ 16 → preambleMaxBitErrors <
        errorsAt (rc3FrameOf 1234567#24 0xa0#8).hard 0x51e4#16 later :=
  bits_reads_preamble_iff (rc3FrameOf 1234567#24 0xa0#8) 0 rfl rfl rfl (by decide)
    (by decide +kernel)

/-- An RC4 frame received at full level: two symbols before the preamble, the symbols of a
payload, two after them. -/
def rc4FrameOf (payload : BitVec 64) : Frame Int :=
  { Frame.detected .rc4 1 0 0 with
    softbits := ([false, false] ++ (List.range 16).map (0x80cd#16).getMsbD ++
      rc4Symbols payload ++ [false, false]).map fun symbol => if symbol then 255 else 0 }

/-- A valid payload whose first symbols, behind the end of the preamble, resemble it: the
search takes the window at 15, and no payload fits behind it. -/
theorem bits_hides_payload :
    ¬ ∀ (frame : Frame Int) (position : Nat), frame.preambleSize = 16 →
      frame.payloadSize = (transponderProps frame.transponderProtocol).payloadSize →
      frame.softbits.length = frame.payloadSize + 20 →
      position + 16 + frame.payloadSize ≤ frame.softbits.length →
      (∀ j < 16, frame.hard (position + j) =
        (transponderProps frame.transponderProtocol).preamble.getMsbD j) →
      frame.bits.2 = some (position + 16) := by
  intro reads
  have read := reads (rc4FrameOf 0x8260000000000000#64) 2 rfl rfl rfl (by decide)
    (by decide +kernel)
  have hidden : (rc4FrameOf 0x8260000000000000#64).bits.2 = none := by decide +kernel
  rw [hidden] at read
  contradiction

end OpenStint
