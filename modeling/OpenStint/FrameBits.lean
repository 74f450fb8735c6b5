/-
This file proves what `Frame::bits` promises to the decoders, for softbits of any length.
The payload it points to lies inside the softbits and behind a window within two bit errors
of the preamble; the softbits change only by an inversion of all of them, and only when no
window passed upright; a second call changes nothing any more. A BPSK receiver does not know
the polarity of what it receives, and the search makes no difference between the two, as
long as the windows pass in at most one of them.

The decoders index the softbits behind the pointer unchecked. Their reads are modelled once
more here, with a reader that fails outside of the vector: it never does.
-/

import OpenStint.Library.CheckedLoop
import OpenStint.PreambleSearch

namespace OpenStint

open CheckedLoop Gf2

variable {R : Type}

/-! ### The decoders with checked reads -/

/-- One turn of the decoding loop of `decode_rc3`, whose two reads may fail. -/
def decodeRc3StepChecked (read : Nat → Option UInt8) (state : Rc3State) (i : Nat) :
    Option Rc3State := do
  let first ← read (i + 0)
  let second ← read (i + 1)
  return decodeRc3Step (fun offset => if offset = i + 0 then first else second) state i

/-- The softbits that `decode_rc3` reads, in the order of its loop. -/
def decodeRc3LoopChecked (read : Nat → Option UInt8) : Option Rc3State :=
  (List.range 40).foldlM (fun state step => decodeRc3StepChecked read state (2 * step))
    { shreg := 0, lastOk := true, prevSym := false }

/-- The differential decoding of `RC4Message`, whose 100 reads may fail. -/
def rc4BitsChecked (read : Nat → Option UInt8) : Option (List Bool) := do
  let softbits ← (List.range 100).mapM read
  return differentialDecode true (softbits.map hardDecision)

theorem decodeRc3LoopChecked_eq {read : Nat → Option UInt8} {softbits : Nat → UInt8}
    (inside : ∀ offset < 80, read offset = some (softbits offset)) :
    decodeRc3LoopChecked read = some (decodeRc3Loop softbits) := by
  refine foldlM_eq_some (fun step member state => ?_) _
  have below : step < 40 := List.mem_range.mp member
  rw [decodeRc3StepChecked, inside _ (by omega), inside _ (by omega)]
  simp [decodeRc3Step]

theorem rc4BitsChecked_eq {read : Nat → Option UInt8} {softbits : Nat → UInt8}
    (inside : ∀ offset < 100, read offset = some (softbits offset)) :
    rc4BitsChecked read = some (rc4Bits softbits) := by
  rw [rc4BitsChecked, mapM_eq_some fun offset member => inside offset (List.mem_range.mp member),
    rc4Bits]
  simp [Function.comp_def]

/-! ### The other polarity -/

/-- The frame as it would have been received with the other carrier phase. -/
def Frame.inverted (frame : Frame R) : Frame R :=
  { frame with softbits := frame.softbits.map fun x => 0xff - x }

theorem hardDecision_inverted (softbit : UInt8) :
    hardDecision (0xff - softbit) = !hardDecision softbit := by
  revert softbit
  exact forall_softbit (by decide +kernel)

@[simp] theorem Frame.length_inverted (frame : Frame R) :
    frame.inverted.softbits.length = frame.softbits.length := List.length_map _

@[simp] theorem Frame.inverted_inverted (frame : Frame R) : frame.inverted.inverted = frame := by
  have twice : ∀ softbit : UInt8, 0xff - (0xff - softbit) = softbit :=
    forall_softbit (by decide +kernel)
  have restored : (frame.softbits.map fun x => 0xff - x).map (fun x => 0xff - x) =
      frame.softbits := by
    rw [List.map_map]
    exact (List.map_congr_left fun softbit _ => twice softbit).trans (List.map_id _)
  exact congrArg (fun softbits => { frame with softbits }) restored

theorem Frame.concat_inverted (frame : Frame R) (long : 32 ≤ frame.softbits.length) :
    concatBits32 frame.inverted.data = ~~~concatBits32 frame.data := by
  refine BitVec.eq_of_getLsbD_eq fun index below => ?_
  have inside : 31 - index < frame.softbits.length := by omega
  have read : frame.inverted.data (31 - index) = 0xff - frame.data (31 - index) := by
    simp [Frame.data, Frame.inverted, inside]
  rw [getLsbD_concatBits32, BitVec.getLsbD_not, getLsbD_concatBits32, read, hardDecision_inverted]
  simp [below]

/-! ### What a call does -/

/-- The result of the search in the polarity as received. -/
def Frame.upright (frame : Frame R) : Option Nat :=
  preamblePos (concatBits32 frame.data) (transponderProps frame.transponderProtocol).preamble

theorem Frame.bits_of_short (frame : Frame R) (short : frame.softbits.length < 32) :
    frame.bits = (frame, none) := if_pos short

/-- A frame without an upright window is dealt with in the other polarity, if it has a
window there. -/
theorem Frame.bits_of_missed (frame : Frame R) (long : 32 ≤ frame.softbits.length)
    (missed : frame.upright = none) :
    frame.bits = if frame.inverted.upright = none then (frame, none) else frame.inverted.bits := by
  have other : frame.inverted.upright = preamblePos (~~~concatBits32 frame.data)
      (transponderProps frame.transponderProtocol).preamble := by
    rw [Frame.upright, frame.concat_inverted long]
    rfl
  rw [Frame.upright] at missed
  cases found : frame.inverted.upright with
  | none =>
    rw [other] at found
    rw [Frame.bits, if_neg (by omega)]
    simp [missed, found]
  | some position =>
    rw [if_neg (by simp), Frame.bits_of_latest _ (by simpa using long) found, Frame.bits,
      if_neg (by omega)]
    rw [other] at found
    simp only [missed, found]
    split
    · rename_i short
      exact congrArg (Prod.mk _) (if_pos short).symm
    · rename_i fits
      exact congrArg (Prod.mk _) (if_neg fits).symm

/-- What `Frame::bits` promises of a frame. -/
structure BitsLaw (frame : Frame R) : Prop where
  /-- The payload lies inside the softbits, behind a window that resembles the preamble. -/
  sound : ∀ offset, frame.bits.2 = some offset → ∃ pos ≤ 16, offset = pos + 16 ∧
    offset + (transponderProps frame.transponderProtocol).payloadSize ≤
      frame.bits.1.softbits.length ∧
    errorsAt frame.bits.1.hard (transponderProps frame.transponderProtocol).preamble pos ≤ 2
  /-- All softbits are inverted, and no window passed upright, or none is. -/
  softbits : frame.bits.1 = frame ∨
    frame.bits.1 = frame.inverted ∧ ∀ pos ≤ 16,
      2 < errorsAt frame.hard (transponderProps frame.transponderProtocol).preamble pos
  idempotent : frame.bits.1.bits = frame.bits
  /-- When the preamble is found in at most one polarity, both give the same. -/
  polarity : frame.upright = none ∨ frame.inverted.upright = none →
    frame.inverted.bits.2 = frame.bits.2 ∧
      (frame.bits.2 ≠ none → frame.inverted.bits.1.softbits = frame.bits.1.softbits)
  /-- `decode_rc3` reads inside of the softbits. -/
  decodeRc3 : ∀ offset, frame.bits.2 = some offset →
    decodeRc3LoopChecked (fun i => frame.bits.1.softbits[offset + i]?) =
      some (decodeRc3Loop fun i => frame.bits.1.data (offset + i))
  /-- `RC4Message` reads inside of the softbits of an RC4 frame. -/
  rc4Message : frame.transponderProtocol = .rc4 → ∀ offset, frame.bits.2 = some offset →
    rc4BitsChecked (fun i => frame.bits.1.softbits[offset + i]?) =
      some (rc4Bits fun i => frame.bits.1.data (offset + i))

theorem Frame.upright_eq_some_iff (frame : Frame R) (pos : Nat) :
    frame.upright = some pos ↔ pos ≤ 16 ∧
      errorsAt frame.hard (transponderProps frame.transponderProtocol).preamble pos ≤ 2 ∧
      ∀ later, pos < later → later ≤ 16 →
        2 < errorsAt frame.hard (transponderProps frame.transponderProtocol).preamble later :=
  preamblePos_eq_some_iff frame.hard _ _ frame.spelled pos

theorem Frame.errorsAt_of_missed (frame : Frame R) (missed : frame.upright = none) :
    ∀ pos ≤ 16,
      2 < errorsAt frame.hard (transponderProps frame.transponderProtocol).preamble pos := by
  intro pos within
  by_contra passes
  obtain ⟨latest, found, -⟩ := preamblePos_of_window frame.hard _ _ frame.spelled within
    (not_lt.mp passes)
  exact absurd (missed.symm.trans found) nofun

/-- A call returns a null pointer and leaves the frame alone, or deals with an upright
window of the frame or of the inverted frame. -/
theorem Frame.bits_cases (frame : Frame R) :
    frame.bits = (frame, none) ∨
      ∃ seen : Frame R, (seen = frame ∨ seen = frame.inverted ∧ frame.upright = none) ∧
        32 ≤ seen.softbits.length ∧ seen.upright ≠ none ∧ frame.bits = seen.bits := by
  by_cases short : frame.softbits.length < 32
  · exact .inl (frame.bits_of_short short)
  by_cases found : frame.upright = none
  · rw [frame.bits_of_missed (by omega) found]
    by_cases other : frame.inverted.upright = none
    · exact .inl (if_pos other)
    · rw [if_neg other]
      exact .inr ⟨frame.inverted, .inr ⟨rfl, found⟩, by rw [frame.length_inverted]; omega, other,
        rfl⟩
  · exact .inr ⟨frame, .inl rfl, by omega, found, rfl⟩

/-- A call on a frame with an upright window does not change it. -/
theorem Frame.bits_fst_of_upright {frame : Frame R} (long : 32 ≤ frame.softbits.length)
    (found : frame.upright ≠ none) : frame.bits.1 = frame := by
  obtain ⟨position, found⟩ := Option.ne_none_iff_exists'.mp found
  rw [frame.bits_of_latest long found]

/-- The law, where a frame has an upright window. -/
theorem Frame.bits_sound_of_upright (frame : Frame R) (preambleSize : frame.preambleSize = 16)
    (payloadSize : frame.payloadSize = (transponderProps frame.transponderProtocol).payloadSize)
    (long : 32 ≤ frame.softbits.length) (found : frame.upright ≠ none) {offset : Nat}
    (pointed : frame.bits.2 = some offset) :
    ∃ pos ≤ 16, offset = pos + 16 ∧
      offset + (transponderProps frame.transponderProtocol).payloadSize ≤ frame.softbits.length ∧
      errorsAt frame.hard (transponderProps frame.transponderProtocol).preamble pos ≤ 2 := by
  obtain ⟨pos, found⟩ := Option.ne_none_iff_exists'.mp found
  obtain ⟨within, passes, -⟩ := (frame.upright_eq_some_iff pos).mp found
  rw [frame.bits_of_latest long found] at pointed
  dsimp only at pointed
  split at pointed
  · cases pointed
  · obtain rfl := Option.some.inj pointed
    refine ⟨pos, within, by rw [preambleSize], ?_, passes⟩
    omega

/-- The two polarities give the same, when the preamble is found in at most one of them. -/
theorem Frame.bits_inverted (frame : Frame R)
    (oneSided : frame.upright = none ∨ frame.inverted.upright = none) :
    frame.inverted.bits.2 = frame.bits.2 ∧
      (frame.bits.2 ≠ none → frame.inverted.bits.1.softbits = frame.bits.1.softbits) := by
  by_cases short : frame.softbits.length < 32
  · rw [frame.bits_of_short short, Frame.bits_of_short _ (by rwa [frame.length_inverted])]
    exact ⟨rfl, fun found => absurd rfl found⟩
  have long : 32 ≤ frame.softbits.length := by omega
  have longInverted : 32 ≤ frame.inverted.softbits.length := by rwa [frame.length_inverted]
  by_cases missed : frame.upright = none
  · rw [frame.bits_of_missed long missed]
    by_cases other : frame.inverted.upright = none
    · rw [if_pos other, Frame.bits_of_missed _ longInverted other, frame.inverted_inverted,
        if_pos missed]
      exact ⟨rfl, fun found => absurd rfl found⟩
    · rw [if_neg other]
      exact ⟨rfl, fun _ => rfl⟩
  · rw [Frame.bits_of_missed _ longInverted (oneSided.resolve_left missed),
      frame.inverted_inverted, if_neg missed]
    exact ⟨rfl, fun _ => rfl⟩

/-- `Frame::bits` keeps its promises, for softbits of any length. -/
theorem bits_law (frame : Frame R) (preambleSize : frame.preambleSize = 16)
    (payloadSize : frame.payloadSize = (transponderProps frame.transponderProtocol).payloadSize) :
    BitsLaw frame := by
  have sound : ∀ offset, frame.bits.2 = some offset → ∃ pos ≤ 16, offset = pos + 16 ∧
      offset + (transponderProps frame.transponderProtocol).payloadSize ≤
        frame.bits.1.softbits.length ∧
      errorsAt frame.bits.1.hard (transponderProps frame.transponderProtocol).preamble pos ≤ 2 := by
    intro offset pointed
    rcases frame.bits_cases with nothing | ⟨seen, polarity, long, found, same⟩
    · rw [nothing] at pointed
      cases pointed
    · rw [same] at pointed ⊢
      rw [Frame.bits_fst_of_upright long found]
      rcases polarity with rfl | ⟨rfl, -⟩
      · exact Frame.bits_sound_of_upright _ preambleSize payloadSize long found pointed
      · exact frame.inverted.bits_sound_of_upright preambleSize payloadSize long found pointed
  have payload : ∀ offset, frame.bits.2 = some offset →
      ∀ i < (transponderProps frame.transponderProtocol).payloadSize,
        frame.bits.1.softbits[offset + i]? = some (frame.bits.1.data (offset + i)) := by
    intro offset pointed i below
    obtain ⟨-, -, -, fits, -⟩ := sound offset pointed
    have inside : offset + i < frame.bits.1.softbits.length := by omega
    rw [Frame.data, List.getD_eq_getElem _ _ inside, List.getElem?_eq_getElem inside]
  refine ⟨sound, ?_, ?_, frame.bits_inverted, fun offset pointed =>
    decodeRc3LoopChecked_eq fun i below => payload offset pointed i ?_, fun rc4 offset pointed =>
    rc4BitsChecked_eq fun i below => payload offset pointed i ?_⟩
  · rcases frame.bits_cases with nothing | ⟨seen, polarity, long, found, same⟩
    · exact .inl (by rw [nothing])
    · rw [same, Frame.bits_fst_of_upright long found]
      rcases polarity with rfl | ⟨rfl, missed⟩
      · exact .inl rfl
      · exact .inr ⟨rfl, frame.errorsAt_of_missed missed⟩
  · rcases frame.bits_cases with nothing | ⟨seen, -, long, found, same⟩
    · rw [nothing]
      exact nothing
    · rw [same, Frame.bits_fst_of_upright long found]
  · have columns : 80 ≤ (transponderProps frame.transponderProtocol).payloadSize := by
      cases frame.transponderProtocol <;> decide
    omega
  · rw [rc4]
    exact below

theorem bits_law_1234567 : BitsLaw (rc3FrameOf 1234567#24 0xa0#8) :=
  bits_law (rc3FrameOf 1234567#24 0xa0#8) rfl rfl

end OpenStint
