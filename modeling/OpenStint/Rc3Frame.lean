/-
This file proves that the preamble search cannot hide an RC3 transponder. The search takes
the latest window within two bit errors of the preamble, so a payload whose first symbols
resemble the preamble would be read from the wrong place. The windows that overlap the
payload see at most 16 of its symbols, which the first eight message bits determine: for
each of their 256 values every such window has at least three errors.
-/

import OpenStint.Frame
import OpenStint.Rc3Code

namespace OpenStint

open Gf2

/-- The preamble of an RC3 frame followed by the first symbols of a message. -/
def preambleLine (message : List Bool) : List Bool :=
  ((List.range 16).map (0x51e4#16).getMsbD) ++
    differentialEncode false (rc3EncodeFrom 0 message)

/-- The line as the word the search runs on. -/
def preambleWord (message : List Bool) : BitVec 32 :=
  BitVec.ofNat 32 (wordOfBits (preambleLine message))

/-- More than two errors in window `i`: two ones dropped from the difference leave one. -/
def farFromPreamble (message : List Bool) (i : Nat) : Bool :=
  dropLowest (dropLowest
    (((preambleWord message >>> i) &&& (1#32 <<< 16 - 1#32)) ^^^ (0x51e4#16).setWidth 32)) != 0#32

theorem farFromPreamble_all : ∀ m0 m1 m2 m3 m4 m5 m6 m7 : Bool, ∀ i : Fin 16,
    farFromPreamble [m0, m1, m2, m3, m4, m5, m6, m7] i = true := by
  decide +kernel

theorem length_preambleLine {message : List Bool} (size : message.length = 8) :
    (preambleLine message).length = 32 := by
  simp [preambleLine, size]

theorem three_le_popcount_of_dropLowest {width : Nat} {word : BitVec width}
    (left : dropLowest (dropLowest word) ≠ BitVec.ofNat width 0) : 3 ≤ popcount word := by
  have zero : dropLowest (BitVec.ofNat width 0) = BitVec.ofNat width 0 := BitVec.zero_and
  have once : dropLowest word ≠ BitVec.ofNat width 0 := fun none => left (by rw [none, zero])
  have nonzero : word ≠ BitVec.ofNat width 0 := fun none => once (by rw [none, zero])
  have first := popcount_dropLowest_lt word nonzero
  have second := popcount_dropLowest_lt _ once
  have third : popcount (dropLowest (dropLowest word)) ≠ 0 := mt (popcount_eq_zero_iff _).mp left
  omega

/-- No window that reaches into the payload passes for the preamble, whatever the first
eight message bits are. -/
theorem far_of_payload {message : List Bool} (size : message.length = 8) (shift : Nat)
    (positive : 0 < shift) (within : shift ≤ 16) :
    preambleMaxBitErrors <
      errorsAt (fun j => (preambleLine message).getD j false) 0x51e4#16 shift := by
  have spelled : ∀ index < 32, (preambleWord message).getLsbD index =
      (preambleLine message).getD (31 - index) false := by
    intro index below
    rw [preambleWord, BitVec.getLsbD_ofNat, decide_eq_true below, Bool.true_and,
      testBit_wordOfBits_of_lt _ (by rw [length_preambleLine size]; exact below),
      length_preambleLine size]
  have window := popcount_window (fun j => (preambleLine message).getD j false) _ 0x51e4#16
    spelled (16 - shift) (by omega)
  rw [show 16 - (16 - shift) = shift by omega] at window
  obtain ⟨m0, m1, m2, m3, m4, m5, m6, m7, rfl⟩ : ∃ m0 m1 m2 m3 m4 m5 m6 m7 : Bool,
      message = [m0, m1, m2, m3, m4, m5, m6, m7] := by
    match message, size with
    | [m0, m1, m2, m3, m4, m5, m6, m7], _ => exact ⟨m0, m1, m2, m3, m4, m5, m6, m7, rfl⟩
  have far := farFromPreamble_all m0 m1 m2 m3 m4 m5 m6 m7 ⟨16 - shift, by omega⟩
  rw [← window]
  exact three_le_popcount_of_dropLowest (by simpa [farFromPreamble] using far)

theorem rc3EncodeFrom_append (register : BitVec 24) (first second : List Bool) :
    ∃ rest, rc3EncodeFrom register (first ++ second) = rc3EncodeFrom register first ++ rest := by
  induction first generalizing register with
  | nil => exact ⟨_, rfl⟩
  | cons bit tail inductionHypothesis =>
    obtain ⟨rest, encoded⟩ := inductionHypothesis (register <<< 1 ||| bitWord 24 bit)
    exact ⟨rest, by simp only [List.cons_append, rc3EncodeFrom, encoded]⟩

/-- The first 16 symbols on air are those of the first eight message bits. -/
theorem getD_rc3Symbols (id : BitVec 24) (status : BitVec 8) {t : Nat} (below : t < 16) :
    (rc3Symbols id status).getD t false =
      (differentialEncode false (rc3EncodeFrom 0 ((rc3Message id status).take 8))).getD t
        false := by
  obtain ⟨rest, encoded⟩ := rc3EncodeFrom_append 0 ((rc3Message id status).take 8)
    ((rc3Message id status).drop 8)
  rw [List.take_append_drop] at encoded
  rw [rc3Symbols, rc3CodeBits, encoded]
  exact getD_differentialEncode_append _ _ _ (by simpa using below)

/-- The search finds the transmitted preamble. -/
theorem preamblePos_rc3 (hard : Nat → Bool) (sof : BitVec 32)
    (spelled : ∀ index < 32, sof.getLsbD index = hard (31 - index))
    (id : BitVec 24) (status : BitVec 8) {position : Nat} (within : position ≤ 16)
    (preamble : ∀ j < 16, hard (position + j) = (0x51e4#16).getMsbD j)
    (payload : ∀ t < 80, hard (position + 16 + t) = (rc3Symbols id status).getD t false) :
    preamblePos sof 0x51e4#16 = some position := by
  refine (preamblePos_eq_some_iff hard sof _ spelled position).mpr ⟨within, ?_, ?_⟩
  · rw [errorsAt_eq_zero preamble]
    exact Nat.zero_le _
  · intro later after latest
    have size : ((rc3Message id status).take 8).length = 8 := by simp
    have line : ∀ j < 32, hard (position + j) =
        (preambleLine ((rc3Message id status).take 8)).getD j false := by
      intro j below
      by_cases early : j < 16
      · rw [preamble j early, preambleLine, List.getD_append _ _ _ _ (by simpa using early),
          List.getD_eq_getElem _ _ (by simpa using early)]
        simp
      · have sent := payload (j - 16) (by omega)
        rw [show position + 16 + (j - 16) = position + j by omega,
          getD_rc3Symbols id status (by omega)] at sent
        rw [sent, preambleLine, List.getD_append_right _ _ _ _ (by simpa using early)]
        simp
    have far := far_of_payload size (later - position) (by omega) (by omega)
    have same : errorsAt hard 0x51e4#16 later = errorsAt
        (fun j => (preambleLine ((rc3Message id status).take 8)).getD j false) 0x51e4#16
        (later - position) :=
      errorsAt_congr _ _ _ _ _ fun j below => by
        rw [← line (later - position + j) (by omega),
          show position + (later - position + j) = later + j by omega]
    rwa [same]

/-- An RC3 frame that carries the exact preamble at one of the five positions its length
allows, followed by the symbols of an id and a status code, is read in place and upright,
and decodes to that id and that status code. -/
theorem rc3_frame_decodes {R : Type} (frame : Frame R) (id : BitVec 24) (status : BitVec 8)
    (position : Nat) (within : position ≤ 4)
    (protocol : frame.transponderProtocol = .rc3) (preambleSize : frame.preambleSize = 16)
    (payloadSize : frame.payloadSize = 80) (size : frame.softbits.length = 100)
    (preamble : ∀ j < 16, hardDecision (frame.data (position + j)) = (0x51e4#16).getMsbD j)
    (payload : ∀ t < 80, hardDecision (frame.data (position + 16 + t)) =
      (rc3Symbols id status).getD t false) :
    frame.bits = (frame, some (position + 16)) ∧
      decodeRc3 (fun offset => frame.data (position + 16 + offset)) =
        { ok := true, transponderId := id.setWidth 32, statusCode := status } := by
  constructor
  · have found : preamblePos (concatBits32 frame.data)
        (transponderProps frame.transponderProtocol).preamble = some position := by
      rw [protocol]
      exact preamblePos_rc3 frame.hard _ frame.spelled id status (by omega) preamble payload
    rw [Frame.bits_of_found frame (by omega) found (by omega), preambleSize]
  · exact decodeRc3_of_symbols _ id status payload

/-- A frame received at full level: the preamble, the symbols of an id, four trailing zeros. -/
def rc3FrameOf (id : BitVec 24) (status : BitVec 8) : Frame Int :=
  { Frame.detected .rc3 1 0 0 with
    softbits := ((List.range 16).map (0x51e4#16).getMsbD ++ rc3Symbols id status ++
      List.replicate 4 false).map fun symbol => if symbol then 255 else 0 }

theorem rc3_frame_decodes_1234567 :
    (rc3FrameOf 1234567#24 0xa0#8).bits = (rc3FrameOf 1234567#24 0xa0#8, some 16) ∧
      decodeRc3 (fun offset => (rc3FrameOf 1234567#24 0xa0#8).data (16 + offset)) =
        { ok := true, transponderId := 1234567#32, statusCode := 0xa0#8 } :=
  rc3_frame_decodes (rc3FrameOf 1234567#24 0xa0#8) 1234567#24 0xa0#8 0 (by decide) rfl rfl rfl
    (by decide +kernel) (by decide +kernel) (by decide +kernel)

end OpenStint
