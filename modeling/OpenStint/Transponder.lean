/-
This file models `transponder.hpp` and the RC3 decoder of `transponder.cpp`: the three
transponder protocols with their preamble words and payload sizes, and the makeshift
error-correcting decoder of the RC3 rate-1/2 code. Words that the source shifts and masks
are bit vectors of the source's width; a pointer to softbits is the function from an
offset to the softbit stored there.
-/

import OpenStint.Library.Gf2

namespace OpenStint

open Gf2

/-! ### The protocols -/

inductive TransponderProtocol
  | openStint
  | rc3
  | rc4
  deriving DecidableEq, Repr

/-- The columns of `TRANSPONDER_PROPERTIES` that the receiver reads. -/
structure TransponderProps where
  dpskPreamble : BitVec 16
  preamble : BitVec 16
  payloadSize : Nat
  deriving DecidableEq, Repr

def transponderProps : TransponderProtocol → TransponderProps
  | .openStint => { dpskPreamble := 0x857c#16, preamble := 0xf9a8#16, payloadSize := 80 }
  | .rc3 => { dpskPreamble := 0x7916#16, preamble := 0x51e4#16, payloadSize := 80 }
  | .rc4 => { dpskPreamble := 0xc0ab#16, preamble := 0x80cd#16, payloadSize := 100 }

/-- `preamble_symbols`: the word as its 16 BPSK signs, most significant bit first. -/
def preambleSymbols (word : BitVec 16) : List Int :=
  (List.range 16).map fun i => if word.getLsbD (16 - 1 - i) then 1 else -1

/-- `preamble_upsampled`: every sign repeated `samplesPerSymbol` times. -/
def preambleUpsampled (samplesPerSymbol : Nat) (word : BitVec 16) : List Int :=
  (preambleSymbols word).flatMap fun sign => List.replicate samplesPerSymbol sign

/-- The hard decision the decoders take on a softbit. -/
def hardDecision (softbit : UInt8) : Bool := 127 < softbit

/-! ### The RC3 decoder -/

/-- A flag as the lowest bit of a word, as the conversion from `int` makes it. -/
def bitWord (width : Nat) (bit : Bool) : BitVec width := (BitVec.ofBool bit).setWidth width

/-- The locals of the decoding loop of `decode_rc3`. -/
structure Rc3State where
  shreg : BitVec 64
  lastOk : Bool
  prevSym : Bool
  deriving DecidableEq, Repr

/-- One turn of the decoding loop, reading the two softbits at `i` and `i + 1`. -/
def decodeRc3Step (softbits : Nat → UInt8) (state : Rc3State) (i : Nat) : Rc3State :=
  let p := popcount (state.shreg &&& 0xEEC20C#64) % 2 == 1
  let sym := hardDecision (softbits (i + 0))
  let b0 := sym ^^ state.prevSym
  let prevSym := hardDecision (softbits (i + 1))
  let b1 := prevSym ^^ sym
  let shreg1 := (state.shreg &&& 2#64) != 0#64
  let shreg0p0 := (p ^^ shreg1) ^^ b0
  let shreg0p1 := p ^^ b1
  if state.lastOk then
    let lastOk := shreg0p0 == shreg0p1
    let shreg := if lastOk then state.shreg ||| bitWord 64 shreg0p0 else state.shreg
    { shreg := shreg <<< 1, lastOk, prevSym }
  else
    -- the previous step left its bit open: the two code bits of this one tell it
    let shreg1p := b0 ^^ b1
    let shreg := state.shreg ||| (bitWord 64 shreg1p <<< 1 ||| bitWord 64 shreg0p1)
    { shreg := shreg <<< 1, lastOk := true, prevSym }

/-- The decoding loop: 80 softbits, two at a time. -/
def decodeRc3Loop (softbits : Nat → UInt8) : Rc3State :=
  (List.range 40).foldl (fun state step => decodeRc3Step softbits state (2 * step))
    { shreg := 0, lastOk := true, prevSym := false }

/-- One turn of the de-interleaving loop: every fourth bit of the message belongs to the
status code, the others to the transponder id. -/
def deinterleaveStep (message : BitVec 32) (words : BitVec 32 × BitVec 8) (i : Nat) :
    BitVec 32 × BitVec 8 :=
  let bit := message.getLsbD i
  if i % 4 ≠ 0 then (words.1 <<< 1 ||| bitWord 32 bit, words.2)
  else (words.1, words.2 <<< 1 ||| bitWord 8 bit)

def deinterleave (message : BitVec 32) : BitVec 32 × BitVec 8 :=
  (List.range 32).foldl (deinterleaveStep message) (0, 0)

/-- What `decode_rc3` returns and writes through its two out parameters. -/
structure Rc3Result where
  ok : Bool
  transponderId : BitVec 32
  statusCode : BitVec 8
  deriving DecidableEq, Repr

def decodeRc3 (softbits : Nat → UInt8) : Rc3Result :=
  let shreg := (decodeRc3Loop softbits).shreg >>> 1
  let trail := shreg &&& 0xff#64
  let message := (shreg >>> 8).setWidth 32
  let words := deinterleave message
  { ok := trail == 0, transponderId := words.1, statusCode := words.2 }

end OpenStint
