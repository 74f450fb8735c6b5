/-
This file holds what the signal path computes with: complex numbers as the C++ library
has them, the 8-bit samples a radio delivers, and the parts of the signal path that are
not in the repository. Those are the equalizer, the modem and the filter of the liquid library
and the float functions of the C++ library; they are parameters of the model, gathered in
`Platform`. Float arithmetic is exact arithmetic over an ordered field.
-/

import Mathlib.Algebra.Field.Basic
import Mathlib.Algebra.Order.Ring.Int

namespace OpenStint

/-- `std::complex`. -/
structure StdComplex (Value : Type) where
  re : Value
  im : Value
  deriving DecidableEq, Repr, Inhabited

namespace StdComplex

variable {Value : Type}

def map {Other : Type} (cast : Value → Other) (number : StdComplex Value) : StdComplex Other :=
  ⟨cast number.re, cast number.im⟩

instance [Zero Value] : Zero (StdComplex Value) := ⟨⟨0, 0⟩⟩

instance [Add Value] : Add (StdComplex Value) := ⟨fun a b => ⟨a.re + b.re, a.im + b.im⟩⟩

instance [Sub Value] : Sub (StdComplex Value) := ⟨fun a b => ⟨a.re - b.re, a.im - b.im⟩⟩

instance [Mul Value] [Add Value] [Sub Value] : Mul (StdComplex Value) :=
  ⟨fun a b => ⟨a.re * b.re - a.im * b.im, a.re * b.im + a.im * b.re⟩⟩

/-- The product with a real number. -/
def scale [Mul Value] (number : StdComplex Value) (factor : Value) : StdComplex Value :=
  ⟨number.re * factor, number.im * factor⟩

def conj [Neg Value] (number : StdComplex Value) : StdComplex Value := ⟨number.re, -number.im⟩

/-- `std::norm`: the squared magnitude. -/
def norm [Mul Value] [Add Value] (number : StdComplex Value) : Value :=
  number.re * number.re + number.im * number.im

end StdComplex

/-- One I/Q sample of the radio. -/
abbrev Sample := StdComplex Int8

/-- The samples of one symbol. -/
abbrev Symbol (samplesPerSymbol : Nat) := Fin samplesPerSymbol → Sample

/-- `complex_cast<int32_t>` of a sample. -/
def Sample.toInt (sample : Sample) : StdComplex Int := sample.map Int8.toInt

/-- `complex_cast<float>` of a sample. -/
def Sample.toFloat {R : Type} [IntCast R] (sample : Sample) : StdComplex R :=
  sample.map fun part => (part.toInt : R)

/-- A signed 32-bit result: what two's complement leaves of an exact value. -/
def wrap32 (value : Int) : Int := value.bmod (2 ^ 32)

theorem wrap32_of_fits {value : Int} (low : -2 ^ 31 ≤ value) (high : value < 2 ^ 31) :
    wrap32 value = value := by
  rw [wrap32, Int.bmod_def]
  split <;> omega

theorem wrap32_le {value : Int} (nonneg : 0 ≤ value) : wrap32 value ≤ value := by
  rw [wrap32, Int.bmod_def]
  split <;> omega

/-- A positive value that does not fit comes out at most half as large. -/
theorem two_mul_wrap32_le {value : Int} (overflows : 2 ^ 31 ≤ value) :
    2 * wrap32 value ≤ value := by
  rw [wrap32, Int.bmod_def]
  split <;> omega

/-- The float functions and the liquid objects the receiver calls. -/
structure Platform (R : Type) where
  sqrt : R → R
  log10 : R → R
  pow10 : R → R
  arg : StdComplex R → R
  polar : R → R → StdComplex R
  /-- `static_cast<uint64_t>` of a float -/
  toUint64 : R → UInt64
  /-- `eqlms_cccf`, the least-mean-squares equalizer -/
  Equalizer : Type
  eqlmsCreate : List (StdComplex R) → Equalizer
  eqlmsReset : Equalizer → Equalizer
  eqlmsSetBw : Equalizer → R → Equalizer
  eqlmsPush : Equalizer → StdComplex R → Equalizer
  eqlmsExecute : Equalizer → Equalizer × StdComplex R
  eqlmsStep : Equalizer → StdComplex R → StdComplex R → Equalizer
  /-- `modemcf`, the BPSK demodulator -/
  Modem : Type
  modemCreate : Modem
  modemDemodulateSoft : Modem → StdComplex R → Modem × UInt8
  modemGetDemodulatorEvm : Modem → R
  modemGetDemodulatorSample : Modem → StdComplex R
  /-- `firfilt_rrrf`, the finite impulse response filter -/
  Firfilt : Type
  firfiltCreate : List R → Firfilt
  firfiltReset : Firfilt → Firfilt
  firfiltExecuteBlock : Firfilt → List R → Firfilt × List R

/-- `ADC_FULL_SCALE`: 127 * 1.41, the largest magnitude of a sample. -/
def adcFullScale {R : Type} [NatCast R] : R := ((179 : Nat) : R)

end OpenStint
