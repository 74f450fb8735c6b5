/-
This file is one concrete platform: the float functions are the real ones, the equalizer
passes its latest sample through, the modem decides by the sign of the real part, and the
filter is the convolution the library computes. Closed examples and counterexamples run on
it.
-/

import Mathlib.Analysis.SpecialFunctions.Complex.Arg
import Mathlib.Analysis.SpecialFunctions.Log.Base
import OpenStint.Signal

namespace OpenStint

/-- One sample through a filter: the newest sample is the first of the window. -/
def convolve {R : Type} [Zero R] [Add R] [Mul R] (taps window : List R) : R :=
  (taps.zipWith (· * ·) window).sum

/-- The outputs of a filter whose past samples are `window`, newest first. -/
def convolveBlock {R : Type} [Zero R] [Add R] [Mul R] (taps : List R) :
    List R → List R → List R × List R
  | window, [] => (window, [])
  | window, sample :: rest =>
    let (last, outputs) := convolveBlock taps (sample :: window) rest
    (last, convolve taps (sample :: window) :: outputs)

theorem length_convolveBlock {Value : Type} [Zero Value] [Add Value] [Mul Value]
    (taps window samples : List Value) :
    (convolveBlock taps window samples).2.length = samples.length := by
  induction samples generalizing window with
  | nil => rfl
  | cons sample rest inductionHypothesis =>
    rw [convolveBlock, List.length_cons, List.length_cons, inductionHypothesis]

noncomputable def idealPlatform : Platform ℝ where
  sqrt := Real.sqrt
  log10 := Real.logb 10
  pow10 := fun exponent => 10 ^ exponent
  arg := fun number => Complex.arg ⟨number.re, number.im⟩
  polar := fun magnitude phase => ⟨magnitude * Real.cos phase, magnitude * Real.sin phase⟩
  toUint64 := fun value => UInt64.ofNat ⌊value⌋₊
  Equalizer := StdComplex ℝ
  eqlmsCreate := fun _ => ⟨0, 0⟩
  eqlmsReset := fun _ => ⟨0, 0⟩
  eqlmsSetBw := fun equalizer _ => equalizer
  eqlmsPush := fun _ sample => sample
  eqlmsExecute := fun equalizer => (equalizer, equalizer)
  eqlmsStep := fun equalizer _ _ => equalizer
  Modem := StdComplex ℝ
  modemCreate := ⟨0, 0⟩
  modemDemodulateSoft := fun _ symbol => (symbol, if 0 ≤ symbol.re then 0 else 255)
  modemGetDemodulatorEvm := fun _ => 0
  modemGetDemodulatorSample := fun symbol => ⟨if 0 ≤ symbol.re then 1 else -1, 0⟩
  Firfilt := List ℝ × List ℝ
  firfiltCreate := fun taps => (taps, [])
  firfiltReset := fun filter => (filter.1, [])
  firfiltExecuteBlock := fun filter block =>
    let (window, outputs) := convolveBlock filter.1 filter.2 block
    ((filter.1, window), outputs)

end OpenStint
