/-
This file proves when the detector correlates on the strongest sampling phase. The energies
of the buffers are kept in 64 bits and compared in 32. A window of strong symbols has more
energy than 32 bits hold, and the phase that is found then is not the strongest; nor is
what `symbol_energy` reports the largest energy. Below that the search is right.
-/

import OpenStint.FrameDetector
import OpenStint.Library.MaxElement

namespace OpenStint

open Machine MaxElement

variable {R : Type} [Field R] {samplesPerSymbol : Nat}

/-- The energy of a buffer, all of its 64 bits. -/
def energyAt (detector : FrameDetector R samplesPerSymbol) (i : Fin samplesPerSymbol) : Nat :=
  (detector.buffers i).windowEnergy.toNat

section Phases

variable [NeZero samplesPerSymbol]

/-- The buffer that a preamble is matched against has the largest energy, and `symbol_energy`
tells it. -/
structure Strongest (detector : FrameDetector R samplesPerSymbol) : Prop where
  selected : ∀ i, energyAt detector i ≤ energyAt detector detector.bestBuffer
  symbolEnergy : detector.symbolEnergy =
    ((energyAt detector detector.bestBuffer : Nat) : R) / ((16 : Nat) : R)

/-- `symbol_energy` tells the largest energy of the buffers. -/
def ReportsLargest (detector : FrameDetector R samplesPerSymbol) : Prop :=
  ∃ largest, (∀ i, energyAt detector i ≤ energyAt detector largest) ∧
    detector.symbolEnergy = ((energyAt detector largest : Nat) : R) / ((16 : Nat) : R)

/-- The energies of all buffers fit 32 bits. -/
def EnergiesFit (detector : FrameDetector R samplesPerSymbol) : Prop :=
  ∀ i, energyAt detector i < 2 ^ 32

/-! ### One detector -/

theorem toNat_toUInt32_of_fits {energy : UInt64} (fits : energy.toNat < 2 ^ 32) :
    energy.toUInt32.toNat = energy.toNat := by
  rw [UInt64.toNat_toUInt32, Nat.mod_eq_of_lt fits]

theorem finRange_eq_cons : List.finRange samplesPerSymbol =
    (0 : Fin samplesPerSymbol) :: (List.finRange samplesPerSymbol).tail := by
  obtain ⟨more, rfl⟩ : ∃ more, samplesPerSymbol = more + 1 :=
    Nat.exists_eq_succ_of_ne_zero (NeZero.ne _)
  rw [List.finRange_succ, List.tail_cons]

omit [Field R] in
/-- Energies that fit are compared as they are. -/
theorem bestBuffer_eq {detector : FrameDetector R samplesPerSymbol} (fit : EnergiesFit detector) :
    detector.bestBuffer =
      maxElement (energyAt detector) 0 (List.finRange samplesPerSymbol).tail := by
  have compared : ∀ first second,
      (detector.buffers first).windowEnergy.toUInt32 <
          (detector.buffers second).windowEnergy.toUInt32 ↔
        energyAt detector first < energyAt detector second := by
    intro first second
    rw [UInt32.lt_iff_toNat_lt, toNat_toUInt32_of_fits (fit first),
      toNat_toUInt32_of_fits (fit second)]
    rfl
  have same := maxElement_congr compared 0 (List.finRange samplesPerSymbol)
  rw [finRange_eq_cons, maxElement_cons, maxElement_cons, ite_self, ite_self] at same
  rw [← same, FrameDetector.bestBuffer]
  conv_lhs => rw [finRange_eq_cons, List.foldl_cons, ite_self]
  rfl

theorem symbolEnergy_eq {detector : FrameDetector R samplesPerSymbol} (fit : EnergiesFit detector) :
    detector.symbolEnergy = ((energyAt detector
      (maxElement (energyAt detector) 0 (List.finRange samplesPerSymbol).tail) : Nat) : R) /
        ((16 : Nat) : R) := by
  let cut (i : Fin samplesPerSymbol) : UInt32 := (detector.buffers i).windowEnergy.toUInt32
  have found : ∀ (phases : List (Fin samplesPerSymbol)) (best : Fin samplesPerSymbol),
      phases.foldl (fun (maxEnergy : UInt32) i =>
          if (detector.buffers i).windowEnergy > maxEnergy.toUInt64 then cut i else maxEnergy)
        (cut best) = cut (maxElement (energyAt detector) best phases) := by
    intro phases
    induction phases with
    | nil => exact fun best => rfl
    | cons phase rest inductionHypothesis =>
      intro best
      have compared : (detector.buffers phase).windowEnergy > (cut best).toUInt64 ↔
          energyAt detector best < energyAt detector phase := by
        rw [gt_iff_lt, UInt64.lt_iff_toNat_lt, UInt32.toNat_toUInt64,
          toNat_toUInt32_of_fits (fit best)]
        rfl
      rw [List.foldl_cons, maxElement_cons, ← inductionHypothesis, apply_ite cut]
      simp only [compared]
  have largest := found (List.finRange samplesPerSymbol).tail 0
  have told := toNat_toUInt32_of_fits
    (fit (maxElement (energyAt detector) 0 (List.finRange samplesPerSymbol).tail))
  exact congrArg (fun energy : Nat => (energy : R) / ((16 : Nat) : R))
    ((congrArg UInt32.toNat largest).trans told)

omit [Field R] in
theorem energyAt_le_maxElement (detector : FrameDetector R samplesPerSymbol)
    (i : Fin samplesPerSymbol) : energyAt detector i ≤ energyAt detector
      (maxElement (energyAt detector) 0 (List.finRange samplesPerSymbol).tail) :=
  le_maxElement (energyAt detector) _ _ i (by
    rw [← finRange_eq_cons]
    exact List.mem_finRange i)

theorem reportsLargest_of_fit {detector : FrameDetector R samplesPerSymbol}
    (fit : EnergiesFit detector) : ReportsLargest detector :=
  ⟨_, energyAt_le_maxElement detector, symbolEnergy_eq fit⟩

/-- A number of 32 bits cannot tell an energy that does not fit. -/
theorem strongest_iff [LinearOrder R] [IsStrictOrderedRing R]
    (detector : FrameDetector R samplesPerSymbol) :
    Strongest detector ↔ EnergiesFit detector := by
  constructor
  · rintro ⟨selected, told⟩ i
    have below : ∃ energy : UInt32,
        detector.symbolEnergy = ((energy.toNat : Nat) : R) / ((16 : Nat) : R) := ⟨_, rfl⟩
    obtain ⟨energy, same⟩ := below
    rw [same, div_left_inj' (by norm_num), Nat.cast_inj] at told
    have fits := energy.toNat_lt
    have largest := selected i
    omega
  · intro fit
    have best := bestBuffer_eq fit
    exact ⟨fun i => best ▸ energyAt_le_maxElement detector i, best ▸ symbolEnergy_eq fit⟩

/-! ### Every run -/

omit [Field R] [NeZero samplesPerSymbol] in
/-- Clearing a slot does not add energy. -/
theorem EnergiesFit.clearNext {detector : FrameDetector R samplesPerSymbol}
    (fit : EnergiesFit detector) (tracks : BuffersTrack detector) (idx : Fin samplesPerSymbol) :
    EnergiesFit (detector.clearNext idx) := by
  intro i
  show (Function.update detector.buffers idx (detector.buffers idx).clearNext i).windowEnergy.toNat
    < 2 ^ 32
  by_cases same : i = idx
  · have part := ((tracks idx).sums.total_update (by decide) 0).2.1
    have whole := fit idx
    rw [same, Function.update_self]
    show ((detector.buffers idx).windowEnergy -
      (detector.buffers idx).buffE (detector.buffers idx).phase).toNat < 2 ^ 32
    rw [UInt64.toNat_sub_of_le _ _ (UInt64.le_iff_toNat_le.mpr part)]
    exact (Nat.sub_le _ _).trans_lt whole
  · rw [Function.update_of_ne same]
    exact fit i

variable [LinearOrder R]

theorem EnergiesFit.processBaseband {detector : FrameDetector R samplesPerSymbol}
    {samples : Symbol samplesPerSymbol} (fit : EnergiesFit (detector.pushSymbol samples))
    (tracks : BuffersTrack (detector.pushSymbol samples)) :
    EnergiesFit (detector.processBaseband samples).1 := by
  rcases processBaseband_state detector samples with same | same
  · rw [same]
    exact fit
  · rw [same]
    exact fit.clearNext tracks (detector.pushSymbol samples).bestBuffer

/-- At every symbol of every run, with any number of samples per symbol, the detector selects
a strongest phase, and `symbol_energy` tells its energy as well as the largest energy that is
left behind the symbol, exactly when the energies of all phases fit 32 bits. -/
theorem strongest_phase_iff [IsStrictOrderedRing R] (inputs : List (BasebandInput samplesPerSymbol))
    (samples : Symbol samplesPerSymbol) :
    (Strongest ((exec basebandStep (.initial : FrameDetector R samplesPerSymbol) inputs).pushSymbol
          samples) ∧
        ReportsLargest ((exec basebandStep (.initial : FrameDetector R samplesPerSymbol)
          inputs).processBaseband samples).1) ↔
      EnergiesFit ((exec basebandStep (.initial : FrameDetector R samplesPerSymbol)
        inputs).pushSymbol samples) := by
  have tracks := (buffersTrack_exec (R := R) inputs).pushSymbol samples
  rw [strongest_iff]
  exact ⟨And.left, fun fit => ⟨fit, reportsLargest_of_fit (fit.processBaseband tracks)⟩⟩

end Phases

/-- Two symbols of a weak carrier. -/
theorem strongest_phase_iff_weak :
    (Strongest ((exec basebandStep (.initial : FrameDetector ℚ 2)
          [.processBaseband fun _ => ⟨10, 0⟩]).pushSymbol fun _ => ⟨-10, 0⟩) ∧
        ReportsLargest ((exec basebandStep (.initial : FrameDetector ℚ 2)
          [.processBaseband fun _ => ⟨10, 0⟩]).processBaseband fun _ => ⟨-10, 0⟩).1) ↔
      EnergiesFit ((exec basebandStep (.initial : FrameDetector ℚ 2)
        [.processBaseband fun _ => ⟨10, 0⟩]).pushSymbol fun _ => ⟨-10, 0⟩) :=
  strongest_phase_iff _ _

/-- A carrier at the limit of the radio in the first phase, and a weaker one in the second. -/
def unevenSymbol : Symbol 2 := fun i => if i = 0 then ⟨127, 127⟩ else ⟨100, 100⟩

/-- After six such symbols the first phase has the energy 5202892820, of which 907925524 is
left in 32 bits, and the second phase has the energy 2000000000. -/
theorem strongest_phase_fails :
    ¬ ∀ (inputs : List (BasebandInput 2)) (samples : Symbol 2),
      Strongest ((exec basebandStep (.initial : FrameDetector ℚ 2) inputs).pushSymbol samples) := by
  intro always
  have selected :=
    (always ((List.replicate 5 unevenSymbol).map .processBaseband) unevenSymbol).selected 0
  rw [pushSymbol_exec] at selected
  revert selected
  decide +kernel

end OpenStint
