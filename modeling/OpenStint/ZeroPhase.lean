/-
This file proves that `filtfilt` is a filter without delay. The samples are extended by odd
reflection at both ends, the delay of the pass backward cancels the one of the pass forward,
and the cut takes the padding away again.

The padding is three times as long as the filter, so that the cut is out of reach of whatever
was before either pass: its transients end inside of the padding. An output reads less than
one filter length around its own sample, where turning the samples around and the odd
reflection do the same, and where a straight line goes on straight.
-/

import Mathlib.Tactic.IntervalCases
import OpenStint.ComputePassing
import OpenStint.IdealPlatform
import OpenStint.Library.CheckedLoop
import OpenStint.Library.FirFilter

namespace OpenStint

open CheckedLoop FirFilter

variable {R : Type} [CommRing R]

/-! ### The padding -/

/-- The samples, extended by odd reflection at both ends. -/
def oddExtension (x : List R) (j : Int) : R :=
  if j < 0 then ((2 : Nat) : R) * x.getD 0 0 - x.getD (-j).toNat 0
  else if x.length ≤ j then
    ((2 : Nat) : R) * x.getD (x.length - 1) 0 -
      x.getD (2 * ((x.length : Int) - 1) - j).toNat 0
  else x.getD j.toNat 0

/-- The extension from `padlen` before the samples to `padlen` after them. -/
def extended (x : List R) (padlen : Nat) : List R :=
  block (fun j => oddExtension x (j - padlen)) (padlen + x.length + padlen)

theorem oddExtension_inside {x : List R} {i : Nat} (inside : i < x.length) :
    oddExtension x i = x[i] := by
  rw [oddExtension, if_neg (by omega), if_neg (by omega), Int.toNat_natCast,
    List.getD_eq_getElem x 0 inside]

theorem block_oddExtension (x : List R) : block (oddExtension x) x.length = x := by
  refine List.ext_getElem (length_block _ _) fun i _ inside => ?_
  have read := getElem?_block (oddExtension x) inside
  rw [oddExtension_inside inside] at read
  exact List.getElem_eq_iff _ |>.mpr read

theorem mapM_reflectLeft {x : List R} {padlen : Nat} (enough : padlen < x.length) :
    (List.range padlen).mapM (reflectLeft x padlen) =
      some (block (fun j => oddExtension x (j - padlen)) padlen) := by
  refine mapM_eq_some fun i member => ?_
  have below := List.mem_range.mp member
  have source : (-((i : Int) - padlen)).toNat = padlen - i := by omega
  change _ = some (oddExtension x ((i : Int) - padlen))
  rw [reflectLeft, List.getElem?_eq_getElem (by omega), List.getElem?_eq_getElem (by omega),
    oddExtension, if_pos (by omega), source, List.getD_eq_getElem x 0 (by omega),
    List.getD_eq_getElem x 0 (by omega)]
  rfl

theorem mapM_reflectRight {x : List R} {padlen : Nat} (enough : padlen < x.length) :
    (List.range padlen).mapM (reflectRight x) =
      some (block (fun j => oddExtension x (x.length + j)) padlen) := by
  refine mapM_eq_some fun i member => ?_
  have below := List.mem_range.mp member
  have source : (2 * ((x.length : Int) - 1) - (x.length + i)).toNat = x.length - 2 - i := by omega
  change _ = some (oddExtension x ((x.length : Int) + i))
  rw [reflectRight, if_pos (by omega), List.getElem?_eq_getElem (by omega),
    List.getElem?_eq_getElem (by omega), oddExtension, if_neg (by omega), if_pos (by omega),
    source, List.getD_eq_getElem x 0 (by omega), List.getD_eq_getElem x 0 (by omega)]
  rfl

theorem extended_eq (x : List R) (padlen : Nat) :
    block (fun j => oddExtension x (j - padlen)) padlen ++ x ++
        block (fun j => oddExtension x (x.length + j)) padlen = extended x padlen := by
  have middle : x = block (fun j => oddExtension x (padlen + j - padlen)) x.length := by
    simp only [add_sub_cancel_left, block_oddExtension]
  have right : (fun j => oddExtension x (x.length + j)) =
      fun j : Int => oddExtension x ((padlen + x.length : Nat) + j - padlen) := by
    funext j
    push_cast
    ring_nf
  rw [right]
  nth_rewrite 2 [middle]
  rw [block_append (fun j => oddExtension x (j - padlen)),
    block_append (fun j => oddExtension x (j - padlen)), extended]

/-- No read is outside of the samples, and the filter runs over the extension. -/
theorem filtfilt_eq (platform : Platform R) {b x : List R} (enough : 3 * b.length < x.length) :
    filtfilt platform b x =
      let (q, y1) := platform.firfiltExecuteBlock (platform.firfiltCreate b)
        (extended x (3 * b.length))
      let (_, y2) := platform.firfiltExecuteBlock (platform.firfiltReset q) y1.reverse
      some ((y2.reverse.drop (3 * b.length)).take x.length) := by
  rw [filtfilt]
  dsimp only
  rw [mapM_reflectLeft enough, mapM_reflectRight enough]
  simp only [Option.bind_eq_bind, Option.bind_some, extended_eq]
  rfl

/-! ### The two passes -/

/-- What `filtfilt` relies on of `firfilt_rrrf`: a filter that is new or reset runs from zero
state. -/
structure FirfiltLaws (platform : Platform R) : Prop where
  create : ∀ taps samples,
    (platform.firfiltExecuteBlock (platform.firfiltCreate taps) samples).2 = pass taps 0 samples
  reset : ∀ taps first second,
    (platform.firfiltExecuteBlock (platform.firfiltReset
      (platform.firfiltExecuteBlock (platform.firfiltCreate taps) first).1) second).2 =
        pass taps 0 second

theorem filtfilt_forwardBackward {platform : Platform R} (laws : FirfiltLaws platform)
    {b x : List R} (enough : 3 * b.length < x.length) :
    filtfilt platform b x =
      some (((forwardBackward b 0 0 (extended x (3 * b.length))).drop (3 * b.length)).take
        x.length) := by
  rw [filtfilt_eq platform enough]
  dsimp only
  rw [laws.reset, laws.create, forwardBackward]

/-- The cut is out of reach of both pasts. -/
theorem cut_forwardBackward (b x : List R) (past behind : Int → R) :
    ((forwardBackward b past behind (extended x (3 * b.length))).drop (3 * b.length)).take
        x.length =
      block (zeroPhase b (oddExtension x)) x.length := by
  refine List.ext_getElem? fun i => ?_
  by_cases inside : i < x.length
  · have shifted : zeroPhase b (fun j => oddExtension x (j - (3 * b.length : Nat)))
        (3 * b.length + i : Nat) = zeroPhase b (oddExtension x) i := by
      rw [zeroPhase, zeroPhase]
      refine Finset.sum_congr rfl fun k _ => Finset.sum_congr rfl fun l _ => ?_
      push_cast
      ring_nf
    rw [List.getElem?_take_of_lt inside, List.getElem?_drop, extended,
      getElem?_forwardBackward b past behind _ (by omega) (by omega) (by omega), shifted,
      getElem?_block _ inside]
  · rw [List.getElem?_eq_none, List.getElem?_eq_none]
    · rwa [length_block, ← not_lt]
    · rw [List.length_take]
      omega

/-! ### Turned samples and straight lines -/

theorem oddExtension_reverse (x : List R) {j : Int} (low : -(x.length : Int) < j)
    (high : j < 2 * x.length - 1) :
    oddExtension x.reverse j = oddExtension x ((x.length : Int) - 1 - j) := by
  have turned {i : Nat} (below : i < x.length) :
      x.reverse.getD i 0 = x.getD (x.length - 1 - i) 0 := by
    rw [List.getD_eq_getElem?_getD, List.getElem?_reverse below, ← List.getD_eq_getElem?_getD]
  rw [oddExtension, oddExtension, List.length_reverse]
  by_cases before : j < 0
  · rw [if_pos before, if_neg (by omega), if_pos (by omega), turned (by omega),
      turned (by omega)]
    congr 3
    omega
  · by_cases behind : (x.length : Int) ≤ j
    · rw [if_neg before, if_pos behind, if_pos (by omega), turned (by omega), turned (by omega)]
      congr 3 <;> omega
    · rw [if_neg before, if_neg behind, if_neg (by omega), if_neg (by omega), turned (by omega)]
      congr 1
      omega

theorem oddExtension_affine {x : List R} {start slope : R}
    (straight : ∀ (i : Nat) (inside : i < x.length), x[i] = start + slope * i) {j : Int}
    (low : -(x.length : Int) < j) (high : j < 2 * x.length - 1) :
    oddExtension x j = start + slope * j := by
  have read {i : Nat} (inside : i < x.length) : x.getD i 0 = start + slope * i := by
    rw [List.getD_eq_getElem x 0 inside, straight i inside]
  have castToNat {i : Int} (nonneg : 0 ≤ i) : ((i.toNat : Nat) : R) = (i : R) := by
    rw [← Int.cast_natCast, Int.toNat_of_nonneg nonneg]
  rw [oddExtension]
  by_cases before : j < 0
  · rw [if_pos before, read (by omega), read (by omega), castToNat (by omega)]
    push_cast
    ring
  · by_cases behind : (x.length : Int) ≤ j
    · have lastIndex : ((x.length - 1 : Nat) : R) = x.length - 1 := by
        rw [Nat.cast_sub (by omega), Nat.cast_one]
      rw [if_neg before, if_pos behind, read (by omega), read (by omega), castToNat (by omega),
        lastIndex]
      push_cast
      ring
    · rw [if_neg before, if_neg behind, read (by omega), castToNat (by omega)]

/-! ### The filter -/

theorem filtfilt_block {platform : Platform R} (laws : FirfiltLaws platform) {b x : List R}
    (enough : 3 * b.length < x.length) :
    filtfilt platform b x = some (block (zeroPhase b (oddExtension x)) x.length) := by
  rw [filtfilt_forwardBackward laws enough, cut_forwardBackward]

/-- What `filtfilt` leaves of some samples. -/
structure FilteredWithoutDelay (platform : Platform R) (b x y : List R) : Prop where
  /-- every access is in bounds -/
  defined : filtfilt platform b x = some y
  length : y.length = x.length
  sample : ∀ i < x.length, y[i]? = some (∑ k : Fin b.length, ∑ l : Fin b.length,
    b[k] * b[l] * oddExtension x (i - (k : Nat) + (l : Nat)))
  /-- whatever was before the passes, it does not reach the result -/
  transients : ∀ past behind : Int → R,
    ((forwardBackward b past behind (extended x (3 * b.length))).drop (3 * b.length)).take
      x.length = y
  turned : filtfilt platform b x.reverse = some y.reverse
  straight : b.sum = 1 → ∀ start slope : R,
    (∀ (i : Nat) (inside : i < x.length), x[i] = start + slope * i) → y = x

theorem filtfilt_withoutDelay {platform : Platform R} (laws : FirfiltLaws platform)
    {b x : List R} (enough : 3 * b.length < x.length) :
    ∃ y, FilteredWithoutDelay platform b x y := by
  refine ⟨_, filtfilt_block laws enough, length_block _ _, fun i inside => getElem?_block _ inside,
    cut_forwardBackward b x, ?_, fun unit start slope straight => ?_⟩
  · have turnedEnough : 3 * b.length < x.reverse.length := by rwa [List.length_reverse]
    rw [filtfilt_block laws turnedEnough, reverse_block, List.length_reverse, Option.some_inj]
    refine block_congr fun i inside => ?_
    rw [← zeroPhase_reverse]
    exact zeroPhase_congr fun m low high => oddExtension_reverse x (by omega) (by omega)
  · nth_rewrite 3 [← block_oddExtension x]
    refine block_congr fun i inside => ?_
    rw [zeroPhase_congr fun m low high => oddExtension_affine straight (by omega) (by omega),
      zeroPhase_affine unit, oddExtension_affine straight (by omega) (by omega)]

/-! ### The concrete platform -/

theorem convolve_eq (taps window : List R) :
    convolve taps window = output taps (remembered window) (-1) := by
  rw [convolve, output]
  induction taps generalizing window with
  | nil => rfl
  | cons tap rest inductionHypothesis =>
    cases window with
    | nil => simp [remembered]
    | cons sample before =>
      have terms : ∀ k : Fin rest.length, rest[k] * remembered before (-1 - (k : Nat)) =
          rest[k] * remembered (sample :: before) (-1 - (k + 1 : Nat)) := by
        intro k
        rw [remembered_apply, remembered_apply, List.getD_cons_succ]
      have newest : remembered (sample :: before) (-1 - (0 : Nat)) = sample := by
        rw [remembered_apply, List.getD_cons_zero]
      rw [List.zipWith_cons_cons, List.sum_cons, inductionHypothesis,
        Finset.sum_congr rfl fun k _ => terms k]
      nth_rewrite 1 [← newest]
      exact (Fin.sum_univ_succ fun k : Fin (rest.length + 1) =>
        (tap :: rest)[k] * remembered (sample :: before) (-1 - (k : Nat))).symm

theorem convolveBlock_pass (taps window samples : List R) :
    (convolveBlock taps window samples).2 = pass taps (remembered window) samples := by
  induction samples generalizing window with
  | nil => rfl
  | cons sample rest inductionHypothesis =>
    rw [pass_cons, recalled_remembered, ← convolve_eq, ← inductionHypothesis]
    rfl

theorem firfiltLaws_ideal : FirfiltLaws idealPlatform where
  create := fun taps samples => (convolveBlock_pass taps [] samples).trans (by rw [remembered_nil])
  reset := fun taps _ second => (convolveBlock_pass taps [] second).trans (by rw [remembered_nil])

theorem filtfilt_withoutDelay_line :
    filtfilt idealPlatform [1 / 2, 1 / 2] [1, 2, 3, 4, 5, 6, 7] = some [1, 2, 3, 4, 5, 6, 7] := by
  obtain ⟨y, filtered⟩ := filtfilt_withoutDelay firfiltLaws_ideal (b := [1 / 2, 1 / 2])
    (x := [1, 2, 3, 4, 5, 6, 7]) (by simp)
  have line : y = [1, 2, 3, 4, 5, 6, 7] :=
    filtered.straight (by norm_num) 1 1 fun i inside => by
      simp only [List.length_cons, List.length_nil] at inside
      interval_cases i <;> norm_num
  rw [filtered.defined, line]

end OpenStint
