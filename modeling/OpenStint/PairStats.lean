/-
This file models `timesync_pairstats.py`, which compares the clock of a decoder with the one
of a transponder over pairs of time sync messages. A message is paired with the past ones
that came about p seconds before it, for each power of two p, when it arrives; what is too
old for the largest p is dropped.

The buckets hold one entry for each pair a quadratic sweep over all messages would find. The
timecode of a message wraps after 2^20 ticks. Rounding to the nearest number of wraps
recovers the true number as long as the two clocks agree to half a wrap over the pair.
-/

import Mathlib.Algebra.Order.Archimedean.Basic
import Mathlib.Algebra.Order.Field.Rat
import Mathlib.Algebra.Order.Floor.Ring
import Mathlib.Data.List.Nodup
import Mathlib.Data.Rat.Floor
import Mathlib.Tactic.Linarith
import Mathlib.Tactic.LinearCombination
import Mathlib.Tactic.NormNum
import Mathlib.Tactic.Ring
import OpenStint.Library.Bisect
import OpenStint.Library.CheckedLoop

namespace OpenStint

open Bisect CheckedLoop

variable {R : Type} [Field R] [LinearOrder R]

/-! ### The model -/

def timecodeBits : Nat := 20

/-- `TIMECODE_WRAP`: 1048576 ticks of 100 us. -/
def timecodeWrap : Int := 1 <<< timecodeBits

/-- `BUCKETS`: the gaps between two messages, in seconds. -/
def buckets : List Nat := [1, 2, 4, 8, 16, 32, 64, 128, 256, 512, 1024, 2048, 4096]

def maxBucket : Nat := buckets.foldl max 0

/-- `round` of a float, which takes a tie to the even neighbour. -/
def roundHalfEven [FloorRing R] (x : R) : Int :=
  let below := ⌊x⌋
  let rest := x - (below : R)
  if rest < 0.5 then below
  else if 0.5 < rest then below + 1
  else if below % 2 = 0 then below else below + 1

/-- `pair_error_ms`: the disagreement of the clocks over one pair. -/
def pairErrorMs [FloorRing R] (ddMs rawTicks : R) : R :=
  let expectedTicks := ddMs * 10.0
  let rollover := roundHalfEven ((expectedTicks - rawTicks) / (timecodeWrap : R))
  let tdTicks := rawTicks + (rollover : R) * (timecodeWrap : R)
  ddMs - tdTicks / 10.0

/-- The lists that `update_buckets` is given. -/
structure PairStats (R : Type) where
  recentMs : List R
  recentTc : List R
  bucketErrors : Nat → List R

namespace PairStats

def initial : PairStats R where
  recentMs := []
  recentTc := []
  bucketErrors := fun _ => []

/-- The entries of a message in the bucket of one gap. -/
def newErrors [FloorRing R] (newMs newTc : R) (recentMs recentTc : List R) (p : Nat) :
    Option (List R) :=
  let lo := newMs - ((p : R) + 0.5) * 1000.0
  let hi := newMs - ((p : R) - 0.5) * 1000.0
  let i0 := bisectLeft recentMs lo
  let i1 := bisectLeft recentMs hi
  (List.range' i0 (i1 - i0)).mapM fun i => do
    let ddMs := newMs - (← recentMs[i]?)
    let rawTicks := newTc - (← recentTc[i]?)
    return pairErrorMs ddMs rawTicks

/-- `update_buckets`; `none` is an index out of range. -/
def updateBuckets [FloorRing R] (stats : PairStats R) (newMs newTc : R) : Option (PairStats R) := do
  let bucketErrors ← buckets.foldlM (fun errors p => do
    let entries ← newErrors newMs newTc stats.recentMs stats.recentTc p
    return Function.update errors p (errors p ++ entries)) stats.bucketErrors
  let recentMs := stats.recentMs ++ [newMs]
  let recentTc := stats.recentTc ++ [newTc]
  let cutoff := newMs - ((maxBucket : R) + 1) * 1000.0
  let drop := bisectLeft recentMs cutoff
  return { recentMs := recentMs.drop drop, recentTc := recentTc.drop drop, bucketErrors }

end PairStats

/-- What `main` keeps between the messages of the transponder it is locked on. -/
structure PairMonitor (R : Type) where
  stats : PairStats R
  lastDecoderMs : Option R

def PairMonitor.initial : PairMonitor R where
  stats := .initial
  lastDecoderMs := none

/-- The clock of the decoder jumps back when the decoder has restarted. -/
def PairMonitor.restarts (monitor : PairMonitor R) (decoderMs : R) : Bool :=
  monitor.lastDecoderMs.any fun last => decoderMs < last

/-- A message in `main`. When the decoder has restarted, the past messages are dropped. -/
def PairMonitor.receive [FloorRing R] (monitor : PairMonitor R) (decoderMs rawTicks : R) :
    Option (PairMonitor R) := do
  let stats := if monitor.restarts decoderMs then
      { monitor.stats with recentMs := [], recentTc := [] }
    else monitor.stats
  return { stats := ← stats.updateBuckets decoderMs rawTicks, lastDecoderMs := some decoderMs }

/-! ### One entry -/

section Rounding

variable [IsStrictOrderedRing R] [FloorRing R]

theorem roundHalfEven_of_near {x : R} {m : Int} (near : |x - m| < 1 / 2) :
    roundHalfEven x = m := by
  obtain ⟨low, high⟩ := abs_lt.mp near
  have half : (0.5 : R) = 1 / 2 := by norm_num
  rw [roundHalfEven, half]
  by_cases above : (m : R) ≤ x
  · have floor : ⌊x⌋ = m := Int.floor_eq_iff.mpr ⟨above, by linarith⟩
    rw [floor, if_pos high]
  · have floor : ⌊x⌋ = m - 1 := by
      rw [Int.floor_eq_iff]
      push_cast
      exact ⟨by linarith, by linarith⟩
    rw [floor]
    push_cast
    rw [if_neg (by linarith), if_pos (by linarith), Int.sub_add_cancel]

/-- The timecode a message carries: the true number of ticks, without its upper bits. -/
def received (ticks : Int) : R := ((ticks % timecodeWrap : Int) : R)

theorem timecodeWrap_eq : timecodeWrap = 2 ^ 20 := rfl

/-- Over a pair whose clocks agree to half a wrap, an entry is the true disagreement. -/
theorem pairErrorMs_received {ddMs : R} {first second : Int}
    (near : |10 * ddMs - ((second - first : Int) : R)| < 2 ^ 19) :
    pairErrorMs ddMs (received second - received first) =
      ddMs - ((second - first : Int) : R) / 10 := by
  let wraps : Int := second / timecodeWrap - first / timecodeWrap
  have wrap : (timecodeWrap : R) = 2 ^ 20 := by
    rw [timecodeWrap_eq]
    norm_num
  have gap : ((second - first : Int) : R) =
      received second - received first + (wraps : R) * (timecodeWrap : R) := by
    have firstSplit := Int.emod_add_mul_ediv first timecodeWrap
    have secondSplit := Int.emod_add_mul_ediv second timecodeWrap
    rw [received, received, ← Int.cast_sub, ← Int.cast_mul, ← Int.cast_add]
    congr 1
    show second - first = second % timecodeWrap - first % timecodeWrap +
      (second / timecodeWrap - first / timecodeWrap) * timecodeWrap
    linear_combination firstSplit - secondSplit
  have ten : (10.0 : R) = 10 := by norm_num
  have rollover : roundHalfEven ((ddMs * 10 - (received second - received first)) /
      (timecodeWrap : R)) = wraps := by
    refine roundHalfEven_of_near ?_
    have quotient : (ddMs * 10 - (received second - received first)) / (timecodeWrap : R) -
        (wraps : R) = (10 * ddMs - ((second - first : Int) : R)) / 2 ^ 20 := by
      rw [gap, wrap]
      ring
    rw [quotient, abs_div, abs_of_pos (by norm_num : (0 : R) < 2 ^ 20),
      div_lt_iff₀ (by norm_num)]
    linarith
  rw [pairErrorMs, ten, rollover, ← gap]

end Rounding

/-! ### One message -/

/-- A gap that rounds to `p` seconds. -/
def InBucket (p : Nat) (ddMs : R) : Prop :=
  ((p : R) - 0.5) * 1000 < ddMs ∧ ddMs ≤ ((p : R) + 0.5) * 1000

/-- The lookback lists hold `length` messages from number `first` on. -/
structure Holds (ms tc : Nat → R) (first length : Nat) (stats : PairStats R) : Prop where
  ms : stats.recentMs = (List.range' first length).map ms
  tc : stats.recentTc = (List.range' first length).map tc

/-- From message `first` on the clock of the decoder does not go back before message `last`. -/
def InOrder (ms : Nat → R) (first last : Nat) : Prop :=
  ∀ a b, first ≤ a → a ≤ b → b ≤ last → ms a ≤ ms b

omit [Field R] in
theorem InOrder.sorted {ms : Nat → R} {first last length : Nat} (inOrder : InOrder ms first last)
    (inside : first + length ≤ last + 1) :
    ((List.range' first length).map ms).Pairwise (· ≤ ·) := by
  refine List.pairwise_map.mpr (List.Pairwise.imp_of_mem ?_ (List.pairwise_lt_range' 1))
  intro a b firstMember secondMember before
  rw [List.mem_range'_1] at firstMember secondMember
  exact inOrder a b firstMember.1 before.le (by omega)

theorem getElem?_map_range' {Value : Type} (f : Nat → Value) (first : Nat) {length i : Nat}
    (inside : i < length) : ((List.range' first length).map f)[i]? = some (f (first + i)) := by
  rw [List.getElem?_map, List.getElem?_range' inside, Option.map_some, Nat.one_mul]

/-- The searches of an arriving message find the messages that came about `p` seconds before. -/
theorem newErrors_spec [FloorRing R] {ms : Nat → R} (tc : Nat → R) {first length : Nat}
    (sorted : ((List.range' first length).map ms).Pairwise (· ≤ ·)) (newMs newTc : R) (p : Nat) :
    ∃ partners : List Nat, partners.Nodup ∧
      (∀ a, a ∈ partners ↔ first ≤ a ∧ a < first + length ∧
        newMs - ((p : R) + 0.5) * 1000.0 ≤ ms a ∧ ms a < newMs - ((p : R) - 0.5) * 1000.0) ∧
      PairStats.newErrors newMs newTc ((List.range' first length).map ms)
          ((List.range' first length).map tc) p =
        some (partners.map fun a => pairErrorMs (newMs - ms a) (newTc - tc a)) := by
  have size : ((List.range' first length).map ms).length = length := by
    rw [List.length_map, List.length_range']
  have bound := (bisectLeft_splits sorted (newMs - ((p : R) - 0.5) * 1000.0)).1.trans_eq size
  have search := fun (i : Nat) (below : i < length) =>
    mem_range_bisectLeft_iff sorted (newMs - ((p : R) + 0.5) * 1000.0)
      (newMs - ((p : R) - 0.5) * 1000.0) (getElem?_map_range' ms first below)
  rw [PairStats.newErrors]
  dsimp only
  generalize bisectLeft ((List.range' first length).map ms) (newMs - ((p : R) + 0.5) * 1000.0) = i0
    at search ⊢
  generalize bisectLeft ((List.range' first length).map ms) (newMs - ((p : R) - 0.5) * 1000.0) = i1
    at search bound ⊢
  refine ⟨List.range' (first + i0) (i1 - i0), List.nodup_range', fun a => ?_, ?_⟩
  · rw [List.mem_range'_1]
    constructor
    · intro member
      obtain ⟨i, rfl⟩ : ∃ i, a = first + i := ⟨a - first, by omega⟩
      exact ⟨by omega, by omega, (search i (by omega)).mp ⟨by omega, by omega⟩⟩
    · rintro ⟨after, before, between⟩
      obtain ⟨i, rfl⟩ : ∃ i, a = first + i := ⟨a - first, by omega⟩
      have found := (search i (by omega)).mpr between
      omega
  · have shifted : List.range' (first + i0) (i1 - i0) =
        (List.range' i0 (i1 - i0)).map (first + ·) := (List.map_add_range' _ _ _).symm
    rw [shifted, List.map_map]
    refine mapM_eq_some fun i member => ?_
    rw [List.mem_range'_1] at member
    rw [getElem?_map_range' ms first (by omega), getElem?_map_range' tc first (by omega)]
    rfl

/-- A loop that appends to the entry of each key, once for each. -/
theorem foldl_update_append {Value : Type} (new : Nat → List Value) {keys : List Nat}
    (distinct : keys.Nodup) (entries : Nat → List Value) (key : Nat) :
    keys.foldl (fun entries key => Function.update entries key (entries key ++ new key)) entries
        key =
      if key ∈ keys then entries key ++ new key else entries key := by
  induction keys generalizing entries with
  | nil => rfl
  | cons first rest inductionHypothesis =>
    obtain ⟨once, distinctRest⟩ := List.nodup_cons.mp distinct
    rw [List.foldl_cons, inductionHypothesis distinctRest]
    by_cases same : key = first
    · subst same
      rw [if_neg once, Function.update_self, if_pos List.mem_cons_self]
    · simp only [Function.update_of_ne same, List.mem_cons, or_iff_right same]

/-- What an arriving message does: it is paired in every bucket, it is kept, and what is too
old for the largest bucket is dropped. -/
structure Updated (ms tc : Nat → R) (first length : Nat) [FloorRing R] (stats next : PairStats R) :
    Prop where
  kept : ∃ dropped ≤ length, Holds ms tc (first + dropped) (length + 1 - dropped) next ∧
    ∀ a, first ≤ a → a < first + dropped → ms a < ms (first + length) - 4097 * 1000
  entries : ∀ p ∈ buckets, ∃ partners : List Nat, partners.Nodup ∧
    (∀ a, a ∈ partners ↔ first ≤ a ∧ a < first + length ∧
      InBucket p (ms (first + length) - ms a)) ∧
    next.bucketErrors p = stats.bucketErrors p ++
      partners.map fun a => pairErrorMs (ms (first + length) - ms a) (tc (first + length) - tc a)

theorem updateBuckets_spec [IsStrictOrderedRing R] [FloorRing R] {ms tc : Nat → R}
    {first length : Nat} {stats : PairStats R} (holds : Holds ms tc first length stats)
    (inOrder : InOrder ms first (first + length)) :
    ∃ next, stats.updateBuckets (ms (first + length)) (tc (first + length)) = some next ∧
      Updated ms tc first length stats next := by
  obtain ⟨recentMs, recentTc, bucketErrors⟩ := stats
  obtain ⟨rfl, rfl⟩ : recentMs = (List.range' first length).map ms ∧
      recentTc = (List.range' first length).map tc := ⟨holds.ms, holds.tc⟩
  have sorted : ((List.range' first length).map ms).Pairwise (· ≤ ·) :=
    inOrder.sorted (Nat.le_succ _)
  choose partners nodup members errors using
    newErrors_spec tc sorted (ms (first + length)) (tc (first + length))
  have paired : buckets.foldlM (fun errors p => do
      let entries ← PairStats.newErrors (ms (first + length)) (tc (first + length))
        ((List.range' first length).map ms) ((List.range' first length).map tc) p
      return Function.update errors p (errors p ++ entries)) bucketErrors =
      some (buckets.foldl (fun errors p => Function.update errors p (errors p ++
        (partners p).map fun a =>
          pairErrorMs (ms (first + length) - ms a) (tc (first + length) - tc a))) bucketErrors) :=
    foldlM_eq_some (fun p _ state => by rw [errors p]; rfl) bucketErrors
  have longer (f : Nat → R) : (List.range' first length).map f ++ [f (first + length)] =
      (List.range' first (length + 1)).map f := by
    rw [List.range'_1_concat, List.map_append, List.map_singleton]
  have cutoff : ((maxBucket : R) + 1) * 1000.0 = 4097 * 1000 := by
    have largest : maxBucket = 4096 := rfl
    rw [largest]
    norm_num
  have search := fun (i : Nat) (below : i < length + 1) =>
    lt_bisectLeft_iff (inOrder.sorted le_rfl) (ms (first + length) - 4097 * 1000)
      (getElem?_map_range' ms first below)
  rw [PairStats.updateBuckets, paired]
  dsimp only
  rw [Option.bind_eq_bind, Option.bind_some, longer, longer, cutoff]
  generalize bisectLeft ((List.range' first (length + 1)).map ms)
    (ms (first + length) - 4097 * 1000) = drop at search ⊢
  have stays : drop ≤ length := by
    by_contra beyond
    have below := (search length (Nat.lt_succ_self _)).mp (by omega)
    linarith
  have rest (f : Nat → R) : ((List.range' first (length + 1)).map f).drop drop =
      (List.range' (first + drop) (length + 1 - drop)).map f := by
    rw [← List.map_drop, List.drop_range', Nat.mul_one]
  refine ⟨_, rfl, ⟨drop, stays, ⟨rest ms, rest tc⟩, fun a after before => ?_⟩,
    fun p member => ?_⟩
  · obtain ⟨i, rfl⟩ : ∃ i, a = first + i := ⟨a - first, by omega⟩
    exact (search i (by omega)).mp (by omega)
  · have thousand : (1000.0 : R) = 1000 := by norm_num
    refine ⟨partners p, nodup p, fun a => ?_, ?_⟩
    · rw [members, thousand, InBucket, sub_le_comm, lt_sub_comm]
      tauto
    · exact (foldl_update_append _ (by decide) _ p).trans (if_pos member)

/-! ### Runs -/

section Runs

variable [FloorRing R] (ms tc : Nat → R)

/-- The first messages of a sequence, given to `update_buckets` one by one. -/
def PairStats.feed : Nat → Option (PairStats R)
  | 0 => some .initial
  | count + 1 => do (← feed count).updateBuckets (ms count) (tc count)

/-- The first messages of a sequence, given to `main` one by one. -/
def PairMonitor.feed : Nat → Option (PairMonitor R)
  | 0 => some .initial
  | count + 1 => do (← feed count).receive (ms count) (tc count)

/-- The decoder has not restarted between two messages. -/
def SameRun (a b : Nat) : Prop := ∀ k, a ≤ k → k < b → ms k ≤ ms (k + 1)

/-- A bucket has one entry for each pair of its gap without a restart in between. -/
def Swept (count : Nat) (stats : PairStats R) (p : Nat) : Prop :=
  ∃ pairs : List (Nat × Nat), pairs.Nodup ∧
    (∀ a b, (a, b) ∈ pairs ↔ a < b ∧ b < count ∧ SameRun ms a b ∧ InBucket p (ms b - ms a)) ∧
    stats.bucketErrors p = pairs.map fun pair =>
      pairErrorMs (ms pair.2 - ms pair.1) (tc pair.2 - tc pair.1)

/-- The lookback lists hold the first messages, but for those that come before a restart of the
decoder and those that are too old for every bucket, as seen from the latest message. -/
structure Lookback (count latest : Nat) (stats : PairStats R) : Prop where
  holds : ∃ first length, first + length = count ∧ Holds ms tc first length stats ∧
    (∀ a, first ≤ a → a < count → SameRun ms a latest) ∧
    ∀ a < first, SameRun ms a latest → ms a < ms latest - 4097 * 1000

variable {ms tc}

omit [Field R] [FloorRing R] in
theorem SameRun.le {a b : Nat} (same : SameRun ms a b) (ordered : a ≤ b) : ms a ≤ ms b := by
  induction ordered with
  | refl => exact le_rfl
  | step ordered inductionHypothesis =>
    exact (inductionHypothesis fun k after before => same k after (Nat.lt_succ_of_lt before)).trans
      (same _ ordered (Nat.lt_succ_self _))

omit [Field R] [FloorRing R] in
theorem sameRun_succ {a count : Nat} (before : a < count) :
    SameRun ms a count ↔ SameRun ms a (count - 1) ∧ ms (count - 1) ≤ ms count := by
  obtain ⟨last, rfl⟩ : ∃ last, count = last + 1 := ⟨count - 1, by omega⟩
  rw [Nat.add_sub_cancel]
  refine ⟨fun same => ⟨fun k after below => same k after (Nat.lt_succ_of_lt below),
    same last (Nat.le_of_lt_succ before) (Nat.lt_succ_self _)⟩, ?_⟩
  rintro ⟨same, step⟩ k after below
  rcases Nat.eq_or_lt_of_le (Nat.le_of_lt_succ below) with rfl | earlier
  · exact step
  · exact same k after earlier

variable [IsStrictOrderedRing R]

omit [FloorRing R] in
/-- A gap that rounds to a bucket is shorter than what is kept. -/
theorem InBucket.le {p : Nat} (member : p ∈ buckets) {ddMs : R} (gap : InBucket p ddMs) :
    ddMs ≤ 4097 * 1000 := by
  have largest : ∀ p ∈ buckets, p ≤ 4096 := by decide
  have small : (p : R) ≤ 4096 := by exact_mod_cast largest p member
  have half : (0.5 : R) = 1 / 2 := by norm_num
  have bound := gap.2
  rw [half] at bound
  linarith

omit [IsStrictOrderedRing R] in
/-- Pairs that end before the current message, and the ones of the current message. -/
theorem Swept.update {count p : Nat} {stats next : PairStats R} (swept : Swept ms tc count stats p)
    {partners : List Nat} (nodup : partners.Nodup)
    (members : ∀ a, a ∈ partners ↔ a < count ∧ SameRun ms a count ∧ InBucket p (ms count - ms a))
    (entries : next.bucketErrors p = stats.bucketErrors p ++
      partners.map fun a => pairErrorMs (ms count - ms a) (tc count - tc a)) :
    Swept ms tc (count + 1) next p := by
  obtain ⟨pairs, distinct, found, errors⟩ := swept
  refine ⟨pairs ++ partners.map fun a => (a, count), ?_, fun a b => ?_, ?_⟩
  · refine List.nodup_append.mpr ⟨distinct, nodup.map fun a b same =>
      (Prod.mk.inj same).1, ?_⟩
    rintro ⟨a, b⟩ old pair new rfl
    obtain ⟨other, -, same⟩ := List.mem_map.mp new
    obtain ⟨-, rfl⟩ := Prod.mk.inj same
    exact absurd ((found a count).mp old).2.1 (Nat.lt_irrefl count)
  · rw [List.mem_append, found, List.mem_map]
    constructor
    · rintro (⟨before, inside, rest⟩ | ⟨other, member, same⟩)
      · exact ⟨before, Nat.lt_succ_of_lt inside, rest⟩
      · obtain ⟨rfl, rfl⟩ := Prod.mk.inj same
        obtain ⟨before, rest⟩ := (members other).mp member
        exact ⟨before, Nat.lt_succ_self _, rest⟩
    · rintro ⟨before, inside, rest⟩
      rcases Nat.eq_or_lt_of_le (Nat.le_of_lt_succ inside) with rfl | earlier
      · exact Or.inr ⟨a, (members a).mpr ⟨before, rest⟩, rfl⟩
      · exact Or.inl ⟨before, earlier, rest⟩
  · rw [entries, errors, List.map_append, List.map_map]
    rfl

/-- An arriving message is paired with those of its run. -/
theorem Lookback.update {count : Nat} {stats : PairStats R}
    (lookback : Lookback ms tc count count stats) :
    ∃ next, stats.updateBuckets (ms count) (tc count) = some next ∧
      Lookback ms tc (count + 1) count next ∧
      ∀ p ∈ buckets, Swept ms tc count stats p → Swept ms tc (count + 1) next p := by
  obtain ⟨first, length, rfl, holds, sameRun, old⟩ := lookback.holds
  have inOrder : InOrder ms first (first + length) := by
    intro a b after ordered inside
    rcases Nat.eq_or_lt_of_le (ordered.trans inside) with rfl | before
    · exact le_of_eq (by rw [Nat.le_antisymm ordered inside])
    · exact SameRun.le (fun k from_ below =>
        sameRun a after before k from_ (below.trans_le inside)) ordered
  obtain ⟨next, updated, ⟨dropped, small, kept, tooOld⟩, entries⟩ :=
    updateBuckets_spec holds inOrder
  refine ⟨next, updated, ⟨first + dropped, length + 1 - dropped, by omega, kept,
    fun a after before => ?_, fun a before same => ?_⟩, fun p member swept => ?_⟩
  · rcases Nat.eq_or_lt_of_le (Nat.le_of_lt_succ before) with rfl | earlier
    · exact fun k from_ below => absurd below (Nat.not_lt.mpr from_)
    · exact sameRun a (by omega) earlier
  · by_cases known : first ≤ a
    · exact tooOld a known before
    · exact old a (Nat.not_le.mp known) same
  · obtain ⟨partners, nodup, members, errors⟩ := entries p member
    refine swept.update nodup (fun a => ?_) errors
    rw [members]
    constructor
    · rintro ⟨after, before, gap⟩
      exact ⟨before, sameRun a after before, gap⟩
    · rintro ⟨before, same, gap⟩
      refine ⟨?_, before, gap⟩
      by_contra dropped
      have far := old a (Nat.not_le.mp dropped) same
      have near := gap.le member
      linarith

/-- What `main` knows of the first messages. -/
structure Monitored (ms tc : Nat → R) (count : Nat) (monitor : PairMonitor R) : Prop where
  last : monitor.lastDecoderMs = if count = 0 then none else some (ms (count - 1))
  lookback : Lookback ms tc count (count - 1) monitor.stats
  swept : ∀ p ∈ buckets, Swept ms tc count monitor.stats p

/-- After a restart of the decoder the past messages are forgotten, and otherwise the message
goes on with their run. -/
theorem Monitored.receive {count : Nat} {monitor : PairMonitor R}
    (monitored : Monitored ms tc count monitor) :
    ∃ next, monitor.receive (ms count) (tc count) = some next ∧
      Monitored ms tc (count + 1) next := by
  obtain ⟨last, lookback, swept⟩ := monitored
  obtain ⟨first, length, whole, holds, sameRun, old⟩ := lookback.holds
  have goesOn (stats : PairStats R) (ready : Lookback ms tc count count stats)
      (same : stats.bucketErrors = monitor.stats.bucketErrors) :
      ∃ next, stats.updateBuckets (ms count) (tc count) = some next ∧
        Monitored ms tc (count + 1) ⟨next, some (ms count)⟩ := by
    obtain ⟨next, updated, kept, sweeps⟩ := ready.update
    refine ⟨next, updated, (if_neg (Nat.succ_ne_zero count)).symm, kept, fun p member => ?_⟩
    refine sweeps p member ?_
    obtain ⟨pairs, facts⟩ := swept p member
    exact ⟨pairs, same ▸ facts⟩
  by_cases restarted : monitor.restarts (ms count) = true
  · have back : count ≠ 0 ∧ ms count < ms (count - 1) := by
      rw [PairMonitor.restarts, last] at restarted
      split at restarted
      · exact absurd restarted Bool.false_ne_true
      · rename_i later
        exact ⟨later, of_decide_eq_true restarted⟩
    obtain ⟨next, updated, kept⟩ := goesOn { monitor.stats with recentMs := [], recentTc := [] }
      ⟨count, 0, rfl, ⟨rfl, rfl⟩, fun a after before => absurd after (Nat.not_le.mpr before),
        fun a before same => absurd ((sameRun_succ before).mp same).2 (not_le.mpr back.2)⟩ rfl
    refine ⟨⟨next, some (ms count)⟩, ?_, kept⟩
    rw [PairMonitor.receive]
    dsimp only
    rw [if_pos restarted, updated]
    rfl
  · have onwards : count ≠ 0 → ms (count - 1) ≤ ms count := by
      intro later
      rw [PairMonitor.restarts, last, if_neg later] at restarted
      exact not_lt.mp fun back => restarted (decide_eq_true back)
    obtain ⟨next, updated, kept⟩ := goesOn monitor.stats
      ⟨first, length, whole, holds, fun a after before =>
        (sameRun_succ before).mpr ⟨sameRun a after before, onwards (by omega)⟩,
        fun a before same => by
          obtain ⟨same, step⟩ := (sameRun_succ (by omega)).mp same
          exact (old a before same).trans_le (sub_le_sub_right step _)⟩ rfl
    refine ⟨⟨next, some (ms count)⟩, ?_, kept⟩
    rw [PairMonitor.receive]
    dsimp only
    rw [if_neg restarted, updated]
    rfl

variable (ms tc)

/-- Whatever the clock of the decoder does, every bucket has one entry for each pair of its gap
without a restart in between. -/
theorem monitored_feed (count : Nat) :
    ∃ monitor, PairMonitor.feed ms tc count = some monitor ∧ Monitored ms tc count monitor := by
  induction count with
  | zero =>
    refine ⟨.initial, rfl, rfl, ⟨0, 0, rfl, ⟨rfl, rfl⟩, ?_, ?_⟩, fun p _ => ⟨[], .nil, ?_, rfl⟩⟩
    · intro a after before
      exact absurd before (Nat.not_lt_zero a)
    · intro a before
      exact absurd before (Nat.not_lt_zero a)
    · intro a b
      refine iff_of_false List.not_mem_nil fun both => absurd both.2.1 (Nat.not_lt_zero b)
  | succ count inductionHypothesis =>
    obtain ⟨monitor, fed, monitored⟩ := inductionHypothesis
    obtain ⟨next, received, kept⟩ := monitored.receive
    exact ⟨next, by rw [PairMonitor.feed, fed, Option.bind_eq_bind, Option.bind_some, received],
      kept⟩

variable {ms}

/-- While the clock of the decoder does not go back, `main` does what `update_buckets` does. -/
theorem feed_of_monotone (monotone : Monotone ms) (count : Nat) :
    PairStats.feed ms tc count = (PairMonitor.feed ms tc count).map PairMonitor.stats := by
  induction count with
  | zero => rfl
  | succ count inductionHypothesis =>
    obtain ⟨monitor, fed, ⟨last, -, -⟩⟩ := monitored_feed ms tc count
    have onwards : monitor.restarts (ms count) = false := by
      rw [PairMonitor.restarts, last]
      split
      · rfl
      · exact decide_eq_false (not_lt.mpr (monotone (Nat.sub_le count 1)))
    rw [PairStats.feed, PairMonitor.feed, inductionHypothesis, fed, Option.map_some,
      Option.bind_eq_bind, Option.bind_some, Option.bind_eq_bind, Option.bind_some,
      PairMonitor.receive]
    dsimp only
    rw [onwards, if_neg Bool.false_ne_true]
    cases monitor.stats.updateBuckets (ms count) (tc count) <;> rfl

/-- On a clock that does not go back, the buckets hold what a quadratic sweep would find: one
entry for each pair of messages, and the true disagreement of the clocks where they agree to
half a wrap. -/
theorem pairs_swept (monotone : Monotone ms) (ticks : Nat → Int) (count : Nat) :
    ∃ stats, PairStats.feed ms (fun i => received (ticks i)) count = some stats ∧
      ∀ p ∈ buckets, ∃ (pairs : List (Nat × Nat)) (entry : Nat × Nat → R), pairs.Nodup ∧
        (∀ a b, (a, b) ∈ pairs ↔ a < b ∧ b < count ∧ InBucket p (ms b - ms a)) ∧
        stats.bucketErrors p = pairs.map entry ∧
        ∀ a b, |10 * (ms b - ms a) - ((ticks b - ticks a : Int) : R)| < 2 ^ 19 →
          entry (a, b) = (ms b - ms a) - ((ticks b - ticks a : Int) : R) / 10 := by
  obtain ⟨monitor, fed, -, -, swept⟩ := monitored_feed ms (fun i => received (ticks i)) count
  refine ⟨monitor.stats, by rw [feed_of_monotone _ monotone, fed, Option.map_some], ?_⟩
  intro p member
  obtain ⟨pairs, nodup, members, errors⟩ := swept p member
  have sameRun (a b : Nat) : SameRun ms a b := fun k _ _ => monotone (Nat.le_succ k)
  refine ⟨pairs, _, nodup, fun a b => ?_, errors, fun a b near => pairErrorMs_received near⟩
  rw [members, and_iff_right (sameRun a b)]

end Runs

/-- A message a second, over more than one wrap. -/
theorem pairs_swept_200 :
    ∃ stats, PairStats.feed (fun i => 1000 * (i : ℚ)) (fun i => received (10000 * (i : Int))) 200 =
        some stats ∧
      ∀ p ∈ buckets, ∃ (pairs : List (Nat × Nat)) (entry : Nat × Nat → ℚ), pairs.Nodup ∧
        (∀ a b, (a, b) ∈ pairs ↔ a < b ∧ b < 200 ∧
          InBucket p (1000 * (b : ℚ) - 1000 * (a : ℚ))) ∧
        stats.bucketErrors p = pairs.map entry ∧
        ∀ a b : Nat, |10 * (1000 * (b : ℚ) - 1000 * (a : ℚ)) -
            ((10000 * (b : Int) - 10000 * (a : Int) : Int) : ℚ)| < 2 ^ 19 →
          entry (a, b) = (1000 * (b : ℚ) - 1000 * (a : ℚ)) -
            ((10000 * (b : Int) - 10000 * (a : Int) : Int) : ℚ) / 10 := by
  have monotone : Monotone fun i : Nat => 1000 * (i : ℚ) := fun a b ordered =>
    mul_le_mul_of_nonneg_left (Nat.cast_le.mpr ordered) (by norm_num)
  exact pairs_swept monotone (fun i => 10000 * (i : Int)) 200

end OpenStint