/-
This file models the receive counters of `counters.cpp` and the status step of
`report_detections`. The receiving thread counts frames; the main thread publishes the
counts every five seconds. The main thread asks whether a report is due, formats the
report, and clears the counters, taking the mutex anew each time, so a run is any list of
frames counted and critical sections entered.

Every frame counted is in a published report or still in the counters, unless it was
counted between the formatting of a report and the clearing behind it.
-/

import OpenStint.IdealPlatform
import OpenStint.Library.Machine

namespace OpenStint

open Machine

variable {R : Type}

/-- The reporting period in microseconds. -/
def reportingPeriodUs : UInt64 := 5000000

/-- The fields of `RxStatistics`; the frame counters are unbounded. -/
structure RxStatistics (R : Type) where
  framesReceived : Nat
  framesProcessed : Nat
  dcOffset : StdComplex R
  noisePower : R
  lastResetTimestamp : UInt64

/-- The four values `to_string` formats. -/
structure StatusReport (R : Type) where
  noiseFloor : R
  dcOffset : R
  framesReceived : Nat
  framesProcessed : Nat

namespace RxStatistics

def initial [Zero R] : RxStatistics R where
  framesReceived := 0
  framesProcessed := 0
  dcOffset := ⟨0, 0⟩
  noisePower := 0
  lastResetTimestamp := 0

def reportingDue (stats : RxStatistics R) (currentTimestamp : UInt64) : Bool :=
  stats.lastResetTimestamp + reportingPeriodUs ≤ currentTimestamp

def registerFrame (stats : RxStatistics R) (processed : Bool) : RxStatistics R :=
  let stats := { stats with framesReceived := stats.framesReceived + 1 }
  if processed then { stats with framesProcessed := stats.framesProcessed + 1 } else stats

def saveChannelCharacteristics (stats : RxStatistics R) (dcOffset : StdComplex R)
    (noisePower : R) : RxStatistics R :=
  { stats with dcOffset, noisePower }

def reset (stats : RxStatistics R) (currentTimestamp : UInt64) : RxStatistics R :=
  { stats with framesReceived := 0, framesProcessed := 0, lastResetTimestamp := currentTimestamp }

/-- `to_string`: the noise power is a squared magnitude, hence its factor of 10. -/
def toReport [Field R] (platform : Platform R) (stats : RxStatistics R) : StatusReport R where
  noiseFloor :=
    ((10 : Nat) : R) * platform.log10 stats.noisePower -
      ((20 : Nat) : R) * platform.log10 adcFullScale
  dcOffset := platform.sqrt stats.dcOffset.norm
  framesReceived := stats.framesReceived
  framesProcessed := stats.framesProcessed

end RxStatistics

/-! ### The two threads -/

/-- Where the main thread is in the status step of `report_detections`. -/
inductive StatusStage (R : Type)
  | idle
  | due (now : UInt64)
  | formatted (now : UInt64) (report : StatusReport R)

structure StatusState (R : Type) where
  stats : RxStatistics R
  stage : StatusStage R

def StatusState.initial [Zero R] : StatusState R where
  stats := .initial
  stage := .idle

/-- One critical section: two of the receiving thread, and the next one of the main thread.
The main thread reads the clock once, when it enters the status step. -/
inductive StatusInput (R : Type)
  | registerFrame (processed : Bool)
  | saveChannelCharacteristics (dcOffset : StdComplex R) (noisePower : R)
  | reportDetections (now : UInt64)

/-- The formatted report is the only record of the cleared counters, so it counts as
published from the reset on. -/
def statusStep [Field R] (platform : Platform R) (state : StatusState R) :
    StatusInput R → StatusState R × Option (StatusReport R)
  | .registerFrame processed =>
    ({ state with stats := state.stats.registerFrame processed }, none)
  | .saveChannelCharacteristics dcOffset noisePower =>
    ({ state with stats := state.stats.saveChannelCharacteristics dcOffset noisePower }, none)
  | .reportDetections now =>
    match state.stage with
    | .idle =>
      if state.stats.reportingDue now then ({ state with stage := .due now }, none)
      else (state, none)
    | .due now => ({ state with stage := .formatted now (state.stats.toReport platform) }, none)
    | .formatted now report => ({ stats := state.stats.reset now, stage := .idle }, some report)

/-! ### The accounts -/

/-- The two counters of frames. -/
inductive FrameCounter
  | received
  | processed
  deriving DecidableEq, Repr

namespace FrameCounter

def current : FrameCounter → RxStatistics R → Nat
  | .received => RxStatistics.framesReceived
  | .processed => RxStatistics.framesProcessed

def reported : FrameCounter → StatusReport R → Nat
  | .received => StatusReport.framesReceived
  | .processed => StatusReport.framesProcessed

/-- What one critical section adds to the number of frames. -/
def registered : FrameCounter → StatusInput R → Nat
  | .received, .registerFrame _ => 1
  | .processed, .registerFrame decoded => decoded.toNat
  | _, _ => 0

end FrameCounter

section Accounts

variable [Field R] (platform : Platform R)

/-- The state after a run from the start of the program. -/
def statusAfter (inputs : List (StatusInput R)) : StatusState R :=
  exec (statusStep platform) .initial inputs

/-- The frames in the reports published during a run. -/
def publishedCount (counter : FrameCounter) (inputs : List (StatusInput R)) : Nat :=
  ((answers (statusStep platform) .initial inputs).map fun answer =>
    (answer.map counter.reported).getD 0).sum

def registeredCount (counter : FrameCounter) (inputs : List (StatusInput R)) : Nat :=
  (inputs.map counter.registered).sum

/-- No frame is missing: each one is published or still counted. -/
def FramesAccounted (inputs : List (StatusInput R)) : Prop :=
  ∀ counter : FrameCounter,
    publishedCount platform counter inputs + counter.current (statusAfter platform inputs).stats =
      registeredCount counter inputs

/-- A report is formatted and the counters are not yet cleared. -/
def ResetPending (inputs : List (StatusInput R)) : Prop :=
  ∃ now report, (statusAfter platform inputs).stage = .formatted now report

/-- No frame is counted between the formatting of a report and the reset behind it. The
main thread's next critical section after a formatting is the reset. -/
def FramesOutsideReset (inputs : List (StatusInput R)) : Prop :=
  ∀ past processed rest, inputs = past ++ .registerFrame processed :: rest →
    ResetPending platform past → ∀ now, .reportDetections now ∉ rest

/-- No frame at all is counted while a reset is pending. -/
def QuietWhilePending (inputs : List (StatusInput R)) : Prop :=
  ∀ past processed rest, inputs = past ++ .registerFrame processed :: rest →
    ¬ ResetPending platform past

end Accounts

/-! ### One critical section -/

section Steps

/-- The main thread's first critical section in a stretch of a run. -/
theorem first_reportDetections {rest : List (StatusInput R)} {now : UInt64}
    (member : .reportDetections now ∈ rest) :
    ∃ between since later, rest = between ++ .reportDetections since :: later ∧
      ∀ now, .reportDetections now ∉ between := by
  induction rest with
  | nil => cases member
  | cons input rest inductionHypothesis =>
    by_cases receiving : ∀ now, input ≠ .reportDetections now
    · obtain ⟨between, since, later, rfl, none⟩ := inductionHypothesis
        ((List.mem_cons.mp member).resolve_left fun same => receiving now same.symm)
      refine ⟨input :: between, since, later, rfl, fun now inside => ?_⟩
      rcases List.mem_cons.mp inside with same | inside
      · exact receiving now same.symm
      · exact none now inside
    · push Not at receiving
      obtain ⟨since, rfl⟩ := receiving
      exact ⟨[], since, rest, rfl, fun _ => List.not_mem_nil⟩

theorem registeredCount_concat (counter : FrameCounter) (inputs : List (StatusInput R))
    (last : StatusInput R) :
    registeredCount counter (inputs ++ [last]) =
      registeredCount counter inputs + counter.registered last := by
  rw [registeredCount, List.map_append, List.sum_append, List.map_singleton, List.sum_singleton]
  rfl

theorem current_reset (counter : FrameCounter) (stats : RxStatistics R) (now : UInt64) :
    counter.current (stats.reset now) = 0 := by
  cases counter <;> rfl

variable [Field R] (platform : Platform R)

/-- The receiving thread adds what it registers and leaves the main thread where it is. -/
theorem statusStep_receiving (state : StatusState R) (input : StatusInput R)
    (receiving : ∀ now, input ≠ .reportDetections now) :
    (statusStep platform state input).2 = none ∧
      (statusStep platform state input).1.stage = state.stage ∧
      ∀ counter : FrameCounter, counter.current (statusStep platform state input).1.stats =
        counter.current state.stats + counter.registered input := by
  cases input with
  | registerFrame processed =>
    refine ⟨rfl, rfl, fun counter => ?_⟩
    cases counter <;> cases processed <;> rfl
  | saveChannelCharacteristics dcOffset noisePower =>
    refine ⟨rfl, rfl, fun counter => ?_⟩
    cases counter <;> rfl
  | reportDetections now => exact absurd rfl (receiving now)

/-- The main thread clears the counters at the reset only, and a report it has just
formatted holds the counters. -/
theorem statusStep_reportDetections (state : StatusState R) (now : UInt64) :
    (∃ since report, state.stage = .formatted since report ∧
      statusStep platform state (.reportDetections now) =
        ({ stats := state.stats.reset since, stage := .idle }, some report)) ∨
    ((∀ since report, state.stage ≠ .formatted since report) ∧
      (statusStep platform state (.reportDetections now)).2 = none ∧
      (statusStep platform state (.reportDetections now)).1.stats = state.stats ∧
      ∀ since report,
        (statusStep platform state (.reportDetections now)).1.stage = .formatted since report →
          report = state.stats.toReport platform) := by
  obtain ⟨stats, stage⟩ := state
  cases stage with
  | idle =>
    refine Or.inr ⟨nofun, ?_⟩
    dsimp only [statusStep]
    by_cases due : stats.reportingDue now <;> simp [due]
  | due since =>
    refine Or.inr ⟨nofun, rfl, rfl, fun since report formatted => ?_⟩
    injection formatted with _ same
    exact same.symm
  | formatted since report => exact Or.inl ⟨since, report, rfl, rfl⟩

theorem statusAfter_concat (inputs : List (StatusInput R)) (last : StatusInput R) :
    statusAfter platform (inputs ++ [last]) =
      (statusStep platform (statusAfter platform inputs) last).1 :=
  exec_concat _ _ _ _

theorem publishedCount_concat (counter : FrameCounter) (inputs : List (StatusInput R))
    (last : StatusInput R) :
    publishedCount platform counter (inputs ++ [last]) =
      publishedCount platform counter inputs +
        ((statusStep platform (statusAfter platform inputs) last).2.map
          counter.reported).getD 0 := by
  rw [publishedCount, answers_concat, List.map_append, List.sum_append, List.map_singleton,
    List.sum_singleton]
  rfl

theorem reported_toReport (counter : FrameCounter) (stats : RxStatistics R) :
    counter.reported (stats.toReport platform) = counter.current stats := by
  cases counter <;> rfl

end Steps

/-! ### Runs -/

section Runs

variable [Field R] (platform : Platform R)

/-- No frame is counted twice, and a formatted report holds no more than the counters. -/
theorem published_add_current_le (inputs : List (StatusInput R)) :
    (∀ counter : FrameCounter, publishedCount platform counter inputs +
        counter.current (statusAfter platform inputs).stats ≤ registeredCount counter inputs) ∧
      ∀ since report, (statusAfter platform inputs).stage = .formatted since report →
        ∀ counter : FrameCounter,
          counter.reported report ≤ counter.current (statusAfter platform inputs).stats := by
  induction inputs using List.reverseRecOn with
  | nil => exact ⟨fun counter => by cases counter <;> exact le_rfl, nofun⟩
  | append_singleton past last inductionHypothesis =>
    obtain ⟨balance, formatted⟩ := inductionHypothesis
    simp only [statusAfter_concat, publishedCount_concat, registeredCount_concat]
    by_cases receiving : ∀ now, last ≠ .reportDetections now
    · obtain ⟨silent, stage, counted⟩ :=
        statusStep_receiving platform (statusAfter platform past) last receiving
      rw [silent, stage]
      refine ⟨fun counter => ?_, fun since report pending counter => ?_⟩
      · have before := balance counter
        rw [counted counter, Option.map_none, Option.getD_none]
        omega
      · rw [counted counter]
        exact Nat.le_add_right_of_le (formatted since report pending counter)
    · push Not at receiving
      obtain ⟨now, rfl⟩ := receiving
      rcases statusStep_reportDetections platform (statusAfter platform past) now with
        ⟨since, report, pending, step⟩ | ⟨-, silent, stats, fresh⟩
      · rw [step]
        refine ⟨fun counter => ?_, nofun⟩
        have before := balance counter
        have held := formatted since report pending counter
        rw [current_reset, Option.map_some, Option.getD_some]
        omega
      · rw [silent, stats]
        refine ⟨fun counter => ?_, fun since report pending counter => ?_⟩
        · rw [Option.map_none, Option.getD_none]
          exact Nat.le_add_right_of_le (balance counter)
        · rw [fresh since report pending, reported_toReport]

/-- While the receiving thread is alone, the main thread waits where it is. -/
theorem stage_of_receiving (past rest : List (StatusInput R))
    (receiving : ∀ now, .reportDetections now ∉ rest) :
    (statusAfter platform (past ++ rest)).stage = (statusAfter platform past).stage ∧
      ∀ counter : FrameCounter, counter.current (statusAfter platform (past ++ rest)).stats =
        counter.current (statusAfter platform past).stats + registeredCount counter rest := by
  induction rest using List.reverseRecOn with
  | nil => exact ⟨by rw [List.append_nil], fun counter => by rw [List.append_nil]; rfl⟩
  | append_singleton rest last inductionHypothesis =>
    obtain ⟨stage, counted⟩ :=
      inductionHypothesis fun now member => receiving now (List.mem_append_left _ member)
    obtain ⟨-, sameStage, lastCounted⟩ :=
      statusStep_receiving platform (statusAfter platform (past ++ rest)) last
        fun now same => receiving now (by simp [same])
    rw [← List.append_assoc, statusAfter_concat]
    refine ⟨sameStage.trans stage, fun counter => ?_⟩
    rw [lastCounted counter, counted counter, registeredCount_concat, Nat.add_assoc]

theorem QuietWhilePending.of_append {past rest : List (StatusInput R)}
    (quiet : QuietWhilePending platform (past ++ rest)) : QuietWhilePending platform past :=
  fun before processed between split => quiet before processed (between ++ rest) (by simp [split])

/-- A report is still current at the reset when no frame came in between. -/
theorem reported_eq_current {inputs : List (StatusInput R)}
    (quiet : QuietWhilePending platform inputs) {since : UInt64} {report : StatusReport R}
    (pending : (statusAfter platform inputs).stage = .formatted since report)
    (counter : FrameCounter) :
    counter.reported report = counter.current (statusAfter platform inputs).stats := by
  induction inputs using List.reverseRecOn generalizing since report with
  | nil => exact absurd pending nofun
  | append_singleton past last inductionHypothesis =>
    rw [statusAfter_concat] at pending ⊢
    by_cases receiving : ∀ now, last ≠ .reportDetections now
    · obtain ⟨-, stage, counted⟩ :=
        statusStep_receiving platform (statusAfter platform past) last receiving
      rw [stage] at pending
      have silent : counter.registered last = 0 := by
        cases last with
        | registerFrame processed => exact absurd ⟨_, _, pending⟩ (quiet past processed [] rfl)
        | saveChannelCharacteristics dcOffset noisePower => cases counter <;> rfl
        | reportDetections now => exact absurd rfl (receiving now)
      rw [counted, silent, Nat.add_zero]
      exact inductionHypothesis (quiet.of_append platform) pending
    · push Not at receiving
      obtain ⟨now, rfl⟩ := receiving
      rcases statusStep_reportDetections platform (statusAfter platform past) now with
        ⟨_, _, -, step⟩ | ⟨-, -, stats, fresh⟩
      · rw [step] at pending
        exact absurd pending nofun
      · rw [stats, fresh since report pending, reported_toReport]

theorem FramesOutsideReset.of_append {past rest : List (StatusInput R)}
    (outside : FramesOutsideReset platform (past ++ rest)) : FramesOutsideReset platform past :=
  fun before processed between split pending now member =>
    outside before processed (between ++ rest) (by simp [split]) pending now
      (List.mem_append_left _ member)

/-- A critical section of the main thread closes the account of every frame before it. -/
theorem FramesOutsideReset.quiet {past : List (StatusInput R)} {now : UInt64}
    (outside : FramesOutsideReset platform (past ++ [.reportDetections now])) :
    QuietWhilePending platform past :=
  fun before processed between split pending =>
    outside before processed (between ++ [.reportDetections now]) (by simp [split]) pending now
      (by simp)

theorem framesAccounted_of_outsideReset {inputs : List (StatusInput R)}
    (outside : FramesOutsideReset platform inputs) : FramesAccounted platform inputs := by
  induction inputs using List.reverseRecOn with
  | nil => exact fun counter => by cases counter <;> rfl
  | append_singleton past last inductionHypothesis =>
    intro counter
    have balance := inductionHypothesis (outside.of_append platform) counter
    rw [statusAfter_concat, publishedCount_concat, registeredCount_concat]
    by_cases receiving : ∀ now, last ≠ .reportDetections now
    · obtain ⟨silent, -, counted⟩ :=
        statusStep_receiving platform (statusAfter platform past) last receiving
      rw [silent, counted counter, Option.map_none, Option.getD_none]
      omega
    · push Not at receiving
      obtain ⟨now, rfl⟩ := receiving
      have none : counter.registered (.reportDetections now : StatusInput R) = 0 := by
        cases counter <;> rfl
      rcases statusStep_reportDetections platform (statusAfter platform past) now with
        ⟨since, report, pending, step⟩ | ⟨-, silent, stats, -⟩
      · have held := reported_eq_current platform (outside.quiet platform) pending counter
        rw [step, none, current_reset, Option.map_some, Option.getD_some]
        omega
      · rw [silent, stats, none, Option.map_none, Option.getD_none]
        omega

/-- A frame counted between a formatted report and the reset behind it is lost. -/
theorem lost_of_registered_while_pending {past : List (StatusInput R)} (processed : Bool)
    {rest : List (StatusInput R)} (pending : ResetPending platform past)
    (receiving : ∀ now, .reportDetections now ∉ rest) (now : UInt64) :
    ¬ FramesAccounted platform
      (past ++ .registerFrame processed :: rest ++ [.reportDetections now]) := by
  intro accounted
  obtain ⟨since, report, pending⟩ := pending
  have alone : ∀ now, .reportDetections now ∉ StatusInput.registerFrame processed :: rest := by
    intro now member
    rcases List.mem_cons.mp member with same | member
    · exact absurd same nofun
    · exact receiving now member
  obtain ⟨stage, counted⟩ := stage_of_receiving platform past _ alone
  rw [pending] at stage
  have held := (published_add_current_le platform past).2 since report pending .received
  have before := (published_add_current_le platform (past ++ .registerFrame processed :: rest)).1
    .received
  have after := accounted .received
  rw [statusAfter_concat, publishedCount_concat, registeredCount_concat] at after
  rcases statusStep_reportDetections platform
      (statusAfter platform (past ++ .registerFrame processed :: rest)) now with
    ⟨_, _, again, step⟩ | ⟨never, -⟩
  · obtain ⟨rfl, rfl⟩ : _ ∧ _ := by rw [stage] at again; injection again with a b; exact ⟨a, b⟩
    rw [step, current_reset, Option.map_some, Option.getD_some] at after
    have one : registeredCount (R := R) .received (.registerFrame processed :: rest) =
        1 + registeredCount (R := R) .received rest := rfl
    have more := counted .received
    have silent :
        FrameCounter.registered .received (.reportDetections now : StatusInput R) = 0 := rfl
    omega
  · exact absurd stage (never _ _)

/-- At every point of a run no frame is missing from the reports and the counters, exactly
when no frame was counted between the formatting of a report and the reset behind it. -/
theorem frames_accounted_iff (inputs : List (StatusInput R)) :
    (∀ past, past <+: inputs → FramesAccounted platform past) ↔
      FramesOutsideReset platform inputs := by
  constructor
  · intro accounted past processed rest split pending now member
    obtain ⟨between, since, later, rfl, receiving⟩ := first_reportDetections member
    refine lost_of_registered_while_pending platform processed pending receiving since
      (accounted _ ⟨later, ?_⟩)
    rw [split, List.append_assoc, List.append_assoc]
    rfl
  · rintro outside past ⟨rest, rfl⟩
    exact framesAccounted_of_outsideReset platform (outside.of_append platform)

end Runs

/-- A frame that arrives after the report is formatted is cleared with the others and is in
no report. -/
theorem frames_accounted_fails : ¬ ∀ inputs, FramesAccounted idealPlatform inputs := by
  intro accounted
  have counts := accounted [.reportDetections 5000000, .reportDetections 5000000,
    .registerFrame true, .reportDetections 5000000] .received
  exact absurd counts (by decide)

end OpenStint
