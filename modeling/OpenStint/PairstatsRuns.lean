/-
This file models the main loop of `timesync_pairstats.py` around the pairs of `PairStats`. The loop
takes what the decoder sends, keeps to one transponder, forgets the past messages when the decoder
was restarted, and prints a report every five seconds.

In every run a report counts the messages of the transponder so far, and shows the disagreements
over all pairs of them that a quadratic sweep would find between two restarts of the decoder. No
report comes early, and one that was missed is made up for.
-/

import OpenStint.Subscribers

namespace OpenStint

open Machine

variable {R : Type}

/-- `REPORT_INTERVAL`, in seconds. -/
def reportInterval [NatCast R] : R := ((5 : Nat) : R)

/-- The line of a report that tells what happened last. -/
inductive PairstatsStatus
  | locked (transponderId : Int)
  | lookbackReset
  deriving DecidableEq

/-- What `format_report` is given. -/
structure PairstatsReport (R : Type) where
  lockedId : Option Int
  messages : Nat
  bucketErrors : Nat → List R
  status : Option PairstatsStatus

/-- What `main` keeps between two passes of its loop. -/
structure PairstatsMain (R : Type) where
  lockedId : Option Int
  monitor : PairMonitor R
  messages : Nat
  status : Option PairstatsStatus
  nextReport : R

/-- A pass of the loop: the message that came, if there was one, and the reading of the clock
behind it. -/
structure PairstatsPass (R : Type) where
  msg : Option (List Char)
  now : R

namespace PairstatsMain

section Loop

variable [Field R]

def initial (lockedId : Option Int) (start : R) : PairstatsMain R where
  lockedId := lockedId
  monitor := .initial
  messages := 0
  status := none
  nextReport := start + reportInterval

variable [LinearOrder R] [FloorRing R]

/-- What the loop does with a message that it could read. -/
def take (main : PairstatsMain R) (reading : TimesyncReading Int) : Option (PairstatsMain R) :=
  let lockedId := main.lockedId.getD reading.transponderId
  let status := if main.lockedId.isNone then some (.locked reading.transponderId) else main.status
  if reading.transponderId ≠ lockedId then some { main with lockedId := some lockedId, status }
  else do
    let decoderMs : R := reading.decoderMs
    let monitor ← main.monitor.receive decoderMs reading.rawTicks
    return { main with
      lockedId := some lockedId
      monitor
      messages := main.messages + 1
      status := if main.monitor.restarts decoderMs then some .lookbackReset else status }

def report (main : PairstatsMain R) : PairstatsReport R where
  lockedId := main.lockedId
  messages := main.messages
  bucketErrors := main.monitor.stats.bucketErrors
  status := main.status

/-- The first half of a pass: the message that came, if there was one that can be read. -/
def read (main : PairstatsMain R) (msg : Option (List Char)) : Option (PairstatsMain R) :=
  match msg.bind pairstatsReading with
  | none => some main
  | some reading => main.take reading

/-- The second half: the report, if one is due. -/
def answer (main : PairstatsMain R) (now : R) : PairstatsMain R × Option (PairstatsReport R) :=
  if main.nextReport ≤ now then
    ({ main with nextReport := main.nextReport + reportInterval }, some main.report)
  else (main, none)

def step (main : PairstatsMain R) (pass : PairstatsPass R) :
    Option (PairstatsMain R × Option (PairstatsReport R)) :=
  (main.read pass.msg).map fun main => main.answer pass.now

end Loop

end PairstatsMain

/-! ### What a report shows -/

/-- The messages that were read in some passes. -/
def readingsOf (passes : List (PairstatsPass R)) : List (TimesyncReading Int) :=
  passes.filterMap fun pass => pass.msg.bind pairstatsReading

/-- The decoder's times of some messages. -/
def decoderMsOf [IntCast R] (own : List (TimesyncReading Int)) (i : Nat) : R :=
  (((own[i]?.map TimesyncReading.decoderMs).getD 0 : Int) : R)

/-- The ticks of some messages. -/
def rawTicksOf [IntCast R] (own : List (TimesyncReading Int)) (i : Nat) : R :=
  (((own[i]?.map TimesyncReading.rawTicks).getD 0 : Int) : R)

/-- The ticks of the transponder's clock, of which a message has the lower bits. -/
def CountsTicks (own : List (TimesyncReading Int)) (ticks : Nat → Int) : Prop :=
  ∀ i reading, own[i]? = some reading → reading.rawTicks = ticks i % timecodeWrap

/-- A bucket has one entry for each pair of its gap without a restart in between, which is the
true disagreement of the clocks where they agree to half a wrap. -/
def SweepsPairs [Field R] [LinearOrder R] (own : List (TimesyncReading Int)) (p : Nat)
    (errors : List R) : Prop :=
  ∃ (pairs : List (Nat × Nat)) (entry : Nat × Nat → R), pairs.Nodup ∧
    (∀ a b, (a, b) ∈ pairs ↔ a < b ∧ b < own.length ∧ SameRun (decoderMsOf own : Nat → R) a b ∧
      InBucket p (decoderMsOf own b - decoderMsOf own a : R)) ∧
    errors = pairs.map entry ∧
    ∀ ticks, CountsTicks own ticks → ∀ a b, (a, b) ∈ pairs →
      |((10 : Nat) : R) * (decoderMsOf own b - decoderMsOf own a) -
        ((ticks b - ticks a : Int) : R)| < ((2 ^ 19 : Nat) : R) →
      entry (a, b) = (decoderMsOf own b - decoderMsOf own a) -
        ((ticks b - ticks a : Int) : R) / ((10 : Nat) : R)

/-- A report is about the messages so far. -/
structure PairstatsReport.Shows [Field R] [LinearOrder R] (report : PairstatsReport R)
    (lockedId : Option Int) (readings : List (TimesyncReading Int)) : Prop where
  transponder : report.lockedId = lockedTo lockedId readings
  counted : report.messages = (ownReadings lockedId readings).length
  swept : ∀ p ∈ buckets, SweepsPairs (ownReadings lockedId readings) p (report.bucketErrors p)

/-- The number of reports among the answers so far. -/
def reportsIn (answers : List (Option (PairstatsReport R))) : Nat := answers.countP Option.isSome

/-- What holds of the answer of a pass, given the passes up to it and the answers before it. -/
structure PairstatsAnswers [Field R] [LinearOrder R] (lockedId : Option Int) (start : R)
    (passes : List (PairstatsPass R)) (now : R) (before : List (Option (PairstatsReport R)))
    (answer : Option (PairstatsReport R)) : Prop where
  /-- The reports are due five seconds apart, and one pass prints one of them. -/
  due : answer.isSome ↔ start + ((reportsIn before + 1 : Nat) : R) * reportInterval ≤ now
  shows : ∀ report, answer = some report → report.Shows lockedId (readingsOf passes)

/-! ### The messages of the transponder -/

theorem readingsOf_concat (passes : List (PairstatsPass R)) (pass : PairstatsPass R) :
    readingsOf (passes ++ [pass]) =
      readingsOf passes ++ (pass.msg.bind pairstatsReading).toList := by
  rw [readingsOf, List.filterMap_append, readingsOf]
  cases found : pass.msg.bind pairstatsReading <;> simp [found]

theorem feed_congr [Field R] [LinearOrder R] [FloorRing R] {ms ms' tc tc' : Nat → R} {count : Nat}
    (sameMs : ∀ i < count, ms i = ms' i) (sameTc : ∀ i < count, tc i = tc' i) :
    PairMonitor.feed ms tc count = PairMonitor.feed ms' tc' count := by
  induction count with
  | zero => rfl
  | succ count inductionHypothesis =>
    rw [PairMonitor.feed, PairMonitor.feed, sameMs count (Nat.lt_succ_self count),
      sameTc count (Nat.lt_succ_self count),
      inductionHypothesis (fun i inside => sameMs i (Nat.lt_succ_of_lt inside))
        fun i inside => sameTc i (Nat.lt_succ_of_lt inside)]

section Own

variable [IntCast R] (own : List (TimesyncReading Int)) (reading : TimesyncReading Int)

theorem decoderMsOf_earlier {i : Nat} (inside : i < own.length) :
    (decoderMsOf (own ++ [reading]) i : R) = decoderMsOf own i := by
  rw [decoderMsOf, decoderMsOf, List.getElem?_append_left inside]

theorem decoderMsOf_last : (decoderMsOf (own ++ [reading]) own.length : R) = reading.decoderMs := by
  rw [decoderMsOf, List.getElem?_concat_length]
  rfl

theorem rawTicksOf_earlier {i : Nat} (inside : i < own.length) :
    (rawTicksOf (own ++ [reading]) i : R) = rawTicksOf own i := by
  rw [rawTicksOf, rawTicksOf, List.getElem?_append_left inside]

theorem rawTicksOf_last : (rawTicksOf (own ++ [reading]) own.length : R) = reading.rawTicks := by
  rw [rawTicksOf, List.getElem?_concat_length]
  rfl

end Own

theorem rawTicksOf_received [Field R] {own : List (TimesyncReading Int)} {ticks : Nat → Int}
    (counts : CountsTicks own ticks) {i : Nat} (inside : i < own.length) :
    (rawTicksOf own i : R) = received (ticks i) := by
  have found := List.getElem?_eq_getElem inside
  rw [rawTicksOf, found, received, ← counts i _ found]
  rfl

section Runs

variable [Field R] [LinearOrder R] [FloorRing R]

/-- The monitor was given the messages of the transponder. -/
def FedMonitor (own : List (TimesyncReading Int)) (monitor : PairMonitor R) : Prop :=
  PairMonitor.feed (decoderMsOf own) (rawTicksOf own) own.length = some monitor

/-- What `main` knows of the messages so far. -/
structure PairstatsMain.Knows (lockedId : Option Int) (readings : List (TimesyncReading Int))
    (main : PairstatsMain R) : Prop where
  locked : main.lockedId = lockedTo lockedId readings
  counted : main.messages = (ownReadings lockedId readings).length
  fed : FedMonitor (ownReadings lockedId readings) main.monitor

theorem PairstatsMain.initial_knows (lockedId : Option Int) (start : R) :
    PairstatsMain.Knows lockedId [] (.initial lockedId start) where
  locked := Option.or_none.symm
  counted := rfl
  fed := rfl

/-- What `main` knows of the passes so far, and when its next report is due. -/
structure PairstatsMain.Follows (lockedId : Option Int) (start : R)
    (passes : List (PairstatsPass R)) (answers : List (Option (PairstatsReport R)))
    (main : PairstatsMain R) : Prop where
  knows : Knows lockedId (readingsOf passes) main
  due : main.nextReport = start + ((reportsIn answers + 1 : Nat) : R) * reportInterval

theorem PairstatsMain.initial_follows (lockedId : Option Int) (start : R) :
    Follows lockedId start [] [] (.initial lockedId start) where
  knows := initial_knows lockedId start
  due := by
    rw [show reportsIn ([] : List (Option (PairstatsReport R))) + 1 = 1 from rfl, Nat.cast_one,
      one_mul]
    rfl

variable [IsStrictOrderedRing R]

theorem FedMonitor.receive {own : List (TimesyncReading Int)} {monitor : PairMonitor R}
    (fed : FedMonitor own monitor) (reading : TimesyncReading Int) :
    ∃ next, monitor.receive (reading.decoderMs : R) reading.rawTicks = some next ∧
      FedMonitor (own ++ [reading]) next := by
  obtain ⟨next, fedNext, -⟩ :=
    monitored_feed (decoderMsOf (own ++ [reading]) : Nat → R) (rawTicksOf (own ++ [reading]))
      (own.length + 1)
  refine ⟨next, ?_, by rw [FedMonitor, List.length_append, List.length_singleton, fedNext]⟩
  rwa [PairMonitor.feed, feed_congr (fun i inside => decoderMsOf_earlier own reading inside)
    (fun i inside => rawTicksOf_earlier own reading inside), fed, Option.bind_eq_bind,
    Option.bind_some, decoderMsOf_last, rawTicksOf_last] at fedNext

theorem PairstatsMain.Knows.take {lockedId : Option Int} {readings : List (TimesyncReading Int)}
    {main : PairstatsMain R} (knows : Knows lockedId readings main)
    (reading : TimesyncReading Int) :
    ∃ next, main.take reading = some next ∧ Knows lockedId (readings ++ [reading]) next ∧
      next.nextReport = main.nextReport := by
  have own := ownReadings_concat lockedId readings reading
  have locked : some (main.lockedId.getD reading.transponderId) =
      lockedTo lockedId (readings ++ [reading]) := by
    rw [lockedTo_concat, knows.locked]
  rw [PairstatsMain.take]
  dsimp only
  by_cases isOwn : reading.transponderId = main.lockedId.getD reading.transponderId
  · rw [if_neg (not_not_intro isOwn)]
    rw [knows.locked] at isOwn
    rw [if_pos isOwn] at own
    obtain ⟨monitor, received, fed⟩ := knows.fed.receive reading
    rw [received]
    refine ⟨_, rfl, ⟨locked, ?_, ?_⟩, rfl⟩
    · rw [own, List.length_append, List.length_singleton, ← knows.counted]
    · rwa [own]
  · rw [if_pos isOwn]
    rw [knows.locked] at isOwn
    rw [if_neg isOwn, List.append_nil] at own
    refine ⟨_, rfl, ⟨locked, ?_, ?_⟩, rfl⟩
    · rw [own, ← knows.counted]
    · rw [own]
      exact knows.fed

theorem PairstatsMain.Knows.shows {lockedId : Option Int} {readings : List (TimesyncReading Int)}
    {main : PairstatsMain R} (knows : Knows lockedId readings main) :
    main.report.Shows lockedId readings := by
  refine ⟨knows.locked, knows.counted, fun p member => ?_⟩
  obtain ⟨monitor, fed, -, -, swept⟩ := monitored_feed
    (decoderMsOf (ownReadings lockedId readings) : Nat → R)
    (rawTicksOf (ownReadings lockedId readings)) (ownReadings lockedId readings).length
  obtain rfl := Option.some.inj (fed.symm.trans knows.fed)
  obtain ⟨pairs, nodup, members, errors⟩ := swept p member
  refine ⟨pairs, _, nodup, members, errors, fun ticks counts a b paired near => ?_⟩
  obtain ⟨before, inside, -⟩ := (members a b).mp paired
  dsimp only
  rw [rawTicksOf_received counts inside, rawTicksOf_received counts (before.trans inside)]
  rw [Nat.cast_pow, Nat.cast_ofNat, Nat.cast_ofNat] at near
  rw [Nat.cast_ofNat]
  exact pairErrorMs_received near

/-! ### One pass after the other -/

variable {lockedId : Option Int} {start : R} {passes : List (PairstatsPass R)}
  {answers : List (Option (PairstatsReport R))} {main : PairstatsMain R}

theorem PairstatsMain.Follows.read (follows : Follows lockedId start passes answers main)
    (pass : PairstatsPass R) :
    ∃ next, main.read pass.msg = some next ∧
      Follows lockedId start (passes ++ [pass]) answers next := by
  have grown := readingsOf_concat passes pass
  rw [PairstatsMain.read]
  cases found : pass.msg.bind pairstatsReading with
  | none =>
    rw [found, Option.toList_none, List.append_nil] at grown
    exact ⟨main, rfl, by rw [grown]; exact follows.knows, follows.due⟩
  | some reading =>
    rw [found, Option.toList_some] at grown
    obtain ⟨next, taken, knows, same⟩ := follows.knows.take reading
    exact ⟨next, taken, by rw [grown]; exact knows, same.trans follows.due⟩

theorem PairstatsMain.Follows.answer (follows : Follows lockedId start passes answers main)
    (now : R) :
    Follows lockedId start passes (answers ++ [(main.answer now).2]) (main.answer now).1 ∧
      PairstatsAnswers lockedId start passes now answers (main.answer now).2 := by
  rw [PairstatsMain.answer]
  by_cases isDue : main.nextReport ≤ now
  · rw [if_pos isDue]
    refine ⟨⟨⟨follows.knows.locked, follows.knows.counted, follows.knows.fed⟩, ?_⟩, ?_, ?_⟩
    · have more : reportsIn (answers ++ [some main.report]) = reportsIn answers + 1 := by
        rw [reportsIn, List.countP_append]
        rfl
      dsimp only
      rw [more, follows.due, add_assoc, Nat.cast_succ (reportsIn answers + 1), add_mul, one_mul]
    · exact iff_of_true rfl (follows.due ▸ isDue)
    · rintro report same
      rw [← Option.some.inj same]
      exact follows.knows.shows
  · rw [if_neg isDue]
    refine ⟨⟨follows.knows, ?_⟩, ?_, fun report same => nomatch same⟩
    · have same : reportsIn (answers ++ [none]) = reportsIn answers := by
        rw [reportsIn, List.countP_append]
        rfl
      dsimp only
      rw [same, follows.due]
    · exact iff_of_false Bool.false_ne_true (follows.due ▸ isDue)

theorem PairstatsMain.Follows.step (follows : Follows lockedId start passes answers main)
    (pass : PairstatsPass R) :
    ∃ next answer, main.step pass = some (next, answer) ∧
      Follows lockedId start (passes ++ [pass]) (answers ++ [answer]) next ∧
      PairstatsAnswers lockedId start (passes ++ [pass]) pass.now answers answer := by
  obtain ⟨next, read, kept⟩ := follows.read pass
  obtain ⟨answered, told⟩ := kept.answer pass.now
  exact ⟨_, _, by rw [PairstatsMain.step, read, Option.map_some], answered, told⟩

variable (lockedId start passes)

/-- In every run of `timesync_pairstats.py` the reports are due every five seconds, and each of
them shows the pairs of the messages so far. -/
theorem pairstats_reports :
    ∃ last answers, run PairstatsMain.step (.initial lockedId start) passes =
        some (last, answers) ∧
      ∀ i pass, passes[i]? = some pass → ∃ answer, answers[i]? = some answer ∧
        PairstatsAnswers lockedId start (passes.take i ++ [pass]) pass.now (answers.take i)
          answer :=
  run_answers (PairstatsMain.Follows lockedId start)
    (fun past pass answers answer =>
      PairstatsAnswers lockedId start (past ++ [pass]) pass.now answers answer)
    (fun _ _ _ pass follows => follows.step pass)
    (PairstatsMain.initial_follows lockedId start) passes

end Runs

/-- Two messages of a transponder in three passes, the second of which came to wait. -/
def shortPasses : List (PairstatsPass ℚ) :=
  [⟨some "T 1000 OPN 5 1048570".toList, 1⟩, ⟨none, 5⟩, ⟨some "T 2000 OPN 5 9994".toList, 10⟩]

theorem pairstats_reports_short :
    ∃ last answers, run PairstatsMain.step (.initial none 0) shortPasses = some (last, answers) ∧
      ∀ i pass, shortPasses[i]? = some pass → ∃ answer, answers[i]? = some answer ∧
        PairstatsAnswers none 0 (shortPasses.take i ++ [pass]) pass.now (answers.take i) answer :=
  pairstats_reports none 0 shortPasses

end OpenStint
