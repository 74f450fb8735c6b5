/-
This file models `bridge-zround.py`, which stands between the decoder and the race management of
ZRound. It answers the requests of ZRound, and while a race runs it passes the passings and the
status of the decoder on, with times that count from the start of the race. Connections of
ZRound come and go, and their messages and those of the decoder arrive in any order.

What the bridge sends for a message follows from what has happened so far: who connected last,
and whether a connection has ended since; when the race that is running was started, and the
first passing since then, which ties the clock of the decoder to that of the bridge. Within a
race the times it sends are apart as the times of the decoder are.
-/

import Mathlib.Data.List.DropRight
import OpenStint.Subscribers

namespace OpenStint

open Machine

variable {R : Type}

/-! ### The bridge -/

/-- The requests of ZRound that the bridge knows: to connect, and to start and to stop a race. -/
inductive ZroundCommand
  | connect
  | start
  | stop
  deriving DecidableEq

/-- `handle_zround` on a message, which ends with the `&` it was read up to. -/
def zroundCommand (data : List Char) : Option ZroundCommand :=
  let msg := PythonText.strip data
  if PythonText.startsWith msg "%C".toList then some .connect
  else if PythonText.startsWith msg "%I".toList then some .start
  else if PythonText.startsWith msg "%F".toList then some .stop
  else none

/-- `Bridge`; connections are told apart by numbers. -/
structure ZroundBridge (R : Type) where
  zroundWriter : Option Nat
  raceRunning : Bool
  baseDecoderTs : Option R
  baseRaceTime : R

/-- What reaches the bridge: a connection, a message of one, its end, or a message of the decoder.
The messages come with the reading of the monotonic clock. -/
inductive ZroundEvent (R : Type)
  | connected (connection : Nat)
  | received (connection : Nat) (data : List Char) (now : R)
  | disconnected (connection : Nat)
  | decoderMessage (msg : List Char) (now : R)

/-- `int` of a float: towards zero. -/
def truncate [Ring R] [LinearOrder R] [FloorRing R] (x : R) : Int := if 0 ≤ x then ⌊x⌋ else ⌈x⌉

/-- `format` of a number with the specifier `X`. -/
def hexText (number : Int) : List Char :=
  let digits := (Nat.toDigits 16 number.natAbs).map Char.toUpper
  if number < 0 then '-' :: digits else digits

def acknowledgeText : List Char := "%A&".toList

def lapText (transponderId raceTime : Int) : List Char :=
  "%L".toList ++ hexText transponderId ++ ",".toList ++ hexText raceTime ++ "&".toList

def clockText (raceTime : Int) : List Char := "%T".toList ++ hexText raceTime ++ "&".toList

namespace ZroundBridge

def initial [Zero R] : ZroundBridge R where
  zroundWriter := none
  raceRunning := false
  baseDecoderTs := none
  baseRaceTime := 0

/-- `send`: to the writer, if there is one. -/
def send (bridge : ZroundBridge R) (msg : List Char) : List (Nat × List Char) :=
  bridge.zroundWriter.toList.map fun writer => (writer, msg)

variable [Field R] [LinearOrder R] [FloorRing R]

def translateOpenstintPassing (bridge : ZroundBridge R) (decoderTime transponderId : Int)
    (now : R) : ZroundBridge R × List (Nat × List Char) :=
  if !bridge.raceRunning then (bridge, [])
  else
    let decoderTimeSeconds := (decoderTime : R) / ((1000 : Nat) : R)
    let baseDecoderTs :=
      bridge.baseDecoderTs.getD (decoderTimeSeconds - (now - bridge.baseRaceTime))
    let raceTime := truncate (((1000 : Nat) : R) * (decoderTimeSeconds - baseDecoderTs))
    let bridge := { bridge with baseDecoderTs := some baseDecoderTs }
    (bridge, bridge.send (lapText transponderId raceTime))

def translateOpenstintStatus (bridge : ZroundBridge R) (decoderTime : Int) :
    List (Nat × List Char) :=
  if !bridge.raceRunning then []
  else
    match bridge.baseDecoderTs with
    | none => []
    | some baseDecoderTs =>
      let decoderTimeSeconds := (decoderTime : R) / ((1000 : Nat) : R)
      let raceTime := truncate (((1000 : Nat) : R) * (decoderTimeSeconds - baseDecoderTs))
      bridge.send (clockText raceTime)

/-- What the bridge does at an event, and what it sends to which connection. A message of the
decoder that cannot be read ends it. -/
def step (bridge : ZroundBridge R) :
    ZroundEvent R → Option (ZroundBridge R × List (Nat × List Char))
  | .connected connection => some ({ bridge with zroundWriter := some connection }, [])
  | .received _ data now =>
    match zroundCommand data with
    | some .connect => some (bridge, bridge.send acknowledgeText)
    | some .start =>
      some ({ bridge with raceRunning := true, baseDecoderTs := none, baseRaceTime := now }, [])
    | some .stop => some ({ bridge with raceRunning := false }, [])
    | none => some (bridge, [])
  | .disconnected _ => some ({ bridge with zroundWriter := none }, [])
  | .decoderMessage msg now =>
    match zroundReading msg with
    | .passing decoderTime transponderId =>
      some (bridge.translateOpenstintPassing decoderTime transponderId now)
    | .status decoderTime => some (bridge, bridge.translateOpenstintStatus decoderTime)
    | .ignored => some (bridge, [])
    | .failed => none

end ZroundBridge

/-! ### What the history says -/

namespace ZroundEvent

/-- The writer that an event leaves, if it touches it. -/
def writer : ZroundEvent R → Option (Option Nat)
  | .connected connection => some (some connection)
  | .disconnected _ => some none
  | _ => none

def command : ZroundEvent R → Option ZroundCommand
  | .received _ data _ => zroundCommand data
  | _ => none

/-- A race is started or stopped. -/
def commandsRace (event : ZroundEvent R) : Bool :=
  event.command = some .start ∨ event.command = some .stop

/-- The time at which a race is started. -/
def raceStart : ZroundEvent R → Option R
  | .received _ data now => if zroundCommand data = some .start then some now else none
  | _ => none

/-- The decoder's time in a passing or a status. -/
def decoderTime : ZroundEvent R → Option Int
  | .decoderMessage msg _ =>
    match zroundReading msg with
    | .passing decoderTime _ | .status decoderTime => some decoderTime
    | _ => none
  | _ => none

/-- The numbers that the bridge reads in a message of the decoder are numbers. -/
def readable : ZroundEvent R → Bool
  | .decoderMessage msg _ => zroundReading msg ≠ .failed
  | _ => true

/-- The time of a passing on the clocks of the decoder and of the bridge. -/
def passing : ZroundEvent R → Option (Int × R)
  | .decoderMessage msg now =>
    match zroundReading msg with
    | .passing decoderTime _ => some (decoderTime, now)
    | _ => none
  | _ => none

end ZroundEvent

/-- The connection that is sent to: the last one, if none has ended since. -/
def writerAfter (past : List (ZroundEvent R)) : Option Nat :=
  (past.reverse.findSome? ZroundEvent.writer).join

/-- The race that is running: the time it was started at, and what has happened since. -/
def raceAfter (past : List (ZroundEvent R)) : Option (R × List (ZroundEvent R)) :=
  ((past.rdropWhile fun event => !event.commandsRace).getLast?.bind ZroundEvent.raceStart).map
    fun start => (start, past.rtakeWhile fun event => !event.commandsRace)

section History

variable [Field R] [LinearOrder R] [FloorRing R]

/-- The time in a race: since its first passing on the clock of the decoder, and up to that on the
clock of the bridge. -/
def raceTime (start : R) (first : Int × R) (decoderTime : Int) : Int :=
  truncate (((decoderTime - first.1 : Int) : R) + ((1000 : Nat) : R) * (first.2 - start))

/-- The race time of a message of the decoder, once there was a passing in the race; it may be
the message itself. -/
def sentTime (past : List (ZroundEvent R)) (event : ZroundEvent R) : Option Int :=
  match raceAfter past, event.decoderTime with
  | some (start, since), some decoderTime =>
    ((since ++ [event]).findSome? ZroundEvent.passing).map fun first =>
      raceTime start first decoderTime
  | _, _ => none

/-- The text in which a race time is sent. -/
def timeText (msg : List Char) (time : Int) : List Char :=
  match zroundReading msg with
  | .passing _ transponderId => lapText transponderId time
  | _ => clockText time

/-- The text that is sent at an event. -/
def sentText (past : List (ZroundEvent R)) (event : ZroundEvent R) : Option (List Char) :=
  match event with
  | .received _ data _ => if zroundCommand data = some .connect then some acknowledgeText else none
  | .decoderMessage msg _ => (sentTime past event).map (timeText msg)
  | _ => none

/-- What is sent at an event, and to whom. -/
def sentAt (past : List (ZroundEvent R)) (event : ZroundEvent R) : List (Nat × List Char) :=
  match writerAfter past, sentText past event with
  | some writer, some text => [(writer, text)]
  | _, _ => []

end History

/-- The messages of the decoder are its own. -/
def FromDecoder (events : List (ZroundEvent R)) : Prop :=
  ∀ msg now, .decoderMessage msg now ∈ events → ∃ message : DecoderMessage, msg = message.text

theorem FromDecoder.readable {events : List (ZroundEvent R)} (decoder : FromDecoder events) :
    ∀ event ∈ events, event.readable := by
  intro event received
  cases event with
  | decoderMessage msg now =>
    obtain ⟨message, rfl⟩ := decoder msg now received
    refine decide_eq_true fun failed => ?_
    rw [zroundReading_text] at failed
    cases message <;> cases failed
  | _ => rfl

/-! ### The history grows -/

section Growing

theorem writerAfter_concat (past : List (ZroundEvent R)) (event : ZroundEvent R) :
    writerAfter (past ++ [event]) = event.writer.getD (writerAfter past) := by
  rw [writerAfter, List.reverse_append, List.reverse_singleton, List.singleton_append,
    List.findSome?_cons]
  cases event.writer with
  | none => rfl
  | some writer => rfl

theorem raceAfter_commanded (past : List (ZroundEvent R)) {event : ZroundEvent R}
    (commanded : event.commandsRace = true) :
    raceAfter (past ++ [event]) = event.raceStart.map fun start => (start, []) := by
  have isLast : ¬ (!event.commandsRace) = true := by rw [commanded]; decide
  rw [raceAfter, List.rdropWhile_concat_neg (fun event => !event.commandsRace) past event isLast,
    List.rtakeWhile_concat_neg (fun event => !event.commandsRace) past event isLast,
    List.getLast?_concat, Option.bind_some]

theorem raceAfter_meanwhile (past : List (ZroundEvent R)) {event : ZroundEvent R}
    (meanwhile : event.commandsRace = false) :
    raceAfter (past ++ [event]) =
      (raceAfter past).map fun race => (race.1, race.2 ++ [event]) := by
  have within : (!event.commandsRace) = true := by rw [meanwhile]; rfl
  rw [raceAfter, List.rdropWhile_concat_pos (fun event => !event.commandsRace) past event within,
    List.rtakeWhile_concat_pos (fun event => !event.commandsRace) past event within,
    raceAfter, Option.map_map]
  rfl

theorem raceAfter_append (past : List (ZroundEvent R)) {more : List (ZroundEvent R)}
    (meanwhile : ∀ event ∈ more, event.commandsRace = false) :
    raceAfter (past ++ more) = (raceAfter past).map fun race => (race.1, race.2 ++ more) := by
  induction more using List.reverseRecOn with
  | nil => simp
  | append_singleton more event inductionHypothesis =>
    rw [← List.append_assoc, raceAfter_meanwhile _ (meanwhile event (by simp)),
      inductionHypothesis fun other member => meanwhile other (List.mem_append_left _ member),
      Option.map_map]
    simp [Function.comp_def]

end Growing

/-! ### The bridge follows the history -/

namespace ZroundBridge

section Following

variable [Field R]

/-- The second of the decoder's clock at which a race started, according to its first passing. -/
def raceOrigin (start : R) (first : Int × R) : R :=
  (first.1 : R) / ((1000 : Nat) : R) - (first.2 - start)

/-- The bridge is in the race that the history tells. -/
def InRace (bridge : ZroundBridge R) : Option (R × List (ZroundEvent R)) → Prop
  | none => bridge.raceRunning = false
  | some (start, since) => bridge.raceRunning = true ∧ bridge.baseRaceTime = start ∧
      bridge.baseDecoderTs = (since.findSome? ZroundEvent.passing).map (raceOrigin start)

structure Follows (past : List (ZroundEvent R)) (bridge : ZroundBridge R) : Prop where
  writer : bridge.zroundWriter = writerAfter past
  race : bridge.InRace (raceAfter past)

theorem initial_follows : Follows [] (initial (R := R)) where
  writer := rfl
  race := rfl

variable {past : List (ZroundEvent R)} {bridge next : ZroundBridge R} {event : ZroundEvent R}

/-- What an event that is no command to the race does to it: it ties the clocks, if it is the
first passing. -/
theorem Follows.meanwhile (follows : Follows past bridge) (meanwhile : event.commandsRace = false)
    (writer : next.zroundWriter = event.writer.getD bridge.zroundWriter)
    (running : next.raceRunning = bridge.raceRunning)
    (started : next.baseRaceTime = bridge.baseRaceTime)
    (tied : ∀ start since, raceAfter past = some (start, since) → next.baseDecoderTs =
      ((since.findSome? ZroundEvent.passing).or event.passing).map (raceOrigin start)) :
    Follows (past ++ [event]) next where
  writer := by rw [writer, writerAfter_concat, follows.writer]
  race := by
    have race := follows.race
    rw [raceAfter_meanwhile past meanwhile]
    cases found : raceAfter past with
    | none =>
      rw [found] at race
      exact running.trans race
    | some current =>
      rw [found] at race
      refine ⟨running.trans race.1, started.trans race.2.1, (tied _ _ found).trans ?_⟩
      rw [List.findSome?_append, List.findSome?_singleton]

/-- An event that is neither a command to the race nor a passing leaves the race as it is. -/
theorem Follows.quiet (follows : Follows past bridge) (meanwhile : event.commandsRace = false)
    (noPassing : event.passing = none) (writer : Option Nat)
    (leaves : event.writer.getD bridge.zroundWriter = writer) :
    Follows (past ++ [event]) { bridge with zroundWriter := writer } := by
  refine follows.meanwhile meanwhile leaves.symm rfl rfl fun start since found => ?_
  have race := follows.race
  rw [found] at race
  rw [noPassing, Option.or_none]
  exact race.2.2

end Following

section Step

variable [Field R] [LinearOrder R] [FloorRing R] {past : List (ZroundEvent R)}
  {bridge next : ZroundBridge R} {event : ZroundEvent R}

theorem Follows.sentAt_some (follows : Follows past bridge) {text : List Char}
    (told : sentText past event = some text) : sentAt past event = bridge.send text := by
  rw [sentAt, told, ← follows.writer, send]
  cases bridge.zroundWriter <;> rfl

theorem sentAt_none (silent : sentText past event = none) : sentAt past event = [] := by
  rw [sentAt, silent]
  cases writerAfter past <;> rfl

theorem sentTime_noRace (found : raceAfter past = none) : sentTime past event = none := by
  rw [sentTime, found]

theorem sentTime_untimed (untimed : event.decoderTime = none) : sentTime past event = none := by
  rw [sentTime, untimed]
  cases raceAfter past <;> rfl

theorem sentTime_inRace {start : R} {since : List (ZroundEvent R)}
    (found : raceAfter past = some (start, since)) {decoderTime : Int}
    (timed : event.decoderTime = some decoderTime) :
    sentTime past event = ((since.findSome? ZroundEvent.passing).or event.passing).map
      fun first => raceTime start first decoderTime := by
  rw [sentTime, found, timed]
  dsimp only
  rw [List.findSome?_append, List.findSome?_singleton]

/-- What an event of ZRound does. -/
theorem Follows.command (follows : Follows past bridge) (connection : Nat) (data : List Char)
    (now : R) : ∃ next, bridge.step (.received connection data now) =
        some (next, sentAt past (.received connection data now)) ∧
      Follows (past ++ [.received connection data now]) next := by
  cases read : zroundCommand data with
  | none =>
    refine ⟨bridge, ?_, follows.quiet
      (by simp [ZroundEvent.commandsRace, ZroundEvent.command, read]) rfl _ rfl⟩
    rw [sentAt_none (by simp [sentText, read]), step, read]
  | some command =>
    cases command with
    | connect =>
      refine ⟨bridge, ?_, follows.quiet
        (by simp [ZroundEvent.commandsRace, ZroundEvent.command, read]) rfl _ rfl⟩
      have acknowledged : sentText past (.received connection data now) = some acknowledgeText :=
        if_pos read
      rw [follows.sentAt_some acknowledged, step, read]
    | start =>
      refine ⟨_, by rw [sentAt_none (by simp [sentText, read]), step, read], ?_, ?_⟩
      · rw [writerAfter_concat]
        exact follows.writer
      · rw [raceAfter_commanded past
          (by simp [ZroundEvent.commandsRace, ZroundEvent.command, read]),
          show (ZroundEvent.received connection data now).raceStart = some now from if_pos read]
        exact ⟨rfl, rfl, rfl⟩
    | stop =>
      refine ⟨_, by rw [sentAt_none (by simp [sentText, read]), step, read], ?_, ?_⟩
      · rw [writerAfter_concat]
        exact follows.writer
      · rw [raceAfter_commanded past
          (by simp [ZroundEvent.commandsRace, ZroundEvent.command, read]),
          show (ZroundEvent.received connection data now).raceStart = none from
            if_neg (by rw [read]; decide)]
        rfl

/-- The time in the race as the bridge computes it. -/
theorem raceTime_eq (start : R) (first : Int × R) (decoderTime : Int) :
    truncate (((1000 : Nat) : R) *
        ((decoderTime : R) / ((1000 : Nat) : R) - raceOrigin start first)) =
      raceTime start first decoderTime := by
  have thousand : ((1000 : Nat) : R) ≠ 0 := Nat.cast_ne_zero.mpr (by decide)
  have apart : ((1000 : Nat) : R) *
        ((decoderTime : R) / ((1000 : Nat) : R) - raceOrigin start first) =
      ((decoderTime - first.1 : Int) : R) + ((1000 : Nat) : R) * (first.2 - start) := by
    rw [raceOrigin, Int.cast_sub, ← sub_add, mul_add, mul_sub, mul_div_cancel₀ _ thousand,
      mul_div_cancel₀ _ thousand]
  rw [apart, raceTime]

/-- What a passing does. -/
theorem Follows.lap (follows : Follows past bridge) {msg : List Char} {decoderTime : Int}
    {transponderId : Int} (read : zroundReading msg = .passing decoderTime transponderId)
    (now : R) : ∃ next, bridge.step (.decoderMessage msg now) =
        some (next, sentAt past (.decoderMessage msg now)) ∧
      Follows (past ++ [.decoderMessage msg now]) next := by
  have race := follows.race
  have isPassing : ZroundEvent.passing (.decoderMessage msg now) = some (decoderTime, now) := by
    rw [ZroundEvent.passing, read]
  have timed : ZroundEvent.decoderTime (.decoderMessage msg now : ZroundEvent R) =
      some decoderTime := by
    rw [ZroundEvent.decoderTime, read]
  rw [step, read]
  cases found : raceAfter past with
  | none =>
    rw [found] at race
    refine ⟨bridge, ?_, follows.meanwhile rfl rfl rfl rfl fun start since inRace => ?_⟩
    · rw [sentAt_none (by rw [sentText, sentTime_noRace found]; rfl)]
      simp only [translateOpenstintPassing, show bridge.raceRunning = false from race]
      rfl
    · rw [found] at inRace
      cases inRace
  | some current =>
    obtain ⟨start, since⟩ := current
    rw [found] at race
    obtain ⟨running, started, tied⟩ := race
    obtain ⟨first, isFirst⟩ :
      ∃ first, (since.findSome? ZroundEvent.passing).getD (decoderTime, now) = first := ⟨_, rfl⟩
    have origin : bridge.baseDecoderTs.getD
          ((decoderTime : R) / ((1000 : Nat) : R) - (now - bridge.baseRaceTime)) =
        raceOrigin start first := by
      rw [tied, started, ← isFirst]
      cases since.findSome? ZroundEvent.passing <;> rfl
    have told : sentText past (.decoderMessage msg now) =
        some (lapText transponderId (raceTime start first decoderTime)) := by
      rw [sentText, sentTime_inRace found timed, isPassing, ← isFirst]
      cases since.findSome? ZroundEvent.passing <;>
        exact congrArg some (by rw [timeText, read]; rfl)
    refine ⟨{ bridge with baseDecoderTs := some (raceOrigin start first) }, ?_,
      follows.meanwhile rfl rfl rfl rfl fun start' since' inRace => ?_⟩
    · rw [follows.sentAt_some told]
      simp only [translateOpenstintPassing, running, origin, raceTime_eq]
      rfl
    · obtain ⟨rfl, rfl⟩ := Prod.mk.inj (Option.some.inj (found.symm.trans inRace))
      rw [isPassing, ← isFirst]
      cases since.findSome? ZroundEvent.passing <;> rfl

/-- What a status does. -/
theorem Follows.clock (follows : Follows past bridge) {msg : List Char} {decoderTime : Int}
    (read : zroundReading msg = .status decoderTime) (now : R) :
    bridge.step (.decoderMessage msg now) =
        some (bridge, sentAt past (.decoderMessage msg now)) ∧
      Follows (past ++ [.decoderMessage msg now]) bridge := by
  have race := follows.race
  have noPassing : ZroundEvent.passing (.decoderMessage msg now) = none := by
    rw [ZroundEvent.passing, read]
  have timed : ZroundEvent.decoderTime (.decoderMessage msg now : ZroundEvent R) =
      some decoderTime := by
    rw [ZroundEvent.decoderTime, read]
  refine ⟨?_, follows.quiet rfl noPassing _ rfl⟩
  rw [step, read]
  dsimp only
  congr 2
  cases found : raceAfter past with
  | none =>
    rw [found] at race
    rw [sentAt_none (by rw [sentText, sentTime_noRace found]; rfl), translateOpenstintStatus,
      show bridge.raceRunning = false from race]
    rfl
  | some current =>
    rw [found] at race
    obtain ⟨running, started, tied⟩ := race
    have time := sentTime_inRace found timed
    rw [noPassing, Option.or_none] at time
    rw [translateOpenstintStatus, running, tied]
    cases passed : current.2.findSome? ZroundEvent.passing with
    | none =>
      rw [passed] at time
      rw [sentAt_none (by rw [sentText, time]; rfl)]
      rfl
    | some first =>
      rw [passed] at time
      have told : sentText past (.decoderMessage msg now) =
          some (clockText (raceTime current.1 first decoderTime)) := by
        rw [sentText, time]
        exact congrArg some (by rw [timeText, read])
      rw [follows.sentAt_some told]
      simp only [Option.map_some, raceTime_eq]
      rfl

theorem step_unreadable (unreadable : ¬ event.readable) : bridge.step event = none := by
  cases event with
  | decoderMessage msg now =>
    have failed : zroundReading msg = .failed :=
      not_not.mp fun other => unreadable (decide_eq_true other)
    rw [step, failed]
  | _ => exact absurd rfl unreadable

/-- What any event does: the bridge keeps to the history, and sends what it says. -/
theorem Follows.step (follows : Follows past bridge) (event : ZroundEvent R)
    (readable : event.readable) :
    ∃ next, bridge.step event = some (next, sentAt past event) ∧
      Follows (past ++ [event]) next := by
  cases event with
  | connected connection =>
    exact ⟨_, by rw [sentAt_none rfl]; rfl, follows.quiet rfl rfl _ rfl⟩
  | received connection data now => exact follows.command connection data now
  | disconnected connection =>
    exact ⟨_, by rw [sentAt_none rfl]; rfl, follows.quiet rfl rfl _ rfl⟩
  | decoderMessage msg now =>
    cases read : zroundReading msg with
    | passing decoderTime transponderId => exact follows.lap read now
    | status decoderTime => exact ⟨bridge, follows.clock read now⟩
    | ignored =>
      have untimed : ZroundEvent.decoderTime (.decoderMessage msg now : ZroundEvent R) = none := by
        rw [ZroundEvent.decoderTime, read]
      refine ⟨bridge, ?_, follows.quiet rfl (by rw [ZroundEvent.passing, read]) _ rfl⟩
      rw [ZroundBridge.step, read,
        sentAt_none (by rw [sentText, sentTime_untimed untimed]; rfl)]
    | failed => exact absurd read (of_decide_eq_true readable)

end Step

end ZroundBridge

/-! ### Over a run -/

section Runs

variable [Field R] [LinearOrder R] [FloorRing R]

/-- What is sent at an event, if it can be read. -/
def toldAt (past : List (ZroundEvent R)) (event : ZroundEvent R) :
    Option (List (Nat × List Char)) :=
  if event.readable then some (sentAt past event) else none

theorem ZroundBridge.Follows.tells {past : List (ZroundEvent R)} {bridge : ZroundBridge R}
    (follows : ZroundBridge.Follows past bridge) (event : ZroundEvent R) :
    (bridge.step event).map Prod.snd = toldAt past event ∧
      ∀ next sent, bridge.step event = some (next, sent) →
        ZroundBridge.Follows (past ++ [event]) next := by
  by_cases readable : event.readable
  · obtain ⟨next, stepped, kept⟩ := follows.step event readable
    rw [toldAt, if_pos readable, stepped]
    refine ⟨rfl, fun other sent same => ?_⟩
    obtain ⟨rfl, -⟩ := Prod.mk.inj (Option.some.inj same)
    exact kept
  · rw [toldAt, if_neg readable, ZroundBridge.step_unreadable readable]
    exact ⟨rfl, fun other sent same => nomatch same⟩

theorem zroundBridge_tells (events : List (ZroundEvent R)) :
    ((run ZroundBridge.step .initial events).isSome ↔ ∀ event ∈ events, event.readable) ∧
      ∀ last sent, run ZroundBridge.step .initial events = some (last, sent) →
        ∀ i event, events[i]? = some event → sent[i]? = some (sentAt (events.take i) event) := by
  obtain ⟨defined, told⟩ := run_tells ZroundBridge.Follows toldAt
    (fun past bridge event follows => follows.tells event) ZroundBridge.initial_follows events
  have readable (past : List (ZroundEvent R)) (event : ZroundEvent R) :
      (toldAt past event).isSome ↔ event.readable := by
    rw [toldAt]
    cases event.readable <;> simp
  have defined : (run ZroundBridge.step .initial events).isSome ↔
      ∀ event ∈ events, event.readable := by
    rw [defined]
    refine ⟨fun told event received => ?_, fun all i event found =>
      (readable _ _).mpr (all event (List.mem_of_getElem? found))⟩
    obtain ⟨i, found⟩ := List.mem_iff_getElem?.mp received
    exact (readable _ _).mp (told i event found)
  refine ⟨defined, fun last sent ran i event found => ?_⟩
  have all := defined.mp (by rw [ran]; rfl) event (List.mem_of_getElem? found)
  rw [(told last sent ran).2 i event found, toldAt, if_pos all]

/-- What holds of every run of the bridge. -/
structure ZroundLaw (events : List (ZroundEvent R)) : Prop where
  /-- The bridge ends at the first message with a number that it cannot read. -/
  defined : (run ZroundBridge.step .initial events).isSome ↔ ∀ event ∈ events, event.readable
  /-- The decoder sends no such message. -/
  decoder : FromDecoder events → ∀ event ∈ events, event.readable
  /-- What the bridge sends at an event is what the history says. -/
  sends : ∀ last sent, run ZroundBridge.step .initial events = some (last, sent) →
    ∀ i event, events[i]? = some event → sent[i]? = some (sentAt (events.take i) event)

theorem zround_law (events : List (ZroundEvent R)) : ZroundLaw events where
  defined := (zroundBridge_tells events).1
  decoder := FromDecoder.readable
  sends := (zroundBridge_tells events).2

def shortLap : DecoderMessage := .passing 5000 .openStint 77 (.finite false 1225) 2 100

def shortStatus : DecoderMessage := .status 6500 (.finite true 4000) (.finite true 6000) 2 2

/-- A lap and a status in a race. -/
def shortRace : List (ZroundEvent ℚ) :=
  [.connected 0, .received 0 "%I&".toList 2, .decoderMessage shortLap.text 3,
    .decoderMessage shortStatus.text 5]

theorem shortRace_fromDecoder : FromDecoder shortRace := by
  intro msg now received
  obtain same | same : msg = shortLap.text ∨ msg = shortStatus.text := by
    simp only [shortRace, List.mem_cons, List.not_mem_nil, or_false, reduceCtorEq, false_or,
      ZroundEvent.decoderMessage.injEq] at received
    exact received.imp And.left And.left
  · exact ⟨_, same⟩
  · exact ⟨_, same⟩

end Runs

/-! ### Times within a race -/

/-- Two times of a race are apart as two times of the decoder are, up to one where only one of
them lies behind the start of the race. -/
structure AsApart (decoderTime decoderTime' time time' : Int) : Prop where
  within : |time' - time - (decoderTime' - decoderTime)| ≤ 1
  inOrder : decoderTime ≤ decoderTime' → time ≤ time'
  behind : 0 < time → 0 < time' → time' - time = decoderTime' - decoderTime

section Times

variable [Field R] [LinearOrder R] [FloorRing R]

/-- What a race time that is sent says. -/
theorem sentTime_some {past : List (ZroundEvent R)} {event : ZroundEvent R} {time : Int}
    (told : sentTime past event = some time) :
    ∃ start since first decoderTime, raceAfter past = some (start, since) ∧
      event.decoderTime = some decoderTime ∧
      (since ++ [event]).findSome? ZroundEvent.passing = some first ∧
      raceTime start first decoderTime = time := by
  rw [sentTime] at told
  cases found : raceAfter past with
  | none => simp [found] at told
  | some race =>
    cases timed : event.decoderTime with
    | none => simp [found, timed] at told
    | some decoderTime =>
      rw [found, timed] at told
      obtain ⟨first, passed, same⟩ := Option.map_eq_some_iff.mp told
      exact ⟨race.1, race.2, first, decoderTime, rfl, rfl, passed, same⟩

theorem sentAt_decoderMessage {past : List (ZroundEvent R)} {msg : List Char} {now : R}
    {message : Nat × List Char}
    (answered : sentAt past (.decoderMessage msg now) = [message]) :
    ∃ time, sentTime past (.decoderMessage msg now) = some time ∧
      message.2 = timeText msg time := by
  rw [sentAt, sentText] at answered
  cases told : sentTime past (.decoderMessage msg now) with
  | none => cases found : writerAfter past <;> simp [told, found] at answered
  | some time =>
    cases found : writerAfter past with
    | none => simp [found] at answered
    | some writer =>
      rw [told, found] at answered
      exact ⟨time, rfl, by rw [← (List.cons.inj answered).1]⟩

variable [IsStrictOrderedRing R]

theorem truncate_cases (number : Int) (x : R) :
    0 ≤ (number : R) + x ∧ truncate ((number : R) + x) = number + ⌊x⌋ ∧ 0 ≤ number + ⌊x⌋ ∨
      (number : R) + x < 0 ∧ truncate ((number : R) + x) = number + ⌈x⌉ ∧ number + ⌈x⌉ ≤ 0 := by
  by_cases forward : 0 ≤ (number : R) + x
  · refine Or.inl ⟨forward, ?_, ?_⟩
    · rw [truncate, if_pos forward, Int.floor_intCast_add]
    · rw [← Int.floor_intCast_add]
      exact Int.floor_nonneg.mpr forward
  · refine Or.inr ⟨not_le.mp forward, ?_, ?_⟩
    · rw [truncate, if_neg forward, Int.ceil_intCast_add]
    · rw [← Int.ceil_intCast_add, Int.ceil_nonpos]
      exact (not_le.mp forward).le

/-- Truncating keeps numbers apart that differ by a whole number. -/
theorem asApart_truncate (first second : Int) (x : R) :
    AsApart first second (truncate ((first : R) + x)) (truncate ((second : R) + x)) := by
  have up : ⌊x⌋ ≤ ⌈x⌉ := Int.floor_le_ceil x
  have byOne : ⌈x⌉ ≤ ⌊x⌋ + 1 := Int.ceil_le_floor_add_one x
  obtain ⟨_, atFirst, low⟩ | ⟨_, atFirst, low⟩ := truncate_cases first x <;>
    obtain ⟨_, atSecond, low'⟩ | ⟨_, atSecond, low'⟩ := truncate_cases second x <;>
    rw [atFirst, atSecond] <;>
    exact ⟨abs_le.mpr ⟨by omega, by omega⟩, fun _ => by omega, fun _ _ => by omega⟩

theorem asApart_raceTime (start : R) (origin : Int × R) (decoderTime decoderTime' : Int) :
    AsApart decoderTime decoderTime' (raceTime start origin decoderTime)
      (raceTime start origin decoderTime') := by
  obtain ⟨within, inOrder, behind⟩ := asApart_truncate (decoderTime - origin.1)
    (decoderTime' - origin.1) (((1000 : Nat) : R) * (origin.2 - start))
  rw [sub_sub_sub_cancel_right] at within behind
  exact ⟨within, fun ordered => inOrder (by omega), behind⟩

/-- Within a race, what is sent for two messages of the decoder carries times that are apart as
the times of the messages are. -/
theorem zround_times_apart {events : List (ZroundEvent R)} {last : ZroundBridge R}
    {sent : List (List (Nat × List Char))}
    (ran : run ZroundBridge.step .initial events = some (last, sent)) {i j : Nat} (before : i < j)
    (sameRace : ∀ event ∈ (events.take j).drop i, event.commandsRace = false)
    {msg msg' : List Char} {now now' : R} (first : events[i]? = some (.decoderMessage msg now))
    (second : events[j]? = some (.decoderMessage msg' now')) {message message' : Nat × List Char}
    (answered : sent[i]? = some [message]) (answered' : sent[j]? = some [message']) :
    ∃ decoderTime decoderTime' time time' : Int,
      ZroundEvent.decoderTime (.decoderMessage msg now : ZroundEvent R) = some decoderTime ∧
      ZroundEvent.decoderTime (.decoderMessage msg' now' : ZroundEvent R) = some decoderTime' ∧
      message.2 = timeText msg time ∧ message'.2 = timeText msg' time' ∧
      AsApart decoderTime decoderTime' time time' := by
  have sends := (zroundBridge_tells events).2 last sent ran
  obtain ⟨time, told, text⟩ :=
    sentAt_decoderMessage (Option.some.inj ((sends i _ first).symm.trans answered))
  obtain ⟨time', told', text'⟩ :=
    sentAt_decoderMessage (Option.some.inj ((sends j _ second).symm.trans answered'))
  obtain ⟨start, since, origin, decoderTime, race, timed, passed, rfl⟩ := sentTime_some told
  obtain ⟨start', since', origin', decoderTime', race', timed', passed', rfl⟩ :=
    sentTime_some told'
  refine ⟨decoderTime, decoderTime', _, _, timed, timed', text, text', ?_⟩
  -- The race is the same, and so is the first passing, which came at the first message at latest.
  have split : events.take i ++ (events.take j).drop i = events.take j := by
    have parts := List.take_append_drop i (events.take j)
    rwa [List.take_take, min_eq_left before.le] at parts
  have head : (events.take j).drop i =
      .decoderMessage msg now :: (events.take j).drop (i + 1) := by
    rw [List.drop_eq_getElem?_toList_append, List.getElem?_take_of_lt before, first]
    rfl
  rw [← split, raceAfter_append _ sameRace, race, head] at race'
  obtain ⟨rfl, rfl⟩ := Prod.mk.inj (Option.some.inj race')
  dsimp only at passed'
  rw [List.append_cons since, List.append_assoc, List.findSome?_append, passed,
    Option.some_or] at passed'
  rw [← Option.some.inj passed']
  exact asApart_raceTime start origin decoderTime decoderTime'

end Times

theorem zround_times_apart_short :
    ∃ last sent, ∃ message message' : Nat × List Char,
      run ZroundBridge.step (.initial : ZroundBridge ℚ) shortRace = some (last, sent) ∧
      sent[2]? = some [message] ∧ sent[3]? = some [message'] ∧
      ∃ decoderTime decoderTime' time time' : Int,
        ZroundEvent.decoderTime (.decoderMessage shortLap.text (3 : ℚ)) = some decoderTime ∧
        ZroundEvent.decoderTime (.decoderMessage shortStatus.text (5 : ℚ)) =
          some decoderTime' ∧
        message.2 = timeText shortLap.text time ∧ message'.2 = timeText shortStatus.text time' ∧
        AsApart decoderTime decoderTime' time time' := by
  obtain ⟨defined, told⟩ := zroundBridge_tells shortRace
  obtain ⟨⟨last, sent⟩, ran⟩ := Option.isSome_iff_exists.mp
    (defined.mpr shortRace_fromDecoder.readable)
  have sends := told last sent ran
  have lap : zroundReading shortLap.text = .passing 5000 77 := zroundReading_text shortLap
  have status : zroundReading shortStatus.text = .status 6500 := zroundReading_text shortStatus
  have passing : ZroundEvent.passing (.decoderMessage shortLap.text (3 : ℚ)) = some (5000, 3) := by
    rw [ZroundEvent.passing, lap]
  have started : raceAfter (shortRace.take 2) = some (2, []) := rfl
  have goesOn : raceAfter (shortRace.take 3) = some (2, [.decoderMessage shortLap.text 3]) := rfl
  have answered : ∃ message, sent[2]? = some [message] := by
    have told : sentTime (shortRace.take 2) (.decoderMessage shortLap.text 3) = _ :=
      ZroundBridge.sentTime_inRace started (by rw [ZroundEvent.decoderTime, lap])
    rw [sends 2 _ rfl, sentAt, sentText, told, passing]
    exact ⟨_, rfl⟩
  have answered' : ∃ message, sent[3]? = some [message] := by
    have told : sentTime (shortRace.take 3) (.decoderMessage shortStatus.text 5) = _ :=
      ZroundBridge.sentTime_inRace goesOn (by rw [ZroundEvent.decoderTime, status])
    rw [List.findSome?_singleton, passing, Option.some_or] at told
    rw [sends 3 _ rfl, sentAt, sentText, told]
    exact ⟨_, rfl⟩
  obtain ⟨message, answered⟩ := answered
  obtain ⟨message', answered'⟩ := answered'
  refine ⟨last, sent, message, message', ran, answered, answered',
    zround_times_apart ran (by decide) ?_ rfl rfl answered answered'⟩
  rintro event member
  rw [List.mem_singleton.mp member]
  rfl

end OpenStint
