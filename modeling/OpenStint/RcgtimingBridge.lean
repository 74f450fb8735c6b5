/-
This file models the main loop of `bridge-rcgtiming.py`, which posts the passings of the decoder
to a web service, and whether the decoder can be heard. No message for five seconds means that it
cannot.

What is posted for a message follows from what has come so far: the last status gives the noise of
a passing, and the service is told that the decoder is offline when a silence follows a message.
A signal or a noise that is no finite number ends the bridge.
-/

import Mathlib.Data.List.DropRight
import OpenStint.Subscribers

namespace OpenStint

open Machine

/-! ### The bridge -/

/-- The parameters of a request. -/
inductive RcgtimingParams
  | status (status : Nat)
  | event (transponder : Int) (timestamp : ℚ) (localts signal : Int) (noise : Option Int)
  deriving DecidableEq

/-- A request, as `post` is called. -/
structure RcgtimingPost where
  url : List Char
  params : RcgtimingParams
  deriving DecidableEq

/-- `base_url.rstrip("/")` and a path. -/
def endpoint (baseUrl path : List Char) : List Char := (baseUrl.rdropWhile fun c => c = '/') ++ path

def postStatus (baseUrl : List Char) (online : Bool) : RcgtimingPost where
  url := endpoint baseUrl "/ambbox/status".toList
  params := .status (if online then 1 else 0)

def postEvent (baseUrl : List Char) (transponder : Int) (timestamp : ℚ) (localts signal : Int)
    (noise : Option Int) : RcgtimingPost where
  url := endpoint baseUrl "/ambbox/event".toList
  params := .event transponder timestamp localts signal noise

/-- What `main` keeps between two messages. -/
structure RcgtimingBridge where
  lastStatus : Option StatusReading
  connected : Bool

/-- `recv_string` returns a message, or there was none for five seconds. The message comes with the
reading of the clock. -/
inductive RcgtimingEvent
  | message (msg : List Char) (time : ℚ)
  | silence

namespace RcgtimingBridge

def initial : RcgtimingBridge where
  lastStatus := none
  connected := false

/-- The main loop on a message, or on none, and what it posts. An `int` of an infinite number or
of no number ends it. -/
def step (baseUrl : List Char) (bridge : RcgtimingBridge) :
    RcgtimingEvent → Option (RcgtimingBridge × List RcgtimingPost)
  | .silence =>
    if bridge.connected then some ({ bridge with connected := false }, [postStatus baseUrl false])
    else some (bridge, [])
  | .message msg time =>
    let bridge := { bridge with connected := true }
    match rcgtimingReading msg with
    | .status status =>
      some ({ bridge with lastStatus := some status }, [postStatus baseUrl true])
    | .passing passing => do
      let timestamp : ℚ := passing.timecode / 1000
      let localts ← PythonText.FloatValue.toInt (.finite time)
      let signal ← passing.rssi.toInt
      let noise ← bridge.lastStatus.mapM fun status => status.noisePower.toInt
      return (bridge,
        [postEvent baseUrl passing.transponderId timestamp localts signal noise])
    | .ignored => some (bridge, [])

end RcgtimingBridge

/-! ### What the history says -/

namespace RcgtimingEvent

def isMessage : RcgtimingEvent → Bool
  | .message _ _ => true
  | .silence => false

/-- What the bridge makes of a message. -/
def reading : RcgtimingEvent → RcgtimingReading
  | .message msg _ => rcgtimingReading msg
  | .silence => .ignored

def status (event : RcgtimingEvent) : Option StatusReading :=
  match event.reading with
  | .status status => some status
  | _ => none

end RcgtimingEvent

/-- The last status, if there was one. -/
def lastStatusOf (past : List RcgtimingEvent) : Option StatusReading :=
  past.reverse.findSome? RcgtimingEvent.status

/-- There was a message last time. -/
def heardLast (past : List RcgtimingEvent) : Bool := past.getLast?.any RcgtimingEvent.isMessage

/-- What is posted at an event; nothing is where the bridge ends. -/
def postsAt (baseUrl : List Char) (past : List RcgtimingEvent) :
    RcgtimingEvent → Option (List RcgtimingPost)
  | .silence => some (if heardLast past then [postStatus baseUrl false] else [])
  | .message msg time =>
    match rcgtimingReading msg with
    | .status _ => some [postStatus baseUrl true]
    | .passing passing => do
      let localts ← PythonText.FloatValue.toInt (.finite time)
      let signal ← passing.rssi.toInt
      let noise ← (lastStatusOf past).mapM fun status => status.noisePower.toInt
      return [postEvent baseUrl passing.transponderId (passing.timecode / 1000) localts signal
        noise]
    | .ignored => some []

/-- A passing comes with a finite signal, and so did the noise of the last status. -/
def Postable (past : List RcgtimingEvent) (event : RcgtimingEvent) : Prop :=
  ∀ passing, event.reading = .passing passing →
    (∃ signal, passing.rssi = .finite signal) ∧
      ∀ status, lastStatusOf past = some status → ∃ noise, status.noisePower = .finite noise

/-- What holds of every run of the bridge. -/
structure RcgtimingLaw (baseUrl : List Char) (events : List RcgtimingEvent) : Prop where
  /-- The bridge ends at the first passing whose signal or noise is not finite. -/
  defined : (run (RcgtimingBridge.step baseUrl) .initial events).isSome ↔
    ∀ i event, events[i]? = some event → Postable (events.take i) event
  /-- What it posts for an event is what the history says. -/
  posts : ∀ last posts, run (RcgtimingBridge.step baseUrl) .initial events = some (last, posts) →
    ∀ i event, events[i]? = some event → posts[i]? = postsAt baseUrl (events.take i) event
  /-- It posts that the decoder is offline at the first silence behind a message. -/
  offline : ∀ last posts, run (RcgtimingBridge.step baseUrl) .initial events = some (last, posts) →
    ∀ i, posts[i]? = some [postStatus baseUrl false] ↔
      events[i]? = some .silence ∧
        ∃ j msg time, i = j + 1 ∧ events[j]? = some (.message msg time)

/-! ### The bridge follows the history -/

theorem lastStatusOf_concat (past : List RcgtimingEvent) (event : RcgtimingEvent) :
    lastStatusOf (past ++ [event]) = event.status.or (lastStatusOf past) := by
  rw [lastStatusOf, List.reverse_append, List.reverse_singleton, List.singleton_append,
    List.findSome?_cons]
  cases event.status <;> rfl

theorem heardLast_concat (past : List RcgtimingEvent) (event : RcgtimingEvent) :
    heardLast (past ++ [event]) = event.isMessage := by
  rw [heardLast, List.getLast?_concat]
  rfl

structure RcgtimingBridge.Follows (past : List RcgtimingEvent) (bridge : RcgtimingBridge) :
    Prop where
  lastStatus : bridge.lastStatus = lastStatusOf past
  connected : bridge.connected = heardLast past

theorem RcgtimingBridge.initial_follows : RcgtimingBridge.Follows [] .initial where
  lastStatus := rfl
  connected := rfl

theorem RcgtimingBridge.Follows.next {past : List RcgtimingEvent} {bridge next : RcgtimingBridge}
    (follows : Follows past bridge) {event : RcgtimingEvent}
    (lastStatus : next.lastStatus = event.status.or bridge.lastStatus)
    (connected : next.connected = event.isMessage) : Follows (past ++ [event]) next where
  lastStatus := by rw [lastStatus, lastStatusOf_concat, follows.lastStatus]
  connected := by rw [connected, heardLast_concat]

theorem RcgtimingBridge.Follows.step {baseUrl : List Char} {past : List RcgtimingEvent}
    {bridge : RcgtimingBridge} (follows : Follows past bridge) (event : RcgtimingEvent) :
    (bridge.step baseUrl event).map Prod.snd = postsAt baseUrl past event ∧
      ∀ next posts, bridge.step baseUrl event = some (next, posts) →
        Follows (past ++ [event]) next := by
  cases event with
  | silence =>
    rw [RcgtimingBridge.step, postsAt, ← follows.connected]
    cases heard : bridge.connected with
    | false =>
      refine ⟨rfl, fun next posts stepped => ?_⟩
      obtain ⟨rfl, -⟩ := Prod.mk.inj (Option.some.inj stepped)
      exact follows.next rfl heard
    | true =>
      refine ⟨rfl, fun next posts stepped => ?_⟩
      obtain ⟨rfl, -⟩ := Prod.mk.inj (Option.some.inj stepped)
      exact follows.next rfl rfl
  | message msg time =>
    cases read : rcgtimingReading msg with
    | status status =>
      have told : RcgtimingEvent.status (.message msg time) = some status := by
        rw [RcgtimingEvent.status, RcgtimingEvent.reading, read]
      rw [RcgtimingBridge.step, postsAt, read]
      refine ⟨rfl, fun next posts stepped => ?_⟩
      obtain ⟨rfl, -⟩ := Prod.mk.inj (Option.some.inj stepped)
      exact follows.next (by rw [told]; rfl) rfl
    | passing passing =>
      have told : RcgtimingEvent.status (.message msg time) = none := by
        rw [RcgtimingEvent.status, RcgtimingEvent.reading, read]
      rw [RcgtimingBridge.step, postsAt, read, ← follows.lastStatus]
      dsimp only
      cases passing.rssi.toInt with
      | none => exact ⟨rfl, fun next posts stepped => nomatch stepped⟩
      | some signal =>
        cases bridge.lastStatus.mapM fun status => status.noisePower.toInt with
        | none => exact ⟨rfl, fun next posts stepped => nomatch stepped⟩
        | some noise =>
          refine ⟨rfl, fun next posts stepped => ?_⟩
          obtain ⟨rfl, -⟩ := Prod.mk.inj (Option.some.inj stepped)
          exact follows.next (by rw [told]; rfl) rfl
    | ignored =>
      have told : RcgtimingEvent.status (.message msg time) = none := by
        rw [RcgtimingEvent.status, RcgtimingEvent.reading, read]
      rw [RcgtimingBridge.step, postsAt, read]
      refine ⟨rfl, fun next posts stepped => ?_⟩
      obtain ⟨rfl, -⟩ := Prod.mk.inj (Option.some.inj stepped)
      exact follows.next (by rw [told]; rfl) rfl

theorem toInt_isSome_iff (value : PythonText.FloatValue) :
    value.toInt.isSome ↔ ∃ number, value = .finite number := by
  cases value <;> simp [PythonText.FloatValue.toInt]

theorem postsAt_isSome_iff (baseUrl : List Char) (past : List RcgtimingEvent)
    (event : RcgtimingEvent) : (postsAt baseUrl past event).isSome ↔ Postable past event := by
  cases event with
  | silence => exact iff_of_true rfl fun passing read => nomatch read
  | message msg time =>
    have same : RcgtimingEvent.reading (.message msg time) = rcgtimingReading msg := rfl
    rw [postsAt, Postable, same]
    cases rcgtimingReading msg with
    | status status => exact iff_of_true rfl fun passing read => nomatch read
    | ignored => exact iff_of_true rfl fun passing read => nomatch read
    | passing passing =>
      have noise : ((lastStatusOf past).mapM fun status : StatusReading =>
            status.noisePower.toInt).isSome ↔
          ∀ status, lastStatusOf past = some status →
            ∃ noise, status.noisePower = .finite noise := by
        cases lastStatusOf past with
        | none => exact iff_of_true rfl fun status found => nomatch found
        | some status =>
          simp only [Option.some.injEq, forall_eq', ← toInt_isSome_iff]
          cases noise : status.noisePower.toInt <;> simp [noise]
      simp only [RcgtimingReading.passing.injEq, forall_eq']
      rw [← toInt_isSome_iff, ← noise]
      cases passing.rssi.toInt with
      | none => exact iff_of_false Bool.false_ne_true fun both => Bool.false_ne_true both.1
      | some signal =>
        cases (lastStatusOf past).mapM fun status : StatusReading => status.noisePower.toInt with
        | none => exact iff_of_false Bool.false_ne_true fun both => Bool.false_ne_true both.2
        | some noise => exact iff_of_true rfl ⟨rfl, rfl⟩

theorem postsAt_eq_offline_iff {baseUrl : List Char} {past : List RcgtimingEvent}
    {event : RcgtimingEvent} :
    postsAt baseUrl past event = some [postStatus baseUrl false] ↔
      event = .silence ∧ heardLast past := by
  cases event with
  | silence =>
    rw [postsAt]
    cases heardLast past <;> simp
  | message msg time =>
    refine iff_of_false (fun offline => ?_) fun silent => nomatch silent.1
    rw [postsAt] at offline
    cases read : rcgtimingReading msg with
    | status status => simp [read, postStatus] at offline
    | ignored => simp [read] at offline
    | passing passing =>
      simp only [read] at offline
      obtain ⟨localts, -, offline⟩ := Option.bind_eq_some_iff.mp offline
      obtain ⟨signal, -, offline⟩ := Option.bind_eq_some_iff.mp offline
      obtain ⟨noise, -, offline⟩ := Option.bind_eq_some_iff.mp offline
      simp [postEvent, postStatus] at offline

theorem heardLast_take {events : List RcgtimingEvent} {i : Nat} (inside : i < events.length) :
    heardLast (events.take i) ↔
      ∃ j msg time, i = j + 1 ∧ events[j]? = some (.message msg time) := by
  cases i with
  | zero => simp [heardLast]
  | succ j =>
    obtain ⟨event, found⟩ : ∃ event, events[j]? = some event :=
      ⟨_, List.getElem?_eq_getElem (Nat.lt_of_succ_lt inside)⟩
    rw [heardLast, List.getLast?_take, if_neg (Nat.succ_ne_zero j), Nat.add_sub_cancel, found]
    cases event with
    | silence => simp [RcgtimingEvent.isMessage, found]
    | message msg time => simp [RcgtimingEvent.isMessage, found]

theorem rcgtiming_law (baseUrl : List Char) (events : List RcgtimingEvent) :
    RcgtimingLaw baseUrl events := by
  obtain ⟨defined, told⟩ := run_tells RcgtimingBridge.Follows (postsAt baseUrl)
    (fun past bridge event follows => follows.step event) RcgtimingBridge.initial_follows events
  refine ⟨?_, fun last posts ran => (told last posts ran).2, fun last posts ran i => ?_⟩
  · simpa only [postsAt_isSome_iff] using defined
  · have answered := length_of_run _ ran
    cases found : events[i]? with
    | none =>
      have outside := List.getElem?_eq_none_iff.mp found
      rw [List.getElem?_eq_none (answered.trans_le outside)]
      simp
    | some event =>
      have inside := (List.getElem?_eq_some_iff.mp found).1
      rw [(told last posts ran).2 i event found, postsAt_eq_offline_iff, heardLast_take inside,
        Option.some.injEq]

end OpenStint
