/-
This file models `RC4Trainer` of `rc4.cpp`. The receiving thread appends every RC4 message
to a bounded buffer; the main thread evaluates the buffer and decides when a parked
transponder is learned. Calling `back`, `front` or `minmax_element` on an empty buffer is
undefined and is `none` here. The levels, floats in the source, are taken from an ordered field:
none of them is NaN, and their differences are not rounded.

The trainer's sessions are well formed over every run, no empty buffer is ever read, and a
session that is done has been fed by the same stable signal since it started.
-/

import Mathlib.Algebra.Order.Field.Rat
import OpenStint.Library.BoundedQueue
import OpenStint.Library.Machine
import Std.Data.TreeMap

namespace OpenStint

open Machine BoundedQueue

variable {R : Type}

structure Entry (R : Type) where
  timestamp : UInt64
  rc4Payload : UInt64
  rssi : R
  transponderId : UInt32
  deriving DecidableEq, Repr

inductive TrainerState
  | idle
  | training
  | finalizing
  deriving DecidableEq, Repr

inductive EvaluationResult
  | noAction
  | start
  | interruped
  | done
  | reset
  deriving DecidableEq, Repr

def bufferMaxSize : Nat := 8196

structure Rc4Trainer (R : Type) where
  state : TrainerState
  buffer : List (Entry R)
  deriving DecidableEq, Repr

namespace Rc4Trainer

def initial : Rc4Trainer R where
  state := .idle
  buffer := []

def append (trainer : Rc4Trainer R) (timestamp : UInt64) (rssi : R) (transponderId : UInt32)
    (rc4Payload : UInt64) : Rc4Trainer R :=
  { trainer with
    buffer := push bufferMaxSize trainer.buffer { timestamp, rc4Payload, rssi, transponderId } }

/-- The signed microseconds from one timestamp to another. -/
def elapsed (since until_ : UInt64) : Int64 := (until_ - since).toInt64

/-- The span between the two results of `minmax_element`. -/
def rssiSpan [Sub R] [Min R] [Max R] (entries : List (Entry R)) : Option R := do
  let mn ← (entries.map Entry.rssi).min?
  let mx ← (entries.map Entry.rssi).max?
  return mx - mn

def evaluate [Field R] [LinearOrder R] (trainer : Rc4Trainer R) (timestamp : UInt64) :
    Option (Rc4Trainer R × EvaluationResult) :=
  match trainer.state with
  | .idle =>
    if trainer.buffer.length < 128 then some (trainer, .noAction) else do
    let last ← trainer.buffer.getLast?
    if elapsed last.timestamp timestamp > 100000 ∨ last.rssi ≤ -20 then
      some (trainer, .noAction) else
    let tail := trainer.buffer.rtake 128
    let first ← tail.head?
    let span ← rssiSpan tail
    if elapsed first.timestamp last.timestamp ≤ 1000000 ∧ span ≤ 2 then
      some ({ state := .training, buffer := tail }, .start)
    else some (trainer, .noAction)
  | .training => do
    let last ← trainer.buffer.getLast?
    if elapsed last.timestamp timestamp > 500000 then
      some ({ trainer with state := .idle }, .interruped) else
    let span ← rssiSpan trainer.buffer
    if ¬ span ≤ 3 then some ({ trainer with state := .idle }, .interruped) else
    if bufferMaxSize ≤ trainer.buffer.length then
      some ({ trainer with state := .finalizing }, .done)
    else some (trainer, .noAction)
  | .finalizing => do
    let last ← trainer.buffer.getLast?
    if elapsed last.timestamp timestamp > 1000000 then
      some ({ trainer with state := .idle }, .reset)
    else some (trainer, .noAction)

/-- `counts` of `registry_payloads`: how often each payload is in the buffer. -/
def payloadCounts (entries : List (Entry R)) : Std.TreeMap UInt64 Nat :=
  entries.foldl (fun counts entry =>
    counts.insert entry.rc4Payload (counts.getD entry.rc4Payload 0 + 1)) ∅

/-- `registry_payloads`: the payloads seen more than once, in ascending order. -/
def registryPayloads (trainer : Rc4Trainer R) : List UInt64 :=
  ((payloadCounts trainer.buffer).toList.filter fun (_, count) => 1 < count).map fun (p, _) => p

def preferredTransponderId (trainer : Rc4Trainer R) : UInt32 :=
  ((trainer.buffer.find? fun e => e.transponderId ≠ 0).map Entry.transponderId).getD 0

def bufferTimerange (trainer : Rc4Trainer R) : Option (UInt64 × UInt64) := do
  let front ← trainer.buffer.head?
  let back ← trainer.buffer.getLast?
  return (front.timestamp, back.timestamp)

def lastRssi (trainer : Rc4Trainer R) : Option R := trainer.buffer.getLast?.map Entry.rssi

end Rc4Trainer

/-! ### Runs of the two threads -/

inductive TrainerInput (R : Type)
  | append (timestamp : UInt64) (rssi : R) (transponderId : UInt32) (rc4Payload : UInt64)
  | evaluate (timestamp : UInt64)

/-- What happened in one critical section. -/
inductive TrainerEvent (R : Type)
  | appended (entry : Entry R)
  | evaluated (timestamp : UInt64) (result : EvaluationResult)

def trainerStep [Field R] [LinearOrder R] (trainer : Rc4Trainer R) :
    TrainerInput R → Option (Rc4Trainer R × TrainerEvent R)
  | .append timestamp rssi transponderId rc4Payload =>
    some (trainer.append timestamp rssi transponderId rc4Payload,
      .appended { timestamp, rc4Payload, rssi, transponderId })
  | .evaluate timestamp =>
    (trainer.evaluate timestamp).map fun (next, result) => (next, .evaluated timestamp result)

/-- The entries appended, oldest first. -/
def entriesOf (trace : List (TrainerEvent R)) : List (Entry R) :=
  trace.filterMap fun
    | .appended entry => some entry
    | .evaluated _ _ => none

/-- The results that report something. -/
def resultsOf (trace : List (TrainerEvent R)) : List EvaluationResult :=
  trace.filterMap fun
    | .appended _ => none
    | .evaluated _ .noAction => none
    | .evaluated _ result => some result

/-- A sequence of whole sessions: each starts, and is interrupted or is done and reset. -/
inductive Sessions : List EvaluationResult → Prop
  | nil : Sessions []
  | interruped {rest : List EvaluationResult} :
      Sessions rest → Sessions (.start :: .interruped :: rest)
  | done {rest : List EvaluationResult} :
      Sessions rest → Sessions (.start :: .done :: .reset :: rest)

/-- The events end with a session in progress: it started on the last 128 entries of
`before`, and only entries came since, `between`. -/
structure SessionOpen (trace before between : List (TrainerEvent R)) : Prop where
  started : ∃ timestamp, trace = before ++ .evaluated timestamp .start :: between
  quiet : resultsOf between = []

/-- What a learned session is made of: the buffer is full and stable; all but at most 128
of its entries came after the start, and those are among the last 128 before it. -/
structure SessionLearned [Field R] [LinearOrder R] (past : List (TrainerEvent R))
    (buffer : List (Entry R)) : Prop where
  full : buffer.length = bufferMaxSize
  stable : ∀ first ∈ buffer, ∀ second ∈ buffer, first.rssi - second.rssi ≤ 3
  session : ∃ before between old recent, SessionOpen past before between ∧
    buffer = old ++ recent ∧ old <:+ (entriesOf before).rtake 128 ∧
    recent <:+ entriesOf between ∧ 8068 ≤ recent.length

/-- What holds after every run of the trainer. -/
structure TrainerLaw [Field R] [LinearOrder R] (trace : List (TrainerEvent R))
    (trainer : Rc4Trainer R) : Prop where
  sessions : ∃ word, Sessions word ∧ resultsOf trace <+: word
  bounded : trainer.buffer.length ≤ bufferMaxSize
  warm : trainer.state ≠ .idle → 128 ≤ trainer.buffer.length
  readable : trainer.state ≠ .idle →
    trainer.lastRssi.isSome = true ∧ trainer.bufferTimerange.isSome = true
  learned : ∀ past timestamp, trace = past ++ [.evaluated timestamp .done] →
    SessionLearned past trainer.buffer

/-! ### One critical section -/

section Steps

variable [Field R] [LinearOrder R]

theorem rssiSpan_isSome {entries : List (Entry R)} (nonempty : entries ≠ []) :
    ∃ span, Rc4Trainer.rssiSpan entries = some span := by
  obtain ⟨mn, least⟩ : ∃ mn, (entries.map Entry.rssi).min? = some mn :=
    Option.ne_none_iff_exists'.mp fun none =>
      nonempty (List.map_eq_nil_iff.mp (List.min?_eq_none_iff.mp none))
  obtain ⟨mx, greatest⟩ : ∃ mx, (entries.map Entry.rssi).max? = some mx :=
    Option.ne_none_iff_exists'.mp fun none =>
      nonempty (List.map_eq_nil_iff.mp (List.max?_eq_none_iff.mp none))
  exact ⟨mx - mn, by rw [Rc4Trainer.rssiSpan, least, greatest]; rfl⟩

theorem sub_le_of_rssiSpan [IsStrictOrderedRing R] {entries : List (Entry R)} {span : R}
    (spanned : Rc4Trainer.rssiSpan entries = some span) {first second : Entry R}
    (firstMember : first ∈ entries) (secondMember : second ∈ entries) :
    first.rssi - second.rssi ≤ span := by
  simp only [Rc4Trainer.rssiSpan, Option.bind_eq_bind, Option.bind_eq_some_iff, Option.pure_def,
    Option.some.injEq] at spanned
  obtain ⟨mn, least, mx, greatest, rfl⟩ := spanned
  exact sub_le_sub
    ((List.max?_eq_some_iff.mp greatest).2 _ (List.mem_map_of_mem firstMember))
    ((List.min?_eq_some_iff.mp least).2 _ (List.mem_map_of_mem secondMember))

/-- Everything an evaluation can do, when a session is never open on an empty buffer. -/
theorem evaluate_cases [IsStrictOrderedRing R] (trainer : Rc4Trainer R) (timestamp : UInt64)
    (warm : trainer.state ≠ .idle → trainer.buffer ≠ []) :
    trainer.evaluate timestamp = some (trainer, .noAction) ∨
    (trainer.state = .idle ∧ 128 ≤ trainer.buffer.length ∧
      trainer.evaluate timestamp =
        some ({ state := .training, buffer := trainer.buffer.rtake 128 }, .start)) ∨
    (trainer.state = .training ∧
      trainer.evaluate timestamp = some ({ trainer with state := .idle }, .interruped)) ∨
    (trainer.state = .training ∧ bufferMaxSize ≤ trainer.buffer.length ∧
      (∀ first ∈ trainer.buffer, ∀ second ∈ trainer.buffer, first.rssi - second.rssi ≤ 3) ∧
      trainer.evaluate timestamp = some ({ trainer with state := .finalizing }, .done)) ∨
    (trainer.state = .finalizing ∧
      trainer.evaluate timestamp = some ({ trainer with state := .idle }, .reset)) := by
  obtain ⟨state, buffer⟩ := trainer
  cases state with
  | idle =>
    by_cases short : buffer.length < 128
    · exact Or.inl (if_pos short)
    have nonempty : buffer ≠ [] := by rintro rfl; simp at short
    have tailNonempty : buffer.rtake 128 ≠ [] := by
      intro empty
      have length := length_rtake 128 buffer
      rw [empty, List.length_nil] at length
      omega
    obtain ⟨last, lastEq⟩ : ∃ last, buffer.getLast? = some last :=
      ⟨_, List.getLast?_eq_some_getLast nonempty⟩
    obtain ⟨first, firstEq⟩ : ∃ first, (buffer.rtake 128).head? = some first :=
      ⟨_, List.head?_eq_some_head tailNonempty⟩
    obtain ⟨span, spanEq⟩ := rssiSpan_isSome tailNonempty
    simp only [Rc4Trainer.evaluate, if_neg short, lastEq, firstEq, spanEq, Option.bind_eq_bind,
      Option.bind_some]
    split
    · exact Or.inl rfl
    · split
      · exact Or.inr (Or.inl ⟨trivial, not_lt.mp short, rfl⟩)
      · exact Or.inl rfl
  | training =>
    have nonempty : buffer ≠ [] := warm nofun
    obtain ⟨last, lastEq⟩ : ∃ last, buffer.getLast? = some last :=
      ⟨_, List.getLast?_eq_some_getLast nonempty⟩
    obtain ⟨span, spanEq⟩ := rssiSpan_isSome nonempty
    simp only [Rc4Trainer.evaluate, lastEq, spanEq, Option.bind_eq_bind, Option.bind_some]
    split
    · exact Or.inr (Or.inr (Or.inl ⟨trivial, rfl⟩))
    · split
      · exact Or.inr (Or.inr (Or.inl ⟨trivial, rfl⟩))
      · rename_i _ stable
        split
        · rename_i full
          refine Or.inr (Or.inr (Or.inr (Or.inl
            ⟨trivial, full, fun first firstMember second secondMember => ?_, rfl⟩)))
          exact (sub_le_of_rssiSpan spanEq firstMember secondMember).trans (not_not.mp stable)
        · exact Or.inl rfl
  | finalizing =>
    have nonempty : buffer ≠ [] := warm nofun
    obtain ⟨last, lastEq⟩ : ∃ last, buffer.getLast? = some last :=
      ⟨_, List.getLast?_eq_some_getLast nonempty⟩
    simp only [Rc4Trainer.evaluate, lastEq, Option.bind_eq_bind, Option.bind_some]
    split
    · exact Or.inr (Or.inr (Or.inr (Or.inr ⟨trivial, rfl⟩)))
    · exact Or.inl rfl

end Steps

/-! ### The payloads of a buffer -/

/-- Each payload of the buffer is counted, and no other is in the map. -/
theorem payloadCounts_getElem? (entries : List (Entry R)) (p : UInt64) :
    (Rc4Trainer.payloadCounts entries)[p]? =
      if p ∈ entries.map Entry.rc4Payload then some ((entries.map Entry.rc4Payload).count p)
      else none := by
  induction entries using List.reverseRecOn with
  | nil => rfl
  | append_singleton entries last inductionHypothesis =>
    have recorded : (Rc4Trainer.payloadCounts entries).getD p 0 =
        (entries.map Entry.rc4Payload).count p := by
      rw [Std.TreeMap.getD_eq_getD_getElem?, inductionHypothesis]
      split
      · rfl
      · rename_i absent
        rw [List.count_eq_zero_of_not_mem absent]
        rfl
    have grown : Rc4Trainer.payloadCounts (entries ++ [last]) =
        (Rc4Trainer.payloadCounts entries).insert last.rc4Payload
          ((Rc4Trainer.payloadCounts entries).getD last.rc4Payload 0 + 1) := by
      rw [Rc4Trainer.payloadCounts, List.foldl_append]
      rfl
    rw [grown, Std.TreeMap.getElem?_insert, List.map_append, List.map_singleton, List.count_append]
    by_cases same : last.rc4Payload = p
    · subst same
      simp [recorded]
    · rw [if_neg (by rwa [Std.LawfulEqOrd.compare_eq_iff_eq]), inductionHypothesis]
      simp [same, Ne.symm same]

theorem mem_registryPayloads (trainer : Rc4Trainer R) (p : UInt64) :
    p ∈ trainer.registryPayloads ↔ 2 ≤ (trainer.buffer.map Entry.rc4Payload).count p := by
  simp only [Rc4Trainer.registryPayloads, List.mem_map, List.mem_filter, decide_eq_true_eq,
    Prod.exists, Std.TreeMap.mem_toList_iff_getElem?_eq_some, payloadCounts_getElem?]
  constructor
  · rintro ⟨payload, count, ⟨found, twice⟩, rfl⟩
    split at found
    · injection found with found
      rw [found]
      exact twice
    · cases found
  · intro twice
    have member : p ∈ trainer.buffer.map Entry.rc4Payload := List.count_pos_iff.mp (by omega)
    exact ⟨p, _, ⟨if_pos (List.mem_map.mp member), twice⟩, rfl⟩

/-! ### Every run -/

@[simp] theorem entriesOf_concat_appended (trace : List (TrainerEvent R)) (entry : Entry R) :
    entriesOf (trace ++ [.appended entry]) = entriesOf trace ++ [entry] := by
  simp [entriesOf]

@[simp] theorem entriesOf_concat_evaluated (trace : List (TrainerEvent R)) (timestamp : UInt64)
    (result : EvaluationResult) :
    entriesOf (trace ++ [.evaluated timestamp result]) = entriesOf trace := by
  simp [entriesOf]

@[simp] theorem resultsOf_concat_appended (trace : List (TrainerEvent R)) (entry : Entry R) :
    resultsOf (trace ++ [.appended entry]) = resultsOf trace := by
  simp [resultsOf]

@[simp] theorem resultsOf_concat_noAction (trace : List (TrainerEvent R)) (timestamp : UInt64) :
    resultsOf (trace ++ [.evaluated timestamp .noAction]) = resultsOf trace := by
  simp [resultsOf]

theorem resultsOf_concat_evaluated (trace : List (TrainerEvent R)) (timestamp : UInt64)
    {result : EvaluationResult} (reports : result ≠ .noAction) :
    resultsOf (trace ++ [.evaluated timestamp result]) = resultsOf trace ++ [result] := by
  cases result with
  | noAction => exact absurd rfl reports
  | _ => simp [resultsOf]

theorem Sessions.append {first second : List EvaluationResult} (whole : Sessions first)
    (more : Sessions second) : Sessions (first ++ second) := by
  induction whole with
  | nil => exact more
  | interruped _ inductionHypothesis => exact .interruped inductionHypothesis
  | done _ inductionHypothesis => exact .done inductionHypothesis

theorem SessionOpen.concat {trace before between : List (TrainerEvent R)} {event : TrainerEvent R}
    (session : SessionOpen trace before between) (quiet : resultsOf [event] = []) :
    SessionOpen (trace ++ [event]) before (between ++ [event]) := by
  obtain ⟨⟨timestamp, rfl⟩, quietBetween⟩ := session
  refine ⟨⟨timestamp, by simp⟩, ?_⟩
  rw [resultsOf, List.filterMap_append, ← resultsOf, ← resultsOf, quietBetween, quiet,
    List.append_nil]

/-- The session of a trainer that is training: it holds the last 128 entries before the
start and the entries since, as far as they fit. -/
def SessionContent (trace : List (TrainerEvent R)) (buffer : List (Entry R)) : Prop :=
  ∃ before between, SessionOpen trace before between ∧
    buffer = ((entriesOf before).rtake 128 ++ entriesOf between).rtake bufferMaxSize

/-- The results so far are whole sessions and the part of one that the state stands for. -/
def SessionsSoFar (trace : List (TrainerEvent R)) : TrainerState → Prop
  | .idle => Sessions (resultsOf trace)
  | .training => ∃ whole, Sessions whole ∧ resultsOf trace = whole ++ [.start]
  | .finalizing => ∃ whole, Sessions whole ∧ resultsOf trace = whole ++ [.start, .done]

structure TrainerInvariant (trace : List (TrainerEvent R)) (trainer : Rc4Trainer R) : Prop where
  sessions : SessionsSoFar trace trainer.state
  bounded : trainer.buffer.length ≤ bufferMaxSize
  warm : trainer.state ≠ .idle → 128 ≤ trainer.buffer.length
  recent : trainer.buffer <:+ entriesOf trace
  content : trainer.state = .training → SessionContent trace trainer.buffer

/-- A full buffer of a session that is training is a learned session. -/
theorem SessionContent.learned [Field R] [LinearOrder R] {trace : List (TrainerEvent R)}
    {buffer : List (Entry R)} (content : SessionContent trace buffer)
    (full : buffer.length = bufferMaxSize)
    (stable : ∀ first ∈ buffer, ∀ second ∈ buffer, first.rssi - second.rssi ≤ 3) :
    SessionLearned trace buffer := by
  obtain ⟨before, between, session, held⟩ := content
  refine ⟨full, stable, before, between,
    ((entriesOf before).rtake 128).rtake (bufferMaxSize - (entriesOf between).length),
    (entriesOf between).rtake bufferMaxSize, session, ?_, rtake_suffix _ _, rtake_suffix _ _, ?_⟩
  · rw [held, rtake_append]
  · have kept := length_rtake 128 (entriesOf before)
    rw [held, length_rtake, List.length_append] at full
    rw [length_rtake]
    unfold bufferMaxSize at *
    omega

/-- A session starts on the last 128 entries. -/
theorem SessionContent.of_start {trace : List (TrainerEvent R)} {buffer : List (Entry R)}
    (recent : buffer <:+ entriesOf trace) (long : 128 ≤ buffer.length) (timestamp : UInt64) :
    SessionContent (trace ++ [.evaluated timestamp .start]) (buffer.rtake 128) := by
  refine ⟨trace, [], ⟨⟨timestamp, rfl⟩, rfl⟩, ?_⟩
  have kept : ((entriesOf trace).rtake 128).length ≤ bufferMaxSize := by
    rw [length_rtake]
    exact (min_le_left _ _).trans (by decide)
  rw [show entriesOf ([] : List (TrainerEvent R)) = [] from rfl, List.append_nil,
    rtake_of_length_le kept]
  exact rtake_of_suffix recent long

theorem TrainerInvariant.append {trace : List (TrainerEvent R)} {trainer : Rc4Trainer R}
    (invariant : TrainerInvariant trace trainer) (entry : Entry R) :
    TrainerInvariant (trace ++ [.appended entry])
      { trainer with buffer := push bufferMaxSize trainer.buffer entry } where
  sessions := by
    have sessions := invariant.sessions
    cases state : trainer.state <;> simpa [SessionsSoFar, state] using sessions
  bounded := by
    rw [length_push invariant.bounded]
    exact min_le_left _ _
  warm := fun busy => by
    rw [length_push invariant.bounded]
    exact le_min (by decide) (Nat.le_add_right_of_le (invariant.warm busy))
  recent := by
    rw [entriesOf_concat_appended]
    exact push_suffix invariant.recent entry
  content := fun training => by
    obtain ⟨before, between, session, held⟩ := invariant.content training
    refine ⟨before, between ++ [.appended entry], session.concat rfl, ?_⟩
    rw [entriesOf_concat_appended, ← List.append_assoc, ← push_rtake, ← held]

/-- An evaluation that reports nothing changes nothing. -/
theorem TrainerInvariant.noAction {trace : List (TrainerEvent R)} {trainer : Rc4Trainer R}
    (invariant : TrainerInvariant trace trainer) (timestamp : UInt64) :
    TrainerInvariant (trace ++ [.evaluated timestamp .noAction]) trainer where
  sessions := by
    have sessions := invariant.sessions
    cases state : trainer.state <;> simpa [SessionsSoFar, state] using sessions
  bounded := invariant.bounded
  warm := invariant.warm
  recent := by
    rw [entriesOf_concat_evaluated]
    exact invariant.recent
  content := fun training => by
    obtain ⟨before, between, session, held⟩ := invariant.content training
    refine ⟨before, between ++ [.evaluated timestamp .noAction], session.concat rfl, ?_⟩
    rw [entriesOf_concat_evaluated, ← held]

theorem TrainerInvariant.start {trace : List (TrainerEvent R)} {trainer : Rc4Trainer R}
    (invariant : TrainerInvariant trace trainer) (idle : trainer.state = .idle)
    (long : 128 ≤ trainer.buffer.length) (timestamp : UInt64) :
    TrainerInvariant (trace ++ [.evaluated timestamp .start])
      { state := .training, buffer := trainer.buffer.rtake 128 } := by
  have sessions := invariant.sessions
  rw [idle] at sessions
  have length : (trainer.buffer.rtake 128).length = 128 := by
    rw [length_rtake, Nat.min_eq_left long]
  have recent :
      trainer.buffer.rtake 128 <:+ entriesOf (trace ++ [.evaluated timestamp .start]) := by
    rw [entriesOf_concat_evaluated]
    exact (rtake_suffix _ _).trans invariant.recent
  have content := SessionContent.of_start invariant.recent long timestamp
  generalize trainer.buffer.rtake 128 = tail at length recent content
  exact ⟨⟨_, sessions, resultsOf_concat_evaluated _ _ nofun⟩,
    (Nat.le_of_eq length).trans (by decide), fun _ => Nat.le_of_eq length.symm, recent,
    fun _ => content⟩

/-- An evaluation that leaves the training state, or does not enter it, keeps the buffer. -/
theorem TrainerInvariant.moved {trace : List (TrainerEvent R)} {trainer : Rc4Trainer R}
    (invariant : TrainerInvariant trace trainer) {timestamp : UInt64} {result : EvaluationResult}
    {state : TrainerState}
    (sessions : SessionsSoFar (trace ++ [.evaluated timestamp result]) state)
    (busy : state ≠ .idle → trainer.state ≠ .idle) (notTraining : state ≠ .training) :
    TrainerInvariant (trace ++ [.evaluated timestamp result]) { trainer with state } where
  sessions := sessions
  bounded := invariant.bounded
  warm := fun still => invariant.warm (busy still)
  recent := by
    rw [entriesOf_concat_evaluated]
    exact invariant.recent
  content := fun training => absurd training notTraining

theorem TrainerInvariant.initial : TrainerInvariant [] (.initial : Rc4Trainer R) where
  sessions := .nil
  bounded := Nat.zero_le _
  warm := fun busy => absurd rfl busy
  recent := List.suffix_rfl
  content := nofun

/-- The results so far can be completed to whole sessions. -/
theorem SessionsSoFar.completes {trace : List (TrainerEvent R)} {state : TrainerState}
    (sessions : SessionsSoFar trace state) : ∃ word, Sessions word ∧ resultsOf trace <+: word := by
  cases state with
  | idle => exact ⟨_, sessions, List.prefix_rfl⟩
  | training =>
    obtain ⟨whole, wholeSessions, results⟩ := sessions
    exact ⟨_, wholeSessions.append (.interruped .nil), [.interruped], by rw [results]; simp⟩
  | finalizing =>
    obtain ⟨whole, wholeSessions, results⟩ := sessions
    exact ⟨_, wholeSessions.append (.done .nil), [.reset], by rw [results]; simp⟩

theorem isSome_of_warm {trainer : Rc4Trainer R} (nonempty : trainer.buffer ≠ []) :
    trainer.lastRssi.isSome = true ∧ trainer.bufferTimerange.isSome = true := by
  obtain ⟨state, buffer⟩ := trainer
  cases buffer with
  | nil => exact absurd rfl nonempty
  | cons first rest =>
    simp [Rc4Trainer.lastRssi, Rc4Trainer.bufferTimerange, List.getLast?_cons]

section Runs

variable [Field R] [LinearOrder R] [IsStrictOrderedRing R]

/-- One critical section of either thread is defined and keeps the invariant; one that ends
in `done` has learned a session. -/
theorem trainerStep_invariant {trace : List (TrainerEvent R)} {trainer : Rc4Trainer R}
    (invariant : TrainerInvariant trace trainer) (input : TrainerInput R) :
    ∃ next event, trainerStep trainer input = some (next, event) ∧
      TrainerInvariant (trace ++ [event]) next ∧
      ∀ timestamp, event = .evaluated timestamp .done → SessionLearned trace next.buffer := by
  cases input with
  | append timestamp rssi transponderId rc4Payload =>
    exact ⟨_, _, rfl, invariant.append _, nofun⟩
  | evaluate timestamp =>
    have nonempty : trainer.state ≠ .idle → trainer.buffer ≠ [] := by
      intro busy empty
      have warm := invariant.warm busy
      rw [empty, List.length_nil] at warm
      omega
    have sessions := invariant.sessions
    rcases evaluate_cases trainer timestamp nonempty with
      same | ⟨state, long, started⟩ | ⟨state, stopped⟩ | ⟨state, full, stable, done⟩ |
        ⟨state, reset⟩
    · exact ⟨trainer, .evaluated timestamp .noAction, by rw [trainerStep, same]; rfl,
        invariant.noAction timestamp, nofun⟩
    · exact ⟨{ state := .training, buffer := trainer.buffer.rtake 128 },
        .evaluated timestamp .start, by rw [trainerStep, started]; rfl,
        invariant.start state long timestamp, nofun⟩
    · refine ⟨{ trainer with state := .idle }, .evaluated timestamp .interruped,
        by rw [trainerStep, stopped]; rfl, invariant.moved ?_ (absurd rfl) nofun, nofun⟩
      rw [state] at sessions
      obtain ⟨whole, wholeSessions, results⟩ := sessions
      show Sessions _
      rw [resultsOf_concat_evaluated _ _ (by decide), results, List.append_assoc]
      exact wholeSessions.append (.interruped .nil)
    · refine ⟨{ trainer with state := .finalizing }, .evaluated timestamp .done,
        by rw [trainerStep, done]; rfl,
        invariant.moved ?_ (fun _ idle => absurd (state.symm.trans idle) nofun) nofun,
        fun _ _ => (invariant.content state).learned
          (Nat.le_antisymm invariant.bounded full) stable⟩
      rw [state] at sessions
      obtain ⟨whole, wholeSessions, results⟩ := sessions
      refine ⟨whole, wholeSessions, ?_⟩
      rw [resultsOf_concat_evaluated _ _ (by decide), results, List.append_assoc]
      rfl
    · refine ⟨{ trainer with state := .idle }, .evaluated timestamp .reset,
        by rw [trainerStep, reset]; rfl, invariant.moved ?_ (absurd rfl) nofun, nofun⟩
      rw [state] at sessions
      obtain ⟨whole, wholeSessions, results⟩ := sessions
      show Sessions _
      rw [resultsOf_concat_evaluated _ _ (by decide), results, List.append_assoc]
      exact wholeSessions.append (.done .nil)

/-- The trainer over every interleaving of appends and evaluations: no empty buffer is
read, the sessions are well formed, and a session that is done was stable throughout. -/
theorem rc4Trainer_law (inputs : List (TrainerInput R)) :
    ∃ trainer trace, run trainerStep .initial inputs = some (trainer, trace) ∧
      TrainerLaw trace trainer := by
  obtain ⟨trainer, trace, reached, invariant, learned⟩ := run_history
    (fun trace trainer => TrainerInvariant trace trainer ∧
      ∀ past timestamp, trace = past ++ [.evaluated timestamp .done] →
        SessionLearned past trainer.buffer)
    (fun trace trainer input holds => by
      obtain ⟨invariant, -⟩ := holds
      obtain ⟨next, event, stepped, kept, learned⟩ := trainerStep_invariant invariant input
      refine ⟨next, event, stepped, kept, fun past timestamp split => ?_⟩
      obtain ⟨rfl, same⟩ := List.append_inj' split rfl
      exact learned timestamp (List.singleton_inj.mp same))
    ⟨TrainerInvariant.initial, fun past _ split => by simp at split⟩ inputs
  have nonempty : trainer.state ≠ .idle → trainer.buffer ≠ [] := by
    intro busy empty
    have warm := invariant.warm busy
    rw [empty, List.length_nil] at warm
    omega
  exact ⟨trainer, trace, reached, invariant.sessions.completes, invariant.bounded, invariant.warm,
    fun busy => isSome_of_warm (nonempty busy), learned⟩

end Runs

theorem rc4Trainer_law_short : ∃ trainer trace,
    run trainerStep (.initial : Rc4Trainer ℚ) [.append 0 (-10) 0 7, .evaluate 100] =
      some (trainer, trace) ∧ TrainerLaw trace trainer :=
  rc4Trainer_law _

end OpenStint
