/-
This file models `AmbRcBlacklist` of `transponder.cpp` and describes it by the messages it
has seen. Old RC3 transponders send status 0xff in every message, newer ones also in
status messages; the list bans an id for good when a message of the second kind gives it
away. The blacklist keeps one timestamp for each value of the top eight id bits, and a
message is judged by the latest timestamp under its own.
-/

import Mathlib.Data.List.Induction
import Std.Data.TreeMap
import Std.Data.TreeSet

namespace OpenStint

/-! ### The list -/

structure AmbRcBlacklist where
  msb8Timestamps : Std.TreeMap UInt8 UInt64
  bannedTransponders : Std.TreeSet UInt32

namespace AmbRcBlacklist

def initial : AmbRcBlacklist where
  msb8Timestamps := ∅
  bannedTransponders := ∅

def msb8 (transponderId : UInt32) : UInt8 := ((transponderId >>> 16) &&& 0xff).toUInt8

def process (blacklist : AmbRcBlacklist) (timestamp : UInt64) (statusCode : UInt8)
    (transponderId : UInt32) : AmbRcBlacklist :=
  if statusCode &&& 0xf8 ≠ 0xf8 then blacklist
  else if statusCode &&& 0x07 = 0 then blacklist
  else if statusCode ≠ 0xff then
    { blacklist with
      msb8Timestamps := blacklist.msb8Timestamps.insert (msb8 transponderId) timestamp }
  else
    match blacklist.msb8Timestamps[msb8 transponderId]? with
    | none => blacklist
    | some latest =>
      if timestamp ≤ latest + 250000 then
        { blacklist with bannedTransponders := blacklist.bannedTransponders.insert transponderId }
      else blacklist

def checkBanned (blacklist : AmbRcBlacklist) (transponderId : UInt32) : Bool :=
  blacklist.bannedTransponders.contains transponderId

end AmbRcBlacklist

/-! ### What the messages say -/

/-- A decoded RC3 message. -/
structure Rc3Event where
  timestamp : UInt64
  statusCode : UInt8
  transponderId : UInt32
  deriving DecidableEq, Repr

/-- A status or validation message, for sure, whose id shares its top bits with the given one. -/
def Rc3Event.validates (event : Rc3Event) (transponderId : UInt32) : Bool :=
  decide (event.transponderId < 10000000 ∧
    event.transponderId >>> 16 = transponderId >>> 16 ∧ event.statusCode &&& 0xf8 = 0xf8 ∧
    event.statusCode &&& 0x07 ≠ 0 ∧ event.statusCode ≠ 0xff)

/-- The latest of these messages in a history. -/
def latestValidation (history : List Rc3Event) (transponderId : UInt32) : Option Rc3Event :=
  history.reverse.find? fun event => event.validates transponderId

/-- The message of the id in the history has status 0xff and comes at most 250 ms, in the
unsigned arithmetic of the source, after the latest validation before it. -/
structure BannedBy (before : List Rc3Event) (event : Rc3Event) (transponderId : UInt32) : Prop
    where
  sender : event.transponderId = transponderId
  status : event.statusCode = 0xff
  close : ∃ validation, latestValidation before transponderId = some validation ∧
    event.timestamp ≤ validation.timestamp + 250000

/-- Some message of the history bans the id. -/
def Banned (history : List Rc3Event) (transponderId : UInt32) : Prop :=
  ∃ before event after, history = before ++ event :: after ∧ BannedBy before event transponderId

theorem latestValidation_concat (history : List Rc3Event) (event : Rc3Event)
    (transponderId : UInt32) :
    latestValidation (history ++ [event]) transponderId =
      if event.validates transponderId then some event
      else latestValidation history transponderId := by
  unfold latestValidation
  rw [List.reverse_append, List.reverse_singleton, List.singleton_append, List.find?_cons]
  cases event.validates transponderId <;> rfl

theorem not_banned_nil (transponderId : UInt32) : ¬ Banned [] transponderId := by
  rintro ⟨before, event, after, split, -⟩
  simp at split

theorem banned_concat (history : List Rc3Event) (event : Rc3Event) (transponderId : UInt32) :
    Banned (history ++ [event]) transponderId ↔
      Banned history transponderId ∨ BannedBy history event transponderId := by
  constructor
  · rintro ⟨before, other, after, split, bannedBy⟩
    rcases List.eq_nil_or_concat after with rfl | ⟨earlier, last, rfl⟩
    · obtain ⟨rfl, same⟩ := List.append_inj' split rfl
      rw [List.singleton_inj.mp same]
      exact Or.inr bannedBy
    · rw [List.concat_eq_append, ← List.cons_append, ← List.append_assoc] at split
      exact Or.inl ⟨before, other, earlier, (List.append_inj' split rfl).1, bannedBy⟩
  · rintro (⟨before, other, after, rfl, bannedBy⟩ | bannedBy)
    · exact ⟨before, other, after ++ [event], by rw [List.append_assoc, List.cons_append],
        bannedBy⟩
    · exact ⟨history, event, [], rfl, bannedBy⟩

/-- What bans an id bans it for good. -/
theorem Banned.append {history : List Rc3Event} {transponderId : UInt32}
    (banned : Banned history transponderId) (more : List Rc3Event) :
    Banned (history ++ more) transponderId := by
  obtain ⟨before, event, after, rfl, bannedBy⟩ := banned
  exact ⟨before, event, after ++ more, by rw [List.append_assoc, List.cons_append], bannedBy⟩

/-! ### The list keeps what the messages say -/

namespace AmbRcBlacklist

/-- What `process_frame` does to the list on a decoded RC3 message. -/
def observe (blacklist : AmbRcBlacklist) (event : Rc3Event) : AmbRcBlacklist :=
  if event.transponderId < 10000000 then
    blacklist.process event.timestamp event.statusCode event.transponderId
  else blacklist

/-- Ids of seven digits have no bits above the top eight the list goes by. -/
theorem msb8_eq_iff {first second : UInt32} (firstFits : first < 10000000)
    (secondFits : second < 10000000) : msb8 first = msb8 second ↔ first >>> 16 = second >>> 16 := by
  have top (id : UInt32) (fits : id < 10000000) : (msb8 id).toNat = (id >>> 16).toNat := by
    rw [UInt32.lt_iff_toNat_lt] at fits
    rw [msb8, UInt32.toNat_toUInt8, UInt32.toNat_and, UInt32.toNat_shiftRight]
    simp only [UInt32.reduceToNat, Nat.reduceMod] at fits ⊢
    rw [show (255 : Nat) = 2 ^ 8 - 1 by rfl, Nat.and_two_pow_sub_one_eq_mod,
      Nat.shiftRight_eq_div_pow]
    omega
  rw [← UInt8.toNat_inj, ← UInt32.toNat_inj, top first firstFits, top second secondFits]

theorem process_validation (blacklist : AmbRcBlacklist) (timestamp : UInt64) {statusCode : UInt8}
    (transponderId : UInt32) (top : statusCode &&& 0xf8 = 0xf8) (low : statusCode &&& 0x07 ≠ 0)
    (other : statusCode ≠ 0xff) :
    blacklist.process timestamp statusCode transponderId =
      { blacklist with
        msb8Timestamps := blacklist.msb8Timestamps.insert (msb8 transponderId) timestamp } := by
  rw [process, if_neg (not_not_intro top), if_neg low, if_pos other]

theorem process_unrelated (blacklist : AmbRcBlacklist) (timestamp : UInt64) {statusCode : UInt8}
    (transponderId : UInt32)
    (unrelated : ¬ (statusCode &&& 0xf8 = 0xf8 ∧ statusCode &&& 0x07 ≠ 0)) :
    blacklist.process timestamp statusCode transponderId = blacklist := by
  rw [process]
  by_cases top : statusCode &&& 0xf8 = 0xf8
  · rw [if_neg (not_not_intro top), if_pos (not_not.mp fun low => unrelated ⟨top, low⟩)]
  · rw [if_pos top]

theorem timestamps_process_full (blacklist : AmbRcBlacklist) (timestamp : UInt64)
    (transponderId : UInt32) :
    (blacklist.process timestamp 0xff transponderId).msb8Timestamps =
      blacklist.msb8Timestamps := by
  rw [process, if_neg (by decide), if_neg (by decide), if_neg (not_not_intro rfl)]
  split
  · rfl
  · split <;> rfl

theorem banned_process_full (blacklist : AmbRcBlacklist) (timestamp : UInt64)
    (transponderId other : UInt32) :
    (blacklist.process timestamp 0xff transponderId).checkBanned other ↔
      blacklist.checkBanned other ∨ transponderId = other ∧
        ∃ latest, blacklist.msb8Timestamps[msb8 transponderId]? = some latest ∧
          timestamp ≤ latest + 250000 := by
  rw [process, if_neg (by decide), if_neg (by decide), if_neg (not_not_intro rfl)]
  cases blacklist.msb8Timestamps[msb8 transponderId]? with
  | none => simp
  | some latest =>
    by_cases close : timestamp ≤ latest + 250000
    · simp [checkBanned, close, Std.TreeSet.contains_insert, or_comm]
    · simp [close]

theorem timestamp_observe (blacklist : AmbRcBlacklist) (event : Rc3Event) {transponderId : UInt32}
    (fits : transponderId < 10000000) :
    (blacklist.observe event).msb8Timestamps[msb8 transponderId]? =
      if event.validates transponderId then some event.timestamp
      else blacklist.msb8Timestamps[msb8 transponderId]? := by
  unfold observe Rc3Event.validates
  by_cases inRange : event.transponderId < 10000000
  · rw [if_pos inRange]
    by_cases related : event.statusCode &&& 0xf8 = 0xf8 ∧ event.statusCode &&& 0x07 ≠ 0
    · by_cases full : event.statusCode = 0xff
      · rw [full, timestamps_process_full]
        simp
      · rw [process_validation _ _ _ related.1 related.2 full, Std.TreeMap.getElem?_insert]
        simp [Std.LawfulEqCmp.compare_eq_iff_eq, msb8_eq_iff inRange fits, inRange, related, full]
    · rw [process_unrelated _ _ _ related, if_neg]
      simp only [decide_eq_true_eq]
      exact fun validates => related ⟨validates.2.2.1, validates.2.2.2.1⟩
  · simp [inRange]

theorem banned_observe (blacklist : AmbRcBlacklist) (event : Rc3Event) {transponderId : UInt32}
    (fits : transponderId < 10000000) :
    (blacklist.observe event).checkBanned transponderId ↔
      blacklist.checkBanned transponderId ∨
        event.transponderId = transponderId ∧ event.statusCode = 0xff ∧
          ∃ latest, blacklist.msb8Timestamps[msb8 transponderId]? = some latest ∧
            event.timestamp ≤ latest + 250000 := by
  unfold observe
  by_cases full : event.statusCode = 0xff
  · by_cases inRange : event.transponderId < 10000000
    · rw [if_pos inRange, full, banned_process_full]
      refine or_congr_right (and_congr_right fun same => ?_)
      rw [same, and_iff_right rfl]
    · have other : event.transponderId ≠ transponderId := fun same => inRange (same ▸ fits)
      simp [inRange, other]
  · have unchanged : (blacklist.observe event).bannedTransponders =
        blacklist.bannedTransponders := by
      unfold observe
      split
      · by_cases related : event.statusCode &&& 0xf8 = 0xf8 ∧ event.statusCode &&& 0x07 ≠ 0
        · rw [process_validation _ _ _ related.1 related.2 full]
        · rw [process_unrelated _ _ _ related]
      · rfl
    rw [← observe, checkBanned, unchanged, ← checkBanned]
    simp [full]

/-! ### Whole histories -/

/-- The list after a history of decoded RC3 messages. -/
def afterHistory (history : List Rc3Event) : AmbRcBlacklist := history.foldl observe initial

theorem afterHistory_concat (history : List Rc3Event) (event : Rc3Event) :
    afterHistory (history ++ [event]) = (afterHistory history).observe event := by
  rw [afterHistory, List.foldl_append, List.foldl_cons, List.foldl_nil, ← afterHistory]

/-- The timestamp under the top bits of an id is that of the latest validation. -/
theorem timestamp_afterHistory (history : List Rc3Event) {transponderId : UInt32}
    (fits : transponderId < 10000000) :
    (afterHistory history).msb8Timestamps[msb8 transponderId]? =
      (latestValidation history transponderId).map Rc3Event.timestamp := by
  induction history using List.reverseRecOn with
  | nil => exact Std.TreeMap.getElem?_emptyc
  | append_singleton history event inductionHypothesis =>
    rw [afterHistory_concat, timestamp_observe _ _ fits, latestValidation_concat,
      inductionHypothesis]
    split <;> rfl

/-- The list bans the ids that the messages ban. -/
theorem checkBanned_afterHistory (history : List Rc3Event) {transponderId : UInt32}
    (fits : transponderId < 10000000) :
    (afterHistory history).checkBanned transponderId ↔ Banned history transponderId := by
  induction history using List.reverseRecOn with
  | nil => exact iff_of_false (by simp [afterHistory, initial, checkBanned]) (not_banned_nil _)
  | append_singleton history event inductionHypothesis =>
    rw [afterHistory_concat, banned_observe _ _ fits, banned_concat, inductionHypothesis,
      timestamp_afterHistory _ fits]
    refine or_congr_right ⟨?_, ?_⟩
    · rintro ⟨sender, status, latest, held, close⟩
      obtain ⟨validation, found, rfl⟩ := Option.map_eq_some_iff.mp held
      exact ⟨sender, status, validation, found, close⟩
    · rintro ⟨sender, status, validation, found, close⟩
      exact ⟨sender, status, validation.timestamp, by rw [found, Option.map_some], close⟩

end AmbRcBlacklist

end OpenStint
