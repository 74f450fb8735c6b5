/-
This file models the messages the decoder publishes: the texts that `report_detections` of
`commons.cpp` and `to_string` of `counters.cpp` format, one line of words for each message.
A float is written with one or two decimals; how it is rounded to them does not matter here,
so a message holds the rounded float.

A line is unambiguous: two messages with the same text are the same message.
-/

import OpenStint.Library.PythonText
import OpenStint.Passing

namespace OpenStint

/-! ### Numbers -/

/-- A decimal number, as `{}` writes it. -/
def decimal (n : Nat) : List Char := Nat.toDigits 10 n

/-- The last digits of a number, with zeros in front. -/
def lastDigits : Nat → Nat → List Char
  | 0, _ => []
  | count + 1, n => lastDigits count (n / 10) ++ [Nat.digitChar (n % 10)]

/-- A float that `std::format` has rounded to some decimals: the number of units of the last
one. -/
inductive FixedFloat
  | finite (negative : Bool) (units : Nat)
  | infinite (negative : Bool)
  | nan (negative : Bool)
  deriving DecidableEq, Repr

namespace FixedFloat

def isNegative : FixedFloat → Bool
  | .finite negative _ => negative
  | .infinite negative => negative
  | .nan negative => negative

/-- What is written behind the sign. -/
def magnitude (decimals : Nat) : FixedFloat → List Char
  | .finite _ units => decimal (units / 10 ^ decimals) ++ '.' :: lastDigits decimals units
  | .infinite _ => "inf".toList
  | .nan _ => "nan".toList

/-- The text of `{:.1f}` and `{:.2f}`. -/
def text (decimals : Nat) (number : FixedFloat) : List Char :=
  (if number.isNegative then ['-'] else []) ++ number.magnitude decimals

/-- The number the text stands for. -/
def value (decimals : Nat) : FixedFloat → PythonText.FloatValue
  | .finite negative units =>
    let magnitude : ℚ := (units : ℚ) * (10 : ℚ) ^ (-decimals : Int)
    .finite (if negative then -magnitude else magnitude)
  | .infinite negative => .infinite negative
  | .nan _ => .nan

end FixedFloat

/-! ### Messages -/

/-- `transponder_system_name`. -/
def transponderSystemName : TransponderSystem → List Char
  | .openStint => "OPN".toList
  | .amb => "AMB".toList

/-- The messages of `report_detections`. The counters of a status are unbounded, as they are in
`RxStatistics`. -/
inductive DecoderMessage
  | status (timestamp : UInt64) (noiseFloor dcOffset : FixedFloat)
      (framesReceived framesProcessed : Nat)
  | timesync (timestamp : UInt64) (transponderType : TransponderSystem) (transponderId : UInt32)
      (transponderTimestamp : UInt32)
  | passing (timestamp : UInt64) (transponderType : TransponderSystem) (transponderId : UInt32)
      (rssi : FixedFloat) (hits : Nat) (duration : UInt64)
  | start (timestamp : UInt64) (rssi : FixedFloat)
  | interrupted (timestamp : UInt64)
  | done (timestamp : UInt64) (transponderId : UInt32) (payloads : Nat)
  | reset (timestamp : UInt64)
  deriving DecidableEq, Repr

namespace DecoderMessage

/-- The words of a message. -/
def words : DecoderMessage → List (List Char)
  | .status timestamp noiseFloor dcOffset framesReceived framesProcessed =>
    ["S".toList, decimal timestamp.toNat, noiseFloor.text 2, dcOffset.text 2,
      decimal framesReceived, decimal framesProcessed]
  | .timesync timestamp transponderType transponderId transponderTimestamp =>
    ["T".toList, decimal timestamp.toNat, transponderSystemName transponderType,
      decimal transponderId.toNat, decimal transponderTimestamp.toNat]
  | .passing timestamp transponderType transponderId rssi hits duration =>
    ["P".toList, decimal timestamp.toNat, transponderSystemName transponderType,
      decimal transponderId.toNat, rssi.text 2, decimal hits, decimal duration.toNat]
  | .start timestamp rssi =>
    ["L".toList, decimal timestamp.toNat, "START".toList, rssi.text 1]
  | .interrupted timestamp => ["L".toList, decimal timestamp.toNat, "INTERRUPTED".toList]
  | .done timestamp transponderId payloads =>
    ["L".toList, decimal timestamp.toNat, "DONE".toList, decimal transponderId.toNat,
      decimal payloads]
  | .reset timestamp => ["L".toList, decimal timestamp.toNat, "RESET".toList]

/-- The text of a message, with one blank between two words. -/
def text (message : DecoderMessage) : List Char := PythonText.joined message.words

end DecoderMessage

/-! ### The digits of a number -/

theorem decimal_ne_nil (n : Nat) : decimal n ≠ [] := Nat.toDigits_ne_nil

theorem isDigit_decimal (n : Nat) : ∀ c ∈ decimal n, c.isDigit = true :=
  PythonText.isDigit_toDigits n

theorem word_decimal (n : Nat) : PythonText.Word (decimal n) := PythonText.word_toDigits n

theorem readInt_decimal (n : Nat) : PythonText.readInt (decimal n) = some (n : Int) :=
  PythonText.readInt_toDigits n

theorem readFloat_decimal (n : Nat) : PythonText.readFloat (decimal n) = some (.finite n) :=
  PythonText.readFloat_toDigits n

theorem decimal_injective : Function.Injective decimal := by
  intro first second same
  have values := congrArg (fun text => Nat.ofDigitChars 10 text 0) same
  simpa only [decimal, Nat.ofDigitChars_ten_toDigits] using values

theorem isDigit_digitChar (n : Nat) : (Nat.digitChar (n % 10)).isDigit = true := by
  have below : n % 10 < 10 := Nat.mod_lt _ (by decide)
  generalize n % 10 = digit at below
  revert digit
  decide

theorem isDigit_lastDigits (count n : Nat) : ∀ c ∈ lastDigits count n, c.isDigit = true := by
  induction count generalizing n with
  | zero =>
    intro c member
    cases member
  | succ count inductionHypothesis =>
    intro c member
    rcases List.mem_append.mp member with front | last
    · exact inductionHypothesis _ c front
    · rw [List.mem_singleton.mp last]
      exact isDigit_digitChar n

theorem length_lastDigits (count n : Nat) : (lastDigits count n).length = count := by
  induction count generalizing n with
  | zero => rfl
  | succ count inductionHypothesis =>
    rw [lastDigits, List.length_append, inductionHypothesis, List.length_singleton]

/-- The last digits stand for the remainder. -/
theorem ofDigitChars_lastDigits (count n initial : Nat) :
    Nat.ofDigitChars 10 (lastDigits count n) initial = initial * 10 ^ count + n % 10 ^ count := by
  induction count generalizing n with
  | zero => simp [lastDigits, Nat.ofDigitChars_nil, Nat.mod_one]
  | succ count inductionHypothesis =>
    have last : n % 10 < 10 := Nat.mod_lt _ (by decide)
    rw [lastDigits, Nat.ofDigitChars_append, inductionHypothesis,
      Nat.ofDigitChars_cons_digitChar_of_lt_ten last, Nat.ofDigitChars_nil, Nat.pow_succ',
      Nat.mod_mul]
    ring

/-- The digits on both sides of the point stand for the units. -/
theorem ofDigitChars_fixed (decimals units : Nat) :
    Nat.ofDigitChars 10 (decimal (units / 10 ^ decimals) ++ lastDigits decimals units) 0 =
      units := by
  rw [Nat.ofDigitChars_append, decimal, Nat.ofDigitChars_ten_toDigits, ofDigitChars_lastDigits]
  exact Nat.div_add_mod' units (10 ^ decimals)

namespace FixedFloat

/-- A magnitude starts with no sign. -/
theorem magnitude_starts (decimals : Nat) (number : FixedFloat) :
    ∃ first rest, number.magnitude decimals = first :: rest ∧ first ≠ '-' ∧ first ≠ '+' := by
  cases number with
  | finite negative units =>
    obtain ⟨first, rest, spelled⟩ :=
      List.exists_cons_of_ne_nil (decimal_ne_nil (units / 10 ^ decimals))
    have digit := isDigit_decimal (units / 10 ^ decimals) first
      (by rw [spelled]; exact List.mem_cons_self)
    obtain ⟨-, minus, plus⟩ := PythonText.plain_of_isDigit digit
    exact ⟨first, rest ++ '.' :: lastDigits decimals units, by rw [magnitude, spelled]; rfl,
      minus, plus⟩
  | infinite negative => exact ⟨'i', "nf".toList, rfl, by decide, by decide⟩
  | nan negative => exact ⟨'n', "an".toList, rfl, by decide, by decide⟩

theorem splitSign_text (decimals : Nat) (number : FixedFloat) :
    PythonText.splitSign (number.text decimals) =
      (number.isNegative, number.magnitude decimals) := by
  obtain ⟨first, rest, spelled, minus, plus⟩ := number.magnitude_starts decimals
  unfold text
  cases number.isNegative with
  | true => rfl
  | false =>
    rw [if_neg Bool.false_ne_true, List.nil_append, spelled]
    exact PythonText.splitSign_of_ne minus plus

/-- The text of a float has no white space in it. -/
theorem word_text (decimals : Nat) (number : FixedFloat) :
    PythonText.Word (number.text decimals) := by
  have plain : ∀ c ∈ number.magnitude decimals, PythonText.isSpace c = false := by
    cases number with
    | finite negative units =>
      intro c member
      rcases List.mem_append.mp member with front | rest
      · exact (PythonText.plain_of_isDigit (isDigit_decimal _ c front)).1
      · rcases List.mem_cons.mp rest with rfl | behind
        · decide
        · exact (PythonText.plain_of_isDigit (isDigit_lastDigits _ _ c behind)).1
    | infinite negative => exact (by decide : PythonText.Word "inf".toList).plain
    | nan negative => exact (by decide : PythonText.Word "nan".toList).plain
  obtain ⟨first, rest, spelled, -⟩ := number.magnitude_starts decimals
  refine ⟨fun empty => ?_, fun c member => ?_⟩
  · rw [text, spelled, List.append_eq_nil_iff] at empty
    cases empty.2
  · rcases List.mem_append.mp member with front | behind
    · split at front
      · rw [List.mem_singleton.mp front]
        decide
      · cases front
    · exact plain c behind

/-- `float` reads a rounded float back. -/
theorem readFloat_text (decimals : Nat) (number : FixedFloat) :
    PythonText.readFloat (number.text decimals) = some (number.value decimals) := by
  cases number with
  | finite negative units =>
    rw [text, magnitude, isNegative, PythonText.readFloat_point negative (decimal_ne_nil _)
      (isDigit_decimal _) (isDigit_lastDigits decimals units), ofDigitChars_fixed,
      length_lastDigits]
    rfl
  | infinite negative => cases negative <;> rfl
  | nan negative => cases negative <;> rfl

/-- Rounded floats with the same text are the same. -/
theorem text_injective (decimals : Nat) : Function.Injective (text decimals) := by
  intro first second same
  have signed := congrArg PythonText.splitSign same
  rw [splitSign_text, splitSign_text] at signed
  obtain ⟨signs, magnitudes⟩ := Prod.mk.inj signed
  have pointed : ∀ {negative : Bool} {units : Nat} {word : List Char},
      (finite negative units).magnitude decimals = word → '.' ∈ word :=
    fun spelled => spelled ▸ List.mem_append_right _ List.mem_cons_self
  -- without the point the digits are those of the units
  have unitsOf : ∀ negative units,
      Nat.ofDigitChars 10 (((finite negative units).magnitude decimals).filter Char.isDigit) 0 =
        units := by
    intro negative units
    rw [magnitude, List.filter_append, List.filter_cons_of_neg (by decide),
      List.filter_eq_self.mpr (isDigit_decimal _),
      List.filter_eq_self.mpr (isDigit_lastDigits _ _), ofDigitChars_fixed]
  cases first with
  | finite negative units =>
    cases second with
    | finite otherNegative otherUnits =>
      have equal := unitsOf negative units
      rw [magnitudes, unitsOf] at equal
      obtain rfl : negative = otherNegative := signs
      rw [equal]
    | infinite otherNegative =>
      exact absurd (pointed magnitudes) (by decide : '.' ∉ "inf".toList)
    | nan otherNegative =>
      exact absurd (pointed magnitudes) (by decide : '.' ∉ "nan".toList)
  | infinite negative =>
    cases second with
    | finite otherNegative otherUnits =>
      exact absurd (pointed magnitudes.symm) (by decide : '.' ∉ "inf".toList)
    | infinite otherNegative => exact congrArg infinite signs
    | nan otherNegative => exact absurd magnitudes (by decide : "inf".toList ≠ "nan".toList)
  | nan negative =>
    cases second with
    | finite otherNegative otherUnits =>
      exact absurd (pointed magnitudes.symm) (by decide : '.' ∉ "nan".toList)
    | infinite otherNegative =>
      exact absurd magnitudes (by decide : "nan".toList ≠ "inf".toList)
    | nan otherNegative => exact congrArg nan signs

end FixedFloat

/-! ### The words of a message -/

theorem word_transponderSystemName (transponderType : TransponderSystem) :
    PythonText.Word (transponderSystemName transponderType) := by
  cases transponderType <;> decide

theorem transponderSystemName_injective : Function.Injective transponderSystemName := by
  intro first second same
  cases first <;> cases second <;> first | rfl | exact absurd same (by decide)

namespace DecoderMessage

/-- Every part of a message is a word of its own. -/
theorem word_words (message : DecoderMessage) :
    ∀ word ∈ message.words, PythonText.Word word := by
  cases message <;>
    simp only [words, List.forall_mem_cons, List.not_mem_nil, false_implies, implies_true,
      and_true, true_and, word_decimal, FixedFloat.word_text, word_transponderSystemName] <;>
    decide

/-- A subscriber that splits a message at white space finds its words. -/
theorem split_text (message : DecoderMessage) :
    PythonText.split message.text = message.words :=
  PythonText.split_joined message.word_words

/-- So does one that splits it at every blank. -/
theorem splitOn_text (message : DecoderMessage) : message.text.splitOn ' ' = message.words := by
  have nonempty : message.words ≠ [] := by cases message <;> exact List.cons_ne_nil _ _
  refine List.splitOn_intercalate ' ' (fun word member blank => ?_) nonempty
  exact absurd ((message.word_words word member).plain ' ' blank) (by decide)

theorem strip_text (message : DecoderMessage) : PythonText.strip message.text = message.text :=
  PythonText.strip_joined message.word_words

/-- Messages of the same words are the same: of two kinds they differ in the first word or, when
they are about learning, in the number of words or in the third one. -/
theorem words_injective : Function.Injective words := by
  intro first second same
  cases first <;> cases second <;>
    simp only [words, List.cons.injEq, List.cons_ne_nil, List.nil_eq, and_false, and_true, true_and,
      String.toList_inj, decimal_injective.eq_iff, UInt64.toNat_inj, UInt32.toNat_inj,
      (FixedFloat.text_injective _).eq_iff, transponderSystemName_injective.eq_iff, status.injEq,
      timesync.injEq, passing.injEq, start.injEq, interrupted.injEq, done.injEq,
      reset.injEq] at same ⊢ <;>
    first | exact same | exact absurd same.1 (by decide) | exact absurd same.2 (by decide)

end DecoderMessage

/-- No two messages have the same text. -/
theorem messages_unambiguous : Function.Injective DecoderMessage.text := by
  intro first second same
  exact DecoderMessage.words_injective
    (PythonText.joined_injective first.word_words second.word_words same)

end OpenStint
