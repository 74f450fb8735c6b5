/-
This file is about text as Python programs read it: `str.strip` and `str.split`, which go by
white space, and `int` and `float` of a text. A text is the list of its characters. The only
digits are those of ASCII, and a float is the exact decimal number its text spells.

Words without white space that are joined by blanks are what `split` finds again, and a
decimal number is read back from its digits.
-/

import Mathlib.Algebra.Field.Rat
import Mathlib.Algebra.GroupWithZero.Basic
import Mathlib.Data.List.TakeWhile
import Mathlib.Tactic.NormNum

namespace PythonText

/-! ### White space -/

/-- `str.isspace` of one character. -/
def isSpace (c : Char) : Bool :=
  let code := c.toNat
  (0x09 ≤ code && code ≤ 0x0d) || (0x1c ≤ code && code ≤ 0x20) || code = 0x85 || code = 0xa0 ||
    code = 0x1680 || (0x2000 ≤ code && code ≤ 0x200a) || code = 0x2028 || code = 0x2029 ||
    code = 0x202f || code = 0x205f || code = 0x3000

/-- `str.strip`. -/
def strip (text : List Char) : List Char :=
  ((text.dropWhile isSpace).reverse.dropWhile isSpace).reverse

/-- `str.split` without an argument: the words between white space. -/
def split (text : List Char) : List (List Char) :=
  (text.splitOnP isSpace).filter (· ≠ [])

/-- `str.startswith`. -/
def startsWith (text front : List Char) : Bool := front.isPrefixOf text

/-- A word that `split` leaves whole. -/
structure Word (word : List Char) : Prop where
  nonempty : word ≠ []
  plain : ∀ c ∈ word, isSpace c = false

instance (word : List Char) : Decidable (Word word) :=
  decidable_of_iff (word ≠ [] ∧ (word.all fun c => !isSpace c) = true)
    ⟨fun ⟨nonempty, plain⟩ => ⟨nonempty, by simpa using plain⟩,
      fun isWord => ⟨isWord.nonempty, by simpa using isWord.plain⟩⟩

/-- Words in a line, with one blank between them. -/
def joined (words : List (List Char)) : List Char := List.intercalate [' '] words

theorem split_cons {word : List Char} (isWord : Word word) (text : List Char) :
    split (word ++ ' ' :: text) = word :: split text := by
  rw [split, List.splitOnP_append_cons_of_forall_mem isWord.plain ' ' (by decide),
    List.filter_cons_of_pos (by simpa using isWord.nonempty), ← split]

theorem split_word {word : List Char} (isWord : Word word) : split word = [word] := by
  rw [split, List.splitOnP_eq_singleton isWord.plain,
    List.filter_cons_of_pos (by simpa using isWord.nonempty), List.filter_nil]

theorem joined_cons (word next : List Char) (rest : List (List Char)) :
    joined (word :: next :: rest) = word ++ ' ' :: joined (next :: rest) := by
  rw [joined, List.intercalate_cons_cons, ← joined, List.append_assoc, List.singleton_append]

/-- Joined words are found again. -/
theorem split_joined {words : List (List Char)} (areWords : ∀ word ∈ words, Word word) :
    split (joined words) = words := by
  induction words with
  | nil => rfl
  | cons word rest inductionHypothesis =>
    have isWord := areWords word List.mem_cons_self
    have others := inductionHypothesis fun other member =>
      areWords other (List.mem_cons_of_mem _ member)
    cases rest with
    | nil =>
      rw [joined, List.intercalate_singleton]
      exact split_word isWord
    | cons next rest => rw [joined_cons, split_cons isWord, others]

theorem dropWhile_of_word {word : List Char} (isWord : Word word) (rest : List Char) :
    (word ++ rest).dropWhile isSpace = word ++ rest := by
  obtain ⟨first, tail, rfl⟩ := List.exists_cons_of_ne_nil isWord.nonempty
  have plain := isWord.plain first List.mem_cons_self
  rw [List.cons_append, List.dropWhile_cons_of_neg (by rw [plain]; exact Bool.false_ne_true)]

theorem Word.reverse {word : List Char} (isWord : Word word) : Word word.reverse where
  nonempty := fun empty => isWord.nonempty (List.reverse_eq_nil_iff.mp empty)
  plain := fun c member => isWord.plain c (List.mem_reverse.mp member)

/-- A text between two words has no white space to strip. -/
theorem strip_of_words {first last : List Char} (isFirst : Word first) (isLast : Word last)
    {text : List Char} (starts : first <+: text) (ends : last <:+ text) : strip text = text := by
  obtain ⟨behind, rfl⟩ := starts
  obtain ⟨before, same⟩ := ends
  rw [strip, dropWhile_of_word isFirst, ← same, List.reverse_append,
    dropWhile_of_word isLast.reverse, ← List.reverse_append, List.reverse_reverse]

theorem prefix_joined (word : List Char) (rest : List (List Char)) :
    word <+: joined (word :: rest) := by
  cases rest with
  | nil =>
    have single : joined [word] = word := List.intercalate_singleton
    exact single.symm ▸ List.prefix_rfl
  | cons next rest =>
    rw [joined_cons]
    exact List.prefix_append _ _

theorem suffix_joined {word : List Char} {words : List (List Char)}
    (last : words.getLast? = some word) : word <:+ joined words := by
  induction words with
  | nil => cases last
  | cons first rest inductionHypothesis =>
    cases rest with
    | nil =>
      rw [List.getLast?_singleton, Option.some_inj] at last
      have single : joined [first] = first := List.intercalate_singleton
      exact single.symm ▸ last ▸ List.suffix_rfl
    | cons next rest =>
      rw [List.getLast?_cons_cons] at last
      rw [joined_cons]
      exact (inductionHypothesis last).trans
        ((List.suffix_cons _ _).trans (List.suffix_append _ _))

/-- Joined words have no white space around them. -/
theorem strip_joined {words : List (List Char)} (areWords : ∀ word ∈ words, Word word) :
    strip (joined words) = joined words := by
  cases words with
  | nil => rfl
  | cons first rest =>
    obtain ⟨last, found⟩ : ∃ last, (first :: rest).getLast? = some last :=
      ⟨_, List.getLast?_eq_some_getLast (List.cons_ne_nil first rest)⟩
    exact strip_of_words (areWords first List.mem_cons_self)
      (areWords last (List.mem_of_getLast? found)) (prefix_joined first rest)
      (suffix_joined found)

/-- Lines of words that are the same are lines of the same words. -/
theorem joined_injective {first second : List (List Char)} (firstWords : ∀ word ∈ first, Word word)
    (secondWords : ∀ word ∈ second, Word word) (same : joined first = joined second) :
    first = second := by
  rw [← split_joined firstWords, same, split_joined secondWords]

/-! ### Whole numbers -/

/-- The sign of a number and what follows it. -/
def splitSign : List Char → Bool × List Char
  | '-' :: rest => (true, rest)
  | '+' :: rest => (false, rest)
  | text => (false, text)

/-- The digits behind a first one; one underscore may stand between two digits. -/
def digitsAfter : List Char → Option (List Char)
  | [] => some []
  | '_' :: digit :: rest =>
    if digit.isDigit then (digitsAfter rest).map (digit :: ·) else none
  | digit :: rest => if digit.isDigit then (digitsAfter rest).map (digit :: ·) else none

/-- The digits of a text that is nothing else. -/
def digits : List Char → Option (List Char)
  | [] => none
  | digit :: rest => if digit.isDigit then (digitsAfter rest).map (digit :: ·) else none

/-- `int` of a text; `none` is a `ValueError`. -/
def readInt (text : List Char) : Option Int :=
  let (negative, text) := splitSign (strip text)
  (digits text).map fun found =>
    let value : Int := Nat.ofDigitChars 10 found 0
    if negative then -value else value

theorem not_underscore_of_isDigit {c : Char} (digit : c.isDigit = true) : c ≠ '_' := by
  rintro rfl
  exact absurd digit (by decide)

theorem digitsAfter_of_isDigit {text : List Char} (allDigits : ∀ c ∈ text, c.isDigit = true) :
    digitsAfter text = some text := by
  induction text with
  | nil => rfl
  | cons c rest inductionHypothesis =>
    have digit := allDigits c List.mem_cons_self
    have others := inductionHypothesis fun other member =>
      allDigits other (List.mem_cons_of_mem _ member)
    unfold digitsAfter
    split
    · rename_i same
      cases same
    · rename_i same
      exact absurd (List.cons.inj same).1 (not_underscore_of_isDigit digit)
    · rename_i same
      obtain ⟨rfl, rfl⟩ := List.cons.inj same
      rw [if_pos digit, others, Option.map_some]

theorem digits_of_isDigit {text : List Char} (nonempty : text ≠ [])
    (allDigits : ∀ c ∈ text, c.isDigit = true) : digits text = some text := by
  obtain ⟨first, rest, rfl⟩ := List.exists_cons_of_ne_nil nonempty
  rw [digits, if_pos (allDigits first List.mem_cons_self),
    digitsAfter_of_isDigit fun c member => allDigits c (List.mem_cons_of_mem _ member),
    Option.map_some]

/-- A digit is no white space and no sign. -/
theorem plain_of_isDigit {c : Char} (digit : c.isDigit = true) :
    isSpace c = false ∧ c ≠ '-' ∧ c ≠ '+' := by
  obtain ⟨above, below⟩ := Char.isDigit_iff_toNat.mp digit
  refine ⟨?_, ?_, ?_⟩
  · unfold isSpace
    dsimp only
    generalize c.toNat = code at above below
    change 48 ≤ code at above
    change code ≤ 57 at below
    simp only [Bool.or_eq_false_iff, Bool.and_eq_false_iff, decide_eq_false_iff_not]
    omega
  · rintro rfl
    exact absurd digit (by decide)
  · rintro rfl
    exact absurd digit (by decide)

theorem word_of_isDigit {text : List Char} (nonempty : text ≠ [])
    (allDigits : ∀ c ∈ text, c.isDigit = true) : Word text where
  nonempty := nonempty
  plain := fun c member => (plain_of_isDigit (allDigits c member)).1

theorem strip_word {word : List Char} (isWord : Word word) : strip word = word :=
  strip_of_words isWord isWord List.prefix_rfl List.suffix_rfl

theorem splitSign_of_ne {first : Char} {rest : List Char} (minus : first ≠ '-')
    (plus : first ≠ '+') : splitSign (first :: rest) = (false, first :: rest) := by
  unfold splitSign
  split
  · rename_i same
    exact absurd (List.cons.inj same).1 minus
  · rename_i same
    exact absurd (List.cons.inj same).1 plus
  · rfl

theorem splitSign_of_isDigit {text : List Char} (allDigits : ∀ c ∈ text, c.isDigit = true) :
    splitSign text = (false, text) := by
  cases text with
  | nil => rfl
  | cons first rest =>
    obtain ⟨-, minus, plus⟩ := plain_of_isDigit (allDigits first List.mem_cons_self)
    exact splitSign_of_ne minus plus

theorem isDigit_toDigits (n : Nat) : ∀ c ∈ Nat.toDigits 10 n, c.isDigit = true :=
  fun _ member => Nat.isDigit_of_mem_toDigits (by decide) (by decide) member

theorem word_toDigits (n : Nat) : Word (Nat.toDigits 10 n) :=
  word_of_isDigit Nat.toDigits_ne_nil (isDigit_toDigits n)

/-- `int` reads a decimal number back. -/
theorem readInt_toDigits (n : Nat) : readInt (Nat.toDigits 10 n) = some (n : Int) := by
  rw [readInt, strip_word (word_toDigits n), splitSign_of_isDigit (isDigit_toDigits n)]
  dsimp only
  rw [digits_of_isDigit Nat.toDigits_ne_nil (isDigit_toDigits n), Option.map_some,
    Nat.ofDigitChars_ten_toDigits, if_neg Bool.false_ne_true]

/-! ### Floats -/

/-- What `float` of a text is. -/
inductive FloatValue
  | finite (value : ℚ)
  | infinite (negative : Bool)
  | nan
  deriving DecidableEq

/-- The digits of an optional part of a number: a missing part has none. -/
def optionalDigits (text : List Char) : Option (List Char) :=
  if text = [] then some [] else digits text

/-- The part before the first of some characters, and the part behind it if there is one. -/
def splitFirst (isMark : Char → Bool) (text : List Char) : List Char × Option (List Char) :=
  match text.dropWhile fun c => !isMark c with
  | [] => (text, none)
  | _ :: behind => (text.takeWhile fun c => !isMark c, some behind)

/-- `int` of an exponent. -/
def exponent (text : List Char) : Option Int :=
  let (negative, text) := splitSign text
  (digits text).map fun found =>
    let value : Int := Nat.ofDigitChars 10 found 0
    if negative then -value else value

/-- The value of a number without a sign: digits with a point among them or none, and an
exponent or none. -/
def unsignedFloat (text : List Char) : Option ℚ := do
  let (mantissa, scale) := splitFirst (fun c => c = 'e' || c = 'E') text
  let (whole, fraction) := splitFirst (· = '.') mantissa
  let whole ← optionalDigits whole
  let fraction ← optionalDigits (fraction.getD [])
  let scale ← match scale with
    | none => some 0
    | some text => exponent text
  if whole = [] ∧ fraction = [] then none
  else
    let value : ℚ := (Nat.ofDigitChars 10 (whole ++ fraction) 0 : Nat)
    return value * (10 : ℚ) ^ (scale - fraction.length)

/-- `float` of a text; `none` is a `ValueError`. The number is the decimal that is written: it is
not rounded to a double, which holds every whole number up to `2 ^ 53`. -/
def readFloat (text : List Char) : Option FloatValue :=
  let (negative, text) := splitSign (strip text)
  let lower := text.map Char.toLower
  if lower = "inf".toList ∨ lower = "infinity".toList then some (.infinite negative)
  else if lower = "nan".toList then some .nan
  else (unsignedFloat text).map fun value => .finite (if negative then -value else value)

theorem splitFirst_found {isMark : Char → Bool} {before : List Char}
    (plain : ∀ c ∈ before, isMark c = false) {mark : Char} (isMarked : isMark mark = true)
    (behind : List Char) :
    splitFirst isMark (before ++ mark :: behind) = (before, some behind) := by
  have skips : ∀ c ∈ before, (!isMark c) = true := fun c member => by rw [plain c member]; rfl
  have stops : ¬ (!isMark mark) = true := by rw [isMarked]; exact Bool.false_ne_true
  have dropped : (before ++ mark :: behind).dropWhile (fun c => !isMark c) = mark :: behind :=
    (List.dropWhile_append_of_pos skips).trans (List.dropWhile_cons_of_neg stops)
  have taken : (before ++ mark :: behind).takeWhile (fun c => !isMark c) = before := by
    rw [List.takeWhile_append_of_pos skips,
      List.takeWhile_cons_of_neg (p := fun c => !isMark c) stops, List.append_nil]
  rw [splitFirst, dropped, taken]

theorem splitFirst_absent {isMark : Char → Bool} {text : List Char}
    (plain : ∀ c ∈ text, isMark c = false) : splitFirst isMark text = (text, none) := by
  have dropped : text.dropWhile (fun c => !isMark c) = [] := by
    rw [List.dropWhile_eq_nil_iff]
    exact fun c member => by rw [plain c member]; rfl
  rw [splitFirst, dropped]

theorem optionalDigits_of_isDigit {text : List Char} (allDigits : ∀ c ∈ text, c.isDigit = true) :
    optionalDigits text = some text := by
  unfold optionalDigits
  split
  · rename_i empty
    rw [empty]
  · rename_i nonempty
    exact digits_of_isDigit nonempty allDigits

theorem isDigit_ne {c : Char} (digit : c.isDigit = true) {other : Char}
    (notDigit : other.isDigit = false) : c ≠ other := by
  rintro rfl
  rw [digit] at notDigit
  cases notDigit

/-- A number with a point, and digits on both sides of it or before it alone. -/
theorem unsignedFloat_point {whole fraction : List Char} (nonempty : whole ≠ [])
    (wholeDigits : ∀ c ∈ whole, c.isDigit = true)
    (fractionDigits : ∀ c ∈ fraction, c.isDigit = true) :
    unsignedFloat (whole ++ '.' :: fraction) =
      some ((Nat.ofDigitChars 10 (whole ++ fraction) 0 : Nat) *
        (10 : ℚ) ^ (-fraction.length : Int)) := by
  have noExponent : ∀ c ∈ whole ++ '.' :: fraction,
      (decide (c = 'e') || decide (c = 'E')) = false := by
    intro c member
    rw [Bool.or_eq_false_iff, decide_eq_false_iff_not, decide_eq_false_iff_not]
    rcases List.mem_append.mp member with front | rest
    · exact ⟨isDigit_ne (wholeDigits c front) (by decide),
        isDigit_ne (wholeDigits c front) (by decide)⟩
    · rcases List.mem_cons.mp rest with rfl | behind
      · decide
      · exact ⟨isDigit_ne (fractionDigits c behind) (by decide),
          isDigit_ne (fractionDigits c behind) (by decide)⟩
  have noPoint : ∀ c ∈ whole, decide (c = '.') = false := fun c member =>
    decide_eq_false (isDigit_ne (wholeDigits c member) (by decide))
  rw [unsignedFloat, splitFirst_absent noExponent]
  dsimp only
  rw [splitFirst_found noPoint (by decide)]
  dsimp only
  rw [optionalDigits_of_isDigit wholeDigits, Option.getD_some,
    optionalDigits_of_isDigit fractionDigits]
  simp only [Option.bind_eq_bind, Option.bind_some]
  rw [if_neg fun empty => nonempty empty.1, zero_sub]
  rfl

theorem toLower_of_isDigit {c : Char} (digit : c.isDigit = true) : c.toLower = c := by
  obtain ⟨-, below⟩ := Char.isDigit_iff_toNat.mp digit
  refine dif_neg ?_
  rintro ⟨above, -⟩
  have capital : 65 ≤ c.toNat := above
  change c.toNat ≤ 57 at below
  omega

/-- `float` of a decimal number with a point, and a minus sign or none. -/
theorem readFloat_point (negative : Bool) {whole fraction : List Char} (nonempty : whole ≠ [])
    (wholeDigits : ∀ c ∈ whole, c.isDigit = true)
    (fractionDigits : ∀ c ∈ fraction, c.isDigit = true) :
    readFloat ((if negative then ['-'] else []) ++ (whole ++ '.' :: fraction)) =
      some (.finite
        (let value := (Nat.ofDigitChars 10 (whole ++ fraction) 0 : Nat) *
          (10 : ℚ) ^ (-fraction.length : Int)
        if negative then -value else value)) := by
  obtain ⟨first, rest, rfl⟩ := List.exists_cons_of_ne_nil nonempty
  have firstDigit := wholeDigits first List.mem_cons_self
  obtain ⟨-, minus, plus⟩ := plain_of_isDigit firstDigit
  have isWord : Word ((if negative then ['-'] else []) ++ (first :: rest ++ '.' :: fraction)) := by
    refine ⟨by simp, fun c member => ?_⟩
    rcases List.mem_append.mp member with sign | number
    · cases negative with
      | false => cases sign
      | true =>
        rw [List.mem_singleton.mp sign]
        decide
    · rcases List.mem_append.mp number with front | behind
      · exact (plain_of_isDigit (wholeDigits c front)).1
      · rcases List.mem_cons.mp behind with rfl | last
        · decide
        · exact (plain_of_isDigit (fractionDigits c last)).1
  have signed : splitSign ((if negative then ['-'] else []) ++ (first :: rest ++ '.' :: fraction)) =
      (negative, first :: rest ++ '.' :: fraction) := by
    cases negative with
    | true => rfl
    | false => exact splitSign_of_ne minus plus
  -- a number starts with a digit, so it is none of the three words
  have noWord : ∀ {initial : Char} {letters : List Char}, initial.isDigit = false →
      (first :: rest ++ '.' :: fraction).map Char.toLower ≠ initial :: letters := by
    intro initial letters letter same
    rw [List.cons_append, List.map_cons, toLower_of_isDigit firstDigit] at same
    exact isDigit_ne firstDigit letter (List.cons.inj same).1
  have notInfinite : ¬ ((first :: rest ++ '.' :: fraction).map Char.toLower = "inf".toList ∨
      (first :: rest ++ '.' :: fraction).map Char.toLower = "infinity".toList) :=
    fun word => word.elim (noWord (by decide)) (noWord (by decide))
  have notNan : (first :: rest ++ '.' :: fraction).map Char.toLower ≠ "nan".toList :=
    noWord (by decide)
  rw [readFloat, strip_word isWord, signed]
  dsimp only
  rw [if_neg notInfinite, if_neg notNan, unsignedFloat_point nonempty wholeDigits fractionDigits,
    Option.map_some]

/-- `float` reads a whole number as that number. -/
theorem readFloat_toDigits (n : Nat) : readFloat (Nat.toDigits 10 n) = some (.finite n) := by
  have allDigits := isDigit_toDigits n
  have plain : ∀ {isMark : Char → Bool}, (∀ c, c.isDigit = true → isMark c = false) →
      ∀ c ∈ Nat.toDigits 10 n, isMark c = false := fun unmarked c member =>
    unmarked c (allDigits c member)
  have noWord : ∀ {initial : Char} {letters : List Char}, initial.isDigit = false →
      (Nat.toDigits 10 n).map Char.toLower ≠ initial :: letters := by
    intro initial letters letter same
    obtain ⟨first, rest, spelled⟩ :=
      List.exists_cons_of_ne_nil (Nat.toDigits_ne_nil (n := n) (b := 10))
    have firstDigit := allDigits first (by rw [spelled]; exact List.mem_cons_self)
    rw [spelled, List.map_cons, toLower_of_isDigit firstDigit] at same
    exact isDigit_ne firstDigit letter (List.cons.inj same).1
  have notInfinite : ¬ ((Nat.toDigits 10 n).map Char.toLower = "inf".toList ∨
      (Nat.toDigits 10 n).map Char.toLower = "infinity".toList) :=
    fun word => word.elim (noWord (by decide)) (noWord (by decide))
  have notNan : (Nat.toDigits 10 n).map Char.toLower ≠ "nan".toList := noWord (by decide)
  have noExponent : ∀ c ∈ Nat.toDigits 10 n, (decide (c = 'e') || decide (c = 'E')) = false := by
    refine plain fun c digit => ?_
    rw [decide_eq_false (isDigit_ne digit (by decide)),
      decide_eq_false (isDigit_ne digit (by decide)), Bool.or_false]
  have noPoint : ∀ c ∈ Nat.toDigits 10 n, decide (c = '.') = false :=
    plain fun c digit => decide_eq_false (isDigit_ne digit (by decide))
  have value : unsignedFloat (Nat.toDigits 10 n) = some (n : ℚ) := by
    rw [unsignedFloat, splitFirst_absent noExponent]
    dsimp only
    rw [splitFirst_absent noPoint]
    dsimp only
    rw [optionalDigits_of_isDigit allDigits, Option.getD_none, optionalDigits, if_pos rfl]
    simp only [Option.bind_eq_bind, Option.bind_some]
    rw [if_neg fun empty => Nat.toDigits_ne_nil empty.1, List.append_nil,
      Nat.ofDigitChars_ten_toDigits, List.length_nil, Nat.cast_zero, sub_zero, zpow_zero, mul_one]
    rfl
  rw [readFloat, strip_word (word_toDigits n), splitSign_of_isDigit allDigits]
  dsimp only
  rw [if_neg notInfinite, if_neg notNan, value, Option.map_some, if_neg Bool.false_ne_true]

/-- `int` of a float: towards zero; `none` is an `OverflowError` or a `ValueError`. -/
def FloatValue.toInt : FloatValue → Option Int
  | .finite value => some (value.num.tdiv value.den)
  | .infinite _ => none
  | .nan => none

end PythonText
