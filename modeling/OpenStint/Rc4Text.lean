/-
This file proves that `rc4.cpp` reads what it writes. The name of a transponder's file is
read back as its id, and the lines `store` appends, one of 16 hexadecimal digits for each
payload, as the payloads.
-/

import Mathlib.Tactic.Ring
import OpenStint.Rc4File

namespace OpenStint

/-! ### Names -/

theorem digitValue_of_isDigit {c : Char} (digit : c.isDigit = true) :
    digitValue 10 c = some (c.toNat - '0'.toNat) := by
  obtain ⟨above, below⟩ := Char.isDigit_iff_toNat.mp digit
  have range : '0' ≤ c ∧ c ≤ '9' := ⟨above, below⟩
  unfold digitValue
  dsimp only
  rw [if_pos range, if_pos]
  change c.toNat ≤ 57 at below
  change c.toNat - 48 < 10
  omega

/-- A decimal digit is no blank, no sign and no dot. -/
theorem plain_of_isDigit {c : Char} (digit : c.isDigit = true) :
    isSpace c = false ∧ c ≠ '-' ∧ c ≠ '+' ∧ c ≠ '.' := by
  obtain ⟨above, -⟩ := Char.isDigit_iff_toNat.mp digit
  change 48 ≤ c.toNat at above
  refine ⟨?_, ?_, ?_, ?_⟩
  · rw [isSpace, Bool.or_eq_false_iff, Bool.and_eq_false_iff, decide_eq_false_iff_not,
      decide_eq_false_iff_not, decide_eq_false_iff_not]
    refine ⟨?_, Or.inr (by omega)⟩
    rintro rfl
    exact absurd above (by decide)
  all_goals
    rintro rfl
    exact absurd above (by decide)

theorem leadingDigits_decimal {text : List Char} (digits : ∀ c ∈ text, c.isDigit = true) :
    leadingDigits 10 text = text.map fun c => c.toNat - '0'.toNat := by
  induction text with
  | nil => rfl
  | cons c rest inductionHypothesis =>
    rw [leadingDigits, digitValue_of_isDigit (digits c List.mem_cons_self), List.map_cons,
      inductionHypothesis fun c member => digits c (List.mem_cons_of_mem _ member)]

theorem valueOfDigits_decimal (text : List Char) :
    valueOfDigits 10 (text.map fun c => c.toNat - '0'.toNat) = Nat.ofDigitChars 10 text 0 := by
  rw [valueOfDigits, List.foldl_map, Nat.ofDigitChars_eq_foldl]
  simp only [Nat.mul_comm]

theorem isDigit_toDigits (n : Nat) : ∀ c ∈ Nat.toDigits 10 n, c.isDigit = true :=
  fun _ member => Nat.isDigit_of_mem_toDigits (by decide) (by decide) member

/-- `std::stoul` reads a decimal number back. -/
theorem stoull_toDigits {n : Nat} (bound : n < 2 ^ 64) :
    stoull 10 (Nat.toDigits 10 n) = some (.ofNat n) := by
  have digits := isDigit_toDigits n
  have value : valueOfDigits 10 (leadingDigits 10 (Nat.toDigits 10 n)) = n := by
    rw [leadingDigits_decimal digits, valueOfDigits_decimal, Nat.ofDigitChars_ten_toDigits]
  have nonempty : leadingDigits 10 (Nat.toDigits 10 n) ≠ [] := by
    rw [leadingDigits_decimal digits, ne_eq, List.map_eq_nil_iff]
    exact Nat.toDigits_ne_nil
  obtain ⟨first, rest, spelled⟩ :=
    List.exists_cons_of_ne_nil (Nat.toDigits_ne_nil (n := n) (b := 10))
  rw [spelled] at digits value nonempty ⊢
  obtain ⟨blank, minus, plus, -⟩ := plain_of_isDigit (digits first List.mem_cons_self)
  have noPrefix : skipHexPrefix 10 (first :: rest) = first :: rest := by
    unfold skipHexPrefix
    split
    · rename_i same
      rw [if_neg fun skip => absurd skip.1 (by decide), same]
    · rfl
  rw [stoull_of_plain blank minus plus noPrefix nonempty (by rwa [value]), value]

/-- The stem and the extension of a file name. -/
theorem splitExtension_stem {stem : List Char} (nonempty : stem ≠ []) :
    splitExtension (stem ++ ".rc4".toList) = (stem, ".rc4".toList) := by
  have long : 0 < stem.length := List.length_pos_iff.mpr nonempty
  have tail : (((stem ++ ".rc4".toList).reverse.takeWhile (· ≠ '.')).reverse) = "rc4".toList := by
    rw [List.reverse_append, show ".rc4".toList.reverse = ['4', 'c', 'r', '.'] by decide]
    rfl
  have size : (stem ++ ".rc4".toList).length = stem.length + 4 := List.length_append
  have front : stem.length + 4 - ("rc4".toList.length + 1) = stem.length := rfl
  rw [splitExtension, tail, size, if_neg, front, List.take_left]
  · rfl
  · rintro (short | dots)
    · change stem.length + 4 ≤ 4 at short
      omega
    · rw [dots] at size
      change 2 = stem.length + 4 at size
      omega

/-- The file of a transponder carries its id. -/
theorem fileId_fileName (transponderId : UInt32) (content : List Char) :
    fileId { isRegularFile := true, name := fileName transponderId, content } =
      some transponderId := by
  have digits : (Nat.toDigits 10 transponderId.toNat).all Char.isDigit = true :=
    List.all_eq_true.mpr (isDigit_toDigits transponderId.toNat)
  have small : transponderId.toNat < 2 ^ 64 := transponderId.toNat_lt.trans (by decide)
  have stem : ¬ (Nat.toDigits 10 transponderId.toNat = [] ∨
      ¬ (Nat.toDigits 10 transponderId.toNat).all Char.isDigit = true) :=
    fun none => none.elim Nat.toDigits_ne_nil fun other => other digits
  rw [fileId, fileName, splitExtension_stem Nat.toDigits_ne_nil]
  dsimp only
  rw [Bool.not_true, if_neg Bool.false_ne_true, if_neg (fun different => different rfl),
    if_neg stem, stoull_toDigits small, Option.map_some, Option.some_inj]
  apply UInt32.toNat_inj.mp
  rw [UInt64.toNat_toUInt32, UInt64.toNat_ofNat_of_lt' small]
  exact Nat.mod_eq_of_lt transponderId.toNat_lt

theorem fileName_injective : Function.Injective fileName := by
  intro first second same
  have ids := fileId_fileName first []
  rw [same, fileId_fileName second []] at ids
  exact (Option.some.inj ids).symm

/-! ### Lines -/

theorem digitValue_hexChar : ∀ nibble < 16, digitValue 16 (hexChar nibble) = some nibble := by
  decide

theorem length_hexLine (payload : UInt64) : (hexLine payload).length = 16 := by
  rw [hexLine, List.length_map, List.length_range]

theorem hexDigits_hexLine (payload : UInt64) : HexDigits (hexLine payload) := by
  intro c member
  obtain ⟨i, -, rfl⟩ := List.mem_map.mp member
  rw [digitValue_hexChar _ (Nat.mod_lt _ (by decide))]
  rfl

/-- The digits of a number, most significant first, stand for its remainder. -/
theorem valueOfDigits_range (base count n : Nat) :
    valueOfDigits base ((List.range count).map fun i => n / base ^ (count - 1 - i) % base) =
      n % base ^ count := by
  induction count generalizing n with
  | zero => simp [valueOfDigits, Nat.mod_one]
  | succ count inductionHypothesis =>
    have front : ((List.range count).map fun i => n / base ^ (count + 1 - 1 - i) % base) =
        (List.range count).map fun i => n / base / base ^ (count - 1 - i) % base := by
      refine List.map_congr_left fun i member => ?_
      have below := List.mem_range.mp member
      rw [Nat.div_div_eq_div_mul, ← Nat.pow_succ',
        show count + 1 - 1 - i = (count - 1 - i).succ by omega]
    rw [List.range_succ, List.map_append, valueOfDigits, List.foldl_append, ← valueOfDigits, front,
      inductionHypothesis, List.map_singleton, List.foldl_cons, List.foldl_nil,
      show count + 1 - 1 - count = 0 by omega, Nat.pow_zero, Nat.div_one, Nat.pow_succ',
      Nat.mod_mul]
    ring

theorem hexValue_hexLine (payload : UInt64) : hexValue (hexLine payload) = payload.toNat := by
  have digits : ((hexLine payload).map fun c => (digitValue 16 c).getD 0) =
      (List.range 16).map fun i => payload.toNat / 16 ^ (16 - 1 - i) % 16 := by
    rw [hexLine, List.map_map]
    refine List.map_congr_left fun i _ => ?_
    rw [Function.comp, digitValue_hexChar _ (Nat.mod_lt _ (by decide)), Option.getD_some]
  rw [hexValue, digits, valueOfDigits_range]
  exact Nat.mod_eq_of_lt payload.toNat_lt

theorem stripCr_hexLine (payload : UInt64) : stripCr (hexLine payload) = hexLine payload := by
  rw [stripCr, if_neg]
  intro last
  have digit := hexDigits_hexLine payload _ (List.mem_of_getLast? last)
  exact absurd digit (by decide)

theorem linePayload_hexLine (payload : UInt64) : linePayload (hexLine payload) = some payload := by
  rw [linePayload, stripCr_hexLine, if_pos (length_hexLine payload),
    stoull_hex (length_hexLine payload) (hexDigits_hexLine payload), hexValue_hexLine,
    UInt64.ofNat_toNat]

theorem getLines_line {line : List Char} (plain : '\n' ∉ line) (rest : List Char) :
    getLines (line ++ '\n' :: rest) = line :: getLines rest := by
  induction line with
  | nil => rfl
  | cons c line inductionHypothesis =>
    rw [List.mem_cons, not_or] at plain
    rw [List.cons_append, getLines, inductionHypothesis plain.2]
    exact fun newline => plain.1 newline.symm

/-- The text `store` appends to the file of a transponder. -/
def writtenLines (rc4Payloads : List UInt64) : List Char :=
  rc4Payloads.flatMap fun p => hexLine p ++ ['\n']

/-- The lines that were written are read back. -/
theorem filePayloads_written (rc4Payloads : List UInt64) :
    filePayloads (writtenLines rc4Payloads) = rc4Payloads := by
  induction rc4Payloads with
  | nil => rfl
  | cons payload rest inductionHypothesis =>
    have plain : '\n' ∉ hexLine payload := fun newline =>
      absurd (hexDigits_hexLine payload _ newline) (by decide)
    rw [filePayloads] at inductionHypothesis
    rw [writtenLines, List.flatMap_cons, List.append_assoc, List.singleton_append, filePayloads,
      getLines_line plain, List.filterMap_cons_some (linePayload_hexLine payload), ← writtenLines,
      inductionHypothesis]

end OpenStint
