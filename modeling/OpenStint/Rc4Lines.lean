/-
This file settles which lines the reader of `.rc4` files takes a payload from. A proper line
has 16 hexadecimal digits, or 28 that hold a valid message of the older format, and each
proper line gives its payload.

The reader checks the length of a line only; the digits are left to `std::stoull`, which
takes whatever starts with a number. So a line of 16 characters that starts with a number
gives that number, and in a line of 28 each pair of characters may be a digit and something
else, or a blank or a sign and a digit. A file is read as it should be if and only if no line
of it is misread in this way.
-/

import OpenStint.Rc4Registry

namespace OpenStint

/-! ### The format -/

/-- The payload a line stands for, without its carriage return. -/
def properPayload (line : List Char) : Option UInt64 :=
  if ¬ HexDigits line then none
  else if line.length = 16 then some (.ofNat (hexValue line))
  else if line.length = 28 then
    -- bits 5 to 104 of 112, the most significant one first
    let msg := rc4Message fun i => if (hexValue line).testBit (111 - (5 + i)) then 0xff else 0x00
    if msg.isValid then some (.ofBitVec msg.payload) else none
  else none

/-- A digit follows the blanks and the sign a text starts with. -/
def StartsNumber (text : List Char) : Prop :=
  ∃ c ∈ (splitSign (text.dropWhile isSpace)).2.head?, (digitValue 16 c).isSome

/-- The byte two characters are taken for: two digits, a digit and something else, or a
blank or a sign and a digit. -/
def pairByte (first second : Char) : Option UInt8 :=
  match digitValue 16 first, digitValue 16 second with
  | some high, some low => some (.ofNat (high * 16 + low))
  | some digit, none => some (.ofNat digit)
  | none, some digit =>
    if isSpace first ∨ first = '+' then some (.ofNat digit)
    else if first = '-' then some (-.ofNat digit)
    else none
  | none, none => none

/-- The bytes of the pairs of a line. -/
def pairBytes : List Char → Option (List UInt8)
  | first :: second :: rest => do return (← pairByte first second) :: (← pairBytes rest)
  | _ => some []

/-- A line that is not proper, and that a payload is taken from. -/
def Misread (line : List Char) : Prop :=
  ¬ HexDigits line ∧
    (line.length = 16 ∧ StartsNumber line ∨
      line.length = 28 ∧ ∃ bytes, pairBytes line = some bytes ∧
        (rc4Message (pilotSoftbit bytes)).isValid = true)

/-! ### Numbers in lines -/

theorem leadingDigits_eq_nil_iff {base : Nat} {text : List Char} :
    leadingDigits base text = [] ↔ ∀ c ∈ text.head?, digitValue base c = none := by
  cases text with
  | nil => simp [leadingDigits]
  | cons c rest =>
    rw [leadingDigits, List.head?_cons]
    cases found : digitValue base c with
    | none => simp [found]
    | some digit => simp [found]

theorem leadingDigits_lt {base : Nat} (text : List Char) :
    ∀ digit ∈ leadingDigits base text, digit < base := by
  induction text with
  | nil => simp [leadingDigits]
  | cons c rest inductionHypothesis =>
    rw [leadingDigits]
    cases found : digitValue base c with
    | none => simp
    | some digit =>
      rw [List.forall_mem_cons]
      exact ⟨digitValue_lt found, inductionHypothesis⟩

theorem length_leadingDigits (base : Nat) (text : List Char) :
    (leadingDigits base text).length ≤ text.length := by
  induction text with
  | nil => simp [leadingDigits]
  | cons c rest inductionHypothesis =>
    rw [leadingDigits]
    cases digitValue base c with
    | none => simp
    | some digit => simpa using inductionHypothesis

theorem skipHexPrefix_eq (base : Nat) (text : List Char) :
    skipHexPrefix base text = text ∨
      ∃ x digit rest, text = '0' :: x :: digit :: rest ∧ skipHexPrefix base text = digit :: rest ∧
        (digitValue base digit).isSome := by
  unfold skipHexPrefix
  split
  · rename_i x digit rest
    by_cases skip : base = 16 ∧ (x = 'x' ∨ x = 'X') ∧ (digitValue base digit).isSome
    · rw [if_pos skip]
      exact Or.inr ⟨x, digit, rest, rfl, rfl, skip.2.2⟩
    · rw [if_neg skip]
      exact Or.inl rfl
  · exact Or.inl rfl

/-- A prefix that is skipped starts with a digit itself. -/
theorem leadingDigits_skipHexPrefix (text : List Char) :
    leadingDigits 16 (skipHexPrefix 16 text) = [] ↔ leadingDigits 16 text = [] := by
  rcases skipHexPrefix_eq 16 text with same | ⟨x, digit, rest, rfl, skipped, found⟩
  · rw [same]
  · rw [skipped, leadingDigits_eq_nil_iff, leadingDigits_eq_nil_iff, List.head?_cons,
      List.head?_cons]
    have zero : digitValue 16 '0' = some 0 := by decide
    simp only [Option.mem_some_iff, forall_eq', zero, reduceCtorEq, iff_false]
    rintro none
    rw [none] at found
    cases found

theorem splitSign_sublist (text : List Char) : (splitSign text).2.Sublist text := by
  unfold splitSign
  split
  · exact List.sublist_cons_self _ _
  · exact List.sublist_cons_self _ _
  · exact List.Sublist.refl _

theorem number_sublist (text : List Char) :
    (splitSign (text.dropWhile isSpace)).2.Sublist text :=
  (splitSign_sublist _).trans (List.dropWhile_sublist _)

theorem length_skipHexPrefix (base : Nat) (text : List Char) :
    (skipHexPrefix base text).length ≤ text.length := by
  rcases skipHexPrefix_eq base text with same | ⟨x, digit, rest, rfl, skipped, -⟩
  · rw [same]
  · rw [skipped]
    simp only [List.length_cons]
    omega

/-- Up to 16 characters are no number that is too large. -/
theorem stoull_isSome_iff {text : List Char} (short : text.length ≤ 16) :
    (stoull 16 text).isSome ↔ StartsNumber text := by
  let number := (splitSign (text.dropWhile isSpace)).2
  have digits : (leadingDigits 16 (skipHexPrefix 16 number)).length ≤ 16 :=
    calc (leadingDigits 16 (skipHexPrefix 16 number)).length
        ≤ number.length := (length_leadingDigits 16 _).trans (length_skipHexPrefix 16 number)
      _ ≤ text.length := (number_sublist text).length_le
      _ ≤ 16 := short
  have bound : valueOfDigits 16 (leadingDigits 16 (skipHexPrefix 16 number)) < 2 ^ 64 :=
    (valueOfDigits_lt (leadingDigits_lt _)).trans_le (Nat.pow_le_pow_right (by decide) digits)
  have starts : leadingDigits 16 (skipHexPrefix 16 number) = [] ↔ ¬ StartsNumber text := by
    rw [leadingDigits_skipHexPrefix, leadingDigits_eq_nil_iff, StartsNumber]
    simp only [not_exists, not_and, Option.isSome_iff_ne_none, ne_eq, not_not]
    rfl
  rw [stoull]
  dsimp only
  by_cases none : leadingDigits 16 (skipHexPrefix 16 number) = []
  · rw [if_pos (Or.inl none)]
    simpa using starts.mp none
  · rw [if_neg (not_or.mpr ⟨none, bound.not_ge⟩)]
    rw [starts, not_not] at none
    split <;> simpa using none

/-- A number of at most two characters has no prefix and is not too large. -/
theorem stoull_of_split {text number : List Char} {negative : Bool}
    (sign : splitSign (text.dropWhile isSpace) = (negative, number)) (short : number.length ≤ 2) :
    (stoull 16 text).map UInt64.toUInt8 =
      if leadingDigits 16 number = [] then none
      else if negative then some (-.ofNat (valueOfDigits 16 (leadingDigits 16 number)))
      else some (.ofNat (valueOfDigits 16 (leadingDigits 16 number))) := by
  have noPrefix : skipHexPrefix 16 number = number := by
    rcases skipHexPrefix_eq 16 number with same | ⟨x, digit, rest, rfl, -⟩
    · exact same
    · simp at short
  have digits : (leadingDigits 16 number).length ≤ 16 :=
    (length_leadingDigits 16 number).trans (short.trans (by decide))
  have bound : valueOfDigits 16 (leadingDigits 16 number) < 2 ^ 64 :=
    (valueOfDigits_lt (leadingDigits_lt _)).trans_le (Nat.pow_le_pow_right (by decide) digits)
  rw [stoull, sign]
  dsimp only
  rw [noPrefix]
  by_cases none : leadingDigits 16 number = []
  · rw [if_pos (Or.inl none), if_pos none]
    rfl
  · rw [if_neg (not_or.mpr ⟨none, bound.not_ge⟩), if_neg none]
    cases negative <;> simp

theorem splitSign_of_plain {c : Char} (minus : c ≠ '-') (plus : c ≠ '+') (rest : List Char) :
    splitSign (c :: rest) = (false, c :: rest) := by
  unfold splitSign
  split
  · rename_i same
    exact absurd (List.cons.inj same).1 minus
  · rename_i same
    exact absurd (List.cons.inj same).1 plus
  · rfl

/-- A digit, and something that may go on with it. -/
theorem stoull_pair_first {first : Char} {digit : Nat} (high : digitValue 16 first = some digit)
    (second : Char) : (stoull 16 [first, second]).map UInt64.toUInt8 = pairByte first second := by
  obtain ⟨blank, minus, plus, -⟩ := plain_of_hex (Option.isSome_of_mem high)
  have sign : splitSign ([first, second].dropWhile isSpace) = (false, [first, second]) := by
    rw [List.dropWhile_cons_of_neg (by rw [blank]; decide), splitSign_of_plain minus plus]
  rw [pairByte, stoull_of_split sign (by simp)]
  cases low : digitValue 16 second <;> simp [leadingDigits, high, low, valueOfDigits]

/-- A digit behind something that may be skipped. -/
theorem stoull_pair_second {first second : Char} {digit : Nat}
    (high : digitValue 16 first = none) (low : digitValue 16 second = some digit) :
    (stoull 16 [first, second]).map UInt64.toUInt8 = pairByte first second := by
  obtain ⟨solid, minus, plus, -⟩ := plain_of_hex (Option.isSome_of_mem low)
  have last : leadingDigits 16 [second] = [digit] := by rw [leadingDigits, low]; rfl
  rw [pairByte, high, low]
  by_cases blank : isSpace first = true
  · have sign : splitSign ([first, second].dropWhile isSpace) = (false, [second]) := by
      rw [List.dropWhile_cons_of_pos blank, List.dropWhile_cons_of_neg (by rw [solid]; decide),
        splitSign_of_plain minus plus]
    rw [stoull_of_split sign (by simp), last]
    simp [blank, valueOfDigits]
  have kept : [first, second].dropWhile isSpace = [first, second] :=
    List.dropWhile_cons_of_neg blank
  by_cases negative : first = '-'
  · subst negative
    rw [stoull_of_split (kept ▸ rfl : splitSign _ = (true, [second])) (by simp), last]
    simp [blank, valueOfDigits]
  by_cases positive : first = '+'
  · subst positive
    rw [stoull_of_split (kept ▸ rfl : splitSign _ = (false, [second])) (by simp), last]
    simp [blank, valueOfDigits]
  · have none : leadingDigits 16 [first, second] = [] := by rw [leadingDigits, high]
    have sign : splitSign ([first, second].dropWhile isSpace) = (false, [first, second]) := by
      rw [kept, splitSign_of_plain negative positive]
    rw [stoull_of_split sign (by simp), none]
    simp [blank, negative, positive]

/-- `std::stoul` on two characters. -/
theorem stoull_pair (first second : Char) :
    (stoull 16 [first, second]).map UInt64.toUInt8 = pairByte first second := by
  cases high : digitValue 16 first with
  | some digit => exact stoull_pair_first high second
  | none =>
    cases low : digitValue 16 second with
    | some digit => exact stoull_pair_second high low
    | none =>
      have numberless : ¬ StartsNumber [first, second] := by
        rintro ⟨c, start, digit⟩
        have member := (number_sublist [first, second]).subset (List.mem_of_mem_head? start)
        rcases List.mem_cons.mp member with rfl | other
        · rw [high] at digit
          cases digit
        · rw [List.mem_singleton.mp other, low] at digit
          cases digit
      rw [← stoull_isSome_iff (by simp), Bool.not_eq_true, Option.isSome_eq_false_iff,
        Option.isNone_iff_eq_none] at numberless
      rw [numberless, pairByte, high, low]
      rfl

/-! ### Bits -/

theorem valueOfDigits_cons (base digit : Nat) (digits : List Nat) :
    valueOfDigits base (digit :: digits) =
      base ^ digits.length * digit + valueOfDigits base digits := by
  have started (start : Nat) : digits.foldl (fun value digit => value * base + digit) start =
      base ^ digits.length * start + valueOfDigits base digits := by
    induction digits generalizing start with
    | nil => simp [valueOfDigits]
    | cons next rest inductionHypothesis =>
      rw [valueOfDigits, List.foldl_cons, List.foldl_cons, inductionHypothesis,
        inductionHypothesis, List.length_cons, pow_succ]
      ring
  rw [valueOfDigits, List.foldl_cons, started]
  ring

/-- The bits of bytes, most significant first. -/
theorem testBit_valueOfDigits {bytes : List UInt8} {position : Nat}
    (inside : position < 8 * bytes.length) :
    (valueOfDigits 256 (bytes.map UInt8.toNat)).testBit (8 * bytes.length - 1 - position) =
      (bytes.getD (position / 8) 0).toNat.testBit (7 - position % 8) := by
  induction bytes generalizing position with
  | nil => exact absurd inside (Nat.not_lt_zero _)
  | cons byte rest inductionHypothesis =>
    have power : 256 ^ rest.length = 2 ^ (8 * rest.length) := (pow_mul 2 8 rest.length).symm
    have below : valueOfDigits 256 (rest.map UInt8.toNat) < 2 ^ (8 * rest.length) := by
      have digits : ∀ digit ∈ rest.map UInt8.toNat, digit < 256 := by
        intro digit member
        obtain ⟨other, -, rfl⟩ := List.mem_map.mp member
        exact other.toNat_lt
      have bound := valueOfDigits_lt digits
      rwa [List.length_map, power] at bound
    rw [List.length_cons] at inside
    rw [List.map_cons, valueOfDigits_cons, List.length_map, power,
      Nat.testBit_two_pow_mul_add _ below, List.length_cons]
    by_cases front : position < 8
    · have place : 8 * (rest.length + 1) - 1 - position - 8 * rest.length = 7 - position % 8 := by
        omega
      have index : position / 8 = 0 := by omega
      rw [if_neg (by omega), place, index, List.getD_cons_zero]
    · have place : 8 * (rest.length + 1) - 1 - position = 8 * rest.length - 1 - (position - 8) := by
        omega
      have index : position / 8 = (position - 8) / 8 + 1 := by omega
      have bit : position % 8 = (position - 8) % 8 := by omega
      rw [if_pos (by omega), place, index, bit, List.getD_cons_succ]
      exact inductionHypothesis (by omega)

/-- The softbits of the older format are the bits of its bytes. -/
theorem pilotSoftbit_eq {bytes : List UInt8} (length : bytes.length = 14) {i : Nat}
    (inside : i < 100) :
    pilotSoftbit bytes i =
      if (valueOfDigits 256 (bytes.map UInt8.toNat)).testBit (111 - (5 + i)) then 0xff
      else 0x00 := by
  have below : 5 + i < 8 * bytes.length := by omega
  have bit := testBit_valueOfDigits below
  rw [length] at bit
  have shift : (7 - UInt8.ofNat ((5 + i) % 8)).toNat = 7 - (5 + i) % 8 := by
    have small : (5 + i) % 8 < 8 := Nat.mod_lt _ (by decide)
    generalize (5 + i) % 8 = k at small
    interval_cases k <;> rfl
  have tested (byte : UInt8) : byte >>> (7 - .ofNat ((5 + i) % 8)) &&& 1 ≠ 0 ↔
      byte.toNat.testBit (7 - (5 + i) % 8) = true := by
    have within : (7 - (5 + i) % 8) % 8 = 7 - (5 + i) % 8 := by omega
    rw [ne_eq, ← UInt8.toNat_inj, UInt8.toNat_and, UInt8.toNat_shiftRight, shift, within,
      Nat.and_comm, Nat.testBit, bne_iff_ne]
    rfl
  rw [pilotSoftbit, bit]
  exact if_congr (tested _) rfl rfl

/-! ### Lines -/

theorem mapM_pairs {line : List Char} {count : Nat} (length : line.length = count * 2) :
    (List.range count).mapM (fun i =>
      (stoull 16 ((line.drop (i * 2)).take 2)).map UInt64.toUInt8) = pairBytes line := by
  induction count generalizing line with
  | zero =>
    obtain rfl := List.eq_nil_of_length_eq_zero (length.trans (Nat.zero_mul 2))
    rfl
  | succ count inductionHypothesis =>
    match line with
    | [] => simp at length
    | [_] => simp at length; omega
    | first :: second :: rest =>
      have size : rest.length = count * 2 := by
        simp only [List.length_cons] at length
        omega
      have later (i : Nat) : (first :: second :: rest).drop ((i + 1) * 2) = rest.drop (i * 2) := by
        rw [Nat.add_one_mul, List.drop_succ_cons, List.drop_succ_cons]
      rw [List.range_succ_eq_map, List.mapM_cons, List.mapM_map, Nat.zero_mul, List.drop_zero,
        pairBytes, ← inductionHypothesis size, ← stoull_pair]
      simp only [Function.comp_def, Nat.succ_eq_add_one, later]
      rfl

/-- The bytes of a line of digits hold its value. -/
theorem pairBytes_hex {line : List Char} {count : Nat} (length : line.length = count * 2)
    (digits : HexDigits line) :
    ∃ bytes, pairBytes line = some bytes ∧ bytes.length = count ∧
      valueOfDigits 256 (bytes.map UInt8.toNat) = hexValue line := by
  induction count generalizing line with
  | zero =>
    obtain rfl := List.eq_nil_of_length_eq_zero (length.trans (Nat.zero_mul 2))
    exact ⟨[], rfl, rfl, rfl⟩
  | succ count inductionHypothesis =>
    match line with
    | [] => simp at length
    | [_] => simp at length; omega
    | first :: second :: rest =>
      have size : rest.length = count * 2 := by
        simp only [List.length_cons] at length
        omega
      rw [HexDigits, List.forall_mem_cons, List.forall_mem_cons] at digits
      obtain ⟨firstDigit, secondDigit, restDigits⟩ := digits
      obtain ⟨high, foundHigh⟩ := Option.isSome_iff_exists.mp firstDigit
      obtain ⟨low, foundLow⟩ := Option.isSome_iff_exists.mp secondDigit
      obtain ⟨bytes, read, bytesLength, value⟩ := inductionHypothesis size restDigits
      have byte : (UInt8.ofNat (high * 16 + low)).toNat = high * 16 + low := by
        have highBelow := digitValue_lt foundHigh
        have lowBelow := digitValue_lt foundLow
        exact UInt8.toNat_ofNat_of_lt' (by change _ < 256; omega)
      have power : 16 ^ rest.length = 256 ^ count := by
        rw [size, Nat.mul_comm, pow_mul]
        rfl
      refine ⟨.ofNat (high * 16 + low) :: bytes, ?_, by rw [List.length_cons, bytesLength], ?_⟩
      · rw [pairBytes, pairByte, foundHigh, foundLow, read]
        rfl
      · rw [hexValue] at value
        rw [hexValue, List.map_cons, List.map_cons, List.map_cons, valueOfDigits_cons,
          valueOfDigits_cons, valueOfDigits_cons, foundHigh, foundLow, value, byte,
          List.length_cons, List.length_map, List.length_map, bytesLength, pow_succ, power]
        simp only [Option.getD_some]
        ring

theorem rc4Message_congr {first second : Nat → UInt8} (same : ∀ i < 100, first i = second i) :
    rc4Message first = rc4Message second := by
  have bits : rc4Bits first = rc4Bits second := by
    rw [rc4Bits, rc4Bits, List.map_congr_left fun i member => by
      rw [same i (List.mem_range.mp member)]]
  rw [rc4Message, rc4Message, bits]

theorem linePayload_pilot {line : List Char} (length : (stripCr line).length = 28) :
    linePayload line = (pairBytes (stripCr line)).bind fun bytes =>
      if (rc4Message (pilotSoftbit bytes)).isValid then
        some (.ofBitVec (rc4Message (pilotSoftbit bytes)).payload)
      else none := by
  rw [linePayload]
  dsimp only
  rw [if_neg (by omega), if_pos length, mapM_pairs length]
  rfl

/-- A line of digits gives the payload it stands for. -/
theorem linePayload_hex {line : List Char} (digits : HexDigits (stripCr line)) :
    linePayload line = properPayload (stripCr line) := by
  rw [properPayload, if_neg (not_not.mpr digits)]
  by_cases sixteen : (stripCr line).length = 16
  · rw [linePayload, if_pos sixteen, if_pos sixteen, stoull_hex sixteen digits]
  · by_cases pilot : (stripCr line).length = 28
    · have pairs : (stripCr line).length = 14 * 2 := pilot
      obtain ⟨bytes, read, length, value⟩ := pairBytes_hex pairs digits
      have softbits : rc4Message (pilotSoftbit bytes) = rc4Message fun i =>
          if (hexValue (stripCr line)).testBit (111 - (5 + i)) then 0xff else 0x00 :=
        rc4Message_congr fun i inside => by rw [pilotSoftbit_eq length inside, value]
      rw [linePayload_pilot pilot, read, Option.bind_some, softbits, if_neg sixteen, if_pos pilot]
    · rw [linePayload, if_neg sixteen, if_neg sixteen, if_neg pilot, if_neg pilot]

/-- Of the other lines the reader takes what is misread. -/
theorem linePayload_isSome_iff {line : List Char} (other : ¬ HexDigits (stripCr line)) :
    (linePayload line).isSome ↔ Misread (stripCr line) := by
  rw [Misread, and_iff_right other]
  by_cases sixteen : (stripCr line).length = 16
  · have notPilot : (stripCr line).length ≠ 28 := by omega
    rw [linePayload, if_pos sixteen, stoull_isSome_iff sixteen.le, and_iff_right sixteen,
      or_iff_left fun pilot => notPilot pilot.1]
  · rw [or_iff_right fun number => sixteen number.1]
    by_cases pilot : (stripCr line).length = 28
    · rw [linePayload_pilot pilot, and_iff_right pilot]
      cases read : pairBytes (stripCr line) with
      | none => simp
      | some bytes =>
        rw [Option.bind_some]
        by_cases valid : (rc4Message (pilotSoftbit bytes)).isValid = true
        · simp [valid]
        · simp [valid]
    · rw [linePayload, if_neg sixteen, if_neg pilot]
      simp [pilot]

theorem linePayload_eq_iff (line : List Char) :
    linePayload line = properPayload (stripCr line) ↔ ¬ Misread (stripCr line) := by
  by_cases digits : HexDigits (stripCr line)
  · exact iff_of_true (linePayload_hex digits) fun misread => misread.1 digits
  · rw [properPayload, if_pos digits, ← linePayload_isSome_iff digits, Bool.not_eq_true,
      Option.isSome_eq_false_iff, Option.isNone_iff_eq_none]

/-! ### Files -/

/-- A partial map that gives more than another gives the same list only where they agree. -/
theorem filterMap_extension_iff {Input Output : Type} {more less : Input → Option Output}
    (extended : ∀ input output, less input = some output → more input = some output)
    (inputs : List Input) :
    inputs.filterMap more = inputs.filterMap less ↔ ∀ input ∈ inputs, more input = less input := by
  have shorter (inputs : List Input) :
      (inputs.filterMap less).length ≤ (inputs.filterMap more).length := by
    rw [List.length_filterMap_eq_countP, List.length_filterMap_eq_countP]
    refine List.countP_mono_left fun input _ given => ?_
    obtain ⟨output, found⟩ := Option.isSome_iff_exists.mp given
    rw [extended input output found, Option.isSome_some]
  induction inputs with
  | nil => simp
  | cons input rest inductionHypothesis =>
    rw [List.forall_mem_cons]
    cases given : less input with
    | some output =>
      rw [List.filterMap_cons_some given, List.filterMap_cons_some (extended input output given),
        List.cons_inj_right, extended input output given]
      exact inductionHypothesis.trans (and_iff_right rfl).symm
    | none =>
      rw [List.filterMap_cons_none given]
      cases taken : more input with
      | none =>
        rw [List.filterMap_cons_none taken]
        exact inductionHypothesis.trans (and_iff_right rfl).symm
      | some output =>
        rw [List.filterMap_cons_some taken]
        refine iff_of_false (fun same => ?_) fun both => absurd both.1 (by simp)
        have length := congrArg List.length same
        have bound := shorter rest
        rw [List.length_cons] at length
        omega

/-- The payloads the lines of a file stand for. -/
def properPayloads (content : List Char) : List UInt64 :=
  (getLines content).filterMap fun line => properPayload (stripCr line)

/-- The reader takes from a file what its lines stand for if and only if no line of it is
misread. -/
theorem filePayloads_proper_iff (content : List Char) :
    filePayloads content = properPayloads content ↔
      ∀ line ∈ getLines content, ¬ Misread (stripCr line) := by
  have proper : ∀ line payload, properPayload (stripCr line) = some payload →
      linePayload line = some payload := by
    intro line payload found
    by_cases digits : HexDigits (stripCr line)
    · rw [linePayload_hex digits, found]
    · rw [properPayload, if_pos digits] at found
      cases found
  rw [filePayloads, properPayloads, filterMap_extension_iff proper]
  exact forall₂_congr fun line _ => linePayload_eq_iff line

/-- A file with a note in it. -/
def notedFile : DirEntry where
  isRegularFile := true
  name := "1000.rc4".toList
  content := "added 2024-05-01\n".toList

/-- The note is no line of digits, and the reader takes the payload `0xadded` from it. -/
theorem filePayloads_note :
    properPayloads notedFile.content = [] ∧ filePayloads notedFile.content = [0xadded] ∧
      (Rc4FileBasedRegistry.initial.resync [notedFile]).lookup 0xadded = some 1000 := by
  refine ⟨by decide +kernel, by decide +kernel, ?_⟩
  decide +kernel

end OpenStint
