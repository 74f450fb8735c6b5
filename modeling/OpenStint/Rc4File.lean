/-
This file models how `rc4.cpp` reads and writes `.rc4` files: the file name that carries
the transponder id, the lines of 16 or 28 hexadecimal digits, and the `strtoull` of the C
library behind `std::stoull` and `std::stoul`, which skips blanks, takes a sign and a `0x`
and stops at the first character that is no digit. A text is the list of its characters, and
a character stands for one byte: `line.size()` counts bytes. `unsigned long` has 64 bits.
-/

import Mathlib.Tactic.IntervalCases
import OpenStint.Rc4Message

namespace OpenStint

/-! ### Numbers in text -/

def isSpace (c : Char) : Bool := c = ' ' || (0x09 ≤ c.toNat && c.toNat ≤ 0x0d)

/-- The value of a digit of a base up to 36. -/
def digitValue (base : Nat) (c : Char) : Option Nat :=
  let value :=
    if '0' ≤ c ∧ c ≤ '9' then c.toNat - '0'.toNat
    else if 'a' ≤ c ∧ c ≤ 'z' then c.toNat - 'a'.toNat + 10
    else if 'A' ≤ c ∧ c ≤ 'Z' then c.toNat - 'A'.toNat + 10
    else base
  if value < base then some value else none

/-- The digits a text starts with. -/
def leadingDigits (base : Nat) : List Char → List Nat
  | [] => []
  | c :: rest =>
    match digitValue base c with
    | some digit => digit :: leadingDigits base rest
    | none => []

def valueOfDigits (base : Nat) (digits : List Nat) : Nat :=
  digits.foldl (fun value digit => value * base + digit) 0

/-- The sign of a number and what follows it. -/
def splitSign : List Char → Bool × List Char
  | '-' :: rest => (true, rest)
  | '+' :: rest => (false, rest)
  | text => (false, text)

/-- In base 16 a `0x` is skipped when a digit follows it. -/
def skipHexPrefix (base : Nat) : List Char → List Char
  | '0' :: x :: digit :: rest =>
    if base = 16 ∧ (x = 'x' ∨ x = 'X') ∧ (digitValue base digit).isSome then digit :: rest
    else '0' :: x :: digit :: rest
  | text => text

/-- `std::stoull`; `none` is an exception. -/
def stoull (base : Nat) (text : List Char) : Option UInt64 :=
  let (negative, text) := splitSign (text.dropWhile isSpace)
  let digits := leadingDigits base (skipHexPrefix base text)
  let value := valueOfDigits base digits
  if digits = [] ∨ 2 ^ 64 ≤ value then none
  else if negative then some (-UInt64.ofNat value)
  else some (UInt64.ofNat value)

/-! ### Lines -/

/-- The lines `std::getline` reads from a file. -/
def getLines : List Char → List (List Char)
  | [] => []
  | '\n' :: rest => [] :: getLines rest
  | c :: rest =>
    match getLines rest with
    | [] => [[c]]
    | line :: lines => (c :: line) :: lines

def stripCr (line : List Char) : List Char :=
  if line.getLast? = some '\r' then line.dropLast else line

/-- The 100 softbits of the older format: 14 bytes without their first five bits. -/
def pilotSoftbit (bytes : List UInt8) (i : Nat) : UInt8 :=
  let bitPos := 5 + i
  let byte := bytes.getD (bitPos / 8) 0
  if byte >>> (7 - .ofNat (bitPos % 8)) &&& 1 ≠ 0 then 0xff else 0x00

/-- The payload of a line; `none` when the line is skipped. -/
def linePayload (line : List Char) : Option UInt64 :=
  let line := stripCr line
  if line.length = 16 then stoull 16 line
  else if line.length = 28 then do
    let bytes ← (List.range 14).mapM fun i =>
      (stoull 16 ((line.drop (i * 2)).take 2)).map UInt64.toUInt8
    let msg := rc4Message (pilotSoftbit bytes)
    if msg.isValid then some (.ofBitVec msg.payload) else none
  else none

def filePayloads (content : List Char) : List UInt64 := (getLines content).filterMap linePayload

/-- The digit `%x` prints. -/
def hexChar (nibble : Nat) : Char := "0123456789abcdef".toList.getD nibble '0'

/-- `%016llx` of a payload. -/
def hexLine (payload : UInt64) : List Char :=
  (List.range 16).map fun i => hexChar (payload.toNat / 16 ^ (15 - i) % 16)

/-! ### Directory entries -/

structure DirEntry where
  isRegularFile : Bool
  name : List Char
  content : List Char
  deriving DecidableEq, Repr

/-- `path::stem` and `path::extension` of a file name: the extension starts at the last dot,
unless that is the first character. -/
def splitExtension (name : List Char) : List Char × List Char :=
  let tail := (name.reverse.takeWhile (· ≠ '.')).reverse
  if name.length ≤ tail.length + 1 ∨ name = "..".toList then (name, [])
  else (name.take (name.length - (tail.length + 1)), '.' :: tail)

/-- The transponder id of a directory entry; `none` when `resync` skips the entry. -/
def fileId (entry : DirEntry) : Option UInt32 :=
  let (stem, extension) := splitExtension entry.name
  if !entry.isRegularFile then none
  else if extension ≠ ".rc4".toList then none
  else if stem = [] ∨ ¬ stem.all Char.isDigit then none
  else (stoull 10 stem).map UInt64.toUInt32

/-- The name of the file of a transponder. -/
def fileName (transponderId : UInt32) : List Char :=
  Nat.toDigits 10 transponderId.toNat ++ ".rc4".toList

/-- Opening a file for appending and writing a text to it; the file is created when there
is none of the name. A write to a regular file does not fail. -/
def appendFile (directory : List DirEntry) (name text : List Char) : List DirEntry :=
  if directory.any fun entry => entry.name = name then
    directory.map fun entry =>
      if entry.name = name ∧ entry.isRegularFile then
        { entry with content := entry.content ++ text }
      else entry
  else directory ++ [{ isRegularFile := true, name, content := text }]

/-! ### Lines of 16 digits -/

/-- A line of hexadecimal digits. -/
def HexDigits (line : List Char) : Prop := ∀ c ∈ line, (digitValue 16 c).isSome

instance (line : List Char) : Decidable (HexDigits line) :=
  List.decidableBAll (fun c => (digitValue 16 c).isSome) line

/-- The number a line of hexadecimal digits stands for. -/
def hexValue (line : List Char) : Nat :=
  valueOfDigits 16 (line.map fun c => (digitValue 16 c).getD 0)

theorem leadingDigits_hex {line : List Char} (digits : HexDigits line) :
    leadingDigits 16 line = line.map fun c => (digitValue 16 c).getD 0 := by
  induction line with
  | nil => rfl
  | cons c rest inductionHypothesis =>
    obtain ⟨digit, found⟩ := Option.isSome_iff_exists.mp (digits c List.mem_cons_self)
    rw [leadingDigits, found, List.map_cons, found,
      inductionHypothesis fun c member => digits c (List.mem_cons_of_mem _ member)]
    rfl

theorem valueOfDigits_lt {base : Nat} {digits : List Nat} (below : ∀ digit ∈ digits, digit < base) :
    valueOfDigits base digits < base ^ digits.length := by
  induction digits using List.reverseRecOn with
  | nil => exact Nat.one_pos
  | append_singleton digits last inductionHypothesis =>
    have initial := inductionHypothesis fun digit member =>
      below digit (List.mem_append_left _ member)
    have digit := below last (by simp)
    rw [valueOfDigits, List.foldl_append, ← valueOfDigits, List.foldl_cons, List.foldl_nil,
      List.length_append, List.length_singleton, pow_succ]
    calc valueOfDigits base digits * base + last
        < (valueOfDigits base digits + 1) * base := by rw [Nat.add_one_mul]; omega
      _ ≤ base ^ digits.length * base := Nat.mul_le_mul_right base initial

theorem digitValue_lt {base digit : Nat} {c : Char} (found : digitValue base c = some digit) :
    digit < base := by
  unfold digitValue at found
  dsimp only at found
  rw [Option.ite_none_right_eq_some] at found
  obtain ⟨below, same⟩ := found
  injection same with same
  rwa [same] at below

theorem hexValue_lt {line : List Char} (digits : HexDigits line) :
    hexValue line < 16 ^ line.length := by
  have below : ∀ digit ∈ line.map fun c => (digitValue 16 c).getD 0, digit < 16 := by
    intro digit member
    obtain ⟨c, inside, rfl⟩ := List.mem_map.mp member
    obtain ⟨digit, found⟩ := Option.isSome_iff_exists.mp (digits c inside)
    rw [found]
    exact digitValue_lt found
  have bound := valueOfDigits_lt below
  rwa [List.length_map] at bound

/-- A hexadecimal digit is no blank, no sign and no `x`. -/
theorem plain_of_hex {c : Char} (digit : (digitValue 16 c).isSome) :
    isSpace c = false ∧ c ≠ '-' ∧ c ≠ '+' ∧ c ≠ 'x' ∧ c ≠ 'X' := by
  refine ⟨?_, ?_, ?_, ?_, ?_⟩
  · by_contra space
    rw [Bool.not_eq_false, isSpace, Bool.or_eq_true, decide_eq_true_eq, Bool.and_eq_true,
      decide_eq_true_eq, decide_eq_true_eq] at space
    rcases space with rfl | ⟨above, below⟩
    · exact absurd digit (by decide)
    · have spelled : c = Char.ofNat c.toNat := (Char.ofNat_toNat c).symm
      generalize c.toNat = code at above below spelled
      subst spelled
      interval_cases code <;> exact absurd digit (by decide)
  all_goals
    rintro rfl
    exact absurd digit (by decide)

/-- `std::stoull` on a text that starts with a digit: no blank, no sign, no prefix. -/
theorem stoull_of_plain {base : Nat} {first : Char} {rest : List Char}
    (blank : isSpace first = false) (minus : first ≠ '-') (plus : first ≠ '+')
    (noPrefix : skipHexPrefix base (first :: rest) = first :: rest)
    (digits : leadingDigits base (first :: rest) ≠ [])
    (bound : valueOfDigits base (leadingDigits base (first :: rest)) < 2 ^ 64) :
    stoull base (first :: rest) =
      some (.ofNat (valueOfDigits base (leadingDigits base (first :: rest)))) := by
  have skipped : (first :: rest).dropWhile isSpace = first :: rest :=
    List.dropWhile_cons_of_neg (by rw [blank]; exact Bool.false_ne_true)
  have sign : splitSign (first :: rest) = (false, first :: rest) := by
    unfold splitSign
    split
    · rename_i same
      exact absurd (List.cons.inj same).1 minus
    · rename_i same
      exact absurd (List.cons.inj same).1 plus
    · rfl
  rw [stoull, skipped, sign]
  dsimp only
  rw [noPrefix, if_neg, if_neg Bool.false_ne_true]
  rintro (none | tooLarge)
  · exact digits none
  · exact absurd bound tooLarge.not_gt

/-- `std::stoull` reads a line of 16 hexadecimal digits as the number it stands for. -/
theorem stoull_hex {line : List Char} (length : line.length = 16) (digits : HexDigits line) :
    stoull 16 line = some (.ofNat (hexValue line)) := by
  obtain ⟨first, rest, rfl⟩ : ∃ first rest, line = first :: rest :=
    List.exists_cons_of_length_pos (by omega)
  obtain ⟨blank, minus, plus, -⟩ := plain_of_hex (digits first List.mem_cons_self)
  have noPrefix : skipHexPrefix 16 (first :: rest) = first :: rest := by
    unfold skipHexPrefix
    split
    · rename_i x digit tail same
      obtain ⟨-, -, -, small, large⟩ := plain_of_hex (digits x (by rw [same]; simp))
      rw [if_neg fun skip => skip.2.1.elim small large, same]
    · rfl
  have value : valueOfDigits 16 (leadingDigits 16 (first :: rest)) = hexValue (first :: rest) := by
    rw [leadingDigits_hex digits, hexValue]
  have bound : hexValue (first :: rest) < 2 ^ 64 := by
    have below := hexValue_lt digits
    rw [length] at below
    exact below
  have nonempty : leadingDigits 16 (first :: rest) ≠ [] := by
    rw [leadingDigits_hex digits]
    exact List.cons_ne_nil _ _
  rw [stoull_of_plain blank minus plus noPrefix nonempty (by rwa [value]), value]

end OpenStint
