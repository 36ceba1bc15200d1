/-
This file says what a hexadecimal numeral is, and proves that the reader accepts exactly the
numerals up to its limit and gives their values. A numeral is an optional plus and one or more
digits of either case; the digits are told from two tables of sixteen characters, and the value
is the positional one. Zeros in front and the number of digits do not matter, so a value is
compared with the limit and never a length. The case of a letter makes no difference, and so the
digits that were written for a value are read back in any case.
-/

import Cartridge.Text.Hex
import Mathlib.Data.List.Forall2
import Mathlib.Data.Nat.Digits.Defs

namespace Cartridge.Hex

/-! ### One character -/

/-- The digits in ascending order, letters in lower case. -/
def lowerDigits : List Char :=
  ['0', '1', '2', '3', '4', '5', '6', '7', '8', '9', 'a', 'b', 'c', 'd', 'e', 'f']

/-- The digits in ascending order, letters in upper case. -/
def upperDigits : List Char :=
  ['0', '1', '2', '3', '4', '5', '6', '7', '8', '9', 'A', 'B', 'C', 'D', 'E', 'F']

/-- A character is a digit of a value, in one case or the other. -/
def IsDigit (character : Char) (value : Nat) : Prop :=
  lowerDigits[value]? = some character ∨ upperDigits[value]? = some character

instance (character : Char) (value : Nat) : Decidable (IsDigit character value) :=
  inferInstanceAs (Decidable (_ ∨ _))

namespace IsDigit

variable {character : Char} {value : Nat}

theorem value_lt (digit : IsDigit character value) : value < 16 := by
  rcases digit with lower | upper
  · exact (List.getElem?_eq_some_iff.mp lower).1
  · exact (List.getElem?_eq_some_iff.mp upper).1

theorem mem (digit : IsDigit character value) : character ∈ lowerDigits ++ upperDigits := by
  rcases digit with lower | upper
  · exact List.mem_append_left _ (List.mem_of_getElem? lower)
  · exact List.mem_append_right _ (List.mem_of_getElem? upper)

end IsDigit

/-- What holds of the first 128 characters, and of any other, holds of all characters. -/
theorem forall_char (Holds : Char → Prop) (ascii : ∀ code : Fin 128, Holds (Char.ofNat code))
    (other : ∀ character : Char, 128 ≤ character.toNat → Holds character)
    (character : Char) : Holds character := by
  rcases Nat.lt_or_ge character.toNat 128 with small | large
  · have known := ascii ⟨character.toNat, small⟩
    rwa [Char.ofNat_toNat] at known
  · exact other character large

theorem toLower_of_large {character : Char} (large : 128 ≤ character.toNat) :
    character.toLower = character := by
  unfold Char.toLower
  rw [dif_neg]
  rintro ⟨-, upper⟩
  exact absurd (Nat.le_trans large upper) (by decide)

theorem digitValue?_of_large {character : Char} (large : 128 ≤ character.toNat) :
    digitValue? character = none := by
  have behind {last : Char} (small : last.toNat < 128) : ¬ character ≤ last := by
    intro before
    exact absurd (Nat.le_trans large (Char.le_def.mp before)) (Nat.not_le.mpr small)
  rw [digitValue?, if_neg fun range => behind (by decide) range.2,
    if_neg fun range => behind (by decide) range.2, if_neg fun range => behind (by decide) range.2]

/-- The reader of one character knows exactly the digits. -/
theorem digitValue?_eq_some_iff {character : Char} {value : Nat} :
    digitValue? character = some value ↔ IsDigit character value := by
  constructor
  · revert value
    refine forall_char (fun character =>
      ∀ {value}, digitValue? character = some value → IsDigit character value) ?_ ?_ character
    · have every : ∀ code : Fin 128, ∀ value ∈ digitValue? (Char.ofNat code),
          IsDigit (Char.ofNat code) value := by
        decide
      exact fun code value read => every code value read
    · intro character large value read
      rw [digitValue?_of_large large] at read
      exact nomatch read
  · intro digit
    have every : ∀ value : Fin 16, digitValue? lowerDigits[value] = some value.val ∧
        digitValue? upperDigits[value] = some value.val := by
      decide
    have small := digit.value_lt
    obtain ⟨lowerRead, upperRead⟩ := every ⟨value, small⟩
    rcases digit with lower | upper
    · obtain ⟨-, rfl⟩ := List.getElem?_eq_some_iff.mp lower
      exact lowerRead
    · obtain ⟨-, rfl⟩ := List.getElem?_eq_some_iff.mp upper
      exact upperRead

/-- The case of a letter makes no difference. -/
theorem digitValue?_toLower (character : Char) :
    digitValue? character.toLower = digitValue? character := by
  refine forall_char (fun character =>
    digitValue? character.toLower = digitValue? character) (by decide) ?_ character
  intro character large
  rw [toLower_of_large large]

/-! ### Digits in a row -/

/-- A text consists of digits with a positional value. -/
def Digits (text : List Char) (value : Nat) : Prop :=
  ∃ digits, List.Forall₂ IsDigit text digits ∧ value = Nat.ofDigits 16 digits.reverse

namespace Digits

theorem exists_isDigit {text : List Char} {value : Nat} (digits : Digits text value)
    {character : Char} (member : character ∈ text) : ∃ digit, IsDigit character digit := by
  obtain ⟨values, each, -⟩ := digits
  induction each with
  | nil => exact absurd member List.not_mem_nil
  | cons first _ inductionHypothesis =>
    rcases List.mem_cons.mp member with rfl | later
    · exact ⟨_, first⟩
    · exact inductionHypothesis later

theorem append {first second : List Char} {high low : Nat} (front : Digits first high)
    (back : Digits second low) : Digits (first ++ second) (high * 16 ^ second.length + low) := by
  obtain ⟨frontValues, eachFront, rfl⟩ := front
  obtain ⟨backValues, eachBack, rfl⟩ := back
  refine ⟨frontValues ++ backValues, List.rel_append eachFront eachBack, ?_⟩
  rw [List.reverse_append, Nat.ofDigits_append, List.length_reverse, ← eachBack.length_eq,
    Nat.mul_comm, Nat.add_comm]

theorem cons_iff {character : Char} {rest : List Char} {value : Nat} :
    Digits (character :: rest) value ↔ ∃ digit low, IsDigit character digit ∧ Digits rest low ∧
      value = digit * 16 ^ rest.length + low := by
  constructor
  · rintro ⟨values, each, rfl⟩
    cases each with
    | @cons _ digit _ values first others =>
      refine ⟨digit, _, first, ⟨values, others, rfl⟩, ?_⟩
      rw [List.reverse_cons, Nat.ofDigits_append, Nat.ofDigits_singleton, List.length_reverse,
        others.length_eq, Nat.mul_comm, Nat.add_comm]
  · rintro ⟨digit, low, first, others, rfl⟩
    exact append ⟨[digit], .cons first .nil, Nat.ofDigits_singleton.symm⟩ others

/-- The number of digits bounds the value. -/
theorem value_lt {text : List Char} {value : Nat} (digits : Digits text value) :
    value < 16 ^ text.length := by
  obtain ⟨values, each, rfl⟩ := digits
  have small : ∀ digit ∈ values, digit < 16 := by
    induction each with
    | nil => exact fun _ member => absurd member List.not_mem_nil
    | cons first _ inductionHypothesis =>
      exact List.forall_mem_cons.mpr ⟨first.value_lt, inductionHypothesis⟩
  rw [each.length_eq, ← List.length_reverse]
  exact Nat.ofDigits_lt_base_pow_length (by decide) fun digit member =>
    small digit (List.mem_reverse.mp member)

end Digits

/-- The reader of digits adds their value behind that of the digits before. -/
theorem digitsValue?_eq_some_iff {before value : Nat} {text : List Char} :
    digitsValue? before text = some value ↔
      ∃ rest, Digits text rest ∧ value = before * 16 ^ text.length + rest := by
  induction text generalizing before with
  | nil =>
    rw [digitsValue?, Option.some.injEq]
    constructor
    · rintro rfl
      exact ⟨0, ⟨[], .nil, rfl⟩, by simp⟩
    · rintro ⟨_, ⟨_, ⟨⟩, rfl⟩, rfl⟩
      simp
  | cons character rest inductionHypothesis =>
    have shift (digit low : Nat) : (16 * before + digit) * 16 ^ rest.length + low =
        before * 16 ^ (character :: rest).length + (digit * 16 ^ rest.length + low) := by
      rw [List.length_cons, Nat.pow_succ]
      ring
    rw [digitsValue?, Option.bind_eq_bind, Option.bind_eq_some_iff]
    constructor
    · rintro ⟨digit, first, others⟩
      obtain ⟨low, digits, rfl⟩ := inductionHypothesis.mp others
      exact ⟨_, Digits.cons_iff.mpr ⟨digit, low, digitValue?_eq_some_iff.mp first, digits, rfl⟩,
        shift digit low⟩
    · rintro ⟨_, digits, rfl⟩
      obtain ⟨digit, low, first, others, rfl⟩ := Digits.cons_iff.mp digits
      exact ⟨digit, digitValue?_eq_some_iff.mpr first,
        inductionHypothesis.mpr ⟨low, others, (shift digit low).symm⟩⟩

theorem digitsValue?_zero_eq_some_iff {value : Nat} {text : List Char} :
    digitsValue? 0 text = some value ↔ Digits text value := by
  simp [digitsValue?_eq_some_iff]

/-- The case of letters makes no difference to digits. -/
theorem digitsValue?_map_toLower (before : Nat) (text : List Char) :
    digitsValue? before (text.map Char.toLower) = digitsValue? before text := by
  induction text generalizing before with
  | nil => rfl
  | cons character rest inductionHypothesis =>
    rw [List.map_cons, digitsValue?, digitsValue?, digitValue?_toLower]
    exact congrArg _ (funext fun digit => inductionHypothesis _)

/-- A text that differs at most in the case of letters from the digits written for a value consists
of digits with this value. -/
theorem digits_of_fixedDigits {width value : Nat} {text : List Char} (fits : value < capacity width)
    (same : text.map Char.toLower = (fixedDigits width value).map Char.toLower) :
    Digits text value := by
  rw [← digitsValue?_zero_eq_some_iff, ← digitsValue?_map_toLower, same,
    digitsValue?_map_toLower, digitsValue?_fixedDigits width value fits]

/-! ### Numerals -/

/-- A text is a numeral of a value: an optional plus, and one or more digits. -/
inductive Numeral : List Char → Nat → Prop
  | plain {text : List Char} {value : Nat} (nonempty : text ≠ []) (digits : Digits text value) :
      Numeral text value
  | plus {text : List Char} {value : Nat} (nonempty : text ≠ []) (digits : Digits text value) :
      Numeral ('+' :: text) value

theorem Numeral.value_lt {text : List Char} {value : Nat} (numeral : Numeral text value) :
    value < 16 ^ text.length := by
  cases numeral with
  | plain _ digits => exact digits.value_lt
  | plus _ digits =>
    exact Nat.lt_of_lt_of_le digits.value_lt (Nat.pow_le_pow_right (by decide) (Nat.le_succ _))

/-- The reader accepts exactly the numerals of the values up to its limit. -/
theorem numeral?_eq_some_iff {limit value : Nat} {text : List Char} :
    numeral? limit text = some value ↔ Numeral text value ∧ value ≤ limit := by
  have reads {digits : List Char} (nonempty : digits ≠ []) :
      (if digits.isEmpty then none else (digitsValue? 0 digits).filter (· ≤ limit)) = some value ↔
        Digits digits value ∧ value ≤ limit := by
    rw [if_neg (by simpa using nonempty), Option.filter_eq_some_iff, decide_eq_true_eq,
      digitsValue?_zero_eq_some_iff]
  constructor
  · intro read
    unfold numeral? at read
    split at read
    · rename_i rest
      have nonempty : rest ≠ [] := by
        rintro rfl
        exact nomatch read
      exact ((reads nonempty).mp read).imp_left (.plus nonempty)
    · have nonempty : text ≠ [] := by
        rintro rfl
        exact nomatch read
      exact ((reads nonempty).mp read).imp_left (.plain nonempty)
  · rintro ⟨numeral, small⟩
    cases numeral with
    | plain nonempty digits =>
      unfold numeral?
      split
      · obtain ⟨digit, impossible⟩ := digits.exists_isDigit List.mem_cons_self
        exact absurd impossible.mem (by decide)
      · exact (reads nonempty).mpr ⟨digits, small⟩
    | plus nonempty digits => exact (reads nonempty).mpr ⟨digits, small⟩

end Cartridge.Hex
