/-
This file writes and reads hexadecimal numerals. Addresses and operands are
written with a fixed number of upper-case digits, image offsets with a least
number of lower-case digits. A numeral is read with digits of either case and an
optional leading plus, and only up to a stated limit. Reading the digits of a
fixed-width numeral gives its value back.
-/

namespace Cartridge.Hex

/-! ### Writing -/

/-- The upper-case digit of a value below sixteen. -/
def upperDigit (value : Nat) : Char :=
  if value < 10 then Char.ofNat (48 + value) else Char.ofNat (55 + value)

/-- The last `width` upper-case digits of `value`, most significant first. -/
def fixedDigits : (width value : Nat) → List Char
  | 0, _ => []
  | width + 1, value => fixedDigits width (value / 16) ++ [upperDigit (value % 16)]

/-- The number of values that `width` digits can write. -/
def capacity : (width : Nat) → Nat
  | 0 => 1
  | width + 1 => 16 * capacity width

/-- `value` written with exactly `width` upper-case digits. -/
def fixed (width value : Nat) : String :=
  String.ofList (fixedDigits width value)

/-- `value` written in lower case with zeros in front up to `width` digits, and with
more digits where it needs them. -/
def lower (width value : Nat) : String :=
  let digits := Nat.toDigits 16 value
  String.ofList (List.replicate (width - digits.length) '0' ++ digits)

/-- An image offset: `0x` and at least six lower-case digits. -/
def offset (value : Nat) : String :=
  "0x" ++ lower 6 value

/-- A count of bytes: `0x` and as many lower-case digits as it needs. -/
def count (value : Nat) : String :=
  "0x" ++ lower 1 value

@[simp]
theorem length_fixedDigits (width value : Nat) : (fixedDigits width value).length = width := by
  induction width generalizing value with
  | zero => rfl
  | succ width inductionHypothesis => simp [fixedDigits, inductionHypothesis]

/-! ### Reading -/

/-- The value of a digit of either case. -/
def digitValue? (character : Char) : Option Nat :=
  if '0' ≤ character ∧ character ≤ '9' then some (character.toNat - 48)
  else if 'A' ≤ character ∧ character ≤ 'F' then some (character.toNat - 55)
  else if 'a' ≤ character ∧ character ≤ 'f' then some (character.toNat - 87)
  else none

/-- Reads digits after the value of those before them. -/
def digitsValue? (before : Nat) : List Char → Option Nat
  | [] => some before
  | character :: rest => do
    let digit ← digitValue? character
    digitsValue? (16 * before + digit) rest

/-- The value of a numeral: an optional plus and at least one digit. A value above
`limit` is refused. -/
def numeral? (limit : Nat) (text : List Char) : Option Nat :=
  let digits := match text with
    | '+' :: rest => rest
    | _ => text
  if digits.isEmpty then none else (digitsValue? 0 digits).filter (· ≤ limit)

theorem digitValue?_upperDigit {value : Nat} (small : value < 16) :
    digitValue? (upperDigit value) = some value := by
  have every : ∀ digit : Fin 16, digitValue? (upperDigit digit) = some digit.val := by decide
  exact every ⟨value, small⟩

theorem digitsValue?_append (before : Nat) (first second : List Char) :
    digitsValue? before (first ++ second) =
      (digitsValue? before first).bind fun value => digitsValue? value second := by
  induction first generalizing before with
  | nil => rfl
  | cons character rest inductionHypothesis =>
    rw [List.cons_append, digitsValue?, digitsValue?]
    cases digitValue? character with
    | none => rfl
    | some digit => exact inductionHypothesis _

/-- The digits written for a value that fits are read back as that value. -/
theorem digitsValue?_fixedDigits (width value : Nat) (fits : value < capacity width) :
    digitsValue? 0 (fixedDigits width value) = some value := by
  induction width generalizing value with
  | zero =>
    have zero : value = 0 := Nat.lt_one_iff.mp fits
    rw [zero]
    rfl
  | succ width inductionHypothesis =>
    have higher : value / 16 < capacity width := by
      rw [capacity] at fits
      omega
    rw [fixedDigits, digitsValue?_append, inductionHypothesis _ higher, Option.bind_some,
      digitsValue?, digitValue?_upperDigit (Nat.mod_lt _ (by decide))]
    exact congrArg some (by omega)

/-- Values that fit differ in their digits. -/
theorem eq_of_fixedDigits_eq {width first second : Nat} (fitsFirst : first < capacity width)
    (fitsSecond : second < capacity width)
    (same : fixedDigits width first = fixedDigits width second) : first = second := by
  have readFirst := digitsValue?_fixedDigits width first fitsFirst
  rw [same, digitsValue?_fixedDigits width second fitsSecond] at readFirst
  exact (Option.some.inj readFirst).symm

end Cartridge.Hex
