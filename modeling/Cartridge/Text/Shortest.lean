/-
This file writes a floating-point number with the fewest decimal digits that read back
as the same number, never with an exponent. The number is taken apart into a natural
number times a power of two. The reals that round to it form an interval, and on each
decimal grid, from coarse to fine, only the two neighbours of the number can lie in it;
the first grid with a hit gives the digits, of two hits the nearer one, and the upper
one if they are equally near. All comparisons are between natural numbers.
-/

namespace Cartridge.Shortest

/-- A finite number without its sign: `significand * 2 ^ exponent`. -/
structure Binary where
  significand : Nat
  exponent : Int
  /-- The number below is half as far away as the number above. -/
  narrowBelow : Bool

/-- A decimal: `digits * 10 ^ exponent`. -/
structure Decimal where
  digits : Nat
  exponent : Int
deriving DecidableEq

namespace Binary

/-- The leading bit of a significand, which is not stored. -/
def hiddenBit : Nat := 0x10000000000000

/-- Takes a finite number apart. -/
def ofBits (bits : UInt64) : Binary :=
  let scale : Nat := bits.toNat / hiddenBit % 0x800
  let fraction : Nat := bits.toNat % hiddenBit
  if scale = 0 then ⟨fraction, -1074, false⟩
  else ⟨hiddenBit + fraction, (scale : Int) - 1075, decide (fraction = 0 ∧ 1 < scale)⟩

/-- Compares `decimal` with `count` quarters of the last place of a number. -/
def compareQuarters (number : Binary) (decimal : Decimal) (count : Nat) : Ordering :=
  let place := number.exponent - 2
  compare (decimal.digits * Nat.pow 10 decimal.exponent.toNat * Nat.pow 2 (-place).toNat)
    (count * Nat.pow 2 place.toNat * Nat.pow 10 (-decimal.exponent).toNat)

/-- Whether a decimal reads back as the number: it lies between the midpoints to the
neighbours, which themselves go to an even significand. -/
def readsBack (number : Binary) (decimal : Decimal) : Bool :=
  let below := if number.narrowBelow then 4 * number.significand - 1 else 4 * number.significand - 2
  let above := 4 * number.significand + 2
  let even := number.significand % 2 == 0
  let lower := number.compareQuarters decimal below
  let upper := number.compareQuarters decimal above
  (lower == .gt || (even && lower == .eq)) && (upper == .lt || (even && upper == .eq))

/-- The numerator of the number as a fraction. -/
def numerator (number : Binary) : Nat :=
  number.significand * Nat.pow 2 number.exponent.toNat

/-- The denominator of the number as a fraction. -/
def denominator (number : Binary) : Nat :=
  Nat.pow 2 (-number.exponent).toNat

/-- The number of digits of a natural number. -/
def digitCount (value : Nat) : Nat :=
  (Nat.toDigits 10 value).length

/-- The least power of ten above a number that is not zero. -/
def decimalScale (number : Binary) : Int :=
  if number.denominator ≤ number.numerator then
    digitCount (number.numerator / number.denominator)
  else 1 - (digitCount ((number.denominator - 1) / number.numerator) : Int)

/-- The best decimal on one grid, if one of the two neighbours there reads back. -/
def onGrid? (number : Binary) (exponent : Int) : Option Decimal :=
  let scaled := number.numerator * Nat.pow 10 (-exponent).toNat
  let unit := number.denominator * Nat.pow 10 exponent.toNat
  let lower : Decimal := ⟨scaled / unit, exponent⟩
  let upper : Decimal := ⟨scaled / unit + 1, exponent⟩
  let nearer := if 2 * scaled < (2 * lower.digits + 1) * unit then lower else upper
  if number.readsBack nearer then some nearer
  else if number.readsBack lower then some lower
  else if number.readsBack upper then some upper
  else none

/-- The exact decimal value of a number. -/
def exactly (number : Binary) : Decimal :=
  ⟨number.numerator * Nat.pow 5 (-number.exponent).toNat,
    min number.exponent 0⟩

/-- The shortest decimal that reads back. Seventeen digits always suffice. -/
def shortest (number : Binary) : Decimal :=
  if number.significand = 0 then ⟨0, 0⟩
  else
    let scale := number.decimalScale
    ((List.range' 1 17).findSome? fun count : Nat => number.onGrid? (scale - count)).getD
      number.exactly

end Binary

/-- A decimal in positional form, without zeros at the end of its fraction and without a
point where there is no fraction. -/
def Decimal.positional (decimal : Decimal) : String :=
  if 0 ≤ decimal.exponent then
    String.ofList (Nat.toDigits 10 (decimal.digits * Nat.pow 10 decimal.exponent.toNat))
  else
    let places := (-decimal.exponent).toNat
    let whole := Nat.toDigits 10 (decimal.digits / Nat.pow 10 places)
    let part := Nat.toDigits 10 (decimal.digits % Nat.pow 10 places)
    let padded := List.replicate (places - part.length) '0' ++ part
    let fraction := (padded.reverse.dropWhile (· == '0')).reverse
    if fraction.isEmpty then String.ofList whole
    else String.ofList (whole ++ '.' :: fraction)

/-- A floating-point number with the fewest digits that read back. -/
def text (value : Float) : String :=
  if value.isNaN then "NaN"
  else
    let sign := if 0x8000000000000000 ≤ value.toBits.toNat then "-" else ""
    if value.isInf then sign ++ "inf"
    else sign ++ (Binary.ofBits value.toBits).shortest.positional

end Cartridge.Shortest
