/-
This file defines a JSON number as it is written, and what it means as a natural
number and as a floating-point number. The floating-point value comes from at most
sixty-four bits of leading digits, scaled once by a power of ten, so it is not always
the nearest one. A value beyond the range of floating-point numbers is refused.
-/

namespace Cartridge.Json

/-- A number as it is written, its digits as values below ten. -/
structure Numeral where
  negative : Bool
  whole : List Nat
  /-- The digits after the point, if there is a point. -/
  fraction : Option (List Nat)
  /-- The sign and the digits of the exponent, if there is one. -/
  exponent : Option (Bool × List Nat)
deriving DecidableEq

namespace Numeral

/-- The largest number of sixty-four bits. -/
def wordLimit : Nat := 0xFFFFFFFFFFFFFFFF

/-- The largest exponent that is taken at its value. -/
def exponentLimit : Nat := 0x7FFFFFFF

/-- The value of digits. -/
def digitsValue (digits : List Nat) : Nat :=
  digits.foldl (fun value digit => 10 * value + digit) 0

/-- The natural number that is written without sign, point and exponent, if it has
sixty-four bits. -/
def natural? (numeral : Numeral) : Option Nat :=
  if numeral.negative || numeral.fraction.isSome || numeral.exponent.isSome then none
  else
    let value := digitsValue numeral.whole
    if value ≤ wordLimit then some value else none

/-- Takes digits into a significand as long as it keeps to sixty-four bits, and gives back
those that are left. -/
def absorb (significand : Nat) : List Nat → Nat × List Nat
  | [] => (significand, [])
  | digit :: rest =>
    if 10 * significand + digit ≤ wordLimit then absorb (10 * significand + digit) rest
    else (significand, digit :: rest)

/-- A power of ten up to the largest one that is a floating-point number. -/
def powerOfTen (exponent : Nat) : Float :=
  Float.ofScientific 1 false exponent

/-- Scales down by powers of ten that are too large for one division, until nothing is left
or one division remains. -/
def scaleDown : (rounds : Nat) → Float → Nat → Float
  | 0, value, _ => value
  | rounds + 1, value, exponent =>
    if exponent ≤ 308 then value / powerOfTen exponent
    else if value == 0.0 then value
    else scaleDown rounds (value / powerOfTen 308) (exponent - 308)

/-- A significand scaled by a power of ten, if the result is finite. -/
def scale? (significand : Nat) (exponent : Int) : Option Float :=
  let value := significand.toFloat
  match exponent with
  | .negSucc before => some (scaleDown (before / 308 + 2) value (before + 1))
  | .ofNat exponent =>
    if exponent ≤ 308 then
      let scaled := value * powerOfTen exponent
      if scaled.isInf then none else some scaled
    else if value == 0.0 then some value
    else none

/-- The floating-point value without its sign. Digits of the whole part that do not fit
count towards the exponent, digits of the fraction that do not fit are dropped. -/
def magnitude? (numeral : Numeral) : Option Float :=
  let (significand, dropped) := absorb 0 numeral.whole
  let fraction := numeral.fraction.getD []
  let (significand, unused) := absorb significand fraction
  let shift : Int := (dropped.length : Int) - ((fraction.length - unused.length : Nat) : Int)
  match numeral.exponent with
  | none => scale? significand shift
  | some (negative, digits) =>
    let exponent := digitsValue digits
    if exponentLimit < exponent then
      if significand = 0 || negative then some 0.0 else none
    else scale? significand (if negative then shift - exponent else shift + exponent)

/-- The floating-point value, if it is finite. -/
def float? (numeral : Numeral) : Option Float :=
  numeral.magnitude?.map fun value => if numeral.negative then -value else value

end Numeral

end Cartridge.Json
