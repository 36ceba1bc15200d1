/-
This file cuts JSON text into tokens. A string may hold the escape of half a surrogate
pair, which stands for no character; such a string is kept as a token without a text,
since it may stand where its value is ignored.
-/

import Cartridge.Json.Numeral
import Cartridge.Text.Hex

namespace Cartridge.Json

/-- A token of JSON text. -/
inductive Token where
  | openList
  | closeList
  | openRecord
  | closeRecord
  | comma
  | colon
  | null
  | boolean (value : Bool)
  | number (numeral : Numeral)
  /-- A string; it has no text if it holds half a surrogate pair. -/
  | string (text : Option String)
deriving DecidableEq

/-! ### Strings -/

/-- The text of a string given as code units, if all surrogates come in pairs. -/
def joinUnits? : List Nat → Option (List Char)
  | [] => some []
  | unit :: rest =>
    if 0xDC00 ≤ unit ∧ unit < 0xE000 then none
    else if 0xD800 ≤ unit ∧ unit < 0xDC00 then
      match rest with
      | low :: rest =>
        if 0xDC00 ≤ low ∧ low < 0xE000 then
          (joinUnits? rest).map
            (Char.ofNat (0x10000 + (unit - 0xD800) * 0x400 + (low - 0xDC00)) :: ·)
        else none
      | [] => none
    else (joinUnits? rest).map (Char.ofNat unit :: ·)

/-- The character that a one-letter escape stands for. -/
def simpleEscape? : Char → Option Nat
  | '"' => some 0x22
  | '\\' => some 0x5C
  | '/' => some 0x2F
  | 'b' => some 0x08
  | 'f' => some 0x0C
  | 'n' => some 0x0A
  | 'r' => some 0x0D
  | 't' => some 0x09
  | _ => none

/-- Reads the rest of a string after its opening quote into code units, newest first, and
gives back what follows the closing quote. -/
def lexString? (units : List Nat) : List Char → Option (List Nat × List Char)
  | [] => none
  | '"' :: rest => some (units.reverse, rest)
  | '\\' :: 'u' :: first :: second :: third :: fourth :: rest => do
    let unit ← Hex.digitsValue? 0 [first, second, third, fourth]
    lexString? (unit :: units) rest
  | '\\' :: letter :: rest => do
    let unit ← simpleEscape? letter
    lexString? (unit :: units) rest
  | character :: rest =>
    if character.toNat < 0x20 ∨ character = '\\' then none
    else lexString? (character.toNat :: units) rest

/-! ### Numbers -/

/-- The value of a decimal digit. -/
def digit? (character : Char) : Option Nat :=
  if character.isDigit then some (character.toNat - 48) else none

/-- The digits at the start of a text, and what follows them. -/
def lexDigits (text : List Char) : List Nat × List Char :=
  ((text.takeWhile Char.isDigit).filterMap digit?, text.dropWhile Char.isDigit)

/-- The digits at the start of a text, at least one of them. -/
def lexSomeDigits? (text : List Char) : Option (List Nat × List Char) :=
  let found := lexDigits text
  if found.1.isEmpty then none else some found

/-- The whole part of a number: a zero, or digits that do not start with one. -/
def lexWhole? : List Char → Option (List Nat × List Char)
  | '0' :: rest => some ([0], rest)
  | text => lexSomeDigits? text

/-- The part after a point, if there is a point. -/
def lexFraction? : List Char → Option (Option (List Nat) × List Char)
  | '.' :: rest => do
    let (digits, rest) ← lexSomeDigits? rest
    return (some digits, rest)
  | text => some (none, text)

/-- The sign and digits of an exponent. -/
def lexExponentDigits? : List Char → Option (Option (Bool × List Nat) × List Char)
  | '+' :: rest => (lexSomeDigits? rest).map fun found => (some (false, found.1), found.2)
  | '-' :: rest => (lexSomeDigits? rest).map fun found => (some (true, found.1), found.2)
  | text => (lexSomeDigits? text).map fun found => (some (false, found.1), found.2)

/-- The exponent of a number, if there is one. -/
def lexExponent? : List Char → Option (Option (Bool × List Nat) × List Char)
  | 'e' :: rest => lexExponentDigits? rest
  | 'E' :: rest => lexExponentDigits? rest
  | text => some (none, text)

/-- A number after its sign. -/
def lexNumber? (negative : Bool) (text : List Char) : Option (Token × List Char) := do
  let (whole, rest) ← lexWhole? text
  let (fraction, rest) ← lexFraction? rest
  let (exponent, rest) ← lexExponent? rest
  return (.number ⟨negative, whole, fraction, exponent⟩, rest)

/-! ### Tokens -/

/-- The token at the start of a text that starts with no blank. -/
def lexToken? : List Char → Option (Token × List Char)
  | '[' :: rest => some (.openList, rest)
  | ']' :: rest => some (.closeList, rest)
  | '\x7b' :: rest => some (.openRecord, rest)
  | '\x7d' :: rest => some (.closeRecord, rest)
  | ',' :: rest => some (.comma, rest)
  | ':' :: rest => some (.colon, rest)
  | 'n' :: 'u' :: 'l' :: 'l' :: rest => some (.null, rest)
  | 't' :: 'r' :: 'u' :: 'e' :: rest => some (.boolean true, rest)
  | 'f' :: 'a' :: 'l' :: 's' :: 'e' :: rest => some (.boolean false, rest)
  | '"' :: rest => (lexString? [] rest).map fun found =>
      (.string ((joinUnits? found.1).map String.ofList), found.2)
  | '-' :: rest => lexNumber? true rest
  | text => lexNumber? false text

/-- Whether a character may stand between tokens. -/
def isGap (character : Char) : Bool :=
  character == ' ' || character == '\t' || character == '\n' || character == '\r'

/-- Reads tokens after those already read, which come newest first. Each token takes at
least one character, so `count` is never used up when it starts at the length. -/
def lexTokens? : (count : Nat) → List Token → List Char → Option (List Token)
  | 0, tokens, text => if text.isEmpty then some tokens.reverse else none
  | count + 1, tokens, text =>
    match text.dropWhile isGap with
    | [] => some tokens.reverse
    | rest => do
      let (token, rest) ← lexToken? rest
      lexTokens? count (token :: tokens) rest

/-- The tokens of a text. -/
def tokens? (text : List Char) : Option (List Token) :=
  lexTokens? text.length [] text

end Cartridge.Json
