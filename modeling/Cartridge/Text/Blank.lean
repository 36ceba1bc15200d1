/-
This file holds the class of blank characters, those with the White_Space property
of the character standard, and the trimming of a text at both ends. An address may
be given with any of them around it.
-/

namespace Cartridge.Blank

/-- The twenty-five blank characters, as code points in ascending order. -/
def codePoints : List Nat :=
  [0x09, 0x0A, 0x0B, 0x0C, 0x0D, 0x20, 0x85, 0xA0, 0x1680, 0x2000, 0x2001, 0x2002, 0x2003,
    0x2004, 0x2005, 0x2006, 0x2007, 0x2008, 0x2009, 0x200A, 0x2028, 0x2029, 0x202F, 0x205F,
    0x3000]

/-- Whether a character is blank. -/
def isBlank (character : Char) : Bool :=
  codePoints.contains character.toNat

/-- The text without the blanks at its start. -/
def trimStart (text : List Char) : List Char :=
  text.dropWhile isBlank

/-- The text without the blanks at its start and at its end. -/
def trim (text : List Char) : List Char :=
  (trimStart (trimStart text).reverse).reverse

end Cartridge.Blank
