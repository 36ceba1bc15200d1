/-
This file defines the internal header of a cartridge: sixty-four bytes with a title,
the declared layout, sizes, a checksum with its complement, and the table of interrupt
pointers. A header may be read at any offset; how plausible it is as the header of a
given layout is counted in points out of a hundred.
-/

import Cartridge.Image
import Cartridge.Layout

namespace Cartridge

/-- The internal header. -/
structure Header where
  /-- The image offset at which it was read. -/
  offset : Nat
  titleBytes : Vector UInt8 21
  mapMode : UInt8
  cartridgeType : UInt8
  romSize : UInt8
  sramSize : UInt8
  region : UInt8
  developer : UInt8
  version : UInt8
  complement : UInt16
  checksum : UInt16
  /-- The words at the places from `$FFE0` on. -/
  vectorTable : Vector UInt16 16
deriving DecidableEq

namespace Header

/-- The number of bytes of a header with its table of pointers. -/
def size : Nat := 0x40

/-- The header at an offset, if the image holds all of it. -/
def read? (image : Image) (offset : Nat) : Option Header :=
  if offset + size ≤ image.size then
    let byte (index : Nat) := (image.byte? (offset + index)).getD 0
    let word (index : Nat) := (image.word? (offset + index)).getD 0
    some
      { offset := offset
        titleBytes := Vector.ofFn fun index => byte index
        mapMode := byte 0x15
        cartridgeType := byte 0x16
        romSize := byte 0x17
        sramSize := byte 0x18
        region := byte 0x19
        developer := byte 0x1A
        version := byte 0x1B
        complement := word 0x1C
        checksum := word 0x1E
        vectorTable := Vector.ofFn fun index => word (0x20 + 2 * index) }
  else none

theorem read?_isSome_iff (image : Image) (offset : Nat) :
    (read? image offset).isSome ↔ offset + size ≤ image.size := by
  unfold read?
  split <;> simp_all

/-! ### The title -/

/-- Whether a byte is a printable character. -/
def isPrintable (byte : UInt8) : Bool :=
  decide (0x20 ≤ byte) && decide (byte ≤ 0x7E)

/-- The character of a title byte; what cannot be printed shows as a question mark. -/
def titleCharacter (byte : UInt8) : Char :=
  if isPrintable byte then Char.ofNat byte.toNat else '?'

/-- The title without the blanks and question marks at its end. -/
def title (header : Header) : String :=
  let characters := header.titleBytes.toList.map titleCharacter
  String.ofList
    (characters.reverse.dropWhile fun character => character == ' ' || character == '?').reverse

/-- The number of printable bytes of the title. -/
def printableTitleBytes (header : Header) : Nat :=
  header.titleBytes.toList.countP isPrintable

/-! ### Plausibility -/

/-- Whether the map mode is a known one; a bit for the bus speed is free. -/
def mapModeValid (header : Header) : Bool :=
  [0x20, 0x21, 0x22, 0x23, 0x25, 0x2A].contains (header.mapMode &&& 0xEF)

/-- The layout that a known map mode declares. -/
def declaredLayout? (header : Header) : Option Layout :=
  if header.mapModeValid then
    if header.mapMode &&& 0x0F = 0x05 then some .exHiRom
    else if header.mapMode &&& 0x01 = 0x01 then some .hiRom
    else some .loRom
  else none

/-- Whether the cartridge type names a known set of chips. -/
def cartridgeTypeValid (header : Header) : Bool :=
  let low := header.cartridgeType.toNat % 16
  let high := header.cartridgeType.toNat / 16
  if high = 0 then decide (low ≤ 6) else decide (3 ≤ low) && decide (low ≤ 6)

/-- Whether the checksum and its complement agree. -/
def checksumPairValid (header : Header) : Bool :=
  header.checksum ^^^ header.complement == 0xFFFF

/-- The declared size in bytes, if it is a sensible power of two. -/
def declaredSize? (header : Header) : Option Nat :=
  if 0 < header.romSize ∧ header.romSize < 16 then some (0x400 <<< header.romSize.toNat) else none

/-- Up to 35 points for the share of the title that is printable. -/
def titlePoints (header : Header) : Nat :=
  35 * header.printableTitleBytes / 21

/-- Ten points for a known map mode, and five more if it declares the layout. -/
def modePoints (header : Header) (expected : Layout) : Nat :=
  match header.declaredLayout? with
  | some layout => if layout = expected then 15 else 10
  | none => 0

/-- Five points for a known cartridge type. -/
def typePoints (header : Header) : Nat :=
  if header.cartridgeTypeValid then 5 else 0

/-- Forty-five points for a checksum that agrees with its complement. -/
def pairPoints (header : Header) : Nat :=
  if header.checksumPairValid then 45 else 0

/-- How plausible the header is for a layout, in points out of a hundred. -/
def score (header : Header) (expected : Layout) : Nat :=
  header.titlePoints + header.modePoints expected + header.typePoints + header.pairPoints

theorem printableTitleBytes_le (header : Header) : header.printableTitleBytes ≤ 21 := by
  have bound := List.countP_le_length (p := isPrintable) (l := header.titleBytes.toList)
  rwa [Vector.length_toList] at bound

theorem titlePoints_le (header : Header) : header.titlePoints ≤ 35 := by
  have printable := header.printableTitleBytes_le
  unfold titlePoints
  omega

theorem modePoints_le (header : Header) (expected : Layout) : header.modePoints expected ≤ 15 := by
  unfold modePoints
  split
  · split <;> decide
  · decide

theorem typePoints_le (header : Header) : header.typePoints ≤ 5 := by
  unfold typePoints
  split <;> decide

theorem pairPoints_le (header : Header) : header.pairPoints ≤ 45 := by
  unfold pairPoints
  split <;> decide

/-- No header earns more than a hundred points. -/
theorem score_le (header : Header) (expected : Layout) : header.score expected ≤ 100 :=
  Nat.add_le_add
    (Nat.add_le_add (Nat.add_le_add header.titlePoints_le (header.modePoints_le expected))
      header.typePoints_le)
    header.pairPoints_le

end Header

end Cartridge
