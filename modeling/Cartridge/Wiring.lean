/-
This file wires an image of a known length to the bus: the maps of a layout cut off
at the end of the image, the end of the bank window around an offset, and the table
of banks with their mirrors. The program counter wraps inside a bank, so
straight-line code never runs past the end of its bank window.
-/

import Cartridge.Layout

namespace Cartridge

/-- A layout together with the length of the image it is applied to. -/
structure Wiring where
  /-- The layout. -/
  layout : Layout
  /-- The number of bytes of the image. -/
  length : Nat
deriving DecidableEq

/-- One bank of an image and where the bus shows it. -/
structure Bank where
  /-- The canonical bus bank. -/
  number : UInt8
  /-- The image offset of its first byte. -/
  offset : Nat
  /-- The place of its first byte in the bus bank. -/
  first : UInt16
  /-- The last place of the bus bank that the layout gives to it. -/
  last : UInt16
  /-- The layout that puts it there. -/
  layout : Layout
  /-- The number of bytes present; the last bank may be short. -/
  size : Nat
  /-- Another bus bank that shows the same bytes. -/
  mirror : Option UInt8
deriving DecidableEq

namespace Wiring

/-- The canonical address of an offset. The length of the image plays no part. -/
def address? (wiring : Wiring) (offset : Nat) : Option Address :=
  wiring.layout.address? offset

/-- The offset of an address, if the image has a byte there. -/
def offset? (wiring : Wiring) (address : Address) : Option Nat :=
  (wiring.layout.offset? address).filter (· < wiring.length)

/-- The number of bytes of the image that have an address. -/
def mappedSize (wiring : Wiring) : Nat :=
  min wiring.length wiring.layout.reach

/-- The first offset past the bank window around an offset. The product has no bound here; in
words of 64 bits it overflows for offsets within one bank of `2 ^ 64`, at which no image has a
byte. -/
def bankEnd (wiring : Wiring) (offset : Nat) : Nat :=
  min ((offset / wiring.layout.bankSize + 1) * wiring.layout.bankSize) wiring.length

/-! ### The bank table -/

/-- Another bus bank that shows the bank with a given canonical number. The extended
layout repeats only upper halves, at `$80` to `$BF` and from `$00`. -/
def mirrorBank (layout : Layout) (number : UInt8) : Option UInt8 :=
  match layout with
  | .loRom => if number < 0x80 then some (number ||| 0x80) else none
  | .hiRom => some (number ||| 0xC0)
  | .exHiRom => some (number - 0x40)

/-- The bank with a given index, if the layout reaches it. -/
def bank? (wiring : Wiring) (index : Nat) : Option Bank :=
  let size := wiring.layout.bankSize
  let offset := index * size
  (wiring.address? offset).map fun address =>
    { number := address.bank
      offset := offset
      first := address.low
      last := UInt16.ofNat (address.low.toNat + (size - 1))
      layout := wiring.layout
      size := min size (wiring.length - offset)
      mirror := mirrorBank wiring.layout address.bank }

/-- The banks of the image, in ascending order. -/
def banks (wiring : Wiring) : List Bank :=
  let size := wiring.layout.bankSize
  (List.range ((wiring.mappedSize + size - 1) / size)).filterMap wiring.bank?

theorem offset?_lt_length {wiring : Wiring} {address : Address} {offset : Nat}
    (found : wiring.offset? address = some offset) : offset < wiring.length := by
  rw [offset?, Option.filter_eq_some_iff] at found
  simpa using found.2

end Wiring

end Cartridge
