/-
This file defines the cartridge layouts: how the bytes of an image appear on the
processor's bus. Each layout has a bank size, a number of bytes that it can reach at
all, a place for the internal header, and two partial maps between image offsets and
bus addresses. Every reachable offset has one canonical address; many addresses are
mirrors of one offset.
-/

import Cartridge.Address

namespace Cartridge

/-- How an image is laid out on the bus. -/
inductive Layout where
  /-- Banks of 32 KiB in the upper half of each bus bank. -/
  | loRom
  /-- Banks of 64 KiB. -/
  | hiRom
  /-- Banks of 64 KiB past 4 MiB: the first 4 MiB at `$C0` to `$FF`, the rest from `$40`. -/
  | exHiRom
deriving DecidableEq

namespace Layout

/-- All layouts, in order of preference. -/
def all : List Layout :=
  [.loRom, .hiRom, .exHiRom]

/-- The name shown to readers. -/
def title : Layout → String
  | .loRom => "LoROM"
  | .hiRom => "HiROM"
  | .exHiRom => "ExHiROM"

/-- The name used in options and documents. -/
def keyword : Layout → String
  | .loRom => "lorom"
  | .hiRom => "hirom"
  | .exHiRom => "exhirom"

/-- The number of image bytes in one bank. -/
def bankSize : Layout → Nat
  | .loRom => 0x8000
  | .hiRom | .exHiRom => 0x10000

/-- The largest image that the two plain layouts can address. -/
def plainReach : Nat := 0x400000

/-- The number of image bytes that have an address. -/
def reach : Layout → Nat
  | .loRom | .hiRom => plainReach
  | .exHiRom => 0x7E0000

/-- The image offset of the internal header. -/
def headerOffset : Layout → Nat
  | .loRom => 0x7FC0
  | .hiRom => 0xFFC0
  | .exHiRom => 0x40FFC0

/-! ### From offsets to addresses -/

/-- The bus bank in which the bank of an image with a given index has its canonical
address. Work RAM takes the bus banks `$7E` and `$7F`, so the last two banks of the
32 KiB layout appear at `$FE` and `$FF`. -/
def canonicalBank (layout : Layout) (index : Nat) : Nat :=
  match layout with
  | .loRom => if 0x7E ≤ index then index + 0x80 else index
  | .hiRom => index
  | .exHiRom => if index < 0x40 then index + 0xC0 else index

/-- The place of the first byte of an image bank in its bus bank. -/
def base : Layout → Nat
  | .loRom => 0x8000
  | .hiRom | .exHiRom => 0

/-- The canonical address of an offset, if the layout reaches it. -/
def address? (layout : Layout) (offset : Nat) : Option Address :=
  if offset < layout.reach then
    some ⟨UInt8.ofNat (layout.canonicalBank (offset / layout.bankSize)),
      UInt16.ofNat (layout.base + offset % layout.bankSize)⟩
  else none

/-! ### From addresses to offsets -/

/-- The offset of a bus address in an image without end, if the layout puts image
bytes there. -/
def offset? (layout : Layout) (address : Address) : Option Nat :=
  let bank := address.bank.toNat
  let low := address.low.toNat
  if bank = 0x7E ∨ bank = 0x7F then none
  else match layout with
    | .loRom => if low < 0x8000 then none else some (bank % 0x80 * 0x8000 + (low - 0x8000))
    | .hiRom => some (bank % 0x40 * 0x10000 + low)
    | .exHiRom =>
      if 0xC0 ≤ bank then some ((bank - 0xC0) * 0x10000 + low)
      else if 0x80 ≤ bank then
        if low < 0x8000 then none else some ((bank - 0x80) * 0x10000 + low)
      else if 0x40 ≤ bank then some (plainReach + (bank - 0x40) * 0x10000 + low)
      else if bank ≤ 0x3D ∧ 0x8000 ≤ low then some (plainReach + bank * 0x10000 + low)
      else none

theorem bankSize_pos (layout : Layout) : 0 < layout.bankSize := by
  cases layout <;> decide

/-- A bank window fits into a bus bank. -/
theorem base_add_bankSize_le (layout : Layout) : layout.base + layout.bankSize ≤ 0x10000 := by
  cases layout <;> decide

/-- An offset has a canonical address exactly when the layout reaches it. -/
theorem address?_isSome_iff (layout : Layout) (offset : Nat) :
    (layout.address? offset).isSome ↔ offset < layout.reach := by
  unfold address?
  split <;> simp_all

theorem exists_address? {layout : Layout} {offset : Nat} (reached : offset < layout.reach) :
    ∃ address, layout.address? offset = some address :=
  Option.isSome_iff_exists.mp ((layout.address?_isSome_iff offset).mpr reached)

/-- No layout finds image bytes in work RAM. -/
theorem offset?_workRam (layout : Layout) {address : Address}
    (workRam : address.bank = 0x7E ∨ address.bank = 0x7F) : layout.offset? address = none := by
  rcases workRam with first | second
  · simp [offset?, first]
  · simp [offset?, second]

end Layout

end Cartridge
