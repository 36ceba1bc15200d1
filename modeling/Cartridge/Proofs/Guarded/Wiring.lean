/-
This file guards the maps between offsets and addresses. Neither map fails for any offset or
address; the end of a bank window and the bank table do not fail for offsets inside an image
whose length fits in 63 bits.
-/

import Cartridge.Proofs.Guarded.Operation
import Cartridge.Wiring

namespace Cartridge

namespace Guarded

/-! ### The maps of a layout -/

/-- The canonical address of an offset, guarded. -/
def address? (layout : Layout) (offset : Nat) : Guarded (Option Address) :=
  if offset < layout.reach then do
    let number ← div offset layout.bankSize
    let rest ← mod offset layout.bankSize
    let low ← add 64 layout.base rest
    return some ⟨UInt8.ofNat (layout.canonicalBank number), UInt16.ofNat low⟩
  else return none

theorem address?_eq (layout : Layout) (offset : Nat) :
    address? layout offset = .ok (layout.address? offset) := by
  have positive := layout.bankSize_pos
  have low : layout.base + offset % layout.bankSize < 2 ^ 64 := by
    have rest := Nat.mod_lt offset positive
    have base := layout.base_add_bankSize_le
    omega
  rw [address?, Layout.address?]
  split
  · rw [bind_eq (div_eq (Nat.ne_of_gt positive) _), bind_eq (mod_eq (Nat.ne_of_gt positive) _),
      bind_eq (add_eq low)]
    rfl
  · rfl

/-- The offset of a place in the image bank with a given number, behind a first part of the
image. -/
def placed (part number size place : Nat) : Guarded (Option Nat) := do
  let start ← mul 64 number size
  let bank ← add 64 part start
  let here ← add 64 bank place
  return some here

theorem placed_eq {part number size place : Nat} (fits : part + number * size + place < 2 ^ 64) :
    placed part number size place = .ok (some (part + number * size + place)) := by
  rw [placed, bind_eq (mul_eq (by omega)), bind_eq (add_eq (by omega)), bind_eq (add_eq fits)]
  rfl

/-- The number of a bank in its half of the bus, guarded. -/
def half (bank : Nat) : Guarded Nat :=
  if 0x80 ≤ bank then sub bank 0x80 else return bank

theorem half_eq {bank : Nat} (bound : bank < 0x100) : half bank = .ok (bank % 0x80) := by
  rw [half]
  split
  · rename_i upper
    rw [sub_eq upper]
    exact congrArg Except.ok (by omega)
  · exact congrArg Except.ok (by omega)

/-- The offset of an address in an image without end, guarded. -/
def unbounded? (layout : Layout) (address : Address) : Guarded (Option Nat) :=
  let bank := address.bank.toNat
  let low := address.low.toNat
  if bank = 0x7E ∨ bank = 0x7F then return none
  else match layout with
    | .loRom =>
      if low < 0x8000 then return none
      else do
        let number ← half bank
        let rest ← sub low 0x8000
        placed 0 number 0x8000 rest
    | .hiRom => placed 0 (bank % 0x40) 0x10000 low
    | .exHiRom =>
      if 0xC0 ≤ bank then do
        let number ← sub bank 0xC0
        placed 0 number 0x10000 low
      else if 0x80 ≤ bank then
        if low < 0x8000 then return none
        else do
          let number ← sub bank 0x80
          placed 0 number 0x10000 low
      else if 0x40 ≤ bank then do
        let number ← sub bank 0x40
        placed Layout.plainReach number 0x10000 low
      else if bank ≤ 0x3D ∧ 0x8000 ≤ low then placed Layout.plainReach bank 0x10000 low
      else return none

theorem unbounded?_eq (layout : Layout) (address : Address) :
    unbounded? layout address = .ok (layout.offset? address) := by
  have bankBound : address.bank.toNat < 0x100 := address.bank.toNat_lt
  have lowBound : address.low.toNat < 0x10000 := address.low.toNat_lt
  have plain : Layout.plainReach = 0x400000 := rfl
  unfold unbounded? Layout.offset?
  simp only
  split
  · rfl
  · cases layout with
    | loRom =>
      simp only
      split
      · rfl
      · rename_i upper
        rw [bind_eq (half_eq bankBound), bind_eq (sub_eq (Nat.le_of_not_lt upper)),
          placed_eq (by omega), Nat.zero_add]
    | hiRom =>
      simp only
      rw [placed_eq (by omega), Nat.zero_add]
    | exHiRom =>
      simp only
      split
      · rename_i fast
        rw [bind_eq (sub_eq fast), placed_eq (by omega), Nat.zero_add]
      · split
        · rename_i mirrored
          split
          · rfl
          · rw [bind_eq (sub_eq mirrored), placed_eq (by omega), Nat.zero_add]
        · split
          · rename_i slow
            rw [bind_eq (sub_eq slow), placed_eq (by omega)]
          · split
            · rw [placed_eq (by omega)]
            · rfl

/-! ### The maps of an image -/

/-- The offset of an address, guarded. -/
def offset? (wiring : Wiring) (address : Address) : Guarded (Option Nat) := do
  let found ← unbounded? wiring.layout address
  return found.filter (· < wiring.length)

theorem offset?_eq (wiring : Wiring) (address : Address) :
    offset? wiring address = .ok (wiring.offset? address) := by
  rw [offset?, bind_eq (unbounded?_eq _ _)]
  rfl

/-- The end of the bank window around an offset, guarded. -/
def bankEnd (wiring : Wiring) (offset : Nat) : Guarded Nat := do
  let number ← div offset wiring.layout.bankSize
  let next ← add 64 number 1
  let stop ← mul 64 next wiring.layout.bankSize
  return min stop wiring.length

theorem bankSize_le (layout : Layout) : layout.bankSize ≤ 0x10000 := by
  cases layout <;> decide

theorem bankEnd_eq (wiring : Wiring) {offset : Nat} (bound : offset < 2 ^ 63) :
    bankEnd wiring offset = .ok (wiring.bankEnd offset) := by
  have positive := wiring.layout.bankSize_pos
  have small := bankSize_le wiring.layout
  have number : offset / wiring.layout.bankSize ≤ offset := Nat.div_le_self _ _
  have start := Nat.div_mul_le_self offset wiring.layout.bankSize
  have stop : (offset / wiring.layout.bankSize + 1) * wiring.layout.bankSize < 2 ^ 64 := by
    rw [Nat.add_mul]
    omega
  rw [bankEnd, bind_eq (div_eq (Nat.ne_of_gt positive) _), bind_eq (add_eq (by omega)),
    bind_eq (mul_eq stop)]
  rfl

/-! ### The bank table -/

/-- Another bus bank that shows a bank, guarded: the extended layout has it `$40` before. -/
def mirrorBank (layout : Layout) (number : UInt8) : Guarded (Option UInt8) :=
  match layout with
  | .loRom | .hiRom => return Wiring.mirrorBank layout number
  | .exHiRom => do
    let mirror ← sub number.toNat 0x40
    return some (UInt8.ofNat mirror)

theorem ofNat_sub_half {number : UInt8} (bound : 0x40 ≤ number.toNat) :
    UInt8.ofNat (number.toNat - 0x40) = number - 0x40 := by
  have order : (0x40 : UInt8) ≤ number := UInt8.le_iff_toNat_le.mpr bound
  have small := Nat.lt_of_le_of_lt (Nat.sub_le number.toNat 0x40) number.toNat_lt
  apply UInt8.toNat_inj.mp
  rw [UInt8.toNat_sub_of_le _ _ order, UInt8.toNat_ofNat_of_lt' small]
  rfl

/-- No canonical bank of the extended layout comes before `$40`. -/
theorem mirrorBank_eq {layout : Layout} {offset : Nat} {address : Address}
    (canonical : layout.address? offset = some address) :
    mirrorBank layout address.bank = .ok (Wiring.mirrorBank layout address.bank) := by
  cases layout with
  | loRom => rfl
  | hiRom => rfl
  | exHiRom =>
    unfold Layout.address? at canonical
    split at canonical
    · rename_i reached
      have bound : offset < 0x7E0000 := reached
      have number : 0x40 ≤ address.bank.toNat := by
        obtain rfl := Option.some.inj canonical
        show 0x40 ≤ (UInt8.ofNat (Layout.canonicalBank .exHiRom (offset / 0x10000))).toNat
        rw [UInt8.toNat_ofNat', Layout.canonicalBank]
        split <;> omega
      rw [mirrorBank, bind_eq (sub_eq number), ofNat_sub_half number]
      rfl
    · cases canonical

/-- The bank with a given index, guarded. -/
def bank? (wiring : Wiring) (number : Nat) : Guarded (Option Bank) := do
  let size := wiring.layout.bankSize
  let offset ← mul 64 number size
  match ← address? wiring.layout offset with
  | none => return none
  | some address =>
    let mirror ← mirrorBank wiring.layout address.bank
    let last ← sub size 1
    let rest ← sub wiring.length offset
    return some
      { number := address.bank
        offset := offset
        first := address.low
        last := UInt16.ofNat (address.low.toNat + last)
        layout := wiring.layout
        size := min size rest
        mirror := mirror }

theorem bank?_eq {wiring : Wiring} {number : Nat} (size : wiring.length < 2 ^ 63)
    (inside : number * wiring.layout.bankSize < wiring.length) :
    bank? wiring number = .ok (wiring.bank? number) := by
  have positive := wiring.layout.bankSize_pos
  rw [bank?, bind_eq (mul_eq (by omega)), bind_eq (address?_eq _ _), Wiring.bank?,
    Wiring.address?]
  cases canonical : wiring.layout.address? (number * wiring.layout.bankSize) with
  | none => rfl
  | some address =>
    simp only
    rw [bind_eq (mirrorBank_eq canonical), bind_eq (sub_eq positive),
      bind_eq (sub_eq (Nat.le_of_lt inside))]
    rfl

/-- The banks of an image, guarded. -/
def banks (wiring : Wiring) : Guarded (List Bank) := do
  let count ← divCeil wiring.mappedSize wiring.layout.bankSize
  gather (bank? wiring) (List.range count)

theorem banks_eq {wiring : Wiring} (size : wiring.length < 2 ^ 63) :
    banks wiring = .ok wiring.banks := by
  have positive := wiring.layout.bankSize_pos
  rw [banks, bind_eq (divCeil_eq (Nat.ne_of_gt positive) _)]
  refine gather_eq _ fun number member => bank?_eq size ?_
  have within := List.mem_range.mp member
  have mapped : wiring.mappedSize ≤ wiring.length := Nat.min_le_left _ _
  have before := (Nat.lt_div_iff_mul_lt positive).mp within
  omega

end Guarded

end Cartridge
