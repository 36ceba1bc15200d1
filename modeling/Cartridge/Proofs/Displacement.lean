/-
This file proves where branches lead. The operand of a branch holds a distance in two's
complement, which is counted from the end of the branch and wraps inside the bus bank. The bus
bank shows no other bank of the image, so a target in the image lies in the bank window of its
source. Where the distance does not lead out of that window, the target is as far away in the
image as it is on the bus; where it does, the target wraps, back into the same window or to an
address that shows no byte of the image.
-/

import Cartridge.Proofs.Assembler
import Cartridge.Proofs.Mirrors

namespace Cartridge

/-! ### Distances -/

namespace Operand

/-- The distance that an operand holds: its value in two's complement. -/
def displacement (operand : Operand) : Int :=
  if 2 * operand.value < Hex.capacity (2 * operand.size) then operand.value
  else operand.value - Hex.capacity (2 * operand.size)

example : (Operand.byte 0x7F).displacement = 127 ∧ (Operand.byte 0x80).displacement = -128 ∧
    (Operand.word 0xFF 0xFF).displacement = -1 := by decide

theorem bmod_value (operand : Operand) :
    Int.bmod operand.value (Hex.capacity (2 * operand.size)) = operand.displacement := by
  have bound := operand.value_lt
  have small : (operand.value : Int) % (Hex.capacity (2 * operand.size) : Nat) = operand.value :=
    Int.emod_eq_of_lt (by omega) (by omega)
  rw [Int.bmod_def, small, displacement]
  split <;> split <;> omega

end Operand

namespace Address

theorem low_advance (address : Address) (delta : Int) :
    ((address.advance delta).low.toNat : Int) = (address.low.toNat + delta) % 0x10000 := by
  have positive : 0 ≤ ((address.low.toNat : Int) + delta) % 0x10000 := by omega
  simp only [advance, UInt16.toNat_ofNat']
  omega

end Address

namespace Instruction

variable {layout : Layout} {image : Image} {offset : Nat} {processor : Processor}
  {instruction : Instruction} {address : Address}

/-- A relative operand refers to the place that its distance leads to from the end of the
instruction. -/
theorem Regular.resolvedAddress_of_relative (regular : instruction.Regular)
    (relative : instruction.mode = .relative ∨ instruction.mode = .relativeLong) :
    instruction.resolvedAddress = some (instruction.address.advance
      (instruction.size + instruction.operand.displacement)) := by
  have distance := instruction.operand.bmod_value
  have length : (instruction.size : Int) = 1 + instruction.operand.size := by
    rw [Instruction.size, Int.natCast_add, Int.natCast_one]
  rw [length, ← distance]
  rcases relative with short | long
  · have one : instruction.operand.size = 1 := by
      rw [regular.size (by rw [short]; decide), short]
      rfl
    rw [regular.relative short, one]
    rfl
  · have two : instruction.operand.size = 2 := by
      rw [regular.size (by rw [long]; decide), long]
      rfl
    rw [regular.relativeLong long, two]
    rfl

/-- A branch leads as far from its end as its operand says. -/
theorem eq_advance_of_branches (decoded : decode layout image offset processor = .ok instruction)
    (branches : instruction.flow = .branch address ∨ instruction.flow = .goto address) :
    address = instruction.address.advance
      (instruction.size + instruction.operand.displacement) := by
  obtain ⟨isBranch, target⟩ := target_of_branches branches
  have relative : instruction.mode = .relative ∨ instruction.mode = .relativeLong :=
    Opcode.mode_of_isBranch isBranch
  have resolved := (Regular.of_decode decoded).resolvedAddress_of_relative relative
  have direct : instruction.target = instruction.resolvedAddress := by
    rcases relative with short | long
    · rw [Instruction.target, short]
    · rw [Instruction.target, long]
  rw [direct, resolved, Option.some.injEq] at target
  exact target.symm

end Instruction

/-! ### Windows -/

namespace Layout

variable {layout : Layout} {offset target : Nat} {address : Address}

/-- A layout shows bank windows whole. -/
theorem lt_reach_of_div_eq (reached : offset < layout.reach)
    (same : target / layout.bankSize = offset / layout.bankSize) : target < layout.reach := by
  cases layout <;> simp only [reach, plainReach, bankSize] at reached same ⊢ <;> omega

/-- Inside a bank window, offsets and canonical addresses move together. -/
theorem address?_of_div_eq (placed : layout.address? offset = some address)
    (same : target / layout.bankSize = offset / layout.bankSize) :
    layout.address? target = some (address.advance (target - offset)) := by
  obtain ⟨reached, bank, low⟩ := address?_eq_some_iff.mp placed
  have moved := address.low_advance (target - offset)
  have window := layout.base_add_bankSize_le
  have before := Nat.div_add_mod offset layout.bankSize
  have after := Nat.div_add_mod target layout.bankSize
  have inBank := Nat.mod_lt target layout.bankSize_pos
  refine address?_eq_some_iff.mpr ⟨lt_reach_of_div_eq reached same, ?_, ?_⟩
  · rw [Address.bank_advance, same, bank]
  · rw [same] at after
    omega

end Layout

/-! ### Branches -/

/-- A branch goes to the place in its bus bank that is as far from its end as its operand says,
modulo the size of a bus bank. If the image has a byte there, it lies in the bank window of the
branch; and if as many bytes on in the image lies in that window too, it is that byte. -/
theorem Board.branch_target {board : Board} {offset : Nat} {processor : Processor}
    {instruction : Instruction} {address : Address}
    (decoded : Instruction.decode board.layout board.image offset processor = .ok instruction)
    (branches : instruction.flow = .branch address ∨ instruction.flow = .goto address) :
    address.bank = instruction.address.bank ∧
    (address.low.toNat : Int) = (instruction.address.low.toNat + instruction.size +
      instruction.operand.displacement) % 0x10000 ∧
    (∀ target, board.wiring.offset? address = some target →
      target / board.layout.bankSize = offset / board.layout.bankSize) ∧
    ∀ target : Nat, (target : Int) = offset + instruction.size +
        instruction.operand.displacement →
      target / board.layout.bankSize = offset / board.layout.bankSize →
      target < board.image.size → board.wiring.offset? address = some target := by
  have moved := Instruction.eq_advance_of_branches decoded branches
  refine ⟨Instruction.bank_of_branches decoded branches, ?_, fun target found => ?_,
    fun target far window inside => ?_⟩
  · rw [moved, Address.low_advance, Int.add_assoc]
  · exact board.div_eq_of_branches decoded branches found
  · have placed := (Instruction.decode_eq_ok_iff.mp decoded).2.1
    have distance : (instruction.size : Int) + instruction.operand.displacement =
        target - offset := by omega
    rw [distance] at moved
    have shown := Layout.address?_of_div_eq placed window
    rw [← moved] at shown
    exact Wiring.offset?_eq_some_iff.mpr ⟨Layout.offset?_of_address? shown, inside⟩

/-- `NOP`, and `BNE` back to it. -/
def loopingBackImage : Image :=
  ⟨#[0xEA, 0xD0, 0xFD]⟩

/-- The distance of the branch is -3, counted from offset 3. -/
theorem Board.branch_target_backward :
    let board : Board := ⟨.loRom, loopingBackImage⟩
    let branch : Instruction := ⟨1, ⟨0x00, 0x8001⟩, 0xD0, .byte 0xFD, some 0x8000⟩
    Instruction.decode board.layout board.image 1 {} = .ok branch ∧
      branch.flow = .branch ⟨0x00, 0x8000⟩ ∧ branch.operand.displacement = -3 ∧
      board.wiring.offset? ⟨0x00, 0x8000⟩ = some 0 := by
  intro board branch
  have decoded : Instruction.decode board.layout board.image 1 {} = .ok branch := by
    decide +kernel
  have branches : branch.flow = .branch ⟨0x00, 0x8000⟩ := by decide
  refine ⟨decoded, branches, by decide, ?_⟩
  exact (branch_target decoded (Or.inl branches)).2.2.2 0 (by decide) (by decide) (by decide)

end Cartridge
