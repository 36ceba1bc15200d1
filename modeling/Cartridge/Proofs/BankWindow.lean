/-
This file proves that a branch never leaves the bank window of the instruction that
makes it. A relative operand moves the place inside the bus bank and wraps at its ends;
the canonical bus bank of a bank of the image shows no other bank of it; and every
operation that branches inside a routine takes a relative operand. So whatever the
displacement, a branch target that lies in the image lies in the window of its source.
-/

import Cartridge.Board

namespace Cartridge

/-! ### A canonical bus bank shows one bank of the image -/

namespace Layout

/-- The canonical bus bank of a reachable bank of an image is a byte. -/
theorem canonicalBank_lt {layout : Layout} {index : Nat}
    (reached : index * layout.bankSize < layout.reach) : layout.canonicalBank index < 256 := by
  cases layout <;> simp only [canonicalBank, bankSize, reach, plainReach] at reached ⊢
  · split <;> omega
  · omega
  · split <;> omega

/-- The addresses of a canonical bus bank lead into the bank of the image that it shows. -/
theorem div_bankSize_of_canonicalBank {layout : Layout} {index target : Nat} {address : Address}
    (reached : index * layout.bankSize < layout.reach)
    (bank : address.bank.toNat = layout.canonicalBank index)
    (found : layout.offset? address = some target) : target / layout.bankSize = index := by
  have lowBound := address.low.toNat_lt
  unfold offset? at found
  cases layout with
  | loRom =>
    simp only [canonicalBank, bankSize, reach, plainReach, Option.ite_none_left_eq_some,
      Option.some.injEq] at reached bank found ⊢
    split at bank <;> omega
  | hiRom =>
    simp only [canonicalBank, bankSize, reach, plainReach, Option.ite_none_left_eq_some,
      Option.some.injEq] at reached bank found ⊢
    omega
  | exHiRom =>
    simp only [canonicalBank, bankSize, reach, plainReach, Option.ite_none_left_eq_some]
      at reached bank found ⊢
    obtain ⟨_, found⟩ := found
    split at bank
    · rw [if_pos (by omega), Option.some.injEq] at found
      omega
    · rw [if_neg (by omega), if_neg (by omega), if_pos (by omega), Option.some.injEq] at found
      omega

/-- An address in the bus bank of the canonical address of an offset leads back into the
bank window of that offset. -/
theorem div_bankSize_of_offset? {layout : Layout} {offset target : Nat} {address moved : Address}
    (placed : layout.address? offset = some address) (sameBank : moved.bank = address.bank)
    (found : layout.offset? moved = some target) :
    target / layout.bankSize = offset / layout.bankSize := by
  rw [address?, Option.ite_none_right_eq_some, Option.some.injEq] at placed
  have reached : offset / layout.bankSize * layout.bankSize < layout.reach :=
    Nat.lt_of_le_of_lt (Nat.div_mul_le_self _ _) placed.1
  refine div_bankSize_of_canonicalBank reached ?_ found
  rw [sameBank, ← placed.2, UInt8.toNat_ofNat', Nat.mod_eq_of_lt (canonicalBank_lt reached)]

end Layout

/-! ### The window of an offset -/

namespace Wiring

/-- The offsets of one bank window have the same window end. -/
theorem bankEnd_eq_of_div_eq {wiring : Wiring} {first second : Nat}
    (same : first / wiring.layout.bankSize = second / wiring.layout.bankSize) :
    wiring.bankEnd first = wiring.bankEnd second := by
  rw [bankEnd, bankEnd, same]

/-- An offset at or after another one and before the end of its bank window lies in the
same window. -/
theorem div_eq_of_lt_bankEnd {wiring : Wiring} {start offset : Nat} (after : start ≤ offset)
    (before : offset < wiring.bankEnd start) :
    offset / wiring.layout.bankSize = start / wiring.layout.bankSize := by
  rw [bankEnd, Nat.lt_min] at before
  apply Nat.le_antisymm
  · exact Nat.lt_succ_iff.mp ((Nat.div_lt_iff_lt_mul wiring.layout.bankSize_pos).mpr before.1)
  · exact Nat.div_le_div_right after

end Wiring

/-! ### Branches are relative -/

/-- An operation that branches inside a routine. -/
def Mnemonic.isBranch (mnemonic : Mnemonic) : Bool :=
  mnemonic.isConditionalBranch || mnemonic == .bra || mnemonic == .brl

/-- Every opcode that branches inside a routine takes a relative operand. -/
theorem Opcode.mode_of_isBranch {code : UInt8} (branches : (ofByte code).mnemonic.isBranch) :
    (ofByte code).mode = .relative ∨ (ofByte code).mode = .relativeLong := by
  have table : ∀ row column : Fin 16, ((matrix.get row).get column).mnemonic.isBranch →
      ((matrix.get row).get column).mode = .relative ∨
        ((matrix.get row).get column).mode = .relativeLong := by
    decide
  exact table _ _ branches

namespace Instruction

/-- A branch has its target from its operand, and its operation is one that branches. -/
theorem target_of_branches {instruction : Instruction} {address : Address}
    (branches : instruction.flow = .branch address ∨ instruction.flow = .goto address) :
    instruction.mnemonic.isBranch ∧ instruction.target = some address := by
  unfold flow at branches
  split at branches <;> (try split at branches) <;> simp_all [Mnemonic.isBranch,
    Mnemonic.isConditionalBranch]

/-- A relative operand refers to a place in the bus bank of its instruction. -/
theorem resolve?_of_relative {opcode : Opcode}
    (relative : opcode.mode = .relative ∨ opcode.mode = .relativeLong) (operand : Operand)
    (address : Address) (dataBank : Option UInt8) :
    ∃ delta : Int,
      resolve? opcode operand address dataBank = some (address.advance delta).toNat := by
  rcases relative with short | long
  · refine ⟨1 + operand.size + Int.bmod operand.value 0x100, ?_⟩
    simp only [resolve?, short, relativeTarget]
  · refine ⟨1 + operand.size + Int.bmod operand.value 0x10000, ?_⟩
    simp only [resolve?, long, relativeTarget]

/-- The target of a branch lies in the bus bank of the branch. -/
theorem bank_of_branches {layout : Layout} {image : Image} {offset : Nat} {processor : Processor}
    {instruction : Instruction} {address : Address}
    (decoded : decode layout image offset processor = .ok instruction)
    (branches : instruction.flow = .branch address ∨ instruction.flow = .goto address) :
    address.bank = instruction.address.bank := by
  obtain ⟨isBranch, target⟩ := target_of_branches branches
  obtain ⟨-, -, -, -, resolved⟩ := decode_eq_ok_iff.mp decoded
  have relative : instruction.opcode.mode = .relative ∨ instruction.opcode.mode = .relativeLong :=
    Opcode.mode_of_isBranch isBranch
  obtain ⟨delta, resolves⟩ := resolve?_of_relative relative instruction.operand
    instruction.address processor.dataBank
  have found : instruction.target = some (instruction.address.advance delta) := by
    rw [Instruction.target, mode, resolvedAddress, resolved, resolves, Option.map_some,
      Address.ofNat_toNat]
    rcases relative with short | long
    · rw [short]
    · rw [long]
  rw [found, Option.some.injEq] at target
  rw [← target, Address.bank_advance]

end Instruction

/-- A branch target that lies in the image lies in the bank window of the branch. -/
theorem Board.div_eq_of_branches {board : Board} {offset target : Nat} {processor : Processor}
    {instruction : Instruction} {address : Address}
    (decoded : Instruction.decode board.layout board.image offset processor = .ok instruction)
    (branches : instruction.flow = .branch address ∨ instruction.flow = .goto address)
    (found : board.wiring.offset? address = some target) :
    target / board.layout.bankSize = offset / board.layout.bankSize := by
  have placed := (Instruction.decode_eq_ok_iff.mp decoded).2.1
  rw [Wiring.offset?, Option.filter_eq_some_iff] at found
  exact Layout.div_bankSize_of_offset? placed (Instruction.bank_of_branches decoded branches)
    found.1

end Cartridge
