/-
This file guards the decoding of an instruction: the row of its opcode byte, the sizes of its
operand and of the whole, the copy of its bytes, the banks of a block move, its cycles and the
distance of a relative operand. None of it fails for an image whose length fits in 63 bits.
-/

import Cartridge.Proofs.Agreement
import Cartridge.Proofs.Guarded.Wiring
import Cartridge.Proofs.Routine

namespace Cartridge

namespace Guarded

/-! ### Opcodes -/

/-- What a byte stands for, guarded: every byte has a row among 256. -/
def opcode (code : UInt8) : Guarded Opcode := do
  index 256 code.toNat
  return Opcode.ofByte code

theorem opcode_eq (code : UInt8) : opcode code = .ok (Opcode.ofByte code) := by
  rw [opcode, bind_eq (index_eq code.toNat_lt)]
  rfl

/-- The number of operand bytes under a processor state, guarded. -/
def operandSize (opcode : Opcode) (processor : Processor) : Guarded Nat :=
  if opcode.mode = .immediate then
    match opcode.mnemonic.immediateWidth with
    | .byte => return 1
    | .accumulator => add 8 1 processor.wideAccumulator.toNat
    | .index => add 8 1 processor.wideIndex.toNat
  else return opcode.operandSize

theorem operandSize_eq (opcode : Opcode) (processor : Processor) : operandSize opcode processor =
    .ok (opcode.operandSizeWith processor.wideAccumulator processor.wideIndex) := by
  have width (wide : Bool) : add 8 1 wide.toNat = .ok (if wide then 2 else 1) := by
    cases wide <;> rfl
  rw [operandSize, Opcode.operandSizeWith]
  split
  · cases opcode.mnemonic.immediateWidth with
    | byte => rfl
    | accumulator => exact width _
    | index => exact width _
  · rfl

/-! ### Guards of an operand -/

/-- Copies the bytes of an instruction into a place for four of them. -/
def store (size : Nat) (bytes : Array UInt8) : Guarded Unit := do
  let room ← slice (Array.replicate 4 (0 : UInt8)) 0 size
  agree room.size bytes.size

/-- Takes the operand behind the opcode byte, if there is one. -/
def takeOperand (length : Nat) (bytes : Array UInt8) : Guarded Unit :=
  if length = 0 then return () else discard (slice bytes 1 bytes.size)

/-- Takes the two banks of a block move. -/
def takeBanks (mode : Mode) (bytes : Array UInt8) : Guarded Unit :=
  match mode with
  | .blockMove => do
    discard (get bytes 1)
    discard (get bytes 2)
  | _ => return ()

/-- Adds the size of an instruction to the distance of a relative operand. -/
def reach (mode : Mode) (size : Nat) (operand : Operand) : Guarded Unit :=
  match mode with
  | .relative => discard (addSigned 32 size (Int.bmod operand.value 0x100))
  | .relativeLong => discard (addSigned 32 size (Int.bmod operand.value 0x10000))
  | _ => return ()

theorem store_eq {size : Nat} {bytes : Array UInt8} (length : bytes.size = size)
    (short : size ≤ 4) : store size bytes = .ok () := by
  have room : (Array.extract (Array.replicate 4 (0 : UInt8)) 0 size).size = bytes.size := by
    rw [Array.size_extract, Array.size_replicate, length]
    omega
  have inside : size ≤ (Array.replicate 4 (0 : UInt8)).size := by
    rw [Array.size_replicate]
    exact short
  rw [store, bind_eq (slice_eq (Nat.zero_le _) inside), agree_eq room]

theorem takeOperand_eq {length : Nat} {bytes : Array UInt8} (size : bytes.size = 1 + length) :
    takeOperand length bytes = .ok () := by
  rw [takeOperand]
  split
  · rfl
  · exact discard_eq ⟨_, slice_eq (by omega) (Nat.le_refl _)⟩

theorem takeBanks_eq {mode : Mode} {bytes : Array UInt8}
    (size : mode = .blockMove → bytes.size = 3) : takeBanks mode bytes = .ok () := by
  cases mode with
  | blockMove =>
    have three : bytes.size = 3 := size rfl
    rw [takeBanks, bind_eq (discard_eq (exists_get_eq (by omega))),
      discard_eq (exists_get_eq (by omega))]
  | _ => rfl

theorem reach_eq {size : Nat} (short : size ≤ 4) (mode : Mode) (operand : Operand) :
    reach mode size operand = .ok () := by
  have near := @Int.le_bmod operand.value 0x100 (by decide)
  have nearTop := @Int.bmod_lt operand.value 0x100 (by decide)
  have far := @Int.le_bmod operand.value 0x10000 (by decide)
  have farTop := @Int.bmod_lt operand.value 0x10000 (by decide)
  cases mode with
  | relative => exact discard_eq ⟨_, addSigned_eq (by omega) (by omega)⟩
  | relativeLong => exact discard_eq ⟨_, addSigned_eq (by omega) (by omega)⟩
  | _ => rfl

/-- No opcode takes more than eight cycles. -/
theorem cycles_le (code : UInt8) : (Opcode.ofByte code).cycles ≤ 8 := by
  have table : ∀ row column : Fin 16, ((Opcode.matrix.get row).get column).cycles ≤ 8 := by
    decide
  exact table _ _

/-! ### Decoding -/

/-- Decodes the instruction at an offset, guarded. -/
def decode (layout : Layout) (image : Image) (offset : Nat) (processor : Processor) :
    Guarded (Except DecodeError Instruction) :=
  match image.byte? offset with
  | none => return .error (.truncated offset 1 (image.size - offset))
  | some code => do
    match ← address? layout offset with
    | none => return .error (.unmapped offset)
    | some address => do
      let opcode ← opcode code
      let length ← operandSize opcode processor
      let size ← add 64 1 length
      let stop ← add 64 offset size
      match Operand.read? image (offset + 1) length with
      | none => return .error (.truncated offset size (image.size - offset))
      | some operand => do
        let bytes ← slice image.bytes offset stop
        store size bytes
        takeOperand length bytes
        takeBanks opcode.mode bytes
        discard (add 8 opcode.cycles (length - opcode.operandSize))
        reach opcode.mode size operand
        return .ok ⟨offset, address, code, operand,
          Instruction.resolve? opcode operand address processor.dataBank⟩

/-- The bytes from an opcode byte inside the image to the end of its operand. -/
theorem size_slice_of_read? {image : Image} {offset length : Nat} {operand : Operand}
    (inside : offset < image.size)
    (read : Operand.read? image (offset + 1) length = some operand) :
    offset + (1 + length) ≤ image.size ∧
      (image.bytes.extract offset (offset + (1 + length))).size = 1 + length := by
  have whole : image.size = image.bytes.size := rfl
  have stop : offset + (1 + length) ≤ image.size := by
    cases length with
    | zero => exact inside
    | succ before =>
      have size := Operand.size_of_read? read
      have last := Operand.byte?_of_read? read (show before < operand.size by omega)
      have listed : before < operand.bytes.length := by
        rw [Operand.length_bytes]
        omega
      have present : (image.byte? (offset + 1 + before)).isSome := by
        rw [last, List.getElem?_eq_getElem listed]
        rfl
      rw [image.byte?_isSome_iff] at present
      omega
  refine ⟨stop, ?_⟩
  rw [Array.size_extract]
  omega

theorem decode_eq {image : Image} (size : image.size < 2 ^ 63) (layout : Layout) (offset : Nat)
    (processor : Processor) : decode layout image offset processor =
      .ok (Instruction.decode layout image offset processor) := by
  rw [decode, Instruction.decode]
  cases here : image.byte? offset with
  | none => rfl
  | some code =>
    have inside : offset < image.size := by
      rw [← image.byte?_isSome_iff, here]
      rfl
    simp only
    rw [bind_eq (address?_eq _ _)]
    cases layout.address? offset with
    | none => rfl
    | some address =>
      have short := Opcode.operandSizeWith_le (Opcode.ofByte code) processor.wideAccumulator
        processor.wideIndex
      simp only
      rw [bind_eq (opcode_eq _), bind_eq (operandSize_eq _ _), bind_eq (add_eq (by omega)),
        bind_eq (add_eq (by omega)), Instruction.operandSizeUnder]
      cases read : Operand.read? image (offset + 1) ((Opcode.ofByte code).operandSizeWith
          processor.wideAccumulator processor.wideIndex) with
      | none => rfl
      | some operand =>
        obtain ⟨stop, length⟩ := size_slice_of_read? inside read
        have cycles := cycles_le code
        have moved (mode : (Opcode.ofByte code).mode = .blockMove) :
            (Opcode.ofByte code).operandSizeWith processor.wideAccumulator
              processor.wideIndex = 2 := by
          rw [Opcode.operandSizeWith, if_neg (mode ▸ by decide), Opcode.operandSize, mode]
          rfl
        simp only
        rw [bind_eq (slice_eq (Nat.le_add_right _ _) stop),
          bind_eq (store_eq length (by omega)), bind_eq (takeOperand_eq length),
          bind_eq (takeBanks_eq fun mode => by rw [length, moved mode]),
          bind_eq (discard_eq ⟨_, add_eq (by omega)⟩), bind_eq (reach_eq (by omega) _ _)]
        rfl

end Guarded

end Cartridge
