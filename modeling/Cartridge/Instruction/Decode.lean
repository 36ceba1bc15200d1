/-
This file decodes the instruction at an image offset under the register widths of a
processor state. Decoding fails when the image ends before the instruction does, or
when the layout gives the offset no address. A decoded instruction stands at the offset
that was asked for and holds the bytes of the image there.
-/

import Cartridge.Image
import Cartridge.Instruction
import Cartridge.Processor
import Cartridge.Wiring

namespace Cartridge

/-- Why no instruction can be decoded at an offset. -/
inductive DecodeError where
  /-- The image ends before the instruction does. -/
  | truncated (offset needed available : Nat)
  /-- The layout gives the offset no address. -/
  | unmapped (offset : Nat)
deriving DecidableEq

/-- The wording of a decode error. -/
def DecodeError.message : DecodeError → String
  | .truncated offset needed available =>
    "instruction at " ++ Hex.offset offset ++ " needs " ++ toString needed ++ " bytes, " ++
      toString available ++ " available"
  | .unmapped offset =>
    "offset " ++ Hex.offset offset ++ " is outside the mapped part of the image"

/-- An operand of a given size at an offset, if the image holds all of it. -/
def Operand.read? (image : Image) (offset : Nat) : Nat → Option Operand
  | 0 => some .absent
  | 1 => do
    let low ← image.byte? offset
    return .byte low
  | 2 => do
    let low ← image.byte? offset
    let high ← image.byte? (offset + 1)
    return .word low high
  | 3 => do
    let low ← image.byte? offset
    let high ← image.byte? (offset + 1)
    let bank ← image.byte? (offset + 2)
    return .long low high bank
  | _ => none

namespace Instruction

/-- The target of a relative operand: its distance from the end of the instruction is
signed, one of `span` values around zero, and stays inside the bank. -/
def relativeTarget (address : Address) (operand : Operand) (span : Nat) : Nat :=
  (address.advance (1 + operand.size + Int.bmod operand.value span)).toNat

/-- The value that an operand refers to, where it can be told without running code. An
absolute operand lies in the program bank for a jump or a call, is a plain value when it
is pushed, and lies in the data bank otherwise. -/
def resolve? (opcode : Opcode) (operand : Operand) (address : Address)
    (dataBank : Option UInt8) : Option Nat :=
  match opcode.mode with
  | .immediate | .absoluteLong => some operand.value
  | .relative => some (relativeTarget address operand 0x100)
  | .relativeLong => some (relativeTarget address operand 0x10000)
  | .absolute => match opcode.mnemonic with
    | .jmp | .jsr => some (Address.mk address.bank (UInt16.ofNat operand.value)).toNat
    | .pea => some operand.value
    | _ => dataBank.map fun bank => (Address.mk bank (UInt16.ofNat operand.value)).toNat
  | _ => none

/-- The number of operand bytes of an opcode byte under the widths of a processor state. -/
def operandSizeUnder (processor : Processor) (code : UInt8) : Nat :=
  (Opcode.ofByte code).operandSizeWith processor.wideAccumulator processor.wideIndex

/-- Decodes the instruction at an offset. -/
def decode (layout : Layout) (image : Image) (offset : Nat) (processor : Processor) :
    Except DecodeError Instruction :=
  match image.byte? offset with
  | none => .error (.truncated offset 1 (image.size - offset))
  | some code =>
    match layout.address? offset with
    | none => .error (.unmapped offset)
    | some address =>
      match Operand.read? image (offset + 1) (operandSizeUnder processor code) with
      | none =>
        .error (.truncated offset (1 + operandSizeUnder processor code) (image.size - offset))
      | some operand =>
        .ok ⟨offset, address, code, operand,
          resolve? (Opcode.ofByte code) operand address processor.dataBank⟩

/-- What a successful decoding tells about the image. -/
theorem decode_eq_ok_iff {layout : Layout} {image : Image} {offset : Nat}
    {processor : Processor} {instruction : Instruction} :
    decode layout image offset processor = .ok instruction ↔
      image.byte? offset = some instruction.code ∧
        layout.address? offset = some instruction.address ∧
        Operand.read? image (offset + 1) (operandSizeUnder processor instruction.code) =
          some instruction.operand ∧
        instruction.offset = offset ∧
        instruction.resolved = resolve? instruction.opcode instruction.operand
          instruction.address processor.dataBank := by
  constructor
  · intro decoded
    unfold decode at decoded
    split at decoded
    · exact nomatch decoded
    · rename_i code codeAt
      split at decoded
      · exact nomatch decoded
      · rename_i address addressAt
        split at decoded
        · exact nomatch decoded
        · rename_i operand operandAt
          injection decoded with same
          subst same
          exact ⟨codeAt, addressAt, operandAt, rfl, rfl⟩
  · rintro ⟨codeAt, addressAt, operandAt, here, resolves⟩
    obtain ⟨start, address, code, operand, resolved⟩ := instruction
    simp only [opcode] at codeAt addressAt operandAt here resolves
    subst here
    simp only [decode, codeAt, addressAt, operandAt, resolves]

/-- A decoded instruction stands where it was asked for. -/
theorem offset_of_decode {layout : Layout} {image : Image} {offset : Nat} {processor : Processor}
    {instruction : Instruction}
    (decoded : decode layout image offset processor = .ok instruction) :
    instruction.offset = offset :=
  (decode_eq_ok_iff.mp decoded).2.2.2.1

end Instruction

end Cartridge
