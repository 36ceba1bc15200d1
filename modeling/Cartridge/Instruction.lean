/-
This file defines a decoded instruction: where it stands, its opcode byte, its operand
and, where it can be told without running code, the value its operand refers to. What
the opcode means follows from the matrix. The file classifies how control leaves an
instruction and writes it in assembler form.
-/

import Cartridge.Address
import Cartridge.Opcode.Matrix

namespace Cartridge

/-- The operand bytes of an instruction, in the order of the image. -/
inductive Operand where
  | absent
  | byte (low : UInt8)
  | word (low high : UInt8)
  | long (low high bank : UInt8)
deriving DecidableEq

namespace Operand

/-- The bytes of an operand. -/
def bytes : Operand → List UInt8
  | .absent => []
  | .byte low => [low]
  | .word low high => [low, high]
  | .long low high bank => [low, high, bank]

/-- The number of bytes of an operand. -/
def size : Operand → Nat
  | .absent => 0
  | .byte _ => 1
  | .word _ _ => 2
  | .long _ _ _ => 3

/-- The little-endian value of an operand. -/
def value : Operand → Nat
  | .absent => 0
  | .byte low => low.toNat
  | .word low high => low.toNat + 0x100 * high.toNat
  | .long low high bank => low.toNat + 0x100 * high.toNat + 0x10000 * bank.toNat

/-- The first byte of an operand, or zero. -/
def low : Operand → UInt8
  | .absent => 0
  | .byte low | .word low _ | .long low _ _ => low

/-- The value, unless there is no operand. -/
def value? : Operand → Option Nat
  | .absent => none
  | operand => some operand.value

@[simp]
theorem length_bytes (operand : Operand) : operand.bytes.length = operand.size := by
  cases operand <;> rfl

theorem size_le (operand : Operand) : operand.size ≤ 3 := by
  cases operand <;> simp [size]

/-- The value of an operand can be written with two digits to a byte. -/
theorem value_lt (operand : Operand) : operand.value < Hex.capacity (2 * operand.size) := by
  cases operand with
  | absent => decide
  | byte low =>
    have lowBound := low.toNat_lt
    simp only [value, size, Hex.capacity]
    omega
  | word low high =>
    have lowBound := low.toNat_lt
    have highBound := high.toNat_lt
    simp only [value, size, Hex.capacity]
    omega
  | long low high bank =>
    have lowBound := low.toNat_lt
    have highBound := high.toNat_lt
    have bankBound := bank.toNat_lt
    simp only [value, size, Hex.capacity]
    omega

end Operand

/-- The banks between which a block move copies. -/
structure BlockMove where
  source : UInt8
  destination : UInt8
deriving DecidableEq

/-- A decoded instruction. -/
structure Instruction where
  /-- The image offset of the opcode byte. -/
  offset : Nat
  address : Address
  /-- The opcode byte. -/
  code : UInt8
  operand : Operand
  /-- The address or immediate value that the operand refers to, where it is known. -/
  resolved : Option Nat
deriving DecidableEq

/-- How control leaves an instruction. A missing target is one behind a pointer. -/
inductive Flow where
  /-- On to the next instruction. -/
  | next
  /-- Into a routine, and later on to the next instruction. -/
  | call (target : Option Address)
  /-- To the target or on to the next instruction. -/
  | branch (target : Address)
  /-- To a target in the same routine. -/
  | goto (target : Address)
  /-- To another routine. -/
  | jump (target : Option Address)
  /-- Back to the caller. -/
  | leave
  /-- Nowhere: the processor stops. -/
  | halt
deriving DecidableEq

/-- Whether straight-line execution ends here. -/
def Flow.isTerminator : Flow → Bool
  | .goto _ | .jump _ | .leave | .halt => true
  | .next | .call _ | .branch _ => false

namespace Instruction

/-- What the opcode byte stands for. -/
def opcode (instruction : Instruction) : Opcode :=
  Opcode.ofByte instruction.code

/-- The operation. -/
def mnemonic (instruction : Instruction) : Mnemonic :=
  instruction.opcode.mnemonic

/-- The addressing mode. -/
def mode (instruction : Instruction) : Mode :=
  instruction.opcode.mode

/-- The number of bytes. -/
def size (instruction : Instruction) : Nat :=
  1 + instruction.operand.size

/-- The bytes, opcode first. -/
def bytes (instruction : Instruction) : List UInt8 :=
  instruction.code :: instruction.operand.bytes

/-- The first offset after the instruction. -/
def stop (instruction : Instruction) : Nat :=
  instruction.offset + instruction.size

/-- The cycles, one more for an operand that a wide register made longer. -/
def cycles (instruction : Instruction) : Nat :=
  instruction.opcode.cycles + (instruction.operand.size - instruction.opcode.operandSize)

/-- The banks of a block move; the destination comes first in the image. -/
def blockMove? (instruction : Instruction) : Option BlockMove :=
  match instruction.mode, instruction.operand with
  | .blockMove, .word destination source => some ⟨source, destination⟩
  | _, _ => none

/-- The resolved value as an address. -/
def resolvedAddress (instruction : Instruction) : Option Address :=
  instruction.resolved.map Address.ofNat

/-! ### Flow -/

/-- The target of a transfer that does not go through a pointer. -/
def target (instruction : Instruction) : Option Address :=
  match instruction.mode with
  | .absolute | .absoluteLong | .relative | .relativeLong => instruction.resolvedAddress
  | _ => none

/-- How control leaves the instruction. -/
def flow (instruction : Instruction) : Flow :=
  match instruction.mnemonic with
  | .jsr | .jsl => .call instruction.target
  | .rts | .rtl | .rti => .leave
  | .stp => .halt
  | .bra | .brl => match instruction.target with
    | some target => .goto target
    | none => .jump none
  | .jmp | .jml => .jump instruction.target
  | .bpl | .bmi | .bvc | .bvs | .bcc | .bcs | .bne | .beq => match instruction.target with
    | some target => .branch target
    | none => .next
  | _ => .next

/-! ### Assembler form -/

/-- The operand value in hexadecimal, two digits to a byte. -/
def operandDigits (instruction : Instruction) : String :=
  "$" ++ Hex.fixed (2 * instruction.operand.size) instruction.operand.value

/-- The operand in assembler form. A relative operand shows its target, a block move its
source bank before its destination. -/
def operandText (instruction : Instruction) : String :=
  let digits := instruction.operandDigits
  match instruction.mode with
  | .implied => ""
  | .accumulator => "A"
  | .immediate => "#" ++ digits
  | .absolute | .absoluteLong | .direct => digits
  | .absoluteX | .absoluteLongX | .directX => digits ++ ",X"
  | .absoluteY | .directY => digits ++ ",Y"
  | .absoluteIndirect | .directIndirect => "(" ++ digits ++ ")"
  | .absoluteIndexedIndirect | .directIndexedIndirect => "(" ++ digits ++ ",X)"
  | .directIndirectIndexed => "(" ++ digits ++ "),Y"
  | .absoluteIndirectLong | .directIndirectLong => "[" ++ digits ++ "]"
  | .directIndirectLongIndexed => "[" ++ digits ++ "],Y"
  | .stackRelative => digits ++ ",S"
  | .stackRelativeIndirectIndexed => "(" ++ digits ++ ",S),Y"
  | .relative | .relativeLong => match instruction.resolvedAddress with
    | some target => "$" ++ Hex.fixed 4 target.low.toNat
    | none => digits
  | .blockMove => match instruction.blockMove? with
    | some move => "$" ++ Hex.fixed 2 move.source.toNat ++ ",$" ++
        Hex.fixed 2 move.destination.toNat
    | none => digits

/-- The instruction in assembler form. -/
def text (instruction : Instruction) : String :=
  match instruction.mode with
  | .implied => instruction.mnemonic.text
  | _ => instruction.mnemonic.text ++ " " ++ instruction.operandText

/-- The bytes in upper-case hexadecimal with blanks between them. -/
def byteText (instruction : Instruction) : String :=
  " ".intercalate (instruction.bytes.map fun byte => Hex.fixed 2 byte.toNat)

theorem size_pos (instruction : Instruction) : 0 < instruction.size :=
  Nat.add_pos_left Nat.one_pos _

theorem size_le (instruction : Instruction) : instruction.size ≤ 4 :=
  Nat.add_le_add_left instruction.operand.size_le 1

theorem offset_lt_stop (instruction : Instruction) : instruction.offset < instruction.stop :=
  Nat.lt_add_of_pos_right instruction.size_pos

end Instruction

end Cartridge
