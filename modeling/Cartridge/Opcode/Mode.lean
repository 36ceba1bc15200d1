/-
This file lists the addressing modes of the 65C816, the number of operand bytes each
of them takes, and which of them go through a pointer in memory.
-/

namespace Cartridge

/-- How an instruction names its operand. -/
inductive Mode where
  | implied
  | accumulator
  | immediate
  | absolute
  | absoluteX
  | absoluteY
  | absoluteLong
  | absoluteLongX
  | absoluteIndirect
  | absoluteIndexedIndirect
  | absoluteIndirectLong
  | direct
  | directX
  | directY
  | directIndirect
  | directIndexedIndirect
  | directIndirectIndexed
  | directIndirectLong
  | directIndirectLongIndexed
  | stackRelative
  | stackRelativeIndirectIndexed
  | relative
  | relativeLong
  | blockMove
deriving DecidableEq

namespace Mode

/-- The number of operand bytes, an immediate operand at its narrow size. -/
def operandSize : Mode → Nat
  | .implied | .accumulator => 0
  | .immediate | .direct | .directX | .directY | .directIndirect | .directIndexedIndirect
  | .directIndirectIndexed | .directIndirectLong | .directIndirectLongIndexed
  | .stackRelative | .stackRelativeIndirectIndexed | .relative => 1
  | .absolute | .absoluteX | .absoluteY | .absoluteIndirect | .absoluteIndexedIndirect
  | .absoluteIndirectLong | .relativeLong | .blockMove => 2
  | .absoluteLong | .absoluteLongX => 3

/-- Whether the effective address comes out of a pointer in memory. -/
def isIndirect : Mode → Bool
  | .absoluteIndirect | .absoluteIndexedIndirect | .absoluteIndirectLong | .directIndirect
  | .directIndexedIndirect | .directIndirectIndexed | .directIndirectLong
  | .directIndirectLongIndexed | .stackRelativeIndirectIndexed => true
  | _ => false

theorem operandSize_le (mode : Mode) : mode.operandSize ≤ 3 := by
  cases mode <;> decide

end Mode

end Cartridge
