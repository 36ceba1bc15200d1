/-
This file holds the opcode matrix of the 65C816: for each of the 256 opcode bytes its
operation, its addressing mode and its cycle count with narrow registers. No byte is
undefined, so looking one up is total. From the pair of operation and mode follow the
size of the operand and how that size depends on the register widths.
-/

import Cartridge.Opcode.Mnemonic
import Cartridge.Opcode.Mode

namespace Cartridge

/-- What an opcode byte stands for. -/
structure Opcode where
  mnemonic : Mnemonic
  mode : Mode
  /-- Cycles with 8-bit registers and no penalties. -/
  cycles : Nat
deriving DecidableEq

namespace Opcode

/-- The matrix: a row for each upper half of the byte, a column for each lower half. -/
def matrix : Vector (Vector Opcode 16) 16 :=
  #v[
    #v[⟨.brk, .immediate, 7⟩, ⟨.ora, .directIndexedIndirect, 6⟩, ⟨.cop, .immediate, 7⟩,
      ⟨.ora, .stackRelative, 4⟩, ⟨.tsb, .direct, 5⟩, ⟨.ora, .direct, 3⟩, ⟨.asl, .direct, 5⟩,
      ⟨.ora, .directIndirectLong, 6⟩, ⟨.php, .implied, 3⟩, ⟨.ora, .immediate, 2⟩,
      ⟨.asl, .accumulator, 2⟩, ⟨.phd, .implied, 4⟩, ⟨.tsb, .absolute, 6⟩, ⟨.ora, .absolute, 4⟩,
      ⟨.asl, .absolute, 6⟩, ⟨.ora, .absoluteLong, 5⟩],
    #v[⟨.bpl, .relative, 2⟩, ⟨.ora, .directIndirectIndexed, 5⟩, ⟨.ora, .directIndirect, 5⟩,
      ⟨.ora, .stackRelativeIndirectIndexed, 7⟩, ⟨.trb, .direct, 5⟩, ⟨.ora, .directX, 4⟩,
      ⟨.asl, .directX, 6⟩, ⟨.ora, .directIndirectLongIndexed, 6⟩, ⟨.clc, .implied, 2⟩,
      ⟨.ora, .absoluteY, 4⟩, ⟨.inc, .accumulator, 2⟩, ⟨.tcs, .implied, 2⟩, ⟨.trb, .absolute, 6⟩,
      ⟨.ora, .absoluteX, 4⟩, ⟨.asl, .absoluteX, 7⟩, ⟨.ora, .absoluteLongX, 5⟩],
    #v[⟨.jsr, .absolute, 6⟩, ⟨.and, .directIndexedIndirect, 6⟩, ⟨.jsl, .absoluteLong, 8⟩,
      ⟨.and, .stackRelative, 4⟩, ⟨.bit, .direct, 3⟩, ⟨.and, .direct, 3⟩, ⟨.rol, .direct, 5⟩,
      ⟨.and, .directIndirectLong, 6⟩, ⟨.plp, .implied, 4⟩, ⟨.and, .immediate, 2⟩,
      ⟨.rol, .accumulator, 2⟩, ⟨.pld, .implied, 5⟩, ⟨.bit, .absolute, 4⟩, ⟨.and, .absolute, 4⟩,
      ⟨.rol, .absolute, 6⟩, ⟨.and, .absoluteLong, 5⟩],
    #v[⟨.bmi, .relative, 2⟩, ⟨.and, .directIndirectIndexed, 5⟩, ⟨.and, .directIndirect, 5⟩,
      ⟨.and, .stackRelativeIndirectIndexed, 7⟩, ⟨.bit, .directX, 4⟩, ⟨.and, .directX, 4⟩,
      ⟨.rol, .directX, 6⟩, ⟨.and, .directIndirectLongIndexed, 6⟩, ⟨.sec, .implied, 2⟩,
      ⟨.and, .absoluteY, 4⟩, ⟨.dec, .accumulator, 2⟩, ⟨.tsc, .implied, 2⟩, ⟨.bit, .absoluteX, 4⟩,
      ⟨.and, .absoluteX, 4⟩, ⟨.rol, .absoluteX, 7⟩, ⟨.and, .absoluteLongX, 5⟩],
    #v[⟨.rti, .implied, 6⟩, ⟨.eor, .directIndexedIndirect, 6⟩, ⟨.wdm, .immediate, 2⟩,
      ⟨.eor, .stackRelative, 4⟩, ⟨.mvp, .blockMove, 7⟩, ⟨.eor, .direct, 3⟩, ⟨.lsr, .direct, 5⟩,
      ⟨.eor, .directIndirectLong, 6⟩, ⟨.pha, .implied, 3⟩, ⟨.eor, .immediate, 2⟩,
      ⟨.lsr, .accumulator, 2⟩, ⟨.phk, .implied, 3⟩, ⟨.jmp, .absolute, 3⟩, ⟨.eor, .absolute, 4⟩,
      ⟨.lsr, .absolute, 6⟩, ⟨.eor, .absoluteLong, 5⟩],
    #v[⟨.bvc, .relative, 2⟩, ⟨.eor, .directIndirectIndexed, 5⟩, ⟨.eor, .directIndirect, 5⟩,
      ⟨.eor, .stackRelativeIndirectIndexed, 7⟩, ⟨.mvn, .blockMove, 7⟩, ⟨.eor, .directX, 4⟩,
      ⟨.lsr, .directX, 6⟩, ⟨.eor, .directIndirectLongIndexed, 6⟩, ⟨.cli, .implied, 2⟩,
      ⟨.eor, .absoluteY, 4⟩, ⟨.phy, .implied, 3⟩, ⟨.tcd, .implied, 2⟩, ⟨.jml, .absoluteLong, 4⟩,
      ⟨.eor, .absoluteX, 4⟩, ⟨.lsr, .absoluteX, 7⟩, ⟨.eor, .absoluteLongX, 5⟩],
    #v[⟨.rts, .implied, 6⟩, ⟨.adc, .directIndexedIndirect, 6⟩, ⟨.per, .relativeLong, 6⟩,
      ⟨.adc, .stackRelative, 4⟩, ⟨.stz, .direct, 3⟩, ⟨.adc, .direct, 3⟩, ⟨.ror, .direct, 5⟩,
      ⟨.adc, .directIndirectLong, 6⟩, ⟨.pla, .implied, 4⟩, ⟨.adc, .immediate, 2⟩,
      ⟨.ror, .accumulator, 2⟩, ⟨.rtl, .implied, 6⟩, ⟨.jmp, .absoluteIndirect, 5⟩,
      ⟨.adc, .absolute, 4⟩, ⟨.ror, .absolute, 6⟩, ⟨.adc, .absoluteLong, 5⟩],
    #v[⟨.bvs, .relative, 2⟩, ⟨.adc, .directIndirectIndexed, 5⟩, ⟨.adc, .directIndirect, 5⟩,
      ⟨.adc, .stackRelativeIndirectIndexed, 7⟩, ⟨.stz, .directX, 4⟩, ⟨.adc, .directX, 4⟩,
      ⟨.ror, .directX, 6⟩, ⟨.adc, .directIndirectLongIndexed, 6⟩, ⟨.sei, .implied, 2⟩,
      ⟨.adc, .absoluteY, 4⟩, ⟨.ply, .implied, 4⟩, ⟨.tdc, .implied, 2⟩,
      ⟨.jmp, .absoluteIndexedIndirect, 6⟩, ⟨.adc, .absoluteX, 4⟩, ⟨.ror, .absoluteX, 7⟩,
      ⟨.adc, .absoluteLongX, 5⟩],
    #v[⟨.bra, .relative, 3⟩, ⟨.sta, .directIndexedIndirect, 6⟩, ⟨.brl, .relativeLong, 4⟩,
      ⟨.sta, .stackRelative, 4⟩, ⟨.sty, .direct, 3⟩, ⟨.sta, .direct, 3⟩, ⟨.stx, .direct, 3⟩,
      ⟨.sta, .directIndirectLong, 6⟩, ⟨.dey, .implied, 2⟩, ⟨.bit, .immediate, 2⟩,
      ⟨.txa, .implied, 2⟩, ⟨.phb, .implied, 3⟩, ⟨.sty, .absolute, 4⟩, ⟨.sta, .absolute, 4⟩,
      ⟨.stx, .absolute, 4⟩, ⟨.sta, .absoluteLong, 5⟩],
    #v[⟨.bcc, .relative, 2⟩, ⟨.sta, .directIndirectIndexed, 6⟩, ⟨.sta, .directIndirect, 5⟩,
      ⟨.sta, .stackRelativeIndirectIndexed, 7⟩, ⟨.sty, .directX, 4⟩, ⟨.sta, .directX, 4⟩,
      ⟨.stx, .directY, 4⟩, ⟨.sta, .directIndirectLongIndexed, 6⟩, ⟨.tya, .implied, 2⟩,
      ⟨.sta, .absoluteY, 5⟩, ⟨.txs, .implied, 2⟩, ⟨.txy, .implied, 2⟩, ⟨.stz, .absolute, 4⟩,
      ⟨.sta, .absoluteX, 5⟩, ⟨.stz, .absoluteX, 5⟩, ⟨.sta, .absoluteLongX, 5⟩],
    #v[⟨.ldy, .immediate, 2⟩, ⟨.lda, .directIndexedIndirect, 6⟩, ⟨.ldx, .immediate, 2⟩,
      ⟨.lda, .stackRelative, 4⟩, ⟨.ldy, .direct, 3⟩, ⟨.lda, .direct, 3⟩, ⟨.ldx, .direct, 3⟩,
      ⟨.lda, .directIndirectLong, 6⟩, ⟨.tay, .implied, 2⟩, ⟨.lda, .immediate, 2⟩,
      ⟨.tax, .implied, 2⟩, ⟨.plb, .implied, 4⟩, ⟨.ldy, .absolute, 4⟩, ⟨.lda, .absolute, 4⟩,
      ⟨.ldx, .absolute, 4⟩, ⟨.lda, .absoluteLong, 5⟩],
    #v[⟨.bcs, .relative, 2⟩, ⟨.lda, .directIndirectIndexed, 5⟩, ⟨.lda, .directIndirect, 5⟩,
      ⟨.lda, .stackRelativeIndirectIndexed, 7⟩, ⟨.ldy, .directX, 4⟩, ⟨.lda, .directX, 4⟩,
      ⟨.ldx, .directY, 4⟩, ⟨.lda, .directIndirectLongIndexed, 6⟩, ⟨.clv, .implied, 2⟩,
      ⟨.lda, .absoluteY, 4⟩, ⟨.tsx, .implied, 2⟩, ⟨.tyx, .implied, 2⟩, ⟨.ldy, .absoluteX, 4⟩,
      ⟨.lda, .absoluteX, 4⟩, ⟨.ldx, .absoluteY, 4⟩, ⟨.lda, .absoluteLongX, 5⟩],
    #v[⟨.cpy, .immediate, 2⟩, ⟨.cmp, .directIndexedIndirect, 6⟩, ⟨.rep, .immediate, 3⟩,
      ⟨.cmp, .stackRelative, 4⟩, ⟨.cpy, .direct, 3⟩, ⟨.cmp, .direct, 3⟩, ⟨.dec, .direct, 5⟩,
      ⟨.cmp, .directIndirectLong, 6⟩, ⟨.iny, .implied, 2⟩, ⟨.cmp, .immediate, 2⟩,
      ⟨.dex, .implied, 2⟩, ⟨.wai, .implied, 3⟩, ⟨.cpy, .absolute, 4⟩, ⟨.cmp, .absolute, 4⟩,
      ⟨.dec, .absolute, 6⟩, ⟨.cmp, .absoluteLong, 5⟩],
    #v[⟨.bne, .relative, 2⟩, ⟨.cmp, .directIndirectIndexed, 5⟩, ⟨.cmp, .directIndirect, 5⟩,
      ⟨.cmp, .stackRelativeIndirectIndexed, 7⟩, ⟨.pei, .directIndirect, 6⟩, ⟨.cmp, .directX, 4⟩,
      ⟨.dec, .directX, 6⟩, ⟨.cmp, .directIndirectLongIndexed, 6⟩, ⟨.cld, .implied, 2⟩,
      ⟨.cmp, .absoluteY, 4⟩, ⟨.phx, .implied, 3⟩, ⟨.stp, .implied, 3⟩,
      ⟨.jml, .absoluteIndirectLong, 6⟩, ⟨.cmp, .absoluteX, 4⟩, ⟨.dec, .absoluteX, 7⟩,
      ⟨.cmp, .absoluteLongX, 5⟩],
    #v[⟨.cpx, .immediate, 2⟩, ⟨.sbc, .directIndexedIndirect, 6⟩, ⟨.sep, .immediate, 3⟩,
      ⟨.sbc, .stackRelative, 4⟩, ⟨.cpx, .direct, 3⟩, ⟨.sbc, .direct, 3⟩, ⟨.inc, .direct, 5⟩,
      ⟨.sbc, .directIndirectLong, 6⟩, ⟨.inx, .implied, 2⟩, ⟨.sbc, .immediate, 2⟩,
      ⟨.nop, .implied, 2⟩, ⟨.xba, .implied, 3⟩, ⟨.cpx, .absolute, 4⟩, ⟨.sbc, .absolute, 4⟩,
      ⟨.inc, .absolute, 6⟩, ⟨.sbc, .absoluteLong, 5⟩],
    #v[⟨.beq, .relative, 2⟩, ⟨.sbc, .directIndirectIndexed, 5⟩, ⟨.sbc, .directIndirect, 5⟩,
      ⟨.sbc, .stackRelativeIndirectIndexed, 7⟩, ⟨.pea, .absolute, 5⟩, ⟨.sbc, .directX, 4⟩,
      ⟨.inc, .directX, 6⟩, ⟨.sbc, .directIndirectLongIndexed, 6⟩, ⟨.sed, .implied, 2⟩,
      ⟨.sbc, .absoluteY, 4⟩, ⟨.plx, .implied, 4⟩, ⟨.xce, .implied, 2⟩,
      ⟨.jsr, .absoluteIndexedIndirect, 8⟩, ⟨.sbc, .absoluteX, 4⟩, ⟨.inc, .absoluteX, 7⟩,
      ⟨.sbc, .absoluteLongX, 5⟩]]

/-- What a byte stands for. -/
def ofByte (byte : UInt8) : Opcode :=
  have bound : byte.toNat < 256 := byte.toNat_lt
  (matrix.get ⟨byte.toNat / 16, by omega⟩).get ⟨byte.toNat % 16, by omega⟩

/-- The number of operand bytes with 8-bit registers. -/
def operandSize (opcode : Opcode) : Nat :=
  opcode.mode.operandSize

/-- The number of bytes of the whole instruction with 8-bit registers. -/
def baseSize (opcode : Opcode) : Nat :=
  1 + opcode.operandSize

/-- The number of operand bytes under given register widths: only an immediate operand
grows, and only if its width follows a wide register. -/
def operandSizeWith (opcode : Opcode) (wideAccumulator wideIndex : Bool) : Nat :=
  if opcode.mode = .immediate then
    match opcode.mnemonic.immediateWidth with
    | .byte => 1
    | .accumulator => if wideAccumulator then 2 else 1
    | .index => if wideIndex then 2 else 1
  else opcode.operandSize

theorem operandSizeWith_le (opcode : Opcode) (wideAccumulator wideIndex : Bool) :
    opcode.operandSizeWith wideAccumulator wideIndex ≤ 3 := by
  unfold operandSizeWith
  split
  · split
    · decide
    · split <;> decide
    · split <;> decide
  · exact opcode.mode.operandSize_le

end Opcode

end Cartridge
