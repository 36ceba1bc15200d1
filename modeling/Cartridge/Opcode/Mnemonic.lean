/-
This file lists the operations of the 65C816 and the classes of operations that the
rest of the library asks about: returns, calls, branches, and the writers of the
carry flag. An operation does not fix an addressing mode; the opcode matrix pairs
the two.
-/

namespace Cartridge

/-- An operation, whatever its addressing mode. -/
inductive Mnemonic where
  | adc | and | asl | bcc | bcs | beq | bit | bmi | bne | bpl | bra | brk | brl | bvc | bvs
  | clc | cld | cli | clv | cmp | cop | cpx | cpy | dec | dex | dey | eor | inc | inx | iny
  | jml | jmp | jsl | jsr | lda | ldx | ldy | lsr | mvn | mvp | nop | ora | pea | pei | per
  | pha | phb | phd | phk | php | phx | phy | pla | plb | pld | plp | plx | ply | rep | rol
  | ror | rti | rtl | rts | sbc | sec | sed | sei | sep | sta | stp | stx | sty | stz | tax
  | tay | tcd | tcs | tdc | trb | tsb | tsc | tsx | txa | txs | txy | tya | tyx | wai | wdm
  | xba | xce
deriving DecidableEq

/-- What decides the width of an immediate operand. -/
inductive ImmediateWidth where
  /-- One byte, whatever the flags. -/
  | byte
  /-- The width of the accumulator. -/
  | accumulator
  /-- The width of the index registers. -/
  | index
deriving DecidableEq

namespace Mnemonic

/-- The assembler spelling. -/
def text : Mnemonic → String
  | .adc => "ADC" | .and => "AND" | .asl => "ASL" | .bcc => "BCC" | .bcs => "BCS"
  | .beq => "BEQ" | .bit => "BIT" | .bmi => "BMI" | .bne => "BNE" | .bpl => "BPL"
  | .bra => "BRA" | .brk => "BRK" | .brl => "BRL" | .bvc => "BVC" | .bvs => "BVS"
  | .clc => "CLC" | .cld => "CLD" | .cli => "CLI" | .clv => "CLV" | .cmp => "CMP"
  | .cop => "COP" | .cpx => "CPX" | .cpy => "CPY" | .dec => "DEC" | .dex => "DEX"
  | .dey => "DEY" | .eor => "EOR" | .inc => "INC" | .inx => "INX" | .iny => "INY"
  | .jml => "JML" | .jmp => "JMP" | .jsl => "JSL" | .jsr => "JSR" | .lda => "LDA"
  | .ldx => "LDX" | .ldy => "LDY" | .lsr => "LSR" | .mvn => "MVN" | .mvp => "MVP"
  | .nop => "NOP" | .ora => "ORA" | .pea => "PEA" | .pei => "PEI" | .per => "PER"
  | .pha => "PHA" | .phb => "PHB" | .phd => "PHD" | .phk => "PHK" | .php => "PHP"
  | .phx => "PHX" | .phy => "PHY" | .pla => "PLA" | .plb => "PLB" | .pld => "PLD"
  | .plp => "PLP" | .plx => "PLX" | .ply => "PLY" | .rep => "REP" | .rol => "ROL"
  | .ror => "ROR" | .rti => "RTI" | .rtl => "RTL" | .rts => "RTS" | .sbc => "SBC"
  | .sec => "SEC" | .sed => "SED" | .sei => "SEI" | .sep => "SEP" | .sta => "STA"
  | .stp => "STP" | .stx => "STX" | .sty => "STY" | .stz => "STZ" | .tax => "TAX"
  | .tay => "TAY" | .tcd => "TCD" | .tcs => "TCS" | .tdc => "TDC" | .trb => "TRB"
  | .tsb => "TSB" | .tsc => "TSC" | .tsx => "TSX" | .txa => "TXA" | .txs => "TXS"
  | .txy => "TXY" | .tya => "TYA" | .tyx => "TYX" | .wai => "WAI" | .wdm => "WDM"
  | .xba => "XBA" | .xce => "XCE"

/-- Which width an immediate operand of the operation has. -/
def immediateWidth : Mnemonic → ImmediateWidth
  | .ora | .and | .eor | .adc | .bit | .lda | .cmp | .sbc => .accumulator
  | .ldx | .ldy | .cpx | .cpy => .index
  | _ => .byte

/-- Whether the operation leaves a routine or an interrupt handler. -/
def isReturn : Mnemonic → Bool
  | .rts | .rtl | .rti => true
  | _ => false

/-- Whether the operation calls a routine. -/
def isCall : Mnemonic → Bool
  | .jsr | .jsl => true
  | _ => false

/-- Whether the operation branches on a flag and may fall through. -/
def isConditionalBranch : Mnemonic → Bool
  | .bpl | .bmi | .bvc | .bvs | .bcc | .bcs | .bne | .beq => true
  | _ => false

/-- Whether the operation transfers control and never falls through. -/
def isUnconditionalTransfer : Mnemonic → Bool
  | .jmp | .jml | .bra | .brl => true
  | _ => false

/-- Whether the operation can change the carry flag. -/
def writesCarry : Mnemonic → Bool
  | .adc | .sbc | .cmp | .cpx | .cpy | .asl | .lsr | .rol | .ror | .clc | .sec | .plp | .rti
  | .rep | .sep | .xce => true
  | _ => false

end Mnemonic

end Cartridge
