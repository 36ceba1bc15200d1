/-
This file proves that the way control leaves an instruction does not depend on the state of
the processor under which its bytes are decoded. Only an immediate operand grows with a
register, and only an operand in the data bank waits for a bank to be known; the operations
that transfer control to their operand have neither. So two decodings at one offset agree on
the flow, whatever the two states are, although they may differ in size and value.
-/

import Cartridge.Board

namespace Cartridge

/-! ### Operations that transfer control -/

/-- Whether the operation transfers control to the place that its operand names. -/
def Mnemonic.isTransfer (mnemonic : Mnemonic) : Bool :=
  mnemonic.isCall || mnemonic.isUnconditionalTransfer || mnemonic.isConditionalBranch

/-- An opcode that transfers control has an operand of fixed size, and an absolute one lies in
the program bank. -/
theorem Opcode.mode_of_isTransfer {code : UInt8} (transfers : (ofByte code).mnemonic.isTransfer) :
    (ofByte code).mode ≠ .immediate ∧
      ((ofByte code).mode = .absolute →
        (ofByte code).mnemonic = .jmp ∨ (ofByte code).mnemonic = .jsr) := by
  have table : ∀ row column : Fin 16, ((matrix.get row).get column).mnemonic.isTransfer →
      ((matrix.get row).get column).mode ≠ .immediate ∧
        (((matrix.get row).get column).mode = .absolute →
          ((matrix.get row).get column).mnemonic = .jmp ∨
            ((matrix.get row).get column).mnemonic = .jsr) := by
    decide
  exact table _ _ transfers

namespace Instruction

theorem operandSizeUnder_of_isTransfer {code : UInt8}
    (transfers : (Opcode.ofByte code).mnemonic.isTransfer) (processor : Processor) :
    operandSizeUnder processor code = (Opcode.ofByte code).operandSize := by
  rw [operandSizeUnder, Opcode.operandSizeWith, if_neg (Opcode.mode_of_isTransfer transfers).1]

theorem resolve?_of_isTransfer {code : UInt8}
    (transfers : (Opcode.ofByte code).mnemonic.isTransfer) (operand : Operand)
    (address : Address) (first second : Option UInt8) :
    resolve? (Opcode.ofByte code) operand address first =
      resolve? (Opcode.ofByte code) operand address second := by
  have absolute := (Opcode.mode_of_isTransfer transfers).2
  unfold resolve?
  split
  case h_5 isAbsolute =>
    rcases absolute isAbsolute with jump | call
    · rw [jump]
    · rw [call]
  all_goals rfl

/-- An opcode that transfers control decodes to the same instruction under every state. -/
theorem decode_of_isTransfer {layout : Layout} {image : Image} {offset : Nat} {code : UInt8}
    (codeAt : image.byte? offset = some code)
    (transfers : (Opcode.ofByte code).mnemonic.isTransfer) (first second : Processor) :
    decode layout image offset first = decode layout image offset second := by
  simp only [decode, codeAt, operandSizeUnder_of_isTransfer transfers]
  split
  · rfl
  · split
    · rfl
    · rw [resolve?_of_isTransfer transfers]

/-- Where no control is transferred to an operand, the operation alone decides the flow. -/
theorem flow_of_not_isTransfer {first second : Instruction}
    (same : first.mnemonic = second.mnemonic) (stays : ¬ first.mnemonic.isTransfer = true) :
    first.flow = second.flow := by
  unfold flow
  rw [← same]
  cases operation : first.mnemonic
  all_goals first
    | rfl
    | exact absurd (by rw [operation]; rfl) stays

/-- Instructions decoded at one offset agree on how control leaves them. -/
theorem flow_eq_of_decode {layout : Layout} {image : Image} {offset : Nat}
    {firstProcessor secondProcessor : Processor} {first second : Instruction}
    (decodedFirst : decode layout image offset firstProcessor = .ok first)
    (decodedSecond : decode layout image offset secondProcessor = .ok second) :
    first.flow = second.flow := by
  have codeFirst := (decode_eq_ok_iff.mp decodedFirst).1
  have codeSecond := (decode_eq_ok_iff.mp decodedSecond).1
  have same : first.code = second.code := Option.some.inj (codeFirst.symm.trans codeSecond)
  by_cases transfers : first.mnemonic.isTransfer = true
  · rw [decode_of_isTransfer codeFirst transfers firstProcessor secondProcessor,
      decodedSecond] at decodedFirst
    rw [Except.ok.inj decodedFirst]
  · refine flow_of_not_isTransfer ?_ transfers
    rw [mnemonic, mnemonic, opcode, opcode, same]

/-- Instructions decoded at one offset stand at the same address. -/
theorem address_eq_of_decode {layout : Layout} {image : Image} {offset : Nat}
    {firstProcessor secondProcessor : Processor} {first second : Instruction}
    (decodedFirst : decode layout image offset firstProcessor = .ok first)
    (decodedSecond : decode layout image offset secondProcessor = .ok second) :
    first.address = second.address := by
  have addressFirst := (decode_eq_ok_iff.mp decodedFirst).2.1
  have addressSecond := (decode_eq_ok_iff.mp decodedSecond).2.1
  exact Option.some.inj (addressFirst.symm.trans addressSecond)

end Instruction

end Cartridge
