/-
This file takes the processor state past an instruction: register widths and mode
through the flag operations, the carry, and the data bank through the stack and the
block moves.
-/

import Cartridge.Instruction
import Cartridge.Processor

namespace Cartridge.Processor

/-- The number of bytes that the accumulator takes on the stack. -/
def accumulatorSize (processor : Processor) : Nat :=
  if processor.wideAccumulator then 2 else 1

/-- The number of bytes that an index register takes on the stack. -/
def indexSize (processor : Processor) : Nat :=
  if processor.wideIndex then 2 else 1

/-- The state after an instruction. -/
def advance (processor : Processor) (instruction : Instruction) : Processor :=
  match instruction.mnemonic with
  | .rep => processor.clearFlags instruction.operand.low
  | .sep => processor.setFlags instruction.operand.low
  | .xce => processor.exchangeMode
  | .clc => { processor with carry := some false }
  | .sec => { processor with carry := some true }
  | .php => processor.saveWidths.push none
  | .plp => processor.restoreWidths.pull 1
  | .phk => processor.push (some instruction.address.bank)
  | .phb => processor.push processor.dataBank
  | .plb => { processor.pull 1 with dataBank := processor.top }
  | .pha => processor.pushUnknown processor.accumulatorSize
  | .phx | .phy => processor.pushUnknown processor.indexSize
  | .phd | .pea | .pei | .per => processor.pushUnknown 2
  | .pla => processor.pull processor.accumulatorSize
  | .plx | .ply => processor.pull processor.indexSize
  | .pld => processor.pull 2
  | .tcs | .txs => { processor with pushed := [] }
  | .mvn | .mvp =>
    { processor with dataBank := instruction.blockMove?.map BlockMove.destination }
  | mnemonic => if mnemonic.writesCarry then { processor with carry := none } else processor

end Cartridge.Processor
