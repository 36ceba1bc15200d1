/-
This file defines a routine found in an image: the instructions reached from its entry
in ascending order, the transfers it makes, and how and why it was found. Its end, its
gaps, its name, how far it can be trusted and what it seems to do all follow from these.
-/

import Cartridge.Interrupt
import Cartridge.Span
import Cartridge.Walk

namespace Cartridge

/-- Why a routine was traced. -/
inductive Seed where
  | entryPoint
  | vector (interrupt : Interrupt)
  | call
  | jump
  | region
  /-- Nothing else was known, so the start of the range was tried. -/
  | fallback
deriving DecidableEq

/-- The name of a seed without the interrupt it may hold. -/
def Seed.keyword : Seed → String
  | .entryPoint => "entry_point"
  | .vector _ => "vector"
  | .call => "call"
  | .jump => "jump"
  | .region => "region"
  | .fallback => "fallback"

/-- How far the extent of a routine can be trusted. -/
inductive Trust where
  /-- The walk from its entry came to a return or a jump. -/
  | code
  /-- The walk ran out of the image or of its window. -/
  | likelyData
  /-- The walk came to the instruction limit. -/
  | unknown
deriving DecidableEq

namespace Trust

/-- The trust that an ending deserves. -/
def ofEnding : Ending → Trust
  | .returned | .jumped => .code
  | .truncated => .likelyData
  | .limited => .unknown

/-- The name used in documents. -/
def keyword : Trust → String
  | .code => "code"
  | .likelyData => "likely_data"
  | .unknown => "unknown"

/-- The name used in listings. -/
def title : Trust → String
  | .code => "Code"
  | .likelyData => "LikelyData"
  | .unknown => "Unknown"

end Trust

/-- What a routine seems to do. -/
inductive Role where
  | interruptHandler
  | mainLoop
  | dataHandler
  | calculation
  | subroutine
deriving DecidableEq

namespace Role

/-- The name used in documents. -/
def keyword : Role → String
  | .interruptHandler => "interrupt_handler"
  | .mainLoop => "main_loop"
  | .dataHandler => "data_handler"
  | .calculation => "calculation"
  | .subroutine => "subroutine"

/-- The name used in listings. -/
def title : Role → String
  | .interruptHandler => "interrupt"
  | .mainLoop => "main_loop"
  | .dataHandler => "data_handler"
  | .calculation => "calculation"
  | .subroutine => "subroutine"

/-- Whether an operation moves data. -/
def isMove : Mnemonic → Bool
  | .lda | .sta | .ldx | .stx | .ldy | .sty | .stz => true
  | _ => false

/-- Whether an operation calculates. -/
def isCalculation : Mnemonic → Bool
  | .adc | .sbc | .and | .ora | .eor | .asl | .lsr | .rol | .ror => true
  | _ => false

/-- The last five items of a list. -/
def lastFive {Item : Type} (items : List Item) : List Item :=
  items.drop (items.length - 5)

/-- Guesses what a routine does from its operations: a return from interrupt decides, then
a long routine with a jump near its end, then the share of moves and of calculations. -/
def ofMnemonics (mnemonics : List Mnemonic) : Role :=
  let total := mnemonics.length
  if mnemonics.contains .rti then .interruptHandler
  else if 50 < total ∧ (lastFive mnemonics).any Mnemonic.isUnconditionalTransfer then .mainLoop
  else if total * 6 < mnemonics.countP isMove * 10 then .dataHandler
  else if total * 4 < mnemonics.countP isCalculation * 10 then .calculation
  else .subroutine

/-- Guesses what instructions do. -/
def ofInstructions (instructions : List Instruction) : Role :=
  ofMnemonics (instructions.map Instruction.mnemonic)

end Role

/-- A routine found in an image. -/
structure Routine where
  start : Nat
  address : Address
  /-- The instructions, ascending and without overlap. -/
  instructions : List Instruction
  /-- The addresses called, ascending. -/
  calls : List Address
  /-- The addresses jumped to, ascending. -/
  jumps : List Address
  /-- The targets that do not lie in the image, ascending. -/
  unmapped : List Address
  /-- The offsets of transfers through a pointer, ascending. -/
  unresolved : List Nat
  seed : Seed
  /-- How the walk from the entry ended. -/
  ending : Ending
  /-- The processor state at the entry. -/
  entry : Processor
deriving DecidableEq

namespace Routine

/-- The name of the routine. -/
def name (routine : Routine) : String :=
  routine.address.routineName

/-- The first offset after the last instruction. -/
def stop (routine : Routine) : Nat :=
  match routine.instructions.getLast? with
  | some instruction => instruction.stop
  | none => routine.start

/-- The spans between one instruction and the next that neither covers. -/
def gapsBetween : List Instruction → List Span
  | first :: second :: rest =>
    if first.stop < second.offset then
      ⟨first.stop, second.offset⟩ :: gapsBetween (second :: rest)
    else gapsBetween (second :: rest)
  | _ => []

/-- The bytes inside the routine that no path reaches. -/
def gaps (routine : Routine) : List Span :=
  gapsBetween routine.instructions

/-- How far the routine can be trusted. -/
def trust (routine : Routine) : Trust :=
  Trust.ofEnding routine.ending

/-- What the routine seems to do. -/
def role (routine : Routine) : Role :=
  Role.ofInstructions routine.instructions

/-- Whether an offset lies between the start and the end of the routine. -/
def contains (routine : Routine) (offset : Nat) : Bool :=
  Span.contains ⟨routine.start, routine.stop⟩ offset

end Routine

end Cartridge
