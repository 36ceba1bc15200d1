/-
This file defines the part of the processor state that changes how bytes decode or
what an operand refers to: the two register widths, the mode, the carry, the data bank,
and two shadows of the stack. One shadow holds the widths saved by `PHP`, the other the
bytes pushed, where a byte may be unknown. Both keep only the most recent entries, so
a deep stack loses its oldest ones.
-/

namespace Cartridge

/-- The widths of the registers; `true` stands for sixteen bits. -/
structure Widths where
  accumulator : Bool
  index : Bool
deriving DecidableEq

/-- The state of the processor as far as it is followed. The default is native mode with
narrow registers and nothing known. -/
structure Processor where
  /-- The accumulator and memory operands have sixteen bits. -/
  wideAccumulator : Bool := false
  /-- The index registers have sixteen bits. -/
  wideIndex : Bool := false
  /-- The data bank register, where it is known. -/
  dataBank : Option UInt8 := none
  emulation : Bool := false
  /-- The mode was exchanged with an unknown carry, so `emulation` is a guess. -/
  modeUncertain : Bool := false
  /-- The carry flag, where it is known. -/
  carry : Option Bool := none
  /-- The widths saved on the stack, most recent first. -/
  saved : List Widths := []
  /-- The bytes on the stack, most recent first. -/
  pushed : List (Option UInt8) := []
deriving DecidableEq

namespace Processor

/-! ### Starting states -/

/-- Native mode with given widths. -/
def native (wideAccumulator wideIndex : Bool) : Processor :=
  { wideAccumulator := wideAccumulator, wideIndex := wideIndex }

/-- The state on entry to an interrupt in emulation mode. -/
def interrupted : Processor :=
  { emulation := true }

/-- The state after reset: emulation mode and a cleared data bank. -/
def afterReset : Processor :=
  { emulation := true, dataBank := some 0 }

/-- The state with which a called routine starts. The widths carry over from the call; the
data bank and the stack do not, since other callers may differ in them. -/
def enterRoutine (processor : Processor) : Processor :=
  { processor with dataBank := none, pushed := [] }

/-! ### Shadows of the stack -/

/-- The number of entries that a shadow keeps. -/
def shadowDepth : Nat := 8

/-- Puts an entry on top of a shadow, which forgets its oldest one when it is full. -/
def remember {Entry : Type} (entry : Entry) (shadow : List Entry) : List Entry :=
  (entry :: shadow).take shadowDepth

/-- Pushes a byte, known or not. -/
def push (processor : Processor) (byte : Option UInt8) : Processor :=
  { processor with pushed := remember byte processor.pushed }

/-- Pushes unknown bytes. -/
def pushUnknown (processor : Processor) : Nat → Processor
  | 0 => processor
  | count + 1 => (processor.push none).pushUnknown count

/-- The byte on top of the stack, where it is known. -/
def top (processor : Processor) : Option UInt8 :=
  processor.pushed.head?.getD none

/-- Pulls bytes off the stack. -/
def pull (processor : Processor) (count : Nat) : Processor :=
  { processor with pushed := processor.pushed.drop count }

theorem length_remember_le {Entry : Type} (entry : Entry) (shadow : List Entry) :
    (remember entry shadow).length ≤ shadowDepth := by
  rw [remember, List.length_take]
  exact Nat.min_le_left _ _

/-! ### Status flags -/

/-- The status bit for a narrow accumulator. -/
def accumulatorFlag : UInt8 := 0x20

/-- The status bit for narrow index registers. -/
def indexFlag : UInt8 := 0x10

/-- The status bit for the carry. -/
def carryFlag : UInt8 := 0x01

/-- Whether a mask has a flag set. -/
def tests (mask flag : UInt8) : Bool :=
  mask &&& flag != 0

/-- Clears status bits. In native mode this widens registers; an uncertain mode is taken
to be native, since widening makes sense there alone. -/
def clearFlags (processor : Processor) (mask : UInt8) : Processor :=
  let emulation := processor.emulation && !processor.modeUncertain
  { processor with
    emulation := emulation
    modeUncertain := false
    wideAccumulator := processor.wideAccumulator || (!emulation && tests mask accumulatorFlag)
    wideIndex := processor.wideIndex || (!emulation && tests mask indexFlag)
    carry := if tests mask carryFlag then some false else processor.carry }

/-- Sets status bits, which narrows registers in either mode. -/
def setFlags (processor : Processor) (mask : UInt8) : Processor :=
  { processor with
    wideAccumulator := processor.wideAccumulator && !tests mask accumulatorFlag
    wideIndex := processor.wideIndex && !tests mask indexFlag
    carry := if tests mask carryFlag then some true else processor.carry }

/-- Exchanges the carry with the mode. The registers come out narrow either way; with an
unknown carry the mode becomes uncertain. -/
def exchangeMode (processor : Processor) : Processor :=
  match processor.carry with
  | some carry =>
    { processor with
      wideAccumulator := false
      wideIndex := false
      carry := if processor.modeUncertain then none else some processor.emulation
      emulation := carry
      modeUncertain := false }
  | none =>
    { processor with wideAccumulator := false, wideIndex := false, modeUncertain := true }

/-- Saves the widths. -/
def saveWidths (processor : Processor) : Processor :=
  { processor with
    saved := remember ⟨processor.wideAccumulator, processor.wideIndex⟩ processor.saved }

/-- Restores the widths saved last, if any are known to be; emulation mode keeps the
registers narrow. The carry comes back unknown. -/
def restoreWidths (processor : Processor) : Processor :=
  match processor.saved with
  | widths :: older =>
    { processor with
      saved := older
      wideAccumulator := widths.accumulator && !processor.emulation
      wideIndex := widths.index && !processor.emulation
      carry := none }
  | [] => { processor with carry := none }

/-- The followed bits as they would read in the status register. -/
def statusBits (processor : Processor) : UInt8 :=
  (if processor.wideAccumulator then 0 else accumulatorFlag) |||
    (if processor.wideIndex then 0 else indexFlag) |||
    (if processor.carry = some true then carryFlag else 0)

end Processor

end Cartridge
