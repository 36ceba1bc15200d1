/-
This file proves what is true of every processor state that arises. A state arises from one of
the starting states by operations, of which an instruction carries out one or several. The two
shadows of the stack then never hold more entries than they have places, and in emulation mode
both registers are narrow, also where the mode is uncertain: a register becomes wide in native
mode alone, an exchange of modes narrows the registers, and widths that were saved in native mode
are not restored in emulation mode.
-/

import Cartridge.Processor.Advance

namespace Cartridge.Processor

/-! ### Operations -/

/-- What can be done to a processor state. -/
inductive Operation where
  | clearFlags (mask : UInt8)
  | setFlags (mask : UInt8)
  | exchangeMode
  | saveWidths
  | restoreWidths
  | enterRoutine
  | advance (instruction : Instruction)

/-- The state after an operation. -/
def perform (processor : Processor) : Operation → Processor
  | .clearFlags mask => processor.clearFlags mask
  | .setFlags mask => processor.setFlags mask
  | .exchangeMode => processor.exchangeMode
  | .saveWidths => processor.saveWidths
  | .restoreWidths => processor.restoreWidths
  | .enterRoutine => processor.enterRoutine
  | .advance instruction => processor.advance instruction

/-- The state after operations. -/
def after (processor : Processor) (operations : List Operation) : Processor :=
  operations.foldl perform processor

theorem after_append (processor : Processor) (earlier later : List Operation) :
    processor.after (earlier ++ later) = (processor.after earlier).after later :=
  List.foldl_append

/-- A state arises from one of the starting states by any operations in any order. -/
inductive Arises : Processor → Prop
  | fresh : Arises {}
  | interrupted : Arises interrupted
  | afterReset : Arises afterReset
  | native (wideAccumulator wideIndex : Bool) : Arises (native wideAccumulator wideIndex)
  | perform {processor : Processor} (arises : Arises processor) (operation : Operation) :
      Arises (processor.perform operation)

theorem Arises.after {start : Processor} (arises : start.Arises) (operations : List Operation) :
    (start.after operations).Arises := by
  induction operations generalizing start with
  | nil => exact arises
  | cons operation _ inductionHypothesis => exact inductionHypothesis (arises.perform operation)

/-! ### States that fit their shadows -/

/-- Neither shadow holds more entries than it has places. -/
structure Shallow (processor : Processor) : Prop where
  saved : processor.saved.length ≤ shadowDepth
  pushed : processor.pushed.length ≤ shadowDepth

namespace Shallow

variable {processor : Processor}

theorem push (shallow : processor.Shallow) (byte : Option UInt8) : (processor.push byte).Shallow :=
  ⟨shallow.saved, length_remember_le _ _⟩

theorem pull (shallow : processor.Shallow) (count : Nat) : (processor.pull count).Shallow := by
  refine ⟨shallow.saved, ?_⟩
  rw [Processor.pull, List.length_drop]
  exact Nat.le_trans (Nat.sub_le _ _) shallow.pushed

theorem pushUnknown (shallow : processor.Shallow) (count : Nat) :
    (processor.pushUnknown count).Shallow := by
  induction count generalizing processor with
  | zero => exact shallow
  | succ count inductionHypothesis => exact inductionHypothesis (shallow.push none)

theorem saveWidths (shallow : processor.Shallow) : processor.saveWidths.Shallow :=
  ⟨length_remember_le _ _, shallow.pushed⟩

theorem restoreWidths (shallow : processor.Shallow) : processor.restoreWidths.Shallow := by
  rw [Processor.restoreWidths]
  split
  · rename_i widths older held
    have length := shallow.saved
    rw [held, List.length_cons] at length
    exact ⟨Nat.le_of_succ_le length, shallow.pushed⟩
  · exact ⟨shallow.saved, shallow.pushed⟩

theorem exchangeMode (shallow : processor.Shallow) : processor.exchangeMode.Shallow := by
  rw [Processor.exchangeMode]
  split <;> exact ⟨shallow.saved, shallow.pushed⟩

theorem enterRoutine (shallow : processor.Shallow) : processor.enterRoutine.Shallow :=
  ⟨shallow.saved, Nat.zero_le _⟩

theorem advance (shallow : processor.Shallow) (instruction : Instruction) :
    (processor.advance instruction).Shallow := by
  unfold Processor.advance
  cases instruction.mnemonic with
  | xce => exact shallow.exchangeMode
  | php => exact shallow.saveWidths.push _
  | plp => exact shallow.restoreWidths.pull _
  | phk | phb => exact shallow.push _
  | plb =>
    obtain ⟨saved, pushed⟩ := shallow.pull 1
    exact ⟨saved, pushed⟩
  | pha | phx | phy | phd | pea | pei | per => exact shallow.pushUnknown _
  | pla | plx | ply | pld => exact shallow.pull _
  | tcs | txs => exact ⟨shallow.saved, Nat.zero_le _⟩
  | _ => exact ⟨shallow.saved, shallow.pushed⟩

theorem perform (shallow : processor.Shallow) (operation : Operation) :
    (processor.perform operation).Shallow := by
  cases operation with
  | saveWidths => exact shallow.saveWidths
  | restoreWidths => exact shallow.restoreWidths
  | exchangeMode => exact shallow.exchangeMode
  | enterRoutine => exact shallow.enterRoutine
  | advance instruction => exact shallow.advance instruction
  | _ => exact ⟨shallow.saved, shallow.pushed⟩

end Shallow

/-! ### Emulation mode -/

/-- In emulation mode both registers are narrow. -/
def Narrow (processor : Processor) : Prop :=
  processor.emulation = true →
    processor.wideAccumulator = false ∧ processor.wideIndex = false

/-- The registers come out of an exchange of modes narrow, whatever they were before. -/
theorem narrow_exchangeMode (processor : Processor) : processor.exchangeMode.Narrow := by
  unfold exchangeMode
  split <;> exact fun _ => ⟨rfl, rfl⟩

namespace Narrow

variable {processor : Processor} (narrow : processor.Narrow)
include narrow

theorem pushUnknown (count : Nat) : (processor.pushUnknown count).Narrow := by
  induction count generalizing processor with
  | zero => exact narrow
  | succ count inductionHypothesis =>
    have pushed : (processor.push none).Narrow := narrow
    exact inductionHypothesis pushed

/-- Clearing flags widens a register only where the mode is then native. -/
theorem clearFlags (mask : UInt8) : (processor.clearFlags mask).Narrow := by
  intro emulates
  have remains : (processor.emulation && !processor.modeUncertain) = true := emulates
  obtain ⟨accumulator, index⟩ := narrow (Bool.and_eq_true_iff.mp remains).1
  constructor
  · simp only [Processor.clearFlags, remains, accumulator, Bool.not_true, Bool.false_and,
      Bool.or_false]
  · simp only [Processor.clearFlags, remains, index, Bool.not_true, Bool.false_and,
      Bool.or_false]

theorem setFlags (mask : UInt8) : (processor.setFlags mask).Narrow := by
  intro emulates
  obtain ⟨accumulator, index⟩ := narrow emulates
  constructor
  · simp only [Processor.setFlags, accumulator, Bool.false_and]
  · simp only [Processor.setFlags, index, Bool.false_and]

/-- What was saved in native mode is restored in native mode only. -/
theorem restoreWidths : processor.restoreWidths.Narrow := by
  unfold Processor.restoreWidths
  split
  · intro emulates
    have remains : processor.emulation = true := emulates
    constructor
    · simp only [remains, Bool.not_true, Bool.and_false]
    · simp only [remains, Bool.not_true, Bool.and_false]
  · exact narrow

theorem advance (instruction : Instruction) : (processor.advance instruction).Narrow := by
  unfold Processor.advance
  cases instruction.mnemonic with
  | rep => exact narrow.clearFlags _
  | sep => exact narrow.setFlags _
  | xce => exact narrow_exchangeMode processor
  | plp => exact narrow.restoreWidths
  | pha | phx | phy | phd | pea | pei | per => exact narrow.pushUnknown _
  | _ => exact narrow

theorem perform (operation : Operation) : (processor.perform operation).Narrow := by
  cases operation with
  | clearFlags mask => exact narrow.clearFlags mask
  | setFlags mask => exact narrow.setFlags mask
  | exchangeMode => exact narrow_exchangeMode processor
  | saveWidths => exact narrow
  | restoreWidths => exact narrow.restoreWidths
  | enterRoutine => exact narrow
  | advance instruction => exact narrow.advance instruction

end Narrow

namespace Arises

variable {processor : Processor} (arises : processor.Arises)
include arises

theorem shallow : processor.Shallow := by
  induction arises with
  | perform _ operation inductionHypothesis => exact inductionHypothesis.perform operation
  | _ => exact ⟨Nat.zero_le _, Nat.zero_le _⟩

theorem narrow : processor.Narrow := by
  induction arises with
  | perform _ operation inductionHypothesis => exact inductionHypothesis.perform operation
  | native _ _ => exact nofun
  | _ => exact fun _ => ⟨rfl, rfl⟩

end Arises

end Cartridge.Processor
