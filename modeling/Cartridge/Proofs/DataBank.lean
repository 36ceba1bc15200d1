/-
This file proves that following the data bank never changes which code is found. Two states
may differ in the data bank and in the bytes on the stack, from which the data bank is pulled.
Neither decides how many bytes an operand has, and neither decides where control goes: a
transfer takes its bank from the program or from its operand. So an instruction keeps two such
states as close as they were, and two walks from them take the same steps. What may differ is
the value that an operand in the data bank refers to, and the two parts of the state that
differed from the start.
-/

import Cartridge.Proofs.Flow
import Cartridge.Walk
import Mathlib.Data.List.Forall2

namespace Cartridge

/-! ### States that differ in the data bank -/

/-- Two states agree in everything but the data bank and the bytes on the stack. -/
structure Processor.AgreeOffBank (first second : Processor) : Prop where
  wideAccumulator : first.wideAccumulator = second.wideAccumulator
  wideIndex : first.wideIndex = second.wideIndex
  emulation : first.emulation = second.emulation
  modeUncertain : first.modeUncertain = second.modeUncertain
  carry : first.carry = second.carry
  saved : first.saved = second.saved

namespace Processor.AgreeOffBank

variable {first second : Processor}

theorem symm (agree : first.AgreeOffBank second) : second.AgreeOffBank first :=
  ⟨agree.wideAccumulator.symm, agree.wideIndex.symm, agree.emulation.symm,
    agree.modeUncertain.symm, agree.carry.symm, agree.saved.symm⟩

/-- The state in which a routine is entered has lost nothing but the data bank and the bytes on
the stack. -/
theorem enterRoutine (processor : Processor) : processor.AgreeOffBank processor.enterRoutine :=
  ⟨rfl, rfl, rfl, rfl, rfl, rfl⟩

/-- Entering a routine makes states equal that agree in everything else. -/
theorem enterRoutine_eq (agree : first.AgreeOffBank second) :
    first.enterRoutine = second.enterRoutine := by
  obtain ⟨wideAccumulator, wideIndex, emulation, modeUncertain, carry, saved⟩ := agree
  rw [Processor.enterRoutine, Processor.enterRoutine]
  simp only [wideAccumulator, wideIndex, emulation, modeUncertain, carry, saved]

/-! ### Operations that touch only the bytes on the stack -/

theorem push (agree : first.AgreeOffBank second) (byte other : Option UInt8) :
    (first.push byte).AgreeOffBank (second.push other) :=
  { agree with }

theorem pushUnknown (agree : first.AgreeOffBank second) (count : Nat) :
    (first.pushUnknown count).AgreeOffBank (second.pushUnknown count) := by
  induction count generalizing first second with
  | zero => exact agree
  | succ count inductionHypothesis => exact inductionHypothesis (agree.push none none)

theorem pull (agree : first.AgreeOffBank second) (count : Nat) :
    (first.pull count).AgreeOffBank (second.pull count) :=
  { agree with }

theorem accumulatorSize (agree : first.AgreeOffBank second) :
    first.accumulatorSize = second.accumulatorSize := by
  rw [Processor.accumulatorSize, Processor.accumulatorSize, agree.wideAccumulator]

theorem indexSize (agree : first.AgreeOffBank second) : first.indexSize = second.indexSize := by
  rw [Processor.indexSize, Processor.indexSize, agree.wideIndex]

/-! ### Operations on the widths, the mode and the carry -/

theorem clearFlags (agree : first.AgreeOffBank second) (mask : UInt8) :
    (first.clearFlags mask).AgreeOffBank (second.clearFlags mask) := by
  constructor <;> simp only [Processor.clearFlags, agree.wideAccumulator, agree.wideIndex,
    agree.emulation, agree.modeUncertain, agree.carry, agree.saved]

theorem setFlags (agree : first.AgreeOffBank second) (mask : UInt8) :
    (first.setFlags mask).AgreeOffBank (second.setFlags mask) := by
  constructor <;> simp only [Processor.setFlags, agree.wideAccumulator, agree.wideIndex,
    agree.emulation, agree.modeUncertain, agree.carry, agree.saved]

theorem exchangeMode (agree : first.AgreeOffBank second) :
    first.exchangeMode.AgreeOffBank second.exchangeMode := by
  rw [Processor.exchangeMode, Processor.exchangeMode, agree.carry]
  cases second.carry <;> constructor <;>
    simp only [agree.emulation, agree.modeUncertain, agree.saved]

theorem saveWidths (agree : first.AgreeOffBank second) :
    first.saveWidths.AgreeOffBank second.saveWidths := by
  constructor <;> simp only [Processor.saveWidths, agree.wideAccumulator, agree.wideIndex,
    agree.emulation, agree.modeUncertain, agree.carry, agree.saved]

theorem restoreWidths (agree : first.AgreeOffBank second) :
    first.restoreWidths.AgreeOffBank second.restoreWidths := by
  rw [Processor.restoreWidths, Processor.restoreWidths, agree.saved]
  cases second.saved <;> constructor <;> simp only [agree.wideAccumulator, agree.wideIndex,
    agree.emulation, agree.modeUncertain]

theorem setCarry (agree : first.AgreeOffBank second) (carry : Option Bool) :
    Processor.AgreeOffBank { first with carry := carry } { second with carry := carry } :=
  { agree with carry := rfl }

/-- An instruction keeps states as close as they were. -/
theorem advance (agree : first.AgreeOffBank second) (instruction : Instruction) :
    (first.advance instruction).AgreeOffBank (second.advance instruction) := by
  unfold Processor.advance
  rw [agree.accumulatorSize, agree.indexSize]
  cases instruction.mnemonic
  case rep => exact agree.clearFlags _
  case sep => exact agree.setFlags _
  case xce => exact agree.exchangeMode
  case clc | sec => exact agree.setCarry _
  case php => exact agree.saveWidths.push _ _
  case plp => exact agree.restoreWidths.pull 1
  case phk | phb => exact agree.push _ _
  case pha | phx | phy | phd | pea | pei | per => exact agree.pushUnknown _
  case pla | plx | ply | pld => exact agree.pull _
  case plb | tcs | txs | mvn | mvp => exact { agree with }
  all_goals first
    | exact agree
    | exact agree.setCarry none

end Processor.AgreeOffBank

/-! ### Instructions that differ in what they refer to -/

/-- Two instructions are the same but for the values that their operands refer to, and those
do not differ where control goes to them. -/
structure Instruction.SameCode (first second : Instruction) : Prop where
  offset : first.offset = second.offset
  address : first.address = second.address
  code : first.code = second.code
  operand : first.operand = second.operand
  flow : first.flow = second.flow

namespace Instruction.SameCode

variable {first second : Instruction}

theorem stop (same : first.SameCode second) : first.stop = second.stop := by
  rw [Instruction.stop, Instruction.stop, Instruction.size, Instruction.size, same.offset,
    same.operand]

/-- The state after an instruction does not depend on the value that the operand refers to. -/
theorem advance (same : first.SameCode second) (processor : Processor) :
    processor.advance first = processor.advance second := by
  obtain ⟨offset, address, code, operand, resolved⟩ := first
  obtain ⟨offset', address', code', operand', resolved'⟩ := second
  obtain ⟨rfl, rfl, rfl, rfl, -⟩ := same
  rfl

end Instruction.SameCode

section

variable {first second : Processor} (agree : first.AgreeOffBank second)
include agree

theorem Instruction.operandSizeUnder_of_agree (code : UInt8) :
    operandSizeUnder first code = operandSizeUnder second code := by
  rw [operandSizeUnder, operandSizeUnder, agree.wideAccumulator, agree.wideIndex]

/-- Under states that agree, the same code decodes or none does. -/
theorem Instruction.decode_of_agree {layout : Layout} {image : Image} {offset : Nat}
    {instruction : Instruction} (decoded : decode layout image offset first = .ok instruction) :
    ∃ other, decode layout image offset second = .ok other ∧ instruction.SameCode other := by
  obtain ⟨codeAt, addressAt, operandAt, here, -⟩ := decode_eq_ok_iff.mp decoded
  rw [operandSizeUnder_of_agree agree] at operandAt
  let other : Instruction := { instruction with
    resolved := resolve? instruction.opcode instruction.operand instruction.address
      second.dataBank }
  have decodedOther : decode layout image offset second = .ok other :=
    decode_eq_ok_iff.mpr ⟨codeAt, addressAt, operandAt, here, rfl⟩
  exact ⟨other, decodedOther, rfl, rfl, rfl, rfl, flow_eq_of_decode decoded decodedOther⟩

namespace Board

variable {board : Board} {stop offset : Nat}

theorem fetch?_of_agree {instruction : Instruction}
    (fetched : board.fetch? stop offset first = some instruction) :
    ∃ other, board.fetch? stop offset second = some other ∧ instruction.SameCode other := by
  obtain ⟨decoded, fits⟩ := fetch?_eq_some_iff.mp fetched
  obtain ⟨other, decodedOther, same⟩ := Instruction.decode_of_agree agree decoded
  exact ⟨other, fetch?_eq_some_iff.mpr ⟨decodedOther, same.stop ▸ fits⟩, same⟩

theorem fetch?_eq_none_of_agree (missing : board.fetch? stop offset first = none) :
    board.fetch? stop offset second = none := by
  refine Option.eq_none_iff_forall_ne_some.mpr fun other fetched => ?_
  obtain ⟨instruction, fetchedFirst, -⟩ := fetch?_of_agree agree.symm fetched
  rw [missing] at fetchedFirst
  exact nomatch fetchedFirst

end Board

end

/-! ### Steps and targets -/

/-- Two steps take the same code and leave states that agree. -/
structure Step.Alike (first second : Step) : Prop where
  code : first.instruction.SameCode second.instruction
  after : first.after.AgreeOffBank second.after

/-- Two transfers go from the same place to the same place, in states that agree. -/
structure Target.Alike (first second : Target) : Prop where
  source : first.source = second.source
  address : first.address = second.address
  offset : first.offset = second.offset
  processor : first.processor.AgreeOffBank second.processor

namespace Step.Alike

variable {first second : Step} (alike : first.Alike second) (wiring : Wiring)
include alike

theorem call? : first.call? wiring = second.call? wiring := by
  rw [Step.call?, Step.call?, alike.code.flow]
  simp only [targetAt, alike.code.offset, alike.after.enterRoutine_eq]

theorem jump? : first.jump? wiring = second.jump? wiring := by
  rw [Step.jump?, Step.jump?, alike.code.flow]
  simp only [targetAt, alike.code.offset, alike.after.enterRoutine_eq]

theorem unresolved? : first.unresolved? = second.unresolved? := by
  rw [Step.unresolved?, Step.unresolved?, alike.code.flow, alike.code.offset]

theorem branch? : Option.Rel Target.Alike (first.branch? wiring) (second.branch? wiring) := by
  have target (address : Address) : Target.Alike (first.targetAt wiring address first.after)
      (second.targetAt wiring address second.after) :=
    ⟨alike.code.offset, rfl, rfl, alike.after⟩
  rw [Step.branch?, Step.branch?, alike.code.flow]
  split
  · exact .some (target _)
  · exact .some (target _)
  · exact .none

end Step.Alike

/-! ### Paths -/

theorem filterMap_eq_of_forall₂ {Item Result : Type} {Related : Item → Item → Prop}
    {choose : Item → Option Result}
    (same : ∀ {first second}, Related first second → choose first = choose second)
    {first second : List Item} (related : List.Forall₂ Related first second) :
    first.filterMap choose = second.filterMap choose := by
  induction related with
  | nil => rfl
  | cons head _ inductionHypothesis =>
    rw [List.filterMap_cons, List.filterMap_cons, same head, inductionHypothesis]

theorem getLast?_of_forall₂ {Item : Type} {Related : Item → Item → Prop}
    {first second : List Item} (related : List.Forall₂ Related first second) :
    Option.Rel Related first.getLast? second.getLast? := by
  induction related with
  | nil => exact .none
  | cons head tail inductionHypothesis =>
    cases tail with
    | nil => exact .some head
    | cons _ _ =>
      rw [List.getLast?_cons_cons, List.getLast?_cons_cons]
      exact inductionHypothesis

/-- From states that agree, a path takes the same code and ends in the same way. -/
theorem Board.path_of_agree (board : Board) (stop limit offset : Nat)
    {first second : Processor} (agree : first.AgreeOffBank second) :
    List.Forall₂ Step.Alike (board.path stop limit offset first).1
        (board.path stop limit offset second).1 ∧
      (board.path stop limit offset first).2 = (board.path stop limit offset second).2 := by
  induction limit generalizing offset first second with
  | zero => exact ⟨.nil, rfl⟩
  | succ limit inductionHypothesis =>
    rw [path, path]
    cases fetched : board.fetch? stop offset first with
    | none =>
      rw [fetch?_eq_none_of_agree agree fetched]
      exact ⟨.nil, rfl⟩
    | some instruction =>
      obtain ⟨other, fetchedOther, same⟩ := fetch?_of_agree agree fetched
      have after : (first.advance instruction).AgreeOffBank (second.advance other) := by
        rw [← same.advance second]
        exact agree.advance instruction
      rw [fetchedOther]
      simp only [← same.flow, ← same.stop]
      cases instruction.flow.ending? with
      | some ending => exact ⟨.cons ⟨same, after⟩ .nil, rfl⟩
      | none =>
        obtain ⟨steps, ending⟩ := inductionHypothesis instruction.stop after
        exact ⟨.cons ⟨same, after⟩ steps, ending⟩

/-! ### Walks -/

/-- Two walks discover the same code. They take the same instructions, and the transfers that
they record lead to the same places, whatever wiring looks these places up. Only the states
along the way may differ, in the data bank and the bytes on the stack; routines are entered
with neither, so calls and jumps are recorded alike to the last field. -/
structure Walk.Alike (first second : Walk) : Prop where
  start : first.start = second.start
  steps : List.Forall₂ Step.Alike first.steps second.steps
  ending : first.ending = second.ending
  truncatedAt : first.truncatedAt = second.truncatedAt
  calls : ∀ wiring, first.calls wiring = second.calls wiring
  branches : ∀ wiring,
    List.Forall₂ Target.Alike (first.branches wiring) (second.branches wiring)
  jumps : ∀ wiring, first.jumps wiring = second.jumps wiring
  unresolved : first.unresolved = second.unresolved
  exit : first.exit.AgreeOffBank second.exit

namespace Walk

variable {first second : Walk}

theorem stop_of_forall₂ (start : first.start = second.start)
    (steps : List.Forall₂ Step.Alike first.steps second.steps) : first.stop = second.stop := by
  have last := getLast?_of_forall₂ steps
  rw [stop, stop]
  generalize first.steps.getLast? = final at last ⊢
  generalize second.steps.getLast? = other at last ⊢
  cases last with
  | none => exact start
  | some alike => exact alike.code.stop

theorem exit_of_forall₂ (entry : first.entry.AgreeOffBank second.entry)
    (steps : List.Forall₂ Step.Alike first.steps second.steps) :
    first.exit.AgreeOffBank second.exit := by
  have last := getLast?_of_forall₂ steps
  rw [exit, exit]
  generalize first.steps.getLast? = final at last ⊢
  generalize second.steps.getLast? = other at last ⊢
  cases last with
  | none => exact entry
  | some alike => exact alike.after

/-- What a walk records is read off its steps. -/
theorem Alike.of_forall₂ (start : first.start = second.start)
    (entry : first.entry.AgreeOffBank second.entry)
    (steps : List.Forall₂ Step.Alike first.steps second.steps)
    (ending : first.ending = second.ending) : first.Alike second where
  start := start
  steps := steps
  ending := ending
  truncatedAt := by
    rw [Walk.truncatedAt, Walk.truncatedAt, ending, stop_of_forall₂ start steps]
  calls wiring := filterMap_eq_of_forall₂ (fun alike => alike.call? wiring) steps
  branches wiring := List.rel_filterMap (fun _ _ alike => alike.branch? wiring) steps
  jumps wiring := filterMap_eq_of_forall₂ (fun alike => alike.jump? wiring) steps
  unresolved := filterMap_eq_of_forall₂ (fun alike => alike.unresolved?) steps
  exit := exit_of_forall₂ entry steps

end Walk

/-- Walks from states that differ in the data bank and the bytes on the stack discover the same
code. So does a walk from the state with which a routine is entered. A decoder made for an image
of another length ends the window of a walk earlier, which the bound allows for, and looks up
targets in its own wiring. -/
theorem Board.walk_alike (board : Board) (limit : Nat) (bound : Option Nat) (start : Nat) :
    (∀ first second : Processor, first.AgreeOffBank second →
      (board.walk limit bound start first).Alike (board.walk limit bound start second)) ∧
    ∀ processor : Processor,
      (board.walk limit bound start processor).Alike
        (board.walk limit bound start processor.enterRoutine) := by
  have alike (first second : Processor) (agree : first.AgreeOffBank second) :
      (board.walk limit bound start first).Alike (board.walk limit bound start second) := by
    obtain ⟨steps, ending⟩ :=
      board.path_of_agree (board.windowEnd bound start) limit start agree
    refine .of_forall₂ rfl agree ?_ ?_
    · rw [steps_walk, steps_walk]
      exact steps
    · rw [ending_walk, ending_walk]
      exact ending
  exact ⟨alike, fun processor => alike _ _ (.enterRoutine processor)⟩

/-- `PLB`, a load from the data bank that it pulls, a branch, a call and a return. -/
def pullingImage : Image :=
  ⟨#[0xAB, 0xAD, 0x34, 0x12, 0xF0, 0x01, 0xEA, 0x20, 0x00, 0x80, 0x60]⟩

/-- With `$7E` on the stack the load refers to `$7E1234`, with an unknown byte to no address
that is known; the code that is found is the same. -/
theorem Board.walk_alike_pulledBank :
    let known : Processor := { pushed := [some 0x7E] }
    let unknown : Processor := { dataBank := some 0x12 }
    let board : Board := ⟨.loRom, pullingImage⟩
    known.AgreeOffBank unknown ∧
      (board.walk 16 none 0 known).instructions[1]?.bind Instruction.resolved = some 0x7E1234 ∧
      (board.walk 16 none 0 unknown).instructions[1]?.bind Instruction.resolved = none ∧
      (board.walk 16 none 0 known).Alike (board.walk 16 none 0 unknown) := by
  have agree : Processor.AgreeOffBank { pushed := [some 0x7E] } { dataBank := some 0x12 } :=
    ⟨rfl, rfl, rfl, rfl, rfl, rfl⟩
  refine ⟨agree, by decide +kernel, by decide +kernel, ?_⟩
  exact (walk_alike ⟨.loRom, pullingImage⟩ 16 none 0).1 _ _ agree

end Cartridge
