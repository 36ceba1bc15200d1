/-
This file follows one straight path through code: instruction after instruction until
control leaves for good, the path runs out of its window, or a limit is reached. A walk
keeps its steps, each an instruction with the processor state after it; the transfers
that it passes are read off the steps. The window of a walk is the bank of its start,
cut off at an end that the caller may set.

The recursion `path` says what the steps are; `follow` collects the same steps without
growing the stack.
-/

import Cartridge.Board

namespace Cartridge

/-- How a walk came to its end. -/
inductive Ending where
  /-- A return, or a stop of the processor. -/
  | returned
  /-- A jump or an unconditional branch. -/
  | jumped
  /-- As many instructions as allowed. -/
  | limited
  /-- The end of the image or of the window. -/
  | truncated
deriving DecidableEq

namespace Ending

/-- Whether the walk ended on an instruction that ends straight-line code. -/
def isConfident : Ending → Bool
  | .returned | .jumped => true
  | .limited | .truncated => false

/-- The name used in documents. -/
def keyword : Ending → String
  | .returned => "terminated_return"
  | .jumped => "terminated_jump"
  | .limited => "terminated_limit"
  | .truncated => "terminated_truncated"

/-- The name used in log records. -/
def title : Ending → String
  | .returned => "TerminatedReturn"
  | .jumped => "TerminatedJump"
  | .limited => "TerminatedLimit"
  | .truncated => "TerminatedTruncated"

end Ending

/-- The ending that a flow brings about. -/
def Flow.ending? : Flow → Option Ending
  | .leave | .halt => some .returned
  | .goto _ | .jump _ => some .jumped
  | .next | .call _ | .branch _ => none

/-- An instruction and the processor state after it. -/
structure Step where
  instruction : Instruction
  after : Processor
deriving DecidableEq

/-- A transfer of control to a known address. -/
structure Target where
  /-- The offset of the instruction that transfers control. -/
  source : Nat
  address : Address
  /-- The offset of the address, if it lies in the image. -/
  offset : Option Nat
  /-- The processor state with which the target is entered. -/
  processor : Processor
deriving DecidableEq

/-- A walk from a start. -/
structure Walk where
  start : Nat
  entry : Processor
  steps : List Step
  ending : Ending
deriving DecidableEq

/-! ### Transfers of a step -/

namespace Step

/-- The target of a transfer that this step makes to an address. -/
def targetAt (wiring : Wiring) (step : Step) (address : Address) (processor : Processor) :
    Target :=
  ⟨step.instruction.offset, address, wiring.offset? address, processor⟩

/-- The routine that the step calls. -/
def call? (wiring : Wiring) (step : Step) : Option Target :=
  match step.instruction.flow with
  | .call (some address) => some (step.targetAt wiring address step.after.enterRoutine)
  | _ => none

/-- The place in the same routine to which the step may branch. -/
def branch? (wiring : Wiring) (step : Step) : Option Target :=
  match step.instruction.flow with
  | .branch address | .goto address => some (step.targetAt wiring address step.after)
  | _ => none

/-- The routine to which the step jumps. -/
def jump? (wiring : Wiring) (step : Step) : Option Target :=
  match step.instruction.flow with
  | .jump (some address) => some (step.targetAt wiring address step.after.enterRoutine)
  | _ => none

/-- The offset of the step, if it transfers control through a pointer. -/
def unresolved? (step : Step) : Option Nat :=
  match step.instruction.flow with
  | .call none | .jump none => some step.instruction.offset
  | _ => none

end Step

/-! ### Views of a walk -/

namespace Walk

/-- The instructions of the walk. -/
def instructions (walk : Walk) : List Instruction :=
  walk.steps.map Step.instruction

/-- The first offset after the last instruction. -/
def stop (walk : Walk) : Nat :=
  match walk.steps.getLast? with
  | some step => step.instruction.stop
  | none => walk.start

/-- The processor state after the last instruction. -/
def exit (walk : Walk) : Processor :=
  match walk.steps.getLast? with
  | some step => step.after
  | none => walk.entry

/-- The offset at which the walk ran out of its window, if it did. -/
def truncatedAt (walk : Walk) : Option Nat :=
  if walk.ending = .truncated then some walk.stop else none

/-- The routines called, in order. -/
def calls (wiring : Wiring) (walk : Walk) : List Target :=
  walk.steps.filterMap (Step.call? wiring)

/-- The branches inside the routine, in order. -/
def branches (wiring : Wiring) (walk : Walk) : List Target :=
  walk.steps.filterMap (Step.branch? wiring)

/-- The routines jumped to, in order. -/
def jumps (wiring : Wiring) (walk : Walk) : List Target :=
  walk.steps.filterMap (Step.jump? wiring)

/-- The offsets of transfers through a pointer, in order. -/
def unresolved (walk : Walk) : List Nat :=
  walk.steps.filterMap Step.unresolved?

end Walk

/-! ### Walking -/

namespace Board

/-- The steps from an offset inside a window, and how they end. -/
def path (board : Board) (stop : Nat) : (limit offset : Nat) → Processor → List Step × Ending
  | 0, _, _ => ([], .limited)
  | limit + 1, offset, processor =>
    match board.fetch? stop offset processor with
    | none => ([], .truncated)
    | some instruction =>
      let step : Step := ⟨instruction, processor.advance instruction⟩
      match instruction.flow.ending? with
      | some ending => ([step], ending)
      | none =>
        let rest := path board stop limit instruction.stop step.after
        (step :: rest.1, rest.2)

/-- The steps from an offset after those already taken, which come newest first. -/
def follow (board : Board) (stop : Nat) :
    (limit offset : Nat) → Processor → List Step → List Step × Ending
  | 0, _, _, taken => (taken.reverse, .limited)
  | limit + 1, offset, processor, taken =>
    match board.fetch? stop offset processor with
    | none => (taken.reverse, .truncated)
    | some instruction =>
      let step : Step := ⟨instruction, processor.advance instruction⟩
      match instruction.flow.ending? with
      | some ending => ((step :: taken).reverse, ending)
      | none => follow board stop limit instruction.stop step.after (step :: taken)

/-- The end of the window of a walk. -/
def windowEnd (board : Board) (bound : Option Nat) (start : Nat) : Nat :=
  match bound with
  | some bound => min (board.wiring.bankEnd start) bound
  | none => board.wiring.bankEnd start

/-- The number of instructions that a walk may take unless the caller says otherwise. -/
def defaultLimit : Nat := 4096

/-- Walks from a start. -/
def walk (board : Board) (limit : Nat) (bound : Option Nat) (start : Nat)
    (processor : Processor) : Walk :=
  let taken := board.follow (board.windowEnd bound start) limit start processor []
  ⟨start, processor, taken.1, taken.2⟩

/-- Collecting steps gives the steps of the path. -/
theorem follow_eq_path (board : Board) (stop limit offset : Nat) (processor : Processor)
    (taken : List Step) :
    board.follow stop limit offset processor taken =
      (taken.reverse ++ (board.path stop limit offset processor).1,
        (board.path stop limit offset processor).2) := by
  induction limit generalizing offset processor taken with
  | zero => simp [follow, path]
  | succ limit inductionHypothesis =>
    rw [follow, path]
    cases board.fetch? stop offset processor with
    | none => simp
    | some instruction =>
      cases flows : instruction.flow.ending? with
      | some ending => simp [flows]
      | none => simp [flows, inductionHypothesis]

/-- The steps of a walk are those of the path from its start. -/
theorem steps_walk (board : Board) (limit : Nat) (bound : Option Nat) (start : Nat)
    (processor : Processor) :
    (board.walk limit bound start processor).steps =
      (board.path (board.windowEnd bound start) limit start processor).1 := by
  simp [walk, follow_eq_path]

/-- A walk ends as the path from its start does. -/
theorem ending_walk (board : Board) (limit : Nat) (bound : Option Nat) (start : Nat)
    (processor : Processor) :
    (board.walk limit bound start processor).ending =
      (board.path (board.windowEnd bound start) limit start processor).2 := by
  simp [walk, follow_eq_path]

end Board

end Cartridge
