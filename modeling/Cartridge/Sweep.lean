/-
This file decodes a stretch of an image from front to back, whatever the flow of
control. A sweep stops at the first instruction that does not fit. A listing sweeps
each bank window of a span anew, since straight-line code never crosses from one bank
into the next.

The recursion `run` says what a sweep holds; `collect` gathers the same instructions
without growing the stack.
-/

import Cartridge.Board
import Cartridge.Span

namespace Cartridge.Board

/-- The instructions from an offset up to `stop`, at most `count` of them. -/
def run (board : Board) (stop : Nat) : (count offset : Nat) → Processor → List Instruction
  | 0, _, _ => []
  | count + 1, offset, processor =>
    match board.fetch? stop offset processor with
    | none => []
    | some instruction =>
      instruction :: run board stop count instruction.stop (processor.advance instruction)

/-- The instructions from an offset after those already taken, which come newest first. -/
def collect (board : Board) (stop : Nat) :
    (count offset : Nat) → Processor → List Instruction → List Instruction
  | 0, _, _, taken => taken.reverse
  | count + 1, offset, processor, taken =>
    match board.fetch? stop offset processor with
    | none => taken.reverse
    | some instruction =>
      collect board stop count instruction.stop (processor.advance instruction)
        (instruction :: taken)

/-- The instructions of a span, decoded one after the other. Each takes at least one byte, so
there are never more of them than bytes. -/
def sweep (board : Board) (span : Span) (processor : Processor) : List Instruction :=
  let stop := min span.stop board.image.size
  board.collect stop (stop - span.start) span.start processor []

/-- The part of a span that has addresses, cut into bank windows. -/
def windows (board : Board) (span : Span) : List Span :=
  Span.pieces ⟨span.start, min span.stop board.wiring.mappedSize⟩ board.layout.bankSize

/-- The instructions of a span, bank window by bank window, each from the same state. -/
def listing (board : Board) (span : Span) (processor : Processor) : List Instruction :=
  (board.windows span).flatMap fun window => board.sweep window processor

/-- Collecting instructions gives the instructions of the run. -/
theorem collect_eq_run (board : Board) (stop count offset : Nat) (processor : Processor)
    (taken : List Instruction) :
    board.collect stop count offset processor taken =
      taken.reverse ++ board.run stop count offset processor := by
  induction count generalizing offset processor taken with
  | zero => simp [collect, run]
  | succ count inductionHypothesis =>
    rw [collect, run]
    cases board.fetch? stop offset processor with
    | none => simp
    | some instruction => simp [inductionHypothesis]

/-- A sweep is the run over its span. -/
theorem sweep_eq_run (board : Board) (span : Span) (processor : Processor) :
    board.sweep span processor =
      board.run (min span.stop board.image.size)
        (min span.stop board.image.size - span.start) span.start processor := by
  simp [sweep, collect_eq_run]

end Cartridge.Board
