/-
This file puts an image and a layout together, as the board of a cartridge does, and
fetches instructions from it. A fetch is a decoding that has to end at or before a
given offset; everything that follows code fetches its instructions this way.
-/

import Cartridge.Instruction.Decode
import Cartridge.Processor.Advance

namespace Cartridge

/-- An image and the layout that shows it on the bus. -/
structure Board where
  layout : Layout
  image : Image

namespace Board

/-- The maps between the offsets of the image and the bus. -/
def wiring (board : Board) : Wiring :=
  ⟨board.layout, board.image.size⟩

/-- The instruction at an offset, if it decodes and ends at or before `stop`. -/
def fetch? (board : Board) (stop offset : Nat) (processor : Processor) : Option Instruction :=
  match Instruction.decode board.layout board.image offset processor with
  | .ok instruction => if instruction.stop ≤ stop then some instruction else none
  | .error _ => none

theorem fetch?_eq_some_iff {board : Board} {stop offset : Nat} {processor : Processor}
    {instruction : Instruction} :
    board.fetch? stop offset processor = some instruction ↔
      Instruction.decode board.layout board.image offset processor = .ok instruction ∧
        instruction.stop ≤ stop := by
  unfold fetch?
  split
  · rename_i found decoded
    rw [decoded, Except.ok.injEq]
    split
    · rename_i fits
      rw [Option.some.injEq]
      constructor
      · intro same
        exact ⟨same, same ▸ fits⟩
      · exact fun both => both.1
    · rename_i exceeds
      constructor
      · intro absurdity
        exact nomatch absurdity
      · rintro ⟨same, fits⟩
        exact absurd (same ▸ fits) exceeds
  · rename_i failed
    rw [failed]
    constructor
    · intro absurdity
      exact nomatch absurdity
    · rintro ⟨absurdity, _⟩
      exact nomatch absurdity

/-- A fetch makes progress. -/
theorem lt_stop_of_fetch? {board : Board} {stop offset : Nat} {processor : Processor}
    {instruction : Instruction}
    (fetched : board.fetch? stop offset processor = some instruction) :
    offset < instruction.stop := by
  have decoded := (fetch?_eq_some_iff.mp fetched).1
  rw [← Instruction.offset_of_decode decoded]
  exact instruction.offset_lt_stop

end Board

end Cartridge
