/-
This file keeps instructions by their offsets so that no two of them overlap. An
instruction is placed only if all of its bytes are still free; what was placed first
stays. Where no two overlap, the one that begins nearest before an offset is the only one
from before that can reach beyond it.
-/

import Cartridge.Instruction
import Cartridge.Span
import Std.Data.TreeMap

namespace Cartridge

/-- Instructions by their offsets. -/
abbrev Tiling := Std.TreeMap Nat Instruction

namespace Tiling

/-- The last instruction that begins at or before an offset. -/
def nearest? (tiling : Tiling) (offset : Nat) : Option Instruction :=
  (tiling.getEntryLE? offset).map Prod.snd

/-- Whether an instruction shares a byte with one that is already placed: the last one that
begins at or before it reaches into it, or another one begins inside it. -/
def overlaps (tiling : Tiling) (instruction : Instruction) : Bool :=
  ((tiling.nearest? instruction.offset).any fun earlier => instruction.offset < earlier.stop) ||
    Span.hasKey ⟨instruction.offset, instruction.stop⟩ tiling

/-- Places an instruction unless it overlaps one that is already placed. -/
def place (tiling : Tiling) (instruction : Instruction) : Tiling :=
  if tiling.overlaps instruction then tiling
  else tiling.insert instruction.offset instruction

/-- The instructions in ascending order. -/
def instructions (tiling : Tiling) : List Instruction :=
  tiling.toList.map Prod.snd

end Tiling

end Cartridge
