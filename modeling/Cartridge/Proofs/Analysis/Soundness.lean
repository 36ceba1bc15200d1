/-
This file proves that an analysis lists nothing but code, and lists it in order. Control
executes every instruction of every routine on its way from the entry of the routine, under
the processor state that this way leaves behind and inside the bank window of the entry.
And every routine is well-formed, also one that the instruction budget cut off.
-/

import Cartridge.Proofs.Analysis.Recursive

namespace Cartridge

namespace Analysis

variable {options : Options} {image : Image} {routine : Routine}

/-- Control executes every instruction of a routine, inside the window of its start. -/
theorem executes_of_mem_routines (listed : routine ∈ (run options image).routines)
    {instruction : Instruction} (member : instruction ∈ routine.instructions) :
    (scope options image).Executes routine.start routine.entry instruction := by
  obtain ⟨trace, taken, traced, -⟩ := exists_trace_of_mem_run listed
  exact taken.sound.executes_routine traced member

/-- A routine that switches to native mode, widens the accumulator and skips an instruction by
a branch. -/
def branchingImage : Image :=
  ⟨#[0x18, 0xFB, 0xC2, 0x20, 0xA9, 0x34, 0x12, 0xD0, 0x01, 0xEA, 0x60]⟩

/-- Options under which only the start of the range is tried. -/
def bareOptions : Options :=
  { seedVectors := false, seedRegions := false, layout := some .loRom }

set_option maxRecDepth 100000 in
theorem executes_branching : ∃ routine, (run bareOptions branchingImage).routines = [routine] ∧
    routine.instructions.length = 7 ∧ ∀ instruction ∈ routine.instructions,
      (scope bareOptions branchingImage).Executes routine.start routine.entry instruction := by
  have found : (run bareOptions branchingImage).routines.map
      (fun routine => routine.instructions.length) = [7] := by
    decide +kernel
  obtain ⟨routine, list, length⟩ := List.map_eq_singleton_iff.mp found
  refine ⟨routine, list, length, fun instruction member => ?_⟩
  exact executes_of_mem_routines (list ▸ List.mem_singleton_self routine) member

/-- The instructions and gaps of a routine fill it from its start to its end, inside the
range of the analysis. -/
theorem wellFormed_of_mem_routines (listed : routine ∈ (run options image).routines) :
    routine.WellFormed (board options image)
      (effectiveRange options (board options image).wiring) := by
  obtain ⟨trace, taken, traced, inRange⟩ := exists_trace_of_mem_run listed
  exact taken.sound.wellFormed inRange traced

/-- A routine that branches over two bytes. -/
def gappedImage : Image :=
  ⟨#[0x80, 0x02, 0xFF, 0xFF, 0xEA, 0x60]⟩

set_option maxRecDepth 100000 in
theorem wellFormed_gapped : ∃ routine,
    (run { bareOptions with instructionBudget := some 2 } gappedImage).routines = [routine] ∧
      routine.ending = .limited ∧ routine.gaps = [⟨2, 4⟩] ∧
      routine.WellFormed (board { bareOptions with instructionBudget := some 2 } gappedImage)
        (effectiveRange { bareOptions with instructionBudget := some 2 }
          (board { bareOptions with instructionBudget := some 2 } gappedImage).wiring) := by
  have found : (run { bareOptions with instructionBudget := some 2 } gappedImage).routines.map
      (fun routine => (routine.ending, routine.gaps)) = [(.limited, [⟨2, 4⟩])] := by
    decide +kernel
  obtain ⟨routine, list, parts⟩ := List.map_eq_singleton_iff.mp found
  refine ⟨routine, list, congrArg Prod.fst parts, congrArg Prod.snd parts, ?_⟩
  exact wellFormed_of_mem_routines (list ▸ List.mem_singleton_self routine)

end Analysis

end Cartridge
