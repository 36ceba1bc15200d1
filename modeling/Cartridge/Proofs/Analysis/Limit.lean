/-
This file proves how many instructions a routine of an analysis can have. The instruction
limit holds for a single walk and is asked about between two walks of a trace, but not while
one of them is taken in. So a routine has fewer than twice as many instructions as the limit
says; and unless the budget cut it off, it has more than the limit says exactly if the last
walk of its trace overran the limit.
-/

import Cartridge.Proofs.Analysis.Accounting
import Cartridge.Proofs.Analysis.Provenance
import Cartridge.Proofs.Counting

namespace Cartridge

namespace Analysis

variable {options : Options} {image : Image} {routine : Routine}

/-- A routine that has more instructions than the limit says is one whose last walk overran the
limit, and the excess is less than the limit. -/
theorem limit_exceeded_iff (valid : options.fault? = none)
    (listed : routine ∈ (run options image).routines) :
    routine.instructions.length < 2 * options.maxInstructions ∧
    (options.maxInstructions < routine.instructions.length →
      Trace.Overruns (scope options image) routine.origin) ∧
    (¬ (run options image).CutOff (scope options image) routine →
      Trace.Overruns (scope options image) routine.origin →
        options.maxInstructions < routine.instructions.length) := by
  obtain ⟨trace, taken, traced, -⟩ := exists_trace_of_mem_run listed
  obtain ⟨whole, found, begins⟩ := taken.exists_whole traced
  obtain ⟨-, -, -, -, instructions, -⟩ := Trace.routine?_eq_some found
  have fewer : routine.instructions.length ≤
      (Trace.run (scope options image) routine.origin).tiling.size := by
    rw [← Tiling.length_instructions, ← instructions]
    exact begins.length_le
  refine ⟨?_, fun exceeds => ?_, fun uncut overruns => ?_⟩
  · have positive : (scope options image).limit ≠ 0 := Options.maxInstructions_ne_zero valid
    exact Nat.lt_of_le_of_lt fewer (Trace.size_run_lt positive _)
  · exact (Trace.limit_lt_size_run_iff _ _).mp (Nat.lt_of_lt_of_le exceeds fewer)
  · cases strategy : options.strategy with
    | linear =>
      rw [routines_run_of_linear strategy] at listed
      exact absurd listed List.not_mem_nil
    | recursive =>
      rw [run_of_recursive strategy] at listed uncut
      obtain ⟨entry, same⟩ := exists_run_of_not_cutOff listed uncut
      obtain ⟨-, -, -, -, all, -⟩ := Trace.routine?_eq_some same
      rw [Trace.origin_of_run same] at overruns
      rw [all, Tiling.length_instructions]
      exact (Trace.limit_lt_size_run_iff _ _).mpr overruns

/-- A branch to the next instruction, and two more instructions. -/
def overrunImage : Image :=
  ⟨#[0x80, 0x00, 0xEA, 0xEA]⟩

/-- Options under which no walk has more than two instructions. -/
def shortOptions : Options :=
  { bareOptions with maxInstructions := 2 }

set_option maxRecDepth 100000 in
/-- A routine has three instructions although the limit is two. -/
theorem limit_exceeded : shortOptions.fault? = none ∧
    ∃ routine ∈ (run shortOptions overrunImage).routines,
      shortOptions.maxInstructions < routine.instructions.length := by
  decide +kernel

set_option maxRecDepth 100000 in
theorem limit_exceeded_iff_overrun : ∃ routine,
    (run shortOptions overrunImage).routines = [routine] ∧
      routine.instructions.length = 2 * shortOptions.maxInstructions - 1 ∧
      Trace.Overruns (scope shortOptions overrunImage) routine.origin := by
  have found : (run shortOptions overrunImage).routines.map
      (fun routine => routine.instructions.length) = [3] := by
    decide +kernel
  obtain ⟨routine, list, length⟩ := List.map_eq_singleton_iff.mp found
  refine ⟨routine, list, length, ?_⟩
  refine (limit_exceeded_iff (by decide +kernel) (list ▸ List.mem_singleton_self routine)).2.1 ?_
  rw [length]
  decide

end Analysis

end Cartridge
