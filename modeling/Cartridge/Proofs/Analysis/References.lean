/-
This file proves that the references of an analysis are exactly the calls and jumps into the
image that the instructions of trusted routines make, one for each source. Several routines
may decode an offset under different states of the processor, and the index keeps only the
first of these instructions. They may differ in size and value, but never in address and flow;
so they all make the same reference, and the index shows an instruction that makes it.
-/

import Cartridge.Proofs.Analysis.Soundness
import Cartridge.Proofs.Flow
import Cartridge.Proofs.References

namespace Cartridge

namespace Analysis

/-! ### The index -/

/-- An index keeps the first instruction that was added at an offset. -/
theorem getElem?_indexInstructions (index : Std.TreeMap Nat Instruction)
    (instructions : List Instruction) (offset : Nat) :
    (indexInstructions index instructions)[offset]? =
      index[offset]?.or (instructions.find? fun instruction => instruction.offset == offset) := by
  rw [indexInstructions, Tiling.getElem?_foldl_insertIfNew fun instruction => instruction,
    Option.map_id']

/-- The index of an analysis begins with the instructions of its routines. -/
theorem exists_index_run (options : Options) (image : Image) :
    ∃ listing, (run options image).index = indexInstructions Std.TreeMap.empty
      ((run options image).routines.flatMap Routine.instructions ++ listing) := by
  cases strategy : options.strategy with
  | linear =>
    rw [run_of_linear strategy]
    exact ⟨_, rfl⟩
  | recursive =>
    rw [run_of_recursive strategy]
    exact ⟨_, rfl⟩

theorem references_run (options : Options) (image : Image) :
    (run options image).references =
      Reference.ofRoutines (board options image).wiring (run options image).routines := by
  cases strategy : options.strategy with
  | linear =>
    rw [run_of_linear strategy]
    rfl
  | recursive =>
    rw [run_of_recursive strategy]
    rfl

variable {options : Options} {image : Image}

/-- Where an instruction of a routine stands, the index has an instruction of a routine. -/
theorem exists_getElem?_index {instruction : Instruction}
    (member : instruction ∈ (run options image).routines.flatMap Routine.instructions) :
    ∃ shown ∈ (run options image).routines.flatMap Routine.instructions,
      shown.offset = instruction.offset ∧
        (run options image).index[instruction.offset]? = some shown := by
  obtain ⟨listing, index⟩ := exists_index_run options image
  have known : (((run options image).routines.flatMap Routine.instructions).find?
      fun other => other.offset == instruction.offset).isSome = true :=
    List.find?_isSome.mpr ⟨instruction, member, beq_self_eq_true instruction.offset⟩
  obtain ⟨shown, found⟩ := Option.isSome_iff_exists.mp known
  refine ⟨shown, List.mem_of_find?_eq_some found, by simpa using List.find?_some found, ?_⟩
  rw [index, getElem?_indexInstructions, List.find?_append, found]
  simp

/-! ### Instructions at one offset -/

theorem decodes_of_mem_routines {routine : Routine} (listed : routine ∈ (run options image).routines)
    {instruction : Instruction} (member : instruction ∈ routine.instructions) :
    ∃ processor, Instruction.decode (board options image).layout (board options image).image
      instruction.offset processor = .ok instruction := by
  obtain ⟨trace, taken, traced, -⟩ := exists_trace_of_mem_run listed
  obtain ⟨processor, -, decodes⟩ := taken.sound.executes_routine traced member
  exact ⟨processor, decodes.1⟩

/-- Instructions of routines that stand at one offset agree on address and flow. -/
theorem agree_of_mem_routines : ∀ first ∈ (run options image).routines.flatMap Routine.instructions,
    ∀ second ∈ (run options image).routines.flatMap Routine.instructions,
      first.offset = second.offset → first.address = second.address ∧ first.flow = second.flow := by
  intro first memberFirst second memberSecond here
  obtain ⟨routine, listed, held⟩ := List.mem_flatMap.mp memberFirst
  obtain ⟨other, listedOther, heldOther⟩ := List.mem_flatMap.mp memberSecond
  obtain ⟨before, decoded⟩ := decodes_of_mem_routines listed held
  obtain ⟨beforeOther, decodedOther⟩ := decodes_of_mem_routines listedOther heldOther
  rw [← here] at decodedOther
  exact ⟨Instruction.address_eq_of_decode decoded decodedOther,
    Instruction.flow_eq_of_decode decoded decodedOther⟩

/-! ### References -/

/-- The references are the calls and jumps of trusted routines to places in the image, one for
each source, and the index has an instruction with the flow of the reference at its source. -/
theorem references_exact (options : Options) (image : Image) :
    (∀ reference, reference ∈ (run options image).references ↔
      ∃ routine ∈ (run options image).routines, routine.ending.isConfident = true ∧
        ∃ instruction ∈ routine.instructions,
          instruction.offset = reference.source ∧ instruction.address = reference.sourceAddress ∧
            instruction.flow = reference.flow ∧
            (board options image).wiring.offset? reference.targetAddress =
              some reference.target) ∧
    (run options image).references.Pairwise (fun first second => first.source < second.source) ∧
    ∀ reference ∈ (run options image).references, ∃ instruction,
      (run options image).index[reference.source]? = some instruction ∧
        instruction.flow = reference.flow := by
  rw [references_run]
  refine ⟨fun reference => ?_, Reference.pairwise_ofRoutines agree_of_mem_routines, ?_⟩
  · rw [Reference.mem_ofRoutines]
    simp only [Reference.ofInstruction?_eq_some_iff]
  · intro reference member
    obtain ⟨routine, listed, -, instruction, held, makes⟩ := Reference.mem_ofRoutines.mp member
    obtain ⟨here, -, leaves, -⟩ := Reference.ofInstruction?_eq_some_iff.mp makes
    have among := List.mem_flatMap.mpr ⟨routine, listed, held⟩
    obtain ⟨shown, amongShown, place, look⟩ := exists_getElem?_index among
    refine ⟨shown, here ▸ look, ?_⟩
    rw [(agree_of_mem_routines shown amongShown instruction among place).2, leaves]

/-- A routine that calls a place before its start, from which control runs into the routine with
a wide accumulator. -/
def sharedImage : Image :=
  ⟨#[0xC2, 0x20, 0x20, 0x00, 0x80, 0x60]⟩

/-- Options under which the address of the call is an entry point. -/
def sharedOptions : Options :=
  { bareOptions with entryPoints := [⟨0x00, 0x8002⟩] }

set_option maxRecDepth 100000 in
theorem references_exact_shared :
    (∀ start ∈ [0, 2], ∃ routine ∈ (run sharedOptions sharedImage).routines,
      routine.start = start ∧ ∃ instruction ∈ routine.instructions, instruction.offset = 2) ∧
    ∃ reference ∈ (run sharedOptions sharedImage).references, reference.source = 2 ∧
      ∃ instruction, (run sharedOptions sharedImage).index[2]? = some instruction ∧
        instruction.flow = reference.flow := by
  have recorded : ∀ start ∈ [0, 2], ∃ found ∈
      (merged sharedOptions sharedImage (scores sharedOptions sharedImage)).filterMap Trace.yield?,
        found.1.start = start ∧ found.1.ending.isConfident = true ∧
          ∃ instruction ∈ found.1.instructions,
            instruction.offset = 2 ∧ instruction.address = ⟨0x00, 0x8002⟩ ∧
              instruction.flow = .call (some ⟨0x00, 0x8000⟩) := by
    decide +kernel
  simp only [← routines_survey] at recorded
  have references := references_exact sharedOptions sharedImage
  rw [run_of_recursive rfl] at references ⊢
  constructor
  · intro start member
    obtain ⟨found, listed, here, -, instruction, held, offset, -⟩ := recorded start member
    exact ⟨found.1, mem_routines_of_survey listed, here, instruction, held, offset⟩
  · obtain ⟨found, listed, -, trusted, instruction, held, offset, address, calls⟩ :=
      recorded 0 List.mem_cons_self
    have made := (references.1 ⟨2, 0, .call, ⟨0x00, 0x8002⟩, ⟨0x00, 0x8000⟩⟩).mpr
      ⟨found.1, mem_routines_of_survey listed, trusted, instruction, held, offset, address, calls,
        by decide +kernel⟩
    exact ⟨_, made, rfl, references.2.2 _ made⟩

end Analysis

end Cartridge
