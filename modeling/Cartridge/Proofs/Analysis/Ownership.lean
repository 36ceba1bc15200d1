/-
This file proves when a transfer that a routine of an analysis records is made by one of the
routine's own instructions. The trace of the routine always passed an instruction that makes
it. This instruction has to stand in front of the end of the routine, and no other
instruction may have taken its place. Only an address outside the image can be recorded
although all that is wrong with its makers is that they were cut off.
-/

import Cartridge.Proofs.Analysis.Soundness
import Cartridge.Proofs.Ownership

namespace Cartridge

namespace Analysis

variable {options : Options} {image : Image} {routine : Routine}

/-- A routine records only transfers that its trace passed. It has an instruction that makes one
exactly if some instruction that makes it was neither cut off nor displaced; and for all but
the addresses outside the image it is enough that none was displaced. -/
theorem owned_iff (listed : routine ∈ (run options image).routines) {transfer : Transfer}
    (recorded : transfer.RecordedBy routine) :
    ∃ whole, (Trace.run (scope options image) routine.origin).routine? = some whole ∧
      routine.instructions <+: whole.instructions ∧
      (∃ maker ∈ Trace.passed (scope options image) routine.origin, transfer.MadeBy maker) ∧
      ((∃ maker ∈ routine.instructions, transfer.MadeBy maker) ↔
        ∃ maker ∈ Trace.passed (scope options image) routine.origin,
          transfer.MadeBy maker ∧ maker.offset < routine.stop ∧ ¬ whole.Displaces maker) ∧
      (transfer.isUnmapped = false →
        (∀ maker ∈ Trace.passed (scope options image) routine.origin,
          transfer.MadeBy maker → ¬ whole.Displaces maker) →
            ∃ maker ∈ routine.instructions, transfer.MadeBy maker) := by
  obtain ⟨trace, taken, traced, -⟩ := exists_trace_of_mem_run listed
  obtain ⟨whole, found, begins⟩ := taken.exists_whole traced
  obtain ⟨-, -, -, -, instructions, -⟩ := Trace.routine?_eq_some found
  have apart := (Trace.orderly_run (scope options image) routine.origin).pairwise_instructions
  rw [← instructions] at apart
  obtain ⟨maker, passes, made, near⟩ := taken.exists_maker traced recorded
  refine ⟨whole, found, begins, ⟨maker, passes, made⟩, ⟨?_, ?_⟩, ?_⟩
  · rintro ⟨own, member, makes⟩
    have stands := begins.subset member
    exact ⟨own, Trace.mem_passed_of_mem_instructions (instructions ▸ stands), makes,
      Routine.offset_lt_stop_of_mem (apart.sublist begins.sublist) member,
      Trace.not_displaces_of_mem found stands⟩
  · rintro ⟨other, passesOther, makes, before, free⟩
    obtain ⟨standing, stands, here, flow⟩ := Trace.exists_standing found passesOther free
    obtain ⟨-, -, -, -, own, first, head, -⟩ := Trace.routine?_eq_some traced
    have some : routine.instructions ≠ [] := by
      rw [own]
      exact List.ne_nil_of_mem (List.mem_of_mem_head? head)
    exact ⟨standing, Routine.mem_of_offset_lt_stop apart some begins stands (here ▸ before),
      makes.congr here flow⟩
  · intro mapped free
    obtain ⟨standing, stands, here, flow⟩ :=
      Trace.exists_standing found passes (free maker passes made)
    exact ⟨standing, near mapped standing (instructions ▸ stands) here, made.congr here flow⟩

/-- A branch into a load. The bytes to which it leads are a call, for which the load leaves no
place. -/
def overlappingImage : Image :=
  ⟨#[0xD0, 0x01, 0xA9, 0x20, 0x60, 0x80, 0x60]⟩

set_option maxRecDepth 100000 in
theorem owned_iff_overlapping : ∃ routine, (run bareOptions overlappingImage).routines = [routine] ∧
    ⟨0x00, 0x8060⟩ ∈ routine.calls ∧
    ∃ whole, (Trace.run (scope bareOptions overlappingImage) routine.origin).routine? = some whole ∧
      ∃ maker ∈ Trace.passed (scope bareOptions overlappingImage) routine.origin,
        maker.Calls ⟨0x00, 0x8060⟩ ∧ whole.Displaces maker := by
  have found : (run bareOptions overlappingImage).routines.map (fun routine =>
      (routine.calls, decide (∃ maker ∈ routine.instructions, maker.Calls ⟨0x00, 0x8060⟩))) =
        [([⟨0x00, 0x8060⟩], false)] := by
    decide +kernel
  obtain ⟨routine, list, parts⟩ := List.map_eq_singleton_iff.mp found
  have calls : routine.calls = [⟨0x00, 0x8060⟩] := congrArg Prod.fst parts
  have recorded : ⟨0x00, 0x8060⟩ ∈ routine.calls := by
    rw [calls]
    exact List.mem_singleton_self _
  have unowned := of_decide_eq_false (congrArg Prod.snd parts)
  obtain ⟨whole, traced, -, -, -, owned⟩ := owned_iff (list ▸ List.mem_singleton_self routine)
    (show (Transfer.call ⟨0x00, 0x8060⟩).RecordedBy routine from recorded)
  refine ⟨routine, list, recorded, whole, traced, ?_⟩
  by_contra free
  exact unowned (owned rfl fun maker passes made displaced =>
    free ⟨maker, passes, made, displaced⟩)

/-- A call out of the image. -/
def farImage : Image :=
  ⟨#[0xEA, 0x22, 0x00, 0x20, 0x7E, 0x60]⟩

/-- Options under which a routine is cut behind its first instruction. -/
def stingyOptions : Options :=
  { bareOptions with instructionBudget := some 1 }

set_option maxRecDepth 100000 in
/-- A routine records an address outside the image although the call to it was cut off. -/
theorem unowned_unmapped : ∃ routine ∈ (run stingyOptions farImage).routines,
    ⟨0x7E, 0x2000⟩ ∈ routine.unmapped ∧
      ∀ instruction ∈ routine.instructions,
        ¬ (Transfer.unmapped ⟨0x7E, 0x2000⟩).MadeBy instruction := by
  decide +kernel

end Analysis

end Cartridge
