/-
This file proves that every routine of an analysis can be traced back. A chain of routines
leads to it from an entry point, an interrupt handler, a window that looks like code or the
start of the range; every routine in the chain but the last is trusted, and calls or jumps
to the start of the next. A routine that is not trusted leads nowhere: unless the instruction
budget cut it off, it is a straight piece of code without any targets.
-/

import Cartridge.Proofs.Analysis.Soundness
import Cartridge.Proofs.Straight
import Cartridge.Proofs.Survey.Budget
import Cartridge.Proofs.Survey.Provenance

namespace Cartridge

namespace Analysis

/-- The instruction budget has run out and cut off a routine: the trace of its entry gives a
routine that goes on behind its last instruction. -/
def CutOff (analysis : Analysis) (scope : Scope) (routine : Routine) : Prop :=
  analysis.exhausted = true ∧
    ∃ whole, (Trace.run scope ⟨routine.start, routine.entry, routine.seed⟩).routine? = some whole ∧
      routine.CutFrom whole

variable {options : Options} {image : Image} {regions : List Region} {routine : Routine}

theorem linked_survey (options : Options) (image : Image) (regions : List Region) :
    Stage.Linked (scope options image)
      ⟨survey options image regions, [], merged options image regions⟩ :=
  (Stage.course_run _ _ _ _ _ _).linked (Stage.Linked.fresh _ _)

theorem linked_of_mem_recursive
    (listed : routine ∈ (recursive options image regions).routines) :
    routine.Linked (board options image).wiring (recursive options image regions).routines := by
  have same := routines_perm_survey options image regions
  have linked := (linked_survey options image regions).routines routine (same.mem_iff.mp listed)
  exact linked.mono same.symm.subset

/-- A routine comes from a whole trace, unless the budget cut it off. -/
theorem exists_run_of_not_cutOff
    (listed : routine ∈ (recursive options image regions).routines)
    (uncut : ¬ (recursive options image regions).CutOff (scope options image) routine) :
    ∃ entry, (Trace.run (scope options image) entry).routine? = some routine := by
  obtain ⟨trace, member, certain, traced⟩ := mem_routines.mp listed
  cases (harvested_survey options image regions).taken trace member with
  | whole entry => exact ⟨entry, traced⟩
  | @part entry count positive =>
    have yields : ((Trace.run (scope options image) entry).cut count).yield? =
        some (routine, ((Trace.run (scope options image) entry).cut count).labels) :=
      Trace.yield?_eq_some_iff.mpr ⟨certain, traced, rfl⟩
    rcases Trace.exists_yield?_of_cut yields with same | ⟨whole, wholeYields, cutFrom⟩
    · exact ⟨entry, same ▸ traced⟩
    cases stopped : (recursive options image regions).exhausted with
    | true =>
      obtain ⟨start, processor, seed, -⟩ := Trace.routine?_eq_some traced
      rw [Trace.entry_cut, Trace.entry_run] at start processor seed
      refine absurd ⟨stopped, whole.1, ?_, cutFrom⟩ uncut
      rw [start, processor, seed]
      exact (Trace.yield?_eq_some_iff.mp wholeYields).2.1
    | false =>
      have whole := (linked_survey options image regions).whole stopped _ member
      rw [whole] at traced
      exact ⟨_, traced⟩

/-- Every routine is at the end of a chain of trusted routines that begins at a root, and a
routine that is not trusted, unless it was cut off, names no targets and has no gaps. -/
theorem provenance_of_mem_routines (listed : routine ∈ (run options image).routines) :
    routine.Linked (board options image).wiring (run options image).routines ∧
      (routine.ending.isConfident = false →
        ¬ (run options image).CutOff (scope options image) routine →
          routine.calls = [] ∧ routine.jumps = [] ∧ routine.unmapped = [] ∧
            routine.gaps = []) := by
  cases strategy : options.strategy with
  | linear =>
    rw [routines_run_of_linear strategy] at listed
    exact absurd listed List.not_mem_nil
  | recursive =>
    rw [run_of_recursive strategy] at listed ⊢
    refine ⟨linked_of_mem_recursive listed, fun doubtful uncut => ?_⟩
    obtain ⟨entry, traced⟩ := exists_run_of_not_cutOff listed uncut
    obtain ⟨-, -, -, ending, -⟩ := Trace.routine?_eq_some traced
    rw [ending] at doubtful
    exact Trace.straight_of_not_confident doubtful traced

/-- A routine that calls the return behind it. -/
def chainedImage : Image :=
  ⟨#[0x20, 0x04, 0x80, 0x60, 0x60]⟩

/-- Code that runs out of the image. -/
def straightImage : Image :=
  ⟨#[0xEA, 0xEA]⟩

set_option maxRecDepth 100000 in
theorem provenance_chained :
    (∃ callee ∈ (run bareOptions chainedImage).routines, callee.seed = .call ∧
      callee.Linked (board bareOptions chainedImage).wiring
        (run bareOptions chainedImage).routines) ∧
    ∃ routine, (run bareOptions straightImage).routines = [routine] ∧
      routine.instructions.length = 2 ∧ routine.calls = [] ∧ routine.gaps = [] := by
  constructor
  · have called : Seed.call ∈ (survey bareOptions chainedImage
        (scores bareOptions chainedImage)).routines.toList.map fun found => found.1.seed := by
      decide +kernel
    obtain ⟨found, recorded, seed⟩ := List.mem_map.mp called
    have listed : found.1 ∈ (run bareOptions chainedImage).routines := by
      rw [run_of_recursive rfl]
      exact mem_routines_of_survey recorded
    exact ⟨found.1, listed, seed, (provenance_of_mem_routines listed).1⟩
  · have found : (run bareOptions straightImage).routines.map (fun routine =>
        (routine.instructions.length, routine.ending.isConfident)) = [(2, false)] := by
      decide +kernel
    have going : (run bareOptions straightImage).exhausted = false := by
      decide +kernel
    obtain ⟨routine, list, parts⟩ := List.map_eq_singleton_iff.mp found
    have uncut : ¬ (run bareOptions straightImage).CutOff (scope bareOptions straightImage)
        routine :=
      fun cut => Bool.noConfusion (going.symm.trans cut.1)
    obtain ⟨calls, -, -, gaps⟩ := (provenance_of_mem_routines
      (list ▸ List.mem_singleton_self routine)).2 (congrArg Prod.snd parts) uncut
    exact ⟨routine, list, congrArg Prod.fst parts, calls, gaps⟩

end Analysis

end Cartridge
