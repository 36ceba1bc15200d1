/-
This file proves that an analysis does not depend on how its entry points are written. Entry
points count only by the offsets of the range to which they lead: their order, repetitions,
mirrors of one offset, and addresses that lead nowhere or out of the range make no difference
to anything that the analysis finds or reports.
-/

import Cartridge.Proofs.Analysis.Soundness
import Cartridge.Proofs.Survey.Seeding

namespace Cartridge

namespace Analysis

/-- What is put together from a survey depends neither on its queue nor on its marks. -/
theorem assemble_of_alike {left right : Survey} (alike : left.Alike right) (profile : Profile)
    (board : Board) (strategy : Strategy) (regions : List Region) (listing : List Instruction) :
    assemble profile board strategy regions left listing =
      assemble profile board strategy regions right listing := by
  obtain ⟨queue, seen, rfl, -⟩ := alike
  rfl

section Entries

variable {options : Options} {image : Image} {entryPoints : List Address}
  (same : ∀ offset, (scope options image).range.contains offset = true →
    ((∃ address ∈ entryPoints, (board options image).wiring.offset? address = some offset) ↔
      ∃ address ∈ options.entryPoints,
        (board options image).wiring.offset? address = some offset))

include same

theorem alike_survey (regions : List Region) :
    (survey { options with entryPoints := entryPoints } image regions).Alike
      (survey options image regions) := by
  refine Survey.alike_run (Stage.Placed.fresh _ _) (fun offset inside => ?_) _ _ _
  rw [List.mem_filterMap, List.mem_filterMap]
  exact same offset inside

/-- Entry points that lead to the same offsets of the range give the same analysis. -/
theorem run_of_same_entries : run { options with entryPoints := entryPoints } image =
    run options image := by
  obtain strategy | strategy : options.strategy = .recursive ∨ options.strategy = .linear := by
    cases options.strategy with
    | recursive => exact Or.inl rfl
    | linear => exact Or.inr rfl
  · rw [@run_of_recursive { options with entryPoints := entryPoints } strategy,
      run_of_recursive strategy]
    exact assemble_of_alike (alike_survey same _) _ _ _ _ _
  · rw [@run_of_linear { options with entryPoints := entryPoints } strategy,
      run_of_linear strategy]
    rfl

end Entries

/-- Options with two entry points. -/
def pointedOptions : Options :=
  { bareOptions with entryPoints := [⟨0x00, 0x8000⟩, ⟨0x00, 0x800A⟩] }

/-- The same entry points in another order, one of them twice and through a mirror, with an
address of work RAM and one behind the end of the image. -/
def respelledPoints : List Address :=
  [⟨0x80, 0x800A⟩, ⟨0x7E, 0x2000⟩, ⟨0x00, 0x800A⟩, ⟨0x00, 0x9000⟩, ⟨0x00, 0x8000⟩]

theorem run_of_same_entries_respelled :
    pointedOptions.entryPoints.filterMap (board pointedOptions branchingImage).wiring.offset? =
      [0, 10] ∧
    respelledPoints.filterMap (board pointedOptions branchingImage).wiring.offset? = [10, 10, 0] ∧
    run { pointedOptions with entryPoints := respelledPoints } branchingImage =
      run pointedOptions branchingImage := by
  have pointed : pointedOptions.entryPoints.filterMap
      (board pointedOptions branchingImage).wiring.offset? = [0, 10] := by
    decide +kernel
  have respelled : respelledPoints.filterMap
      (board pointedOptions branchingImage).wiring.offset? = [10, 10, 0] := by
    decide +kernel
  refine ⟨pointed, respelled, run_of_same_entries fun offset _ => ?_⟩
  rw [← List.mem_filterMap, ← List.mem_filterMap, respelled, pointed]
  simp only [List.mem_cons, List.not_mem_nil, or_false]
  omega

end Analysis

end Cartridge
