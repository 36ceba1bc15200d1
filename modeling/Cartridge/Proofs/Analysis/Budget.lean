/-
This file proves that an instruction budget takes away but never changes what an analysis
finds. If the budget is not exhausted, the analysis is the one without a budget. If it is,
every routine but one is a routine of the analysis without a budget, the one that may differ
is the beginning of such a routine, and what is left over are entries that the analysis
without a budget accepts too.
-/

import Cartridge.Proofs.Analysis.Accounting
import Cartridge.Proofs.Analysis.Soundness
import Cartridge.Proofs.Survey.Budget

namespace Cartridge

/-- The options with another instruction budget. -/
def Options.withBudget (options : Options) (budget : Option Nat) : Options :=
  { options with instructionBudget := budget }

namespace Analysis

variable {options : Options} {image : Image} {regions : List Region}

/-- The routine that starts where a given routine starts is that routine. -/
theorem routineAt?_start {routine : Routine}
    (listed : routine ∈ (recursive options image regions).routines) :
    (recursive options image regions).routineAt? routine.start = some routine :=
  (routineAt?_eq_some_iff (nodup_starts options image regions)).mpr ⟨listed, rfl⟩

/-- The survey with a budget is the one without, or its budget has run out. -/
theorem survey_eq_or_truncates (options : Options) (image : Image) (regions : List Region)
    (budget : Nat) :
    (survey (options.withBudget (some budget)) image regions =
        survey (options.withBudget none) image regions ∧
      (survey (options.withBudget none) image regions).exhausted = false) ∨
    (survey (options.withBudget (some budget)) image regions).Truncates
      (survey (options.withBudget none) image regions) :=
  Survey.run_eq_or_truncates ⟨⟨[], Stage.Placed.fresh _ _⟩, rfl⟩ budget _ _ _

/-- A survey whose budget ran out shares its routines with the free one, but for one. -/
theorem countP_routineAt?_le {bounded free : Options}
    (truncates : (survey bounded image regions).Truncates (survey free image regions)) :
    ((recursive bounded image regions).routines.countP fun routine =>
      (recursive free image regions).routineAt? routine.start ≠ some routine) ≤ 1 := by
  obtain ⟨common, last, found, shared, -⟩ := truncates.routines
  rw [(routines_perm_survey bounded image regions).countP_eq, found, List.map_append,
    List.countP_append]
  have same : (common.map Prod.fst).countP (fun routine =>
      (recursive free image regions).routineAt? routine.start ≠ some routine) = 0 := by
    refine List.countP_eq_zero.mpr fun routine member => ?_
    obtain ⟨pair, listed, rfl⟩ := List.mem_map.mp member
    rw [routineAt?_start (mem_routines_of_survey (shared.subset listed))]
    simp
  rw [same, Nat.zero_add]
  refine Nat.le_trans List.countP_le_length ?_
  cases last with
  | none => exact Nat.zero_le 1
  | some part => exact Nat.le_refl 1

/-- A routine that the free survey does not have is the beginning of one that it has. -/
theorem exists_cutFrom {bounded free : Options}
    (truncates : (survey bounded image regions).Truncates (survey free image regions))
    {routine : Routine} (listed : routine ∈ (recursive bounded image regions).routines)
    (differs : (recursive free image regions).routineAt? routine.start ≠ some routine) :
    ∃ whole ∈ (recursive free image regions).routines, routine.CutFrom whole := by
  obtain ⟨common, last, found, shared, cut⟩ := truncates.routines
  rw [(routines_perm_survey bounded image regions).mem_iff, found, List.map_append,
    List.mem_append] at listed
  rcases listed with early | final
  · obtain ⟨pair, member, rfl⟩ := List.mem_map.mp early
    exact absurd (routineAt?_start (mem_routines_of_survey (shared.subset member))) differs
  · obtain ⟨part, member, rfl⟩ := List.mem_map.mp final
    obtain ⟨whole, recorded, cutFrom⟩ := cut part (Option.mem_toList.mp member)
    exact ⟨whole.1, mem_routines_of_survey recorded, cutFrom⟩

/-- A budget that is not exhausted changes nothing. One that is leaves all routines but one as
they are without a budget, the last one as the beginning of one, and only entries unanalyzed
that are accepted without a budget. -/
theorem budget_truncates (strategy : options.strategy = .recursive) (image : Image)
    (budget : Nat) :
    ((run (options.withBudget (some budget)) image).exhausted = false →
      run (options.withBudget (some budget)) image = run (options.withBudget none) image) ∧
    ((run (options.withBudget (some budget)) image).exhausted = true →
      ((run (options.withBudget (some budget)) image).routines.countP fun routine =>
        (run (options.withBudget none) image).routineAt? routine.start ≠ some routine) ≤ 1 ∧
      (∀ routine ∈ (run (options.withBudget (some budget)) image).routines,
        (run (options.withBudget none) image).routineAt? routine.start ≠ some routine →
          ∃ whole ∈ (run (options.withBudget none) image).routines, routine.CutFrom whole) ∧
      ∀ offset ∈ (run (options.withBudget (some budget)) image).unanalyzed,
        offset ∈ (survey (options.withBudget none) image
          (scores (options.withBudget none) image)).seen) := by
  have bounded : (options.withBudget (some budget)).strategy = .recursive := strategy
  have free : (options.withBudget none).strategy = .recursive := strategy
  rw [run_of_recursive bounded, run_of_recursive free]
  rcases survey_eq_or_truncates options image (scores options image) budget with
    ⟨same, going⟩ | truncates
  · refine ⟨fun _ => ?_, fun stopped => ?_⟩
    · show assemble _ _ _ _ (survey (options.withBudget (some budget)) image
        (scores options image)) _ = _
      rw [same]
      rfl
    · rw [← same] at going
      exact Bool.noConfusion (going.symm.trans stopped)
  · refine ⟨fun going => Bool.noConfusion (truncates.stopped.symm.trans going), fun _ => ?_⟩
    refine ⟨countP_routineAt?_le truncates, fun routine => exists_cutFrom truncates, ?_⟩
    intro offset listed
    exact truncates.seen offset (mem_seen_survey.mpr (Or.inr (mem_unanalyzed.mp listed)))

set_option maxRecDepth 100000 in
theorem budget_truncates_gapped : ∃ routine,
    (run (bareOptions.withBudget (some 2)) gappedImage).routines = [routine] ∧
      routine.instructions.length = 2 ∧
      (∃ whole ∈ (run (bareOptions.withBudget none) gappedImage).routines,
        routine.CutFrom whole) ∧
      run (bareOptions.withBudget (some 3)) gappedImage =
        run (bareOptions.withBudget none) gappedImage := by
  have found : (run (bareOptions.withBudget (some 2)) gappedImage).routines.map (fun routine =>
      (routine.instructions.length,
        decide ((run (bareOptions.withBudget none) gappedImage).routineAt? routine.start ≠
          some routine))) = [(2, true)] := by
    decide +kernel
  have stopped : (run (bareOptions.withBudget (some 2)) gappedImage).exhausted = true := by
    decide +kernel
  obtain ⟨routine, list, parts⟩ := List.map_eq_singleton_iff.mp found
  have differs := of_decide_eq_true (congrArg Prod.snd parts)
  refine ⟨routine, list, congrArg Prod.fst parts, ?_, ?_⟩
  · exact ((budget_truncates rfl gappedImage 2).2 stopped).2.1 routine
      (list ▸ List.mem_singleton_self routine) differs
  · exact (budget_truncates rfl gappedImage 3).1 (by decide +kernel)

end Analysis

end Cartridge
