/-
This file proves that an analysis keeps to its instruction budget. At every stage the number
of instructions counted stays within the budget, so what is left of it is never negative; and
as soon as the budget has run out, the routines are final. In the end the routines hold no
more instructions than were counted.
-/

import Cartridge.Proofs.Analysis.Accounting
import Cartridge.Proofs.Survey.Ledger

namespace Cartridge

namespace Analysis

variable {options : Options}

theorem balanced_begun (options : Options) (image : Image) (budget : Option Nat) :
    Stage.Balanced budget ⟨begun options image, [], []⟩ :=
  Stage.Balanced.fresh budget _ _

theorem course_survey {budget : Nat} (limited : options.instructionBudget = some budget)
    (image : Image) (regions : List Region) :
    Stage.Course (scope options image) (some budget) ⟨begun options image, [], []⟩
      ⟨survey options image regions, [], merged options image regions⟩ := by
  rw [survey, merged, limited]
  exact Stage.course_run _ _ _ _ _ _

theorem sum_routines (options : Options) (image : Image) (regions : List Region) :
    ((recursive options image regions).routines.map fun routine =>
      routine.instructions.length).sum = (survey options image regions).listed :=
  ((routines_perm_survey options image regions).map _).sum_nat

/-- No stage counts more than the budget allows, no routine is added once the budget has run
out, and the routines hold no more instructions than were counted. -/
theorem budget_balanced (strategy : options.strategy = .recursive) {budget : Nat}
    (limited : options.instructionBudget = some budget) (image : Image) :
    (∀ stage, Stage.Course (scope options image) (some budget) ⟨begun options image, [], []⟩ stage →
      stage.survey.decoded ≤ budget ∧
      (stage.survey.exhausted = true → ∀ later,
        Stage.Course (scope options image) (some budget) stage later →
          later.survey.routines = stage.survey.routines)) ∧
    Stage.Course (scope options image) (some budget) ⟨begun options image, [], []⟩
      ⟨survey options image (scores options image), [],
        merged options image (scores options image)⟩ ∧
    ((run options image).routines.map fun routine => routine.instructions.length).sum ≤
      (run options image).decoded ∧
    (run options image).decoded ≤ budget := by
  have fresh := balanced_begun options image (some budget)
  have course := course_survey limited image (scores options image)
  have balanced := course.balanced fresh
  refine ⟨fun stage reached => ⟨(reached.balanced fresh).within rfl, fun stopped later => ?_⟩,
    course, ?_, ?_⟩
  · exact fun after => after.routines_eq (reached.balanced fresh) stopped
  · rw [run_of_recursive strategy, sum_routines]
    exact balanced.covers
  · rw [run_of_recursive strategy]
    exact balanced.within rfl

set_option maxRecDepth 100000 in
theorem budget_balanced_calling :
    (run budgetOptions callingImage).exhausted = true ∧
    (run budgetOptions callingImage).routines.length = 1 ∧
    ((run budgetOptions callingImage).routines.map fun routine =>
      routine.instructions.length).sum ≤ (run budgetOptions callingImage).decoded ∧
    (run budgetOptions callingImage).decoded ≤ 2 ∧
    ∀ later, Stage.Course (scope budgetOptions callingImage) (some 2)
      ⟨survey budgetOptions callingImage (scores budgetOptions callingImage), [],
        merged budgetOptions callingImage (scores budgetOptions callingImage)⟩ later →
      later.survey.routines =
        (survey budgetOptions callingImage (scores budgetOptions callingImage)).routines := by
  obtain ⟨stages, course, covers, within⟩ :=
    @budget_balanced budgetOptions rfl 2 rfl callingImage
  exact ⟨by decide +kernel, by decide +kernel, covers, within,
    (stages _ course).2 (by decide +kernel)⟩

end Analysis

end Cartridge
