/-
This file settles how far an analysis can rely on its question whether a window is covered. A
window that counts as covered has a byte of some recorded instruction in it, at every stage
and whatever was merged in whatever order. The converse fails exactly for the windows that the
survey overlooks: those in which no instruction begins, where the nearest instruction before
the window ends in time and hides a longer one. It takes two routines that read a byte as a
part of different instructions, and an image of seven bytes is enough for it.
-/

import Cartridge.Proofs.Analysis.Closure
import Cartridge.Proofs.Survey.Coverage

namespace Cartridge

namespace Analysis

/-- At every stage that the survey of an analysis can come to, a window that counts as covered
has a byte of a recorded instruction in it. The two agree exactly unless the survey overlooks
the window, and it overlooks none unless instructions of two routines share a byte and end
apart. -/
theorem isCovered_iff_touches_iff {options : Options} {image : Image} {stage : Stage}
    (course : Stage.Course (scope options image) options.instructionBudget
      ⟨begun options image, [], []⟩ stage)
    {window : Span} (nonempty : window.start < window.stop) :
    (stage.survey.isCovered window = true → stage.survey.Touches window) ∧
    ((stage.survey.isCovered window = true ↔ stage.survey.Touches window) ↔
      ¬stage.survey.Overlooks window) ∧
    (stage.survey.Overlooks window →
      ∃ first ∈ stage.survey.recorded, ∃ second ∈ stage.survey.recorded, first ≠ second ∧
        ∃ short ∈ first.instructions, ∃ long ∈ second.instructions,
          Tiling.Clash short long ∧ short.stop < long.stop) := by
  have charted := course.charted (Stage.charted_fresh _ _)
  have harvested := course.harvested (Stage.Harvested.fresh _ _)
  have touches := charted.touches nonempty
  refine ⟨touches, ?_, fun overlooks => overlooks.exists_clash fun _ => harvested.apart⟩
  rw [charted.overlooks_iff nonempty]
  constructor
  · rintro agree ⟨touched, uncovered⟩
    exact uncovered (agree.mpr touched)
  · intro noticed
    exact ⟨touches, fun touched => by_contra fun uncovered => noticed ⟨touched, uncovered⟩⟩

/-- The survey of an analysis before the first window is tried. -/
def entered (options : Options) (image : Image) : Survey :=
  (((begun options image).seedEntryPoints (scope options image) options.entryPoints).seedHandlers
    (scope options image) (seededHandlers options (Profile.read options.layout image))).drain
      (scope options image) options.instructionBudget

theorem course_entered (options : Options) (image : Image) : ∃ merged,
    Stage.Course (scope options image) options.instructionBudget ⟨begun options image, [], []⟩
      ⟨entered options image, [], merged⟩ :=
  ⟨_, (Stage.course_seeded _ _ _ _ _ _).trans (Stage.course_drain _ _ _ _)⟩

/-- A routine that calls the second byte of the jump at its end, which is a return. The third
byte of the jump begins a branch to itself. -/
def shadowedImage : Image :=
  ⟨#[0x20, 0x04, 0x80, 0x4C, 0x60, 0x80, 0xFE]⟩

/-- Options under which the first byte is an entry point and every window of five bytes is
tried. -/
def shadowedOptions : Options :=
  { windowOptions with windowSize := 5, entryPoints := [⟨0x00, 0x8000⟩] }

set_option maxRecDepth 100000 in
/-- The return hides the last byte of the jump. -/
theorem touches_shadowed : (entered shadowedOptions shadowedImage).Touches ⟨5, 7⟩ ∧
    (entered shadowedOptions shadowedImage).isCovered ⟨5, 7⟩ = false := by
  have hidden : (∃ instruction ∈ (entered shadowedOptions shadowedImage).instructions,
      instruction.span.contains 5 = true) ∧
        (entered shadowedOptions shadowedImage).isCovered ⟨5, 7⟩ = false := by
    decide +kernel
  obtain ⟨⟨instruction, recorded, inside⟩, uncovered⟩ := hidden
  exact ⟨⟨instruction, recorded, 5, inside, by decide⟩, uncovered⟩

set_option maxRecDepth 100000 in
/-- A window that is tried has a byte of a recorded instruction in it and does not count as
covered, and so a routine is found at its start. -/
theorem exists_touched_uncovered : shadowedOptions.fault? = none ∧
    (∃ merged, Stage.Course (scope shadowedOptions shadowedImage)
      shadowedOptions.instructionBudget ⟨begun shadowedOptions shadowedImage, [], []⟩
        ⟨entered shadowedOptions shadowedImage, [], merged⟩) ∧
    ∃ window ∈ codeWindows shadowedOptions (scores shadowedOptions shadowedImage),
      window.start < window.stop ∧
      ¬((entered shadowedOptions shadowedImage).isCovered window = true ↔
        (entered shadowedOptions shadowedImage).Touches window) ∧
      ∃ routine ∈ (run shadowedOptions shadowedImage).routines,
        routine.start = window.start ∧ routine.seed = .region := by
  have found : ∃ found ∈ (survey shadowedOptions shadowedImage
      (scores shadowedOptions shadowedImage)).routines.toList,
        found.1.start = 5 ∧ found.1.seed = .region := by
    decide +kernel
  obtain ⟨found, recorded, start, seed⟩ := found
  obtain ⟨touched, uncovered⟩ := touches_shadowed
  rw [run_of_recursive rfl]
  refine ⟨by decide +kernel, course_entered _ _, ⟨5, 7⟩, by decide +kernel, by decide,
    fun agree => ?_, found.1, mem_routines_of_survey recorded, start, seed⟩
  exact Bool.noConfusion (uncovered.symm.trans (agree.mpr touched))

theorem isCovered_iff_touches_iff_shadowed :
    (entered shadowedOptions shadowedImage).Overlooks ⟨5, 7⟩ ∧
    ∃ first ∈ (entered shadowedOptions shadowedImage).recorded,
      ∃ second ∈ (entered shadowedOptions shadowedImage).recorded, first ≠ second ∧
        ∃ short ∈ first.instructions, ∃ long ∈ second.instructions,
          Tiling.Clash short long ∧ short.stop < long.stop := by
  obtain ⟨merged, course⟩ := course_entered shadowedOptions shadowedImage
  obtain ⟨touched, uncovered⟩ := touches_shadowed
  obtain ⟨-, exact, clash⟩ := @isCovered_iff_touches_iff _ _ _ course ⟨5, 7⟩ (by decide)
  have overlooks : (entered shadowedOptions shadowedImage).Overlooks ⟨5, 7⟩ := by
    by_contra noticed
    exact Bool.noConfusion (uncovered.symm.trans ((exact.mpr noticed).mpr touched))
  exact ⟨overlooks, clash overlooks⟩

end Analysis

end Cartridge
