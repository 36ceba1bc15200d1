/-
This file proves that an analysis comes to an end, whatever its options are and however the code
of the image loops back on itself. At every stage that its survey can come to, the traces of
the entries that wait end, and so does the loop over the waves. A trace walks from every
offset of the range at most once, and the whole analysis traces every offset of the range at
most once.
-/

import Cartridge.Proofs.Analysis.Soundness
import Cartridge.Proofs.Survey.Termination

namespace Cartridge

namespace Analysis

/-- The loops of an analysis end: that of the trace of an entry that waits, with no offset
walked from twice; that over the waves; and the whole survey, with no offset traced twice. -/
theorem terminates (options : Options) (image : Image) :
    (∀ stage : Stage, Stage.Course (scope options image) options.instructionBudget
        ⟨begun options image, [], []⟩ stage →
      (∀ entry ∈ stage.survey.queue ++ stage.wave, ∃ walks,
        Trace.Ends (scope options image) entry walks (Trace.run (scope options image) entry) ∧
          (walks.map Walk.start).Nodup ∧
          ∀ walk ∈ walks, (scope options image).range.contains walk.start = true) ∧
      (stage.wave = [] → ∃ traced, Survey.Drains (scope options image)
        options.instructionBudget stage.survey traced
          (stage.survey.drain (scope options image) options.instructionBudget))) ∧
    ∃ traced last, Survey.Runs (scope options image) options.instructionBudget
        options.entryPoints (seededHandlers options (Profile.read options.layout image))
        (codeWindows options (scores options image)) (begun options image) traced last ∧
      (traced.map Entry.offset).Nodup ∧
      (∀ entry ∈ traced, (scope options image).range.contains entry.offset = true) ∧
      (options.strategy = .recursive → run options image =
        assemble (Profile.read options.layout image) (board options image) .recursive
          (scores options image) last []) := by
  have fresh : Stage.Placed (scope options image) ⟨begun options image, [], []⟩ :=
    Stage.Placed.fresh _ _
  refine ⟨fun stage course => ⟨fun entry waiting => ?_, fun between => ?_⟩, ?_⟩
  · have inside := Survey.contains_of_waiting (course.placed fresh) waiting
    have ends := Trace.ends_run inside
    exact ⟨_, ends, Trace.starts_of_ends inside ends⟩
  · obtain ⟨survey, wave, merged⟩ := stage
    obtain rfl : wave = [] := between
    exact Survey.drains_drain (course.placed fresh)
  · obtain ⟨traced, runs⟩ := Survey.runs_run fresh options.entryPoints
      (seededHandlers options (Profile.read options.layout image))
      (codeWindows options (scores options image))
    obtain ⟨once, inside⟩ := runs.nodup fresh
    exact ⟨traced, _, runs, once, inside, fun strategy => run_of_recursive strategy image⟩

/-- A routine that calls the branch behind it, which goes back to the call. -/
def loopingImage : Image :=
  ⟨#[0x22, 0x04, 0x80, 0x00, 0x80, 0xFA]⟩

set_option maxRecDepth 100000 in
theorem terminates_looping : ∃ walks, Trace.Ends (scope bareOptions loopingImage)
      ⟨0, Processor.interrupted, .fallback⟩ walks
      (Trace.run (scope bareOptions loopingImage) ⟨0, Processor.interrupted, .fallback⟩) ∧
    (walks.map Walk.start).Nodup := by
  have offered : Stage.Course (scope bareOptions loopingImage) none
      ⟨begun bareOptions loopingImage, [], []⟩ _ := .single (.offer (.fallback 0))
  obtain ⟨walks, ends, once, -⟩ := ((terminates bareOptions loopingImage).1 _ offered).1
    ⟨0, Processor.interrupted, .fallback⟩ (by decide +kernel)
  exact ⟨walks, ends, once⟩

end Analysis

end Cartridge
