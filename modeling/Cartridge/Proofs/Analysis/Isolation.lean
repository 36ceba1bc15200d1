/-
This file proves that an analysis does not look outside its range. With a layout that the
caller names and without the interrupt handlers, two images of one size that agree on the
range are analyzed alike, along the flow of control as well as from front to back. Only what
is read off the header, and the reports on it, may tell them apart.
-/

import Cartridge.Proofs.Analysis.Soundness
import Cartridge.Proofs.Survey.Agreement

namespace Cartridge

namespace Analysis

/-- Two analyses that found the same. What they say of the header, and what they reported on
the way, may differ. -/
structure SameFindings (first second : Analysis) : Prop where
  routines : first.routines = second.routines
  index : first.index = second.index
  references : first.references = second.references
  symbols : first.symbols = second.symbols
  labels : first.labels = second.labels
  regions : first.regions = second.regions
  issues : first.issues = second.issues
  unanalyzed : first.unanalyzed = second.unanalyzed
  exhausted : first.exhausted = second.exhausted
  decoded : first.decoded = second.decoded

/-- The profile plays no part in what is put together, nor do the bytes of the image. -/
theorem sameFindings_assemble {left right : Survey} (same : left.SameFindings right)
    {first second : Board} (layout : first.layout = second.layout)
    (wiring : first.wiring = second.wiring) (firstProfile secondProfile : Profile)
    (strategy : Strategy) (regions : List Region) (listing : List Instruction) :
    SameFindings (assemble firstProfile first strategy regions left listing)
      (assemble secondProfile second strategy regions right listing) := by
  obtain ⟨events, rfl⟩ := same
  unfold assemble
  rw [layout, wiring]
  constructor <;> rfl

/-! ### Images that agree on the range -/

variable {options : Options} {layout : Layout} {first second : Image}

theorem board_of_layout (forced : options.layout = some layout) (image : Image) :
    board options image = ⟨layout, image⟩ := by
  rw [board, forced]
  rfl

theorem initialIssues_of_layout (forced : options.layout = some layout) (wiring : Wiring)
    (firstProfile secondProfile : Profile) :
    initialIssues options firstProfile wiring = initialIssues options secondProfile wiring := by
  rw [initialIssues, initialIssues, forced]
  rfl

theorem seededHandlers_of_unseeded (unseeded : options.seedVectors = false) (profile : Profile) :
    seededHandlers options profile = [] :=
  if_neg (Bool.eq_false_iff.mp unseeded)

section Agree

variable (forced : options.layout = some layout)
  (agree : first.AgreeOn (effectiveRange options (board options first).wiring) second)

include forced agree

theorem wiring_of_agreeOn : (board options first).wiring = (board options second).wiring := by
  rw [board_of_layout forced, board_of_layout forced]
  exact agree.wiring layout

theorem scores_of_agreeOn : scores options first = scores options second := by
  rw [scores, scores, ← wiring_of_agreeOn forced agree]
  exact Region.classify_eq_of_agreeOn agree _ _ _

theorem sameFindings_begun : (begun options first).SameFindings (begun options second) := by
  refine ⟨(begun options first).events, ?_⟩
  rw [begun, begun, wiring_of_agreeOn forced agree,
    initialIssues_of_layout forced _ (Profile.read options.layout first)
      (Profile.read options.layout second)]

theorem scope_agrees : (scope options first).Agrees (scope options second) := by
  rw [scope, scope, ← wiring_of_agreeOn forced agree]
  rw [board_of_layout forced] at agree
  rw [board_of_layout forced, board_of_layout forced]
  exact agree.scope layout options.maxInstructions

theorem sameFindings_survey (unseeded : options.seedVectors = false) (regions : List Region) :
    (survey options first regions).SameFindings (survey options second regions) := by
  rw [survey, survey, seededHandlers_of_unseeded unseeded, seededHandlers_of_unseeded unseeded]
  exact Survey.sameFindings_run (scope_agrees forced agree) (sameFindings_begun forced agree)
    (Stage.Placed.fresh _ _) _ _ _

theorem listing_of_agreeOn (processor : Processor) :
    (board options first).listing (effectiveRange options (board options first).wiring)
        processor =
      (board options second).listing (effectiveRange options (board options second).wiring)
        processor := by
  rw [← wiring_of_agreeOn forced agree]
  rw [board_of_layout forced] at agree
  rw [board_of_layout forced, board_of_layout forced]
  exact Board.listing_eq_of_agreeOn agree layout processor

end Agree

/-- Bytes outside the range have no part in what is found inside it. -/
theorem sameFindings_of_agreeOn (forced : options.layout = some layout)
    (unseeded : options.seedVectors = false)
    (agree : first.AgreeOn (effectiveRange options (board options first).wiring) second) :
    SameFindings (run options first) (run options second) := by
  have layouts : (board options first).layout = (board options second).layout := by
    rw [board_of_layout forced, board_of_layout forced]
  have wirings := wiring_of_agreeOn forced agree
  cases strategy : options.strategy with
  | recursive =>
    rw [run_of_recursive strategy, run_of_recursive strategy, scores_of_agreeOn forced agree]
    exact sameFindings_assemble (sameFindings_survey forced agree unseeded _) layouts wirings
      _ _ _ _ _
  | linear =>
    rw [run_of_linear strategy, run_of_linear strategy, scores_of_agreeOn forced agree,
      listing_of_agreeOn forced agree]
    refine sameFindings_assemble ?_ layouts wirings _ _ _ _ _
    obtain ⟨events, begunAlike⟩ := sameFindings_begun forced agree
    exact ⟨events, by rw [begunAlike]⟩

/-- A branch over a return to an instruction whose operand lies behind the first four bytes. -/
def clippedImage (operand : UInt8) : Image :=
  ⟨#[0xD0, 0x01, 0x60, 0xAF, operand, 0x80, 0x00, 0x60]⟩

/-- Options under which only the first four bytes are looked at. -/
def clippedOptions (strategy : Strategy) : Options :=
  { bareOptions with range := some ⟨0, 4⟩, strategy := strategy }

set_option maxRecDepth 100000 in
theorem sameFindings_clipped :
    (run (clippedOptions .recursive) (clippedImage 0x22)).routines.length = 1 ∧
      ∀ strategy, SameFindings (run (clippedOptions strategy) (clippedImage 0x22))
        (run (clippedOptions strategy) (clippedImage 0x60)) := by
  refine ⟨by decide +kernel, fun strategy => ?_⟩
  refine sameFindings_of_agreeOn rfl rfl ⟨rfl, fun offset inside => ?_⟩
  have same : ∀ offset < 4,
      (clippedImage 0x22).byte? offset = (clippedImage 0x60).byte? offset := by
    decide
  exact same offset ((Span.contains_iff _ _).mp inside).2

end Analysis

end Cartridge
